import UniversalMesh.Trust.RecoveryStore

/-! The exchange of recovery revocations. `accept_revocation` stores a statement behind the root key and the
authority, and its own scan decodes stored values from offset 32, in front of the authority, so every scan that
reaches one fails. A store takes one revocation, and the second loop of `accept_batch` stops behind the first
statement it writes. -/
namespace UniversalMesh.Trust
open MachineWord Wire ByteReader Reader OrderedMap

variable {record : RecoveryRecord}

theorem TrustStore.under_insert {store : TrustStore} (named : start.isPrefixOf key = true) :
    TrustStore.under (store.insert key value) start =
      TrustStore.under (store.below key) start ++ (key, value) :: TrustStore.under (store.above key) start := by
  simp only [TrustStore.under, entries_insert, List.filter_append, List.filter_cons, named, if_true]

theorem RecoveryRecord.heldStatement_value (structured : record.Structured) :
    RecoveryStore.heldStatement record.value = some record.statement := by
  have authority := RecoveryAuthorization.toBytes_length structured.authority_toBytes
  have front : (record.root.val ++
      (record.authority.signedBytes ++ record.authority.signature.val)).length = 186 := by
    rw [List.length_append, record.root.2, authority]
  have long : 186 ≤ record.value.length := by
    rw [RecoveryRecord.value, List.length_append, front]
    omega
  rw [RecoveryStore.heldStatement, if_pos long, RecoveryRecord.value, List.drop_left' front,
    RecoveryRevocation.fromBytes_toBytes structured.statement_toBytes]
  rfl

namespace RecoveryStore

variable {suite : Suite} {store : TrustStore} {nowMs : UInt64} (statement : RecoveryRevocation)

theorem priorRecord_append : priorRecord statement (first ++ rest) =
      priorRecord statement first >>= fun found => if found then .ok true else priorRecord statement rest := by
  induction first with
  | nil => rfl
  | cons entry others ih =>
    simp only [List.cons_append, priorRecord]
    cases valueFrom 32 entry.2 with
    | error e => rfl
    | ok bytes =>
      cases existing : RecoveryRevocation.fromBytes bytes with
      | error e => simp [existing, bind, Except.bind]
      | ok found =>
        simp only [existing, ok_bind]
        split
        · split <;> rfl
        · exact ih

theorem priorRecord_value {key : Bytes} :
    priorRecord statement ((key, record.value) :: rest) = .error .oversized := by
  have long := record.value_tail_length
  have reaches : 32 ≤ record.value.length := by
    rw [List.length_drop] at long
    omega
  have refused : RecoveryRevocation.fromBytes (record.value.drop 32) = .error .oversized := by
    rw [RecoveryRevocation.fromBytes, decodeWhole, show decide ((record.value.drop 32).length >
      maxRecoveryStatement) = true from decide_eq_true long]
    rfl
  simp only [priorRecord, valueFrom, if_pos reaches, ok_bind, refused]
  rfl

theorem priorRecord_inserted : priorRecord statement (TrustStore.under
        (store.insert (recoveryRevocationKey record.statement) record.value) recoveryPrefix) =
      priorRecord statement (TrustStore.under
          (store.below (recoveryRevocationKey record.statement)) recoveryPrefix) >>= fun found =>
        if found then .ok true else .error .oversized := by
  rw [TrustStore.under_insert recoveryPrefix_key, priorRecord_append]
  simp only [priorRecord_value]

variable {record : RecoveryRecord} {items records : List RecoveryRecord}

/-- A scan that ends without finding the statement has met no stored revocation. -/
theorem not_mem_of_priorRecord {statement : RecoveryRevocation}
    (absent : priorRecord statement (store.under recoveryPrefix) = .ok false)
    (named : recoveryPrefix.isPrefixOf key = true) : (key, record.value) ∉ store := by
  intro member
  obtain ⟨before, after, shape⟩ := List.append_of_mem (TrustStore.mem_under.mpr ⟨member, named⟩)
  rw [shape, priorRecord_append] at absent
  obtain ⟨found, -, rest⟩ := bind_ok.mp absent
  cases found with
  | true => cases rest
  | false =>
    rw [if_neg Bool.false_ne_true, priorRecord_value] at rest
    cases rest

theorem commit_cons (rest : List RecoveryRecord)
    (valid : item.statement.validate suite item.authority item.root nowMs = .ok ()) :
    commit suite nowMs store (item :: rest) =
      match priorRecord item.statement (store.under recoveryPrefix) with
      | .error e => (.error e, store)
      | .ok true => commit suite nowMs store rest
      | .ok false =>
        commit suite nowMs (store.insert (recoveryRevocationKey item.statement) item.value) rest := by
  rw [commit, acceptRevocation_of_valid valid]
  cases priorRecord item.statement (store.under recoveryPrefix) with
  | error e => rfl
  | ok present => cases present <;> rfl

def AllValid (suite : Suite) (nowMs : UInt64) (items : List RecoveryRecord) : Prop :=
  ∀ record ∈ items, record.statement.validate suite record.authority record.root nowMs = .ok ()

/-- Behind the first statement it writes, the second loop writes nothing more, and it succeeds exactly when each
remaining statement is recorded in front. -/
theorem commit_after_write {new : RecoveryRecord} (valid : AllValid suite nowMs items) :
    let written := store.insert (recoveryRevocationKey new.statement) new.value
    (commit suite nowMs written items).2 = written ∧
      ((commit suite nowMs written items).1 = .ok () ↔
        ∀ record ∈ items, priorRecord record.statement (TrustStore.under
          (store.below (recoveryRevocationKey new.statement)) recoveryPrefix) = .ok true) := by
  intro written
  induction items with
  | nil => simp [commit]
  | cons record rest ih =>
    obtain ⟨first, others⟩ := List.forall_mem_cons.mp valid
    rw [List.forall_mem_cons, commit_cons rest first, priorRecord_inserted]
    cases found : priorRecord record.statement (TrustStore.under
        (store.below (recoveryRevocationKey new.statement)) recoveryPrefix) with
    | error e => simp [bind, Except.bind]
    | ok present =>
      cases present with
      | false => simp
      | true => simpa using ih others

/-- Behind statements the scan finds in the store and one that is new to it, every later one is found below the
place of the new one. -/
def OneNew (store : TrustStore) (items : List RecoveryRecord) : Prop :=
  ∀ recorded new rest, items = recorded ++ new :: rest →
    (∀ record ∈ recorded, priorRecord record.statement (store.under recoveryPrefix) = .ok true) →
    priorRecord new.statement (store.under recoveryPrefix) = .ok false →
    ∀ record ∈ rest, priorRecord record.statement
      (TrustStore.under (store.below (recoveryRevocationKey new.statement)) recoveryPrefix) = .ok true

theorem oneNew_cons :
    OneNew store (item :: rest) ↔
      (priorRecord item.statement (store.under recoveryPrefix) = .ok true → OneNew store rest) ∧
      (priorRecord item.statement (store.under recoveryPrefix) = .ok false →
        ∀ record ∈ rest, priorRecord record.statement (TrustStore.under
          (store.below (recoveryRevocationKey item.statement)) recoveryPrefix) = .ok true) := by
  constructor
  · intro single
    constructor
    · intro present recorded new later shape found
      refine single (item :: recorded) new later (by rw [shape, List.cons_append]) ?_
      exact List.forall_mem_cons.mpr ⟨present, found⟩
    · apply single [] item rest rfl
      simp
  · rintro ⟨behind, first⟩ recorded new later shape found absent
    cases recorded with
    | nil =>
      cases shape
      exact first absent
    | cons head others =>
      cases shape
      obtain ⟨present, found⟩ := List.forall_mem_cons.mp found
      exact behind present others new later rfl found absent

/-- A failing second loop leaves the store as it was exactly when it fails before its one write. -/
theorem commit_unchanged_iff (valid : AllValid suite nowMs items) :
    (∀ e, (commit suite nowMs store items).1 = .error e → (commit suite nowMs store items).2 = store) ↔
      OneNew store items := by
  induction items with
  | nil =>
    refine ⟨fun _ recorded new rest shape => ?_, fun _ _ _ => rfl⟩
    simp at shape
  | cons item rest ih =>
    obtain ⟨first, others⟩ := List.forall_mem_cons.mp valid
    rw [commit_cons rest first, oneNew_cons]
    cases scanned : priorRecord item.statement (store.under recoveryPrefix) with
    | error e => simp
    | ok present =>
      cases present with
      | true => simpa using ih others
      | false =>
        have after : (commit suite nowMs (store.insert (recoveryRevocationKey item.statement) item.value)
            rest).2 = _ ∧ _ := commit_after_write others
        obtain ⟨kept, succeeds⟩ := after
        simp only [Except.ok.injEq, Bool.false_eq_true, IsEmpty.forall_iff, true_and, forall_const, ← succeeds]
        constructor
        · intro unchanged
          cases result : (commit suite nowMs
              (store.insert (recoveryRevocationKey item.statement) item.value) rest).1 with
          | ok passed => rfl
          | error e =>
            -- the record just written is in the store behind the loop, and was not in the one before
            have same := kept.symm.trans (unchanged e result)
            have member : (recoveryRevocationKey item.statement, item.value) ∈ store :=
              same ▸ mem_insert.mpr (.inl rfl)
            exact absurd member (not_mem_of_priorRecord scanned recoveryPrefix_key)
        · intro passed e failed
          cases passed.symm.trans failed

theorem acceptBatch_unchanged_iff (suite : Suite) (store : TrustStore) (bytes : Bytes) (nowMs : UInt64) :
    (∀ e, (acceptBatch suite store bytes nowMs).1 = .error e →
        (acceptBatch suite store bytes nowMs).2 = store) ↔
      ∀ items, verifiedBatch suite store bytes nowMs = .ok items → OneNew store items := by
  cases verified : verifiedBatch suite store bytes nowMs with
  | error e =>
    rw [acceptBatch_of_refused verified]
    simp
  | ok items =>
    have valid : AllValid suite nowMs items := by
      intro record member
      have passed := forM_ok.mp (verifiedBatch_ok.mp verified).2 record member
      obtain ⟨-, passed⟩ := check_bind_ok.mp passed
      exact (check_bind_ok.mp passed).1
    rw [acceptBatch_of_verified verified]
    simp only [Except.ok.injEq, forall_eq', ← commit_unchanged_iff valid]
    cases (commit suite nowMs store items).1 with
    | error e => simp [Except.map]
    | ok passed => simp [Except.map]

/-- The bytes of one item of a batch. -/
def itemBytes (record : RecoveryRecord) : Bytes :=
  record.root.val ++
    (toBeBytes 2 (record.authority.signedBytes ++ record.authority.signature.val).length ++
      (record.authority.signedBytes ++ record.authority.signature.val)) ++
    (toBeBytes 2 (record.statement.signedBytes ++ record.statement.signature.val).length ++
      (record.statement.signedBytes ++ record.statement.signature.val))

theorem readLengthBytes_reads (bound : bytes.length < 65536) :
    Reads readLengthBytes bytes (toBeBytes 2 bytes.length ++ bytes) :=
  (length16_reads _ bound).bind (slice_reads _ bytes)

theorem readItem_reads (structured : record.Structured) : Reads readItem record (itemBytes record) := by
  have granted := structured.authority_toBytes
  have encoded := structured.statement_toBytes
  have short := RecoveryAuthorization.toBytes_length granted
  have long := RecoveryRevocation.toBytes_length encoded
  have fields : itemBytes record = record.root.val ++
      ((toBeBytes 2 (record.authority.signedBytes ++ record.authority.signature.val).length ++
        (record.authority.signedBytes ++ record.authority.signature.val)) ++
      ([] ++ ((toBeBytes 2 (record.statement.signedBytes ++ record.statement.signature.val).length ++
        (record.statement.signedBytes ++ record.statement.signature.val)) ++ ([] ++ [])))) := by
    simp [itemBytes]
  rw [fields]
  exact (array_reads _ _).bind <| (readLengthBytes_reads (by omega)).bind <|
    (lift_reads (RecoveryAuthorization.fromBytes_toBytes granted)).bind <|
    (readLengthBytes_reads (by omega)).bind <|
    (lift_reads (RecoveryRevocation.fromBytes_toBytes encoded)).bind .pure

/-- The payload of a list of items. -/
def batchBytes (items : List RecoveryRecord) : Bytes :=
  batchMagic ++ toBeBytes 2 items.length ++ items.flatMap itemBytes

theorem itemBytes_length (record : RecoveryRecord) : (itemBytes record).length ≤ 416 := by
  have authority := record.authority.signedBytes_length
  have statement := record.statement.signedBytes_length
  simp only [itemBytes, List.length_append, toBeBytes_length, record.root.2, record.authority.signature.2,
    record.statement.signature.2]
  omega

theorem flatMap_itemBytes_length (items : List RecoveryRecord) :
    (items.flatMap itemBytes).length ≤ 416 * items.length := by
  induction items with
  | nil => simp
  | cons record rest ih =>
    have first := itemBytes_length record
    rw [List.flatMap_cons, List.length_append, List.length_cons]
    omega

theorem batchBytes_length (few : items.length ≤ maxBatchEntries) :
    (batchBytes items).length ≤ maxBatchBytes := by
  have each := flatMap_itemBytes_length items
  simp only [maxBatchEntries] at few
  simp only [batchBytes, batchMagic, maxBatchBytes, List.length_append, toBeBytes_length, List.length_cons,
    List.length_nil]
  omega

theorem decodeBatch_batchBytes (structured : ∀ record ∈ items, record.Structured)
    (few : items.length ≤ maxBatchEntries) : decodeBatch (batchBytes items) = .ok items := by
  have begins : (batchBytes items).take 3 = batchMagic := by
    rw [batchBytes, List.append_assoc]
    exact List.take_left' rfl
  have large : ¬ items.length > maxBatchEntries := Nat.not_lt.mpr few
  have count : items.length < 65536 := by
    rw [maxBatchEntries] at few
    omega
  have reads : Reads readBatch items (batchBytes items) := by
    exact (slice_reads _ batchMagic).bind <| (length16_reads _ count).bind <|
      (Reads.refuseIf (decide_eq_false large)).bind <|
      .times fun record member => readItem_reads (structured record member)
  have small := batchBytes_length few
  have admitted : decide ((batchBytes items).length > maxBatchBytes ∨
      (batchBytes items).take 3 ≠ batchMagic) = false := by
    simp [begins, Nat.not_lt.mpr small]
  rw [decodeBatch, admitted, refuse_bind_ok, reads.run (List.prefix_refl _)]
  simp [refuse]

theorem lengthBytes_ok (bound : bytes.length ≤ 65535) :
    lengthBytes bytes = .ok (toBeBytes 2 bytes.length ++ bytes) := by
  rw [lengthBytes, refuse_bind_ok]
  exact ⟨decide_eq_false (Nat.not_lt.mpr bound), rfl⟩

theorem exportItem_value (structured : record.Structured) :
    exportItem record.value = .ok (itemBytes record) := by
  have granted := structured.authority_toBytes
  have encoded := structured.statement_toBytes
  have short := RecoveryAuthorization.toBytes_length granted
  have long := RecoveryRevocation.toBytes_length encoded
  have authority := lengthBytes_ok (show _ ≤ 65535 from by rw [short]; decide)
  have statement := lengthBytes_ok (show _ ≤ 65535 from long.2.trans (by decide))
  rw [exportItem, RecoveryRecord.value, splitRecord_append _ short]
  simp only [ok_bind, authority, statement, itemBytes]

theorem appendItems_ok {out : Bytes} {items : List Bytes}
    (small : (out ++ items.flatten).length ≤ maxBatchBytes) :
    appendItems out items = .ok (out ++ items.flatten) := by
  induction items generalizing out with
  | nil => simp [appendItems]
  | cons item rest ih =>
    rw [List.flatten_cons, ← List.append_assoc] at small ⊢
    have fits : ¬ (out ++ item).length > maxBatchBytes := by
      rw [List.length_append] at small
      omega
    rw [appendItems, refuse_bind_ok]
    exact ⟨decide_eq_false fits, ih small⟩

theorem mapM_exportItem (structured : ∀ record ∈ records, record.Structured) :
    (records.map fun record => (recoveryRevocationKey record.statement, record.value)).mapM
      (fun entry : Bytes × Bytes => exportItem entry.2) = .ok (records.map itemBytes) := by
  induction records with
  | nil => rfl
  | cons record rest ih =>
    obtain ⟨first, others⟩ := List.forall_mem_cons.mp structured
    simp only [List.map_cons, List.mapM_cons, exportItem_value first, ih others, ok_bind]
    rfl

/-- A store that holds at most the bound of records exports exactly their batch. -/
theorem exportBatch_records (held : store.under recoveryPrefix =
      records.map fun record => (recoveryRevocationKey record.statement, record.value))
    (structured : ∀ record ∈ records, record.Structured) (few : records.length ≤ maxBatchEntries) :
    exportBatch store = .ok (batchBytes records) := by
  have all : (records.map fun record =>
      (recoveryRevocationKey record.statement, record.value)).take maxBatchEntries = _ :=
    List.take_of_length_le (by rwa [List.length_map])
  rw [exportBatch, held, all, mapM_exportItem structured, ok_bind, List.length_map]
  have small := batchBytes_length few
  rw [appendItems_ok small, batchBytes, List.flatMap_def]

/-- The store behind `accept_revocation` calls, each at its own time; one that fails changes
nothing. -/
def filled (suite : Suite) (start : TrustStore) (calls : List (RecoveryRecord × UInt64)) : TrustStore :=
  calls.foldl (fun store call => (acceptRevocation suite store call.1.statement call.1.authority
    call.1.root call.2).toOption.getD store) start

/-- The recovery revocations of a store are the values of at most one verified record. -/
def HoldsAtMostOne (suite : Suite) (store : TrustStore) : Prop :=
  ∃ records : List RecoveryRecord, records.length ≤ 1 ∧
    (∀ record ∈ records, record.statement.verify suite record.authority record.root = .ok ()) ∧
    store.under recoveryPrefix =
      records.map fun record => (recoveryRevocationKey record.statement, record.value)

theorem HoldsAtMostOne.acceptRevocation (held : HoldsAtMostOne suite store) :
    HoldsAtMostOne suite ((acceptRevocation suite store record.statement record.authority record.root
      nowMs).toOption.getD store) := by
  cases accepted : RecoveryStore.acceptRevocation suite store record.statement record.authority record.root
      nowMs with
  | error e => exact held
  | ok written =>
    obtain ⟨records, -, -, shape⟩ := held
    have valid := (acceptRevocation_cases accepted).1
    rw [acceptRevocation_of_valid valid, shape] at accepted
    cases records with
    | cons stored rest =>
      rw [List.map_cons, priorRecord_value] at accepted
      cases accepted
    | nil =>
      cases accepted
      refine ⟨[record], Nat.le_refl 1, ?_, ?_⟩
      · simpa using (RecoveryRevocation.validate_ok.mp valid).1
      · show TrustStore.under (store.insert _ _) recoveryPrefix = _
        rw [TrustStore.under_insert recoveryPrefix_key, OrderedMap.below,
          OrderedMap.above, TrustStore.under_filter, TrustStore.under_filter, shape]
        rfl

theorem filled_holdsAtMostOne (fresh : start.under recoveryPrefix = []) :
    HoldsAtMostOne suite (filled suite start calls) :=
  Run.invariant (fun _ _ held => held.acceptRevocation)
    ⟨[], Nat.zero_le 1, fun _ member => absurd member List.not_mem_nil, fresh⟩

theorem statements_of_records (shape : store.under recoveryPrefix =
      records.map fun record => (recoveryRevocationKey record.statement, record.value))
    (structured : ∀ record ∈ records, record.Structured) :
    statements store = records.map RecoveryRecord.statement := by
  rw [statements, shape, List.filterMap_map, ← List.filterMap_eq_map]
  apply List.filterMap_congr
  intro record member
  exact RecoveryRecord.heldStatement_value (structured record member)

theorem statement_mem_insert (structured : record.Structured) :
    record.statement ∈ statements
      (store.insert (recoveryRevocationKey record.statement) record.value) := by
  have member : (recoveryRevocationKey record.statement, record.value) ∈
      store.insert (recoveryRevocationKey record.statement) record.value :=
    mem_insert.mpr (.inl rfl)
  exact List.mem_filterMap.mpr ⟨_, TrustStore.mem_under.mpr ⟨member, recoveryPrefix_key⟩,
    RecoveryRecord.heldStatement_value structured⟩

section
variable (valid : record.statement.validate suite record.authority record.root nowMs = .ok ())
include valid

theorem acceptBatch_single (agrees : conflicts store record.statement = false) :
    acceptBatch suite store (batchBytes [record]) nowMs =
      match priorRecord record.statement (store.under recoveryPrefix) with
      | .error e => (.error e, store)
      | .ok true => (.ok 1, store)
      | .ok false => (.ok 1, store.insert (recoveryRevocationKey record.statement) record.value) := by
  have verified := (RecoveryRevocation.validate_ok.mp valid).1
  have structured : ∀ other ∈ [record], other.Structured := by
    intro other member
    obtain rfl := List.mem_singleton.mp member
    exact RecoveryRevocation.structure_of_verify verified
  have passed : verifyItem suite store nowMs record = .ok () := by
    have signed := (check_bind_ok.mp verified).1
    rw [verifyItem, check_bind_ok, check_bind_ok, agrees]
    exact ⟨signed, valid, rfl⟩
  have decoded := decodeBatch_batchBytes structured (by simp [maxBatchEntries])
  have accepted : verifiedBatch suite store (batchBytes [record]) nowMs = .ok [record] :=
    verifiedBatch_ok.mpr ⟨decoded, forM_ok.mpr (by simpa using passed)⟩
  rw [acceptBatch_of_verified accepted, commit_cons [] valid]
  cases priorRecord record.statement (store.under recoveryPrefix) with
  | error e => rfl
  | ok present => cases present <;> rfl

/-- The scan of `accept_revocation` does not stumble: it ends without the statement, or finds it and the store
holds it. -/
def Importable (store : TrustStore) (statement : RecoveryRevocation) : Prop :=
  priorRecord statement (store.under recoveryPrefix) = .ok false ∨
    priorRecord statement (store.under recoveryPrefix) = .ok true ∧ statement ∈ statements store

theorem importable_iff (agrees : conflicts store record.statement = false) :
    (∃ count written, acceptBatch suite store (batchBytes [record]) nowMs = (.ok count, written) ∧
        record.statement ∈ statements written) ↔ Importable store record.statement := by
  rw [acceptBatch_single valid agrees]
  constructor
  · rintro ⟨count, written, accepted, found⟩
    cases scanned : priorRecord record.statement (store.under recoveryPrefix) with
    | error e =>
      rw [scanned] at accepted
      cases accepted
    | ok present =>
      cases present with
      | false => exact .inl scanned
      | true =>
        rw [scanned] at accepted
        cases accepted
        exact .inr ⟨scanned, found⟩
  · rintro (absent | ⟨present, found⟩)
    · have structured : record.Structured :=
        RecoveryRevocation.structure_of_verify (RecoveryRevocation.validate_ok.mp valid).1
      rw [absent]
      exact ⟨1, _, rfl, statement_mem_insert structured⟩
    · rw [present]
      exact ⟨1, store, rfl, found⟩

end

/-- A store filled by `accept_revocation` is imported whole exactly when the importing store's own scan does not
stumble on what it holds; a failing import leaves the store as it was exactly when the batch has no statement
behind the one it writes. -/
theorem recovery_batch_exchange (suite : Suite) :
    (∀ (start target : TrustStore) (calls : List (RecoveryRecord × UInt64)) (nowMs : UInt64),
      start.under recoveryPrefix = [] →
      (∀ statement ∈ statements (filled suite start calls),
        InWindow statement.issuedAtMs statement.expiresAtMs nowMs) →
      (∀ statement ∈ statements (filled suite start calls), conflicts target statement = false) →
      ((∃ bytes count written, exportBatch (filled suite start calls) = .ok bytes ∧
          acceptBatch suite target bytes nowMs = (.ok count, written) ∧
          ∀ statement ∈ statements (filled suite start calls), statement ∈ statements written) ↔
        ∀ statement ∈ statements (filled suite start calls), Importable target statement)) ∧
    ∀ (store : TrustStore) (bytes : Bytes) (nowMs : UInt64),
      (∀ e, (acceptBatch suite store bytes nowMs).1 = .error e →
          (acceptBatch suite store bytes nowMs).2 = store) ↔
        ∀ items, verifiedBatch suite store bytes nowMs = .ok items → OneNew store items := by
  refine ⟨?_, acceptBatch_unchanged_iff suite⟩
  intro start target calls nowMs fresh active agrees
  have held : HoldsAtMostOne suite (filled suite start calls) := filled_holdsAtMostOne fresh
  obtain ⟨records, few, verified, shape⟩ := held
  have structured : ∀ record ∈ records, record.Structured := fun record member =>
    RecoveryRevocation.structure_of_verify (verified record member)
  have exported := exportBatch_records shape structured (few.trans (by decide))
  rw [statements_of_records shape structured] at active agrees ⊢
  rw [exported]
  cases records with
  | nil =>
    refine ⟨fun _ _ member => absurd member List.not_mem_nil, fun _ => ?_⟩
    refine ⟨_, 0, target, rfl, ?_, fun _ member => absurd member List.not_mem_nil⟩
    rfl
  | cons record rest =>
    obtain rfl : rest = [] := List.eq_nil_of_length_eq_zero (by simpa using few)
    have valid := RecoveryRevocation.validate_ok.mpr
      ⟨verified record List.mem_cons_self, active record.statement List.mem_cons_self⟩
    have single := importable_iff valid (agrees record.statement List.mem_cons_self)
    simp only [List.map_cons, List.map_nil, List.mem_singleton, forall_eq]
    rw [← single]
    constructor
    · rintro ⟨bytes, count, written, same, imported⟩
      cases same
      exact ⟨count, written, imported⟩
    · rintro ⟨count, written, imported⟩
      exact ⟨_, count, written, rfl, imported⟩

/-- The store of a node that accepted the recovery of its own identity. -/
def recoveredStore (root recovery : UInt8) : TrustStore :=
  filled plainSuite .empty ((plainRecord root recovery (.identity (plainEndpoint root)) 0).map (·, 2))

theorem recovery_batch_exchange_empty :
    (statements (recoveredStore 1 2)).length = 1 ∧
      ∃ bytes count written, exportBatch (recoveredStore 1 2) = .ok bytes ∧
        acceptBatch plainSuite .empty bytes 3 = (.ok count, written) ∧
        ∀ statement ∈ statements (recoveredStore 1 2), statement ∈ statements written := by
  refine ⟨by decide +kernel, ?_⟩
  refine ((recovery_batch_exchange plainSuite).1 .empty .empty _ 3 rfl ?_ ?_).mpr ?_
  · decide +kernel
  · decide +kernel
  · exact fun statement _ => .inl rfl

/-- A node with one recovery revocation cannot import that of another identity, and a batch of the two leaves
the first one behind when it fails. -/
theorem second_revocation_refused :
    (∀ statement ∈ statements (recoveredStore 1 2), conflicts (recoveredStore 3 4) statement = false) ∧
      (exportBatch (recoveredStore 1 2)).map
          (fun bytes => (acceptBatch plainSuite (recoveredStore 3 4) bytes 3).1) =
        .ok (.error .oversized) ∧
      acceptBatch plainSuite .empty (batchBytes (plainRecord 1 2 (.identity (plainEndpoint 1)) 0 ++
          plainRecord 3 4 (.identity (plainEndpoint 3)) 0)) 3 = (.error .oversized, recoveredStore 1 2) ∧
      recoveredStore 1 2 ≠ .empty := by
  decide +kernel

end RecoveryStore
end UniversalMesh.Trust
