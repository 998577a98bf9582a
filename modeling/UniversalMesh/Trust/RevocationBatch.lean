import UniversalMesh.Lib.Sequenced
import UniversalMesh.Trust.Delegation
import UniversalMesh.Trust.Revocation

/-! The exchange of signed revocations of `revocation.rs`. An import compares each item with the stored
statements and with those taken before it; it refines the pass of `Lib.Sequenced` with issuer and subject as the
slot and the sequence as the rank. -/
namespace UniversalMesh.Trust
open MachineWord Wire ByteReader Reader

namespace RevocationStore

abbrev SignedRecord := Octets 32 × SignedRevocation

def maxSignedBatchEntries : Nat := 64

def maxSignedBatchBytes : Nat := 16 * 1024

/-- `b"RS\\x01"`. -/
def signedBatchMagic : Bytes := [0x52, 0x53, 0x01]

/-! ### Export -/

/-- `export_signed_batch_at` leaves out what is not active. -/
def active (nowMs : UInt64) (statement : SignedRevocation) : Bool :=
  decide (InWindow statement.issuedAtMs statement.expiresAtMs nowMs)

/-- The bytes `export_signed_batch_at` appends for one record. -/
def exportRecord (record : SignedRecord) : Except RevocationError Bytes := do
  let encoded ← record.2.toBytes.mapError fun e => .invalid ("invalid persisted revocation: " ++ e.debug)
  refuse (encoded.length > 65535) (.invalid "revocation batch item too large")
  .ok (record.1.val ++ toBeBytes 2 encoded.length ++ encoded)

/-- The loop of `export_signed_batch_at` over the active records: the items, and their count. -/
def exportItems (out : Bytes) (count : Nat) : List SignedRecord → Except RevocationError (Bytes × Nat)
  | [] => .ok (out, count)
  | record :: rest =>
    if count = maxSignedBatchEntries then .ok (out, count)
    else do
      let item ← exportRecord record
      refuse (5 + (out ++ item).length > maxSignedBatchBytes) (.invalid "revocation batch too large")
      exportItems (out ++ item) (count + 1) rest

def exportSignedBatchAt (suite : Suite) (store : TrustStore) (nowMs : UInt64) :
    Except RevocationError Bytes := do
  let records ← (signedRecordEntries suite store).mapError .storage
  let (items, count) ← exportItems [] 0 (records.filter fun record => active nowMs record.2)
  refuse (count > 65535) (.invalid "revocation batch count")
  .ok (signedBatchMagic ++ toBeBytes 2 count ++ items)

/-! ### Import -/

def invalidStatement (e : RevocationStatementError) : RevocationError :=
  .invalid ("invalid statement: " ++ e.debug)

/-- The subjects that travel: those of the issuer itself, and delegations. -/
def propagates (statement : SignedRevocation) : Bool :=
  statement.isSelfAuthorized || match statement.subject with
    | .delegation _ => true
    | _ => false

/-- An item of a batch with its canonical encoding. -/
structure BatchItem where
  record : SignedRecord
  encoded : Bytes
  deriving DecidableEq

/-- The part of the loop of `accept_signed_batch` that reads and verifies one item. -/
def readSignedItem (suite : Suite) (nowMs : UInt64) : Reader RevocationError UInt8 BatchItem := do
  let issuer ← array (.invalid "truncated issuer key") 32
  let length ← length16 (.invalid "truncated item length")
  let bytes ← slice (.invalid "truncated statement") length
  let statement ← lift ((SignedRevocation.fromBytes bytes).mapError invalidStatement)
  lift ((statement.validate suite issuer nowMs).mapError invalidStatement)
  refuseIf (!propagates statement) (.invalid "unauthorized propagated statement")
  let encoded ← lift (statement.toBytes.mapError invalidStatement)
  pure { record := (issuer, statement), encoded }

/-- A candidate of the same issuer about the same subject with a higher sequence. -/
def supersedes (statement candidate : SignedRevocation) : Bool :=
  candidate.issuerEndpointId = statement.issuerEndpointId ∧ candidate.subject = statement.subject ∧
    candidate.sequence > statement.sequence

def sameSequence (statement candidate : SignedRevocation) : Bool :=
  candidate.issuerEndpointId = statement.issuerEndpointId ∧ candidate.subject = statement.subject ∧
    candidate.sequence = statement.sequence

def sameRecord (encoded : Bytes) (statement candidate : SignedRevocation) : Bool :=
  sameSequence statement candidate && decide (candidate.toBytes.toOption = some encoded)

/-- The part that compares one item with the stored records and the entries taken so far, and takes it unless it
is among them. -/
def admitItem (existing entries : List SignedRecord) (item : BatchItem) :
    Except RevocationError (List SignedRecord) := do
  let statement := item.record.2
  refuse (existing.any (fun held => supersedes statement held.2) ||
    entries.any fun held => supersedes statement held.2) (.invalid "revocation sequence regressed")
  let conflicting := fun (held : SignedRecord) =>
    sameSequence statement held.2 && !sameRecord item.encoded statement held.2
  refuse (existing.any conflicting || entries.any conflicting) (.invalid "conflicting revocation sequence")
  let recorded := fun (held : SignedRecord) => sameRecord item.encoded statement held.2
  .ok (if existing.any recorded || entries.any recorded then entries else entries ++ [item.record])

/-- The loop of `accept_signed_batch`. -/
def admitItems (suite : Suite) (nowMs : UInt64) (existing : List SignedRecord) :
    Nat → List SignedRecord → Reader RevocationError UInt8 (List SignedRecord)
  | 0, entries => pure entries
  | count + 1, entries => do
    let item ← readSignedItem suite nowMs
    let entries ← lift (admitItem existing entries item)
    admitItems suite nowMs existing count entries

/-- The count behind the magic bytes. -/
def readCount : Reader RevocationError UInt8 Nat := do
  let _ ← slice (.invalid "truncated revocation batch") 3
  let count ← length16 (.invalid "truncated revocation batch")
  refuseIf (count > maxSignedBatchEntries) (.invalid "revocation batch count")
  pure count

/-- The authority an accepted statement about a delegation needs. -/
def checkAuthority (suite : Suite) (store : TrustStore) (nowMs : UInt64) (record : SignedRecord) :
    Except RevocationError Unit :=
  match record.2.subject with
  | .delegation subject => do
    let found ← (DelegationStore.validChainContainingPublicKey suite store subject nowMs).mapError .storage
    match found with
    | none => .error (.invalid "delegation revocation has no local authority chain")
    | some chain =>
      refuse (chain.rootPublicKey ≠ record.1) (.invalid "delegation revocation issuer is not the chain root")
  | _ => .ok ()

/-- The key and the value under which an accepted entry is stored. -/
def writeOf (suite : Suite) (store : TrustStore) (nowMs : UInt64) (record : SignedRecord) :
    Except RevocationError (Bytes × Bytes) := do
  checkAuthority suite store nowMs record
  let encoded ← record.2.toBytes.mapError invalidStatement
  .ok (signedRevocationKey record.2, record.1.val ++ encoded)

/-- `put_batch` on the trust namespace. -/
def putBatch (store : TrustStore) (writes : List (Bytes × Bytes)) : TrustStore :=
  writes.foldl (fun store write => store.insert write.1 write.2) store

/-- `RevocationStore::accept_signed_batch`. It writes last, so a failure leaves the store as it was. -/
def acceptSignedBatch (suite : Suite) (store : TrustStore) (bytes : Bytes) (nowMs : UInt64) :
    Except RevocationError (Nat × TrustStore) := do
  refuse (bytes.length > maxSignedBatchBytes ∨ bytes.take 3 ≠ signedBatchMagic) (.invalid "invalid revocation batch")
  let (count, offset) ← readCount.run bytes
  let existing ← (signedRecordEntries suite store).mapError .storage
  let (entries, offset) ← admitItems suite nowMs existing count [] bytes offset
  refuse (offset ≠ bytes.length) (.invalid "trailing revocation batch bytes")
  let writes ← entries.mapM (writeOf suite store nowMs)
  .ok (entries.length, putBatch store writes)

/-! ### The loop as a pass over the statements -/

/-- The items of a batch, without regard to the store. -/
def batchItems (suite : Suite) (bytes : Bytes) (nowMs : UInt64) : Except RevocationError (List BatchItem) := do
  refuse (bytes.length > maxSignedBatchBytes ∨ bytes.take 3 ≠ signedBatchMagic) (.invalid "invalid revocation batch")
  let (count, offset) ← readCount.run bytes
  let (items, offset) ← times count (readSignedItem suite nowMs) bytes offset
  refuse (offset ≠ bytes.length) (.invalid "trailing revocation batch bytes")
  .ok items

/-- What a statement is about. -/
def slot (statement : SignedRevocation) : Octets 32 × RevocationSubject :=
  (statement.issuerEndpointId, statement.subject)

def rank (statement : SignedRevocation) : Nat := statement.sequence.toNat

def statements (records : List SignedRecord) : List SignedRevocation := records.map Prod.snd

variable {suite : Suite} {store written : TrustStore} {bytes : Bytes} {nowMs : UInt64}
  {existing entries result : List SignedRecord} {item : BatchItem} {items : List BatchItem}
  {statement candidate : SignedRevocation} {record : SignedRecord}

/-- An item whose statement verifies and encodes. -/
def BatchItem.Checked (suite : Suite) (nowMs : UInt64) (item : BatchItem) : Prop :=
  item.record.2.validate suite item.record.1 nowMs = .ok () ∧ item.record.2.toBytes = .ok item.encoded

theorem readSignedItem_checked (body : Bytes) (pos : Nat) (item : BatchItem) (mid : Nat)
    (read : readSignedItem suite nowMs body pos = .ok (item, mid)) : item.Checked suite nowMs := by
  obtain ⟨issuer, _, -, read⟩ := bind_run_ok.mp read
  obtain ⟨length, _, -, read⟩ := bind_run_ok.mp read
  obtain ⟨bytes, _, -, read⟩ := bind_run_ok.mp read
  obtain ⟨statement, _, -, read⟩ := bind_run_ok.mp read
  obtain ⟨_, _, valid, read⟩ := bind_run_ok.mp read
  obtain ⟨_, _, -, read⟩ := bind_run_ok.mp read
  obtain ⟨encoded, _, encodes, read⟩ := bind_run_ok.mp read
  cases read
  exact ⟨mapError_ok.mp (lift_run_ok.mp valid).1, mapError_ok.mp (lift_run_ok.mp encodes).1⟩

/-- Reading and comparing take turns; an import that succeeds has read all and compared all. -/
theorem admitItems_ok : admitItems suite nowMs existing count entries bytes pos = .ok (result, mid) ↔
    ∃ items, times count (readSignedItem suite nowMs) bytes pos = .ok (items, mid) ∧
      items.foldlM (admitItem existing) entries = .ok result := by
  induction count generalizing entries pos with
  | zero =>
    constructor
    · intro read
      cases read
      exact ⟨[], rfl, rfl⟩
    · rintro ⟨items, read, folded⟩
      cases read
      cases folded
      rfl
  | succ count ih =>
    rw [admitItems, bind_run_ok]
    constructor
    · rintro ⟨item, behind, head, follows⟩
      obtain ⟨next, here, lifted, rest⟩ := bind_run_ok.mp follows
      obtain ⟨admitted, rfl⟩ := lift_run_ok.mp lifted
      obtain ⟨items, tail, folded⟩ := ih.mp rest
      refine ⟨item :: items, bind_run_ok.mpr ⟨item, here, head, bind_run_ok.mpr ⟨items, mid, tail, rfl⟩⟩, ?_⟩
      exact bind_ok.mpr ⟨next, admitted, folded⟩
    · rintro ⟨items, read, folded⟩
      obtain ⟨item, behind, head, read⟩ := bind_run_ok.mp read
      obtain ⟨others, last, tail, made⟩ := bind_run_ok.mp read
      cases made
      obtain ⟨next, admitted, folded⟩ := bind_ok.mp folded
      exact ⟨item, behind, head, bind_run_ok.mpr ⟨next, behind, lift_run_ok.mpr ⟨admitted, rfl⟩,
        ih.mpr ⟨others, tail, folded⟩⟩⟩

/-- The batch reads, the store reads, the loop does not stop, and each entry it takes may be written. -/
theorem acceptSignedBatch_ok : acceptSignedBatch suite store bytes nowMs = .ok (count, written) ↔
    ∃ items existing entries writes, batchItems suite bytes nowMs = .ok items ∧
      signedRecordEntries suite store = .ok existing ∧ items.foldlM (admitItem existing) [] = .ok entries ∧
      entries.mapM (writeOf suite store nowMs) = .ok writes ∧
      count = entries.length ∧ written = putBatch store writes := by
  constructor
  · intro accepted
    obtain ⟨framed, accepted⟩ := refuse_bind_ok.mp accepted
    obtain ⟨⟨count, offset⟩, counted, accepted⟩ := bind_ok.mp accepted
    obtain ⟨existing, scanned, accepted⟩ := bind_ok.mp accepted
    obtain ⟨⟨entries, last⟩, admitted, accepted⟩ := bind_ok.mp accepted
    obtain ⟨ended, accepted⟩ := refuse_bind_ok.mp accepted
    obtain ⟨writes, made, accepted⟩ := bind_ok.mp accepted
    obtain ⟨items, read, folded⟩ := admitItems_ok.mp admitted
    cases accepted
    refine ⟨items, existing, entries, writes, ?_, mapError_ok.mp scanned, folded, made, rfl, rfl⟩
    exact refuse_bind_ok.mpr ⟨framed, bind_ok.mpr ⟨(count, offset), counted,
      bind_ok.mpr ⟨(items, last), read, refuse_bind_ok.mpr ⟨ended, rfl⟩⟩⟩⟩
  · rintro ⟨items, existing, entries, writes, read, scanned, folded, made, rfl, rfl⟩
    obtain ⟨framed, read⟩ := refuse_bind_ok.mp read
    obtain ⟨⟨count, offset⟩, counted, read⟩ := bind_ok.mp read
    obtain ⟨⟨others, last⟩, read, rest⟩ := bind_ok.mp read
    obtain ⟨ended, rest⟩ := refuse_bind_ok.mp rest
    cases rest
    exact refuse_bind_ok.mpr ⟨framed, bind_ok.mpr ⟨(count, offset), counted,
      bind_ok.mpr ⟨existing, mapError_ok.mpr scanned,
        bind_ok.mpr ⟨(entries, last), admitItems_ok.mpr ⟨items, read, folded⟩,
          refuse_bind_ok.mpr ⟨ended, bind_ok.mpr ⟨writes, made, rfl⟩⟩⟩⟩⟩⟩

theorem batchItems_checked (read : batchItems suite bytes nowMs = .ok items) :
    ∀ item ∈ items, item.Checked suite nowMs := by
  obtain ⟨-, read⟩ := refuse_bind_ok.mp read
  obtain ⟨⟨count, offset⟩, -, read⟩ := bind_ok.mp read
  obtain ⟨⟨others, last⟩, readAll, rest⟩ := bind_ok.mp read
  obtain ⟨-, rest⟩ := refuse_bind_ok.mp rest
  cases rest
  exact forall_of_times readSignedItem_checked readAll

theorem sameRecord_iff (encodes : statement.toBytes = .ok encoded) :
    sameRecord encoded statement candidate = true ↔ candidate = statement := by
  rw [sameRecord, Bool.and_eq_true, decide_eq_true_eq]
  constructor
  · rintro ⟨-, same⟩
    cases other : candidate.toBytes with
    | error e =>
      rw [other] at same
      cases same
    | ok bytes =>
      rw [other] at same
      cases same
      exact SignedRevocation.toBytes_injective encodes other
  · rintro rfl
    rw [encodes]
    simp [sameSequence, Except.toOption]

/-- The two tests that stop an import are disagreement with a record it has seen. -/
theorem agrees_iff (encodes : statement.toBytes = .ok encoded) :
    Sequenced.Agrees slot rank (statements records) statement ↔
      (records.any fun held => supersedes statement held.2) = false ∧
      (records.any fun held => sameSequence statement held.2 && !sameRecord encoded statement held.2) = false := by
  simp only [Sequenced.Agrees, statements, List.forall_mem_map, List.any_eq_false, ← forall₂_and]
  refine forall₂_congr fun held member => ?_
  rw [Bool.and_eq_true, Bool.not_eq_true', ← Bool.not_eq_true, sameRecord_iff encodes]
  simp only [slot, rank, supersedes, sameSequence, Prod.mk.injEq, decide_eq_true_eq, not_and, not_not,
    gt_iff_lt, UInt64.not_lt, UInt64.toNat_inj, UInt64.le_iff_toNat_le]
  constructor
  · intro agrees
    exact ⟨fun issuer subject => (agrees ⟨issuer, subject⟩).1,
      fun ⟨issuer, subject, sequence⟩ => (agrees ⟨issuer, subject⟩).2 sequence⟩
  · rintro ⟨older, alike⟩ ⟨issuer, subject⟩
    exact ⟨older issuer subject, fun sequence => alike ⟨issuer, subject, sequence⟩⟩

theorem admitItem_ok (encodes : item.record.2.toBytes = .ok item.encoded) :
    admitItem existing entries item = .ok result ↔
      Sequenced.Agrees slot rank (statements (existing ++ entries)) item.record.2 ∧
      (item.record.2 ∈ statements (existing ++ entries) ∧ result = entries ∨
        item.record.2 ∉ statements (existing ++ entries) ∧ result = entries ++ [item.record]) := by
  have seen : ((existing ++ entries).any fun held => sameRecord item.encoded item.record.2 held.2) = true ↔
      item.record.2 ∈ statements (existing ++ entries) := by
    simp only [List.any_eq_true, sameRecord_iff encodes, statements, List.mem_map]
  rw [admitItem, refuse_bind_ok, refuse_bind_ok, ← List.any_append, ← List.any_append, agrees_iff encodes, and_assoc]
  refine and_congr_right' (and_congr_right' ?_)
  dsimp only
  rw [← List.any_append, Except.ok.injEq]
  by_cases known : item.record.2 ∈ statements (existing ++ entries)
  · rw [if_pos (seen.mpr known)]
    simp [known, eq_comm]
  · rw [if_neg (mt seen.mp known)]
    simp [known, eq_comm]

section
variable (checked : ∀ item ∈ items, item.record.2.toBytes = .ok item.encoded)
include checked

/-- The loop over checked items is a pass over their statements: what it takes are records of items. -/
theorem foldlM_admitItem (folded : items.foldlM (admitItem existing) entries = .ok result) :
    ∃ new, result = entries ++ new ∧ new ⊆ items.map BatchItem.record ∧
      Sequenced.take? slot rank (statements (existing ++ entries)) (items.map (·.record.2)) =
        some (statements new) := by
  induction items generalizing entries with
  | nil =>
    cases folded
    exact ⟨[], (List.append_nil _).symm, List.Subset.refl _, rfl⟩
  | cons item rest ih =>
    obtain ⟨encodes, others⟩ := List.forall_mem_cons.mp checked
    obtain ⟨next, admitted, onward⟩ := bind_ok.mp folded
    obtain ⟨agrees, ⟨known, rfl⟩ | ⟨unknown, rfl⟩⟩ := (admitItem_ok encodes).mp admitted
    · obtain ⟨new, made, among, taken⟩ := ih others onward
      refine ⟨new, made, List.Subset.trans among (List.subset_cons_self _ _), ?_⟩
      rw [List.map_cons, Sequenced.take?, if_pos agrees, if_pos known, taken]
    · obtain ⟨new, made, among, taken⟩ := ih others onward
      refine ⟨item.record :: new, by rw [made, List.append_assoc]; rfl, ?_, ?_⟩
      · exact List.cons_subset_cons _ among
      · rw [← List.append_assoc, statements, List.map_append] at taken
        rw [List.map_cons, Sequenced.take?, if_pos agrees, if_neg unknown]
        exact Option.map_eq_some_iff.mpr ⟨statements new, taken, rfl⟩

theorem foldlM_admitItem_nil :
    items.foldlM (admitItem existing) [] = .ok [] ↔
      Sequenced.take? slot rank (statements existing) (items.map (·.record.2)) = some [] := by
  constructor
  · intro folded
    obtain ⟨new, made, -, taken⟩ := foldlM_admitItem checked folded
    rw [List.nil_append] at made
    rwa [← made, List.append_nil] at taken
  · intro taken
    have all := Sequenced.take?_eq_nil.mp taken
    clear taken
    induction items with
    | nil => rfl
    | cons item rest ih =>
      obtain ⟨encodes, others⟩ := List.forall_mem_cons.mp checked
      obtain ⟨⟨agrees, known⟩, behind⟩ := List.forall_mem_cons.mp all
      refine bind_ok.mpr ⟨[], (admitItem_ok encodes).mpr ?_, ih others behind⟩
      rw [List.append_nil]
      exact ⟨agrees, .inl ⟨known, rfl⟩⟩

end

/-! ### What an import leaves in the store -/

def stored (record : SignedRecord) : Bytes × Bytes :=
  (signedRevocationKey record.2, record.1.val ++ (record.2.signedBytes ++ record.2.signature.val))

theorem writeOf_ok (made : writeOf suite store nowMs record = .ok write) : write = stored record := by
  obtain ⟨-, made⟩ := check_bind_ok.mp made
  obtain ⟨encoded, encodes, made⟩ := bind_ok.mp made
  obtain ⟨-, rfl⟩ := SignedRevocation.toBytes_ok.mp (mapError_ok.mp encodes)
  cases made
  rfl

theorem signedPrefix_stored : signedPrefix.isPrefixOf (stored record).1 = true := by
  rw [List.isPrefixOf_iff_prefix, stored, signedRevocationKey, List.append_assoc]
  exact List.prefix_append _ _

theorem signedEntry_stored (verified : record.2.verifySignature suite record.1 = .ok ()) :
    signedEntry suite (stored record) = .ok record := by
  obtain ⟨sound, -⟩ := check_bind_ok.mp verified
  have decoded := SignedRevocation.fromBytes_toBytes (SignedRevocation.toBytes_ok.mpr ⟨sound, rfl⟩)
  have long : 32 ≤ (stored record).2.length := by
    rw [stored, List.length_append, record.1.2]
    omega
  have front : (stored record).2.take 32 = record.1.val := List.take_left' record.1.2
  have rest : (stored record).2.drop 32 = record.2.signedBytes ++ record.2.signature.val :=
    List.drop_left' record.1.2
  rw [signedEntry, dif_pos long]
  simp only [front, rest, decoded]
  refine bind_ok.mpr ⟨record.2, rfl, refuse_bind_ok.mpr ⟨decide_eq_false (not_not.mpr rfl), ?_⟩⟩
  exact check_bind_ok.mpr ⟨mapError_ok.mpr verified, rfl⟩

theorem eq_of_signedRevocationKey (sound : statement.validateStructure = .ok ())
    (sound' : candidate.validateStructure = .ok ())
    (same : signedRevocationKey candidate = signedRevocationKey statement) :
    slot candidate = slot statement ∧ rank candidate = rank statement := by
  have length : (signedPrefix ++ candidate.issuerEndpointId.val).length =
      (signedPrefix ++ statement.issuerEndpointId.val).length := by
    rw [List.length_append, List.length_append, candidate.issuerEndpointId.2, statement.issuerEndpointId.2]
  have alike := SignedRevocation.eq_of_signedBytes sound sound' (List.append_inj same length).2
  rw [← alike]
  exact ⟨rfl, rfl⟩

section
variable (scanned : signedRecordEntries suite store = .ok existing)
include scanned

/-- Keys of its own keep the old entries in place. -/
theorem mem_under_putBatch (distinct : (entries.map fun record => signedRevocationKey record.2).Nodup)
    (fresh : ∀ record ∈ entries, ∀ held ∈ existing, signedRevocationKey held.2 ≠ signedRevocationKey record.2) :
    entry ∈ TrustStore.under (putBatch store (entries.map stored)) signedPrefix ↔
      entry ∈ entries.map stored ∨ entry ∈ store.under signedPrefix := by
  have keys : (entries.map stored).map Prod.fst = entries.map fun record => signedRevocationKey record.2 :=
    List.map_map
  rw [TrustStore.mem_under, putBatch, OrderedMap.mem_insertAll (by rwa [keys]), keys]
  constructor
  · rintro ⟨new | ⟨old, -⟩, named⟩
    · exact .inl new
    · exact .inr (TrustStore.mem_under.mpr ⟨old, named⟩)
  · rintro (new | old)
    · obtain ⟨record, -, rfl⟩ := List.mem_map.mp new
      exact ⟨.inl new, signedPrefix_stored⟩
    · obtain ⟨inStore, named⟩ := TrustStore.mem_under.mp old
      refine ⟨.inr ⟨inStore, fun again => ?_⟩, named⟩
      obtain ⟨record, member, same⟩ := List.mem_map.mp again
      obtain ⟨held, among, read⟩ := read_of_mapM_ok scanned old
      exact fresh record member held among ((signedEntry_ok read).1.trans same.symm)

theorem signedRecordEntries_putBatch (verified : ∀ record ∈ entries, record.2.verifySignature suite record.1 = .ok ())
    (distinct : (entries.map fun record => signedRevocationKey record.2).Nodup)
    (fresh : ∀ record ∈ entries, ∀ held ∈ existing, signedRevocationKey held.2 ≠ signedRevocationKey record.2) :
    ∃ both, signedRecordEntries suite (putBatch store (entries.map stored)) = .ok both ∧
      ∀ record, record ∈ both ↔ record ∈ existing ∨ record ∈ entries := by
  have readable : ∀ entry ∈ TrustStore.under (putBatch store (entries.map stored)) signedPrefix,
      ∃ record, signedEntry suite entry = .ok record := by
    intro entry member
    rcases (mem_under_putBatch scanned distinct fresh).mp member with new | old
    · obtain ⟨record, among, rfl⟩ := List.mem_map.mp new
      exact ⟨record, signedEntry_stored (verified record among)⟩
    · obtain ⟨held, -, read⟩ := read_of_mapM_ok scanned old
      exact ⟨held, read⟩
  obtain ⟨both, rescanned⟩ := mapM_of_forall readable
  refine ⟨both, rescanned, fun record => ?_⟩
  rw [mem_mapM_ok rescanned, mem_mapM_ok scanned]
  constructor
  · rintro ⟨entry, member, read⟩
    rcases (mem_under_putBatch scanned distinct fresh).mp member with new | old
    · obtain ⟨written, among, rfl⟩ := List.mem_map.mp new
      rw [signedEntry_stored (verified written among), Except.ok.injEq] at read
      exact .inr (read ▸ among)
    · exact .inl ⟨entry, old, read⟩
  · rintro (⟨entry, old, read⟩ | among)
    · exact ⟨entry, (mem_under_putBatch scanned distinct fresh).mpr (.inr old), read⟩
    · exact ⟨stored record, (mem_under_putBatch scanned distinct fresh).mpr (.inl (List.mem_map_of_mem among)),
        signedEntry_stored (verified record among)⟩

/-- The keys under which an import writes are new and different from each other. -/
theorem keys_of_pass (checked : ∀ item ∈ items, item.Checked suite nowMs) (among : entries ⊆ items.map BatchItem.record)
    (taken : Sequenced.take? slot rank (statements existing) (items.map (·.record.2)) =
      some (statements entries)) :
    (entries.map fun record => signedRevocationKey record.2).Nodup ∧
      ∀ record ∈ entries, ∀ held ∈ existing, signedRevocationKey held.2 ≠ signedRevocationKey record.2 := by
  have sound : ∀ record ∈ entries, record.2.validateStructure = .ok () := by
    intro record member
    obtain ⟨item, listed, rfl⟩ := List.mem_map.mp (among member)
    exact (SignedRevocation.toBytes_ok.mp (checked item listed).2).1
  have listed : ∀ record ∈ entries, record.2 ∈ items.map (·.record.2) ∧ record.2 ∉ statements existing :=
    fun record member => (Sequenced.mem_take? taken).mp (List.mem_map_of_mem member)
  constructor
  · have keys : (entries.map fun record => signedRevocationKey record.2) =
        (statements entries).map signedRevocationKey := by
      rw [statements, List.map_map]
      rfl
    rw [keys]
    refine (Sequenced.nodup_take? taken).map_on fun first member second member' same => ?_
    obtain ⟨record, inFirst, rfl⟩ := List.mem_map.mp member
    obtain ⟨record', inSecond, rfl⟩ := List.mem_map.mp member'
    obtain ⟨slots, ranks⟩ := eq_of_signedRevocationKey (sound _ inSecond) (sound _ inFirst) same
    exact Sequenced.eq_of_take? taken _ (listed _ inFirst).1 _ (listed _ inSecond).1 slots ranks
  · intro record member held inStore same
    obtain ⟨entry, -, read⟩ := (mem_mapM_ok scanned).mp inStore
    obtain ⟨structured, -⟩ := check_bind_ok.mp (signedEntry_ok read).2
    obtain ⟨slots, ranks⟩ := eq_of_signedRevocationKey (sound _ member) structured same
    have known : held.2 ∈ statements existing := List.mem_map_of_mem inStore
    have equal := (Sequenced.agrees_of_take? taken _ (listed _ member).1 held.2 known slots).2 ranks
    exact (listed _ member).2 (equal ▸ known)

end

theorem acceptSignedBatch_nothing (read : batchItems suite bytes nowMs = .ok items)
    (scanned : signedRecordEntries suite store = .ok existing) :
    acceptSignedBatch suite store bytes nowMs = .ok (0, store) ↔
      items.foldlM (admitItem existing) [] = .ok [] := by
  rw [acceptSignedBatch_ok]
  constructor
  · rintro ⟨items', existing', entries, writes, read', scanned', folded, -, none, -⟩
    rw [read, Except.ok.injEq] at read'
    rw [scanned, Except.ok.injEq] at scanned'
    rw [read', scanned', folded, List.length_eq_zero_iff.mp none.symm]
  · intro folded
    exact ⟨items, existing, [], [], read, scanned, folded, rfl, rfl, rfl⟩

/-- An accepted batch can be imported again, without effect, exactly when its statements of one issuer about one
subject have one sequence. With two, the first import accepts both, in ascending order, and the second finds the
higher stored when it comes to the lower. -/
theorem acceptSignedBatch_again_iff {count : Nat}
    (accepted : acceptSignedBatch suite store bytes nowMs = .ok (count, written)) :
    acceptSignedBatch suite written bytes nowMs = .ok (0, written) ↔
      ∃ items, batchItems suite bytes nowMs = .ok items ∧ ∀ first ∈ items, ∀ second ∈ items,
        first.record.2.issuerEndpointId = second.record.2.issuerEndpointId →
        first.record.2.subject = second.record.2.subject →
        first.record.2.sequence = second.record.2.sequence := by
  obtain ⟨items, existing, entries, writes, read, scanned, folded, made, -, rfl⟩ :=
    acceptSignedBatch_ok.mp accepted
  have checked := batchItems_checked read
  have encodes : ∀ item ∈ items, item.record.2.toBytes = .ok item.encoded :=
    fun item member => (checked item member).2
  obtain ⟨new, shape, among, taken⟩ := foldlM_admitItem encodes folded
  rw [List.nil_append] at shape
  rw [List.append_nil, ← shape] at taken
  rw [← shape] at among
  have verified : ∀ record ∈ entries, record.2.verifySignature suite record.1 = .ok () := by
    intro record member
    obtain ⟨item, listed, rfl⟩ := List.mem_map.mp (among member)
    exact (check_bind_ok.mp (checked item listed).1).1
  obtain ⟨distinct, fresh⟩ := keys_of_pass scanned checked among taken
  obtain ⟨both, rescanned, holds⟩ := signedRecordEntries_putBatch scanned verified distinct fresh
  have reached : ∀ statement, statement ∈ statements both ↔
      statement ∈ statements existing ∨ statement ∈ statements entries := by
    intro statement
    simp only [statements, List.mem_map, holds, or_and_right, exists_or]
  rw [mapM_eq_map (fun _ _ _ => writeOf_ok) made, acceptSignedBatch_nothing read rescanned,
    foldlM_admitItem_nil encodes, Sequenced.take?_again taken reached]
  simp only [List.forall_mem_map, slot, rank, Prod.mk.injEq, UInt64.toNat_inj, and_imp, read, Except.ok.injEq,
    exists_eq_left']

/-- A store that has accepted statements of issuers about their own identities, each with its sequence. -/
def revokedStore (revoked : List (UInt8 × UInt64)) : TrustStore :=
  revoked.foldl (fun store (issuer, sequence) =>
    ((SignedRevocation.sign plainSuite (plainKeys issuer) (.identity (plainEndpoint issuer)) sequence 1
      0).toOption.bind fun statement =>
        (acceptSigned plainSuite store statement (plainKeys issuer).publicKey 2).toOption).getD store) .empty

/-- What such a store exports, and an empty store that has imported it. -/
def exportedBatch (revoked : List (UInt8 × UInt64)) : Bytes :=
  (exportSignedBatchAt plainSuite (revokedStore revoked) 2).toOption.getD []

def importedStore (revoked : List (UInt8 × UInt64)) : TrustStore :=
  ((acceptSignedBatch plainSuite .empty (exportedBatch revoked) 2).toOption.map Prod.snd).getD .empty

/-- Statements of two issuers are imported, and found stored when they come again. -/
theorem two_issuers_again : let revoked := [(1, 1), (2, 5)]
    exportSignedBatchAt plainSuite (revokedStore revoked) 2 = .ok (exportedBatch revoked) ∧
      acceptSignedBatch plainSuite .empty (exportedBatch revoked) 2 = .ok (2, importedStore revoked) ∧
      acceptSignedBatch plainSuite (importedStore revoked) (exportedBatch revoked) 2 =
        .ok (0, importedStore revoked) := by
  intro revoked
  have accepted : acceptSignedBatch plainSuite .empty (exportedBatch revoked) 2 = .ok (2, importedStore revoked) := by
    decide +kernel
  refine ⟨by decide +kernel, accepted, (acceptSignedBatch_again_iff accepted).mpr ?_⟩
  exact ⟨(batchItems plainSuite (exportedBatch revoked) 2).toOption.getD [], by decide +kernel, by decide +kernel⟩

/-- An exported batch with two sequences for one subject is accepted and then refused. -/
theorem two_sequences_refused : let revoked := [(1, 1), (1, 2)]
    exportSignedBatchAt plainSuite (revokedStore revoked) 2 = .ok (exportedBatch revoked) ∧
      acceptSignedBatch plainSuite .empty (exportedBatch revoked) 2 = .ok (2, importedStore revoked) ∧
      acceptSignedBatch plainSuite (importedStore revoked) (exportedBatch revoked) 2 =
        .error (.invalid "revocation sequence regressed") := by
  refine ⟨?_, ?_, ?_⟩ <;> decide +kernel

end RevocationStore
end UniversalMesh.Trust
