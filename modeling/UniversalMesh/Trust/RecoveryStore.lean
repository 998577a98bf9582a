import UniversalMesh.Lib.Run
import UniversalMesh.Trust.Recovery

/-! `RecoveryStore` of `recovery.rs`: authorities and recovery revocations in the trust namespace, the check of
a binding against them, and the batches in which nodes exchange them. A call that fails before its one write
leaves the store as it was and returns none; `accept_batch` writes in a loop and returns its store either way.
-/
namespace UniversalMesh.Trust
open MachineWord Wire ByteReader Reader

section

/-- The trust namespace of the backend. -/
abbrev TrustStore := OrderedMap Bytes Bytes

/-- The keys of stored recovery authorities begin with this. -/
def authorityPrefix : Bytes := ascii "recovery-authority/"

/-- The keys of stored recovery revocations begin with this. -/
def recoveryPrefix : Bytes := ascii "revoke-recovery/"

def authorityKey (root recovery : Octets 32) : Bytes := authorityPrefix ++ root.val ++ recovery.val

def recoveryRevocationKey (statement : RecoveryRevocation) : Bytes :=
  recoveryPrefix ++ statement.rootEndpointId.val ++ statement.recoveryEndpointId.val ++
    statement.signedBytes

/-- The entries of a scan whose key begins with a prefix. -/
def TrustStore.under (store : TrustStore) (start : Bytes) : List (Bytes × Bytes) :=
  store.entries.filter fun entry => start.isPrefixOf entry.1

/-- `value.get(from..).ok_or(Truncated)`. -/
def valueFrom (offset : Nat) (value : Bytes) : Except RecoveryError Bytes :=
  if offset ≤ value.length then .ok (value.drop offset) else .error .truncated

def decodeAuthorityRecord (value : Bytes) : Except RecoveryError RecoveryAuthorization := do
  let bytes ← valueFrom 32 value
  RecoveryAuthorization.fromBytes bytes

/-- The root key, the authority and the statement of a stored revocation: `[..32]`, `[32..186]` and `[186..]`.
-/
def splitRecord (value : Bytes) : Except RecoveryError (Octets 32 × Bytes × Bytes) :=
  if long : 186 ≤ value.length then
    .ok (⟨value.take 32, by rw [List.length_take]; omega⟩, (value.drop 32).take 154, value.drop 186)
  else .error .truncated

/-- A revocation with the root key and the authority it is stored and exchanged with. -/
structure RecoveryRecord where
  root : Octets 32
  authority : RecoveryAuthorization
  statement : RecoveryRevocation
  deriving DecidableEq

/-- The decoding of a stored revocation in `check`. -/
def RecoveryRecord.decode (value : Bytes) : Except RecoveryError RecoveryRecord := do
  let (root, authorityBytes, statementBytes) ← splitRecord value
  let authority ← RecoveryAuthorization.fromBytes authorityBytes
  let statement ← RecoveryRevocation.fromBytes statementBytes
  .ok { root, authority, statement }

variable {record : RecoveryRecord}

namespace RecoveryStore

/-- A later sequence number replaces the authority; any other is refused unless the record is the same. -/
def provision (suite : Suite) (store : TrustStore) (authority : RecoveryAuthorization) (root : Octets 32)
    (nowMs : UInt64) : Except RecoveryError TrustStore := do
  authority.validate suite root nowMs
  let key := authorityKey authority.rootEndpointId authority.recoveryPublicKey
  let encoded ← authority.toBytes
  match store.get? key with
  | some value =>
    let existing ← decodeAuthorityRecord value
    if existing.sequence ≥ authority.sequence then
      if existing = authority then .ok store else .error .sequenceRegressed
    else .ok (store.insert key (root.val ++ encoded))
  | none => .ok (store.insert key (root.val ++ encoded))

/-- The loop of `accept_revocation`: whether the statement is there already. Each value is decoded from offset
32. -/
def priorRecord (statement : RecoveryRevocation) : List (Bytes × Bytes) → Except RecoveryError Bool
  | [] => .ok false
  | entry :: rest => do
    let bytes ← valueFrom 32 entry.2
    let existing ← RecoveryRevocation.fromBytes bytes
    if existing.sameSubject statement ∧ existing.sequence ≥ statement.sequence then
      if existing = statement then .ok true else .error .sequenceRegressed
    else priorRecord statement rest

def acceptRevocation (suite : Suite) (store : TrustStore) (statement : RecoveryRevocation)
    (authority : RecoveryAuthorization) (root : Octets 32) (nowMs : UInt64) :
    Except RecoveryError TrustStore := do
  statement.validate suite authority root nowMs
  let encoded ← statement.toBytes
  let present ← priorRecord statement (store.under recoveryPrefix)
  if present then .ok store
  else do
    let granted ← authority.toBytes
    .ok (store.insert (recoveryRevocationKey statement) (root.val ++ granted ++ encoded))

/-- Whether the store holds an authority for the same keys that differs from `authority`. -/
def superseded (store : TrustStore) (authority : RecoveryAuthorization) : Except RecoveryError Bool :=
  match store.get? (authorityKey authority.rootEndpointId authority.recoveryPublicKey) with
  | none => .ok false
  | some value => do
    let current ← decodeAuthorityRecord value
    .ok (current ≠ authority)

/-- The body of the loop of `check` for one stored revocation. -/
def checkRecord (suite : Suite) (store : TrustStore) (binding : IdentityBinding) (nowMs : UInt64)
    (value : Bytes) : Except RecoveryError Unit := do
  let record ← RecoveryRecord.decode value
  let old ← superseded store record.authority
  if old then .ok ()
  else do
    record.statement.validate suite record.authority record.root nowMs
    refuse (record.statement.subject.matchesBinding binding) .revoked

def check (suite : Suite) (store : TrustStore) (binding : IdentityBinding) (nowMs : UInt64) :
    Except RecoveryError Unit :=
  (store.under recoveryPrefix).forM fun entry => checkRecord suite store binding nowMs entry.2

def maxBatchEntries : Nat := 64

def maxBatchBytes : Nat := 32 * 1024

/-- `b"RC\\x01"`. -/
def batchMagic : Bytes := [0x52, 0x43, 0x01]

/-- `push_len_bytes`. -/
def lengthBytes (bytes : Bytes) : Except RecoveryError Bytes := do
  refuse (bytes.length > 65535) .oversized
  .ok (toBeBytes 2 bytes.length ++ bytes)

/-- The item `export_batch` makes of one stored revocation. -/
def exportItem (value : Bytes) : Except RecoveryError Bytes := do
  let (root, authority, revocation) ← splitRecord value
  let authority ← lengthBytes authority
  let revocation ← lengthBytes revocation
  .ok (root.val ++ authority ++ revocation)

/-- The loop of `export_batch` that appends the items under the size bound. -/
def appendItems (out : Bytes) : List Bytes → Except RecoveryError Bytes
  | [] => .ok out
  | item :: rest => do
    refuse ((out ++ item).length > maxBatchBytes) .oversized
    appendItems (out ++ item) rest

def exportBatch (store : TrustStore) : Except RecoveryError Bytes := do
  let items ← ((store.under recoveryPrefix).take maxBatchEntries).mapM fun entry => exportItem entry.2
  appendItems (batchMagic ++ toBeBytes 2 items.length) items

/-- `read_len_bytes`. -/
def readLengthBytes : Reader RecoveryError UInt8 Bytes := do
  let length ← length16 .truncated
  slice .truncated length

def readItem : Reader RecoveryError UInt8 RecoveryRecord := do
  let root ← array .truncated 32
  let authorityBytes ← readLengthBytes
  let authority ← lift (RecoveryAuthorization.fromBytes authorityBytes)
  let statementBytes ← readLengthBytes
  let statement ← lift (RecoveryRevocation.fromBytes statementBytes)
  pure { root, authority, statement }

/-- The part of `accept_batch` that reads the payload, behind the comparison with `batchMagic`. -/
def readBatch : Reader RecoveryError UInt8 (List RecoveryRecord) := do
  let _ ← slice .truncated 3
  let count ← length16 .truncated
  refuseIf (count > maxBatchEntries) .oversized
  times count readItem

/-- The items of a payload, `accept_batch` up to the `TrailingBytes` test. -/
def decodeBatch (bytes : Bytes) : Except RecoveryError (List RecoveryRecord) := do
  refuse (bytes.length > maxBatchBytes ∨ bytes.take 3 ≠ batchMagic) .oversized
  let (items, offset) ← readBatch.run bytes
  refuse (offset ≠ bytes.length) .trailingBytes
  .ok items

/-- The statement a stored revocation carries, read from offset 186 as `accept_batch` does. -/
def heldStatement (value : Bytes) : Option RecoveryRevocation :=
  if 186 ≤ value.length then (RecoveryRevocation.fromBytes (value.drop 186)).toOption else none

/-- The statements of a store, in the order of a scan. -/
def statements (store : TrustStore) : List RecoveryRevocation :=
  (store.under recoveryPrefix).filterMap fun entry => heldStatement entry.2

/-- A stored statement for the same subject, as recent, with other contents. -/
def conflicts (store : TrustStore) (statement : RecoveryRevocation) : Bool :=
  (statements store).any fun existing =>
    existing.sameSubject statement && existing.sequence ≥ statement.sequence &&
      existing.signedBytes ≠ statement.signedBytes

/-- The first loop of `accept_batch` for one item. -/
def verifyItem (suite : Suite) (store : TrustStore) (nowMs : UInt64) (item : RecoveryRecord) :
    Except RecoveryError Unit := do
  item.authority.verifySignature suite item.root
  item.statement.validate suite item.authority item.root nowMs
  refuse (conflicts store item.statement) .sequenceRegressed

/-- The second loop of `accept_batch`: a failure keeps what was written before it. -/
def commit (suite : Suite) (nowMs : UInt64) :
    TrustStore → List RecoveryRecord → Except RecoveryError Unit × TrustStore
  | store, [] => (.ok (), store)
  | store, item :: rest =>
    match acceptRevocation suite store item.statement item.authority item.root nowMs with
    | .error e => (.error e, store)
    | .ok written => commit suite nowMs written rest

/-- The items of a payload once all of them are verified. -/
def verifiedBatch (suite : Suite) (store : TrustStore) (bytes : Bytes) (nowMs : UInt64) :
    Except RecoveryError (List RecoveryRecord) := do
  let items ← decodeBatch bytes
  items.forM (verifyItem suite store nowMs)
  .ok items

/-- What was written before a failing item stays written. -/
def acceptBatch (suite : Suite) (store : TrustStore) (bytes : Bytes) (nowMs : UInt64) :
    Except RecoveryError Nat × TrustStore :=
  match verifiedBatch suite store bytes nowMs with
  | .error e => (.error e, store)
  | .ok items =>
    match commit suite nowMs store items with
    | (.error e, written) => (.error e, written)
    | (.ok (), written) => (.ok items.length, written)

end RecoveryStore

theorem TrustStore.mem_under {store : TrustStore} :
    entry ∈ store.under start ↔ entry ∈ store ∧ start.isPrefixOf entry.1 = true :=
  List.mem_filter

theorem TrustStore.under_filter (store : TrustStore) (keep : Bytes × Bytes → Bool) (start : Bytes) :
    TrustStore.under (store.filter keep) start = (store.under start).filter keep := by
  simp only [TrustStore.under, OrderedMap.filter, List.filter_filter, Bool.and_comm]

theorem recoveryPrefix_key : recoveryPrefix.isPrefixOf (recoveryRevocationKey statement) = true := by
  rw [recoveryRevocationKey, List.append_assoc, List.append_assoc]
  simp

theorem decodeAuthorityRecord_fails : FailsOnly RecoveryError.Intrinsic (decodeAuthorityRecord value) := by
  refine FailsOnly.bind ?_ RecoveryAuthorization.fromBytes_fails
  unfold valueFrom
  split
  · exact .ok _
  · exact .error trivial

theorem splitRecord_append (root : Octets 32) (length : authority.length = 154) (statement : Bytes) :
    splitRecord (root.val ++ authority ++ statement) = .ok (root, authority, statement) := by
  have whole : (root.val ++ authority).length = 186 := by rw [List.length_append, root.2, length]
  have long : 186 ≤ (root.val ++ authority ++ statement).length := by
    rw [List.length_append, whole]
    omega
  have rootPart : (root.val ++ authority ++ statement).take 32 = root.val := by
    rw [List.append_assoc]
    exact List.take_left' root.2
  have middle : ((root.val ++ authority ++ statement).drop 32).take 154 = authority := by
    rw [List.append_assoc, List.drop_left' root.2]
    exact List.take_left' length
  have last : (root.val ++ authority ++ statement).drop 186 = statement := List.drop_left' whole
  rw [splitRecord, dif_pos long]
  simp only [rootPart, middle, last]

namespace RecoveryRecord

/-- The value `accept_revocation` stores. -/
def value (record : RecoveryRecord) : Bytes :=
  record.root.val ++ (record.authority.signedBytes ++ record.authority.signature.val) ++
    (record.statement.signedBytes ++ record.statement.signature.val)

/-- Both parts pass their structure tests. -/
def Structured (record : RecoveryRecord) : Prop :=
  record.statement.validateStructure = .ok () ∧ record.authority.validateStructure = .ok ()

variable {record : RecoveryRecord}

section
variable (structured : record.Structured)
include structured

theorem Structured.authority_toBytes :
    record.authority.toBytes = .ok (record.authority.signedBytes ++ record.authority.signature.val) :=
  RecoveryAuthorization.toBytes_ok.mpr ⟨structured.2, rfl⟩

theorem Structured.statement_toBytes :
    record.statement.toBytes = .ok (record.statement.signedBytes ++ record.statement.signature.val) :=
  RecoveryRevocation.toBytes_ok.mpr ⟨structured.1, rfl⟩

theorem decode_value : decode record.value = .ok record := by
  have granted := structured.authority_toBytes
  rw [decode, value, splitRecord_append _ (RecoveryAuthorization.toBytes_length granted)]
  simp only [ok_bind, RecoveryAuthorization.fromBytes_toBytes granted,
    RecoveryRevocation.fromBytes_toBytes structured.statement_toBytes]

end

theorem decode_fails {value : Bytes} : FailsOnly RecoveryError.Intrinsic (decode value) := by
  refine FailsOnly.bind ?_ fun parts => (RecoveryAuthorization.fromBytes_fails _).bind fun _ =>
    (RecoveryRevocation.fromBytes_fails _).bind fun _ => .ok _
  unfold splitRecord
  split
  · exact .ok _
  · exact .error trivial

theorem value_tail_length (record : RecoveryRecord) : maxRecoveryStatement < (record.value.drop 32).length := by
  have statement := record.statement.signedBytes_length
  simp only [value, List.length_drop, List.length_append, record.root.2, record.authority.signature.2,
    record.statement.signature.2, maxRecoveryStatement]
  omega

end RecoveryRecord

namespace RecoveryStore

variable {suite : Suite} {store written : TrustStore} {nowMs : UInt64}

theorem superseded_fails : FailsOnly RecoveryError.Intrinsic (superseded store authority) := by
  unfold superseded
  split
  · exact .ok _
  · exact decodeAuthorityRecord_fails.bind fun _ => .ok _

section
variable {binding : IdentityBinding} {value : Bytes}

theorem checkRecord_of_current (decoded : RecoveryRecord.decode value = .ok record)
    (current : superseded store record.authority = .ok false) :
    checkRecord suite store binding nowMs value =
      record.statement.validate suite record.authority record.root nowMs >>= fun _ =>
        refuse (record.statement.subject.matchesBinding binding) .revoked := by
  rw [checkRecord, decoded, ok_bind, current, ok_bind, if_neg Bool.false_ne_true]

/-- `check` stops at a record for its bytes, or at a verified statement under an authority that is not
superseded, either about the binding and in force, or out of time. -/
theorem checkRecord_error (failed : checkRecord suite store binding nowMs value = .error e) :
    e.Intrinsic ∨ ∃ record, RecoveryRecord.decode value = .ok record ∧
      superseded store record.authority = .ok false ∧
      record.statement.verify suite record.authority record.root = .ok () ∧
      (InWindow record.statement.issuedAtMs record.statement.expiresAtMs nowMs ∧
          record.statement.subject.matchesBinding binding = true ∧ e = .revoked ∨
        ¬ InWindow record.statement.issuedAtMs record.statement.expiresAtMs nowMs ∧ e ≠ .revoked) := by
  cases decoded : RecoveryRecord.decode value with
  | error e' =>
    rw [checkRecord, decoded] at failed
    cases failed
    exact .inl (RecoveryRecord.decode_fails _ decoded)
  | ok record =>
    cases old : superseded store record.authority with
    | error e' =>
      rw [checkRecord, decoded, ok_bind, old] at failed
      cases failed
      exact .inl (superseded_fails _ old)
    | ok old' =>
      cases old' with
      | true =>
        rw [checkRecord, decoded, ok_bind, old] at failed
        cases failed
      | false =>
        rw [checkRecord_of_current decoded old] at failed
        cases valid : record.statement.validate suite record.authority record.root nowMs with
        | error e' =>
          rw [valid] at failed
          cases failed
          rcases RecoveryRevocation.validate_error valid with intrinsic | ⟨verified, late⟩
          · exact .inl intrinsic
          · exact .inr ⟨record, rfl, old, verified, .inr late⟩
        | ok passed =>
          obtain ⟨verified, inside⟩ := RecoveryRevocation.validate_ok.mp valid
          rw [valid, ok_bind] at failed
          cases hit : record.statement.subject.matchesBinding binding with
          | true =>
            rw [hit] at failed
            cases failed
            exact .inr ⟨record, rfl, old, verified, .inl ⟨inside, hit, rfl⟩⟩
          | false =>
            rw [hit] at failed
            cases failed

/-- `check` answers `Revoked` exactly for a statement in force, under an authority that is not superseded, about
the binding. -/
theorem checkRecord_revoked :
    checkRecord suite store binding nowMs value = .error .revoked ↔
      ∃ record, RecoveryRecord.decode value = .ok record ∧
        superseded store record.authority = .ok false ∧
        record.statement.validate suite record.authority record.root nowMs = .ok () ∧
        record.statement.subject.matchesBinding binding = true := by
  constructor
  · intro failed
    rcases checkRecord_error failed with
      intrinsic | ⟨record, decoded, current, verified, ⟨inside, hit, -⟩ | ⟨-, other⟩⟩
    · exact absurd intrinsic id
    · exact ⟨record, decoded, current, RecoveryRevocation.validate_ok.mpr ⟨verified, inside⟩, hit⟩
    · exact absurd rfl other
  · rintro ⟨record, decoded, current, valid, hit⟩
    rw [checkRecord_of_current decoded current, valid, ok_bind, hit]
    rfl

end

theorem acceptRevocation_of_valid
    (valid : record.statement.validate suite record.authority record.root nowMs = .ok ()) :
    acceptRevocation suite store record.statement record.authority record.root nowMs =
      (priorRecord record.statement (store.under recoveryPrefix)).map fun present =>
        if present then store
        else store.insert (recoveryRevocationKey record.statement) record.value := by
  have structured : record.Structured :=
    RecoveryRevocation.structure_of_verify (RecoveryRevocation.validate_ok.mp valid).1
  simp only [acceptRevocation, valid, structured.statement_toBytes, structured.authority_toBytes, ok_bind]
  cases priorRecord record.statement (store.under recoveryPrefix) with
  | error e => rfl
  | ok present => cases present <;> rfl

theorem acceptRevocation_cases
    (accepted : acceptRevocation suite store record.statement record.authority record.root nowMs =
      .ok written) :
    record.statement.validate suite record.authority record.root nowMs = .ok () ∧
      (written = store ∨
        written = store.insert (recoveryRevocationKey record.statement) record.value) := by
  have valid := (check_bind_ok.mp accepted).1
  rw [acceptRevocation_of_valid valid] at accepted
  refine ⟨valid, ?_⟩
  cases found : priorRecord record.statement (store.under recoveryPrefix) with
  | error e => rw [found] at accepted; cases accepted
  | ok present =>
    rw [found] at accepted
    cases accepted
    cases present with
    | true => exact .inl rfl
    | false => exact .inr rfl

variable {bytes : Bytes}

theorem verifiedBatch_ok : verifiedBatch suite store bytes nowMs = .ok items ↔
      decodeBatch bytes = .ok items ∧ items.forM (verifyItem suite store nowMs) = .ok () := by
  constructor
  · intro verified
    obtain ⟨items', decoded, rest⟩ := bind_ok.mp verified
    obtain ⟨passed, same⟩ := check_bind_ok.mp rest
    cases same
    exact ⟨decoded, passed⟩
  · rintro ⟨decoded, passed⟩
    exact bind_ok.mpr ⟨items, decoded, check_bind_ok.mpr ⟨passed, rfl⟩⟩

/-- A batch that is not verified changes nothing. -/
theorem acceptBatch_of_verified (verified : verifiedBatch suite store bytes nowMs = .ok items) :
    acceptBatch suite store bytes nowMs =
      ((commit suite nowMs store items).1.map fun _ => items.length, (commit suite nowMs store items).2) := by
  unfold acceptBatch
  rw [verified]
  dsimp only
  split
  · next failed => rw [failed]; rfl
  · next passed => rw [passed]; rfl

theorem acceptBatch_of_refused (refused : verifiedBatch suite store bytes nowMs = .error e) :
    acceptBatch suite store bytes nowMs = (.error e, store) := by
  unfold acceptBatch
  rw [refused]

/-- `provision` writes at most one entry, under the authority's key. -/
theorem provision_cases (provisioned : provision suite store authority root nowMs = .ok written) :
    written = store ∨ ∃ value, written =
      store.insert (authorityKey authority.rootEndpointId authority.recoveryPublicKey) value := by
  obtain ⟨-, provisioned⟩ := check_bind_ok.mp provisioned
  obtain ⟨encoded, -, provisioned⟩ := bind_ok.mp provisioned
  split at provisioned
  · obtain ⟨existing, -, provisioned⟩ := bind_ok.mp provisioned
    split at provisioned
    · split at provisioned
      · cases provisioned
        exact .inl rfl
      · cases provisioned
    · cases provisioned
      exact .inr ⟨_, rfl⟩
  · cases provisioned
    exact .inr ⟨_, rfl⟩

/-- The key `root` grants the key `recovery` authority over identities and bindings, and the latter revokes
`subject` under it from time 2 on. -/
def plainRecord (root recovery : UInt8) (subject : RevocationSubject) (expiresAtMs : UInt64) :
    List RecoveryRecord :=
  let signed : Except RecoveryError RecoveryRecord := do
    let authority ← RecoveryAuthorization.sign plainSuite (plainKeys root) (plainKeys recovery).publicKey
      0x03 1 1 0
    let statement ← RecoveryRevocation.sign plainSuite (plainKeys recovery) (plainEndpoint root) subject
      1 2 expiresAtMs
    .ok { root := (plainKeys root).publicKey, authority, statement }
  signed.toOption.toList

end RecoveryStore

end

/-! Whose bindings a recovery key can revoke. `validate` ties a statement to the authority and the root it is
issued under, but not its subject to the root: while every statement handed in names its own root, a binding is
refused only by a record of its own identity. A statement that names another identity is accepted all the same.
-/

open OrderedMap

variable {binding : IdentityBinding} {record : RecoveryRecord}

/-- The identity whose bindings the subject can match. -/
def RevocationSubject.boundEndpoint : RevocationSubject → Option (Octets 32)
  | .identity endpointId | .binding endpointId _ => some endpointId
  | .delegation _ | .introduction _ | .recoveryKey _ => none

theorem RevocationSubject.boundEndpoint_of_matches {subject : RevocationSubject}
    (hit : subject.matchesBinding binding = true) : subject.boundEndpoint = some binding.endpointId := by
  cases subject with
  | identity endpointId => exact congrArg some (of_decide_eq_true hit)
  | binding => exact congrArg some (of_decide_eq_true hit).1
  | delegation publicKey => cases hit
  | introduction endpointId => cases hit
  | recoveryKey publicKey => cases hit

/-- An identity or a binding that the statement revokes is the root it is issued under. -/
def RecoveryRevocation.NamesOwnRoot (statement : RecoveryRevocation) : Prop :=
  statement.subject.boundEndpoint = none ∨
    statement.subject.boundEndpoint = some statement.rootEndpointId
  deriving Decidable

theorem RecoveryRevocation.NamesOwnRoot.root_eq {statement : RecoveryRevocation}
    (own : statement.NamesOwnRoot) (hit : statement.subject.matchesBinding binding = true) :
    statement.rootEndpointId = binding.endpointId := by
  have bound := RevocationSubject.boundEndpoint_of_matches hit
  rcases own with unbound | named
  · rw [bound] at unbound
    cases unbound
  · rw [bound] at named
    exact (Option.some.inj named).symm

inductive RecoveryCall where
  | provision (authority : RecoveryAuthorization) (root : Octets 32) (nowMs : UInt64)
  | acceptRevocation (record : RecoveryRecord) (nowMs : UInt64)
  | acceptBatch (bytes : Bytes) (nowMs : UInt64)

namespace RecoveryStore

/-- The store behind a call; one that fails before its write changes nothing. -/
def after (suite : Suite) (store : TrustStore) : RecoveryCall → TrustStore
  | .provision authority root nowMs =>
    (provision suite store authority root nowMs).toOption.getD store
  | .acceptRevocation record nowMs =>
    (acceptRevocation suite store record.statement record.authority record.root nowMs).toOption.getD store
  | .acceptBatch bytes nowMs => (acceptBatch suite store bytes nowMs).2

def NamesOwnRoots : RecoveryCall → Prop
  | .provision .. => True
  | .acceptRevocation record _ => record.statement.NamesOwnRoot
  | .acceptBatch bytes _ =>
    ∀ items, decodeBatch bytes = .ok items → ∀ record ∈ items, record.statement.NamesOwnRoot

instance (call : RecoveryCall) : Decidable (NamesOwnRoots call) :=
  match call with
  | .provision .. => .isTrue trivial
  | .acceptRevocation record _ => inferInstanceAs (Decidable record.statement.NamesOwnRoot)
  | .acceptBatch bytes _ =>
    match decoded : decodeBatch bytes with
    | .error e => .isTrue fun items found => by rw [decoded] at found; cases found
    | .ok items =>
      decidable_of_iff (∀ record ∈ items, record.statement.NamesOwnRoot)
        ⟨fun own items' found => by rw [decoded] at found; cases found; exact own,
          fun own => own items decoded⟩

/-- Every stored revocation is the value of a record that names its own root. -/
def HoldsOwnRoots (store : TrustStore) : Prop :=
  ∀ entry ∈ store.under recoveryPrefix, ∃ record : RecoveryRecord,
    entry.2 = record.value ∧ record.Structured ∧ record.statement.NamesOwnRoot

variable {suite : Suite} {store written : TrustStore} {nowMs : UInt64}

section
variable (held : HoldsOwnRoots store)
include held

theorem HoldsOwnRoots.insert_record (structured : record.Structured)
    (own : record.statement.NamesOwnRoot) : HoldsOwnRoots (store.insert key record.value) := by
  intro entry member
  obtain ⟨inStore, named⟩ := TrustStore.mem_under.mp member
  rcases mem_insert.mp inStore with rfl | ⟨before, -⟩
  · exact ⟨record, rfl, structured, own⟩
  · exact held entry (TrustStore.mem_under.mpr ⟨before, named⟩)

theorem HoldsOwnRoots.insert_authority : HoldsOwnRoots (store.insert (authorityKey root recovery) value) := by
  intro entry member
  obtain ⟨inStore, named⟩ := TrustStore.mem_under.mp member
  rcases mem_insert.mp inStore with rfl | ⟨before, -⟩
  · cases named
  · exact held entry (TrustStore.mem_under.mpr ⟨before, named⟩)

theorem HoldsOwnRoots.acceptRevocation (own : record.statement.NamesOwnRoot)
    (accepted : acceptRevocation suite store record.statement record.authority record.root nowMs =
      .ok written) : HoldsOwnRoots written := by
  obtain ⟨valid, rfl | rfl⟩ := acceptRevocation_cases accepted
  · exact held
  · have structured := RecoveryRevocation.structure_of_verify (RecoveryRevocation.validate_ok.mp valid).1
    exact held.insert_record structured own

theorem HoldsOwnRoots.commit (own : ∀ record ∈ items, record.statement.NamesOwnRoot) :
    HoldsOwnRoots (commit suite nowMs store items).2 := by
  induction items generalizing store with
  | nil => exact held
  | cons record rest ih =>
    obtain ⟨first, others⟩ := List.forall_mem_cons.mp own
    unfold RecoveryStore.commit
    split
    · exact held
    · next written accepted => exact ih (held.acceptRevocation first accepted) others

theorem HoldsOwnRoots.after (own : NamesOwnRoots call) : HoldsOwnRoots (after suite store call) := by
  cases call with
  | provision authority root nowMs =>
    show HoldsOwnRoots ((provision suite store authority root nowMs).toOption.getD store)
    cases provisioned : provision suite store authority root nowMs with
    | error e => exact held
    | ok written =>
      obtain rfl | ⟨value, rfl⟩ := provision_cases provisioned
      · exact held
      · exact held.insert_authority
  | acceptRevocation record nowMs =>
    show HoldsOwnRoots ((RecoveryStore.acceptRevocation suite store record.statement record.authority
      record.root nowMs).toOption.getD store)
    cases accepted : RecoveryStore.acceptRevocation suite store record.statement record.authority
        record.root nowMs with
    | error e => exact held
    | ok written => exact held.acceptRevocation own accepted
  | acceptBatch bytes nowMs =>
    show HoldsOwnRoots (acceptBatch suite store bytes nowMs).2
    cases verified : verifiedBatch suite store bytes nowMs with
    | error e =>
      rw [acceptBatch_of_refused verified]
      exact held
    | ok items =>
      rw [acceptBatch_of_verified verified]
      exact held.commit (own items (verifiedBatch_ok.mp verified).1)

end

/-- In a store built by calls whose statements name their own root, a binding is refused as revoked only by a
statement in force under its own identity, and no stored statement of another root is about it. -/
theorem revoked_by_own_root {suite : Suite} {calls : List RecoveryCall}
    (own : ∀ call ∈ calls, NamesOwnRoots call) (binding : IdentityBinding) (nowMs : UInt64) :
    let store := calls.foldl (after suite) .empty
    (check suite store binding nowMs = .error .revoked →
      ∃ entry ∈ store.under recoveryPrefix, ∃ record, RecoveryRecord.decode entry.2 = .ok record ∧
        superseded store record.authority = .ok false ∧
        record.statement.validate suite record.authority record.root nowMs = .ok () ∧
        record.statement.rootEndpointId = binding.endpointId) ∧
    ∀ entry ∈ store.under recoveryPrefix, ∀ record, RecoveryRecord.decode entry.2 = .ok record →
      record.statement.subject.matchesBinding binding = true →
        record.statement.rootEndpointId = binding.endpointId := by
  intro store
  have held : HoldsOwnRoots store :=
    Run.invariant_of_meets (fun _ _ held own => HoldsOwnRoots.after held own)
      (fun entry member => absurd (TrustStore.mem_under.mp member).1 not_mem_empty)
      (Run.meets_of_forall own _)
  have confined : ∀ entry ∈ store.under recoveryPrefix, ∀ record,
      RecoveryRecord.decode entry.2 = .ok record →
      record.statement.subject.matchesBinding binding = true →
        record.statement.rootEndpointId = binding.endpointId := by
    intro entry member record decoded hit
    obtain ⟨stored, shape, structured, names⟩ := held entry member
    rw [shape, RecoveryRecord.decode_value structured] at decoded
    cases decoded
    exact names.root_eq hit
  refine ⟨fun refused => ?_, confined⟩
  obtain ⟨entry, member, stopped⟩ := stopped_of_forM_error refused
  obtain ⟨record, decoded, current, valid, hit⟩ := checkRecord_revoked.mp stopped
  exact ⟨entry, member, record, decoded, current, valid, confined entry member record decoded hit⟩

/-- The first key's authority for the second one is provisioned, and the second key's
revocation of `subject` is accepted. -/
def grantedRevocation (subject : RevocationSubject) : List RecoveryCall :=
  (plainRecord 1 2 subject 0).flatMap fun record =>
    [.provision record.authority record.root 2, .acceptRevocation record 2]

theorem revoked_by_own_root_one :
    let calls := grantedRevocation (.identity (plainEndpoint 1))
    let store := calls.foldl (after plainSuite) .empty
    (∀ call ∈ calls, NamesOwnRoots call) ∧
      check plainSuite store { endpointId := plainEndpoint 1, sequence := 0 } 3 = .error .revoked ∧
      ∃ entry ∈ store.under recoveryPrefix, ∃ record, RecoveryRecord.decode entry.2 = .ok record ∧
        record.statement.rootEndpointId = plainEndpoint 1 := by
  intro calls store
  have own : ∀ call ∈ calls, NamesOwnRoots call := by decide +kernel
  have refused : check plainSuite store { endpointId := plainEndpoint 1, sequence := 0 } 3 =
      .error .revoked := by decide +kernel
  obtain ⟨entry, member, record, decoded, -, -, named⟩ := (revoked_by_own_root own _ 3).1 refused
  exact ⟨own, refused, entry, member, record, decoded, named⟩

/-- A recovery key revokes an identity that never granted it anything. -/
theorem stranger_revoked :
    check plainSuite ((grantedRevocation (.identity (plainEndpoint 3))).foldl (after plainSuite) .empty)
        { endpointId := plainEndpoint 3, sequence := 0 } 3 = .error .revoked ∧
      (statements ((grantedRevocation (.identity (plainEndpoint 3))).foldl (after plainSuite) .empty)).map
        RecoveryRevocation.rootEndpointId = [plainEndpoint 1] ∧
      plainEndpoint 1 ≠ plainEndpoint 3 := by
  decide +kernel

end RecoveryStore
end UniversalMesh.Trust
