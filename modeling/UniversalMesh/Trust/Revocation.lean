import UniversalMesh.Trust.RecoveryStore

/-! `RevocationStore` of `revocation.rs`: the operator's own revocation record of an endpoint, the signed
statements about identities, bindings and delegations, and the two checks that read them. -/
namespace UniversalMesh.Trust
open MachineWord Wire ByteReader Storage

inductive RevocationError where
  | revoked (endpointId : Octets 32) (sequence : UInt64) | storage (error : StoreError)
  | invalid (message : String)
  deriving DecidableEq

structure RevocationRecord where
  endpointId : Octets 32
  (revokedSequence notAfterMs : UInt64)
  revokerId : Bytes
  recordedAtMs : UInt64
  deriving DecidableEq

/-- The keys of the operator's own records begin with this. -/
def localPrefix : Bytes := ascii "revoke/"

/-- The keys of signed revocations begin with this. -/
def signedPrefix : Bytes := ascii "revoke-signed/"

def revocationKey (endpointId : Octets 32) : Bytes := localPrefix ++ endpointId.val

def signedRevocationKey (statement : SignedRevocation) : Bytes :=
  signedPrefix ++ statement.issuerEndpointId.val ++ statement.signedBytes

namespace RevocationRecord

/-- The value `revoke` stores: the length field of a revoker longer than `u16::MAX` saturates. -/
def encode (record : RevocationRecord) : Bytes :=
  [1] ++ wordBytes record.revokedSequence ++ wordBytes record.notAfterMs ++
    wordBytes record.recordedAtMs ++ toBeBytes 2 (min record.revokerId.length 65535) ++ record.revokerId

/-- `decode_revocation`. -/
def decode (endpointId : Octets 32) (value : Bytes) : Except StoreError RevocationRecord := do
  refuse (value.length < 27 ∨ value.head? ≠ some 1) (.corrupt "bad revocation record")
  let revokerLength := fromBeBytes ((value.drop 25).take 2)
  refuse (value.length ≠ 27 + revokerLength) (.corrupt "bad revocation record length")
  .ok { endpointId
        revokedSequence := UInt64.ofNat (fromBeBytes ((value.drop 1).take 8))
        notAfterMs := UInt64.ofNat (fromBeBytes ((value.drop 9).take 8))
        recordedAtMs := UInt64.ofNat (fromBeBytes ((value.drop 17).take 8))
        revokerId := value.drop 27 }

end RevocationRecord

namespace RevocationStore

variable (store : TrustStore)

def record (endpointId : Octets 32) : Except StoreError (Option RevocationRecord) :=
  match store.get? (revocationKey endpointId) with
  | none => .ok none
  | some value => (RevocationRecord.decode endpointId value).map some

/-- The arguments of `revoke` pass its first test. -/
def wellFormed (call : RevocationRecord) : Bool :=
  decide (call.revokerId ≠ [] ∧ (call.notAfterMs = 0 ∨ call.recordedAtMs < call.notAfterMs))

/-- `RevocationStore::revoke`; the arguments are the record it makes. -/
def revoke (call : RevocationRecord) : Except RevocationError TrustStore := do
  refuse (!wellFormed call) (.invalid "invalid revocation record")
  let existing ← (record store call.endpointId).mapError .storage
  match existing with
  | none => .ok ()
  | some old =>
    refuse (call.revokedSequence < old.revokedSequence) (.invalid "revocation sequence regressed")
  .ok (store.insert (revocationKey call.endpointId) call.encode)

variable (suite : Suite)

/-- One entry of `signed_record_entries`. -/
def signedEntry (entry : Bytes × Bytes) : Except StoreError (Octets 32 × SignedRevocation) :=
  if long : 32 ≤ entry.2.length then do
    let issuer : Octets 32 := ⟨entry.2.take 32, List.length_take_of_le long⟩
    let statement ← (SignedRevocation.fromBytes (entry.2.drop 32)).mapError fun e =>
      .corrupt ("bad signed revocation: " ++ e.debug)
    refuse (signedRevocationKey statement ≠ entry.1)
      (.corrupt "signed revocation key does not match statement")
    (statement.verifySignature suite issuer).mapError fun e =>
      .corrupt ("bad signed revocation signature: " ++ e.debug)
    .ok (issuer, statement)
  else .error (.corrupt "bad signed revocation issuer key")

def signedRecordEntries (store : TrustStore) : Except StoreError (List (Octets 32 × SignedRevocation)) :=
  (store.under signedPrefix).mapM (signedEntry suite)

theorem signedEntry_ok {suite : Suite} {entry : Bytes × Bytes} {record : Octets 32 × SignedRevocation}
    (read : signedEntry suite entry = .ok record) :
    signedRevocationKey record.2 = entry.1 ∧ record.2.verifySignature suite record.1 = .ok () := by
  unfold signedEntry at read
  split at read
  case isFalse => cases read
  case isTrue long =>
    obtain ⟨statement, -, read⟩ := bind_ok.mp read
    obtain ⟨named, read⟩ := refuse_bind_ok.mp read
    obtain ⟨verified, read⟩ := check_bind_ok.mp read
    cases read
    rw [decide_eq_false_iff_not, not_not] at named
    exact ⟨named, mapError_ok.mp verified⟩

/-- A stored statement of the same issuer about the same subject that is as recent. -/
def regresses (stored : List (Octets 32 × SignedRevocation)) (statement : SignedRevocation) : Bool :=
  stored.any fun entry => entry.2.issuerEndpointId = statement.issuerEndpointId ∧
    entry.2.subject = statement.subject ∧ entry.2.sequence ≥ statement.sequence

/-- The common part of `accept_signed` and `accept_delegation_signed`: `kind` stands in
their messages, and the subject test is theirs. -/
def acceptStatement (store : TrustStore) (kind : String) (authorized : Bool)
    (unauthorized : String) (statement : SignedRevocation) (issuer : Octets 32) (nowMs : UInt64) :
    Except RevocationError TrustStore := do
  (statement.validate suite issuer nowMs).mapError fun e => .invalid ("invalid " ++ kind ++ ": " ++ e.debug)
  refuse (!authorized) (.invalid unauthorized)
  let stored ← (signedRecordEntries suite store).mapError .storage
  refuse (regresses stored statement) (.invalid "signed revocation sequence regressed")
  let encoded ← statement.toBytes.mapError fun e => .invalid ("invalid " ++ kind ++ ": " ++ e.debug)
  .ok (store.insert (signedRevocationKey statement) (issuer.val ++ encoded))

def acceptSigned (store : TrustStore) (statement : SignedRevocation) (issuer : Octets 32)
    (nowMs : UInt64) : Except RevocationError TrustStore :=
  acceptStatement suite store "signed revocation" statement.isSelfAuthorized
    "signed revocation issuer lacks subject authority" statement issuer nowMs

def acceptDelegationSigned (store : TrustStore) (statement : SignedRevocation)
    (root delegated : Octets 32) (nowMs : UInt64) : Except RevocationError TrustStore :=
  acceptStatement suite store "delegation revocation" (statement.subject = .delegation delegated)
    "delegation revocation subject mismatch" statement root nowMs

variable (chain : StoredDelegationChain)

/-- The keys a chain delegates to. -/
def chainKeys : List (Octets 32) :=
  chain.certificates.map SignedDelegation.delegatedPublicKey

/-- The key of the chain that a statement is about, if it is about one. -/
def concernedKey (statement : SignedRevocation) : Option (Octets 32) :=
  match statement.subject with
  | .delegation subject => if subject ∈ chainKeys chain then some subject else none
  | _ => none

/-- The body of the loop of `check_delegation` for one stored statement. -/
def checkLink (nowMs : UInt64) (entry : Octets 32 × SignedRevocation) : Except RevocationError Unit :=
  match concernedKey chain entry.2 with
  | none => .ok ()
  | some subject => do
    (entry.2.validate suite entry.1 nowMs).mapError fun e =>
      .invalid ("invalid delegation revocation: " ++ e.debug)
    refuse (entry.1 ≠ chain.rootPublicKey)
      (.invalid "delegation revocation issuer is not the chain root")
    .error (.revoked (endpointId suite subject) entry.2.sequence)

def checkDelegation (store : TrustStore) (chain : StoredDelegationChain) (nowMs : UInt64) :
    Except RevocationError Unit := do
  refuse chain.certificates.isEmpty (.invalid "empty delegation chain")
  let entries ← (signedRecordEntries suite store).mapError .storage
  entries.forM (checkLink suite chain nowMs)

variable (binding : IdentityBinding)

/-- The first part of `check`: the operator's record of the endpoint. -/
def checkLocal (nowMs : UInt64) : Except RevocationError Unit := do
  let found ← (record store binding.endpointId).mapError .storage
  match found with
  | none => .ok ()
  | some old =>
    refuse ((old.notAfterMs = 0 ∨ nowMs ≤ old.notAfterMs) ∧ binding.sequence ≤ old.revokedSequence)
      (.revoked binding.endpointId binding.sequence)

/-- The body of the loop of `check` for one signed statement. -/
def checkStatement (nowMs : UInt64) (entry : Octets 32 × SignedRevocation) : Except RevocationError Unit :=
  if nowMs < entry.2.issuedAtMs ∨ (entry.2.expiresAtMs ≠ 0 ∧ nowMs ≥ entry.2.expiresAtMs) then .ok ()
  else refuse (entry.2.subject.matchesBinding binding) (.revoked binding.endpointId binding.sequence)

/-- The second part of `check`: the signed statements. -/
def checkSigned (store : TrustStore) (binding : IdentityBinding) (nowMs : UInt64) :
    Except RevocationError Unit := do
  let entries ← (signedRecordEntries suite store).mapError .storage
  entries.forM (checkStatement binding nowMs)

/-- How `check` reports an error of the recovery check. -/
def recoveryFailure : RecoveryError → RevocationError
  | .revoked => .revoked binding.endpointId binding.sequence
  | e => .invalid ("recovery revocation check failed: " ++ e.debug)

def check (suite : Suite) (store : TrustStore) (binding : IdentityBinding) (nowMs : UInt64) :
    Except RevocationError Unit := do
  checkLocal store binding nowMs
  checkSigned suite store binding nowMs
  (RecoveryStore.check suite store binding nowMs).mapError (recoveryFailure binding)

end RevocationStore

/-! How long an operator's revocation lasts. An endpoint has one record, and each `revoke` that succeeds
replaces it, its expiry included; only the sequence is kept from falling. So a revocation without expiry holds
as long as every later call that can replace it is without expiry too, or expires no earlier. -/

open OrderedMap

namespace RevocationRecord

variable {record : RevocationRecord} (record : RevocationRecord)

theorem encode_length : record.encode.length = 27 + record.revokerId.length := by
  simp only [encode, List.length_append, List.length_singleton, wordBytes_length, toBeBytes_length]

theorem encode_fields :
    (record.encode.drop 1).take 8 = wordBytes record.revokedSequence ∧
      (record.encode.drop 9).take 8 = wordBytes record.notAfterMs ∧
      (record.encode.drop 17).take 8 = wordBytes record.recordedAtMs ∧
      (record.encode.drop 25).take 2 = toBeBytes 2 (min record.revokerId.length 65535) ∧
      record.encode.drop 27 = record.revokerId := by
  have past : ∀ (word : UInt64) (count : Nat), (wordBytes word).drop (8 + count) = [] := by
    intro word count
    exact List.drop_eq_nil_of_le (by rw [wordBytes_length]; omega)
  simp [encode, List.drop_append, past _ 2, past _ 8, past _ 10, past _ 16, past _ 18]

/-- A stored record is read back unless its revoker is longer than its length field can say. -/
theorem decode_encode (endpointId : Octets 32) :
    decode endpointId record.encode = .ok { record with endpointId } ∨
      decode endpointId record.encode = .error (.corrupt "bad revocation record length") := by
  obtain ⟨sequence, notAfter, recordedAt, length, revoker⟩ := record.encode_fields
  have shaped : decide (record.encode.length < 27 ∨ record.encode.head? ≠ some 1) = false := by
    have first : record.encode.head? = some 1 := rfl
    simp [first, record.encode_length]
  have counted : fromBeBytes ((record.encode.drop 25).take 2) = min record.revokerId.length 65535 := by
    rw [length, fromBeBytes_toBeBytes]
    omega
  unfold decode
  rw [shaped, counted, sequence, notAfter, recordedAt, revoker, ofNat_wordBytes, ofNat_wordBytes,
    ofNat_wordBytes, record.encode_length]
  dsimp only
  by_cases short : record.revokerId.length ≤ 65535
  · refine .inl ?_
    have fits : decide (27 + record.revokerId.length ≠ 27 + min record.revokerId.length 65535) = false :=
      decide_eq_false (by omega)
    rw [fits]
    rfl
  · refine .inr ?_
    have differs : decide (27 + record.revokerId.length ≠ 27 + min record.revokerId.length 65535) = true :=
      decide_eq_true (by omega)
    rw [differs]
    rfl

end RevocationRecord

namespace RevocationStore

variable {store written : TrustStore} {call : RevocationRecord} {endpointId : Octets 32}

theorem revocationKey_injective (same : revocationKey left = revocationKey right) : left = right :=
  Subtype.ext (List.append_cancel_left same)

theorem revoke_cases (revoked : revoke store call = .ok written) :
    wellFormed call = true ∧ written = store.insert (revocationKey call.endpointId) call.encode ∧
      ∃ existing, record store call.endpointId = .ok existing ∧
        ∀ old, existing = some old → old.revokedSequence ≤ call.revokedSequence := by
  obtain ⟨formed, revoked⟩ := refuse_bind_ok.mp revoked
  obtain ⟨existing, found, revoked⟩ := bind_ok.mp revoked
  have read := mapError_ok.mp found
  refine ⟨by simpa using formed, ?_⟩
  cases existing with
  | none =>
    cases revoked
    exact ⟨rfl, none, read, fun _ same => by cases same⟩
  | some old =>
    obtain ⟨advances, revoked⟩ := refuse_bind_ok.mp revoked
    cases revoked
    refine ⟨rfl, some old, read, ?_⟩
    rintro _ ⟨⟩
    exact UInt64.not_lt.mp (of_decide_eq_false advances)

/-- The endpoint's record is one that revokes the sequence and is in force at the time. -/
def RevokedAt (store : TrustStore) (endpointId : Octets 32) (sequence nowMs : UInt64) : Prop :=
  ∃ old : RevocationRecord, store.get? (revocationKey endpointId) = some old.encode ∧
    sequence ≤ old.revokedSequence ∧ (old.notAfterMs = 0 ∨ nowMs ≤ old.notAfterMs)

/-- A call that does not end a revocation of the sequence: it is about another endpoint, is refused for its
arguments or its sequence, or is in force itself. -/
def KeepsRevoked (endpointId : Octets 32) (sequence nowMs : UInt64) (call : RevocationRecord) : Prop :=
  call.endpointId = endpointId → wellFormed call = true → sequence ≤ call.revokedSequence →
    call.notAfterMs = 0 ∨ nowMs ≤ call.notAfterMs

variable {sequence nowMs : UInt64}

theorem RevokedAt.record (held : RevokedAt store endpointId sequence nowMs) :
    (∃ old, record store endpointId = .ok (some old) ∧ sequence ≤ old.revokedSequence ∧
        (old.notAfterMs = 0 ∨ nowMs ≤ old.notAfterMs)) ∨
      record store endpointId = .error (.corrupt "bad revocation record length") := by
  obtain ⟨old, stored, covers, lasts⟩ := held
  have found : RevocationStore.record store endpointId =
      (RevocationRecord.decode endpointId old.encode).map some := by
    unfold RevocationStore.record
    rw [stored]
  rw [found]
  rcases old.decode_encode endpointId with read | refused
  · exact .inl ⟨{ old with endpointId }, by rw [read]; rfl, covers, lasts⟩
  · exact .inr (by rw [refused]; rfl)

theorem RevokedAt.revoke (held : RevokedAt store endpointId sequence nowMs)
    (keeps : KeepsRevoked endpointId sequence nowMs call) :
    RevokedAt ((revoke store call).toOption.getD store) endpointId sequence nowMs := by
  cases revoked : RevocationStore.revoke store call with
  | error e => exact held
  | ok written =>
    obtain ⟨formed, rfl, existing, found, advances⟩ := revoke_cases revoked
    by_cases same : call.endpointId = endpointId
    · subst same
      refine ⟨call, get?_insert_self, ?_⟩
      -- the record found is the one in force, so the new sequence is no lower
      obtain ⟨old, read, covers, -⟩ | corrupt := held.record
      · cases found.symm.trans read
        have higher := UInt64.le_trans covers (advances old rfl)
        exact ⟨higher, keeps rfl formed higher⟩
      · cases found.symm.trans corrupt
    · obtain ⟨old, stored, rest⟩ := held
      have other : revocationKey endpointId ≠ revocationKey call.endpointId :=
        fun equal => same (revocationKey_injective equal).symm
      exact ⟨old, (get?_insert_of_ne other).trans stored, rest⟩

/-- The store behind `revoke` calls; one that fails changes nothing. -/
def afterRevokes (store : TrustStore) (calls : List RevocationRecord) : TrustStore :=
  calls.foldl (fun store call => (revoke store call).toOption.getD store) store

/-- A revocation without expiry refuses the endpoint's bindings up to its sequence at every time at which each
later call that can replace it is in force. -/
theorem permanent_revocation_lasts {suite : Suite} {first : RevocationRecord} {later : List RevocationRecord}
    {binding : IdentityBinding} {nowMs : UInt64} (revoked : revoke store first = .ok written)
    (permanent : first.notAfterMs = 0)
    (keeps : ∀ call ∈ later, KeepsRevoked first.endpointId first.revokedSequence nowMs call)
    (named : binding.endpointId = first.endpointId) (covered : binding.sequence ≤ first.revokedSequence) :
    check suite (afterRevokes written later) binding nowMs =
        .error (.revoked binding.endpointId binding.sequence) ∨
      check suite (afterRevokes written later) binding nowMs =
        .error (.storage (.corrupt "bad revocation record length")) := by
  obtain ⟨-, rfl, -⟩ := revoke_cases revoked
  have start : RevokedAt (store.insert (revocationKey first.endpointId) first.encode) first.endpointId
      first.revokedSequence nowMs :=
    ⟨first, get?_insert_self, UInt64.le_refl _, .inl permanent⟩
  have step : ∀ (store : TrustStore) (call : RevocationRecord),
      RevokedAt store first.endpointId first.revokedSequence nowMs →
      KeepsRevoked first.endpointId first.revokedSequence nowMs call →
      RevokedAt ((revoke store call).toOption.getD store) first.endpointId first.revokedSequence nowMs :=
    fun _ _ held keeps => held.revoke keeps
  have held : RevokedAt (afterRevokes _ later) first.endpointId first.revokedSequence nowMs :=
    Run.invariant_of_meets step start (Run.meets_of_forall keeps _)
  unfold check checkLocal
  rw [named]
  obtain ⟨old, read, covers, lasts⟩ | corrupt := held.record
  · refine .inl ?_
    have hit := UInt64.le_trans covered covers
    simp [read, Except.mapError, refuse, lasts, hit, bind, Except.bind]
  · exact .inr (by simp [corrupt, Except.mapError, bind, Except.bind])

/-- The operator's record of one identity, up to sequence 3. -/
def operatorRecord (notAfterMs recordedAtMs : UInt64) : RevocationRecord :=
  { endpointId := plainEndpoint 7, revokedSequence := 3, notAfterMs, revokerId := [0x6F, 0x70], recordedAtMs }

theorem permanent_revocation_lasts_renewed :
    (∀ call ∈ [operatorRecord 0 20], KeepsRevoked (plainEndpoint 7) 3 101 call) ∧
      ∃ written, revoke .empty (operatorRecord 0 10) = .ok written ∧
        (check plainSuite (afterRevokes written [operatorRecord 0 20])
            { endpointId := plainEndpoint 7, sequence := 3 } 101 = .error (.revoked (plainEndpoint 7) 3) ∨
          check plainSuite (afterRevokes written [operatorRecord 0 20])
            { endpointId := plainEndpoint 7, sequence := 3 } 101 =
              .error (.storage (.corrupt "bad revocation record length"))) := by
  have keeps : ∀ call ∈ [operatorRecord 0 20], KeepsRevoked (plainEndpoint 7) 3 101 call := by
    intro call member _ _ _
    obtain rfl := List.mem_singleton.mp member
    exact .inl rfl
  have revoked : revoke .empty (operatorRecord 0 10) =
      .ok (OrderedMap.empty.insert (revocationKey (plainEndpoint 7)) (operatorRecord 0 10).encode) := rfl
  exact ⟨keeps, _, revoked, permanent_revocation_lasts revoked rfl keeps rfl (by decide)⟩

/-- A revocation that expires replaces one that does not, and the binding passes behind the
new expiry. -/
theorem permanent_revocation_expires :
    (revoke .empty (operatorRecord 0 10)).toOption.isSome = true ∧
      (revoke (afterRevokes .empty [operatorRecord 0 10]) (operatorRecord 100 20)).toOption.isSome = true ∧
      check plainSuite (afterRevokes .empty [operatorRecord 0 10, operatorRecord 100 20])
        { endpointId := plainEndpoint 7, sequence := 3 } 101 = .ok () := by
  decide +kernel

end RevocationStore

/-! Signed revocations outside their validity interval. The loop of `check` passes over them; the recovery check
and the delegation check validate a statement, its interval included, before they look whom it is about, and
fail. So a check gives what it would give without such statements exactly when none of them is what it stops at.
-/

/-- A verified revocation statement, signed by its issuer or by a recovery key, outside its validity interval.
-/
def lapsed (suite : Suite) (nowMs : UInt64) (entry : Bytes × Bytes) : Bool :=
  if signedPrefix.isPrefixOf entry.1 then
    match RevocationStore.signedEntry suite entry with
    | .ok found => !decide (InWindow found.2.issuedAtMs found.2.expiresAtMs nowMs)
    | .error _ => false
  else if recoveryPrefix.isPrefixOf entry.1 then
    match RecoveryRecord.decode entry.2 with
    | .ok record => decide (record.statement.verify suite record.authority record.root = .ok () ∧
        ¬ InWindow record.statement.issuedAtMs record.statement.expiresAtMs nowMs)
    | .error _ => false
  else false

/-- The store without its lapsed statements. -/
def TrustStore.inForce (suite : Suite) (nowMs : UInt64) (store : TrustStore) : TrustStore :=
  store.filter fun entry => !lapsed suite nowMs entry

variable {suite : Suite} {store : TrustStore} {nowMs : UInt64} {entry : Bytes × Bytes}

theorem lapsed_eq_false (unsigned : signedPrefix.isPrefixOf key = false)
    (other : recoveryPrefix.isPrefixOf key = false) : lapsed suite nowMs (key, value) = false := by
  simp [lapsed, unsigned, other]

theorem signedPrefix_of_recoveryPrefix (recovery : recoveryPrefix.isPrefixOf key = true) :
    signedPrefix.isPrefixOf key = false := by
  obtain ⟨rest, rfl⟩ := List.isPrefixOf_iff_prefix.mp recovery
  rfl

theorem lapsed_recovery (recovery : recoveryPrefix.isPrefixOf entry.1 = true) :
    lapsed suite nowMs entry = true ↔ ∃ record, RecoveryRecord.decode entry.2 = .ok record ∧
      record.statement.verify suite record.authority record.root = .ok () ∧
      ¬ InWindow record.statement.issuedAtMs record.statement.expiresAtMs nowMs := by
  unfold lapsed
  rw [signedPrefix_of_recoveryPrefix recovery, recovery]
  cases decoded : RecoveryRecord.decode entry.2 with
  | error e => simp
  | ok record => simp

theorem lapsed_signed (signed : signedPrefix.isPrefixOf entry.1 = true)
    (read : RevocationStore.signedEntry suite entry = .ok found) :
    lapsed suite nowMs entry = !decide (InWindow found.2.issuedAtMs found.2.expiresAtMs nowMs) := by
  simp [lapsed, signed, read]

variable {entries : List (Octets 32 × SignedRevocation)}

theorem inForce_get? (unsigned : signedPrefix.isPrefixOf key = false)
    (other : recoveryPrefix.isPrefixOf key = false) : (store.inForce suite nowMs).get? key = store.get? key :=
  OrderedMap.get?_filter_of_keep fun _ _ => by simp [lapsed_eq_false unsigned other]

namespace RecoveryStore

theorem superseded_inForce : superseded (store.inForce suite nowMs) authority = superseded store authority := by
  unfold superseded
  rw [inForce_get? rfl rfl]

theorem check_inForce :
    check suite (store.inForce suite nowMs) binding nowMs =
      ((store.under recoveryPrefix).filter fun entry => !lapsed suite nowMs entry).forM
        fun entry => checkRecord suite store binding nowMs entry.2 := by
  unfold check checkRecord
  simp only [superseded_inForce]
  rw [TrustStore.inForce, TrustStore.under_filter]

/-- A lapsed record is passed over when its authority is superseded, and fails otherwise. -/
theorem checkRecord_of_lapsed (store : TrustStore) (binding : IdentityBinding)
    (decoded : RecoveryRecord.decode value = .ok record)
    (verified : record.statement.verify suite record.authority record.root = .ok ())
    (out : ¬ InWindow record.statement.issuedAtMs record.statement.expiresAtMs nowMs) :
    match superseded store record.authority with
    | .error e => checkRecord suite store binding nowMs value = .error e
    | .ok true => checkRecord suite store binding nowMs value = .ok ()
    | .ok false => ∃ e, ¬ e.Intrinsic ∧ e ≠ .revoked ∧
        checkRecord suite store binding nowMs value = .error e := by
  cases old : superseded store record.authority with
  | error e =>
    rw [checkRecord, decoded, ok_bind, old]
    rfl
  | ok old' =>
    cases old' with
    | true =>
      rw [checkRecord, decoded, ok_bind, old]
      rfl
    | false =>
      rw [checkRecord_of_current decoded old]
      rcases RecoveryRevocation.validate_of_lapsed verified out with early | late
      · exact ⟨.notYetValid, id, by decide, by rw [early]; rfl⟩
      · exact ⟨.expired, id, by decide, by rw [late]; rfl⟩

/-- A record that is not lapsed never fails for its interval. -/
theorem checkRecord_of_kept
    (recovery : recoveryPrefix.isPrefixOf entry.1 = true) (kept : lapsed suite nowMs entry = false)
    (failed : checkRecord suite store binding nowMs entry.2 = .error e) : e.Intrinsic ∨ e = .revoked := by
  rcases checkRecord_error failed with
    intrinsic | ⟨record, decoded, -, verified, ⟨-, -, revoked⟩ | ⟨out, -⟩⟩
  · exact .inl intrinsic
  · exact .inr revoked
  · rw [(lapsed_recovery recovery).mpr ⟨record, decoded, verified, out⟩] at kept
    cases kept

/-- The record the recovery check stops at is not a lapsed statement; or its stored authority is unreadable, and
the first record in force that stops the check fails with the same error. -/
def RecoveryInert (suite : Suite) (store : TrustStore) (binding : IdentityBinding) (nowMs : UInt64) : Prop :=
  ∀ entry, firstStop (fun entry => checkRecord suite store binding nowMs entry.2)
      (store.under recoveryPrefix) = some entry →
    lapsed suite nowMs entry = true →
    ∃ record e, RecoveryRecord.decode entry.2 = .ok record ∧ superseded store record.authority = .error e ∧
      ∃ kept, firstStop (fun entry => checkRecord suite store binding nowMs entry.2)
          ((store.under recoveryPrefix).filter fun entry => !lapsed suite nowMs entry) = some kept ∧
        checkRecord suite store binding nowMs kept.2 = .error e

theorem check_inForce_iff (binding : IdentityBinding) :
    check suite store binding nowMs = check suite (store.inForce suite nowMs) binding nowMs ↔
      RecoveryInert suite store binding nowMs := by
  unfold RecoveryInert
  rw [check_inForce, check, forM_filter_eq_iff]
  constructor
  · intro equal entry stop dropped
    obtain ⟨member, fails⟩ := firstStop_some stop
    have recovery := (TrustStore.mem_under.mp member).2
    obtain ⟨record, decoded, verified, out⟩ := (lapsed_recovery recovery).mp dropped
    have same := equal entry stop (by rw [dropped]; rfl)
    have result := checkRecord_of_lapsed store binding decoded verified out
    cases old : superseded store record.authority with
    | error e =>
      rw [old] at result
      exact ⟨record, e, decoded, old, forM_error_iff.mp (same.trans result)⟩
    | ok old' =>
      rw [old] at result
      cases old' with
      | true => exact absurd result fails
      | false =>
        obtain ⟨e, timely, other, failed⟩ := result
        obtain ⟨kept, inKept, stopped⟩ := stopped_of_forM_error (same.trans failed)
        obtain ⟨inStore, lasting⟩ := List.mem_filter.mp inKept
        rcases checkRecord_of_kept (TrustStore.mem_under.mp inStore).2 (by simpa using lasting) stopped
          with intrinsic | revoked
        · exact absurd intrinsic timely
        · exact absurd revoked other
  · intro inert entry stop dropped
    obtain ⟨record, e, decoded, old, failed⟩ := inert entry stop (by simpa using dropped)
    rw [forM_error_iff.mpr failed, checkRecord, decoded, ok_bind, old]
    rfl

end RecoveryStore

namespace RevocationStore

variable {binding : IdentityBinding} {chain : StoredDelegationChain} {found : Octets 32 × SignedRevocation}

/-- Without the lapsed statements the store reads as the statements in force, or fails alike. -/
theorem signedRecordEntries_inForce :
    signedRecordEntries suite (store.inForce suite nowMs) = (signedRecordEntries suite store).map
      (List.filter fun found => decide (InWindow found.2.issuedAtMs found.2.expiresAtMs nowMs)) := by
  unfold signedRecordEntries
  rw [TrustStore.inForce, TrustStore.under_filter]
  apply mapM_filter
  · intro entry member found read
    rw [lapsed_signed (TrustStore.mem_under.mp member).2 read, Bool.not_not]
  · intro entry member e failed
    simp [lapsed, (TrustStore.mem_under.mp member).2, failed]

theorem verified_of_signedRecordEntries (read : signedRecordEntries suite store = .ok entries)
    (member : found ∈ entries) : found.2.verifySignature suite found.1 = .ok () := by
  obtain ⟨entry, -, made⟩ := (mem_mapM_ok read).mp member
  exact (signedEntry_ok made).2

theorem checkLocal_inForce :
    checkLocal (store.inForce suite nowMs) binding nowMs = checkLocal store binding nowMs := by
  unfold checkLocal record
  rw [inForce_get? rfl rfl]

theorem checkStatement_of_lapsed (out : ¬ InWindow found.2.issuedAtMs found.2.expiresAtMs nowMs) :
    checkStatement binding nowMs found = .ok () := by
  refine if_pos ?_
  by_contra inside
  obtain ⟨started, unexpired⟩ := not_or.mp inside
  refine out ⟨UInt64.not_lt.mp started, ?_⟩
  by_cases endless : found.2.expiresAtMs = 0
  · exact .inl endless
  · exact .inr (UInt64.not_le.mp fun late => unexpired ⟨endless, late⟩)

theorem checkSigned_inForce :
    checkSigned suite (store.inForce suite nowMs) binding nowMs = checkSigned suite store binding nowMs := by
  unfold checkSigned
  rw [signedRecordEntries_inForce]
  cases signedRecordEntries suite store with
  | error e => rfl
  | ok entries =>
    refine (forM_filter_eq_iff.mpr fun found stop dropped => ?_).symm
    have passed : checkStatement binding nowMs found = .ok () :=
      checkStatement_of_lapsed (of_decide_eq_false dropped)
    exact absurd passed (firstStop_some stop).2

theorem recoveryFailure_injective
    (same : recoveryFailure binding left = recoveryFailure binding right) : left = right := by
  unfold recoveryFailure at same
  split at same
  · split at same
    · rfl
    · cases same
  · split at same
    · cases same
    · exact RecoveryError.debug_injective
        ((String.append_right_inj _).mp (RevocationError.invalid.inj same))

/-- `check` gives what it gives without the lapsed statements exactly when it has failed before the recovery
check or the recovery check does. -/
theorem check_inForce_iff :
    check suite store binding nowMs = check suite (store.inForce suite nowMs) binding nowMs ↔
      (checkLocal store binding nowMs = .ok () → checkSigned suite store binding nowMs = .ok () →
        RecoveryStore.RecoveryInert suite store binding nowMs) := by
  unfold check
  rw [checkLocal_inForce, checkSigned_inForce, ← RecoveryStore.check_inForce_iff]
  cases checkLocal store binding nowMs with
  | error e => simp [bind, Except.bind]
  | ok passed =>
    cases checkSigned suite store binding nowMs with
    | error e => simp [bind, Except.bind]
    | ok passed =>
      simp only [ok_bind, forall_const]
      constructor
      · exact mapError_injective fun _ _ => recoveryFailure_injective
      · intro same
        rw [same]

/-- The delegation check stops at every statement about a key of the chain, whatever comes of it. -/
theorem checkLink_isOk : (checkLink suite chain nowMs found).isOk = !(concernedKey chain found.2).isSome := by
  unfold checkLink
  cases concernedKey chain found.2 with
  | none => rfl
  | some subject =>
    cases found.2.validate suite found.1 nowMs with
    | error e => rfl
    | ok passed => cases decide (found.1 ≠ chain.rootPublicKey) <;> rfl

theorem firstStop_checkLink :
    firstStop (checkLink suite chain nowMs) entries =
      entries.find? fun found => (concernedKey chain found.2).isSome := by
  simp only [firstStop, checkLink_isOk, Bool.not_not]

theorem checkLink_of_lapsed (about : (concernedKey chain found.2).isSome = true)
    (verified : found.2.verifySignature suite found.1 = .ok ())
    (out : ¬ InWindow found.2.issuedAtMs found.2.expiresAtMs nowMs) :
    checkLink suite chain nowMs found = .error (.invalid "invalid delegation revocation: NotYetValid") ∨
      checkLink suite chain nowMs found = .error (.invalid "invalid delegation revocation: Expired") := by
  obtain ⟨subject, named⟩ := Option.isSome_iff_exists.mp about
  unfold checkLink
  rw [named]
  rw [SignedRevocation.validate, verified, ok_bind]
  rcases validateWindow_error out with early | late
  · exact .inl (by rw [early]; rfl)
  · exact .inr (by rw [late]; rfl)

theorem checkLink_of_inForce (verified : found.2.verifySignature suite found.1 = .ok ())
    (inside : InWindow found.2.issuedAtMs found.2.expiresAtMs nowMs)
    (failed : checkLink suite chain nowMs found = .error e) :
    e = .invalid "delegation revocation issuer is not the chain root" ∨
      ∃ endpoint sequence, e = .revoked endpoint sequence := by
  unfold checkLink at failed
  cases named : concernedKey chain found.2 with
  | none =>
    rw [named] at failed
    cases failed
  | some subject =>
    rw [named] at failed
    rw [SignedRevocation.validate, verified, ok_bind, validateWindow_ok.mpr inside] at failed
    cases foreign : decide (found.1 ≠ chain.rootPublicKey) with
    | true =>
      rw [foreign] at failed
      cases failed
      exact .inl rfl
    | false =>
      rw [foreign] at failed
      cases failed
      exact .inr ⟨_, _, rfl⟩

/-- Among verified statements, those outside their interval do not show in the delegation check exactly when the
first one about a key of the chain is in force. -/
theorem forM_checkLink_iff (verified : ∀ found ∈ entries, found.2.verifySignature suite found.1 = .ok ()) :
    entries.forM (checkLink suite chain nowMs) = (entries.filter fun found =>
        decide (InWindow found.2.issuedAtMs found.2.expiresAtMs nowMs)).forM (checkLink suite chain nowMs) ↔
      ∀ found, (entries.find? fun found => (concernedKey chain found.2).isSome) = some found →
        InWindow found.2.issuedAtMs found.2.expiresAtMs nowMs := by
  rw [forM_filter_eq_iff, firstStop_checkLink]
  constructor
  · intro equal found first
    by_contra out
    have same := equal found first (decide_eq_false out)
    have member := List.mem_of_find?_eq_some first
    have about : (concernedKey chain found.2).isSome = true := by simpa using List.find?_some first
    -- a statement in force would have to fail with the message of an interval
    have apart : ∀ message, checkLink suite chain nowMs found = .error (.invalid message) →
        message = "delegation revocation issuer is not the chain root" := by
      intro message failed
      obtain ⟨kept, inKept, stopped⟩ := stopped_of_forM_error (same.trans failed)
      obtain ⟨inEntries, inside⟩ := List.mem_filter.mp inKept
      rcases checkLink_of_inForce (verified kept inEntries) (of_decide_eq_true inside) stopped
        with issuer | ⟨endpoint, sequence, revoked⟩
      · exact RevocationError.invalid.inj issuer
      · cases revoked
    rcases checkLink_of_lapsed about (verified found member) out with early | late
    · exact absurd (apart _ early) (by decide)
    · exact absurd (apart _ late) (by decide)
  · intro inside found first out
    exact absurd (inside found first) (of_decide_eq_false out)

/-- The first stored statement about a key of the chain is in force. -/
def DelegationInert (suite : Suite) (store : TrustStore) (chain : StoredDelegationChain) (nowMs : UInt64) :
    Prop :=
  chain.certificates ≠ [] → ∀ entries, signedRecordEntries suite store = .ok entries →
    ∀ found, (entries.find? fun found => (concernedKey chain found.2).isSome) = some found →
      InWindow found.2.issuedAtMs found.2.expiresAtMs nowMs

theorem checkDelegation_inForce_iff :
    checkDelegation suite store chain nowMs =
        checkDelegation suite (store.inForce suite nowMs) chain nowMs ↔
      DelegationInert suite store chain nowMs := by
  unfold checkDelegation DelegationInert
  rw [signedRecordEntries_inForce]
  cases present : chain.certificates with
  | nil => simp [refuse, bind, Except.bind]
  | cons certificate rest =>
    cases read : signedRecordEntries suite store with
    | error e => simp [Except.map, Except.mapError, refuse, bind, Except.bind]
    | ok entries =>
      show entries.forM (checkLink suite chain nowMs) = (entries.filter _).forM _ ↔ _
      rw [forM_checkLink_iff fun found member => verified_of_signedRecordEntries read member]
      constructor
      · rintro inside - _ ⟨⟩
        exact inside
      · intro inside
        exact inside (List.cons_ne_nil certificate rest) entries rfl

/-- Both checks give what they give on the store without its lapsed statements exactly when no lapsed statement
is what they stop at. -/
theorem lapsed_evidence_inert_iff (suite : Suite) (store : TrustStore) (binding : IdentityBinding)
    (chain : StoredDelegationChain) (nowMs : UInt64) :
    (check suite store binding nowMs = check suite (store.inForce suite nowMs) binding nowMs ∧
        checkDelegation suite store chain nowMs =
          checkDelegation suite (store.inForce suite nowMs) chain nowMs) ↔
      (checkLocal store binding nowMs = .ok () → checkSigned suite store binding nowMs = .ok () →
        RecoveryStore.RecoveryInert suite store binding nowMs) ∧
      DelegationInert suite store chain nowMs :=
  and_congr check_inForce_iff checkDelegation_inForce_iff

/-- A node accepted the recovery of one identity until time 10, and the root's revocation of a delegated key
until then. -/
def expiringStore : TrustStore :=
  let accepted : Except RevocationError TrustStore := do
    let statement ← (SignedRevocation.sign plainSuite (plainKeys 1) (.delegation (plainKeys 5).publicKey)
      1 2 10).mapError fun e => .invalid e.debug
    acceptDelegationSigned plainSuite
      ((RecoveryStore.plainRecord 1 2 (.identity (plainEndpoint 1)) 10).foldl (fun store record =>
        (RecoveryStore.acceptRevocation plainSuite store record.statement record.authority record.root
          3).toOption.getD store) .empty)
      statement (plainKeys 1).publicKey (plainKeys 5).publicKey 3
  accepted.toOption.getD .empty

/-- The chain of one certificate for the key 5. -/
def singleLink : StoredDelegationChain :=
  { rootPublicKey := (plainKeys 1).publicKey
    rootCapabilities := []
    certificates :=
      [{ version := 1, issuerEndpointId := plainEndpoint 1, delegatedPublicKey := (plainKeys 5).publicKey
         allowedCapabilities := [], createdAtMs := 1, expiresAtMs := 100, sequence := 1
         signature := Crypto.copyInto 64 [] }] }

/-- Behind their expiry the recovery of one identity fails the check of another one, and the revocation of a key
keeps failing the chain; without them both pass. -/
theorem lapsed_evidence_refuses :
    check plainSuite expiringStore { endpointId := plainEndpoint 3, sequence := 0 } 20 =
        .error (.invalid "recovery revocation check failed: Expired") ∧
      checkDelegation plainSuite expiringStore singleLink 20 =
        .error (.invalid "invalid delegation revocation: Expired") ∧
      expiringStore.inForce plainSuite 20 = .empty ∧
      check plainSuite (expiringStore.inForce plainSuite 20)
        { endpointId := plainEndpoint 3, sequence := 0 } 20 = .ok () ∧
      checkDelegation plainSuite (expiringStore.inForce plainSuite 20) singleLink 20 = .ok () := by
  decide +kernel

end RevocationStore
end UniversalMesh.Trust
