import UniversalMesh.Crypto.PacketKeys
import UniversalMesh.Lib.Failure

/-! `trust_statement.rs`: what a revocation revokes, and the signed revocation statement with its fixed
encoding. The signature scheme is a parameter, as the hash is; times and sequences are 64-bit words. -/
namespace UniversalMesh.Trust
open MachineWord Wire Crypto ByteReader Reader

/-- The hash and the ciphers with `IdentityPublicKey::verify` of `signatures.rs`. -/
structure Suite extends Primitives where
  verify (publicKey : Octets 32) (message : Bytes) (signature : Octets 64) : Bool

/-- `IdentityKeyPair`: its public key and what it signs. -/
structure IdentityKeyPair where
  publicKey : Octets 32
  sign : Bytes → Octets 64

/-- `[0u8; 32]`. -/
def zeroKey : Octets 32 := Octets.fill 32 0

/-- The domain that endpoint ids are hashed in. -/
def endpointDomain : Bytes := ascii "UMP-ENDPOINT-ID-v1"

def endpointId (suite : Suite) (publicKey : Octets 32) : Octets 32 :=
  suite.blake2s (endpointDomain ++ publicKey.val)

/-- The fields of an `IdentityBinding` that the revocation checks read. -/
structure IdentityBinding where
  endpointId : Octets 32
  sequence : UInt64
  deriving DecidableEq

inductive RevocationClass where
  | identity | binding | delegation | introduction | recoveryKey
  deriving DecidableEq, Repr

inductive RevocationSubject where
  | identity (endpointId : Octets 32) | binding (endpointId : Octets 32) (bindingSequence : UInt64)
  | delegation (publicKey : Octets 32) | introduction (endpointId : Octets 32)
  | recoveryKey (publicKey : Octets 32)
  deriving DecidableEq

inductive RevocationStatementError where
  | version | endpointIdMismatch | invalidSubject | invalidValidity | notYetValid | expired
  | badSignature | oversized | truncated | trailingBytes | unauthorizedSubject
  deriving DecidableEq, Repr

/-- The derived `Debug` text, which the stores put into their messages. -/
def RevocationStatementError.debug : RevocationStatementError → String
  | version => "Version"
  | endpointIdMismatch => "EndpointIdMismatch"
  | invalidSubject => "InvalidSubject"
  | invalidValidity => "InvalidValidity"
  | notYetValid => "NotYetValid"
  | expired => "Expired"
  | badSignature => "BadSignature"
  | oversized => "Oversized"
  | truncated => "Truncated"
  | trailingBytes => "TrailingBytes"
  | unauthorizedSubject => "UnauthorizedSubject"

namespace RevocationSubject

/-- `RevocationSubject::class`. -/
def toClass : RevocationSubject → RevocationClass
  | identity _ => .identity
  | binding _ _ => .binding
  | delegation _ => .delegation
  | introduction _ => .introduction
  | recoveryKey _ => .recoveryKey

/-- The tag of `RevocationSubject::tag_and_bytes`. -/
def tag : RevocationSubject → UInt8
  | identity _ => 0
  | binding _ _ => 1
  | delegation _ => 2
  | introduction _ => 3
  | recoveryKey _ => 4

/-- The bytes of `RevocationSubject::tag_and_bytes`. -/
def bytes : RevocationSubject → Bytes
  | identity endpointId | delegation endpointId | introduction endpointId | recoveryKey endpointId =>
    endpointId.val
  | binding endpointId bindingSequence => endpointId.val ++ wordBytes bindingSequence

/-- The tag decides the kind of subject and its exact length. -/
def fromParts (tag : UInt8) (bytes : Bytes) : Except RevocationStatementError RevocationSubject :=
  if long : 32 ≤ bytes.length then
    let endpointId : Octets 32 := ⟨bytes.take 32, by rw [List.length_take]; omega⟩
    if endpointId = zeroKey then .error .invalidSubject
    else if tag = 0 ∧ bytes.length = 32 then .ok (identity endpointId)
    else if tag = 1 ∧ bytes.length = 40 then
      .ok (binding endpointId (UInt64.ofNat (fromBeBytes (bytes.drop 32))))
    else if tag = 2 ∧ bytes.length = 32 then .ok (delegation endpointId)
    else if tag = 3 ∧ bytes.length = 32 then .ok (introduction endpointId)
    else if tag = 4 ∧ bytes.length = 32 then .ok (recoveryKey endpointId)
    else .error .invalidSubject
  else .error .invalidSubject

variable (subject : RevocationSubject)

/-- The test of both `validate_structure`: the first 32 bytes are not all zero. -/
def wellFormed : Bool :=
  decide (32 ≤ subject.bytes.length ∧ subject.bytes.take 32 ≠ zeroKey.val)

/-- Whether the subject is the binding, in both stores' `check`. -/
def matchesBinding (checked : IdentityBinding) : Bool :=
  match subject with
  | identity endpointId => endpointId = checked.endpointId
  | binding endpointId bindingSequence =>
    endpointId = checked.endpointId ∧ checked.sequence ≤ bindingSequence
  | delegation _ | introduction _ | recoveryKey _ => false

theorem bytes_length : subject.bytes.length = if subject.tag = 1 then 40 else 32 := by
  cases subject with
  | binding endpointId bindingSequence => simp [bytes, tag, endpointId.2]
  | _ endpointId => simp [bytes, tag, endpointId.2]

theorem fromParts_bytes {subject : RevocationSubject} (sound : subject.wellFormed = true) :
    fromParts subject.tag subject.bytes = .ok subject := by
  obtain ⟨long, nonzero⟩ := of_decide_eq_true sound
  have named : (⟨subject.bytes.take 32, by rw [List.length_take]; omega⟩ : Octets 32) ≠ zeroKey :=
    fun same => nonzero (congrArg Subtype.val same)
  rw [fromParts, dif_pos long]
  simp only [if_neg named]
  cases subject with
  | binding endpointId bindingSequence =>
    have taken : (endpointId.val ++ wordBytes bindingSequence).take 32 = endpointId.val :=
      List.take_left' endpointId.2
    have dropped : (endpointId.val ++ wordBytes bindingSequence).drop 32 = wordBytes bindingSequence :=
      List.drop_left' endpointId.2
    simp [tag, bytes, endpointId.2, taken, dropped, ofNat_wordBytes]
  | _ endpointId =>
    have taken : endpointId.val.take 32 = endpointId.val := List.take_of_length_le endpointId.2.le
    simp [tag, bytes, endpointId.2, taken]

end RevocationSubject

/-- The tag and the subject behind it, as both statements read them. -/
def readSubject {ε : Type} (short invalid : ε) : Reader ε UInt8 RevocationSubject := do
  let tag ← byte short
  let bytes ← slice short (if tag = 1 then 40 else 32)
  lift ((RevocationSubject.fromParts tag bytes).mapError fun _ => invalid)

variable {ε : Type}

theorem reads_subject (short invalid : ε) {subject : RevocationSubject} (sound : subject.wellFormed = true) :
    Reads (readSubject short invalid) subject ([subject.tag] ++ subject.bytes) := by
  have made : Reads (lift ((RevocationSubject.fromParts subject.tag subject.bytes).mapError
      fun _ => invalid)) subject [] :=
    lift_reads (by rw [RevocationSubject.fromParts_bytes sound]; rfl)
  have piece : Reads (slice short subject.bytes.length >>= fun bytes =>
      lift ((RevocationSubject.fromParts subject.tag bytes).mapError fun _ => invalid))
      subject (subject.bytes ++ []) :=
    (slice_reads short subject.bytes).bind made
  rw [subject.bytes_length, List.append_nil] at piece
  exact (byte_reads short subject.tag).bind piece

theorem readSubject_fails {short invalid : ε} (early : errors short)
    (malformed : errors invalid) : Fails errors (readSubject short invalid) := by
  refine (Fails.byte early).bind fun tag => (Fails.slice early _).bind fun bytes => .lift ?_
  intro e failed
  cases parts : RevocationSubject.fromParts tag bytes with
  | error e' =>
    rw [parts] at failed
    cases failed
    exact malformed
  | ok subject =>
    rw [parts] at failed
    cases failed

/-- A validity interval without an end when `expiresAtMs` is zero. -/
def InWindow (issuedAtMs expiresAtMs nowMs : UInt64) : Prop :=
  issuedAtMs ≤ nowMs ∧ (expiresAtMs = 0 ∨ nowMs < expiresAtMs)
  deriving Decidable

/-- `validate_window`, and the end of `SignedRevocation::validate`, with their errors. -/
def validateWindow {ε : Type} (notYetValid expired : ε) (issuedAtMs expiresAtMs nowMs : UInt64) :
    Except ε Unit := do
  refuse (nowMs < issuedAtMs) notYetValid
  refuse (expiresAtMs ≠ 0 ∧ nowMs ≥ expiresAtMs) expired

variable {notYetValid expired : ε}

theorem validateWindow_ok :
    validateWindow notYetValid expired issuedAtMs expiresAtMs nowMs = .ok () ↔
      InWindow issuedAtMs expiresAtMs nowMs := by
  unfold validateWindow InWindow
  rw [refuse_bind_ok]
  simp only [refuse, decide_eq_false_iff_not, UInt64.not_lt, ge_iff_le]
  by_cases endless : expiresAtMs = 0
  · simp [endless]
  · by_cases late : expiresAtMs ≤ nowMs
    · simp [endless, late, UInt64.not_lt.mpr late]
    · simp [endless, late, UInt64.not_le.mp late]

theorem validateWindow_error (out : ¬ InWindow issuedAtMs expiresAtMs nowMs) :
    validateWindow notYetValid expired issuedAtMs expiresAtMs nowMs = .error notYetValid ∨
      validateWindow notYetValid expired issuedAtMs expiresAtMs nowMs = .error expired := by
  by_cases early : nowMs < issuedAtMs
  · exact .inl (by simp [validateWindow, refuse, early, bind, Except.bind])
  · by_cases late : expiresAtMs ≠ 0 ∧ nowMs ≥ expiresAtMs
    · exact .inr (by simp [validateWindow, refuse, early, late, bind, Except.bind])
    · have passes : validateWindow notYetValid expired issuedAtMs expiresAtMs nowMs = .ok () := by
        simp [validateWindow, refuse, early, late, bind, Except.bind]
      exact absurd (validateWindow_ok.mp passes) out

structure SignedRevocation where
  version : UInt8
  issuerEndpointId : Octets 32
  subject : RevocationSubject
  (sequence issuedAtMs expiresAtMs : UInt64)
  signature : Octets 64
  deriving DecidableEq

namespace SignedRevocation

def maxRevocationStatement : Nat := 256

/-- The domain of the signed message. -/
def messageDomain : Bytes := ascii "UMP-REVOCATION-v1"

def signedBytes (statement : SignedRevocation) : Bytes :=
  [statement.version] ++ statement.issuerEndpointId.val ++
    ([statement.subject.tag] ++ statement.subject.bytes) ++ wordBytes statement.sequence ++
    wordBytes statement.issuedAtMs ++ wordBytes statement.expiresAtMs

def signedMessage (suite : Suite) (statement : SignedRevocation) : Octets 32 :=
  suite.blake2s (messageDomain ++ statement.signedBytes)

def validateStructure (statement : SignedRevocation) : Except RevocationStatementError Unit := do
  refuse (statement.version ≠ 1) .version
  refuse (statement.issuerEndpointId = zeroKey) .endpointIdMismatch
  refuse (!statement.subject.wellFormed) .invalidSubject
  refuse (statement.expiresAtMs ≠ 0 ∧ statement.expiresAtMs ≤ statement.issuedAtMs) .invalidValidity
  refuse (statement.signedBytes.length + 64 > maxRevocationStatement) .oversized

def sign (suite : Suite) (identity : IdentityKeyPair) (subject : RevocationSubject)
    (sequence issuedAtMs expiresAtMs : UInt64) : Except RevocationStatementError SignedRevocation := do
  let statement : SignedRevocation :=
    { version := 1, issuerEndpointId := Trust.endpointId suite identity.publicKey, subject, sequence,
      issuedAtMs, expiresAtMs, signature := copyInto 64 [] }
  statement.validateStructure
  .ok { statement with signature := identity.sign (statement.signedMessage suite).val }

def isSelfAuthorized (statement : SignedRevocation) : Bool :=
  match statement.subject with
  | .identity endpointId | .binding endpointId _ => endpointId = statement.issuerEndpointId
  | .delegation _ | .introduction _ | .recoveryKey _ => false

def verifySignature (suite : Suite) (statement : SignedRevocation) (issuer : Octets 32) :
    Except RevocationStatementError Unit := do
  statement.validateStructure
  refuse (Trust.endpointId suite issuer ≠ statement.issuerEndpointId) .endpointIdMismatch
  refuse (!suite.verify issuer (statement.signedMessage suite).val statement.signature) .badSignature

def validate (suite : Suite) (statement : SignedRevocation) (issuer : Octets 32) (nowMs : UInt64) :
    Except RevocationStatementError Unit := do
  statement.verifySignature suite issuer
  validateWindow .notYetValid .expired statement.issuedAtMs statement.expiresAtMs nowMs

def toBytes (statement : SignedRevocation) : Except RevocationStatementError Bytes := do
  statement.validateStructure
  let out := statement.signedBytes ++ statement.signature.val
  refuse (out.length > maxRevocationStatement) .oversized
  .ok out

/-- The fields of `SignedRevocation::from_bytes`. -/
def reader : Reader RevocationStatementError UInt8 SignedRevocation := do
  let version ← byte .truncated
  let issuerEndpointId ← array .truncated 32
  let subject ← readSubject .truncated .invalidSubject
  let sequence ← word64 .truncated
  let issuedAtMs ← word64 .truncated
  let expiresAtMs ← word64 .truncated
  let signature ← array .truncated 64
  pure { version, issuerEndpointId, subject, sequence, issuedAtMs, expiresAtMs, signature }

def fromBytes (bytes : Bytes) : Except RevocationStatementError SignedRevocation :=
  decodeWhole maxRevocationStatement .oversized .trailingBytes reader validateStructure bytes

theorem signedBytes_length (statement : SignedRevocation) : statement.signedBytes.length ≤ 98 := by
  have subject := statement.subject.bytes_length
  simp only [signedBytes, List.length_append, List.length_singleton, wordBytes_length,
    statement.issuerEndpointId.2]
  split at subject <;> omega

variable {bytes : Bytes} {statement : SignedRevocation}

theorem toBytes_ok :
    statement.toBytes = .ok bytes ↔
      statement.validateStructure = .ok () ∧ bytes = statement.signedBytes ++ statement.signature.val := by
  have length := statement.signedBytes_length
  have fits : decide ((statement.signedBytes ++ statement.signature.val).length >
      maxRevocationStatement) = false := by
    rw [List.length_append, statement.signature.2, maxRevocationStatement]
    exact decide_eq_false (by omega)
  rw [toBytes, check_bind_ok]
  dsimp only
  rw [fits, refuse_bind_ok, Except.ok.injEq, eq_comm (a := bytes)]
  simp

theorem wellFormed_of_structure (sound : statement.validateStructure = .ok ()) :
    statement.subject.wellFormed = true := by
  obtain ⟨-, sound⟩ := refuse_bind_ok.mp sound
  obtain ⟨-, sound⟩ := refuse_bind_ok.mp sound
  obtain ⟨named, -⟩ := refuse_bind_ok.mp sound
  simpa using named

theorem reads_statement (named : statement.subject.wellFormed = true) :
    Reads reader statement (statement.signedBytes ++ statement.signature.val) := by
  have fields : statement.signedBytes ++ statement.signature.val = [statement.version] ++
      (statement.issuerEndpointId.val ++ (([statement.subject.tag] ++ statement.subject.bytes) ++
        (wordBytes statement.sequence ++ (wordBytes statement.issuedAtMs ++
          (wordBytes statement.expiresAtMs ++ (statement.signature.val ++ [])))))) := by
    simp [signedBytes]
  rw [fields]
  exact (byte_reads _ _).bind <| (array_reads _ _).bind <| (reads_subject _ _ named).bind <|
    (word64_reads _ _).bind <| (word64_reads _ _).bind <| (word64_reads _ _).bind <|
    (array_reads _ _).bind .pure

theorem fromBytes_toBytes (encoded : statement.toBytes = .ok bytes) : fromBytes bytes = .ok statement := by
  have length := statement.signedBytes_length
  obtain ⟨sound, rfl⟩ := toBytes_ok.mp encoded
  refine decodeWhole_ok ?_ (reads_statement (wellFormed_of_structure sound)) sound
  rw [List.length_append, statement.signature.2, maxRevocationStatement]
  omega

theorem toBytes_injective (encoded : statement.toBytes = .ok bytes)
    (same : other.toBytes = .ok bytes) : other = statement := by
  have decoded := fromBytes_toBytes encoded
  rw [fromBytes_toBytes same] at decoded
  exact Except.ok.inj decoded

theorem eq_of_signedBytes {other : SignedRevocation} (sound : statement.validateStructure = .ok ())
    (sound' : other.validateStructure = .ok ()) (same : other.signedBytes = statement.signedBytes) :
    { other with signature := statement.signature } = statement := by
  refine toBytes_injective (toBytes_ok.mpr ⟨sound, rfl⟩) (toBytes_ok.mpr ⟨sound', ?_⟩)
  rw [← same]
  rfl

end SignedRevocation

/-- A signed certificate authorizing one more key. -/
structure SignedDelegation where
  version : UInt8
  (issuerEndpointId delegatedPublicKey : Octets 32)
  allowedCapabilities : List Bytes
  (createdAtMs expiresAtMs sequence : UInt64)
  signature : Octets 64
  deriving DecidableEq

/-- A delegation chain with the root authority it is verified against. -/
structure StoredDelegationChain where
  rootPublicKey : Octets 32
  rootCapabilities : List Bytes
  certificates : List SignedDelegation
  deriving DecidableEq

/-- A suite for runs on fixed inputs: a signature is the key followed by the message. -/
def plainSuite : Suite :=
  { transparent with verify := fun publicKey message signature => signature.val = publicKey.val ++ message }

/-- The key pair of `plainSuite` whose key repeats one byte. -/
def plainKeys (byte : UInt8) : IdentityKeyPair :=
  { publicKey := ⟨List.replicate 32 byte, List.length_replicate⟩
    sign := fun message => copyInto 64 (List.replicate 32 byte ++ message) }

/-- The identity of `plainKeys`. -/
def plainEndpoint (byte : UInt8) : Octets 32 := endpointId plainSuite (plainKeys byte).publicKey

end UniversalMesh.Trust
