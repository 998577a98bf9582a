import UniversalMesh.Storage.Store
import UniversalMesh.Trust.Statement

/-! `recovery.rs`: the authority a root identity grants to a recovery key, the revocations such a key issues,
and the store that keeps both. The trust namespace of the backend is an ordered map of byte strings, scanned in
key order; a backend that fails is left out. -/
namespace UniversalMesh.Trust
open MachineWord Wire Crypto ByteReader Reader

inductive RecoveryError where
  | version | invalidKey | invalidRoot | invalidSubject | invalidScope | invalidValidity
  | notYetValid | expired | badSignature | oversized | truncated | trailingBytes | unauthorized
  | revoked | sequenceRegressed
  deriving DecidableEq, Repr

/-- The derived `Debug` text. -/
def RecoveryError.debug : RecoveryError → String
  | version => "Version"
  | invalidKey => "InvalidKey"
  | invalidRoot => "InvalidRoot"
  | invalidSubject => "InvalidSubject"
  | invalidScope => "InvalidScope"
  | invalidValidity => "InvalidValidity"
  | notYetValid => "NotYetValid"
  | expired => "Expired"
  | badSignature => "BadSignature"
  | oversized => "Oversized"
  | truncated => "Truncated"
  | trailingBytes => "TrailingBytes"
  | unauthorized => "Unauthorized"
  | revoked => "Revoked"
  | sequenceRegressed => "SequenceRegressed"

theorem RecoveryError.debug_injective {left right : RecoveryError} (same : left.debug = right.debug) :
    left = right := by
  cases left <;> cases right <;> first | rfl | simp [debug] at same

/-- The errors that depend on the bytes of a record alone. -/
def RecoveryError.Intrinsic : RecoveryError → Prop
  | notYetValid | expired | revoked | sequenceRegressed => False
  | _ => True

def classBit : RevocationClass → UInt8
  | .identity => 0x01
  | .binding => 0x02
  | .delegation => 0x04
  | .introduction => 0x08
  | .recoveryKey => 0x10

structure RecoveryAuthorization where
  version : UInt8
  (rootEndpointId recoveryPublicKey : Octets 32)
  allowedClasses : UInt8
  (sequence issuedAtMs expiresAtMs : UInt64)
  signature : Octets 64
  deriving DecidableEq

structure RecoveryRevocation where
  version : UInt8
  (rootEndpointId recoveryEndpointId recoveryPublicKey : Octets 32)
  subject : RevocationSubject
  (sequence issuedAtMs expiresAtMs : UInt64)
  signature : Octets 64
  deriving DecidableEq

/-- The limit of both `from_bytes`. -/
def maxRecoveryStatement : Nat := 256

namespace RecoveryAuthorization

/-- The domain of the signed message. -/
def messageDomain : Bytes := ascii "UMP-RECOVERY-AUTH-v1"

def signedBytes (authority : RecoveryAuthorization) : Bytes :=
  [authority.version] ++ authority.rootEndpointId.val ++ authority.recoveryPublicKey.val ++
    [authority.allowedClasses] ++ wordBytes authority.sequence ++ wordBytes authority.issuedAtMs ++
    wordBytes authority.expiresAtMs

variable (suite : Suite)

def signedMessage (authority : RecoveryAuthorization) : Octets 32 :=
  suite.blake2s (messageDomain ++ authority.signedBytes)

def validateStructure (authority : RecoveryAuthorization) : Except RecoveryError Unit := do
  refuse (authority.version ≠ 1) .version
  refuse (authority.rootEndpointId = zeroKey ∨ authority.recoveryPublicKey = zeroKey) .invalidKey
  refuse (authority.allowedClasses &&& 0xE0 ≠ 0) .invalidScope
  refuse (authority.expiresAtMs ≠ 0 ∧ authority.expiresAtMs ≤ authority.issuedAtMs) .invalidValidity

def sign (suite : Suite) (root : IdentityKeyPair) (recoveryPublicKey : Octets 32) (allowedClasses : UInt8)
    (sequence issuedAtMs expiresAtMs : UInt64) : Except RecoveryError RecoveryAuthorization := do
  let authority : RecoveryAuthorization :=
    { version := 1, rootEndpointId := endpointId suite root.publicKey, recoveryPublicKey,
      allowedClasses, sequence, issuedAtMs, expiresAtMs, signature := copyInto 64 [] }
  authority.validateStructure
  .ok { authority with signature := root.sign (authority.signedMessage suite).val }

section
variable (authority : RecoveryAuthorization)

def verifySignature (root : Octets 32) : Except RecoveryError Unit := do
  authority.validateStructure
  refuse (endpointId suite root ≠ authority.rootEndpointId) .invalidRoot
  refuse (!suite.verify root (authority.signedMessage suite).val authority.signature) .badSignature

def validate (root : Octets 32) (nowMs : UInt64) :
    Except RecoveryError Unit := do
  authority.verifySignature suite root
  validateWindow .notYetValid .expired authority.issuedAtMs authority.expiresAtMs nowMs

def allows (kind : RevocationClass) : Bool :=
  authority.allowedClasses &&& classBit kind ≠ 0

def toBytes : Except RecoveryError Bytes := do
  authority.validateStructure
  .ok (authority.signedBytes ++ authority.signature.val)

/-- The fields of `RecoveryAuthorization::from_bytes`. -/
def reader : Reader RecoveryError UInt8 RecoveryAuthorization := do
  let version ← byte .truncated
  let rootEndpointId ← array .truncated 32
  let recoveryPublicKey ← array .truncated 32
  let allowedClasses ← byte .truncated
  let sequence ← word64 .truncated
  let issuedAtMs ← word64 .truncated
  let expiresAtMs ← word64 .truncated
  let signature ← array .truncated 64
  pure { version, rootEndpointId, recoveryPublicKey, allowedClasses, sequence, issuedAtMs, expiresAtMs,
         signature }

def fromBytes (bytes : Bytes) : Except RecoveryError RecoveryAuthorization :=
  decodeWhole maxRecoveryStatement .oversized .trailingBytes reader validateStructure bytes

theorem validateStructure_fails :
    FailsOnly RecoveryError.Intrinsic authority.validateStructure :=
  (FailsOnly.refuse trivial).bind fun _ => (FailsOnly.refuse trivial).bind fun _ =>
    (FailsOnly.refuse trivial).bind fun _ => .refuse trivial

theorem fromBytes_fails (bytes : Bytes) : FailsOnly RecoveryError.Intrinsic (fromBytes bytes) := by
  refine .decodeWhole trivial trivial ?_ validateStructure_fails bytes
  exact (Fails.byte trivial).bind fun _ => (Fails.array trivial 32).bind fun _ =>
    (Fails.array trivial 32).bind fun _ => (Fails.byte trivial).bind fun _ =>
    (Fails.word64 trivial).bind fun _ => (Fails.word64 trivial).bind fun _ =>
    (Fails.word64 trivial).bind fun _ => (Fails.array trivial 64).bind fun _ => .pure _

theorem verifySignature_fails (root : Octets 32) :
    FailsOnly RecoveryError.Intrinsic (authority.verifySignature suite root) :=
  authority.validateStructure_fails.bind fun _ => (FailsOnly.refuse trivial).bind fun _ => .refuse trivial

theorem signedBytes_length : authority.signedBytes.length = 90 := by
  simp [signedBytes, authority.rootEndpointId.2, authority.recoveryPublicKey.2]

end

variable {authority : RecoveryAuthorization} {bytes : Bytes}

theorem toBytes_ok :
    authority.toBytes = .ok bytes ↔
      authority.validateStructure = .ok () ∧ bytes = authority.signedBytes ++ authority.signature.val := by
  rw [toBytes, check_bind_ok, Except.ok.injEq, eq_comm (a := bytes)]

theorem toBytes_length (encoded : authority.toBytes = .ok bytes) : bytes.length = 154 := by
  obtain ⟨-, rfl⟩ := toBytes_ok.mp encoded
  rw [List.length_append, authority.signedBytes_length, authority.signature.2]

theorem reads_authority (authority : RecoveryAuthorization) :
    Reads reader authority (authority.signedBytes ++ authority.signature.val) := by
  have fields : authority.signedBytes ++ authority.signature.val = [authority.version] ++
      (authority.rootEndpointId.val ++ (authority.recoveryPublicKey.val ++ ([authority.allowedClasses] ++
        (wordBytes authority.sequence ++ (wordBytes authority.issuedAtMs ++
          (wordBytes authority.expiresAtMs ++ (authority.signature.val ++ []))))))) := by
    simp [signedBytes]
  rw [fields]
  exact (byte_reads _ _).bind <| (array_reads _ _).bind <| (array_reads _ _).bind <|
    (byte_reads _ _).bind <| (word64_reads _ _).bind <| (word64_reads _ _).bind <|
    (word64_reads _ _).bind <| (array_reads _ _).bind .pure

theorem fromBytes_toBytes (encoded : authority.toBytes = .ok bytes) : fromBytes bytes = .ok authority := by
  have length := toBytes_length encoded
  obtain ⟨sound, rfl⟩ := toBytes_ok.mp encoded
  exact decodeWhole_ok (by rw [length]; decide) authority.reads_authority sound

end RecoveryAuthorization

namespace RecoveryRevocation

/-- The domain of the signed message. -/
def messageDomain : Bytes := ascii "UMP-RECOVERY-REVOKE-v1"

def signedBytes (statement : RecoveryRevocation) : Bytes :=
  [statement.version] ++ statement.rootEndpointId.val ++ statement.recoveryEndpointId.val ++
    statement.recoveryPublicKey.val ++ ([statement.subject.tag] ++ statement.subject.bytes) ++
    wordBytes statement.sequence ++ wordBytes statement.issuedAtMs ++ wordBytes statement.expiresAtMs

def signedMessage (suite : Suite) (statement : RecoveryRevocation) : Octets 32 :=
  suite.blake2s (messageDomain ++ statement.signedBytes)

def validateStructure (statement : RecoveryRevocation) : Except RecoveryError Unit := do
  refuse (statement.version ≠ 1) .version
  refuse (statement.rootEndpointId = zeroKey ∨ statement.recoveryEndpointId = zeroKey ∨
    statement.recoveryPublicKey = zeroKey) .invalidKey
  refuse (!statement.subject.wellFormed) .invalidSubject
  refuse (statement.expiresAtMs ≠ 0 ∧ statement.expiresAtMs ≤ statement.issuedAtMs) .invalidValidity

def sign (suite : Suite) (recovery : IdentityKeyPair) (rootEndpointId : Octets 32)
    (subject : RevocationSubject) (sequence issuedAtMs expiresAtMs : UInt64) :
    Except RecoveryError RecoveryRevocation := do
  let statement : RecoveryRevocation :=
    { version := 1, rootEndpointId, recoveryEndpointId := endpointId suite recovery.publicKey,
      recoveryPublicKey := recovery.publicKey, subject, sequence, issuedAtMs, expiresAtMs,
      signature := copyInto 64 [] }
  statement.validateStructure
  .ok { statement with signature := recovery.sign (statement.signedMessage suite).val }

/-- `RecoveryRevocation::validate` up to the validity interval. -/
def verify (suite : Suite) (statement : RecoveryRevocation) (authority : RecoveryAuthorization)
    (root : Octets 32) : Except RecoveryError Unit := do
  authority.verifySignature suite root
  statement.validateStructure
  refuse (statement.rootEndpointId ≠ authority.rootEndpointId ∨
    statement.recoveryPublicKey ≠ authority.recoveryPublicKey ∨
    statement.recoveryEndpointId ≠ endpointId suite statement.recoveryPublicKey) .unauthorized
  refuse (!authority.allows statement.subject.toClass) .unauthorized
  refuse (statement.issuedAtMs < authority.issuedAtMs ∨
    (authority.expiresAtMs ≠ 0 ∧ statement.issuedAtMs ≥ authority.expiresAtMs)) .unauthorized
  refuse (!suite.verify statement.recoveryPublicKey (statement.signedMessage suite).val
    statement.signature) .badSignature

def validate (suite : Suite) (statement : RecoveryRevocation) (authority : RecoveryAuthorization)
    (root : Octets 32) (nowMs : UInt64) : Except RecoveryError Unit := do
  statement.verify suite authority root
  validateWindow .notYetValid .expired statement.issuedAtMs statement.expiresAtMs nowMs

def toBytes (statement : RecoveryRevocation) : Except RecoveryError Bytes := do
  statement.validateStructure
  let out := statement.signedBytes ++ statement.signature.val
  refuse (out.length > maxRecoveryStatement) .oversized
  .ok out

/-- The fields of `RecoveryRevocation::from_bytes`. -/
def reader : Reader RecoveryError UInt8 RecoveryRevocation := do
  let version ← byte .truncated
  let rootEndpointId ← array .truncated 32
  let recoveryEndpointId ← array .truncated 32
  let recoveryPublicKey ← array .truncated 32
  let subject ← readSubject .truncated .invalidSubject
  let sequence ← word64 .truncated
  let issuedAtMs ← word64 .truncated
  let expiresAtMs ← word64 .truncated
  let signature ← array .truncated 64
  pure { version, rootEndpointId, recoveryEndpointId, recoveryPublicKey, subject, sequence, issuedAtMs,
         expiresAtMs, signature }

def fromBytes (bytes : Bytes) : Except RecoveryError RecoveryRevocation :=
  decodeWhole maxRecoveryStatement .oversized .trailingBytes reader validateStructure bytes

def sameSubject (left right : RecoveryRevocation) : Bool :=
  left.rootEndpointId = right.rootEndpointId ∧ left.recoveryEndpointId = right.recoveryEndpointId ∧
    left.subject = right.subject

theorem validateStructure_fails (statement : RecoveryRevocation) :
    FailsOnly RecoveryError.Intrinsic statement.validateStructure :=
  (FailsOnly.refuse trivial).bind fun _ => (FailsOnly.refuse trivial).bind fun _ =>
    (FailsOnly.refuse trivial).bind fun _ => .refuse trivial

theorem fromBytes_fails (bytes : Bytes) : FailsOnly RecoveryError.Intrinsic (fromBytes bytes) := by
  refine .decodeWhole trivial trivial ?_ validateStructure_fails bytes
  exact (Fails.byte trivial).bind fun _ => (Fails.array trivial 32).bind fun _ =>
    (Fails.array trivial 32).bind fun _ => (Fails.array trivial 32).bind fun _ =>
    (readSubject_fails trivial trivial).bind fun _ =>
    (Fails.word64 trivial).bind fun _ => (Fails.word64 trivial).bind fun _ =>
    (Fails.word64 trivial).bind fun _ => (Fails.array trivial 64).bind fun _ => .pure _

theorem verify_fails (suite : Suite) (statement : RecoveryRevocation) (authority : RecoveryAuthorization)
    (root : Octets 32) : FailsOnly RecoveryError.Intrinsic (statement.verify suite authority root) :=
  (authority.verifySignature_fails suite root).bind fun _ => statement.validateStructure_fails.bind fun _ =>
    (FailsOnly.refuse trivial).bind fun _ => (FailsOnly.refuse trivial).bind fun _ =>
    (FailsOnly.refuse trivial).bind fun _ => .refuse trivial

theorem signedBytes_length (statement : RecoveryRevocation) :
    154 ≤ statement.signedBytes.length ∧ statement.signedBytes.length ≤ 162 := by
  have subject := statement.subject.bytes_length
  simp only [signedBytes, List.length_append, List.length_singleton, wordBytes_length,
    statement.rootEndpointId.2, statement.recoveryEndpointId.2, statement.recoveryPublicKey.2]
  split at subject <;> omega

variable {bytes : Bytes} {statement : RecoveryRevocation} {authority : RecoveryAuthorization} {root : Octets 32}
  {suite : Suite} {nowMs : UInt64}

theorem toBytes_ok :
    statement.toBytes = .ok bytes ↔
      statement.validateStructure = .ok () ∧ bytes = statement.signedBytes ++ statement.signature.val := by
  have length := statement.signedBytes_length
  have fits : decide ((statement.signedBytes ++ statement.signature.val).length >
      maxRecoveryStatement) = false := by
    rw [List.length_append, statement.signature.2, maxRecoveryStatement]
    exact decide_eq_false (by omega)
  rw [toBytes, check_bind_ok]
  dsimp only
  rw [fits, refuse_bind_ok, Except.ok.injEq, eq_comm (a := bytes)]
  simp

theorem toBytes_length (encoded : statement.toBytes = .ok bytes) : 218 ≤ bytes.length ∧ bytes.length ≤ 226 := by
  obtain ⟨-, rfl⟩ := toBytes_ok.mp encoded
  have length := statement.signedBytes_length
  rw [List.length_append, statement.signature.2]
  omega

theorem wellFormed_of_structure (sound : statement.validateStructure = .ok ()) :
    statement.subject.wellFormed = true := by
  obtain ⟨-, sound⟩ := refuse_bind_ok.mp sound
  obtain ⟨-, sound⟩ := refuse_bind_ok.mp sound
  obtain ⟨named, -⟩ := refuse_bind_ok.mp sound
  simpa using named

theorem reads_statement (named : statement.subject.wellFormed = true) :
    Reads reader statement (statement.signedBytes ++ statement.signature.val) := by
  have fields : statement.signedBytes ++ statement.signature.val = [statement.version] ++
      (statement.rootEndpointId.val ++ (statement.recoveryEndpointId.val ++
        (statement.recoveryPublicKey.val ++ (([statement.subject.tag] ++ statement.subject.bytes) ++
          (wordBytes statement.sequence ++ (wordBytes statement.issuedAtMs ++
            (wordBytes statement.expiresAtMs ++ (statement.signature.val ++ [])))))))) := by
    simp [signedBytes]
  rw [fields]
  exact (byte_reads _ _).bind <| (array_reads _ _).bind <| (array_reads _ _).bind <|
    (array_reads _ _).bind <| (reads_subject _ _ named).bind <| (word64_reads _ _).bind <|
    (word64_reads _ _).bind <| (word64_reads _ _).bind <| (array_reads _ _).bind .pure

theorem fromBytes_toBytes (encoded : statement.toBytes = .ok bytes) : fromBytes bytes = .ok statement := by
  have length := toBytes_length encoded
  obtain ⟨sound, rfl⟩ := toBytes_ok.mp encoded
  refine decodeWhole_ok ?_ (reads_statement (wellFormed_of_structure sound)) sound
  rw [maxRecoveryStatement]
  omega

theorem validate_ok :
    statement.validate suite authority root nowMs = .ok () ↔
      statement.verify suite authority root = .ok () ∧
        InWindow statement.issuedAtMs statement.expiresAtMs nowMs := by
  rw [validate, check_bind_ok, validateWindow_ok]

section
variable (verified : statement.verify suite authority root = .ok ())
include verified

theorem structure_of_verify : statement.validateStructure = .ok () ∧ authority.validateStructure = .ok () := by
  obtain ⟨signed, verified⟩ := check_bind_ok.mp verified
  obtain ⟨structured, -⟩ := check_bind_ok.mp verified
  obtain ⟨granted, -⟩ := check_bind_ok.mp signed
  exact ⟨structured, granted⟩

theorem validate_of_lapsed (out : ¬ InWindow statement.issuedAtMs statement.expiresAtMs nowMs) :
    statement.validate suite authority root nowMs = .error .notYetValid ∨
      statement.validate suite authority root nowMs = .error .expired := by
  rw [validate, verified, ok_bind]
  exact validateWindow_error out

end

theorem validate_error (failed : statement.validate suite authority root nowMs = .error e) :
    e.Intrinsic ∨ statement.verify suite authority root = .ok () ∧
      ¬ InWindow statement.issuedAtMs statement.expiresAtMs nowMs ∧ e ≠ .revoked := by
  cases verified : statement.verify suite authority root with
  | error e' =>
    rw [validate, verified] at failed
    cases failed
    exact .inl (statement.verify_fails suite authority root _ verified)
  | ok passed =>
    have out : ¬ InWindow statement.issuedAtMs statement.expiresAtMs nowMs := by
      intro inside
      rw [validate_ok.mpr ⟨verified, inside⟩] at failed
      cases failed
    refine .inr ⟨rfl, out, ?_⟩
    rcases validate_of_lapsed verified out with early | late
    · rw [early] at failed
      cases failed
      decide
    · rw [late] at failed
      cases failed
      decide

end RecoveryRevocation
end UniversalMesh.Trust
