import Mathlib.Data.List.Destutter
import Mathlib.Data.List.Sort
import UniversalMesh.Trust.RecoveryStore

/-! Delegation certificates of `trust_statement.rs`: the certificate with its encoding, and the verification of
a chain from a root key. The loop carries the issuer's key, capabilities and expiry and the keys seen;
`Delegates` is what it has checked about the links behind a point. -/
namespace UniversalMesh.Trust
open MachineWord Wire Crypto ByteReader Reader

def maxDelegationCapabilities : Nat := 32
def maxDelegationCapabilityLen : Nat := 64
def maxDelegationCapabilityBytes : Nat := 1024
def maxDelegationChainLength : Nat := 4
def maxDelegationChainBytes : Nat := 8 * 1024

inductive DelegationError where
  | version | endpointIdMismatch | invalidKey | invalidCapabilities | nonCanonicalCapabilities
  | invalidValidity | notYetValid | expired | badSignature | oversized | truncated | trailingBytes
  | emptyChain | chainTooLong | chainTooLarge | cycle | capabilityExpansion | outlivesIssuer
  deriving DecidableEq, Repr

/-- The derived `Debug` text, which the store puts into its messages. -/
def DelegationError.debug : DelegationError → String
  | version => "Version"
  | endpointIdMismatch => "EndpointIdMismatch"
  | invalidKey => "InvalidKey"
  | invalidCapabilities => "InvalidCapabilities"
  | nonCanonicalCapabilities => "NonCanonicalCapabilities"
  | invalidValidity => "InvalidValidity"
  | notYetValid => "NotYetValid"
  | expired => "Expired"
  | badSignature => "BadSignature"
  | oversized => "Oversized"
  | truncated => "Truncated"
  | trailingBytes => "TrailingBytes"
  | emptyChain => "EmptyChain"
  | chainTooLong => "ChainTooLong"
  | chainTooLarge => "ChainTooLarge"
  | cycle => "Cycle"
  | capabilityExpansion => "CapabilityExpansion"
  | outlivesIssuer => "OutlivesIssuer"

/-- A capability of no or too many bytes. -/
def badCapability (capability : Bytes) : Bool :=
  capability.isEmpty || decide (maxDelegationCapabilityLen < capability.length)

/-- `validate_capabilities`: bounds, and strictly ascending order. -/
def validateCapabilities (capabilities : List Bytes) : Except DelegationError Unit := do
  refuse (decide (maxDelegationCapabilities < capabilities.length) || capabilities.any badCapability ||
    decide (maxDelegationCapabilityBytes < (capabilities.map List.length).sum)) .invalidCapabilities
  refuse (!decide (capabilities.IsChain (· < ·))) .nonCanonicalCapabilities

/-- `sort` and `dedup`. -/
def sortedCapabilities (capabilities : List Bytes) : List Bytes :=
  (capabilities.insertionSort (· ≤ ·)).destutter (· ≠ ·)

def canonicalCapabilities (capabilities : List Bytes) : Except DelegationError (List Bytes) := do
  validateCapabilities (sortedCapabilities capabilities)
  .ok (sortedCapabilities capabilities)

/-- One capability with its length, which saturates. -/
def capabilityBytes (capability : Bytes) : Bytes := toBeBytes 2 (min capability.length 65535) ++ capability

namespace SignedDelegation

/-- The domain of the signed message. -/
def messageDomain : Bytes := ascii "UMP-DELEGATION-v1"

def signedBytes (certificate : SignedDelegation) : Bytes :=
  [certificate.version] ++ certificate.issuerEndpointId.val ++ certificate.delegatedPublicKey.val ++
    [UInt8.ofNat (min certificate.allowedCapabilities.length 255)] ++
    certificate.allowedCapabilities.flatMap capabilityBytes ++ wordBytes certificate.createdAtMs ++
    wordBytes certificate.expiresAtMs ++ wordBytes certificate.sequence

def signedMessage (suite : Suite) (certificate : SignedDelegation) : Octets 32 :=
  suite.blake2s (messageDomain ++ certificate.signedBytes)

def validateStructure (certificate : SignedDelegation) : Except DelegationError Unit := do
  refuse (certificate.version ≠ 1) .version
  refuse (certificate.issuerEndpointId = zeroKey ∨ certificate.delegatedPublicKey = zeroKey) .invalidKey
  validateCapabilities certificate.allowedCapabilities
  refuse (certificate.expiresAtMs ≤ certificate.createdAtMs) .invalidValidity
  refuse (certificate.signedBytes.length + 64 > maxDelegationChainBytes) .oversized

def sign (suite : Suite) (identity : IdentityKeyPair) (delegatedPublicKey : Octets 32)
    (allowedCapabilities : List Bytes) (createdAtMs expiresAtMs sequence : UInt64) :
    Except DelegationError SignedDelegation := do
  let certificate : SignedDelegation :=
    { version := 1, issuerEndpointId := endpointId suite identity.publicKey, delegatedPublicKey
      allowedCapabilities := sortedCapabilities allowedCapabilities, createdAtMs, expiresAtMs, sequence
      signature := copyInto 64 [] }
  certificate.validateStructure
  .ok { certificate with signature := identity.sign (certificate.signedMessage suite).val }

def verifySignature (suite : Suite) (certificate : SignedDelegation) (issuer : Octets 32) :
    Except DelegationError Unit := do
  certificate.validateStructure
  refuse (endpointId suite issuer ≠ certificate.issuerEndpointId) .endpointIdMismatch
  refuse (!suite.verify issuer (certificate.signedMessage suite).val certificate.signature) .badSignature

def validate (suite : Suite) (certificate : SignedDelegation) (issuer : Octets 32) (nowMs : UInt64) :
    Except DelegationError Unit := do
  certificate.verifySignature suite issuer
  refuse (nowMs < certificate.createdAtMs) .notYetValid
  refuse (nowMs ≥ certificate.expiresAtMs) .expired

def toBytes (certificate : SignedDelegation) : Except DelegationError Bytes := do
  certificate.validateStructure
  let out := certificate.signedBytes ++ certificate.signature.val
  refuse (out.length > maxDelegationChainBytes) .oversized
  .ok out

/-- One capability behind its length. -/
def readCapability {ε : Type} (short : ε) : Reader ε UInt8 Bytes := do
  let length ← length16 short
  slice short length

/-- The fields of `SignedDelegation::from_bytes`. -/
def reader : Reader DelegationError UInt8 SignedDelegation := do
  let version ← byte .truncated
  let issuerEndpointId ← array .truncated 32
  let delegatedPublicKey ← array .truncated 32
  let capabilityCount ← byte .truncated
  refuseIf (decide (maxDelegationCapabilities < capabilityCount.toNat)) .invalidCapabilities
  let allowedCapabilities ← times capabilityCount.toNat (readCapability .truncated)
  let createdAtMs ← word64 .truncated
  let expiresAtMs ← word64 .truncated
  let sequence ← word64 .truncated
  let signature ← array .truncated 64
  pure { version, issuerEndpointId, delegatedPublicKey, allowedCapabilities, createdAtMs, expiresAtMs
         sequence, signature }

def fromBytes (bytes : Bytes) : Except DelegationError SignedDelegation :=
  decodeWhole maxDelegationChainBytes .oversized .trailingBytes reader validateStructure bytes

end SignedDelegation

/-- The authority a verified chain ends in. -/
structure DelegatedAuthority where
  publicKey : Octets 32
  capabilities : List Bytes
  depth : Nat
  deriving DecidableEq

namespace DelegationChain

/-- The encoded size of the certificates, each of which must encode. -/
def totalBytes (certificates : List SignedDelegation) : Except DelegationError Nat :=
  certificates.foldlM (fun total certificate => do
    let encoded ← certificate.toBytes
    return saturatingAdd total encoded.length) 0

/-- The loop of `verify`, with what it carries. It returns at the last certificate. -/
def walk (suite : Suite) (nowMs : UInt64) (issuer : Octets 32) (capabilities : List Bytes) (expiry : UInt64)
    (seen : List (Octets 32)) (depth : Nat) : List SignedDelegation → Except DelegationError DelegatedAuthority
  | [] => .error .emptyChain
  | certificate :: rest => do
    certificate.validate suite issuer nowMs
    refuse (certificate.expiresAtMs > expiry) .outlivesIssuer
    refuse (!certificate.allowedCapabilities.all fun capability => capabilities.contains capability)
      .capabilityExpansion
    refuse (seen.contains certificate.delegatedPublicKey) .cycle
    if rest.isEmpty then
      .ok { publicKey := certificate.delegatedPublicKey, capabilities := certificate.allowedCapabilities
            depth := depth + 1 }
    else
      walk suite nowMs certificate.delegatedPublicKey certificate.allowedCapabilities certificate.expiresAtMs
        (seen ++ [certificate.delegatedPublicKey]) (depth + 1) rest

/-- The chain leads from the root, each link within the one before it. -/
def verify (suite : Suite) (root : Octets 32) (rootCapabilities : List Bytes)
    (certificates : List SignedDelegation) (nowMs : UInt64) : Except DelegationError DelegatedAuthority := do
  refuse certificates.isEmpty .emptyChain
  refuse (certificates.length > maxDelegationChainLength) .chainTooLong
  let rootCapabilities ← canonicalCapabilities rootCapabilities
  let total ← totalBytes certificates
  refuse (total > maxDelegationChainBytes) .chainTooLarge
  walk suite nowMs root rootCapabilities (UInt64.ofNat u64Max) [root] 0 certificates

/-! ### What the loop has checked -/

/-- Each certificate is valid under the key before it, narrows the capabilities and does not outlive the
certificate before it. -/
inductive Delegates (suite : Suite) (nowMs : UInt64) :
    Octets 32 → List Bytes → UInt64 → List SignedDelegation → Prop where
  | nil {issuer : Octets 32} {capabilities : List Bytes} {expiry : UInt64} :
      Delegates suite nowMs issuer capabilities expiry []
  | link {issuer : Octets 32} {capabilities : List Bytes} {expiry : UInt64} {certificate : SignedDelegation}
      {rest : List SignedDelegation} (valid : certificate.validate suite issuer nowMs = .ok ())
      (within : certificate.expiresAtMs ≤ expiry) (narrows : certificate.allowedCapabilities ⊆ capabilities)
      (behind : Delegates suite nowMs certificate.delegatedPublicKey certificate.allowedCapabilities
        certificate.expiresAtMs rest) :
      Delegates suite nowMs issuer capabilities expiry (certificate :: rest)

variable {suite : Suite} {nowMs : UInt64} {issuer root : Octets 32} {capabilities rootCapabilities : List Bytes}
  {expiry : UInt64} {seen : List (Octets 32)} {depth : Nat} {certificate : SignedDelegation}
  {certificates : List SignedDelegation} {authority : DelegatedAuthority}

def keys (certificates : List SignedDelegation) : List (Octets 32) :=
  certificates.map SignedDelegation.delegatedPublicKey

theorem walk_cons_ok :
    walk suite nowMs issuer capabilities expiry seen depth (certificate :: rest) = .ok authority ↔
      certificate.validate suite issuer nowMs = .ok () ∧ certificate.expiresAtMs ≤ expiry ∧
      certificate.allowedCapabilities ⊆ capabilities ∧ certificate.delegatedPublicKey ∉ seen ∧
      (if rest.isEmpty then
        authority = ⟨certificate.delegatedPublicKey, certificate.allowedCapabilities, depth + 1⟩
      else walk suite nowMs certificate.delegatedPublicKey certificate.allowedCapabilities
        certificate.expiresAtMs (seen ++ [certificate.delegatedPublicKey]) (depth + 1) rest = .ok authority) := by
  rw [walk, check_bind_ok, refuse_bind_ok, refuse_bind_ok, refuse_bind_ok]
  have contained : (!certificate.allowedCapabilities.all fun capability => capabilities.contains capability) =
      false ↔ certificate.allowedCapabilities ⊆ capabilities := by
    simp [List.subset_def]
  have unseen : seen.contains certificate.delegatedPublicKey = false ↔ certificate.delegatedPublicKey ∉ seen := by
    simp
  rw [contained, unseen, decide_eq_false_iff_not, UInt64.not_lt]
  split
  · rw [Except.ok.injEq, eq_comm (b := authority)]
  · rfl

/-- The loop succeeds on a non-empty chain of links with new keys, and returns its end. -/
theorem walk_ok : walk suite nowMs issuer capabilities expiry seen depth certificates = .ok authority ↔
    Delegates suite nowMs issuer capabilities expiry certificates ∧
      ((keys certificates).Nodup ∧ ∀ key ∈ keys certificates, key ∉ seen) ∧
      ∃ last, certificates.getLast? = some last ∧
        authority = ⟨last.delegatedPublicKey, last.allowedCapabilities, depth + certificates.length⟩ := by
  induction certificates generalizing issuer capabilities expiry seen depth with
  | nil => simp [walk]
  | cons certificate rest ih =>
    rw [walk_cons_ok]
    constructor
    · rintro ⟨valid, within, narrows, fresh, last⟩
      cases rest with
      | nil =>
        refine ⟨.link valid within narrows .nil, ?_, certificate, rfl, last⟩
        simpa [keys] using fresh
      | cons next rest =>
        obtain ⟨behind, ⟨distinct, unseen⟩, last, ends, result⟩ := ih.mp last
        refine ⟨.link valid within narrows behind, ⟨?_, ?_⟩, last, ends, ?_⟩
        · refine List.nodup_cons.mpr ⟨?_, distinct⟩
          intro again
          exact unseen _ again (by simp)
        · intro key member
          rcases List.mem_cons.mp member with rfl | later
          · exact fresh
          · exact fun known => unseen key later (List.mem_append_left _ known)
        · rw [result, List.length_cons (a := certificate), Nat.add_right_comm, Nat.add_assoc]
    · rintro ⟨links, ⟨distinct, unseen⟩, last, ends, result⟩
      cases links with
      | link valid within narrows behind =>
        obtain ⟨first, distinct⟩ := List.nodup_cons.mp distinct
        refine ⟨valid, within, narrows, unseen _ List.mem_cons_self, ?_⟩
        cases rest with
        | nil =>
          cases ends
          exact result
        | cons next rest =>
          refine ih.mpr ⟨behind, ⟨distinct, ?_⟩, last, ends, ?_⟩
          · intro key member known
            rcases List.mem_append.mp known with earlier | here
            · exact unseen key (List.mem_cons_of_mem _ member) earlier
            · exact first (List.mem_singleton.mp here ▸ member)
          · rw [result, List.length_cons (a := certificate), Nat.add_right_comm, Nat.add_assoc]

theorem verify_ok : verify suite root rootCapabilities certificates nowMs = .ok authority ↔
    certificates ≠ [] ∧ certificates.length ≤ maxDelegationChainLength ∧
      ∃ canonical, canonicalCapabilities rootCapabilities = .ok canonical ∧
        ∃ total, totalBytes certificates = .ok total ∧ total ≤ maxDelegationChainBytes ∧
          walk suite nowMs root canonical (UInt64.ofNat u64Max) [root] 0 certificates = .ok authority := by
  rw [verify, refuse_bind_ok, refuse_bind_ok, bind_ok, List.isEmpty_eq_false_iff, decide_eq_false_iff_not,
    gt_iff_lt, Nat.not_lt]
  refine and_congr_right' (and_congr_right' (exists_congr fun canonical => and_congr_right' ?_))
  rw [bind_ok]
  refine exists_congr fun total => and_congr_right' ?_
  rw [refuse_bind_ok, decide_eq_false_iff_not, gt_iff_lt, Nat.not_lt]

namespace Delegates

theorem front (links : Delegates suite nowMs issuer capabilities expiry (start ++ rest)) :
    Delegates suite nowMs issuer capabilities expiry start := by
  induction start generalizing issuer capabilities expiry with
  | nil => exact .nil
  | cons certificate start ih =>
    cases links with
    | link valid within narrows behind => exact .link valid within narrows (ih behind)

section
variable (links : Delegates suite nowMs issuer capabilities expiry certificates)
include links

theorem valid_under :
    ∀ link ∈ (issuer :: keys certificates).zip certificates, link.2.validate suite link.1 nowMs = .ok () := by
  induction links with
  | nil => simp
  | @link issuer capabilities expiry certificate rest valid within narrows behind ih =>
    intro link member
    rcases List.mem_cons.mp member with rfl | later
    · exact valid
    · exact ih link later

/-- No certificate has more capabilities than the chain began with, or outlives its beginning. -/
theorem bounded :
    ∀ certificate ∈ certificates,
      certificate.allowedCapabilities ⊆ capabilities ∧ certificate.expiresAtMs ≤ expiry := by
  induction links with
  | nil => simp
  | link valid within narrows behind ih =>
    intro certificate member
    rcases List.mem_cons.mp member with rfl | later
    · exact ⟨narrows, within⟩
    · obtain ⟨fewer, shorter⟩ := ih certificate later
      exact ⟨List.Subset.trans fewer narrows, UInt64.le_trans shorter within⟩

theorem descending :
    certificates.Pairwise fun earlier later =>
      later.allowedCapabilities ⊆ earlier.allowedCapabilities ∧ later.expiresAtMs ≤ earlier.expiresAtMs := by
  induction links with
  | nil => exact .nil
  | link valid within narrows behind ih => exact .cons behind.bounded ih

end

end Delegates

/-- Adding certificates never lowers the sum below what it was, up to where it saturates. -/
theorem min_le_foldlM (encoded : certificates.foldlM (fun total certificate => do
      let encoded ← SignedDelegation.toBytes certificate
      return saturatingAdd total encoded.length) start = (.ok final : Except DelegationError Nat)) :
    min start u64Max ≤ final := by
  induction certificates generalizing start with
  | nil =>
    cases encoded
    exact Nat.min_le_left _ _
  | cons certificate rest ih =>
    rw [List.foldlM_cons, bind_assoc, bind_ok] at encoded
    obtain ⟨bytes, -, behind⟩ := encoded
    have grown : min start u64Max ≤ saturatingAdd start bytes.length :=
      min_le_min_right _ (Nat.le_add_right _ _)
    exact (le_min grown (Nat.min_le_right _ _)).trans (ih behind)

theorem totalBytes_front
    (encoded : totalBytes (start ++ rest) = .ok total) (fits : total ≤ maxDelegationChainBytes) :
    ∃ part, totalBytes start = .ok part ∧ part ≤ maxDelegationChainBytes := by
  rw [totalBytes, List.foldlM_append, bind_ok] at encoded
  obtain ⟨part, front, behind⟩ := encoded
  have grown := min_le_foldlM behind
  refine ⟨part, front, ?_⟩
  rw [maxDelegationChainBytes] at fits ⊢
  rw [u64Max] at grown
  omega

theorem canonicalCapabilities_subset
    (accepted : canonicalCapabilities capabilities = .ok canonical) : canonical ⊆ capabilities := by
  rw [canonicalCapabilities, check_bind_ok, Except.ok.injEq] at accepted
  obtain ⟨-, rfl⟩ := accepted
  intro capability member
  exact List.mem_insertionSort _ |>.mp ((List.destutter_sublist _ _).subset member)

theorem verify_front (accepted : verify suite root rootCapabilities certificates nowMs = .ok authority)
    (front : start <+: certificates) (some : start ≠ []) :
    ∃ partly, verify suite root rootCapabilities start nowMs = .ok partly := by
  obtain ⟨rest, rfl⟩ := front
  obtain ⟨-, length, canonical, sorted, total, encoded, fits, walked⟩ := verify_ok.mp accepted
  obtain ⟨links, ⟨distinct, unseen⟩, -⟩ := walk_ok.mp walked
  obtain ⟨part, partEncoded, partFits⟩ := totalBytes_front encoded fits
  rw [keys, List.map_append] at distinct unseen
  refine ⟨_, verify_ok.mpr ⟨some, ?_, canonical, sorted, part, partEncoded, partFits,
    walk_ok.mpr ⟨links.front, ⟨(List.nodup_append.mp distinct).1, ?_⟩, start.getLast some,
      List.getLast?_eq_some_getLast some, rfl⟩⟩⟩
  · rw [List.length_append] at length
    exact (Nat.le_add_right _ _).trans length
  · exact fun key member => unseen key (List.mem_append_left _ member)

end DelegationChain

namespace SignedDelegation

theorem validate_ok {certificate : SignedDelegation}
    (accepted : certificate.validate suite issuer nowMs = .ok ()) :
    certificate.issuerEndpointId = endpointId suite issuer ∧
      suite.verify issuer (certificate.signedMessage suite).val certificate.signature = true ∧
      certificate.createdAtMs ≤ nowMs ∧ nowMs < certificate.expiresAtMs := by
  rw [validate, check_bind_ok, refuse_bind_ok, verifySignature, check_bind_ok, refuse_bind_ok] at accepted
  obtain ⟨⟨-, named, signed⟩, begun, running⟩ := accepted
  rw [decide_eq_false_iff_not, not_not] at named
  rw [decide_eq_false_iff_not, UInt64.not_lt] at begun
  rw [refuse_ok, decide_eq_false_iff_not, ge_iff_le, UInt64.not_le] at running
  rw [refuse_ok, Bool.not_eq_false'] at signed
  exact ⟨named.symm, signed, begun, running⟩

end SignedDelegation

namespace DelegationChain
variable {suite : Suite} {nowMs : UInt64} {root : Octets 32} {rootCapabilities : List Bytes}
  {certificates : List SignedDelegation} {authority : DelegatedAuthority}

/-- What an accepted chain is: each certificate signed with the key before it and in force, capabilities and
expiries descending from the root, distinct keys, and the last certificate's key and capabilities as the result.
Cutting certificates off its end leaves an accepted chain. -/
theorem verify_sound (accepted : verify suite root rootCapabilities certificates nowMs = .ok authority) :
    (1 ≤ certificates.length ∧ certificates.length ≤ 4) ∧
    (∀ link ∈ (root :: keys certificates).zip certificates,
      link.2.issuerEndpointId = endpointId suite link.1 ∧
      suite.verify link.1 (link.2.signedMessage suite).val link.2.signature = true ∧
      link.2.createdAtMs ≤ nowMs ∧ nowMs < link.2.expiresAtMs) ∧
    (∀ certificate ∈ certificates, certificate.allowedCapabilities ⊆ rootCapabilities) ∧
    (certificates.Pairwise fun earlier later =>
      later.allowedCapabilities ⊆ earlier.allowedCapabilities ∧ later.expiresAtMs ≤ earlier.expiresAtMs) ∧
    (root :: keys certificates).Nodup ∧
    (∃ last, certificates.getLast? = some last ∧
      authority = ⟨last.delegatedPublicKey, last.allowedCapabilities, certificates.length⟩) ∧
    ∀ start, start <+: certificates → start ≠ [] →
      ∃ partly, verify suite root rootCapabilities start nowMs = .ok partly := by
  obtain ⟨nonempty, length, canonical, sorted, total, encoded, fits, walked⟩ := verify_ok.mp accepted
  obtain ⟨links, ⟨distinct, unseen⟩, last, ends, result⟩ := walk_ok.mp walked
  refine ⟨⟨List.length_pos_iff.mpr nonempty, length⟩, ?_, ?_, links.descending, ?_, ⟨last, ends, ?_⟩, ?_⟩
  · exact fun link member => SignedDelegation.validate_ok (links.valid_under link member)
  · intro certificate member
    exact List.Subset.trans (links.bounded certificate member).1 (canonicalCapabilities_subset sorted)
  · refine List.nodup_cons.mpr ⟨?_, distinct⟩
    exact fun again => unseen root again List.mem_cons_self
  · rw [result, Nat.zero_add]
  · exact fun start front nonempty => verify_front accepted front nonempty

/-- A root that delegates two capabilities to a key, which delegates one of them on. -/
def sampleChain : List SignedDelegation :=
  [SignedDelegation.sign plainSuite (plainKeys 1) (plainKeys 2).publicKey [[7], [8]] 10 100 1,
    SignedDelegation.sign plainSuite (plainKeys 2) (plainKeys 3).publicKey [[8]] 20 90 1].filterMap Except.toOption

theorem sampleChain_verifies :
    verify plainSuite (plainKeys 1).publicKey [[9], [8], [7], [8]] sampleChain 50 =
      .ok ⟨(plainKeys 3).publicKey, [[8]], 2⟩ ∧
    ∃ partly, verify plainSuite (plainKeys 1).publicKey [[9], [8], [7], [8]] (sampleChain.take 1) 50 = .ok partly := by
  have accepted : verify plainSuite (plainKeys 1).publicKey [[9], [8], [7], [8]] sampleChain 50 =
      .ok ⟨(plainKeys 3).publicKey, [[8]], 2⟩ := by decide +kernel
  obtain ⟨-, -, -, -, -, -, fronts⟩ := verify_sound accepted
  exact ⟨accepted, fronts _ (List.take_prefix 1 sampleChain) (by decide +kernel)⟩

end DelegationChain

/-! `DelegationStore` of `trust.rs`: delegation chains in the trust namespace, each under the key it
ends in. A chain is verified again whenever it is read. -/

open Storage

/-- The keys of stored chains begin with this. -/
def delegationPrefix : Bytes := ascii "delegation/"

def delegationKey (delegatedPublicKey : Octets 32) : Bytes := delegationPrefix ++ delegatedPublicKey.val

/-- `validate_delegation_capabilities`, which does not ask for an order. -/
def validateDelegationCapabilities (capabilities : List Bytes) : Except StoreError Unit :=
  refuse (decide (maxDelegationCapabilities < capabilities.length) ||
    decide (maxDelegationCapabilityBytes < (capabilities.map List.length).sum) ||
    capabilities.any badCapability) .quotaExceeded

namespace StoredDelegationChain

/-- The error of `read_delegation_byte`, `read_delegation_array` and `read_delegation_slice`. -/
def truncated : StoreError := .corrupt "truncated delegation record"

/-- One certificate behind its length. -/
def readCertificate : Reader StoreError UInt8 SignedDelegation := do
  let length ← length16 truncated
  let encoded ← slice truncated length
  lift ((SignedDelegation.fromBytes encoded).mapError fun e =>
    .corrupt ("invalid persisted delegation certificate: " ++ e.debug))

/-- The fields of `decode_delegation`. -/
def reader : Reader StoreError UInt8 StoredDelegationChain := do
  let version ← byte truncated
  refuseIf (version ≠ 1) (.corrupt "unknown delegation record version")
  let rootPublicKey ← array truncated 32
  let capabilityCount ← byte truncated
  refuseIf (decide (maxDelegationCapabilities < capabilityCount.toNat))
    (.corrupt "too many root delegation capabilities")
  let rootCapabilities ← times capabilityCount.toNat (SignedDelegation.readCapability truncated)
  lift (validateDelegationCapabilities rootCapabilities)
  let certificateCount ← byte truncated
  refuseIf (certificateCount = 0 ∨ maxDelegationChainLength < certificateCount.toNat)
    (.corrupt "invalid delegation chain length")
  let certificates ← times certificateCount.toNat readCertificate
  pure { rootPublicKey, rootCapabilities, certificates }

/-- The key of the last certificate. -/
def leaf? (chain : StoredDelegationChain) : Option (Octets 32) :=
  chain.certificates.getLast?.map SignedDelegation.delegatedPublicKey

/-- `decode_delegation`. -/
def decode (key value : Bytes) : Except StoreError StoredDelegationChain := do
  refuse (!delegationPrefix.isPrefixOf key || decide (key.length ≠ delegationPrefix.length + 32) ||
    decide (maxDelegationChainBytes < value.length)) (.corrupt "bad delegation record bounds")
  let (chain, offset) ← reader.run value
  refuse (offset ≠ value.length ∨ chain.leaf?.map delegationKey ≠ some key) (.corrupt "delegation key mismatch")
  .ok chain

/-- The chain if it verifies, nothing if it has expired. -/
def recheck (suite : Suite) (nowMs : UInt64) (chain : StoredDelegationChain) :
    Except StoreError (Option StoredDelegationChain) :=
  match DelegationChain.verify suite chain.rootPublicKey chain.rootCapabilities chain.certificates nowMs with
  | .ok _ => .ok (some chain)
  | .error .expired => .ok none
  | .error e => .error (.corrupt ("invalid persisted delegation: " ++ e.debug))

end StoredDelegationChain

namespace DelegationStore

/-- The body of the loop of `valid_chains` for one record. -/
def readChain (suite : Suite) (nowMs : UInt64) (entry : Bytes × Bytes) :
    Except StoreError (Option StoredDelegationChain) := do
  let chain ← StoredDelegationChain.decode entry.1 entry.2
  chain.recheck suite nowMs

def validChains (suite : Suite) (store : TrustStore) (nowMs : UInt64) :
    Except StoreError (List StoredDelegationChain) := do
  let chains ← (store.under delegationPrefix).mapM (readChain suite nowMs)
  .ok chains.reduceOption

def validChainContainingPublicKey (suite : Suite) (store : TrustStore) (delegated : Octets 32)
    (nowMs : UInt64) : Except StoreError (Option StoredDelegationChain) := do
  let chains ← validChains suite store nowMs
  .ok (chains.find? fun chain => (DelegationChain.keys chain.certificates).contains delegated)

end DelegationStore
end UniversalMesh.Trust
