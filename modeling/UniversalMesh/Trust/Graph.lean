import UniversalMesh.Trust.RecoveryStore
import UniversalMesh.Lib.BoundedSearch

/-! Introductions: the signed statement of `trust_statement.rs`, and the records that `trust.rs` keeps in the
trust namespace, unsigned and signed ones. -/
namespace UniversalMesh.Trust
open MachineWord Wire ByteReader Reader Storage

def maxIntroductionScope : Nat := 256
def maxIntroductionStatement : Nat := 512
def introductionRestrictionMask : UInt8 := 0b0000_0111

inductive IntroductionStatementError where
  | version | endpointIdMismatch | sameEndpoint | badSignature | expired | invalidScope
  | invalidEvidence | invalidConfidence | invalidRestrictions | oversized | truncated
  | trailingBytes
  deriving DecidableEq, Repr

/-- The derived `Debug` text, which the store puts into its messages. -/
def IntroductionStatementError.debug : IntroductionStatementError → String
  | version => "Version"
  | endpointIdMismatch => "EndpointIdMismatch"
  | sameEndpoint => "SameEndpoint"
  | badSignature => "BadSignature"
  | expired => "Expired"
  | invalidScope => "InvalidScope"
  | invalidEvidence => "InvalidEvidence"
  | invalidConfidence => "InvalidConfidence"
  | invalidRestrictions => "InvalidRestrictions"
  | oversized => "Oversized"
  | truncated => "Truncated"
  | trailingBytes => "TrailingBytes"

inductive SubjectEvidence where
  | bindingDigest (value : Octets 32) | staticHandshakeKey (value : Octets 32)
  deriving DecidableEq

namespace SubjectEvidence

/-- The tag of `tag_and_bytes`. -/
def tag : SubjectEvidence → UInt8
  | bindingDigest _ => 0
  | staticHandshakeKey _ => 1

/-- The bytes of `tag_and_bytes`. -/
def value : SubjectEvidence → Octets 32
  | bindingDigest value | staticHandshakeKey value => value

def fromParts (tag : UInt8) (value : Octets 32) : Except IntroductionStatementError SubjectEvidence := do
  refuse (value = zeroKey) .invalidEvidence
  if tag = 0 then .ok (bindingDigest value)
  else if tag = 1 then .ok (staticHandshakeKey value)
  else .error .invalidEvidence

end SubjectEvidence

structure SignedIntroduction where
  version : UInt8
  (introducerEndpointId subjectEndpointId : Octets 32)
  subjectEvidence : SubjectEvidence
  allowedUse : String
  expiresAtMs : UInt64
  (delegatedConfidence sharingRestrictions : UInt8)
  sequence : UInt64
  signature : Octets 64
  deriving DecidableEq

namespace SignedIntroduction

/-- The domain of the signed message. -/
def messageDomain : Bytes := ascii "UMP-INTRODUCTION-v1"

def signedBytes (statement : SignedIntroduction) : Bytes :=
  [statement.version] ++ statement.introducerEndpointId.val ++ statement.subjectEndpointId.val ++
    [statement.subjectEvidence.tag] ++ statement.subjectEvidence.value.val ++
    toBeBytes 2 (min (textBytes statement.allowedUse).length 65535) ++ textBytes statement.allowedUse ++
    wordBytes statement.expiresAtMs ++ [statement.delegatedConfidence, statement.sharingRestrictions] ++
    wordBytes statement.sequence

def signedMessage (suite : Suite) (statement : SignedIntroduction) : Octets 32 :=
  suite.blake2s (messageDomain ++ statement.signedBytes)

def validateStructure (statement : SignedIntroduction) : Except IntroductionStatementError Unit := do
  refuse (statement.version ≠ 1) .version
  refuse (statement.introducerEndpointId = zeroKey ∨ statement.subjectEndpointId = zeroKey) .endpointIdMismatch
  refuse (statement.introducerEndpointId = statement.subjectEndpointId) .sameEndpoint
  refuse (statement.subjectEvidence.value = zeroKey) .invalidEvidence
  let length := (textBytes statement.allowedUse).length
  refuse (length = 0 ∨ maxIntroductionScope < length) .invalidScope
  refuse (statement.delegatedConfidence > 100) .invalidConfidence
  refuse (statement.sharingRestrictions &&& ~~~introductionRestrictionMask ≠ 0) .invalidRestrictions
  refuse (statement.expiresAtMs = 0) .expired
  refuse (maxIntroductionStatement < saturatingAdd 182 length) .oversized

def verifySignature (suite : Suite) (statement : SignedIntroduction) (introducer : Octets 32) :
    Except IntroductionStatementError Unit := do
  statement.validateStructure
  refuse (endpointId suite introducer ≠ statement.introducerEndpointId) .endpointIdMismatch
  refuse (!suite.verify introducer (statement.signedMessage suite).val statement.signature) .badSignature

/-- The scope behind its length. -/
def readScope : Reader IntroductionStatementError UInt8 String := do
  let length ← length16 .truncated
  refuseIf (length = 0 ∨ maxIntroductionScope < length) .invalidScope
  let bytes ← slice .truncated length
  match textOf? bytes with
  | none => lift (.error .invalidScope)
  | some scope => pure scope

/-- The fields of `SignedIntroduction::from_bytes`. -/
def reader : Reader IntroductionStatementError UInt8 SignedIntroduction := do
  let version ← byte .truncated
  let introducerEndpointId ← array .truncated 32
  let subjectEndpointId ← array .truncated 32
  let evidenceTag ← byte .truncated
  let evidenceValue ← array .truncated 32
  let subjectEvidence ← lift (SubjectEvidence.fromParts evidenceTag evidenceValue)
  let allowedUse ← readScope
  let expiresAtMs ← word64 .truncated
  let delegatedConfidence ← byte .truncated
  let sharingRestrictions ← byte .truncated
  let sequence ← word64 .truncated
  let signature ← array .truncated 64
  pure { version, introducerEndpointId, subjectEndpointId, subjectEvidence, allowedUse, expiresAtMs
         delegatedConfidence, sharingRestrictions, sequence, signature }

def fromBytes (bytes : Bytes) : Except IntroductionStatementError SignedIntroduction :=
  decodeWhole maxIntroductionStatement .oversized .trailingBytes reader validateStructure bytes

end SignedIntroduction

structure IntroductionRecord where
  (introducer subject : Bytes)
  scope : String
  (expiresAtMs sequence : UInt64)
  deriving DecidableEq

/-- The keys of stored introductions begin with this. -/
def introductionPrefix : Bytes := ascii "intro/"

/-- The keys of stored signed introductions begin with this. -/
def signedIntroductionPrefix : Bytes := ascii "intro-signed/"

namespace IntroductionRecord

/-- `append_len_prefixed`, whose length saturates. -/
def lengthPrefixed (value : Bytes) : Bytes := toBeBytes 2 (min value.length 65535) ++ value

/-- `introduction_key`. -/
def key (record : IntroductionRecord) : Bytes :=
  introductionPrefix ++ lengthPrefixed record.introducer ++ lengthPrefixed record.subject ++ wordBytes record.sequence

/-- `encode_introduction`. -/
def encode (record : IntroductionRecord) : Bytes :=
  [1] ++ wordBytes record.expiresAtMs ++ lengthPrefixed (textBytes record.scope)

/-- `read_len_prefixed`. -/
def readIdentity : Reader StoreError UInt8 Bytes := do
  let length ← length16 (.corrupt "bad introduction identity length")
  slice (.corrupt "bad introduction identity") length

/-- `decode_introduction`. -/
def decode (key value : Bytes) : Except StoreError IntroductionRecord := do
  refuse (!introductionPrefix.isPrefixOf key || decide (key.length < 6)) (.corrupt "bad introduction key")
  let (introducer, offset) ← readIdentity key 6
  let (subject, offset) ← readIdentity key offset
  refuse (key.length ≠ offset + 8 ∨ value.length < 11 ∨ value.head? ≠ some 1) (.corrupt "bad introduction record")
  let scopeBytes := value.drop 11
  refuse (value.length ≠ 11 + fromBeBytes ((value.drop 9).take 2)) (.corrupt "bad introduction scope length")
  match textOf? scopeBytes with
  | none => .error (.corrupt "introduction scope is not utf8")
  | some scope =>
    .ok { introducer, subject, scope
          expiresAtMs := UInt64.ofNat (fromBeBytes ((value.drop 1).take 8))
          sequence := UInt64.ofNat (fromBeBytes (key.drop offset)) }

end IntroductionRecord

def signedIntroductionKey (statement : SignedIntroduction) : Bytes :=
  signedIntroductionPrefix ++ statement.introducerEndpointId.val ++ statement.subjectEndpointId.val ++
    wordBytes statement.sequence

/-- One entry of `signed_records`. -/
def signedIntroductionEntry (suite : Suite) (entry : Bytes × Bytes) : Except StoreError SignedIntroduction :=
  if short : entry.2.length < 32 then .error (.corrupt "bad signed introduction issuer key")
  else do
    let introducer : Octets 32 := ⟨entry.2.take 32, List.length_take_of_le (Nat.not_lt.mp short)⟩
    let statement ← (SignedIntroduction.fromBytes (entry.2.drop 32)).mapError fun e =>
      .corrupt ("bad signed introduction: " ++ e.debug)
    refuse (signedIntroductionKey statement ≠ entry.1)
      (.corrupt "signed introduction key does not match statement")
    (statement.verifySignature suite introducer).mapError fun e =>
      .corrupt ("bad signed introduction signature: " ++ e.debug)
    .ok statement

/-- The edge of a signed statement, in `all_records`. -/
def SignedIntroduction.edge (statement : SignedIntroduction) : IntroductionRecord :=
  { introducer := statement.introducerEndpointId.val, subject := statement.subjectEndpointId.val
    scope := statement.allowedUse, expiresAtMs := statement.expiresAtMs, sequence := statement.sequence }

def allRecords (suite : Suite) (store : TrustStore) : Except StoreError (List IntroductionRecord) := do
  let records ← (store.under introductionPrefix).mapM fun entry => IntroductionRecord.decode entry.1 entry.2
  let signed ← (store.under signedIntroductionPrefix).mapM (signedIntroductionEntry suite)
  .ok (records ++ signed.map SignedIntroduction.edge)

/-! Trust states and the introduction graph of `trust.rs`. An endpoint without a state of its own is introduced
when a search along introductions, from the subject to its introducers, comes to a trusted endpoint. The search
asks of the endpoints on its way only whether they are trusted. -/

inductive TrustState where
  | unknown | observed | introduced | trusted | restricted | blocked | revoked
  deriving DecidableEq, Repr

namespace TrustState

def toByte : TrustState → UInt8
  | unknown => 0
  | observed => 1
  | introduced => 2
  | trusted => 3
  | restricted => 4
  | blocked => 5
  | revoked => 6

def fromByte (byte : UInt8) : Option TrustState :=
  [unknown, observed, introduced, trusted, restricted, blocked, revoked].find? fun state => state.toByte = byte

def Excluded (state : TrustState) : Prop := state = restricted ∨ state = blocked ∨ state = revoked

instance (state : TrustState) : Decidable state.Excluded := inferInstanceAs (Decidable (_ ∨ _))

end TrustState

structure TrustMetadata where
  level : TrustState
  directTooling : Bool
  lastUpdatedMs : UInt64
  deriving DecidableEq

namespace TrustMetadata

/-- `TRUST_RECORD_VERSION`. -/
def recordVersion : UInt8 := 0x71

/-- `encode`: the time is little-endian. -/
def encode (metadata : TrustMetadata) : Bytes :=
  [recordVersion, metadata.level.toByte, if metadata.directTooling then 1 else 0] ++
    (wordBytes metadata.lastUpdatedMs).reverse

/-- `u64::from_le_bytes`. -/
def timestamp (bytes : Bytes) : UInt64 := UInt64.ofNat (fromBeBytes bytes.reverse)

/-- The five levels of records before the seven states. -/
def legacyLevel (byte : UInt8) : Option TrustState :=
  if byte = 0 then some .blocked
  else if byte = 1 then some .unknown
  else if byte = 2 then some .observed
  else if byte = 3 ∨ byte = 4 then some .trusted
  else none

def decode (bytes : Bytes) : Except StoreError TrustMetadata :=
  match bytes with
  | [version, level, direct, t0, t1, t2, t3, t4, t5, t6, t7] => do
    refuse (version ≠ recordVersion) (.corrupt "unknown trust record version")
    match TrustState.fromByte level with
    | none => .error (.corrupt "unknown trust level")
    | some level =>
      .ok { level, directTooling := direct ≠ 0, lastUpdatedMs := timestamp [t0, t1, t2, t3, t4, t5, t6, t7] }
  | [level, direct, t0, t1, t2, t3, t4, t5, t6, t7] =>
    match legacyLevel level with
    | none => .error (.corrupt "unknown legacy trust level")
    | some level =>
      .ok { level, directTooling := direct ≠ 0, lastUpdatedMs := timestamp [t0, t1, t2, t3, t4, t5, t6, t7] }
  | _ => .error (.corrupt "bad trust record length")

end TrustMetadata

/-- `TrustStore::effective_trust_state` over `TrustState::Unknown`, as the graph asks. -/
def storedState (store : TrustStore) (endpoint : Bytes) : Except StoreError TrustState :=
  match store.get? endpoint with
  | none => .ok .unknown
  | some bytes => (TrustMetadata.decode bytes).map TrustMetadata.level

def setState (store : TrustStore) (endpoint : Bytes) (state : TrustState) (nowMs : UInt64) : TrustStore :=
  store.insert endpoint (TrustMetadata.encode { level := state, directTooling := true, lastUpdatedMs := nowMs })

def scopeMatches (recordScope requestedScope : String) : Bool :=
  recordScope = "*" || recordScope = requestedScope

namespace TrustGraph

/-- `MAX_INTRODUCTION_DEPTH`, the depth of `TrustGraph::new`. -/
def maxIntroductionDepth : Nat := 2

def maxIntroductionsPerSubject : Nat := 32

/-- The introductions that `has_authorized_introduction` follows from a subject. -/
def applies (scope : String) (nowMs : UInt64) (subject : Bytes) (record : IntroductionRecord) : Bool :=
  record.subject = subject && decide (record.expiresAtMs > nowMs) && scopeMatches record.scope scope

/-- Whether the search ends at an endpoint. -/
def isTrusted (store : TrustStore) (endpoint : Bytes) : Except StoreError Bool := do
  let state ← storedState store endpoint
  .ok (state = .trusted)

/-- The introducers among which the search goes on. -/
def introducers (suite : Suite) (store : TrustStore) (scope : String) (nowMs : UInt64) (subject : Bytes) :
    Except StoreError (List Bytes) := do
  let records ← allRecords suite store
  .ok ((records.filter (applies scope nowMs subject)).map IntroductionRecord.introducer)

/-- `TrustGraph::has_authorized_introduction` from depth 0. The depth counts up to `max_depth` there, so a path
has at most `max_depth + 1` endpoints. -/
def hasAuthorizedIntroduction (suite : Suite) (store : TrustStore) (maxDepth : Nat) (subject : Bytes)
    (scope : String) (nowMs : UInt64) : Except StoreError Bool :=
  BoundedSearch.search (isTrusted store) (introducers suite store scope nowMs) (maxDepth + 1) [] subject

/-- A stored decision stands; an introduction only lifts the unknown and the observed. -/
def effectiveState (suite : Suite) (store : TrustStore) (maxDepth : Nat) (subject : Bytes) (scope : String)
    (nowMs : UInt64) : Except StoreError TrustState := do
  let current ← storedState store subject
  if current ≠ .unknown ∧ current ≠ .observed then .ok current
  else do
    let authorized ← hasAuthorizedIntroduction suite store maxDepth subject scope nowMs
    .ok (if authorized then .introduced else current)

/-- The introducer must itself be trusted or introduced for the scope. -/
def introduce (suite : Suite) (store : TrustStore) (maxDepth : Nat) (introducer subject : Bytes)
    (scope : String) (expiresAtMs nowMs : UInt64) : Except StoreError TrustStore := do
  refuse (introducer = [] ∨ subject = [] ∨ introducer = subject) (.corrupt "invalid introduction identities")
  refuse (scope = "" ∨ expiresAtMs ≤ nowMs) (.corrupt "invalid introduction scope or expiry")
  let state ← effectiveState suite store maxDepth introducer scope nowMs
  refuse (state ≠ .trusted ∧ state ≠ .introduced) (.corrupt "introducer lacks active authority for scope")
  let records ← allRecords suite store
  refuse (records.countP (fun record => record.subject = subject) ≥ maxIntroductionsPerSubject) .quotaExceeded
  let earlier := (records.filter fun record => record.introducer = introducer ∧ record.subject = subject).map
    fun record => record.sequence.toNat
  let sequence := UInt64.ofNat (saturatingAdd (earlier.foldl max 0) 1)
  let record : IntroductionRecord := { introducer, subject, scope, expiresAtMs, sequence }
  .ok (store.insert record.key record.encode)

/-! ### What the search follows -/

/-- An introduction of `subject` by `introducer` that is in force for the scope. -/
def Introduces (records : List IntroductionRecord) (scope : String) (nowMs : UInt64)
    (introducer subject : Bytes) : Prop :=
  ∃ record ∈ records, record.introducer = introducer ∧ record.subject = subject ∧
    nowMs < record.expiresAtMs ∧ scopeMatches record.scope scope = true

/-- The endpoints behind a subject introduce each other, each the one before it, and the last one is trusted. -/
def Authorizes (suite : Suite) (store : TrustStore) (scope : String) (nowMs : UInt64) (subject : Bytes)
    (chain : List Bytes) : Prop :=
  (∃ records, allRecords suite store = .ok records ∧
    (subject :: chain).IsChain fun introduced introducer => Introduces records scope nowMs introducer introduced) ∧
  ∃ last, chain.getLast? = some last ∧ storedState store last = .ok .trusted

/-- No endpoint between the subject and the last one is stored in an excluded state. -/
def Unexcluded (store : TrustStore) (chain : List Bytes) : Prop :=
  ∀ endpoint ∈ chain.dropLast, ∀ state, storedState store endpoint = .ok state → ¬ state.Excluded

variable {suite : Suite} {store : TrustStore} {maxDepth : Nat} {subject : Bytes} {scope : String}
  {nowMs : UInt64} {records : List IntroductionRecord} {chain : List Bytes} {state : TrustState}

theorem isTrusted_iff : isTrusted store endpoint = .ok true ↔ storedState store endpoint = .ok .trusted := by
  rw [isTrusted, bind_ok]
  simp

theorem mem_introducers (read : allRecords suite store = .ok records)
    (listed : introducers suite store scope nowMs subject = .ok nodes) :
    introducer ∈ nodes ↔ Introduces records scope nowMs introducer subject := by
  rw [introducers, read, ok_bind, Except.ok.injEq] at listed
  subst listed
  simp only [List.mem_map, List.mem_filter, applies, Introduces, Bool.and_eq_true, decide_eq_true_eq, gt_iff_lt]
  constructor
  · rintro ⟨record, ⟨member, ⟨named, unexpired⟩, matching⟩, author⟩
    exact ⟨record, member, author, named, unexpired, matching⟩
  · rintro ⟨record, member, author, named, unexpired, matching⟩
    exact ⟨record, ⟨member, ⟨named, unexpired⟩, matching⟩, author⟩

theorem leads_iff (read : allRecords suite store = .ok records) :
    BoundedSearch.Leads (isTrusted store) (introducers suite store scope nowMs) subject chain ↔
      ((subject :: chain).IsChain fun introduced introducer => Introduces records scope nowMs introducer introduced) ∧
      ∃ last, (subject :: chain).getLast? = some last ∧ storedState store last = .ok .trusted := by
  constructor
  · intro walk
    induction walk with
    | here reached => exact ⟨.singleton _, _, rfl, isTrusted_iff.mp reached⟩
    | step successors member onward ih =>
      obtain ⟨linked, last, ends, trusted⟩ := ih
      exact ⟨.cons_cons ((mem_introducers read successors).mp member) linked, last, ends, trusted⟩
  · rintro ⟨linked, last, ends, trusted⟩
    induction chain generalizing subject with
    | nil =>
      cases ends
      exact .here (isTrusted_iff.mpr trusted)
    | cons introducer rest ih =>
      obtain ⟨edge, linked⟩ := List.isChain_cons_cons.mp linked
      have successors : introducers suite store scope nowMs subject =
          .ok ((records.filter (applies scope nowMs subject)).map IntroductionRecord.introducer) := by
        rw [introducers, read, ok_bind]
      exact .step successors ((mem_introducers read successors).mpr edge) (ih linked ends)

theorem authorizes_iff_leads (untrusted : storedState store subject ≠ .ok .trusted) :
    Authorizes suite store scope nowMs subject chain ↔
      BoundedSearch.Leads (isTrusted store) (introducers suite store scope nowMs) subject chain := by
  constructor
  · rintro ⟨⟨records, read, linked⟩, last, ends, trusted⟩
    refine (leads_iff read).mpr ⟨linked, last, ?_, trusted⟩
    rw [List.getLast?_cons, ends]
    rfl
  · intro walk
    cases walk with
    | here reached => exact absurd (isTrusted_iff.mp reached) untrusted
    | @step _ introducer rest nodes successors member onward =>
      obtain ⟨records, read, -⟩ := bind_ok.mp successors
      obtain ⟨linked, last, ends, trusted⟩ := (leads_iff read).mp (.step successors member onward)
      exact ⟨⟨records, read, linked⟩, last, ends, trusted⟩

/-- An endpoint without a standing of its own is introduced exactly when a chain within the depth authorizes it,
whatever the endpoints on the way are stored as. -/
theorem effectiveState_introduced_iff
    (unsettled : storedState store subject = .ok .unknown ∨ storedState store subject = .ok .observed)
    (evaluated : effectiveState suite store maxDepth subject scope nowMs = .ok state) :
    state = .introduced ↔
      ∃ chain, chain.length ≤ maxDepth ∧ Authorizes suite store scope nowMs subject chain := by
  obtain ⟨current, stored, evaluated⟩ := bind_ok.mp evaluated
  have unsettled : current = .unknown ∨ current = .observed := by simpa [stored] using unsettled
  have untrusted : storedState store subject ≠ .ok .trusted := by
    rw [stored]
    rcases unsettled with rfl | rfl <;> simp
  rw [if_neg (by tauto)] at evaluated
  obtain ⟨authorized, searched, made⟩ := bind_ok.mp evaluated
  rw [Except.ok.injEq] at made
  have found : state = .introduced ↔ authorized = true := by
    subst made
    rcases unsettled with rfl | rfl <;> cases authorized <;> simp
  rw [found, BoundedSearch.search_iff searched]
  simp only [authorizes_iff_leads untrusted, Nat.lt_succ_iff, and_comm]

theorem Authorizes.length_pos (authorizes : Authorizes suite store scope nowMs subject chain) :
    1 ≤ chain.length := by
  obtain ⟨-, last, ends, -⟩ := authorizes
  exact List.length_pos_iff.mpr fun empty => by simp [empty] at ends

/-- A subject whose introducers are all excluded has no chain without an excluded introducer. -/
theorem not_unexcluded (read : allRecords suite store = .ok records)
    (excluded : ∀ introducer, Introduces records scope nowMs introducer subject →
      ∃ state, storedState store introducer = .ok state ∧ state.Excluded)
    (authorizes : Authorizes suite store scope nowMs subject chain) : ¬ Unexcluded store chain := by
  obtain ⟨⟨records', read', linked⟩, last, ends, trusted⟩ := authorizes
  rw [read, Except.ok.injEq] at read'
  subst read'
  intro clean
  cases chain with
  | nil => cases ends
  | cons introducer rest =>
    obtain ⟨edge, -⟩ := List.isChain_cons_cons.mp linked
    obtain ⟨state, stored, out⟩ := excluded introducer edge
    cases rest with
    | nil =>
      -- The only introducer would be the trusted end of the chain.
      obtain rfl : introducer = last := by simpa using ends
      rw [stored, Except.ok.injEq] at trusted
      subst trusted
      exact absurd out (by decide)
    | cons next rest => exact clean introducer List.mem_cons_self state stored out

/-- An endpoint that is introduced has a chain without excluded introducers, unless only chains through excluded
introducers authorize it: the search takes those as well. -/
theorem introduced_unexcluded_iff (suite : Suite) (store : TrustStore) (maxDepth : Nat) (subject : Bytes)
    (scope : String) (nowMs : UInt64) :
    (effectiveState suite store maxDepth subject scope nowMs = .ok .introduced →
      (storedState store subject = .ok .unknown ∨ storedState store subject = .ok .observed) →
      ∃ chain, (1 ≤ chain.length ∧ chain.length ≤ maxDepth) ∧
        Authorizes suite store scope nowMs subject chain ∧ Unexcluded store chain) ↔
    ((∃ state, effectiveState suite store maxDepth subject scope nowMs = .ok state) →
      (storedState store subject = .ok .unknown ∨ storedState store subject = .ok .observed) →
      (∃ chain, chain.length ≤ maxDepth ∧ Authorizes suite store scope nowMs subject chain) →
      ∃ chain, chain.length ≤ maxDepth ∧ Authorizes suite store scope nowMs subject chain ∧
        Unexcluded store chain) := by
  constructor
  · rintro sound ⟨state, evaluated⟩ unsettled authorized
    have introduced := (effectiveState_introduced_iff unsettled evaluated).mpr authorized
    obtain ⟨chain, ⟨-, within⟩, authorizes, clean⟩ := sound (introduced ▸ evaluated) unsettled
    exact ⟨chain, within, authorizes, clean⟩
  · intro clean introduced unsettled
    have authorized := (effectiveState_introduced_iff unsettled introduced).mp rfl
    obtain ⟨chain, within, authorizes, unexcluded⟩ := clean ⟨_, introduced⟩ unsettled authorized
    exact ⟨chain, ⟨authorizes.length_pos, within⟩, authorizes, unexcluded⟩

/-- A trusted endpoint introduces a second one, which introduces a third and is then blocked. -/
def blockedStore : TrustStore :=
  (do
    let store := setState .empty [1] .trusted 0
    let store ← introduce plainSuite store maxIntroductionDepth [1] [2] "relay" 100 0
    let store ← introduce plainSuite store maxIntroductionDepth [2] [3] "relay" 100 0
    .ok (setState store [2] .blocked 1)).toOption.getD .empty

/-- The third endpoint stays introduced. -/
theorem introduced_through_blocked :
    effectiveState plainSuite blockedStore maxIntroductionDepth [3] "relay" 2 = .ok .introduced ∧
      storedState blockedStore [3] = .ok .unknown ∧ storedState blockedStore [2] = .ok .blocked ∧
      ¬ ∃ chain, (1 ≤ chain.length ∧ chain.length ≤ maxIntroductionDepth) ∧
        Authorizes plainSuite blockedStore "relay" 2 [3] chain ∧ Unexcluded blockedStore chain := by
  have read : allRecords plainSuite blockedStore =
      .ok [⟨[1], [2], "relay", 100, 1⟩, ⟨[2], [3], "relay", 100, 1⟩] := by decide +kernel
  have blocked : storedState blockedStore [2] = .ok .blocked := by decide +kernel
  refine ⟨by decide +kernel, by decide +kernel, blocked, ?_⟩
  rintro ⟨chain, -, authorizes, clean⟩
  refine not_unexcluded read ?_ authorizes clean
  rintro introducer ⟨record, member, author, named, -⟩
  refine ⟨.blocked, ?_, by decide⟩
  rcases List.mem_pair.mp member with rfl | rfl
  · exact absurd named (by decide)
  · exact author ▸ blocked

end TrustGraph

/-! Transitions between trust states in `trust.rs`. No arm of the matrix leads out of `Revoked`, but `Restricted`
and `Blocked` may follow any state, and `Observed` may follow both. -/

open OrderedMap

namespace TrustState

def canTransitionTo (state target : TrustState) : Bool :=
  state = target || decide target.Excluded || (state, target) ∈
    [(unknown, observed), (unknown, introduced), (observed, introduced), (observed, trusted), (introduced, trusted),
      (blocked, observed), (restricted, observed)]

def allowsNewSession (state : TrustState) : Bool := state ∈ [unknown, observed, introduced, trusted]

end TrustState

inductive TrustTransitionStoreError where
  | invalid (current target : TrustState) | storage (error : StoreError)
  deriving DecidableEq, Repr

section
variable (defaultTrustLevel : TrustState)

/-- `TrustStore::effective_trust_state`. -/
def effectiveTrustState (store : TrustStore) (endpoint : Bytes) :
    Except StoreError TrustState :=
  match store.get? endpoint with
  | none => .ok defaultTrustLevel
  | some bytes => (TrustMetadata.decode bytes).map TrustMetadata.level

/-- One call of `TrustStore::transition`. -/
structure Transition where
  endpoint : Bytes
  target : TrustState
  nowMs : UInt64

def transition (store : TrustStore) (call : Transition) :
    Except TrustTransitionStoreError TrustState × TrustStore :=
  match effectiveTrustState defaultTrustLevel store call.endpoint with
  | .error e => (.error (.storage e), store)
  | .ok current =>
    if current.canTransitionTo call.target then
      (.ok call.target, setState store call.endpoint call.target call.nowMs)
    else (.error (.invalid current call.target), store)

/-- The call neither restricts nor blocks the endpoint. -/
def Transition.Spares (endpoint : Bytes) (call : Transition) : Prop :=
  call.endpoint = endpoint → call.target ≠ .restricted ∧ call.target ≠ .blocked
  deriving Decidable

/-- The store after a sequence of calls. -/
def transitions (store : TrustStore) (calls : List Transition) : TrustStore :=
  calls.foldl (fun store call => (transition defaultTrustLevel store call).2) store

def Revoked (endpoint : Bytes) (store : TrustStore) : Prop :=
  effectiveTrustState defaultTrustLevel store endpoint = .ok .revoked

end

variable {defaultTrustLevel : TrustState} {store : TrustStore} {endpoint : Bytes} {call : Transition}

theorem decode_encode_level {metadata : TrustMetadata} :
    (TrustMetadata.decode metadata.encode).map TrustMetadata.level = .ok metadata.level := by
  have size : (wordBytes metadata.lastUpdatedMs).reverse.length = 8 := by simp
  unfold TrustMetadata.encode
  generalize (wordBytes metadata.lastUpdatedMs).reverse = stamp at size
  match stamp, size with
  | [t0, t1, t2, t3, t4, t5, t6, t7], _ => cases metadata.level <;> rfl

theorem effectiveTrustState_setState :
    effectiveTrustState defaultTrustLevel (setState store changed state nowMs) endpoint =
      if endpoint = changed then .ok state else effectiveTrustState defaultTrustLevel store endpoint := by
  rw [effectiveTrustState, setState, get?_insert]
  by_cases own : endpoint = changed
  · rw [if_pos own, if_pos own]
    exact decode_encode_level
  · rw [if_neg own, if_neg own]
    rfl

theorem transition_revoked (revoked : Revoked defaultTrustLevel endpoint store) (spares : call.Spares endpoint) :
    Revoked defaultTrustLevel endpoint (transition defaultTrustLevel store call).2 := by
  unfold transition
  split
  · exact revoked
  next current held =>
  split
  · next allowed =>
    rw [Revoked, effectiveTrustState_setState]
    split
    · next own =>
      obtain ⟨unrestricted, unblocked⟩ := spares own.symm
      cases held.symm.trans (own ▸ revoked)
      revert allowed unrestricted unblocked
      cases call.target <;> decide
    · exact revoked
  · exact revoked

theorem transition_ok (done : (transition defaultTrustLevel store call).1 = .ok state) :
    effectiveTrustState defaultTrustLevel (transition defaultTrustLevel store call).2 call.endpoint =
      .ok call.target := by
  unfold transition at done ⊢
  split at done
  · cases done
  · split at done
    · next allowed => rw [if_pos allowed, effectiveTrustState_setState, if_pos rfl]
    · cases done

/-- After a transition to `Revoked`, and as long as no call restricts or blocks the endpoint, no sequence of calls
leaves it in a state in which it may open a session. -/
theorem revocation_lasts {state : TrustState} {calls : List Transition} (target : call.target = .revoked)
    (done : (transition defaultTrustLevel store call).1 = .ok state)
    (spared : ∀ later ∈ calls, later.Spares call.endpoint) :
    ∃ state, effectiveTrustState defaultTrustLevel
      (transitions defaultTrustLevel (transition defaultTrustLevel store call).2 calls) call.endpoint = .ok state ∧
      state.allowsNewSession = false := by
  have revoked : Revoked defaultTrustLevel call.endpoint _ := target ▸ transition_ok done
  have lasts : Revoked defaultTrustLevel call.endpoint (transitions defaultTrustLevel _ calls) :=
    Run.invariant_of_meets (fun _ _ => transition_revoked) revoked (Run.meets_of_forall spared _)
  exact ⟨.revoked, lasts, rfl⟩

theorem revocation_lasts_observed : let revoked := (transition .unknown .empty ⟨[1], .revoked, 0⟩).2
    ∃ state, effectiveTrustState .unknown (transitions .unknown revoked [⟨[1], .observed, 1⟩, ⟨[2], .restricted, 2⟩])
      [1] = .ok state ∧ state.allowsNewSession = false :=
  have done : (transition .unknown .empty ⟨[1], .revoked, 0⟩).1 = .ok .revoked := by decide +kernel
  revocation_lasts rfl done (by decide)

/-- A revoked endpoint is restricted, then observed, and may open a session again. -/
theorem restriction_lifts_revocation : let revoked := transition .unknown .empty ⟨[1], .revoked, 0⟩
    let restricted := transition .unknown revoked.2 ⟨[1], .restricted, 1⟩
    let observed := transition .unknown restricted.2 ⟨[1], .observed, 2⟩
    revoked.1 = .ok .revoked ∧ restricted.1 = .ok .restricted ∧ observed.1 = .ok .observed ∧
      effectiveTrustState .unknown observed.2 [1] = .ok .observed ∧ TrustState.observed.allowsNewSession = true := by
  decide +kernel

end UniversalMesh.Trust
