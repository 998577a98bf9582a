import UniversalMesh.Wire.Frames.Routing
import UniversalMesh.Lib.ByteReader
import Mathlib.Data.List.Dedup

/-! `umc-routing/src/paths.rs`: a route path as the metadata of a route response. A body is a marker, a
version, the number of hops, and for each hop its peer, scope, flags and failure domain. -/
namespace UniversalMesh.Routing
open MachineWord Wire ByteReader Reader

section

inductive RouteScope where
  | linkLocal | localMesh | introduced | general
  deriving DecidableEq, Repr

def RouteScope.rank : RouteScope → Nat
  | linkLocal => 0
  | localMesh => 1
  | introduced => 2
  | general => 3

/-- `narrows_to`: a scope may narrow, never broaden. -/
def RouteScope.narrowsTo (scope other : RouteScope) : Bool := scope.rank ≥ other.rank

def maxPathHops : Nat := 32
def maxPeerId : Nat := 64
def maxFailureDomain : Nat := 64
def maxPathBytes : Nat := 8 * 1024

/-- The bytes that encoded path metadata begins with. -/
def pathMetadataMagic : Bytes := ascii "UMP-PATH"
def pathMetadataVersion : UInt8 := 1

/-- An empty failure domain means that there is no evidence of one. -/
structure PathHop where
  peer : Bytes
  scope : RouteScope
  failureDomain : Bytes
  relay : Bool
  deriving DecidableEq, Repr

inductive PathMetadataError where
  | invalidMarker | unsupportedVersion | tooManyHops | truncated | invalidScope | invalidFlags
  | invalidPeer | invalidFailureDomain | pathTooLarge | trailingBytes
  deriving DecidableEq, Repr

def scopeCode : RouteScope → UInt8
  | .linkLocal => 0
  | .localMesh => 1
  | .introduced => 2
  | .general => 3

def scopeFromCode : UInt8 → Except PathMetadataError RouteScope
  | 0 => .ok .linkLocal
  | 1 => .ok .localMesh
  | 2 => .ok .introduced
  | 3 => .ok .general
  | _ => .error .invalidScope

theorem scopeFromCode_ok : scopeFromCode code = .ok scope ↔ code = scopeCode scope := by
  constructor
  · unfold scopeFromCode
    split <;> rintro ⟨⟩ <;> rfl
  · rintro rfl
    cases scope <;> rfl

namespace PathHop

/-- The loop body of `encode_path_metadata`. The lengths fit the byte they are written as. -/
def encode (hop : PathHop) (out : Bytes) : Except PathMetadataError Bytes := do
  refuse (hop.peer.isEmpty || hop.peer.length > maxPeerId) .invalidPeer
  refuse (hop.failureDomain.length > maxFailureDomain) .invalidFailureDomain
  let out := out ++ [UInt8.ofNat hop.peer.length] ++ hop.peer ++ [scopeCode hop.scope] ++
    [if hop.relay then 1 else 0] ++ [UInt8.ofNat hop.failureDomain.length] ++ hop.failureDomain
  refuse (out.length > maxPathBytes) .pathTooLarge
  .ok out

/-- The loop body of `decode_path_metadata`. -/
def read : Reader PathMetadataError UInt8 PathHop := do
  let peerLen ← length8 .truncated
  refuseIf (peerLen = 0 || peerLen > maxPeerId) .invalidPeer
  let peer ← slice .truncated peerLen
  let code ← byte .truncated
  let scope ← lift (scopeFromCode code)
  let flags ← byte .truncated
  refuseIf (flags &&& 0xFE ≠ 0) .invalidFlags
  let domainLen ← length8 .truncated
  refuseIf (domainLen > maxFailureDomain) .invalidFailureDomain
  let failureDomain ← slice .truncated domainLen
  pure { peer, scope, failureDomain, relay := flags &&& 1 ≠ 0 }

end PathHop

variable (hops : List PathHop)

def encodePathMetadata : Except PathMetadataError Bytes := do
  refuse (hops.length > maxPathHops) .tooManyHops
  hops.foldlM (fun out hop => hop.encode out)
    (pathMetadataMagic ++ [pathMetadataVersion, UInt8.ofNat hops.length])

/-- What follows the marker. -/
def readPath : Reader PathMetadataError UInt8 (List PathHop) := do
  let version ← byte .truncated
  refuseIf (version ≠ pathMetadataVersion) .unsupportedVersion
  let count ← length8 .truncated
  refuseIf (count > maxPathHops) .tooManyHops
  times count PathHop.read

def decodePathMetadata (bytes : Bytes) : Except PathMetadataError (List PathHop) :=
  if bytes.isEmpty then .ok []
  else do
    refuse (bytes.length > maxPathBytes) .pathTooLarge
    refuse (bytes.length < pathMetadataMagic.length + 2 ||
      bytes.take pathMetadataMagic.length ≠ pathMetadataMagic) .invalidMarker
    let (hops, pos) ← readPath bytes pathMetadataMagic.length
    refuse (pos ≠ bytes.length) .trailingBytes
    .ok hops

namespace PathHop

/-- The bounds that both directions of the codec check. -/
structure Bounded (hop : PathHop) : Prop where
  named : hop.peer ≠ []
  peer : hop.peer.length ≤ maxPeerId
  domain : hop.failureDomain.length ≤ maxFailureDomain

/-- The bytes of a hop. -/
def bytes (hop : PathHop) : Bytes :=
  [UInt8.ofNat hop.peer.length] ++ (hop.peer ++ ([scopeCode hop.scope] ++ ([if hop.relay then 1 else 0] ++
    ([UInt8.ofNat hop.failureDomain.length] ++ hop.failureDomain))))

variable {hop : PathHop} {out result : Bytes}

theorem bytes_length (hop : PathHop) : hop.bytes.length = 4 + hop.peer.length + hop.failureDomain.length := by
  simp [bytes]
  omega

theorem Bounded.bytes_length_le (bounded : hop.Bounded) : hop.bytes.length ≤ 132 := by
  have peer := bounded.peer
  have domain := bounded.domain
  unfold maxPeerId maxFailureDomain at *
  rw [bytes_length]
  omega

theorem encode_ok : hop.encode out = .ok result ↔
    hop.Bounded ∧ out.length + hop.bytes.length ≤ maxPathBytes ∧ result = out ++ hop.bytes := by
  have shape : out ++ [UInt8.ofNat hop.peer.length] ++ hop.peer ++ [scopeCode hop.scope] ++
      [if hop.relay then 1 else 0] ++ [UInt8.ofNat hop.failureDomain.length] ++ hop.failureDomain =
        out ++ hop.bytes := by
    simp only [bytes, List.append_assoc]
  rw [encode, shape]
  simp only [refuse_bind_ok, Bool.or_eq_false_iff, decide_eq_false_iff_not, Nat.not_lt, List.isEmpty_eq_false_iff,
    List.length_append, Except.ok.injEq]
  exact ⟨fun ⟨⟨named, peer⟩, domain, fits, same⟩ => ⟨⟨named, peer, domain⟩, fits, same.symm⟩,
    fun ⟨⟨named, peer, domain⟩, fits, same⟩ => ⟨⟨named, peer⟩, domain, fits, same.symm⟩⟩

/-- With the reserved bits clear there is one bit left. -/
theorem flags_of_reserved {flags : UInt8} (reserved : flags &&& 0xFE = 0) : flags = 0 ∨ flags = 1 := by
  have high : flags.toNat &&& 0xFE = 0 := by simpa [← UInt8.toNat_inj] using reserved
  have size := flags.toNat_lt
  have all : flags.toNat &&& 0xFF = flags.toNat % 256 := Nat.and_two_pow_sub_one_eq_mod _ 8
  have low : flags.toNat &&& 1 = flags.toNat % 2 := Nat.and_one_is_mod _
  have both : flags.toNat &&& 0xFF = (flags.toNat &&& 0xFE) ||| (flags.toNat &&& 1) :=
    Nat.and_or_distrib_left flags.toNat 0xFE 1
  rw [high, Nat.zero_or] at both
  have small : flags.toNat = 0 ∨ flags.toNat = 1 := by omega
  exact small.imp UInt8.toNat_inj.mp UInt8.toNat_inj.mp

theorem Bounded.reads (bounded : hop.Bounded) : Reads read hop hop.bytes := by
  obtain ⟨named, peer, domain⟩ := bounded
  have counted : (hop.peer.length = 0 || decide (hop.peer.length > maxPeerId)) = false := by
    simp [named, peer]
  have flags : decide ((if hop.relay then 1 else 0 : UInt8) &&& 0xFE ≠ 0) = false ∧
      decide ((if hop.relay then 1 else 0 : UInt8) &&& 1 ≠ 0) = hop.relay := by
    cases hop.relay <;> decide
  unfold maxPeerId at peer
  refine (length8_reads _ (by omega)).bind <| (Reads.refuseIf counted).bind <| (slice_reads _ _).bind <|
    (byte_reads _ _).bind <| (lift_reads (scopeFromCode_ok.mpr rfl)).bind <| (byte_reads _ _).bind <|
    (Reads.refuseIf flags.1).bind <| (length8_reads _ ?_).bind <| (Reads.refuseIf ?_).bind ?_
  · unfold maxFailureDomain at domain
    omega
  · exact decide_eq_false domain.not_gt
  · have made : Reads (slice PathMetadataError.truncated hop.failureDomain.length >>= fun failureDomain => pure
        { hop with failureDomain, relay := decide ((if hop.relay then 1 else 0 : UInt8) &&& 1 ≠ 0) })
          hop (hop.failureDomain ++ []) := (slice_reads _ _).bind (.made (by rw [flags.2]))
    rwa [List.append_nil] at made

theorem read_run_ok {body : Bytes} {pos mid : Nat} (run : read body pos = .ok (hop, mid)) :
    hop.Bounded ∧ Holds body pos hop.bytes ∧ mid = pos + hop.bytes.length := by
  obtain ⟨peerLen, _, first, run⟩ := bind_run_ok.mp run
  obtain ⟨lengthHeld, rfl⟩ := length8_run_ok _ first
  obtain ⟨⟨⟩, _, check, run⟩ := bind_run_ok.mp run
  obtain ⟨counted, rfl⟩ := refuseIf_run_ok.mp check
  obtain ⟨peer, _, sliced, run⟩ := bind_run_ok.mp run
  obtain ⟨rfl, peerHeld, rfl⟩ := slice_run_ok _ sliced
  obtain ⟨code, _, coded, run⟩ := bind_run_ok.mp run
  obtain ⟨codeHeld, rfl⟩ := byte_run_ok _ coded
  obtain ⟨scope, _, lifted, run⟩ := bind_run_ok.mp run
  obtain ⟨known, rfl⟩ := lift_run_ok.mp lifted
  obtain ⟨flags, _, flagged, run⟩ := bind_run_ok.mp run
  obtain ⟨flagsHeld, rfl⟩ := byte_run_ok _ flagged
  obtain ⟨⟨⟩, _, check, run⟩ := bind_run_ok.mp run
  obtain ⟨reserved, rfl⟩ := refuseIf_run_ok.mp check
  obtain ⟨domainLen, _, second, run⟩ := bind_run_ok.mp run
  obtain ⟨domainLenHeld, rfl⟩ := length8_run_ok _ second
  obtain ⟨⟨⟩, _, check, run⟩ := bind_run_ok.mp run
  obtain ⟨short, rfl⟩ := refuseIf_run_ok.mp check
  obtain ⟨domain, _, sliced, made⟩ := bind_run_ok.mp run
  obtain ⟨rfl, domainHeld, rfl⟩ := slice_run_ok _ sliced
  cases made
  obtain rfl := scopeFromCode_ok.mp known
  have flag : flags = if decide (flags &&& 1 ≠ 0) then 1 else 0 := by
    rcases flags_of_reserved (by simpa using reserved) with rfl | rfl <;> rfl
  rw [flag] at flagsHeld
  simp only [Bool.or_eq_false_iff, decide_eq_false_iff_not, Nat.not_lt, List.length_eq_zero_iff] at counted short
  refine ⟨⟨counted.1, counted.2, short⟩, ?_, ?_⟩
  · exact lengthHeld.join <| peerHeld.join <| codeHeld.join <| flagsHeld.join <| domainLenHeld.join domainHeld
  · rw [bytes_length]
    dsimp only
    omega

end PathHop

/-- The bytes of a path. -/
def pathBytes : Bytes :=
  pathMetadataMagic ++ ([pathMetadataVersion] ++ ([UInt8.ofNat hops.length] ++ hops.flatMap PathHop.bytes))

/-- The limit on all bytes is above what the hops can take: it never refuses a path. -/
theorem encodeHops_ok {hops : List PathHop} {out bytes : Bytes}
    (room : out.length + 132 * hops.length ≤ maxPathBytes) :
    hops.foldlM (fun out hop => PathHop.encode hop out) out = .ok bytes ↔
      (∀ hop ∈ hops, hop.Bounded) ∧ bytes = out ++ hops.flatMap PathHop.bytes := by
  induction hops generalizing out with
  | nil => simp [pure, Except.pure, eq_comm]
  | cons hop hops ih =>
    rw [List.length_cons] at room
    rw [List.foldlM_cons, bind_ok, List.forall_mem_cons, List.flatMap_cons]
    constructor
    · rintro ⟨_, first, others⟩
      obtain ⟨bounded, -, rfl⟩ := PathHop.encode_ok.mp first
      have size := bounded.bytes_length_le
      obtain ⟨all, rfl⟩ := (ih (by rw [List.length_append]; omega)).mp others
      exact ⟨⟨bounded, all⟩, List.append_assoc ..⟩
    · rintro ⟨⟨bounded, all⟩, rfl⟩
      have size := bounded.bytes_length_le
      refine ⟨_, PathHop.encode_ok.mpr ⟨bounded, by omega, rfl⟩, (ih ?_).mpr ⟨all, ?_⟩⟩
      · rw [List.length_append]
        omega
      · rw [List.append_assoc]

theorem pathMetadataMagic_length : pathMetadataMagic.length = 8 := rfl

theorem encodePathMetadata_ok {hops : List PathHop} {bytes : Bytes} :
    encodePathMetadata hops = .ok bytes ↔
      hops.length ≤ maxPathHops ∧ (∀ hop ∈ hops, hop.Bounded) ∧ bytes = pathBytes hops := by
  rw [encodePathMetadata, refuse_bind_ok, decide_eq_false_iff_not, Nat.not_lt]
  refine and_congr_right fun few => encodeHops_ok ?_
  unfold maxPathHops at few
  simp only [pathMetadataMagic_length, List.length_append, List.length_cons, List.length_nil, maxPathBytes]
  omega

theorem pathBytes_length : (pathBytes hops).length = 10 + (hops.flatMap PathHop.bytes).length := by
  simp only [pathBytes, pathMetadataMagic_length, List.length_append, List.length_cons, List.length_nil]
  omega

theorem hopBytes_length_le {hops : List PathHop} (bounded : ∀ hop ∈ hops, hop.Bounded) :
    (hops.flatMap PathHop.bytes).length ≤ 132 * hops.length := by
  induction hops with
  | nil => exact Nat.zero_le _
  | cons hop hops ih =>
    obtain ⟨first, others⟩ := List.forall_mem_cons.mp bounded
    have size := first.bytes_length_le
    have rest := ih others
    rw [List.flatMap_cons, List.length_append, List.length_cons]
    omega

/-- The encoding of a path is the one body, but for the empty one, that is decoded as the path. -/
theorem path_metadata_canonical (hops : List PathHop) (bytes : Bytes) :
    encodePathMetadata hops = .ok bytes ↔ bytes ≠ [] ∧ decodePathMetadata bytes = .ok hops := by
  rw [encodePathMetadata_ok]
  constructor
  · rintro ⟨few, bounded, rfl⟩
    have size := pathBytes_length hops
    have reads : Reads readPath hops ([pathMetadataVersion] ++ ([UInt8.ofNat hops.length] ++
        hops.flatMap PathHop.bytes)) :=
      (byte_reads _ _).bind <| (Reads.refuseIf rfl).bind <|
        (length8_reads _ (by unfold maxPathHops at few; omega)).bind <|
        (Reads.refuseIf (decide_eq_false few.not_gt)).bind <| .times fun hop member => (bounded hop member).reads
    have held : Holds (pathBytes hops) 0 (pathBytes hops) := ⟨Nat.zero_le _, List.prefix_rfl⟩
    have hopsSize := hopBytes_length_le bounded
    have read := reads held.append.2
    rw [Nat.zero_add] at read
    refine ⟨by simp [pathBytes], ?_⟩
    rw [decodePathMetadata, if_neg (by simp [pathBytes]), refuse_bind_ok, refuse_bind_ok, bind_ok]
    refine ⟨decide_eq_false ?_, ?_, _, read, ?_⟩
    · unfold maxPathHops at few
      unfold maxPathBytes
      omega
    · rw [size, Bool.or_eq_false_iff]
      exact ⟨decide_eq_false (by rw [pathMetadataMagic_length]; omega), decide_eq_false (not_not.mpr rfl)⟩
    · refine refuse_bind_ok.mpr ⟨decide_eq_false (not_not.mpr ?_), rfl⟩
      exact List.length_append.symm
  · rintro ⟨some, decoded⟩
    unfold decodePathMetadata at decoded
    rw [if_neg (by simpa using some), refuse_bind_ok, refuse_bind_ok, bind_ok] at decoded
    obtain ⟨fits, marked, ⟨hops, pos⟩, read, decoded⟩ := decoded
    obtain ⟨ends, made⟩ := refuse_bind_ok.mp decoded
    cases made
    obtain ⟨version, _, first, read⟩ := bind_run_ok.mp read
    obtain ⟨versionHeld, rfl⟩ := byte_run_ok _ first
    obtain ⟨⟨⟩, _, check, read⟩ := bind_run_ok.mp read
    obtain ⟨known, rfl⟩ := refuseIf_run_ok.mp check
    obtain ⟨count, _, counted, read⟩ := bind_run_ok.mp read
    obtain ⟨countHeld, rfl⟩ := length8_run_ok _ counted
    obtain ⟨⟨⟩, _, check, read⟩ := bind_run_ok.mp read
    obtain ⟨few, rfl⟩ := refuseIf_run_ok.mp check
    obtain ⟨rfl, hopsHeld, rfl⟩ := times_run_ok (fun run => (PathHop.read_run_ok run).2) countHeld.end_le read
    have bounded := forall_of_times (fun _ _ _ _ run => (PathHop.read_run_ok run).1) read
    refine ⟨by simpa using few, bounded, ?_⟩
    simp only [Bool.or_eq_false_iff, decide_eq_false_iff_not, not_not] at marked known ends
    subst known
    have marker : Holds bytes 0 pathMetadataMagic := ⟨Nat.zero_le _, by rw [← marked.2]; exact List.take_prefix _ _⟩
    have whole : Holds bytes 0 (pathBytes hops) :=
      marker.join (Nat.zero_add _ ▸ versionHeld.join (countHeld.join hopsHeld))
    refine (whole.whole ?_).symm
    rw [← ends, pathBytes_length]
    rfl

end

/-! `PathBuilder`: a route path made hop by hop. What `push` checks of each hop holds of all the hops a
builder has, and is part of its type. -/

def maxPathExclusions : Nat := 32

structure PathPolicy where
  (maxHops maxRelays minimumDistinctFailureDomains : Nat)
  allowDirect : Bool
  deriving DecidableEq, Repr

structure RoutePath where
  hops : List PathHop
  effectiveScope : RouteScope
  (relayCount distinctFailureDomains : Nat)
  deriving DecidableEq, Repr

inductive PathError where
  | tooManyExclusions | exclusionTooLong | invalidPeer | failureDomainTooLong | excludedPeer
  | loopDetected | scopeBroadened | hopLimitExceeded | relayLimitExceeded | pathTooLarge | emptyPath
  | insufficientDiversity (required actual : Nat)
  deriving DecidableEq, Repr

/-- The hops chosen so far, which already meet the policy. -/
structure PathBuilder where
  (requestScope effectiveScope : RouteScope)
  exclusions : List Bytes
  policy : PathPolicy
  hops : List PathHop
  (relayCount encodedBytes : Nat)
  bounded : ∀ hop ∈ hops, hop.Bounded
  distinct : hops.Pairwise fun a b => a.peer ≠ b.peer
  allowed : ∀ hop ∈ hops, hop.peer ∉ exclusions
  /-- The scopes do not broaden, from that of the request to the effective one. -/
  narrowing : (requestScope :: hops.map PathHop.scope).Pairwise fun a b => a.narrowsTo b = true
  effective : (requestScope :: hops.map PathHop.scope).getLast? = some effectiveScope
  withinHops : hops.length ≤ policy.maxHops
  counted : relayCount = hops.countP PathHop.relay
  withinRelays : relayCount ≤ policy.maxRelays
  limited : policy.maxHops ≤ maxPathHops ∧ policy.maxRelays ≤ maxPathHops

namespace PathBuilder

def new (requestScope : RouteScope) (exclusions : List Bytes) (policy : PathPolicy) :
    Except PathError PathBuilder :=
  if exclusions.length > maxPathExclusions then .error .tooManyExclusions
  else if exclusions.any fun entry => entry.length > maxPeerId then .error .exclusionTooLong
  else .ok {
    requestScope, effectiveScope := requestScope, exclusions
    policy := { policy with maxHops := min policy.maxHops maxPathHops, maxRelays := min policy.maxRelays maxPathHops }
    hops := [], relayCount := 0, encodedBytes := 0
    bounded := nofun, distinct := .nil, allowed := nofun, narrowing := List.pairwise_singleton _ _
    effective := rfl, withinHops := Nat.zero_le _, counted := rfl, withinRelays := Nat.zero_le _
    limited := ⟨Nat.min_le_right _ _, Nat.min_le_right _ _⟩ }

/-- The last scope is the one a new hop must not broaden. -/
theorem narrows_all (b : PathBuilder) (narrows : b.effectiveScope.narrowsTo scope = true) :
    ∀ earlier ∈ b.requestScope :: b.hops.map PathHop.scope, earlier.narrowsTo scope = true := by
  intro earlier member
  obtain ⟨front, shape⟩ := List.getLast?_eq_some_iff.mp b.effective
  have order := b.narrowing
  rw [shape] at member order
  rcases List.mem_append.mp member with before | last
  · have above := (List.pairwise_append.mp order).2.2 earlier before _ (List.mem_singleton_self _)
    simp only [RouteScope.narrowsTo, ge_iff_le, decide_eq_true_eq] at above narrows ⊢
    omega
  · rwa [List.mem_singleton.mp last]

/-- The changes of `push`, for a hop that passed its checks. -/
def append (b : PathBuilder) (hop : PathHop) (bounded : hop.Bounded) (allowed : hop.peer ∉ b.exclusions)
    (fresh : ∀ existing ∈ b.hops, existing.peer ≠ hop.peer)
    (narrows : b.effectiveScope.narrowsTo hop.scope = true) (room : b.hops.length < b.policy.maxHops)
    (relays : hop.relay = true → b.relayCount < b.policy.maxRelays) : PathBuilder :=
  { b with
    effectiveScope := hop.scope
    hops := b.hops ++ [hop]
    relayCount := if hop.relay then b.relayCount + 1 else b.relayCount
    encodedBytes := b.encodedBytes + (2 + hop.peer.length + hop.failureDomain.length)
    bounded := List.forall_mem_append.mpr ⟨b.bounded, by simpa using bounded⟩
    distinct := List.pairwise_append.mpr ⟨b.distinct, List.pairwise_singleton _ _, by simpa using fresh⟩
    allowed := List.forall_mem_append.mpr ⟨b.allowed, by simpa using allowed⟩
    narrowing := by
      rw [List.map_append, ← List.cons_append]
      exact List.pairwise_append.mpr ⟨b.narrowing, List.pairwise_singleton _ _, fun earlier member last own => by
        rw [List.mem_singleton.mp own]
        exact b.narrows_all narrows earlier member⟩
    effective := by
      rw [List.map_append, ← List.cons_append]
      exact List.getLast?_concat
    withinHops := by
      rw [List.length_append]
      exact room
    counted := by
      rw [List.countP_append, List.countP_singleton, ← b.counted]
      split <;> rfl
    withinRelays := by
      have := b.withinRelays
      split
      · next relay => exact relays relay
      · exact this }

/-- `push`: all checks come before any change. The sums stay far below the range of `usize`. -/
def push (b : PathBuilder) (hop : PathHop) : Except PathError Unit × PathBuilder :=
  if peer : hop.peer = [] ∨ hop.peer.length > maxPeerId then (.error .invalidPeer, b)
  else if domain : hop.failureDomain.length > maxFailureDomain then (.error .failureDomainTooLong, b)
  else if excluded : b.exclusions.contains hop.peer then (.error .excludedPeer, b)
  else if loop : ∃ existing ∈ b.hops, existing.peer = hop.peer then (.error .loopDetected, b)
  else if narrows : b.effectiveScope.narrowsTo hop.scope = false then (.error .scopeBroadened, b)
  else if hops : b.hops.length ≥ b.policy.maxHops then (.error .hopLimitExceeded, b)
  else if relays : hop.relay = true ∧ b.relayCount ≥ b.policy.maxRelays then (.error .relayLimitExceeded, b)
  else if b.encodedBytes + (2 + hop.peer.length + hop.failureDomain.length) > maxPathBytes then
    (.error .pathTooLarge, b)
  else
    (.ok (), b.append hop ⟨fun empty => peer (.inl empty),
      Nat.not_lt.mp fun long => peer (.inr long), Nat.not_lt.mp domain⟩
      (fun member => excluded (List.contains_iff_mem.mpr member))
      (fun existing member same => loop ⟨existing, member, same⟩) (Bool.not_eq_false _ ▸ narrows)
      (Nat.not_le.mp hops) fun relay => Nat.not_le.mp fun full => relays ⟨relay, full⟩)

/-- `finish`; the domains are counted once each, and the missing evidence of one is not a domain. -/
def finish (b : PathBuilder) : Except PathError RoutePath :=
  if b.hops = [] ∧ b.policy.allowDirect = false then .error .emptyPath
  else
    let domains := b.hops.foldl (fun domains hop =>
      if !hop.failureDomain.isEmpty && !domains.contains hop.failureDomain then domains ++ [hop.failureDomain]
      else domains) []
    if domains.length < b.policy.minimumDistinctFailureDomains then
      .error (.insufficientDiversity b.policy.minimumDistinctFailureDomains domains.length)
    else .ok {
      hops := b.hops, effectiveScope := b.effectiveScope, relayCount := b.relayCount
      distinctFailureDomains := domains.length }

variable {b : PathBuilder} {hop : PathHop}

theorem push_cases (b : PathBuilder) (hop : PathHop) :
    (∃ e, b.push hop = (.error e, b)) ∨
      ∃ b', b.push hop = (.ok (), b') ∧ b'.hops = b.hops ++ [hop] ∧ b'.requestScope = b.requestScope ∧
        b'.exclusions = b.exclusions ∧ b'.policy = b.policy := by
  fun_cases push
  case case9 => exact .inr ⟨_, rfl, rfl, rfl, rfl, rfl⟩
  all_goals exact .inl ⟨_, rfl⟩

/-- The failure domains that the hops give evidence of, each once. -/
def failureDomains (hops : List PathHop) : List Bytes :=
  ((hops.map PathHop.failureDomain).filter (· ≠ [])).dedup

/-- The list `finish` makes is behind `held` the new domains, each once. -/
theorem domains_perm (hops : List PathHop) (held : List Bytes) (distinct : held.Nodup) :
    let domains := hops.foldl (fun domains hop =>
      if !hop.failureDomain.isEmpty && !domains.contains hop.failureDomain then domains ++ [hop.failureDomain]
      else domains) held
    domains.Nodup ∧ ∀ domain, domain ∈ domains ↔ domain ∈ held ∨ domain ∈ failureDomains hops := by
  induction hops generalizing held with
  | nil => exact ⟨distinct, by simp [failureDomains]⟩
  | cons hop hops ih =>
    have first (domain : Bytes) : domain ∈ failureDomains (hop :: hops) ↔
        hop.failureDomain ≠ [] ∧ domain = hop.failureDomain ∨ domain ∈ failureDomains hops := by
      by_cases missing : hop.failureDomain = [] <;> simp [failureDomains, missing]
    rw [List.foldl_cons]
    split
    · next new =>
      simp only [Bool.and_eq_true, Bool.not_eq_true', List.isEmpty_eq_false_iff, List.contains_eq_mem,
        decide_eq_false_iff_not] at new
      obtain ⟨nodup, members⟩ := ih (held ++ [hop.failureDomain]) (List.nodup_append_comm.mp
        (List.nodup_cons.mpr ⟨new.2, distinct⟩))
      exact ⟨nodup, fun domain => (members domain).trans (by simp [first, new.1, or_assoc])⟩
    · next known =>
      obtain ⟨nodup, members⟩ := ih held distinct
      have held' : hop.failureDomain ≠ [] → hop.failureDomain ∈ held := by simpa using known
      refine ⟨nodup, fun domain => (members domain).trans ?_⟩
      have own : hop.failureDomain ≠ [] ∧ domain = hop.failureDomain → domain ∈ held :=
        fun ⟨named, same⟩ => same ▸ held' named
      rw [first, ← or_assoc, or_iff_left_of_imp own]

theorem finish_eq (b : PathBuilder) : b.finish =
    if b.hops = [] ∧ b.policy.allowDirect = false then .error .emptyPath
    else if (failureDomains b.hops).length < b.policy.minimumDistinctFailureDomains then
      .error (.insufficientDiversity b.policy.minimumDistinctFailureDomains (failureDomains b.hops).length)
    else .ok {
      hops := b.hops, effectiveScope := b.effectiveScope, relayCount := b.relayCount
      distinctFailureDomains := (failureDomains b.hops).length } := by
  obtain ⟨distinct, same⟩ := domains_perm b.hops [] .nil
  have once : (failureDomains b.hops).Nodup := List.nodup_dedup _
  have counted := ((List.perm_ext_iff_of_nodup distinct once).mpr fun domain =>
    (same domain).trans (or_iff_right List.not_mem_nil)).length_eq
  unfold finish
  dsimp only
  rw [counted]

theorem finish_isOk : (∃ path, b.finish = .ok path) ↔ (b.hops = [] → b.policy.allowDirect = true) ∧
    b.policy.minimumDistinctFailureDomains ≤ (failureDomains b.hops).length := by
  rw [finish_eq]
  split_ifs with direct few
  · exact iff_of_false nofun fun allowed => by simp [allowed.1 direct.1] at direct
  · exact iff_of_false nofun fun allowed => few.not_ge allowed.2
  · exact iff_of_true ⟨_, rfl⟩ ⟨by simpa using direct, Nat.not_lt.mp few⟩

theorem finish_ok (finished : b.finish = .ok path) :
    path.hops = b.hops ∧ path.effectiveScope = b.effectiveScope ∧ path.relayCount = b.relayCount := by
  rw [finish_eq] at finished
  split_ifs at finished
  cases finished
  exact ⟨rfl, rfl, rfl⟩

/-- A sequence of calls of `push`: the hops that were accepted, and the builder. -/
def pushAll (b : PathBuilder) : List PathHop → List PathHop × PathBuilder
  | [] => ([], b)
  | hop :: rest =>
    match b.push hop with
    | (.ok (), b) => ((b.pushAll rest).1.cons hop, (b.pushAll rest).2)
    | (.error _, b) => b.pushAll rest

theorem pushAll_hops (b : PathBuilder) (offers : List PathHop) :
    (b.pushAll offers).2.hops = b.hops ++ (b.pushAll offers).1 ∧
      (b.pushAll offers).2.requestScope = b.requestScope ∧ (b.pushAll offers).2.exclusions = b.exclusions ∧
      (b.pushAll offers).2.policy = b.policy := by
  induction offers generalizing b with
  | nil => exact ⟨(List.append_nil _).symm, rfl, rfl, rfl⟩
  | cons hop rest ih =>
    rcases b.push_cases hop with ⟨e, refused⟩ | ⟨b', pushed, hops, scope, exclusions, policy⟩
    · rw [pushAll, refused]
      exact ih b
    · rw [pushAll, pushed]
      have after := ih b'
      rw [hops, scope, exclusions, policy, List.append_assoc] at after
      exact after

/-- What a builder has after any calls of `push`, accepted or not. It finishes with the accepted hops, except
that without `allow_direct` there must be a hop, and that the domains must be as many as the policy asks for. -/
theorem pushAll_invariant {scope : RouteScope} {exclusions : List Bytes} {policy : PathPolicy}
    (made : new scope exclusions policy = .ok b) (offers : List PathHop) : let accepted := (b.pushAll offers).1
    let after := (b.pushAll offers).2
    (accepted.map PathHop.peer).Nodup ∧ (∀ hop ∈ accepted, hop.peer ∉ exclusions) ∧
      (scope :: accepted.map PathHop.scope).Pairwise (fun a b => a.narrowsTo b = true) ∧
      accepted.length ≤ min policy.maxHops maxPathHops ∧
      after.relayCount = accepted.countP PathHop.relay ∧ after.relayCount ≤ min policy.maxRelays maxPathHops ∧
      after.hops = accepted ∧ (∀ path, after.finish = .ok path → path.hops = accepted) ∧
      ((∃ path, after.finish = .ok path) ↔ (accepted = [] → policy.allowDirect = true) ∧
        policy.minimumDistinctFailureDomains ≤ (failureDomains accepted).length) ∧
      ∀ hop e, (after.push hop).1 = .error e → (after.push hop).2 = after := by
  intro accepted after
  obtain ⟨hops, request, excluded, limits⟩ := b.pushAll_hops offers
  have start : b.hops = [] ∧ b.requestScope = scope ∧ b.exclusions = exclusions ∧ b.policy = { policy with
        maxHops := min policy.maxHops maxPathHops, maxRelays := min policy.maxRelays maxPathHops } := by
    unfold new at made
    split at made
    · cases made
    · split at made
      · cases made
      · cases made
        exact ⟨rfl, rfl, rfl, rfl⟩
  obtain ⟨empty, rfl, rfl, bounds⟩ := start
  rw [empty, List.nil_append] at hops
  rw [bounds] at limits
  have own : after.hops = accepted := hops
  have distinct := after.distinct
  have allowed := after.allowed
  have narrowing := after.narrowing
  have within := after.withinHops
  have relays := after.withinRelays
  rw [limits] at within relays
  rw [own] at distinct allowed within
  rw [own, request] at narrowing
  refine ⟨List.pairwise_map.mpr distinct, excluded ▸ allowed, narrowing, within, own ▸ after.counted, relays, own,
    fun path finished => (finish_ok finished).1.trans own, ?_, fun hop e failed => ?_⟩
  · rw [finish_isOk, own, limits]
  rcases after.push_cases hop with ⟨e, refused⟩ | ⟨b', pushed, -⟩
  · rw [refused]
  · rw [pushed] at failed
    cases failed

/-- A request in general scope under the default policy. -/
def anyPath : PathBuilder :=
  { requestScope := .general, effectiveScope := .general, exclusions := []
    policy := { maxHops := 32, maxRelays := 32, minimumDistinctFailureDomains := 0, allowDirect := true }
    hops := [], relayCount := 0, encodedBytes := 0
    bounded := nofun, distinct := .nil, allowed := nofun, narrowing := List.pairwise_singleton _ _
    effective := rfl, withinHops := Nat.zero_le _, counted := rfl, withinRelays := Nat.zero_le _
    limited := ⟨le_rfl, le_rfl⟩ }

/-- Of five hops a loop, an excluded peer and a second relay are refused. The other two have the two domains that
the policy asks for. -/
theorem pushAll_invariant_two_of_five :
    let hops := [⟨[1], .general, [7], true⟩, ⟨[1], .general, [8], false⟩, ⟨[9], .general, [8], false⟩,
      ⟨[2], .localMesh, [8], false⟩, ⟨[3], .linkLocal, [6], true⟩]
    ∃ b path, new .general [[9]] ⟨3, 1, 2, false⟩ = .ok b ∧ (b.pushAll hops).2.finish = .ok path ∧
      path.hops = [⟨[1], .general, [7], true⟩, ⟨[2], .localMesh, [8], false⟩] := by
  intro hops
  have made : new .general [[9]] ⟨3, 1, 2, false⟩ = .ok _ := rfl
  obtain ⟨-, -, -, -, -, -, -, carried, finishes, -⟩ := pushAll_invariant made hops
  obtain ⟨path, finished⟩ := finishes.mpr (by decide)
  exact ⟨_, path, made, finished, (carried path finished).trans (by decide)⟩

/-! ### The size of a path -/

theorem encode_metadata_isOk {f : RouteResponseFrame}
    (valid : ∃ bytes, { f with routeMetadata := [] }.encode = .ok bytes) :
    (∃ bytes, { f with routeMetadata := metadata }.encode = .ok bytes) ↔
      metadata.length ≤ RouteResponseFrame.maxRouteMetadata := by
  have word : RouteResponseFrame.maxRouteMetadata ≤ Varint.maxVarint := by decide
  unfold RouteResponseFrame.encode at valid ⊢
  simp only [refuse_bind_ok, exists_and_left, putVarint_bind_isOk, putBytes_bind_isOk, put, ok_bind] at valid ⊢
  obtain ⟨apart, type, id, sequence, lifetime, hint, hintWord, -, -, _, behind⟩ := valid
  obtain ⟨fits, bound, rfl⟩ := putBytes_ok.mp behind
  constructor
  · rintro ⟨-, -, -, -, -, -, -, within, -⟩
    exact within
  · intro within
    exact ⟨apart, type, id, sequence, lifetime, hint, hintWord, within, within.trans word, _,
      putBytes_ok.mpr ⟨fits, bound, rfl⟩⟩

theorem finish_encodes (finished : b.finish = .ok path) :
    ∃ metadata, encodePathMetadata path.hops = .ok metadata ∧
      metadata.length = 10 + (path.hops.map fun hop => 4 + hop.peer.length + hop.failureDomain.length).sum := by
  have few : path.hops.length ≤ maxPathHops := by
    rw [(finish_ok finished).1]
    exact b.withinHops.trans b.limited.1
  have bounded : ∀ hop ∈ path.hops, hop.Bounded := (finish_ok finished).1 ▸ b.bounded
  refine ⟨_, encodePathMetadata_ok.mpr ⟨few, bounded, rfl⟩, ?_⟩
  rw [pathBytes_length, List.length_flatMap]
  simp only [PathHop.bytes_length]

/-- The metadata of a finished path goes into a response that is valid otherwise exactly if it fits the limit of
the field, which the limits of the builder exceed. -/
theorem finish_carriable_iff {path : RoutePath} (finished : b.finish = .ok path) {f : RouteResponseFrame}
    (valid : ∃ bytes, { f with routeMetadata := [] }.encode = .ok bytes) :
    ∃ metadata, encodePathMetadata path.hops = .ok metadata ∧
      ((∃ bytes, { f with routeMetadata := metadata }.encode = .ok bytes) ↔
        10 + (path.hops.map fun hop => 4 + hop.peer.length + hop.failureDomain.length).sum ≤
          RouteResponseFrame.maxRouteMetadata) := by
  obtain ⟨metadata, encoded, size⟩ := finish_encodes finished
  exact ⟨metadata, encoded, size ▸ encode_metadata_isOk valid⟩

/-- A hop with the longest peer and failure domain. -/
def wideHop (index : Nat) : PathHop :=
  { peer := UInt8.ofNat index :: List.replicate 63 0, scope := .general
    failureDomain := List.replicate 64 1, relay := false }

def emptyResponse : RouteResponseFrame :=
  { requestId := 1, responseSequence := 0, direct := false, relayRequired := true, storeForwardAvailable := false
    localPath := false, gatewayPath := false, routeLifetime := 1000, nextHopHint := [], routeMetadata := []
    authentication := [] }

theorem emptyResponse_valid : ∃ bytes, { emptyResponse with routeMetadata := [] }.encode = .ok bytes :=
  ⟨_, rfl⟩

theorem finish_carriable_two_hops :
    ∃ path metadata, (anyPath.pushAll [wideHop 0, wideHop 1]).2.finish = .ok path ∧ path.hops.length = 2 ∧
      encodePathMetadata path.hops = .ok metadata ∧
      ∃ bytes, { emptyResponse with routeMetadata := metadata }.encode = .ok bytes := by
  obtain ⟨path, finished⟩ : ∃ path, (anyPath.pushAll [wideHop 0, wideHop 1]).2.finish = .ok path :=
    finish_isOk.mpr (by decide)
  have hops := (finish_ok finished).1
  obtain ⟨metadata, encoded, carried⟩ := finish_carriable_iff finished emptyResponse_valid
  refine ⟨path, metadata, finished, ?_, encoded, carried.mpr ?_⟩ <;> rw [hops] <;> decide

/-- Thirty-two hops of the longest names make a path of 4234 bytes. -/
theorem wide_path_not_carriable :
    ∃ path metadata, (anyPath.pushAll ((List.range 32).map wideHop)).2.finish = .ok path ∧
      encodePathMetadata path.hops = .ok metadata ∧ metadata.length = 4234 ∧
      ¬ ∃ bytes, { emptyResponse with routeMetadata := metadata }.encode = .ok bytes := by
  have built : ((anyPath.pushAll ((List.range 32).map wideHop)).2.finish.toOption.map fun path =>
      (path.hops.map fun hop => 4 + hop.peer.length + hop.failureDomain.length).sum) = some 4224 := by
    decide +kernel
  obtain ⟨path, finished, sum⟩ := Option.map_eq_some_iff.mp built
  obtain ⟨metadata, encoded, size⟩ := finish_encodes (ok_of_toOption finished)
  rw [sum] at size
  refine ⟨path, metadata, ok_of_toOption finished, encoded, size, ?_⟩
  rw [encode_metadata_isOk emptyResponse_valid, size]
  decide

end PathBuilder
end UniversalMesh.Routing
