import UniversalMesh.Lib.Run
import UniversalMesh.Lib.Codec
import UniversalMesh.Wire.Varint

/-! `umc-relay`: one relay circuit. `circuit.rs` has its lifetime, quota and sequence counters, `forward.rs` the
admission of one `RELAY_DATA` payload, `close.rs` the way out, and `admission.rs` the decision on a
`RELAY_OPEN`. Times are milliseconds and saturate; counters that the source increments with `+= 1` wrap. -/
namespace UniversalMesh.Relay
open MachineWord Wire

section

variable {circuitId lifetimeMs byteQuota : Nat} {bidirectional privateHandling : Bool}

/-- Why a call does not come back: a panic, or a loop that has no end. -/
inductive Halt where
  | panic | loop
  deriving DecidableEq, Repr

/-- `Ord::clamp`, which asserts that its bounds are in order. -/
def clamp (value low high : Nat) : Except Halt Nat :=
  if low ≤ high then .ok (max low (min value high)) else .error .panic

theorem clamp_ok : clamp value low high = .ok result ↔ low ≤ high ∧ result = max low (min value high) := by
  unfold clamp
  split <;> simp [*, eq_comm]

inductive CircuitState where
  | opening | active | halfClosedUpstream | halfClosedDownstream | closing | draining | closed
  deriving DecidableEq, Repr

def maxLifetimeMs : Nat := 24 * 60 * 60 * 1000

def defaultIdleTimeoutMs : Nat := 2 * 60 * 1000

def drainPeriodMs : Nat := 1000

inductive QuotaError where
  | exhausted | overflow
  deriving DecidableEq, Repr

structure Circuit where
  circuitId : Nat
  state : CircuitState
  (createdAt expiresAt idleDeadline grantedByteQuota bytesForwarded nextRelaySequence : Nat)
  peerNextRelaySequence : Nat
  (lastAcceptedData downstream : Option Bytes)
  (privateHandling bidirectional : Bool)
  lastActivity : Nat
  deriving DecidableEq, Repr

namespace Circuit

def new (circuitId now lifetimeMs byteQuota : Nat) (bidirectional privateHandling : Bool) :
    Except Halt Circuit := do
  let lifetime := max 1000 (min lifetimeMs maxLifetimeMs)
  let expiresAt := saturatingAdd now lifetime
  let idleDeadline ← clamp (saturatingAdd now defaultIdleTimeoutMs) now expiresAt
  return {
    circuitId, state := .opening, createdAt := now, expiresAt, idleDeadline
    grantedByteQuota := byteQuota, bytesForwarded := 0, nextRelaySequence := 0, peerNextRelaySequence := 0
    lastAcceptedData := none, downstream := none, privateHandling, bidirectional, lastActivity := now }

/-- `touch`: the idle deadline moves on, within the granted lifetime. -/
def touch (c : Circuit) (now : Nat) : Except Halt Circuit := do
  let idleDeadline ← clamp (saturatingAdd now defaultIdleTimeoutMs) now c.expiresAt
  return { c with lastActivity := now, idleDeadline }

def isExpired (c : Circuit) (now : Nat) : Bool := c.expiresAt ≤ now

def isIdle (c : Circuit) (now : Nat) : Bool := c.idleDeadline ≤ now

def charge (c : Circuit) (bytes : Nat) : Except QuotaError Circuit :=
  match checkedAdd c.bytesForwarded bytes with
  | none => .error .overflow
  | some newTotal =>
    if newTotal > c.grantedByteQuota then .error .exhausted else .ok { c with bytesForwarded := newTotal }

def allocateSequence (c : Circuit) : Nat × Circuit :=
  (c.peerNextRelaySequence, { c with peerNextRelaySequence := (c.peerNextRelaySequence + 1) % 2 ^ 64 })

def accept (c : Circuit) (now : Nat) : Except Halt Circuit :=
  { c with state := .active }.touch now

variable {c c' : Circuit} {now : Nat}

theorem new_ok :
    new circuitId now lifetimeMs byteQuota bidirectional privateHandling = .ok c ↔
      let expiresAt := saturatingAdd now (max 1000 (min lifetimeMs maxLifetimeMs))
      now ≤ expiresAt ∧
        c = {
          circuitId, state := .opening, createdAt := now, expiresAt
          idleDeadline := max now (min (saturatingAdd now defaultIdleTimeoutMs) expiresAt)
          grantedByteQuota := byteQuota, bytesForwarded := 0, nextRelaySequence := 0
          peerNextRelaySequence := 0, lastAcceptedData := none, downstream := none, privateHandling
          bidirectional, lastActivity := now } := by
  rw [new, bind_ok]
  constructor
  · rintro ⟨idleDeadline, clamped, made⟩
    obtain ⟨inOrder, rfl⟩ := clamp_ok.mp clamped
    cases made
    exact ⟨inOrder, rfl⟩
  · rintro ⟨inOrder, rfl⟩
    exact ⟨_, clamp_ok.mpr ⟨inOrder, rfl⟩, rfl⟩

theorem new_of_word (word : now ≤ u64Max) :
    ∃ c, new circuitId now lifetimeMs byteQuota bidirectional privateHandling = .ok c := by
  refine ⟨_, new_ok.mpr ⟨?_, rfl⟩⟩
  exact le_min (Nat.le_add_right _ _) word

theorem touch_ok : c.touch now = .ok c' ↔ now ≤ c.expiresAt ∧
    c' = { c with
      lastActivity := now
      idleDeadline := max now (min (saturatingAdd now defaultIdleTimeoutMs) c.expiresAt) } := by
  rw [touch, bind_ok]
  constructor
  · rintro ⟨idleDeadline, clamped, touched⟩
    obtain ⟨inOrder, rfl⟩ := clamp_ok.mp clamped
    cases touched
    exact ⟨inOrder, rfl⟩
  · rintro ⟨inOrder, rfl⟩
    exact ⟨_, clamp_ok.mpr ⟨inOrder, rfl⟩, rfl⟩

theorem touch_of_lt (late : c.expiresAt < now) : c.touch now = .error .panic := by
  rw [touch, clamp, if_neg (by omega)]
  rfl

theorem charge_ok (charged : c.charge bytes = .ok c') : c.bytesForwarded + bytes ≤ c.grantedByteQuota ∧
      c' = { c with bytesForwarded := c.bytesForwarded + bytes } := by
  unfold charge at charged
  split at charged
  · cases charged
  · next newTotal summed =>
    obtain ⟨-, rfl⟩ := checkedAdd_some.mp summed
    split at charged
    · cases charged
    · cases charged
      exact ⟨by omega, rfl⟩

end Circuit

/-! ### `forward.rs` -/

inductive ForwardError where
  | unknownCircuit | closed | sequenceConflict | duplicateDiscarded | payloadTooLarge
  | quota (error : QuotaError) | emptyData | finalSequenceExceeded
  deriving DecidableEq, Repr

structure ForwardResult where
  (circuitId sequence : Nat)
  data : Bytes
  fin : Bool
  downstream : Option Bytes
  deriving DecidableEq, Repr

namespace Circuit

variable (c : Circuit)

/-- The end of `accept_upstream_data`, for a payload under a new sequence number. -/
def takeNew (sequence : Nat) (fin : Bool) (data : Bytes) : Except ForwardError ForwardResult × Circuit :=
  let c := { c with nextRelaySequence := (sequence + 1) % 2 ^ 64 }
  match c.charge data.length with
  | .error e => (.error (.quota e), c)
  | .ok c =>
    (.ok { circuitId := c.circuitId, sequence, data, fin, downstream := c.downstream },
      { c with lastAcceptedData := some data })

/-- `accept_upstream_data`. The sequence number is used up even when the quota refuses the payload, and an exact
duplicate is told from a conflict by the last payload alone. -/
def acceptUpstreamData (sequence : Nat) (fin : Bool) (data : Bytes) (maxPayload : Nat) :
    Except ForwardError ForwardResult × Circuit :=
  if data.length > maxPayload then (.error .payloadTooLarge, c)
  else if data.isEmpty && !fin then (.error .emptyData, c)
  else if c.state = .closed ∨ c.state = .draining then (.error .closed, c)
  else if sequence < c.nextRelaySequence then
    if c.lastAcceptedData = some data then (.error .duplicateDiscarded, c) else (.error .sequenceConflict, c)
  else c.takeNew sequence fin data

/-- The tests on a payload and on the state of the circuit that come before the sequence number. -/
def refuses (fin : Bool) (data : Bytes) (maxPayload : Nat) : Prop :=
  maxPayload < data.length ∨ (data.isEmpty && !fin) = true ∨ c.state = .closed ∨ c.state = .draining
  deriving Decidable

theorem acceptUpstreamData_refused (sequence : Nat) (refused : c.refuses fin data maxPayload) :
    ∃ e, e ≠ .duplicateDiscarded ∧ e ≠ .sequenceConflict ∧
      c.acceptUpstreamData sequence fin data maxPayload = (.error e, c) := by
  unfold acceptUpstreamData
  by_cases large : data.length > maxPayload
  · exact ⟨_, by decide, by decide, if_pos large⟩
  by_cases empty : (data.isEmpty && !fin) = true
  · exact ⟨.emptyData, by decide, by decide, by rw [if_neg large, if_pos empty]⟩
  have finished := (refused.resolve_left large).resolve_left empty
  exact ⟨.closed, by decide, by decide, by rw [if_neg large, if_neg empty, if_pos finished]⟩

theorem acceptUpstreamData_passes {sequence : Nat} (passes : ¬ c.refuses fin data maxPayload) :
    c.acceptUpstreamData sequence fin data maxPayload =
      if sequence < c.nextRelaySequence then
        (.error (if c.lastAcceptedData = some data then .duplicateDiscarded else .sequenceConflict), c)
      else c.takeNew sequence fin data := by
  obtain ⟨fits, filled, opened⟩ := not_or.mp passes |>.imp_right not_or.mp
  rw [acceptUpstreamData, if_neg fits, if_neg filled, if_neg opened]
  congr 1
  split <;> rfl

/-- The answer to a number that was used up before, by the last payload alone. -/
theorem acceptUpstreamData_old {sequence : Nat}
    (passes : ¬ c.refuses fin data maxPayload) (old : sequence < c.nextRelaySequence) :
    c.acceptUpstreamData sequence fin data maxPayload =
      (.error (if c.lastAcceptedData = some data then .duplicateDiscarded else .sequenceConflict), c) := by
  rw [c.acceptUpstreamData_passes passes, if_pos old]

theorem takeNew_cases (sequence : Nat) (fin : Bool) (data : Bytes) :
    (∃ e, c.takeNew sequence fin data =
        (.error (.quota e), { c with nextRelaySequence := (sequence + 1) % 2 ^ 64 })) ∨
      c.bytesForwarded + data.length ≤ c.grantedByteQuota ∧ c.takeNew sequence fin data =
        (.ok { circuitId := c.circuitId, sequence, data, fin, downstream := c.downstream },
          { c with
            nextRelaySequence := (sequence + 1) % 2 ^ 64
            bytesForwarded := c.bytesForwarded + data.length
            lastAcceptedData := some data }) := by
  unfold takeNew
  dsimp only
  cases charged : { c with nextRelaySequence := (sequence + 1) % 2 ^ 64 }.charge data.length with
  | error e => exact .inl ⟨e, rfl⟩
  | ok c' =>
    obtain ⟨room, rfl⟩ := charge_ok charged
    exact .inr ⟨room, rfl⟩

/-- The payload is refused and the circuit left alone, is an exact duplicate, uses up the sequence number
without room in the quota, or is taken. -/
theorem acceptUpstreamData_cases (sequence : Nat) (fin : Bool) (data : Bytes) (maxPayload : Nat) :
    let outcome := c.acceptUpstreamData sequence fin data maxPayload
    (∃ e, e ≠ .duplicateDiscarded ∧ outcome = (.error e, c)) ∨
      ¬ c.refuses fin data maxPayload ∧ sequence < c.nextRelaySequence ∧ c.lastAcceptedData = some data ∧
        outcome = (.error .duplicateDiscarded, c) ∨
      (∃ e, c.nextRelaySequence ≤ sequence ∧
        outcome = (.error (.quota e), { c with nextRelaySequence := (sequence + 1) % 2 ^ 64 })) ∨
      ¬ c.refuses fin data maxPayload ∧ c.nextRelaySequence ≤ sequence ∧
        c.bytesForwarded + data.length ≤ c.grantedByteQuota ∧
        outcome = (.ok { circuitId := c.circuitId, sequence, data, fin, downstream := c.downstream },
          { c with
            nextRelaySequence := (sequence + 1) % 2 ^ 64
            bytesForwarded := c.bytesForwarded + data.length
            lastAcceptedData := some data }) := by
  dsimp only
  by_cases refused : c.refuses fin data maxPayload
  · obtain ⟨e, other, -, answer⟩ := c.acceptUpstreamData_refused sequence refused
    exact .inl ⟨e, other, answer⟩
  rw [c.acceptUpstreamData_passes refused]
  by_cases old : sequence < c.nextRelaySequence
  · rw [if_pos old]
    by_cases same : c.lastAcceptedData = some data
    · exact .inr (.inl ⟨refused, old, same, by rw [if_pos same]⟩)
    · exact .inl ⟨.sequenceConflict, by decide, by rw [if_neg same]⟩
  · rw [if_neg old]
    rcases c.takeNew_cases sequence fin data with ⟨e, answer⟩ | ⟨room, answer⟩
    · exact .inr (.inr (.inl ⟨e, Nat.not_lt.mp old, answer⟩))
    · exact .inr (.inr (.inr ⟨refused, Nat.not_lt.mp old, room, answer⟩))

/-- A second `FIN` from one side is an error; only an active circuit becomes half closed. -/
def applyFin (fromUpstream : Bool) : Except ForwardError Circuit :=
  if fromUpstream then
    if c.state = .halfClosedUpstream then .error .finalSequenceExceeded
    else if c.state = .active then .ok { c with state := .halfClosedUpstream } else .ok c
  else
    if c.state = .halfClosedDownstream then .error .finalSequenceExceeded
    else if c.state = .active then .ok { c with state := .halfClosedDownstream } else .ok c

theorem applyFin_ok (open_ : c.state ≠ .halfClosedUpstream) :
    ∃ state, c.applyFin true = .ok { c with state } := by
  rw [applyFin, if_pos rfl, if_neg open_]
  split
  · exact ⟨_, rfl⟩
  · exact ⟨c.state, rfl⟩

end Circuit

/-! ### `close.rs` -/

inductive RelayReason where
  | noError | refused | authFailed | noRoute | downstreamFailed | upstreamFailed | quotaExhausted
  | expired | idleTimeout | resourceLimit | policyRevoked | protocolError | payloadTooLarge
  | emergencyShutdown
  deriving DecidableEq, Repr

namespace Circuit

/-- `close_circuit`; the reason is handed back to the caller as it is. -/
def closeCircuit (c : Circuit) (now : Nat) : Circuit :=
  { c with state := .closing, idleDeadline := saturatingAdd now drainPeriodMs }

def drainCircuit (c : Circuit) (now : Nat) : Circuit :=
  if now < c.idleDeadline then c
  else
    match c.state with
    | .closing => { c with state := .draining, idleDeadline := saturatingAdd now drainPeriodMs }
    | .draining => { c with state := .closed }
    | _ => c

def expiryReason (c : Circuit) (now : Nat) : Option RelayReason :=
  if c.isExpired now then some .expired else if c.isIdle now then some .idleTimeout else none

end Circuit

/-! ### `admission.rs` -/

inductive RelayPolicy where
  | disabled | friendsOnly | community | publicRelay
  deriving DecidableEq, Repr

inductive AdmissionDecision where
  | accepted (grantedLifetimeMs grantedByteQuota maximumRelayPayload : Nat) | refused | noRoute
  | authFailed | resourceLimit | unsupportedFlags
  deriving DecidableEq, Repr

structure AdmissionLimits where
  policy : RelayPolicy
  (maxCircuitsPerPeer maxLifetimeMs maxByteQuota maxPayload : Nat)
  allowMultipath : Bool
  maxMultipathPaths : Nat
  deriving DecidableEq, Repr

/-- `AdmissionLimits::default` with the policy a new service has. -/
def AdmissionLimits.community : AdmissionLimits :=
  { policy := .community, maxCircuitsPerPeer := 4, maxLifetimeMs := 10 * 60 * 1000
    maxByteQuota := 256 * 1024 * 1024, maxPayload := 64 * 1024, allowMultipath := true
    maxMultipathPaths := 4 }

/-- `evaluate_open`: the policy on a request to open a circuit. -/
def evaluateOpen (limits : AdmissionLimits) (peerCircuits requestedLifetimeMs requestedByteQuota : Nat)
    (flags : UInt8) : AdmissionDecision :=
  if limits.policy = .disabled then .refused
  else if flags &&& 0xF0 ≠ 0 then .unsupportedFlags
  else if flags &&& 0x08 ≠ 0 ∧ (limits.allowMultipath = false ∨ limits.maxMultipathPaths < 2) then
    .unsupportedFlags
  else if peerCircuits ≥ limits.maxCircuitsPerPeer then .resourceLimit
  else if requestedLifetimeMs > Relay.maxLifetimeMs then .refused
  else if requestedLifetimeMs > limits.maxLifetimeMs then .refused
  else
    -- a request of zero takes what the policy has
    .accepted (if requestedLifetimeMs = 0 then limits.maxLifetimeMs else requestedLifetimeMs)
      (if requestedByteQuota = 0 then limits.maxByteQuota else min requestedByteQuota limits.maxByteQuota)
      limits.maxPayload

end

/-! Replayed and refused `RELAY_DATA`, and FINs. A circuit keeps the sequence number it expects and the payload
it took last; here both are compared with everything it ever took. -/

/-- One call of `accept_upstream_data`. -/
structure Offer where
  sequence : Nat
  fin : Bool
  data : Bytes
  maxPayload : Nat

/-- A circuit with what it accepted so far, the newest first. -/
structure Intake where
  circuit : Circuit
  accepted : List (Nat × Bytes)

namespace Intake

def offer (i : Intake) (o : Offer) : Intake :=
  let (answer, circuit) := i.circuit.acceptUpstreamData o.sequence o.fin o.data o.maxPayload
  { circuit, accepted := answer.toOption.toList.map (fun r => (r.sequence, r.data)) ++ i.accepted }

/-- The circuit expects a number above all it accepted, and remembers the newest payload. -/
structure Ordered (i : Intake) : Prop where
  decreasing : i.accepted.Pairwise fun newer older => older.1 < newer.1
  below : ∀ taken ∈ i.accepted, taken.1 < i.circuit.nextRelaySequence
  newest : ∀ taken ∈ i.accepted.head?, i.circuit.lastAcceptedData = some taken.2

variable {i : Intake} {o : Offer}

theorem Ordered.offer (ordered : i.Ordered) (word : o.sequence < u64Max) : (i.offer o).Ordered := by
  have next : (o.sequence + 1) % 2 ^ 64 = o.sequence + 1 := Nat.mod_eq_of_lt (by unfold u64Max at word; omega)
  unfold Intake.offer
  rcases i.circuit.acceptUpstreamData_cases o.sequence o.fin o.data o.maxPayload with
    ⟨e, _, answer⟩ | ⟨_, _, _, answer⟩ | ⟨e, reached, answer⟩ | ⟨_, reached, _, answer⟩
  · rw [answer]
    exact ordered
  · rw [answer]
    exact ordered
  · rw [answer]
    -- the number is used up although nothing was accepted
    refine ⟨ordered.decreasing, fun taken member => ?_, ordered.newest⟩
    show taken.1 < (o.sequence + 1) % 2 ^ 64
    have := ordered.below taken member
    omega
  · rw [answer]
    have above (taken : Nat × Bytes) (member : taken ∈ i.accepted) : taken.1 < o.sequence :=
      (ordered.below taken member).trans_le reached
    refine ⟨List.pairwise_cons.mpr ⟨above, ordered.decreasing⟩, ?_, ?_⟩
    · rw [next]
      exact List.forall_mem_cons.mpr ⟨Nat.lt_succ_self _, fun taken member => Nat.lt_succ_of_lt (above taken member)⟩
    · rintro taken ⟨⟩
      rfl

theorem Ordered.offers {offers : List Offer} (ordered : i.Ordered)
    (words : ∀ o ∈ offers, o.sequence < u64Max) : (offers.foldl Intake.offer i).Ordered :=
  Run.invariant_of_meets (fun _ _ ordered word => ordered.offer word) ordered (Run.meets_of_forall words i)

/-- Below the last sequence number nothing is forwarded twice. A number that was accepted before is answered as
it should be, a duplicate for the bytes accepted under it and a conflict for others, exactly if the frame passes
the checks before that of its number, and comparing with the bytes accepted last comes to the same. -/
theorem replay_answer_iff (c : Circuit) (offers : List Offer) (words : ∀ o ∈ offers, o.sequence < u64Max) :
    let i := offers.foldl Intake.offer { circuit := c, accepted := [] }
    (i.accepted.map Prod.fst).Nodup ∧
      ∀ taken ∈ i.accepted, ∀ fin data maxPayload,
        ((i.circuit.acceptUpstreamData taken.1 fin data maxPayload).1 =
            .error (if data = taken.2 then .duplicateDiscarded else .sequenceConflict) ↔
          ¬ i.circuit.refuses fin data maxPayload ∧
            (data = taken.2 ↔ i.accepted.head?.map Prod.snd = some data)) := by
  intro i
  have ordered : i.Ordered := Ordered.offers ⟨.nil, nofun, nofun⟩ words
  refine ⟨List.pairwise_map.mpr (ordered.decreasing.imp fun less => less.ne'), ?_⟩
  intro taken member fin data maxPayload
  by_cases refused : i.circuit.refuses fin data maxPayload
  · obtain ⟨e, other, another, answer⟩ := i.circuit.acceptUpstreamData_refused taken.1 refused
    rw [answer]
    exact iff_of_false (by split <;> simpa) fun passes => passes.1 refused
  rw [i.circuit.acceptUpstreamData_old refused (ordered.below taken member), and_iff_right refused]
  obtain ⟨newest, first⟩ : ∃ newest, i.accepted.head? = some newest := by
    cases held : i.accepted with
    | nil => simp [held] at member
    | cons newest rest => exact ⟨newest, rfl⟩
  rw [ordered.newest newest first, first, Option.map_some]
  by_cases same : data = taken.2 <;> by_cases last : newest.2 = data <;> simp [same, last]

def openCircuit : Circuit :=
  { circuitId := 1, state := .active, createdAt := 0, expiresAt := 600000, idleDeadline := 120000
    grantedByteQuota := 1000, bytesForwarded := 0, nextRelaySequence := 0, peerNextRelaySequence := 0
    lastAcceptedData := none, downstream := none, privateHandling := false, bidirectional := true
    lastActivity := 0 }

/-- The circuit of a run of payloads, each within a limit of 64 bytes. -/
def afterData (payloads : List (Nat × Bytes)) : Intake :=
  (payloads.map fun (sequence, data) => ⟨sequence, false, data, 64⟩).foldl offer
    { circuit := openCircuit, accepted := [] }

theorem replay_answer_last :
    ((afterData [(0, [1]), (3, [2])]).circuit.acceptUpstreamData 3 false [2] 64).1 = .error .duplicateDiscarded ∧
      ((afterData [(0, [1]), (3, [2])]).circuit.acceptUpstreamData 0 false [4] 64).1 = .error .sequenceConflict := by
  have answers := (replay_answer_iff openCircuit [⟨0, false, [1], 64⟩, ⟨3, false, [2], 64⟩] (by decide)).2
  exact ⟨(answers (3, [2]) (by decide) false [2] 64).mpr (by decide),
    (answers (0, [1]) (by decide) false [4] 64).mpr (by decide)⟩

/-- After a second payload the first is taken for a conflict, and the second under the number of the first for a
duplicate. After the last sequence number the numbers begin again, and are forwarded again. -/
theorem replay_misjudged :
    (afterData [(0, [1]), (1, [2])]).accepted = [(1, [2]), (0, [1])] ∧
      ((afterData [(0, [1]), (1, [2])]).circuit.acceptUpstreamData 0 false [1] 64).1 = .error .sequenceConflict ∧
      ((afterData [(0, [1]), (1, [2])]).circuit.acceptUpstreamData 0 false [2] 64).1 =
        .error .duplicateDiscarded ∧
      ((afterData [(0, [1]), (u64Max, [2]), (0, [3])]).accepted.map Prod.fst) = [0, u64Max, 0] := by
  decide

end Intake

namespace Circuit
variable {c : Circuit} {sequence maxPayload : Nat} {fin : Bool} {data : Bytes} {e : ForwardError}

/-- A refused payload leaves the payload taken last and the bytes charged. The expected sequence number stays
too, unless the payload got as far as the quota: it passed the checks under a new number. -/
theorem error_keeps_iff (failed : (c.acceptUpstreamData sequence fin data maxPayload).1 = .error e) :
    let c' := (c.acceptUpstreamData sequence fin data maxPayload).2
    c'.lastAcceptedData = c.lastAcceptedData ∧ c'.bytesForwarded = c.bytesForwarded ∧
      (c'.nextRelaySequence = c.nextRelaySequence ↔
        c.refuses fin data maxPayload ∨ sequence < c.nextRelaySequence ∨
          (sequence + 1) % 2 ^ 64 = c.nextRelaySequence) := by
  by_cases refused : c.refuses fin data maxPayload
  · obtain ⟨_, -, -, answer⟩ := c.acceptUpstreamData_refused sequence refused
    rw [answer]
    exact ⟨rfl, rfl, iff_of_true rfl (.inl refused)⟩
  by_cases old : sequence < c.nextRelaySequence
  · rw [c.acceptUpstreamData_old refused old]
    exact ⟨rfl, rfl, iff_of_true rfl (.inr (.inl old))⟩
  rw [c.acceptUpstreamData_passes refused, if_neg old] at failed ⊢
  rw [or_iff_right refused, or_iff_right old]
  rcases c.takeNew_cases sequence fin data with ⟨_, answer⟩ | ⟨_, answer⟩
  · rw [answer]
    exact ⟨rfl, rfl, Iff.rfl⟩
  · rw [answer] at failed
    cases failed

theorem error_keeps_too_large :
    (Intake.openCircuit.acceptUpstreamData 0 false [1, 2] 1).2.nextRelaySequence = 0 :=
  (error_keeps_iff (c := Intake.openCircuit) (e := .payloadTooLarge) rfl).2.2.mpr (by decide)

/-- A payload beyond the quota of one byte uses up its number: one that fits is a conflict under it. -/
theorem quota_refusal_uses_number :
    let refused := { Intake.openCircuit with grantedByteQuota := 1 }.acceptUpstreamData 0 false [1, 2] 64
    refused.1 = .error (.quota .exhausted) ∧ refused.2.nextRelaySequence = 1 ∧
      (refused.2.acceptUpstreamData 0 false [1] 64).1 = .error .sequenceConflict := by
  decide

/-- The circuit after FINs, each from upstream or from downstream. -/
def afterFins (c : Circuit) (fins : List Bool) : Circuit :=
  fins.foldl (fun c fromUpstream => (c.applyFin fromUpstream).toOption.getD c) c

/-- The state in which one direction is over. -/
def halfClosed (fromUpstream : Bool) : CircuitState :=
  if fromUpstream then .halfClosedUpstream else .halfClosedDownstream

/-- The first FIN of a direction is accepted, a later one refused, and a circuit that both directions have
finished is not half-closed. -/
def FinsHandled (c : Circuit) (fins : List Bool) : Prop :=
  (∀ earlier fin, earlier ++ [fin] <+: fins → ((c.afterFins earlier).applyFin fin).map (fun _ => ()) =
    if fin ∈ earlier then .error .finalSequenceExceeded else .ok ()) ∧
  (true ∈ fins → false ∈ fins → ∀ fin, (c.afterFins fins).state ≠ halfClosed fin)

theorem applyFin_active (active : c.state = .active) :
    c.applyFin fin = .ok { c with state := halfClosed fin } := by
  cases fin <;> simp [applyFin, active, halfClosed]

theorem applyFin_halfClosed (half : c.state = halfClosed first) :
    c.applyFin fin = if fin = first then .error .finalSequenceExceeded else .ok c := by
  cases first <;> cases fin <;> simp_all [applyFin, halfClosed]

/-- The first FIN decides the state for good. -/
theorem afterFins_state (active : c.state = .active) :
    (c.afterFins (first :: rest)).state = halfClosed first := by
  have stays (rest : List Bool) (c : Circuit) (half : c.state = halfClosed first) :
      (c.afterFins rest).state = halfClosed first := by
    induction rest with
    | nil => exact half
    | cons fin rest ih =>
      have same : (c.applyFin fin).toOption.getD c = c := by
        rw [applyFin_halfClosed half]
        split <;> rfl
      rwa [afterFins, List.foldl_cons, same]
  refine stays rest _ ?_
  simp only [applyFin_active active]
  rfl

/-- On an active circuit FINs are handled so only if all of them come from one direction. -/
theorem fins_handled_iff (active : c.state = .active) (fins : List Bool) :
    c.FinsHandled fins ↔ ¬ (true ∈ fins ∧ false ∈ fins) := by
  constructor
  · rintro ⟨-, finished⟩ ⟨up, down⟩
    cases fins with
    | nil => cases up
    | cons first rest => exact finished up down first (afterFins_state active)
  · intro single
    refine ⟨fun earlier fin begins => ?_, fun up down => absurd ⟨up, down⟩ single⟩
    cases earlier with
    | nil => rw [afterFins, List.foldl_nil, applyFin_active active]; rfl
    | cons first rest =>
      have same : fin = first := by
        have here : fin ∈ fins := begins.subset (by simp)
        have there : first ∈ fins := begins.subset (by simp)
        cases fin <;> cases first <;> simp_all
      rw [applyFin_halfClosed (afterFins_state active), if_pos same, if_pos (same ▸ List.mem_cons_self)]
      rfl

theorem fins_handled_upstream : Intake.openCircuit.FinsHandled [true, true] :=
  (fins_handled_iff rfl _).mpr (by decide)

/-- After FINs from both directions the circuit is half-closed, and takes the second one again. -/
theorem both_fins_half_closed :
    (Intake.openCircuit.afterFins [true, false]).state = .halfClosedUpstream ∧
      ((Intake.openCircuit.afterFins [true, false]).applyFin false).isOk = true := by
  decide

end Circuit
end UniversalMesh.Relay
