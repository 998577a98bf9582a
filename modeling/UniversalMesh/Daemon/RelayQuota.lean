import UniversalMesh.Daemon.RelayReceipts

/-! The byte quota of a circuit over the life of the daemon. A running service charges a circuit for every new
payload and refuses what the quota does not cover. The record of a circuit does not have the bytes it was
charged, so a restart grants the whole quota again. -/
namespace UniversalMesh.Daemon
open Wire Relay OrderedMap RelayService

namespace RelayService

/-- The new payload bytes among released frames, up to the first that is refused. -/
def bytesReleased (source now : Nat) : RelayService → List (Nat × Bytes) → Nat
  | _, [] => 0
  | s, (sequence, data) :: rest =>
    let ((fin, _, _), s) := s.takeMetadata source sequence
    match s.acceptUpstreamSingle source sequence fin data now with
    | .ok (.ok new, s) => (if new then data.length else 0) + bytesReleased source now s rest
    | _ => 0

/-- The new payload bytes that `accept_upstream_frames` accepts; a frame that waits in the scheduler counts when
it is released. -/
def bytesAccepted (s : RelayService) (arrival : Arrival) : Nat :=
  let source := s.logicalSource arrival.circuitId
  match s.multipath.get? source with
  | some scheduler =>
    match scheduler.accept arrival.sequence arrival.data with
    | (.ok (.delivered released), scheduler) =>
      bytesReleased source arrival.now ((s.putScheduler source scheduler).remember source arrival) released
    | _ => 0
  | none =>
    match s.acceptUpstreamSingle arrival.circuitId arrival.sequence arrival.fin arrival.data arrival.now with
    | .ok (.ok true, _) => arrival.data.length
    | _ => 0

/-- The circuit is charged for some bytes, within the quota, and no other circuit changes. -/
structure Charged (circuitId bytes : Nat) (s s' : RelayService) : Prop where
  others : ∀ {id : Nat}, id ≠ circuitId → s'.circuits.get? id = s.circuits.get? id
  receipt : ∀ {c' : Circuit}, s'.circuits.get? circuitId = some c' →
    ∃ c, s.circuits.get? circuitId = some c ∧ c'.bytesForwarded = c.bytesForwarded + bytes ∧
      c'.grantedByteQuota = c.grantedByteQuota ∧
      (c.bytesForwarded ≤ c.grantedByteQuota → c'.bytesForwarded ≤ c'.grantedByteQuota)

variable {s s' s'' : RelayService} {circuitId sequence now : Nat} {fin : Bool} {data : Bytes}

theorem Charged.of_eq (same : s'.circuits = s.circuits) : Charged circuitId 0 s s' where
  others _ := by rw [same]
  receipt found := ⟨_, same ▸ found, rfl, rfl, fun within => within⟩

theorem Charged.trans (first : Charged circuitId bytes s s')
    (second : Charged circuitId later s' s'') : Charged circuitId (bytes + later) s s'' where
  others differs := (second.others differs).trans (first.others differs)
  receipt found := by
    obtain ⟨c', found', grown', quota', within'⟩ := second.receipt found
    obtain ⟨c, held, grown, quota, within⟩ := first.receipt found'
    refine ⟨c, held, ?_, quota'.trans quota, fun room => within' (within room)⟩
    rw [grown', grown, Nat.add_assoc]

theorem putCircuit_charged (held : s.circuits.get? circuitId = some c)
    (grown : c'.bytesForwarded = c.bytesForwarded + bytes) (quota : c'.grantedByteQuota = c.grantedByteQuota)
    (within : c.bytesForwarded ≤ c.grantedByteQuota → c'.bytesForwarded ≤ c'.grantedByteQuota)
    (circuits : s'.circuits = (s.putCircuit circuitId c').circuits) : Charged circuitId bytes s s' where
  others differs := by rw [circuits, putCircuit, get?_insert_of_ne differs]
  receipt found := by
    rw [circuits, putCircuit, get?_insert_self] at found
    cases found
    exact ⟨c, held, grown, quota, within⟩

theorem acceptUpstreamSingle_charged
    (accepted : s.acceptUpstreamSingle circuitId sequence fin data now = .ok (result, s')) :
    Charged circuitId (if result = .ok true then data.length else 0) s s' := by
  cases acceptUpstreamSingle_cases accepted with
  | refused => exact .of_eq rfl
  | duplicate => exact .of_eq rfl
  | @beyond c _ held =>
    let c' := { c with nextRelaySequence := (sequence + 1) % 2 ^ 64 }
    have grown : c'.bytesForwarded = c.bytesForwarded + 0 := rfl
    exact putCircuit_charged held grown rfl (fun within => within) rfl
  | taken held _ taken =>
    refine putCircuit_charged held taken.charged taken.quota (fun _ => ?_) (persistCircuit_circuits _ _)
    rw [taken.charged, taken.quota]
    exact taken.room

theorem acceptReleased_charged (accepted : acceptReleased arrived circuitId now s released = .ok (answer, s')) :
    Charged circuitId (bytesReleased circuitId now s released) s s' := by
  induction released generalizing s answer with
  | nil =>
    cases accepted
    exact .of_eq rfl
  | cons frame rest ih =>
    obtain ⟨sequence, data⟩ := frame
    obtain ⟨result, s₁, single, next⟩ := acceptReleased_cons accepted
    have forgotten : Charged circuitId 0 s (s.takeMetadata circuitId sequence).2 := .of_eq rfl
    have charged := forgotten.trans (acceptUpstreamSingle_charged single)
    rw [bytesReleased]
    dsimp only
    rw [single]
    rcases next with ⟨e, rfl, rfl, rfl⟩ | ⟨new, later, frame, rfl, released, rfl, -⟩
    · simpa using charged
    · simpa using charged.trans (ih released)

theorem acceptUpstreamFrames_charged (accepted : s.acceptUpstreamFrames arrival = .ok (answer, s')) :
    Charged (s.chargedCircuit arrival.circuitId) (s.bytesAccepted arrival) s s' := by
  unfold bytesAccepted chargedCircuit
  dsimp only
  rcases acceptUpstreamFrames_cases accepted with
    ⟨none, result, single, -⟩ | ⟨m, received, m', scheduled, result, ⟨waits, -, after⟩ | ⟨released, rfl, rest⟩⟩
  · have charged := acceptUpstreamSingle_charged single
    rw [none]
    rw [single]
    rcases result with e | _ | _ <;> simpa using charged
  · rw [scheduled, Option.isSome_some, if_pos rfl]
    dsimp only
    rw [result]
    split
    · next delivered =>
      cases delivered
      exact absurd rfl (waits _)
    · rcases after with rfl | rfl <;> exact .of_eq rfl
  · rw [scheduled, Option.isSome_some, if_pos rfl]
    dsimp only
    rw [result]
    have charged := acceptReleased_charged rest
    exact ⟨charged.others, charged.receipt⟩

end RelayService

/-! ### The account over a whole run -/

/-- The service, with the payload bytes accepted on each circuit since it was opened. -/
structure RelayAccount where
  service : RelayService
  accepted : Nat → Nat

namespace RelayAccount

def new : RelayAccount := ⟨.new, fun _ => 0⟩

/-- The account after a call that came back. A restart keeps the count of the circuits it brings back. -/
def tally (a : RelayAccount) (call : RelayCall) (answer : Except RelayError RelayAnswer) : Nat → Nat :=
  match call with
  | .acceptUpstreamFrames arrival =>
    let charged := a.service.chargedCircuit arrival.circuitId
    Function.update a.accepted charged (a.accepted charged + a.service.bytesAccepted arrival)
  | call => renew 0 a.accepted call answer

theorem tally_of_not_data {a : RelayAccount} {answer : Except RelayError RelayAnswer}
    (noData : ∀ arrival, call ≠ .acceptUpstreamFrames arrival) :
    a.tally call answer = renew 0 a.accepted call answer := by
  cases call with
  | acceptUpstreamFrames arrival => exact absurd rfl (noData arrival)
  | _ => rfl

def step (a : RelayAccount) (call : RelayCall) : RelayAccount where
  service := a.service.step call
  accepted :=
    match a.service.perform call with
    | .ok (answer, _) => a.tally call answer
    | .error _ => a.accepted

def WithinQuota (a : RelayAccount) : Prop :=
  ∀ id c, a.service.circuits.get? id = some c → a.accepted id ≤ c.grantedByteQuota

/-- The circuits know what they have accepted, and it is within their quota. -/
def Exact (a : RelayAccount) : Prop :=
  ∀ {id : Nat} {c : Circuit}, a.service.circuits.get? id = some c →
    a.accepted id = c.bytesForwarded ∧ c.bytesForwarded ≤ c.grantedByteQuota

/-- A restart brings no circuit back on which bytes were accepted, and a circuit that becomes a leg has accepted
no more than the other's quota. -/
def KeepsCount (a : RelayAccount) : RelayCall → Prop
  | .restart _ now _ => ∀ record ∈ a.service.leases, restorable now record = true →
      a.accepted record.circuitId = 0
  | .attachDownstreamLeg source downstream _ _ _ _ => ∀ c ∈ a.service.circuits.get? source,
      a.accepted downstream ≤ c.grantedByteQuota
  | .attachAdditionalDownstreamLeg source downstream _ _ _ _ _ => ∀ c ∈ a.service.circuits.get? source,
      a.accepted downstream ≤ c.grantedByteQuota
  | _ => True

variable {a : RelayAccount} {call : RelayCall} {answer : Except RelayError RelayAnswer} {s' : RelayService}

theorem lowers_bound {id bound : Nat} (keeps : a.KeepsCount call) (lowers : a.service.Lowers call id bound) :
    a.accepted id ≤ bound := by
  unfold RelayService.Lowers at lowers
  split at lowers
  · obtain ⟨rfl, c, held, rfl⟩ := lowers
    exact keeps c held
  · obtain ⟨rfl, c, held, rfl⟩ := lowers
    exact keeps c held
  · exact lowers.elim

theorem exact_of_data (exact_ : a.Exact)
    (performed : a.service.perform (.acceptUpstreamFrames arrival) = .ok (answer, s')) :
    Exact ⟨s', a.tally (.acceptUpstreamFrames arrival) answer⟩ := by
  obtain ⟨frames, accepted, -⟩ := map_answer_ok performed
  have charged := acceptUpstreamFrames_charged accepted
  intro id c' found
  by_cases here : id = a.service.chargedCircuit arrival.circuitId
  · subst here
    obtain ⟨c, held, grown, -, within⟩ := charged.receipt found
    obtain ⟨count, room⟩ := exact_ held
    refine ⟨(Function.update_self _ _ _).trans ?_, within room⟩
    rw [count, grown]
  · have held := charged.others here ▸ found
    obtain ⟨count, room⟩ := exact_ held
    exact ⟨(Function.update_of_ne here _ _).trans count, room⟩

theorem exact_of_restart {epoch : Nat} (keeps : a.KeepsCount (.restart epoch now traversal))
    (performed : a.service.perform (.restart epoch now traversal) = .ok (answer, s')) :
    Exact ⟨s', a.tally (.restart epoch now traversal) answer⟩ := by
  have restored := restart_restored (perform_restart_ok performed)
  intro id c found
  obtain ⟨bytes, -, record, member, live, rfl⟩ := restored.circuits found
  refine ⟨?_, bytes ▸ Nat.zero_le _⟩
  rw [bytes]
  exact keeps record member live

theorem exact_of_follows (noData : ∀ arrival, call ≠ .acceptUpstreamFrames arrival)
    (noRestart : ∀ epoch now traversal, call ≠ .restart epoch now traversal) (exact_ : a.Exact) (keeps : a.KeepsCount call)
    (performed : a.service.perform call = .ok (answer, s')) : Exact ⟨s', a.tally call answer⟩ := by
  have follows := perform_follows noData performed
  rw [tally_of_not_data noData]
  intro id c' found
  by_cases begins : RelayService.Begins call answer id
  · obtain ⟨bytes, -⟩ := follows.begun found begins
    exact ⟨(renew_of_begins noRestart begins).trans bytes.symm, bytes ▸ Nat.zero_le _⟩
  · obtain ⟨c, held, same, quota⟩ := follows.kept found begins
    obtain ⟨count, room⟩ := exact_ held
    refine ⟨(renew_of_not_begins begins).trans (count.trans same.bytes.symm), ?_⟩
    rw [same.bytes]
    rcases quota with unchanged | ⟨bound, lowers, lowered⟩
    · rwa [unchanged]
    · rw [lowered]
      exact le_min room (count ▸ lowers_bound keeps lowers)

theorem step_exact (exact_ : a.Exact) (keeps : a.KeepsCount call) : (a.step call).Exact := by
  unfold step RelayService.step
  cases performed : a.service.perform call with
  | error halt => exact exact_
  | ok result =>
    obtain ⟨answer, s'⟩ := result
    cases call with
    | acceptUpstreamFrames arrival => exact exact_of_data exact_ performed
    | restart => exact exact_of_restart keeps performed
    | _ => exact exact_of_follows (by simp) (by simp) exact_ keeps performed

/-- In every run whose restarts bring back only circuits that have accepted nothing, no circuit accepts more
than its quota. -/
theorem within_quota (calls : List RelayCall) (keeps : Run.Meets KeepsCount step new calls) :
    (calls.foldl step new).WithinQuota := by
  have kept : ∀ a call, Exact a → KeepsCount a call → Exact (step a call) :=
    fun _ _ exact_ keeps => step_exact exact_ keeps
  have initial : Exact new := fun found => absurd (get?_eq_some.mp found) not_mem_empty
  have final : Exact (calls.foldl step new) := Run.invariant_of_meets kept initial keeps
  intro id c found
  obtain ⟨count, room⟩ := final found
  exact count ▸ room

def tenBytes : CircuitOpenRequest :=
  { peerCircuits := 0, requestedLifetimeMs := 60000, requestedByteQuota := 10, flags := 0
    bidirectional := true, privateHandling := false, multipath := false, destinationHint := [] }

def tenAt (sequence now : Nat) : RelayService.Arrival :=
  { circuitId := 1, sequence, fin := false, ackRequested := false, highPriority := false
    data := List.replicate 10 7, now }

/-- A circuit restored before it took anything takes its ten bytes, and no more. -/
theorem within_quota_restored :
    (([.disk .empty, .openCircuit tenBytes [1] 0, .restart 1 500 .asListed, .acceptUpstreamFrames (tenAt 0 1000),
      .acceptUpstreamFrames (tenAt 1 2000)] : List RelayCall).foldl step new).WithinQuota := by
  refine within_quota _ ⟨trivial, trivial, ?_, trivial, trivial, trivial⟩
  show ∀ record ∈ _, _ → _ = 0
  decide +kernel

/-- A circuit of ten bytes takes ten, is restored from its record and takes ten more. -/
theorem restart_grants_again :
    let after := ([.disk .empty, .openCircuit tenBytes [1] 0, .acceptUpstreamFrames (tenAt 0 1000), .restart 1 2000 .asListed,
      .acceptUpstreamFrames (tenAt 1 3000)] : List RelayCall).foldl step new
    (after.accepted 1 = 20 ∧ (after.service.circuits.get? 1).map Circuit.grantedByteQuota = some 10) ∧
      ¬ after.WithinQuota := by
  intro after
  have taken : after.accepted 1 = 20 := by decide +kernel
  have granted : (after.service.circuits.get? 1).map Circuit.grantedByteQuota = some 10 := by decide +kernel
  refine ⟨⟨taken, granted⟩, fun within => ?_⟩
  obtain ⟨c, held, quota⟩ := Option.map_eq_some_iff.mp granted
  have bound := within 1 c held
  omega

end RelayAccount
end UniversalMesh.Daemon
