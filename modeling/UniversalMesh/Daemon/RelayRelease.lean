import UniversalMesh.Daemon.RelayLinks
import UniversalMesh.Relay.MultipathDelivery

/-! How often a sequence number is handed on. The scheduler of a multipath circuit releases each number once. A
circuit without one refuses the numbers behind the one it expects, except that a frame with the payload it
accepted last counts as a duplicate: `accept_upstream_single` reports it as accepted, and the caller hands it on
again. -/
namespace UniversalMesh.Daemon
open MachineWord Wire Relay OrderedMap RelayService

namespace RelayService

/-- The sequence numbers handed on by an answer. -/
def sequences : Except RelayError (List RelayDataFrame) → List Nat
  | .ok frames => frames.map RelayDataFrame.relaySequence
  | .error _ => []

/-- A circuit comes to expect a number behind those that were handed on; nothing else changes. -/
structure Advances (circuitId : Nat) (passed : List Nat) (s s' : RelayService) : Prop where
  others : ∀ {id : Nat}, id ≠ circuitId → s'.circuits.get? id = s.circuits.get? id
  multipath : s'.multipath = s.multipath
  receipt : ∀ {c' : Circuit}, s'.circuits.get? circuitId = some c' →
    ∃ c, s.circuits.get? circuitId = some c ∧ c.nextRelaySequence ≤ c'.nextRelaySequence ∧
      ∀ number ∈ passed, number < c'.nextRelaySequence

variable {s s' s'' : RelayService} {circuitId sequence now : Nat} {fin : Bool} {data : Bytes}

theorem Advances.of_eq (circuits : s'.circuits = s.circuits) (multipath : s'.multipath = s.multipath) :
    Advances circuitId [] s s' where
  others _ := by rw [circuits]
  multipath := multipath
  receipt found := ⟨_, circuits ▸ found, Nat.le_refl _, fun _ member => absurd member List.not_mem_nil⟩

theorem Advances.trans (one : Advances circuitId first s s')
    (two : Advances circuitId second s' s'') : Advances circuitId (first ++ second) s s'' where
  others differs := (two.others differs).trans (one.others differs)
  multipath := two.multipath.trans one.multipath
  receipt found := by
    obtain ⟨c', found', grows', passed'⟩ := two.receipt found
    obtain ⟨c, held, grows, passed⟩ := one.receipt found'
    refine ⟨c, held, grows.trans grows', fun number member => ?_⟩
    rcases List.mem_append.mp member with earlier | later
    · exact (passed number earlier).trans_le grows'
    · exact passed' number later

theorem Advances.forget (advances : Advances circuitId passed s s') : Advances circuitId [] s s' where
  others := advances.others
  multipath := advances.multipath
  receipt found := by
    obtain ⟨c, held, grows, -⟩ := advances.receipt found
    exact ⟨c, held, grows, fun _ member => absurd member List.not_mem_nil⟩

theorem putCircuit_advances (held : s.circuits.get? circuitId = some c)
    (reached : c.nextRelaySequence ≤ sequence) (next : c'.nextRelaySequence = sequence + 1)
    (circuits : s'.circuits = (s.putCircuit circuitId c').circuits) (multipath : s'.multipath = s.multipath) :
    Advances circuitId [sequence] s s' where
  others differs := by rw [circuits, putCircuit, get?_insert_of_ne differs]
  multipath := multipath
  receipt found := by
    rw [circuits, putCircuit, get?_insert_self] at found
    cases found
    refine ⟨c, held, by omega, fun number member => ?_⟩
    rw [List.mem_singleton.mp member, next]
    exact Nat.lt_succ_self _

theorem persistCircuit_multipath {id : Nat} : (s.persistCircuit id).multipath = s.multipath := by
  unfold persistCircuit
  split <;> rfl

/-- A frame that is accepted, new or not, is behind the number that its circuit expects then. A new one was not.
-/
theorem acceptUpstreamSingle_advances (small : sequence < u64Max)
    (accepted : s.acceptUpstreamSingle circuitId sequence fin data now = .ok (result, s')) :
    Advances circuitId (if result.isOk then [sequence] else []) s s' ∧
      ∀ new, result = .ok new → ∃ c, s.circuits.get? circuitId = some c ∧
        (c.nextRelaySequence ≤ sequence ∨ sequence < c.nextRelaySequence ∧ c.lastAcceptedData = some data) := by
  have word : (sequence + 1) % 2 ^ 64 = sequence + 1 := by
    rw [u64Max] at small
    omega
  cases acceptUpstreamSingle_cases accepted with
  | refused => exact ⟨.of_eq rfl rfl, fun new same => by cases same⟩
  | duplicate held _ old same =>
    refine ⟨⟨fun _ => rfl, rfl, fun found => ?_⟩, fun _ _ => ⟨_, held, .inr ⟨old, same⟩⟩⟩
    rw [held] at found
    cases found
    refine ⟨_, held, Nat.le_refl _, fun number member => ?_⟩
    rw [List.mem_singleton.mp member]
    exact old
  | @beyond c _ held reached =>
    have next : ({ c with nextRelaySequence := (sequence + 1) % 2 ^ 64 } : Circuit).nextRelaySequence =
        sequence + 1 := word
    exact ⟨(putCircuit_advances held reached next rfl rfl).forget, fun new same => by cases same⟩
  | taken held _ taken =>
    refine ⟨?_, fun _ _ => ⟨_, held, .inl taken.new⟩⟩
    exact putCircuit_advances held taken.new (taken.next.trans word) (persistCircuit_circuits _ _)
      persistCircuit_multipath

theorem acceptReleased_advances (small : ∀ entry ∈ released, entry.1 < u64Max)
    (accepted : acceptReleased circuitId source now s released = .ok (answer, s')) :
    Advances source (sequences answer) s s' ∧
      ∀ frames, answer = .ok frames → sequences answer = released.map Prod.fst := by
  induction released generalizing s answer with
  | nil =>
    cases accepted
    exact ⟨.of_eq rfl rfl, fun frames same => by cases same; rfl⟩
  | cons entry rest ih =>
    obtain ⟨sequence, data⟩ := entry
    obtain ⟨result, s₁, single, next⟩ := acceptReleased_cons accepted
    have recalled : Advances source [] s (s.takeMetadata source sequence).2 := .of_eq rfl rfl
    have first := recalled.trans (acceptUpstreamSingle_advances (small _ List.mem_cons_self) single).1
    rcases next with ⟨e, rfl, rfl, rfl⟩ | ⟨new, later, frame, rfl, released, rfl, rfl⟩
    · exact ⟨first.forget, fun frames same => by cases same⟩
    · obtain ⟨others, order⟩ := ih (fun entry member => small entry (List.mem_cons_of_mem _ member)) released
      have both := first.trans others
      cases later with
      | error e => exact ⟨both.forget, fun frames same => by cases same⟩
      | ok frames =>
        refine ⟨both, fun _ _ => ?_⟩
        have rest := order frames rfl
        exact congrArg (frame.relaySequence :: ·) rest

end RelayService

/-! ### What was handed on in a run -/

/-- The service, with the sequence numbers handed on for each circuit since it was opened. -/
structure RelayLedger where
  service : RelayService
  returned : Nat → List Nat

namespace RelayLedger

def new : RelayLedger := ⟨.new, fun _ => []⟩

/-- The ledger after a call that came back. A restart begins a new one. -/
def enter (l : RelayLedger) (call : RelayCall) (answer : Except RelayError RelayAnswer) : Nat → List Nat :=
  match call, answer with
  | .acceptUpstreamFrames arrival, .ok (.frames frames) =>
    let charged := l.service.chargedCircuit arrival.circuitId
    Function.update l.returned charged (l.returned charged ++ sequences (.ok frames))
  | .restart _ _ _, _ => fun _ => []
  | call, answer => renew [] l.returned call answer

def step (l : RelayLedger) (call : RelayCall) : RelayLedger where
  service := l.service.step call
  returned :=
    match l.service.perform call with
    | .ok (answer, _) => l.enter call answer
    | .error _ => l.returned

/-- A frame under a number that was handed on before, or that the scheduler has taken. -/
def Repeats (l : RelayLedger) (arrival : RelayService.Arrival) : Prop :=
  arrival.sequence ∈ l.returned (l.service.chargedCircuit arrival.circuitId) ∨
    ∃ m, l.service.multipath.get? (l.service.chargedCircuit arrival.circuitId) = some m ∧
      (arrival.sequence < m.nextSequence ∨ (m.buffered.get? arrival.sequence).isSome)

/-- A call hands on different numbers that were not handed on before, and none for a frame that repeats an
accepted one. -/
def ReleasesOnce (l : RelayLedger) (call : RelayCall) : Prop :=
  ∀ arrival, call = .acceptUpstreamFrames arrival →
    ∀ frames s', l.service.acceptUpstreamFrames arrival = .ok (.ok frames, s') →
      (sequences (.ok frames)).Nodup ∧
      (∀ frame ∈ frames, frame.relaySequence ∉ l.returned (l.service.chargedCircuit arrival.circuitId)) ∧
      (l.Repeats arrival → frames = [])

/-- A sequence number below the last one of all; without a scheduler, under a number that the circuit has
passed, another payload than the last. -/
def Fresh (l : RelayLedger) : RelayCall → Prop
  | .acceptUpstreamFrames arrival => arrival.sequence < u64Max ∧
      (l.service.multipath.get? (l.service.logicalSource arrival.circuitId) = none →
        ∀ c ∈ l.service.circuits.get? arrival.circuitId, arrival.sequence < c.nextRelaySequence →
          c.lastAcceptedData ≠ some arrival.data)
  | _ => True

/-- Circuits and schedulers are past the numbers that were handed on. -/
structure Settled (l : RelayLedger) : Prop where
  coherent : l.service.Coherent
  circuits : ∀ {id : Nat} {c : Circuit}, l.service.circuits.get? id = some c →
    ∀ number ∈ l.returned id, number < c.nextRelaySequence
  schedulers : ∀ {id : Nat} {m : MultipathScheduler}, l.service.multipath.get? id = some m →
    m.Awaits ∧ ∀ number ∈ l.returned id, number < m.nextSequence

variable {l : RelayLedger} {call : RelayCall} {answer : Except RelayError RelayAnswer} {s' : RelayService}

variable {circuitId : Nat} {m m' : MultipathScheduler}

/-- A frame that goes to no scheduler comes on a circuit without one: a leg's circuit has one as long as the leg
is there. -/
theorem Settled.unscheduled (settled : l.Settled)
    (none : l.service.multipath.get? (l.service.logicalSource circuitId) = .none) :
    l.service.multipath.get? circuitId = .none := by
  cases back : l.service.multipathReverse.get? circuitId with
  | none => rwa [logicalSource, back] at none
  | some pair =>
    obtain ⟨source, path⟩ := pair
    have held := settled.coherent.scheduled back
    rw [logicalSource, back] at none
    rw [RelayService.Scheduled, none] at held
    cases held

/-- What a frame does in a settled ledger: the numbers it hands on, and where circuits and schedulers stand
then. -/
structure Handed (l : RelayLedger) (arrival : RelayService.Arrival) (passed : List Nat) (s' : RelayService) :
    Prop where
  distinct : passed.Nodup
  new : ∀ number ∈ passed, number ∉ l.returned (l.service.chargedCircuit arrival.circuitId)
  swallowed : l.Repeats arrival → passed = []
  others : ∀ {id : Nat}, id ≠ l.service.chargedCircuit arrival.circuitId →
    s'.circuits.get? id = l.service.circuits.get? id
  receipt : ∀ {c' : Circuit}, s'.circuits.get? (l.service.chargedCircuit arrival.circuitId) = some c' →
    ∃ c, l.service.circuits.get? (l.service.chargedCircuit arrival.circuitId) = some c ∧
      c.nextRelaySequence ≤ c'.nextRelaySequence ∧ ∀ number ∈ passed, number < c'.nextRelaySequence
  schedulers : ∀ {id : Nat} {m' : MultipathScheduler}, s'.multipath.get? id = some m' →
    ∃ m, l.service.multipath.get? id = some m ∧ m'.Awaits ∧ m.nextSequence ≤ m'.nextSequence ∧
      (id = l.service.chargedCircuit arrival.circuitId → ∀ number ∈ passed, number < m'.nextSequence)

variable {arrival : RelayService.Arrival} {frames : Except RelayError (List RelayDataFrame)}

theorem chargedCircuit_of_none {s : RelayService}
    (none : s.multipath.get? (s.logicalSource circuitId) = .none) : s.chargedCircuit circuitId = circuitId := by
  rw [chargedCircuit, none]
  rfl

theorem chargedCircuit_of_some {s : RelayService}
    (scheduled : s.multipath.get? (s.logicalSource circuitId) = some m) :
    s.chargedCircuit circuitId = s.logicalSource circuitId := by
  rw [chargedCircuit, scheduled]
  rfl

section
variable (settled : l.Settled)
include settled

theorem schedulers_of_accept (scheduled : l.service.multipath.get? source = some m)
    (awaits : m'.Awaits) (grows : m.nextSequence ≤ m'.nextSequence) {id : Nat}
    (found : (l.service.multipath.insert source m').get? id = some found') :
    ∃ m, l.service.multipath.get? id = some m ∧ found'.Awaits ∧ m.nextSequence ≤ found'.nextSequence ∧
      (id = source → found' = m') := by
  rcases get?_insert_eq_some.mp found with ⟨rfl, rfl⟩ | ⟨differs, found⟩
  · exact ⟨m, scheduled, awaits, grows, fun _ => rfl⟩
  · exact ⟨found', found, (settled.schedulers found).1, Nat.le_refl _, fun here => absurd here differs⟩

theorem handed_of_waiting (scheduled : l.service.multipath.get? (l.service.logicalSource arrival.circuitId) = some m)
    (awaits : m'.Awaits) (grows : m.nextSequence ≤ m'.nextSequence)
    (circuits : s'.circuits = l.service.circuits)
    (multipath : s'.multipath = l.service.multipath.insert (l.service.logicalSource arrival.circuitId) m') :
    Handed l arrival [] s' where
  distinct := List.nodup_nil
  new _ member := absurd member List.not_mem_nil
  swallowed _ := rfl
  others _ := by rw [circuits]
  receipt found := ⟨_, circuits ▸ found, Nat.le_refl _, fun _ member => absurd member List.not_mem_nil⟩
  schedulers found := by
    obtain ⟨m, held, awaits, grows, -⟩ := schedulers_of_accept settled scheduled awaits grows (multipath ▸ found)
    exact ⟨m, held, awaits, grows, fun _ _ member => absurd member List.not_mem_nil⟩

section
variable (fresh : l.Fresh (.acceptUpstreamFrames arrival))
include fresh

theorem handed_of_single (none : l.service.multipath.get? (l.service.logicalSource arrival.circuitId) = .none)
    {result : Except RelayError Bool}
    (single : l.service.acceptUpstreamSingle arrival.circuitId arrival.sequence arrival.fin arrival.data
      arrival.now = .ok (result, s')) :
    Handed l arrival (sequences (result.map fun _ => [arrival.frame])) s' := by
  obtain ⟨advances, passing⟩ := acceptUpstreamSingle_advances fresh.1 single
  have passed : sequences (result.map fun _ => [arrival.frame]) =
      if result.isOk then [arrival.sequence] else [] := by
    cases result <;> rfl
  -- the frame is new, since under a number that the circuit has passed it would be a duplicate
  have ahead : ∀ number ∈ sequences (result.map fun _ => [arrival.frame]),
      number ∉ l.returned arrival.circuitId := by
    intro number member
    cases result with
    | error e => cases member
    | ok new =>
      obtain ⟨c, held, next⟩ := passing new rfl
      rw [List.mem_singleton.mp member]
      intro again
      have behind := settled.circuits held _ again
      rcases next with reached | ⟨old, same⟩
      · exact absurd behind (Nat.not_lt.mpr reached)
      · exact fresh.2 none c held old same
  have unscheduled := settled.unscheduled none
  have charged := chargedCircuit_of_none none
  rw [← passed] at advances
  refine ⟨?_, ?_, ?_, ?_, ?_, ?_⟩
  · cases result with
    | error e => exact List.nodup_nil
    | ok new => exact List.nodup_singleton _
  · rw [charged]
    exact ahead
  · rintro (again | ⟨m, scheduled, -⟩)
    · rw [charged] at again
      cases result with
      | error e => rfl
      | ok new => exact absurd again (ahead arrival.sequence List.mem_cons_self)
    · rw [charged, unscheduled] at scheduled
      cases scheduled
  · rw [charged]
    exact advances.others
  · rw [charged]
    exact advances.receipt
  · intro id m' found
    rw [advances.multipath] at found
    refine ⟨m', found, (settled.schedulers found).1, Nat.le_refl _, fun here => ?_⟩
    rw [here, charged, unscheduled] at found
    cases found

/-- What the scheduler releases lies between the number it awaited and the one it awaits then. -/
theorem handed_of_released (scheduled : l.service.multipath.get? (l.service.logicalSource arrival.circuitId) = some m)
    (received : m.accept arrival.sequence arrival.data = (.ok (.delivered released), m'))
    (rest : acceptReleased arrival.circuitId (l.service.logicalSource arrival.circuitId) arrival.now
      ((l.service.putScheduler (l.service.logicalSource arrival.circuitId) m').remember
        (l.service.logicalSource arrival.circuitId) arrival) released = .ok (frames, s')) :
    Handed l arrival (sequences frames) s' := by
  obtain ⟨awaits, grows, delivers⟩ := MultipathScheduler.accept_awaits (settled.schedulers scheduled).1 fresh.1
    received
  obtain ⟨awaited, absent, order, next, small⟩ := delivers released rfl
  obtain ⟨advances, all⟩ := acceptReleased_advances small rest
  have charged := chargedCircuit_of_some scheduled
  -- the numbers that are handed on lie between the number awaited before and the one awaited then
  have between : ∀ number ∈ sequences frames,
      m.nextSequence ≤ number ∧ number < m'.nextSequence := by
    intro number member
    cases frames with
    | error e => cases member
    | ok list =>
      rw [all list rfl, order] at member
      obtain ⟨low, high⟩ := List.mem_range'_1.mp member
      exact ⟨low, next ▸ high⟩
  refine ⟨?_, ?_, ?_, ?_, ?_, ?_⟩
  · cases frames with
    | error e => exact List.nodup_nil
    | ok list =>
      rw [all list rfl, order]
      exact List.nodup_range'
  · rw [charged]
    intro number member again
    have behind := (settled.schedulers scheduled).2 number again
    exact absurd behind (Nat.not_lt.mpr (between number member).1)
  · rintro (again | ⟨m₁, same, taken⟩)
    · rw [charged] at again
      have behind := (settled.schedulers scheduled).2 _ again
      omega
    · rw [charged, scheduled] at same
      cases same
      rcases taken with old | waiting
      · omega
      · rw [absent] at waiting
        cases waiting
  · rw [charged]
    exact advances.others
  · rw [charged]
    exact advances.receipt
  · intro id found' found
    rw [advances.multipath] at found
    obtain ⟨m₁, held, awaits, grows, here⟩ := schedulers_of_accept settled scheduled awaits grows found
    refine ⟨m₁, held, awaits, grows, fun same number member => ?_⟩
    rw [here (same.trans charged)]
    exact (between number member).2

theorem accept_handed (accepted : l.service.acceptUpstreamFrames arrival = .ok (frames, s')) :
    Handed l arrival (sequences frames) s' := by
  rcases acceptUpstreamFrames_cases accepted with
    ⟨none, result, single, rfl⟩ | ⟨m, received, m', scheduled, result, ⟨waits, quiet, after⟩ | ⟨released, rfl, rest⟩⟩
  · exact handed_of_single settled fresh none single
  · obtain ⟨awaits, grows, -⟩ := MultipathScheduler.accept_awaits (settled.schedulers scheduled).1 fresh.1 result
    have nothing : sequences frames = [] := by
      rcases quiet with rfl | ⟨e, rfl⟩ <;> rfl
    rw [nothing]
    rcases after with rfl | rfl
    · exact handed_of_waiting settled scheduled awaits grows rfl rfl
    · exact handed_of_waiting settled scheduled awaits grows rfl rfl
  · exact handed_of_released settled fresh scheduled result rest

end

theorem releasesOnce_of_fresh (fresh : l.Fresh call) : l.ReleasesOnce call := by
  rintro arrival rfl frames s' accepted
  have handed := accept_handed settled fresh accepted
  refine ⟨handed.distinct, fun frame member => ?_, fun repeats => ?_⟩
  · exact handed.new _ (List.mem_map_of_mem member)
  · exact List.map_eq_nil_iff.mp (handed.swallowed repeats)

end

/-! ### The ledger stays settled -/

theorem enter_of_data : l.enter (.acceptUpstreamFrames arrival) (frames.map .frames) =
    Function.update l.returned (l.service.chargedCircuit arrival.circuitId)
      (l.returned (l.service.chargedCircuit arrival.circuitId) ++ sequences frames) := by
  cases frames with
  | error e =>
    rw [sequences, List.append_nil, Function.update_eq_self]
    rfl
  | ok list => rfl

theorem awaits_of_new : ({ MultipathScheduler.new limit with paths } : MultipathScheduler).Awaits :=
  fun _ member => absurd member not_mem_empty

theorem settled_of_data (settled : l.Settled) (fresh : l.Fresh (.acceptUpstreamFrames arrival))
    (performed : l.service.perform (.acceptUpstreamFrames arrival) = .ok (answer, s')) :
    Settled ⟨s', l.enter (.acceptUpstreamFrames arrival) answer⟩ := by
  have coherent := perform_coherent settled.coherent performed
  obtain ⟨frames, accepted, rfl⟩ := map_answer_ok performed
  have handed := accept_handed settled fresh accepted
  have entered : ∀ {id number : Nat},
      number ∈ l.enter (.acceptUpstreamFrames arrival) (frames.map .frames) id → number ∈ l.returned id ∨
          id = l.service.chargedCircuit arrival.circuitId ∧ number ∈ sequences frames := by
    intro id number member
    rw [enter_of_data] at member
    by_cases here : id = l.service.chargedCircuit arrival.circuitId
    · subst here
      rw [Function.update_self, List.mem_append] at member
      exact member.imp_right fun now => ⟨rfl, now⟩
    · rw [Function.update_of_ne here] at member
      exact .inl member
  refine ⟨coherent, fun {id c'} found number member => ?_, fun {id m'} found => ?_⟩
  · by_cases here : id = l.service.chargedCircuit arrival.circuitId
    · subst here
      obtain ⟨c, held, grows, passed⟩ := handed.receipt found
      rcases entered member with earlier | ⟨-, now⟩
      · exact (settled.circuits held number earlier).trans_le grows
      · exact passed number now
    · have earlier := (entered member).resolve_right fun now => here now.1
      exact settled.circuits (handed.others here ▸ found) number earlier
  · obtain ⟨m, held, awaits, grows, passed⟩ := handed.schedulers found
    refine ⟨awaits, fun number member => ?_⟩
    rcases entered member with earlier | ⟨here, now⟩
    · exact ((settled.schedulers held).2 number earlier).trans_le grows
    · exact passed here number now

theorem settled_of_restart {epoch : Nat}
    (performed : l.service.perform (.restart epoch now traversal) = .ok (answer, s')) :
    Settled ⟨s', l.enter (.restart epoch now traversal) answer⟩ := by
  have restarted := perform_restart_ok performed
  refine ⟨restart_coherent restarted, fun _ _ member => absurd member List.not_mem_nil, ?_⟩
  intro id m found
  obtain ⟨limit, paths, rfl⟩ := (restart_restored restarted).schedulers found
  exact ⟨awaits_of_new, fun _ member => absurd member List.not_mem_nil⟩

section
variable (noData : ∀ arrival, call ≠ .acceptUpstreamFrames arrival)
include noData

theorem enter_of_not_data (noRestart : ∀ epoch now traversal, call ≠ .restart epoch now traversal) :
    l.enter call answer = renew [] l.returned call answer := by
  cases call with
  | acceptUpstreamFrames arrival => exact absurd rfl (noData arrival)
  | restart => exact absurd rfl (noRestart _ _ _)
  | _ => rfl

/-- All calls but data and restarts leave the numbers where they are, or begin a circuit without any. -/
theorem settled_of_follows (noRestart : ∀ epoch now traversal, call ≠ .restart epoch now traversal) (settled : l.Settled)
    (performed : l.service.perform call = .ok (answer, s')) : Settled ⟨s', l.enter call answer⟩ := by
  have follows := perform_follows noData performed
  rw [enter_of_not_data noData noRestart]
  -- a circuit that begins has no numbers, the others keep theirs
  have only : ∀ {id number : Nat}, number ∈ renew [] l.returned call answer id →
      ¬ RelayService.Begins call answer id ∧ number ∈ l.returned id := by
    intro id number member
    by_cases begins : RelayService.Begins call answer id
    · rw [renew_of_begins noRestart begins] at member
      cases member
    · rw [renew_of_not_begins begins] at member
      exact ⟨begins, member⟩
  refine ⟨perform_coherent settled.coherent performed, ?_, ?_⟩
  · intro id c' found number member
    obtain ⟨old, earlier⟩ := only member
    obtain ⟨c, held, same, -⟩ := follows.kept found old
    rw [same.next]
    exact settled.circuits held number earlier
  · intro id m' found
    rcases follows.schedulers found with ⟨begins, limit, paths, rfl⟩ | ⟨m, held, paths, rfl⟩
    · exact ⟨awaits_of_new, fun number member => absurd begins (only member).1⟩
    · obtain ⟨awaits, behind⟩ := settled.schedulers held
      exact ⟨awaits, fun number member => behind number (only member).2⟩

end

theorem step_settled (settled : l.Settled) (fresh : l.Fresh call) : (l.step call).Settled := by
  unfold step RelayService.step
  cases performed : l.service.perform call with
  | error halt => exact settled
  | ok result =>
    obtain ⟨answer, s'⟩ := result
    cases call with
    | acceptUpstreamFrames arrival => exact settled_of_data settled fresh performed
    | restart => exact settled_of_restart performed
    | _ => exact settled_of_follows (by simp) (by simp) settled performed

/-- In every run without the last number of all and, on circuits without a scheduler, without a repetition of
the last payload under an old number, every number is handed on at most once, and a repeated frame hands on
nothing. -/
theorem releases_once (calls : List RelayCall) (fresh : Run.Meets Fresh step new calls) :
    Run.Meets ReleasesOnce step new calls := by
  have initial : Settled new :=
    ⟨coherent_of_empty rfl rfl, fun _ _ member => absurd member List.not_mem_nil,
      fun found => absurd (get?_eq_some.mp found) not_mem_empty⟩
  exact Run.meets_of_invariant (fun _ _ => step_settled) (fun _ _ => releasesOnce_of_fresh) initial fresh

def openRequest (multipath : Bool) : CircuitOpenRequest :=
  { peerCircuits := 0, requestedLifetimeMs := 60000, requestedByteQuota := 100, flags := 0
    bidirectional := true, privateHandling := false, multipath, destinationHint := [] }

def frameOf (sequence : Nat) (data : Bytes) : RelayService.Arrival :=
  { circuitId := 1, sequence, fin := false, ackRequested := false, highPriority := false, data, now := 0 }

/-- A multipath circuit takes its frames out of order and repeated. -/
theorem releases_once_multipath :
    Run.Meets ReleasesOnce step new
      [.openCircuit (openRequest true) [1] 0, .acceptUpstreamFrames (frameOf 1 [8]),
        .acceptUpstreamFrames (frameOf 0 [7]), .acceptUpstreamFrames (frameOf 0 [7]),
        .acceptUpstreamFrames (frameOf 1 [8])] := by
  refine releases_once _ ⟨trivial, ⟨by decide, ?_⟩, ⟨by decide, ?_⟩, ⟨by decide, ?_⟩, ⟨by decide, ?_⟩, trivial⟩
  all_goals
    intro none
    exact absurd none (by decide +kernel)

/-- Without a scheduler an exact repetition is handed on again. -/
theorem duplicate_handed_on : let opened := new.step (.openCircuit (openRequest false) [1] 0)
    let once := opened.step (.acceptUpstreamFrames (frameOf 0 [7]))
    (once.returned 1 = [0] ∧
      (once.service.acceptUpstreamFrames (frameOf 0 [7])).map Prod.fst = .ok (.ok [(frameOf 0 [7]).frame])) ∧
      ¬ once.ReleasesOnce (.acceptUpstreamFrames (frameOf 0 [7])) := by
  intro opened once
  have returned : once.returned 1 = [0] := by decide +kernel
  have again : (once.service.acceptUpstreamFrames (frameOf 0 [7])).map Prod.fst =
      .ok (.ok [(frameOf 0 [7]).frame]) := by decide +kernel
  refine ⟨⟨returned, again⟩, fun releases => ?_⟩
  cases accepted : once.service.acceptUpstreamFrames (frameOf 0 [7]) with
  | error halt => rw [accepted] at again; cases again
  | ok result =>
    obtain ⟨answer, s'⟩ := result
    rw [accepted] at again
    cases again
    have new := (releases _ rfl _ _ accepted).2.1 _ List.mem_cons_self
    exact new List.mem_cons_self

end RelayLedger
end UniversalMesh.Daemon
