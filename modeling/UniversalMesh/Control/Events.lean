import Mathlib.Algebra.Order.BigOperators.Group.List
import UniversalMesh.Lib.Run
import UniversalMesh.Wire.Field

/-! `umc-control/src/events.rs`: one subscription to events, its bounded backlog and the gaps it reports. An
event that does not fit is dropped; unless it is a sample, its sequence number belongs to a range that the
subscriber is told about with the next `EVENT_GAP`. -/
namespace UniversalMesh.Control
open MachineWord Wire

def defaultEventBacklogBytes : Nat := 4 * 1024 * 1024

inductive EventClass where
  | critical | state | edge | sample
  deriving DecidableEq, Repr

structure UmpEvent where
  eventClass : EventClass
  eventType : String
  resource : Option Bytes
  payload : Bytes
  occurredAtMs : Nat
  deriving DecidableEq, Repr

inductive EventError where
  | sampleDropped | outOfSync
  deriving DecidableEq, Repr

structure Subscription where
  (id nextSequence : Nat)
  outOfSync : Bool
  (outOfSyncFrom outOfSyncTo : Option Nat)
  queue : List (Nat × Nat × UmpEvent)
  (queueBytes maxBacklog : Nat)
  inFlight : List (Nat × Nat)
  inFlightBytes : Nat
  deriving DecidableEq, Repr

namespace Subscription

def new (id maxBacklog : Nat) : Subscription :=
  { id, nextSequence := 1, outOfSync := false, outOfSyncFrom := none, outOfSyncTo := none, queue := []
    queueBytes := 0, maxBacklog, inFlight := [], inFlightBytes := 0 }

/-- The test of `push_with_journal_sequence` for an event that no longer fits. -/
def overflows (s : Subscription) (event : UmpEvent) : Prop :=
  s.queue.length + s.inFlight.length ≥ s.maxBacklog ∨
    saturatingAdd (saturatingAdd s.queueBytes s.inFlightBytes) event.payload.length > defaultEventBacklogBytes
  deriving Decidable

/-- The sequence number is used up even where the queue has no room: a sample is dropped then, and any other event
opens or widens the gap. -/
def pushWithJournalSequence (s : Subscription) (event : UmpEvent) (journalSequence : Nat) :
    Except EventError Nat × Subscription :=
  let sequence := s.nextSequence
  let s := { s with nextSequence := sequence + 1 }
  if s.overflows event then
    if event.eventClass = .sample then (.error .sampleDropped, s)
    else
      (.error .outOfSync,
        { s with
          outOfSync := true
          outOfSyncFrom := some (s.outOfSyncFrom.getD sequence)
          outOfSyncTo := some sequence })
  else
    (.ok sequence,
      { s with
        queueBytes := s.queueBytes + event.payload.length
        queue := s.queue ++ [(sequence, journalSequence, event)] })

/-- The oldest event leaves the queue and is in flight until it is acknowledged. -/
def popWithSequenceAndJournal (s : Subscription) : Option (Nat × Nat × UmpEvent) × Subscription :=
  match s.queue with
  | [] => (none, s)
  | (sequence, journalSequence, event) :: queue =>
    let payloadLen := event.payload.length
    (some (sequence, journalSequence, event),
      { s with
        queue
        queueBytes := s.queueBytes - payloadLen
        inFlightBytes := saturatingAdd s.inFlightBytes payloadLen
        inFlight := s.inFlight ++ [(sequence, payloadLen)] })

/-- The loop of `ack`. -/
def acknowledged (highestContiguous : Nat) : List (Nat × Nat) → Nat → List (Nat × Nat) × Nat
  | [], bytes => ([], bytes)
  | (sequence, payloadLen) :: rest, bytes =>
    if sequence ≤ highestContiguous then acknowledged highestContiguous rest (bytes - payloadLen)
    else ((sequence, payloadLen) :: rest, bytes)

def ack (s : Subscription) (highestContiguous : Nat) : Subscription :=
  let (inFlight, inFlightBytes) := acknowledged highestContiguous s.inFlight s.inFlightBytes
  { s with inFlight, inFlightBytes, outOfSync := false, outOfSyncFrom := none, outOfSyncTo := none }

/-- The gap is reported once: taking it puts the subscription back in sync. -/
def takeEventGap (s : Subscription) : Option (Nat × Nat) × Subscription :=
  match s.outOfSyncFrom with
  | none => (none, s)
  | some first =>
    (some (first, s.outOfSyncTo.getD first),
      { s with outOfSync := false, outOfSyncFrom := none, outOfSyncTo := none })

variable {s : Subscription}

/-- A push queues the event, drops it as a sample, or drops it and extends the pending range to it. -/
theorem push_cases (s : Subscription) (event : UmpEvent) (journalSequence : Nat) :
    let s' := (s.pushWithJournalSequence event journalSequence).2
    (¬ s.overflows event ∧ s' =
      { s with
        nextSequence := s.nextSequence + 1
        queueBytes := s.queueBytes + event.payload.length
        queue := s.queue ++ [(s.nextSequence, journalSequence, event)] }) ∨
    (event.eventClass = .sample ∧ s' = { s with nextSequence := s.nextSequence + 1 }) ∨
    (event.eventClass ≠ .sample ∧ s' =
      { s with
        nextSequence := s.nextSequence + 1
        outOfSync := true
        outOfSyncFrom := some (s.outOfSyncFrom.getD s.nextSequence)
        outOfSyncTo := some s.nextSequence }) := by
  unfold pushWithJournalSequence
  dsimp only
  split
  · split
    · exact .inr (.inl ⟨‹_›, rfl⟩)
    · exact .inr (.inr ⟨‹_›, rfl⟩)
  · exact .inl ⟨‹_›, rfl⟩

end Subscription

open Subscription

/-! ### The history of a subscription -/

/-- A subscription with every event pushed under its sequence number, the events popped and the ranges reported.
-/
structure EventHistory where
  subscription : Subscription
  pushed : List (Nat × UmpEvent)
  popped : List (Nat × Nat × UmpEvent)
  reported : List (Nat × Nat)

inductive EventCall where
  | push (event : UmpEvent) (journalSequence : Nat) | pop | ack (highestContiguous : Nat) | takeGap

namespace EventHistory

def new (id maxBacklog : Nat) : EventHistory := ⟨.new id maxBacklog, [], [], []⟩

/-- One call, with what it pushes, pops and reports. -/
def step (h : EventHistory) : EventCall → EventHistory
  | .push event journalSequence =>
    { h with
      subscription := (h.subscription.pushWithJournalSequence event journalSequence).2
      pushed := h.pushed ++ [(h.subscription.nextSequence, event)] }
  | .pop =>
    { h with
      subscription := h.subscription.popWithSequenceAndJournal.2
      popped := h.popped ++ h.subscription.popWithSequenceAndJournal.1.toList }
  | .ack highestContiguous => { h with subscription := h.subscription.ack highestContiguous }
  | .takeGap =>
    { h with
      subscription := h.subscription.takeEventGap.2
      reported := h.reported ++ h.subscription.takeEventGap.1.toList }

def Within (sequence : Nat) (range : Nat × Nat) : Prop := range.1 ≤ sequence ∧ sequence ≤ range.2

/-- The event is queued, was popped, or its number is in a range reported or pending. -/
def Accounted (h : EventHistory) (sequence : Nat) (event : UmpEvent) : Prop :=
  (∃ journalSequence, (sequence, journalSequence, event) ∈ h.subscription.queue) ∨
    (∃ journalSequence, (sequence, journalSequence, event) ∈ h.popped) ∨
    (∃ range ∈ h.reported, Within sequence range) ∨
    ∃ range, h.subscription.takeEventGap.1 = some range ∧ Within sequence range

def NoSilentLoss (h : EventHistory) : Prop :=
  ∀ pushed ∈ h.pushed, pushed.2.eventClass ≠ .sample → h.Accounted pushed.1 pushed.2

/-- Nothing is pending, or a range that begins with a dropped event which is in no other place. -/
def GapShape (h : EventHistory) : Prop :=
  (h.subscription.outOfSyncFrom = none ∧ h.subscription.outOfSyncTo = none) ∨
    ∃ first last event, h.subscription.outOfSyncFrom = some first ∧ h.subscription.outOfSyncTo = some last ∧
      first ≤ last ∧ last < h.subscription.nextSequence ∧ (first, event) ∈ h.pushed ∧
      event.eventClass ≠ .sample ∧ (∀ queued ∈ h.subscription.queue, queued.1 ≠ first) ∧
      (∀ popped ∈ h.popped, popped.1 ≠ first) ∧ ∀ range ∈ h.reported, range.2 < first

/-- Whatever was queued, popped or reported lies before the next sequence number. -/
structure Ordered (h : EventHistory) : Prop where
  queued : ∀ queued ∈ h.subscription.queue, queued.1 < h.subscription.nextSequence
  popped : ∀ popped ∈ h.popped, popped.1 < h.subscription.nextSequence
  reported : ∀ range ∈ h.reported, range.2 < h.subscription.nextSequence
  gap : h.GapShape

variable {h : EventHistory}

theorem ordered_new {id maxBacklog : Nat} : (new id maxBacklog).Ordered where
  queued _ member := absurd member List.not_mem_nil
  popped _ member := absurd member List.not_mem_nil
  reported _ member := absurd member List.not_mem_nil
  gap := .inl ⟨rfl, rfl⟩

theorem takeEventGap_of_pending {s : Subscription} (begins : s.outOfSyncFrom = some first)
    (ends : s.outOfSyncTo = some last) : s.takeEventGap.1 = some (first, last) := by
  rw [takeEventGap, begins, ends]
  rfl

theorem takeEventGap_of_none {s : Subscription} (nothing : s.outOfSyncFrom = none) :
    s.takeEventGap = (none, s) := by
  rw [takeEventGap, nothing]

theorem takeEventGap_kept {s s' : Subscription} (next : s.takeEventGap.1 = some range)
    (begins : s'.outOfSyncFrom = s.outOfSyncFrom) (ends : s'.outOfSyncTo = s.outOfSyncTo) :
    s'.takeEventGap.1 = some range := by
  rw [← next, takeEventGap, takeEventGap, begins, ends]
  cases s.outOfSyncFrom <;> rfl

/-! ### One call -/

theorem GapShape.kept {h' : EventHistory} (gap : h.GapShape)
    (begins : h'.subscription.outOfSyncFrom = h.subscription.outOfSyncFrom)
    (ends : h'.subscription.outOfSyncTo = h.subscription.outOfSyncTo) (reported : h'.reported = h.reported)
    (later : h.subscription.nextSequence ≤ h'.subscription.nextSequence) (pushed : h.pushed ⊆ h'.pushed)
    (placed : ∀ first, first < h.subscription.nextSequence → (∀ q ∈ h.subscription.queue, q.1 ≠ first) →
      (∀ p ∈ h.popped, p.1 ≠ first) →
      (∀ q ∈ h'.subscription.queue, q.1 ≠ first) ∧ ∀ p ∈ h'.popped, p.1 ≠ first) : h'.GapShape := by
  rw [GapShape, begins, ends, reported]
  refine gap.imp_right ?_
  rintro ⟨first, last, lost, begins, ends, nonempty, known, dropped, stateful, elsewhere, unpopped, after⟩
  obtain ⟨elsewhere, unpopped⟩ := placed first (nonempty.trans_lt known) elsewhere unpopped
  exact ⟨first, last, lost, begins, ends, nonempty, known.trans_le later, pushed dropped, stateful, elsewhere,
    unpopped, after⟩

section
variable (ordered : h.Ordered)
include ordered

theorem ordered_push : (h.step (.push event journalSequence)).Ordered := by
  have older : ∀ {n}, n < h.subscription.nextSequence → n < h.subscription.nextSequence + 1 := by omega
  have queued := fun q member => older (ordered.queued q member)
  have popped := fun p member => older (ordered.popped p member)
  have reported := fun r member => older (ordered.reported r member)
  rw [step]
  rcases h.subscription.push_cases event journalSequence with ⟨-, taken⟩ | ⟨-, dropped⟩ | ⟨stateful, dropped⟩
  · rw [taken]
    refine { queued := List.forall_mem_append.mpr ⟨queued, List.forall_mem_singleton.mpr (Nat.lt_succ_self _)⟩
             popped, reported, gap := ?_ }
    refine ordered.gap.kept rfl rfl rfl (Nat.le_succ _) (List.subset_append_left _ _) fun first known elsewhere
      unpopped => ⟨List.forall_mem_append.mpr ⟨elsewhere, List.forall_mem_singleton.mpr known.ne'⟩, unpopped⟩
  · rw [dropped]
    exact { queued, popped, reported
            gap := ordered.gap.kept rfl rfl rfl (Nat.le_succ _) (List.subset_append_left _ _)
              fun _ _ elsewhere unpopped => ⟨elsewhere, unpopped⟩ }
  · rw [dropped]
    refine { queued, popped, reported, gap := .inr ?_ }
    rcases ordered.gap with ⟨begins, -⟩ | ⟨first, last, lost, begins, -, nonempty, known, pushed, rest⟩
    · refine ⟨h.subscription.nextSequence, h.subscription.nextSequence, event, by rw [begins]; rfl, rfl, le_rfl,
        Nat.lt_succ_self _, List.mem_append_right _ (List.mem_singleton_self _), stateful,
        fun q member => (ordered.queued q member).ne, fun p member => (ordered.popped p member).ne,
        ordered.reported⟩
    · exact ⟨first, h.subscription.nextSequence, lost, by rw [begins]; rfl, rfl, by omega, Nat.lt_succ_self _,
        List.mem_append_left _ pushed, rest⟩

theorem ordered_pop : (h.step .pop).Ordered := by
  unfold step popWithSequenceAndJournal
  cases shape : h.subscription.queue with
  | nil =>
    simp only [Option.toList_none, List.append_nil]
    exact ordered
  | cons entry queue =>
    have front : entry ∈ h.subscription.queue := shape ▸ List.mem_cons_self
    have behind : ∀ other ∈ queue, other ∈ h.subscription.queue := fun other member =>
      shape ▸ List.mem_cons_of_mem _ member
    refine { queued := fun q member => ordered.queued q (behind q member)
             popped := List.forall_mem_append.mpr ⟨ordered.popped, List.forall_mem_singleton.mpr ?_⟩
             reported := ordered.reported, gap := ?_ }
    · exact ordered.queued entry front
    · exact ordered.gap.kept rfl rfl rfl le_rfl (List.Subset.refl _) fun first _ elsewhere unpopped =>
        ⟨fun q member => elsewhere q (behind q member),
          List.forall_mem_append.mpr ⟨unpopped, List.forall_mem_singleton.mpr (elsewhere entry front)⟩⟩

theorem ordered_ack : (h.step (.ack highestContiguous)).Ordered :=
  { queued := ordered.queued, popped := ordered.popped, reported := ordered.reported, gap := .inl ⟨rfl, rfl⟩ }

theorem ordered_takeGap : (h.step .takeGap).Ordered := by
  unfold step
  rcases ordered.gap with ⟨begins, -⟩ | ⟨first, last, lost, begins, ends, -, known, -⟩
  · rw [takeEventGap_of_none begins]
    simp only [Option.toList_none, List.append_nil]
    exact ordered
  · rw [takeEventGap_of_pending begins ends]
    have cleared : h.subscription.takeEventGap.2 =
        { h.subscription with outOfSync := false, outOfSyncFrom := none, outOfSyncTo := none } := by
      rw [takeEventGap, begins]
    rw [cleared]
    exact { queued := ordered.queued, popped := ordered.popped, gap := .inl ⟨rfl, rfl⟩
            reported := List.forall_mem_append.mpr ⟨ordered.reported, List.forall_mem_singleton.mpr known⟩ }

theorem ordered_step : (h.step call).Ordered := by
  cases call with
  | push => exact ordered_push ordered
  | pop => exact ordered_pop ordered
  | ack => exact ordered_ack ordered
  | takeGap => exact ordered_takeGap ordered

end

/-- An event stays accounted for when nothing leaves the queue but to be popped and a pending range is reported
or stays within what is pending. -/
theorem Accounted.kept {h' : EventHistory} {sequence : Nat} (accounted : h.Accounted sequence event)
    (queue : ∀ q ∈ h.subscription.queue, q ∈ h'.subscription.queue ∨ q ∈ h'.popped) (popped : h.popped ⊆ h'.popped)
    (reported : h.reported ⊆ h'.reported)
    (gap : ∀ range, h.subscription.takeEventGap.1 = some range → Within sequence range →
      range ∈ h'.reported ∨ ∃ range, h'.subscription.takeEventGap.1 = some range ∧ Within sequence range) :
    h'.Accounted sequence event := by
  rcases accounted with ⟨journal, here⟩ | ⟨journal, gone⟩ | ⟨range, told, inside⟩ | ⟨range, next, inside⟩
  · exact (queue _ here).imp (⟨journal, ·⟩) fun gone => .inl ⟨journal, gone⟩
  · exact .inr (.inl ⟨journal, popped gone⟩)
  · exact .inr (.inr (.inl ⟨range, reported told, inside⟩))
  · exact .inr (.inr ((gap range next inside).imp (⟨range, ·, inside⟩) id))

/-- A push that finds no room drops a sample, or enters the event in the gap. -/
theorem noSilentLoss_push (ordered : h.Ordered) (safe : h.NoSilentLoss) :
    (h.step (.push event journalSequence)).NoSilentLoss := by
  rw [step]
  rcases h.subscription.push_cases event journalSequence with ⟨-, queued⟩ | ⟨sample, dropped⟩ | ⟨-, dropped⟩
  · rw [queued]
    refine List.forall_mem_append.mpr ⟨fun pushed old stateful => ?_, List.forall_mem_singleton.mpr fun _ =>
      .inl ⟨journalSequence, List.mem_append_right _ (List.mem_singleton_self _)⟩⟩
    exact (safe pushed old stateful).kept (fun _ here => .inl (List.mem_append_left _ here)) (List.Subset.refl _)
      (List.Subset.refl _) fun range next inside => .inr ⟨range, takeEventGap_kept next rfl rfl, inside⟩
  · rw [dropped]
    refine List.forall_mem_append.mpr ⟨fun pushed old stateful => ?_, List.forall_mem_singleton.mpr fun stateful =>
      absurd sample stateful⟩
    exact (safe pushed old stateful).kept (fun _ => .inl) (List.Subset.refl _) (List.Subset.refl _)
      fun range next inside => .inr ⟨range, takeEventGap_kept next rfl rfl, inside⟩
  · rw [dropped]
    -- the pending range grows to the new number, which is beyond all that it held
    have begins : h.subscription.outOfSyncFrom.getD h.subscription.nextSequence ≤ h.subscription.nextSequence := by
      rcases ordered.gap with ⟨nothing, -⟩ | ⟨first, last, -, pending, -, nonempty, known, -⟩
      · rw [nothing]
        exact le_rfl
      · rw [pending]
        exact (nonempty.trans known.le)
    refine List.forall_mem_append.mpr ⟨fun pushed old stateful => ?_, List.forall_mem_singleton.mpr fun _ =>
      .inr (.inr (.inr ⟨_, takeEventGap_of_pending rfl rfl, begins, le_rfl⟩))⟩
    refine (safe pushed old stateful).kept (fun _ => .inl) (List.Subset.refl _) (List.Subset.refl _)
      fun before next inside => .inr ⟨_, takeEventGap_of_pending rfl rfl, ?_⟩
    rcases ordered.gap with ⟨nothing, -⟩ | ⟨first, last, -, pending, ends, -, known, -⟩
    · rw [takeEventGap_of_none nothing] at next
      cases next
    · rw [takeEventGap_of_pending pending ends] at next
      cases next
      rw [pending]
      exact ⟨inside.1, inside.2.trans known.le⟩

theorem noSilentLoss_pop (safe : h.NoSilentLoss) : (h.step .pop).NoSilentLoss := by
  unfold step popWithSequenceAndJournal
  cases shape : h.subscription.queue with
  | nil =>
    simp only [Option.toList_none, List.append_nil]
    exact safe
  | cons entry queue =>
    intro pushed member stateful
    refine (safe pushed member stateful).kept (fun q here => ?_) (List.subset_append_left _ _) (List.Subset.refl _)
      fun range next inside => .inr ⟨range, takeEventGap_kept next rfl rfl, inside⟩
    rw [shape] at here
    rcases List.mem_cons.mp here with rfl | behind
    · exact .inr (List.mem_append_right _ (List.mem_singleton_self _))
    · exact .inl behind

theorem noSilentLoss_takeGap (safe : h.NoSilentLoss) : (h.step .takeGap).NoSilentLoss := by
  intro pushed member stateful
  refine (safe pushed member stateful).kept (fun q here => .inl ?_) (List.Subset.refl _)
    (List.subset_append_left _ _) fun range next _ => .inl (List.mem_append_right _ ?_)
  · unfold step takeEventGap
    cases h.subscription.outOfSyncFrom <;> exact here
  · rw [next]
    exact List.mem_singleton_self _

/-- Without a pending range, an acknowledgement only shortens what is in flight. -/
theorem noSilentLoss_ack (safe : h.NoSilentLoss) (nothing : h.subscription.outOfSyncFrom = none) :
    (h.step (.ack highestContiguous)).NoSilentLoss := by
  intro pushed member stateful
  refine (safe pushed member stateful).kept (fun _ => .inl) (List.Subset.refl _) (List.Subset.refl _)
    fun range next _ => ?_
  rw [takeEventGap_of_none nothing] at next
  cases next

/-- An acknowledgement forgets a pending range: the event it began with is in no place any more. -/
theorem loss_of_ack (ordered : h.Ordered) (pending : h.subscription.outOfSyncFrom ≠ none) :
    ¬ (h.step (.ack highestContiguous)).NoSilentLoss := by
  rcases ordered.gap with
    ⟨nothing, -⟩ | ⟨first, last, event, -, -, -, -, pushed, stateful, elsewhere, unpopped, later⟩
  · exact absurd nothing pending
  intro safe
  rcases safe (first, event) pushed stateful with
    ⟨journal, here⟩ | ⟨journal, popped⟩ | ⟨range, reported, inside⟩ | ⟨range, next, -⟩
  · exact elsewhere _ here rfl
  · exact unpopped _ popped rfl
  · exact absurd inside.2 (Nat.not_le.mpr (later range reported))
  · cases next

/-! ### Whole runs -/

theorem run_ordered (id maxBacklog : Nat) (calls : List EventCall) :
    (calls.foldl step (new id maxBacklog)).Ordered :=
  Run.invariant (fun _ _ ordered => ordered_step ordered) ordered_new

def TakesGapFirst (h : EventHistory) : EventCall → Prop
  | .ack _ => h.subscription.outOfSyncFrom = none
  | _ => True

theorem noSilentLoss_step (ordered : h.Ordered) (safe : h.NoSilentLoss) :
    (h.step call).NoSilentLoss ↔ h.TakesGapFirst call := by
  cases call with
  | push =>
    exact ⟨fun _ => trivial, fun _ => noSilentLoss_push ordered safe⟩
  | pop => exact ⟨fun _ => trivial, fun _ => noSilentLoss_pop safe⟩
  | ack =>
    refine ⟨fun kept => ?_, fun nothing => noSilentLoss_ack safe nothing⟩
    by_contra pending
    exact loss_of_ack ordered pending kept
  | takeGap => exact ⟨fun _ => trivial, fun _ => noSilentLoss_takeGap safe⟩

/-- No event but samples is lost silently, at any moment of a run, exactly if no acknowledgement arrives between
the drop of an event and the report of the range with it. -/
theorem noSilentLoss_iff (id maxBacklog : Nat) (calls : List EventCall) :
    (∀ before after, calls = before ++ after → (before.foldl step (new id maxBacklog)).NoSilentLoss) ↔
      Run.Meets TakesGapFirst step (new id maxBacklog) calls := by
  have empty : (new id maxBacklog).NoSilentLoss := fun _ member => absurd member List.not_mem_nil
  exact Run.throughout_iff (fun _ call ordered => ordered_step ordered)
    (fun _ call ordered safe => noSilentLoss_step ordered safe) ordered_new empty

def droppedEvent : UmpEvent :=
  { eventClass := .critical, eventType := "node_state", resource := none, payload := [], occurredAtMs := 0 }

/-- The second of two critical events is dropped, and an acknowledgement of the first takes the pending range
with it. -/
theorem acknowledgement_forgets_gap :
    let h := [EventCall.push droppedEvent 1, .pop, .push droppedEvent 2, .ack 1].foldl step (new 7 1)
    h.pushed = [(1, droppedEvent), (2, droppedEvent)] ∧ h.subscription.queue = [] ∧
      h.popped.map Prod.fst = [1] ∧ h.reported = [] ∧ h.subscription.takeEventGap.1 = none ∧
      ¬ h.NoSilentLoss := by
  refine ⟨by decide +kernel, by decide +kernel, by decide +kernel, by decide +kernel, by decide +kernel, ?_⟩
  have ordered := run_ordered 7 1 [.push droppedEvent 1, .pop, .push droppedEvent 2]
  exact loss_of_ack ordered (by decide +kernel)

/-! ### Bytes -/

/-- The counters are the payload sizes of what is queued and of what is in flight, within both bounds. What is in
flight was popped, and the numbers ascend. -/
def Balanced (maxBacklog : Nat) (h : EventHistory) : Prop :=
  let s := h.subscription
  s.queueBytes = (s.queue.map fun queued => queued.2.2.payload.length).sum ∧
    s.inFlightBytes = (s.inFlight.map Prod.snd).sum ∧
    (s.maxBacklog = maxBacklog ∧ s.queue.length + s.inFlight.length ≤ maxBacklog) ∧
    s.queueBytes + s.inFlightBytes ≤ defaultEventBacklogBytes ∧
    (s.inFlight.Sublist (h.popped.map fun popped => (popped.1, popped.2.2.payload.length))) ∧
    ((h.popped ++ s.queue).map Prod.fst).Pairwise (· < ·)

variable {maxBacklog : Nat}

theorem saturatingAdd_le (small : bound < u64Max) (within : saturatingAdd a b ≤ bound) : a + b ≤ bound := by
  unfold saturatingAdd at within
  omega

theorem balanced_push (ordered : h.Ordered) (balanced : h.Balanced maxBacklog) :
    (h.step (.push event journalSequence)).Balanced maxBacklog := by
  rw [step]
  rcases h.subscription.push_cases event journalSequence with ⟨fits, taken⟩ | ⟨-, dropped⟩ | ⟨-, dropped⟩
  · rw [taken]
    obtain ⟨queueBytes, inFlightBytes, ⟨limit, -⟩, within, inFlight, ascending⟩ := balanced
    rw [overflows, not_or, not_le, not_lt, limit] at fits
    rw [saturatingAdd_of_le (within.trans (by decide))] at fits
    have bytes := saturatingAdd_le (by decide) fits.2
    refine ⟨?_, inFlightBytes, ⟨limit, ?_⟩, ?_, inFlight, ?_⟩
    · simp [queueBytes]
    · dsimp only
      rw [List.length_append, List.length_singleton]
      omega
    · dsimp only
      omega
    · rw [← List.append_assoc, List.map_append, List.pairwise_append]
      refine ⟨ascending, List.pairwise_singleton _ _, fun earlier member => List.forall_mem_singleton.mpr ?_⟩
      obtain ⟨entry, held, rfl⟩ := List.mem_map.mp member
      exact (List.mem_append.mp held).elim (ordered.popped entry) (ordered.queued entry)
  · rw [dropped]
    exact balanced
  · rw [dropped]
    exact balanced

/-- In ascending order, the loop of `ack` leaves exactly what is numbered above its argument. -/
theorem acknowledged_eq (ascending : (flight.map Prod.fst).Pairwise (· < ·)) :
    acknowledged n flight (flight.map Prod.snd).sum =
      (flight.filter (n < ·.1), ((flight.filter (n < ·.1)).map Prod.snd).sum) := by
  induction flight with
  | nil => rfl
  | cons entry rest ih =>
    obtain ⟨first, later⟩ := List.pairwise_cons.mp ascending
    rw [acknowledged]
    split
    · next low =>
      rw [List.map_cons, List.sum_cons, Nat.add_sub_cancel_left, ih later,
        List.filter_cons_of_neg (by simpa using low)]
    · next high =>
      have all : (entry :: rest).filter (n < ·.1) = entry :: rest := by
        refine List.filter_eq_self.mpr (List.forall_mem_cons.mpr ⟨by simpa using high, fun other member => ?_⟩)
        have := first other.1 (List.mem_map_of_mem member)
        simp
        omega
      rw [all]

section
variable (balanced : h.Balanced maxBacklog)
include balanced

theorem balanced_pop : (h.step .pop).Balanced maxBacklog := by
  unfold step popWithSequenceAndJournal
  cases shape : h.subscription.queue with
  | nil =>
    simp only [Option.toList_none, List.append_nil]
    exact balanced
  | cons entry queue =>
    obtain ⟨queueBytes, inFlightBytes, ⟨limit, backlog⟩, within, inFlight, ascending⟩ := balanced
    simp only [shape, List.map_cons, List.sum_cons, List.length_cons] at queueBytes backlog ascending
    have moved : h.subscription.inFlightBytes + entry.2.2.payload.length ≤ defaultEventBacklogBytes := by omega
    unfold Balanced
    dsimp only
    rw [saturatingAdd_of_le (moved.trans (by decide)), List.length_append, List.length_singleton]
    have left := Nat.sub_eq_of_eq_add' queueBytes
    rw [left]
    refine ⟨rfl, by simp [inFlightBytes], ⟨limit, by omega⟩, by omega, ?_, ?_⟩
    · rw [Option.toList_some, List.map_append]
      exact inFlight.append (.refl _)
    · rwa [Option.toList_some, List.append_assoc]

theorem balanced_releases (n : Nat) :
    acknowledged n h.subscription.inFlight h.subscription.inFlightBytes =
      (h.subscription.inFlight.filter (n < ·.1), ((h.subscription.inFlight.filter (n < ·.1)).map Prod.snd).sum) := by
  obtain ⟨-, inFlightBytes, -, -, inFlight, ascending⟩ := balanced
  rw [List.map_append] at ascending
  rw [inFlightBytes]
  refine acknowledged_eq ((List.pairwise_append.mp ascending).1.sublist ?_)
  simpa [Function.comp_def] using inFlight.map Prod.fst

theorem balanced_ack (n : Nat) : (h.step (.ack n)).Balanced maxBacklog := by
  have released := balanced_releases balanced n
  obtain ⟨queueBytes, inFlightBytes, ⟨limit, backlog⟩, within, inFlight, ascending⟩ := balanced
  simp only [step, Subscription.ack, released]
  have fewer := h.subscription.inFlight.filter_sublist (p := (n < ·.1))
  have lighter := (fewer.map Prod.snd).sum_le_sum fun _ _ => Nat.zero_le _
  refine ⟨queueBytes, rfl, ⟨limit, ?_⟩, ?_, fewer.trans inFlight, ascending⟩
  · exact (Nat.add_le_add_left fewer.length_le _).trans backlog
  · dsimp only
    omega

end

/-- In every run the counters agree with the queues, the bounds hold, popped numbers ascend, and an acknowledgement
releases exactly the events in flight up to its number. -/
theorem accounting_exact (id maxBacklog : Nat) (calls : List EventCall) :
    let h := calls.foldl step (new id maxBacklog)
    h.Balanced maxBacklog ∧ (h.popped.map Prod.fst).Pairwise (· < ·) ∧
      ∀ n, (h.subscription.ack n).inFlight = h.subscription.inFlight.filter (n < ·.1) := by
  intro h
  have kept : ∀ (h : EventHistory) call, h.Ordered ∧ h.Balanced maxBacklog →
      (h.step call).Ordered ∧ (h.step call).Balanced maxBacklog := by
    rintro h call ⟨ordered, balanced⟩
    refine ⟨ordered_step ordered, ?_⟩
    cases call with
    | push => exact balanced_push ordered balanced
    | pop => exact balanced_pop balanced
    | ack highestContiguous => exact balanced_ack balanced highestContiguous
    | takeGap =>
      unfold step takeEventGap
      cases h.subscription.outOfSyncFrom <;> exact balanced
  have initial : (new id maxBacklog).Balanced maxBacklog :=
    ⟨rfl, rfl, ⟨rfl, Nat.zero_le _⟩, Nat.zero_le _, .refl _, .nil⟩
  have balanced : h.Ordered ∧ h.Balanced maxBacklog := Run.invariant kept ⟨ordered_new, initial⟩
  refine ⟨balanced.2, ?_, fun n => ?_⟩
  · obtain ⟨-, -, -, -, -, -, ascending⟩ := balanced
    rw [List.map_append] at ascending
    exact (List.pairwise_append.mp ascending).1
  · simp only [Subscription.ack, balanced_releases balanced.2 n]

end EventHistory
end UniversalMesh.Control
