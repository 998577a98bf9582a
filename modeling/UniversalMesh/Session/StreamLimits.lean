import UniversalMesh.Session.StreamDelivery
import UniversalMesh.Wire.RoundTrip

/-! The bounds of a stream over whole runs: its limit, its final size, and the budget of its buffer. A segment
is held against the limit with its first byte and not its last, a FIN is not held against the data before it,
and a longer segment that takes the place of a shorter one is counted on top of it. The bounds hold where the
peer keeps to what `receive` does not ask. -/
namespace UniversalMesh.Session
open MachineWord Wire OrderedMap

/-- A stream's own calls, and the credit with which `flow_control_frames` raises its limit. -/
inductive StreamEvent where
  | receive (offset : Nat) (data : Slice) (fin : Bool) | readAvailable | sendReady (data : Bytes)
  | raiseLimit (limit : Nat)

namespace Stream

/-- The limit is only ever raised. -/
def raiseLimit (s : Stream) (limit : Nat) : Stream :=
  { s with maxStreamDataLocal := max s.maxStreamDataLocal limit }

/-- All bytes that the stream has delivered or buffers lie before the bound. -/
def EndsBy (s : Stream) (bound : Nat) : Prop :=
  s.nextDeliverOffset ≤ bound ∧ ∀ entry ∈ s.buffered, entry.1 + entry.2.length ≤ bound
  deriving Decidable

/-- What the buffer holds is counted, and within its budget. -/
structure Counted (s : Stream) : Prop where
  bytes : s.bufferedBytes = s.buffered.sumBy List.length
  budget : s.bufferedBytes ≤ maxOutOfOrderBytes
  ranges : s.buffered.size ≤ maxOutOfOrderRanges

variable {s : Stream} {bound : Nat}

theorem EndsBy.mono (ends : s.EndsBy bound) (le : bound ≤ larger) : s.EndsBy larger :=
  ⟨ends.1.trans le, fun entry member => (ends.2 entry member).trans le⟩

theorem EndsBy.maxReceivedOffset (ends : s.EndsBy bound) : s.maxReceivedOffset ≤ bound := by
  unfold Stream.maxReceivedOffset
  split
  · next key value last =>
    have member : (key, value) ∈ s.buffered := List.mem_of_getLast? last
    exact (Nat.min_le_left ..).trans (ends.2 _ member)
  · exact ends.1

variable {data : Bytes}

theorem EndsBy.insert {offset : Nat} (ends : s.EndsBy bound) (fits : offset + data.length ≤ bound) :
    ∀ entry ∈ s.buffered.insert offset data, entry.1 + entry.2.length ≤ bound :=
  forall_mem_insert fits ends.2

theorem EndsBy.repeats {offset : Nat} (ends : s.EndsBy bound) (repeats : s.repeats offset data = true) :
    offset + data.length ≤ bound := by
  rcases repeats_known repeats with delivered | ⟨entry, member, -, inside⟩
  · exact delivered.trans ends.1
  · exact inside.trans (ends.2 entry member)

/-! ### Reading -/

/-- What the loop of `read_available` keeps, if taking the next range does. -/
theorem drain_keeps {holds : Stream → Prop}
    (keeps : ∀ s data, s.buffered.first? = some (s.nextDeliverOffset, data) → holds s →
      holds (s.takeFirst s.nextDeliverOffset data))
    (s : Stream) (out : Bytes) (initial : holds s) : holds (s.drain out).2 := by
  fun_induction drain s out with
  | case1 => exact initial
  | case2 => exact initial
  | case3 s out offset data found here ih =>
    obtain rfl : offset = s.nextDeliverOffset := not_not.mp here
    exact ih (keeps s data found initial)

section
variable (found : s.buffered.first? = some (s.nextDeliverOffset, data))
include found

theorem takeFirst_endsBy (ends : s.EndsBy bound) : (s.takeFirst s.nextDeliverOffset data).EndsBy bound := by
  have member := (first?_eq_some found).1
  refine ⟨?_, fun entry kept => ends.2 entry (mem_erase.mp kept).1⟩
  exact (Nat.min_le_left ..).trans (ends.2 _ member)

theorem takeFirst_counted (counted : s.Counted) : (s.takeFirst s.nextDeliverOffset data).Counted := by
  have held := get?_eq_some.mpr (first?_eq_some found).1
  have taken := sumBy_erase held List.length
  have fewer := size_erase held
  obtain ⟨bytes, budget, ranges⟩ := counted
  refine ⟨?_, ?_, ?_⟩ <;> dsimp only [takeFirst] <;> omega

end

theorem drain_length (s : Stream) (out : Bytes) :
    (s.drain out).1.length + s.nextDeliverOffset = out.length + (s.drain out).2.nextDeliverOffset := by
  fun_induction drain s out with
  | case1 => rfl
  | case2 => rfl
  | case3 s out offset data found here ih =>
    obtain rfl : offset = s.nextDeliverOffset := not_not.mp here
    have next : (s.takeFirst s.nextDeliverOffset data).nextDeliverOffset = s.nextDeliverOffset + data.length :=
      saturatingAdd_of_le (s.fits _ (first?_eq_some found).1)
    rw [next, List.length_append] at ih
    omega

end Stream

namespace Reception

def handle (r : Reception) : StreamEvent → Reception
  | .receive offset data fin => r.step (.receive offset data.bytes fin)
  | .readAvailable => r.step .readAvailable
  | .sendReady data =>
    match r.stream.sendReady data with
    | .error _ => r
    | .ok (_, stream) => { r with stream }
  | .raiseLimit limit => { r with stream := r.stream.raiseLimit limit }

variable {r : Reception}

/-- What the receiving half of a stream is about. -/
structure SameReceiver (s s' : Stream) : Prop where
  reception : s.SameReception s'
  bytes : s'.bufferedBytes = s.bufferedBytes
  size : s'.finalSize = s.finalSize
  limit : s'.maxStreamDataLocal = s.maxStreamDataLocal

theorem sendReady_receiver (data : Bytes) : SameReceiver r.stream (r.handle (.sendReady data)).stream := by
  rw [handle]
  split
  · exact ⟨⟨rfl, rfl⟩, rfl, rfl, rfl⟩
  · next ready =>
    unfold Stream.sendReady at ready
    split at ready
    · cases ready
    · cases ready
      exact ⟨⟨rfl, rfl⟩, rfl, rfl, rfl⟩

theorem sendReady_delivered : (r.handle (.sendReady data)).delivered = r.delivered := by
  rw [handle]
  split <;> rfl

theorem readAvailable_receiver (r : Reception) :
    SameReceiver (r.stream.drain []).2 (r.handle .readAvailable).stream := by
  rw [handle, step]
  unfold Stream.readAvailable
  dsimp only
  split <;> exact ⟨⟨rfl, rfl⟩, rfl, rfl, rfl⟩

variable {bound offset size : Nat} {s s' : Stream} {data : Bytes} {fin : Bool}

theorem SameReceiver.endsBy (same : SameReceiver s s') (ends : s.EndsBy bound) : s'.EndsBy bound := by
  unfold Stream.EndsBy
  rw [same.reception.1, same.reception.2]
  exact ends

theorem SameReceiver.counted (same : SameReceiver s s') (counted : s.Counted) : s'.Counted := by
  obtain ⟨bytes, budget, ranges⟩ := counted
  refine ⟨?_, ?_, ?_⟩
  · rw [same.bytes, same.reception.2, bytes]
  · rwa [same.bytes]
  · rwa [same.reception.2]

theorem drain_unchanged (s : Stream) (out : Bytes) :
    (s.drain out).2.finalSize = s.finalSize ∧ (s.drain out).2.maxStreamDataLocal = s.maxStreamDataLocal := by
  have keeps : ∀ (t : Stream) (data : Bytes), t.buffered.first? = some (t.nextDeliverOffset, data) →
      t.finalSize = s.finalSize ∧ t.maxStreamDataLocal = s.maxStreamDataLocal →
      (t.takeFirst t.nextDeliverOffset data).finalSize = s.finalSize ∧
        (t.takeFirst t.nextDeliverOffset data).maxStreamDataLocal = s.maxStreamDataLocal :=
    fun _ _ _ same => same
  exact Stream.drain_keeps keeps s out ⟨rfl, rfl⟩

/-! ### The limit -/

/-- An accepted segment ends within the limit. -/
def AcceptsWithin (r : Reception) : StreamEvent → Prop
  | .receive offset data fin => ∀ count, (r.stream.receive offset data.bytes fin).1 = .ok count →
      offset + data.bytes.length ≤ r.stream.maxStreamDataLocal
  | _ => True

/-- A new segment that passes the checks ends within the limit. -/
def TakesWithin (r : Reception) : StreamEvent → Prop
  | .receive offset data fin => r.stream.Takes offset data.bytes fin →
      offset + data.bytes.length ≤ r.stream.maxStreamDataLocal
  | _ => True

theorem receive_endsBy (ends : s.EndsBy bound) (fits : s.Takes offset data fin → offset + data.length ≤ bound) :
    (s.receive offset data fin).2.EndsBy bound := by
  have reaction := s.receive_reaction offset data fin
  generalize s.receive offset data fin = result at reaction
  cases reaction with
  | barred => exact ends
  | misplaced => exact ends
  | exhausted => exact ends
  | repeated => exact ends
  | taken takes => exact ⟨ends.1, ends.insert (fits takes)⟩

theorem readAvailable_endsBy (ends : r.stream.EndsBy bound) :
    (r.handle .readAvailable).stream.EndsBy bound := by
  have keeps : ∀ (s : Stream) (data : Bytes), s.buffered.first? = some (s.nextDeliverOffset, data) →
      s.EndsBy bound → (s.takeFirst s.nextDeliverOffset data).EndsBy bound :=
    fun _ _ found ends => Stream.takeFirst_endsBy found ends
  exact (readAvailable_receiver r).endsBy (Stream.drain_keeps keeps r.stream [] ends)

theorem receive_limit : (s.receive offset data fin).2.maxStreamDataLocal = s.maxStreamDataLocal := by
  have reaction := s.receive_reaction offset data fin
  generalize s.receive offset data fin = result at reaction
  cases reaction <;> rfl

theorem handle_within (r : Reception) (event : StreamEvent) (within : r.stream.EndsBy r.stream.maxStreamDataLocal)
    (takes : TakesWithin r event) : (r.handle event).stream.EndsBy (r.handle event).stream.maxStreamDataLocal := by
  cases event with
  | receive offset data fin =>
    have limit : (r.handle (.receive offset data fin)).stream.maxStreamDataLocal = r.stream.maxStreamDataLocal :=
      receive_limit
    rw [limit]
    exact receive_endsBy within takes
  | readAvailable =>
    have limit : (r.handle .readAvailable).stream.maxStreamDataLocal = r.stream.maxStreamDataLocal :=
      (readAvailable_receiver r).limit.trans (drain_unchanged r.stream []).2
    rw [limit]
    exact readAvailable_endsBy within
  | sendReady data =>
    have same := sendReady_receiver (r := r) data
    rw [same.limit]
    exact same.endsBy within
  | raiseLimit limit => exact within.mono (Nat.le_max_left ..)

theorem accepts_within (r : Reception) (event : StreamEvent) (within : r.stream.EndsBy r.stream.maxStreamDataLocal)
    (takes : TakesWithin r event) : AcceptsWithin r event := by
  cases event with
  | receive offset data fin =>
    intro count accepted
    obtain ⟨receivable, -⟩ := Stream.receive_ok.mp accepted
    cases repeats : r.stream.repeats offset data.bytes with
    | true => exact within.repeats repeats
    | false => exact takes ⟨receivable, repeats⟩
  | _ => trivial

/-- In every state the bytes received lie within the limit and no accepted segment ends beyond it, exactly if
every new segment that passes the checks ends within it. -/
theorem within_limit_iff (streamId : Nat) (protocolId : Bytes) (maxStreamData : Nat) (events : List StreamEvent) :
    ((∀ before after, events = before ++ after →
        (before.foldl handle (start streamId protocolId maxStreamData)).stream.maxReceivedOffset ≤
          (before.foldl handle (start streamId protocolId maxStreamData)).stream.maxStreamDataLocal) ∧
      Run.Meets AcceptsWithin handle (start streamId protocolId maxStreamData) events) ↔
    Run.Meets TakesWithin handle (start streamId protocolId maxStreamData) events := by
  have initial : (start streamId protocolId maxStreamData).stream.EndsBy maxStreamData :=
    ⟨Nat.zero_le _, fun _ member => absurd member not_mem_empty⟩
  have taken : ∀ (r : Reception) (event : StreamEvent), AcceptsWithin r event → TakesWithin r event := by
    intro r event accepts
    cases event with
    | receive => exact fun takes => accepts _ (Stream.receive_ok.mpr ⟨takes.1, rfl⟩)
    | _ => trivial
  constructor
  · exact fun both => both.2.imp taken
  · intro takes
    refine ⟨?_, Run.meets_of_invariant handle_within accepts_within initial takes⟩
    rintro before after rfl
    exact (Run.invariant_of_meets handle_within initial (Run.meets_append.mp takes).1).maxReceivedOffset

/-- A segment that begins at the limit is taken. -/
theorem segment_begins_at_limit : let r := start 0 [] 4
    let r' := r.handle (.receive 4 ⟨[1, 2], by decide⟩ false)
    (r.stream.receive 4 [1, 2] false).1 = .ok 2 ∧ r'.stream.maxReceivedOffset = 6 ∧
      r'.stream.maxStreamDataLocal = 4 := by
  decide +kernel

/-! ### The final size -/

/-- The first FIN is not before the end of the data that was received. -/
def FinBehindData (r : Reception) : StreamEvent → Prop
  | .receive offset data true => r.stream.finalSize = none → offset + data.bytes.length ≤ u64Max →
      r.stream.EndsBy (offset + data.bytes.length)
  | _ => True

/-- A FIN before the end of the data that was received is refused. -/
def RefusesContradiction (r : Reception) : StreamEvent → Prop
  | .receive offset data true => ¬ r.stream.EndsBy (offset + data.bytes.length) →
      ∃ e, (r.stream.receive offset data.bytes true).1 = .error e
  | _ => True

/-- All data that was received lies before the final size. -/
def Sized (r : Reception) : Prop := ∀ size, r.stream.finalSize = some size → r.stream.EndsBy size

/-- The data still lies before the final size, and so does the segment. -/
theorem noted_ends (sized : Sized r) (allowed : r.stream.Allows (offset + data.length) fin)
    (behind : fin = true → r.stream.finalSize = none → r.stream.EndsBy (offset + data.length)) {size : Nat}
    (known : (r.stream.noted (offset + data.length) fin).finalSize = some size) :
    r.stream.EndsBy size ∧ offset + data.length ≤ size := by
  cases found : r.stream.finalSize with
  | none =>
    cases fin with
    | false => simp [Stream.noted, found] at known
    | true =>
      simp only [Stream.noted, found, Option.none_or, if_true, Option.some.injEq] at known
      exact ⟨known ▸ behind rfl found, known.le⟩
  | some old =>
    have same : old = size := by simpa [Stream.noted, found] using known
    have agrees := allowed.2.2
    rw [found] at agrees
    refine ⟨same ▸ sized old found, ?_⟩
    rw [← same]
    simpa using agrees

theorem receive_sized {data : Slice} (sized : Sized r)
    (behind : fin = true → r.stream.finalSize = none → offset + data.bytes.length ≤ u64Max →
      r.stream.EndsBy (offset + data.bytes.length)) : Sized (r.handle (.receive offset data fin)) := by
  have reaction := r.stream.receive_reaction offset data.bytes fin
  have noted := fun allowed : r.stream.Allows (offset + data.bytes.length) fin =>
    @noted_ends r offset data.bytes fin sized allowed (fun final none => behind final none allowed.1)
  rw [handle, step]
  generalize r.stream.receive offset data.bytes fin = result at reaction
  cases reaction with
  | barred => exact sized
  | misplaced allowed => exact fun size known => (noted allowed known).1
  | exhausted allowed => exact fun size known => (noted allowed known).1
  | repeated receivable => exact fun size known => (noted ⟨receivable.1, receivable.2.1⟩ known).1
  | taken takes =>
    intro size known
    obtain ⟨ends, fits⟩ := noted ⟨takes.1.1, takes.1.2.1⟩ known
    exact ⟨ends.1, ends.insert fits⟩

theorem handle_sized (r : Reception) (event : StreamEvent) (sized : Sized r) (behind : FinBehindData r event) :
    Sized (r.handle event) := by
  cases event with
  | receive =>
    refine receive_sized sized fun final none fits => ?_
    subst final
    exact behind none fits
  | readAvailable =>
    intro size known
    rw [(readAvailable_receiver r).size, (drain_unchanged r.stream []).1] at known
    exact readAvailable_endsBy (sized size known)
  | sendReady data =>
    have same := sendReady_receiver (r := r) data
    intro size known
    rw [same.size] at known
    exact same.endsBy (sized size known)
  | raiseLimit limit => exact sized

/-- A first FIN with data behind it is noted all the same: whatever `receive` answers, the final size is its
end. -/
theorem endsBy_of_receive (unknown : s.finalSize = none) (fits : offset + data.length ≤ u64Max)
    (ends : ∀ size, (s.receive offset data true).2.finalSize = some size →
      (s.receive offset data true).2.EndsBy size) : s.EndsBy (offset + data.length) := by
  have reaction := s.receive_reaction offset data true
  have noted : (s.noted (offset + data.length) true).finalSize = some (offset + data.length) := by
    simp [Stream.noted, unknown]
  generalize s.receive offset data true = result at reaction ends
  cases reaction with
  | barred barred => exact absurd ⟨fits, by simp [Stream.FinalSizeAgrees, unknown]⟩ barred
  | misplaced => exact ends _ noted
  | exhausted => exact ends _ noted
  | repeated => exact ends _ noted
  | taken takes =>
    obtain ⟨delivered, buffered⟩ := ends _ noted
    refine ⟨delivered, ?_⟩
    rintro ⟨key, value⟩ member
    by_cases replaced : key = offset
    · have shorter : value.length < data.length := takes.admits.replaced (replaced ▸ member)
      dsimp only
      omega
    · exact buffered (key, value) (mem_insert.mpr (.inr ⟨member, replaced⟩))

theorem handle_sized_iff (sized : Sized r) : Sized (r.handle event) ↔ FinBehindData r event := by
  refine ⟨fun after => ?_, handle_sized r event sized⟩
  unfold FinBehindData
  split
  · intro unknown fits
    exact endsBy_of_receive unknown fits after
  · trivial

theorem receive_finalSize (known : s.finalSize = some size) :
    (s.receive offset data fin).2.finalSize = some size := by
  have reaction := s.receive_reaction offset data fin
  have kept : (s.noted (offset + data.length) fin).finalSize = some size := by simp [Stream.noted, known]
  generalize s.receive offset data fin = result at reaction
  cases reaction with
  | barred => exact known
  | misplaced => exact kept
  | exhausted => exact kept
  | repeated => exact kept
  | taken => exact kept

theorem handle_finalSize (known : r.stream.finalSize = some size) :
    (r.handle event).stream.finalSize = some size := by
  cases event with
  | receive => exact receive_finalSize known
  | readAvailable => rw [(readAvailable_receiver r).size, (drain_unchanged r.stream []).1, known]
  | sendReady data => rw [(sendReady_receiver data).size, known]
  | raiseLimit limit => exact known

theorem refuses_contradiction (r : Reception) (event : StreamEvent) (sized : Sized r)
    (behind : FinBehindData r event) : RefusesContradiction r event := by
  unfold RefusesContradiction
  split
  · next offset data =>
    intro contradicts
    cases answer : (r.stream.receive offset data.bytes true).1 with
    | error e => exact ⟨e, rfl⟩
    | ok count =>
      obtain ⟨receivable, -⟩ := Stream.receive_ok.mp answer
      exfalso
      cases found : r.stream.finalSize with
      | none => exact contradicts (behind found receivable.1)
      | some size =>
        have agrees := receivable.2.1.1 rfl
        rw [found] at agrees
        have same : size = offset + data.bytes.length := by simpa using agrees
        exact contradicts (same ▸ sized size found)
  · trivial

theorem handle_delivered (r : Reception) (event : StreamEvent)
    (given : r.delivered.length = r.stream.nextDeliverOffset) :
    (r.handle event).delivered.length = (r.handle event).stream.nextDeliverOffset := by
  cases event with
  | receive offset data fin =>
    have reaction := r.stream.receive_reaction offset data.bytes fin
    rw [handle, step]
    generalize r.stream.receive offset data.bytes fin = result at reaction
    cases reaction <;> exact given
  | readAvailable =>
    have moved := r.stream.drain_length []
    rw [(readAvailable_receiver r).reception.1]
    show (r.delivered ++ r.stream.readAvailable.1.1).length = _
    rw [(readAvailable_eq r.stream).1, List.length_append, given]
    simp only [List.length_nil] at moved
    omega
  | sendReady data =>
    rw [(sendReady_receiver data).reception.1, sendReady_delivered]
    exact given
  | raiseLimit limit => exact given

/-- A final size that is recorded lies behind all data received, behind what `max_received_offset` reports and
what the reader was given, and is the one recorded at the end. -/
def SizeConsistent (r final : Reception) : Prop :=
  ∀ size, r.stream.finalSize = some size → r.stream.EndsBy size ∧ r.stream.maxReceivedOffset ≤ size ∧
    r.delivered.length ≤ size ∧ final.stream.finalSize = some size

theorem Sized.consistent (sized : Sized r) (given : r.delivered.length = r.stream.nextDeliverOffset)
    (events : List StreamEvent) : SizeConsistent r (events.foldl handle r) := by
  intro size known
  have ends := sized size known
  have kept : ∀ (r : Reception) (event : StreamEvent), r.stream.finalSize = some size →
      (r.handle event).stream.finalSize = some size := fun r event known => handle_finalSize known
  exact ⟨ends, ends.maxReceivedOffset, given ▸ ends.1, Run.invariant kept known⟩

/-- In every state of a run the final size is consistent, and every FIN that contradicts the data is refused,
exactly if no first FIN is before the end of the data received until then. -/
theorem final_size_consistent_iff (streamId : Nat) (protocolId : Bytes) (maxStreamData : Nat)
    (events : List StreamEvent) :
    ((∀ before after, events = before ++ after →
        SizeConsistent (before.foldl handle (start streamId protocolId maxStreamData))
          (events.foldl handle (start streamId protocolId maxStreamData))) ∧
      Run.Meets RefusesContradiction handle (start streamId protocolId maxStreamData) events) ↔
      Run.Meets FinBehindData handle (start streamId protocolId maxStreamData) events := by
  have initial : Sized (start streamId protocolId maxStreamData) := fun _ known => nomatch known
  have kept : ∀ (r : Reception) (event : StreamEvent), True → Sized r →
      (Sized (r.handle event) ↔ FinBehindData r event) := fun r event _ sized => handle_sized_iff sized
  rw [← Run.throughout_iff (fun _ _ _ => trivial) kept trivial initial]
  constructor
  · rintro ⟨consistent, -⟩ before after cut size known
    exact (consistent before after cut size known).1
  · intro throughout
    have behind := (Run.throughout_iff (fun _ _ _ => trivial) kept trivial initial).mp throughout
    refine ⟨?_, Run.meets_of_invariant handle_sized refuses_contradiction initial behind⟩
    rintro before after rfl
    rw [List.foldl_append]
    have first : (start streamId protocolId maxStreamData).delivered.length =
        (start streamId protocolId maxStreamData).stream.nextDeliverOffset := rfl
    exact (throughout before after rfl).consistent (Run.invariant handle_delivered first) after

/-- A FIN in the middle of the data is accepted, and the reader is given what is behind it. -/
theorem early_fin_accepted : let r := (start 0 [] 100).handle (.receive 0 ⟨[1, 2, 3], by decide⟩ false)
    let r' := r.handle (.receive 1 ⟨[], by decide⟩ true)
    (r.stream.receive 1 [] true).1 = .ok 0 ∧ r'.stream.finalSize = some 1 ∧ r'.stream.maxReceivedOffset = 3 ∧
      (r'.handle .readAvailable).delivered = [1, 2, 3] := by
  decide +kernel

/-! ### The budget of the buffer -/

/-- A new segment takes the place of no other, or of an empty one. -/
def ReplacesNothing (r : Reception) : StreamEvent → Prop
  | .receive offset data fin => r.stream.Takes offset data.bytes fin →
      ∀ old, r.stream.buffered.get? offset = some old → old = []
  | _ => True

/-- A new segment is counted right exactly if it takes the place of nothing. -/
theorem taken_counted_iff (counted : s.Counted) (takes : s.Takes offset data fin)
    (bytes : s'.bufferedBytes = s.bufferedBytes + data.length)
    (ranges : s'.buffered = s.buffered.insert offset data) :
    s'.Counted ↔ ∀ old, s.buffered.get? offset = some old → old = [] := by
  obtain ⟨-, -, budget, fewer⟩ := takes.room
  have put := s.buffered.sumBy_put offset data List.length
  have size := s.buffered.sumBy_put offset data fun _ => 1
  have sizes : ∀ map : OrderedMap Nat Bytes, map.sumBy (fun _ => 1) = map.size := by
    simp [OrderedMap.sumBy, OrderedMap.size]
  rw [sizes, sizes] at size
  have total : s'.bufferedBytes = s'.buffered.sumBy List.length ↔
      ((s.buffered.get? offset).map List.length).getD 0 = 0 := by
    rw [bytes, ranges, counted.bytes]
    omega
  have empty : ((s.buffered.get? offset).map List.length).getD 0 = 0 ↔
      ∀ old, s.buffered.get? offset = some old → old = [] := by
    cases s.buffered.get? offset <;> simp
  rw [← empty, ← total]
  refine ⟨Stream.Counted.bytes, fun same => ⟨same, by omega, ?_⟩⟩
  rw [ranges]
  omega

theorem counted_of_noted (counted : s.Counted) : (s.noted stop fin).Counted :=
  ⟨counted.bytes, counted.budget, counted.ranges⟩

theorem receive_counted_iff {data : Slice} (counted : r.stream.Counted) :
    (r.stream.receive offset data.bytes fin).2.Counted ↔ ReplacesNothing r (.receive offset data fin) := by
  have reaction := r.stream.receive_reaction offset data.bytes fin
  generalize r.stream.receive offset data.bytes fin = result at reaction
  cases reaction with
  | barred barred =>
    exact ⟨fun _ takes => absurd ⟨takes.1.1, takes.1.2.1⟩ barred, fun _ => counted⟩
  | misplaced _ misplaces =>
    exact ⟨fun _ takes => absurd takes.1 misplaces.not_receivable, fun _ => counted_of_noted counted⟩
  | exhausted _ _ fresh full =>
    refine ⟨fun _ takes => absurd takes.room full, fun _ => ?_⟩
    -- no slice is long enough for the counter to saturate
    have back : saturatingAdd r.stream.bufferedBytes data.bytes.length - data.bytes.length =
        r.stream.bufferedBytes := by
      have small := data.addressable
      have budget := counted.budget
      unfold saturatingAdd
      unfold isizeMax at small
      unfold maxOutOfOrderBytes at budget
      unfold u64Max
      omega
    exact ⟨back.trans counted.bytes, back.le.trans counted.budget, counted.ranges⟩
  | repeated receivable repeats =>
    refine ⟨fun _ takes => ?_, fun _ => counted_of_noted counted⟩
    exact absurd (takes.2.symm.trans repeats) Bool.false_ne_true
  | taken takes =>
    rw [taken_counted_iff counted takes rfl rfl]
    exact ⟨fun empty _ => empty, fun replaces => replaces takes⟩

theorem handle_counted_iff (counted : r.stream.Counted) :
    (r.handle event).stream.Counted ↔ ReplacesNothing r event := by
  cases event with
  | receive => exact receive_counted_iff counted
  | readAvailable =>
    have keeps : ∀ (s : Stream) (data : Bytes), s.buffered.first? = some (s.nextDeliverOffset, data) →
        s.Counted → (s.takeFirst s.nextDeliverOffset data).Counted :=
      fun _ _ found counted => Stream.takeFirst_counted found counted
    have read := (readAvailable_receiver r).counted (Stream.drain_keeps keeps r.stream [] counted)
    exact ⟨fun _ => trivial, fun _ => read⟩
  | sendReady data => exact ⟨fun _ => trivial, fun _ => (sendReady_receiver data).counted counted⟩
  | raiseLimit limit => exact ⟨fun _ => trivial, fun _ => ⟨counted.bytes, counted.budget, counted.ranges⟩⟩

/-- In every state the counter is the number of buffered bytes and within the budget, and so is the number of
ranges, exactly if no new segment takes the place of buffered bytes. -/
theorem counted_throughout_iff (streamId : Nat) (protocolId : Bytes) (maxStreamData : Nat)
    (events : List StreamEvent) :
    (∀ before after, events = before ++ after →
      (before.foldl handle (start streamId protocolId maxStreamData)).stream.Counted) ↔
    Run.Meets ReplacesNothing handle (start streamId protocolId maxStreamData) events := by
  have kept : ∀ (r : Reception) (event : StreamEvent), True → r.stream.Counted →
      ((r.handle event).stream.Counted ↔ ReplacesNothing r event) :=
    fun r event _ counted => handle_counted_iff counted
  have initial : (start streamId protocolId maxStreamData).stream.Counted :=
    ⟨rfl, Nat.zero_le _, Nat.zero_le _⟩
  exact Run.throughout_iff (fun _ _ _ => trivial) kept trivial initial

/-- A byte that arrives again with another one behind it is counted twice, and stays counted. -/
theorem longer_segment_counted_twice :
    let r := [.receive 1 ⟨[2], by decide⟩ false, .receive 1 ⟨[2, 3], by decide⟩ false].foldl handle (start 0 [] 100)
    let r' := [.receive 0 ⟨[1], by decide⟩ false, .readAvailable].foldl handle r
    (r.stream.bufferedBytes = 3 ∧ r.stream.buffered.sumBy List.length = 2) ∧
      (r'.stream.bufferedBytes = 1 ∧ r'.stream.buffered.size = 0) ∧ ¬ r.stream.Counted := by
  intro r r'
  have counter : r.stream.bufferedBytes = 3 := by decide +kernel
  have held : r.stream.buffered.sumBy List.length = 2 := by decide +kernel
  refine ⟨⟨counter, held⟩, by decide +kernel, fun counted => ?_⟩
  have same := counted.bytes
  omega

end Reception
end UniversalMesh.Session
