import UniversalMesh.Session.Stream

/-! What a stream delivers. Its reader sees a prefix of the sender's bytes whatever segments arrive, in whatever
order and overlap. That every accepted byte is delivered in the end needs more: a segment that runs over the
start of a later buffered range is accepted, and the range is then never the next one. -/
namespace UniversalMesh.Session
open MachineWord Wire OrderedMap

/-! What one `receive` does to a stream. The checks come in this order: the end of the segment is a 64-bit
number; a FIN agrees with a known final size; no byte lies beyond it; the segment begins within the limit; it is
no repetition; it begins where nothing was delivered and no range below reaches into it; the buffer has room. A
FIN is noted after the second of them, so a segment that a later check refuses leaves its final size behind. -/

namespace Stream

/-- The segment brings nothing new: it is delivered, or inside one range. -/
def Known (s : Stream) (offset stop : Nat) : Prop :=
  stop ≤ s.nextDeliverOffset ∨
    ∃ entry ∈ s.buffered, entry.1 ≤ offset ∧ stop ≤ entry.1 + entry.2.length

/-- What `receive` has checked when it buffers a segment. -/
structure Admits (s : Stream) (offset : Nat) (data : Bytes) : Prop where
  reaches : s.nextDeliverOffset < offset + data.length
  undelivered : s.nextDeliverOffset ≤ offset
  unbuffered : s.alreadyBuffered offset (offset + data.length) = false
  clear : s.overlapsBelow offset = false

variable {s : Stream}

theorem Admits.replaced (admits : s.Admits offset data) (member : (offset, value) ∈ s.buffered) :
    value.length < data.length := by
  have unbuffered := admits.unbuffered
  unfold alreadyBuffered at unbuffered
  split at unbuffered
  · next key found same =>
    obtain ⟨⟨here, below⟩, last⟩ := lastUpTo?_eq_some same
    obtain rfl : key = offset := Nat.le_antisymm below (last _ member (Nat.le_refl _))
    rw [saturatingAdd_of_le (s.fits _ here), mem_unique here member] at unbuffered
    simpa using unbuffered
  · next missing =>
    have above := lastUpTo?_eq_none missing _ member
    omega

/-- The part of a stream that decides what it delivers. -/
def SameReception (s s' : Stream) : Prop :=
  s'.nextDeliverOffset = s.nextDeliverOffset ∧ s'.buffered = s.buffered

section
variable (s : Stream) (offset : Nat) (data : Bytes)

/-- The segment brings nothing new. -/
def repeats : Bool :=
  offset + data.length ≤ s.nextDeliverOffset || s.alreadyBuffered offset (offset + data.length)

/-- The number of bytes a segment adds to the stream. -/
def freshBytes : Nat :=
  if s.repeats offset data then 0 else data.length

/-- The end of the segment agrees with the final size of the stream. -/
def FinalSizeAgrees (stop : Nat) (fin : Bool) : Prop :=
  (fin = true → s.finalSize.all (· = stop)) ∧ s.finalSize.all (stop ≤ ·)
  deriving Decidable

/-- The segment begins where nothing was delivered or is waiting, and the buffer
has room for it. -/
def HasRoom : Prop :=
  s.nextDeliverOffset ≤ offset ∧ s.overlapsBelow offset = false ∧
    s.bufferedBytes + data.length ≤ maxOutOfOrderBytes ∧ s.buffered.size < maxOutOfOrderRanges
  deriving Decidable

/-- The stream takes the segment, as new or as one it knows. -/
def Receivable (fin : Bool) : Prop :=
  offset + data.length ≤ u64Max ∧ s.FinalSizeAgrees (offset + data.length) fin ∧
    offset ≤ s.maxStreamDataLocal ∧ (s.repeats offset data = true ∨ s.HasRoom offset data)
  deriving Decidable

/-- The stream with the end of a FIN segment as its final size, unless it has one. -/
def noted (stop : Nat) (fin : Bool) : Stream :=
  { s with finalSize := s.finalSize.or (if fin then some stop else none) }

/-- The end of the segment is a 64-bit number and goes with the final size. -/
def Allows (stop : Nat) (fin : Bool) : Prop := stop ≤ u64Max ∧ s.FinalSizeAgrees stop fin

/-- The segment begins beyond the limit, or has new bytes and some that were delivered or that a range below
holds. -/
def Misplaces : Prop :=
  s.maxStreamDataLocal < offset ∨
    s.repeats offset data = false ∧ (offset < s.nextDeliverOffset ∨ s.overlapsBelow offset = true)

/-- The segment is accepted and new. -/
def Takes (fin : Bool) : Prop :=
  s.Receivable offset data fin ∧ s.repeats offset data = false
  deriving Decidable

end

variable {s : Stream} {offset stop : Nat} {data : Bytes} {fin : Bool}

theorem repeats_known (repeats : s.repeats offset data = true) : s.Known offset (offset + data.length) := by
  rcases Bool.or_eq_true_iff.mp repeats with delivered | already
  · exact .inl (by simpa using delivered)
  unfold alreadyBuffered at already
  split at already
  · next key value found =>
    simp only [Bool.and_eq_true, decide_eq_true_eq] at already
    have inside : offset + data.length ≤ key + value.length := already.2.trans (Nat.min_le_left ..)
    exact .inr ⟨(key, value), (lastUpTo?_eq_some found).1.1, already.1, inside⟩
  · cases already

theorem Takes.room (takes : s.Takes offset data fin) : s.HasRoom offset data :=
  takes.1.2.2.2.resolve_left (by simp [takes.2])

theorem Takes.admits (takes : s.Takes offset data fin) : s.Admits offset data := by
  obtain ⟨reaches, unbuffered⟩ := Bool.or_eq_false_iff.mp takes.2
  obtain ⟨undelivered, clear, -, -⟩ := takes.room
  exact ⟨by simpa using reaches, undelivered, unbuffered, clear⟩

theorem Misplaces.not_receivable (misplaces : s.Misplaces offset data) : ¬ s.Receivable offset data fin := by
  rintro ⟨-, -, within, accepted⟩
  rcases misplaces with beyond | ⟨fresh, behind | overlaps⟩
  · exact Nat.not_le.mpr beyond within
  · rcases accepted with repeats | room
    · simp [fresh] at repeats
    · exact Nat.not_le.mpr behind room.1
  · rcases accepted with repeats | room
    · simp [fresh] at repeats
    · exact Bool.false_ne_true (room.2.1.symm.trans overlaps)

theorem not_receivable_of_full (fresh : s.repeats offset data = false) (full : ¬ s.HasRoom offset data) :
    ¬ s.Receivable offset data fin := by
  rintro ⟨-, -, -, repeats | room⟩
  · simp [fresh] at repeats
  · exact full room

/-- All that `receive` can do. -/
inductive Reaction (s : Stream) (offset : Nat) (data : Bytes) (fin : Bool) :
    Except StreamError Nat × Stream → Prop
  | barred {e : StreamError} (barred : ¬ s.Allows (offset + data.length) fin) :
      Reaction s offset data fin (.error e, s)
  | misplaced {e : StreamError} (allowed : s.Allows (offset + data.length) fin)
      (misplaces : s.Misplaces offset data) :
      Reaction s offset data fin (.error e, s.noted (offset + data.length) fin)
  | exhausted (allowed : s.Allows (offset + data.length) fin) (placed : ¬ s.Misplaces offset data)
      (fresh : s.repeats offset data = false) (full : ¬ s.HasRoom offset data) :
      Reaction s offset data fin (.error .outOfOrderBudgetExceeded,
        { s.noted (offset + data.length) fin with
          bufferedBytes := saturatingAdd s.bufferedBytes data.length - data.length })
  | repeated (receivable : s.Receivable offset data fin) (repeats : s.repeats offset data = true) :
      Reaction s offset data fin (.ok 0, s.noted (offset + data.length) fin)
  | taken (takes : s.Takes offset data fin) :
      Reaction s offset data fin (.ok data.length,
        { s.noted (offset + data.length) fin with
          bufferedBytes := s.bufferedBytes + data.length
          buffered := s.buffered.insert offset data
          fits := s.fits_insert takes.1.1 })

theorem noted_eq_self (known : fin = true → s.finalSize ≠ none) : s.noted stop fin = s := by
  have same : s.finalSize.or (if fin then some stop else none) = s.finalSize := by
    cases fin with
    | false => simp
    | true =>
      obtain ⟨size, found⟩ := Option.ne_none_iff_exists'.mp (known rfl)
      simp [found]
  cases s
  simp only [noted, same]

/-- A FIN that agrees is noted, one that does not is refused; a segment without FIN that runs over the final
size passes here. -/
theorem noteFinalSize_cases (s : Stream) :
    (s.FinalSizeAgrees stop fin ∧ s.noteFinalSize stop fin = .ok (s.noted stop fin)) ∨
      ¬ s.FinalSizeAgrees stop fin ∧ (s.noteFinalSize stop fin = .error .finalSizeConflict ∨
        s.finalSize.any (· < stop) = true ∧ s.noteFinalSize stop fin = .ok s) := by
  unfold noteFinalSize FinalSizeAgrees
  cases found : s.finalSize with
  | none =>
    cases fin with
    | false => simp [noted_eq_self]
    | true => simp [noted, found]
  | some size =>
    rw [noted_eq_self (by simp [found])]
    cases fin with
    | false => simpa using Nat.lt_or_ge size stop |>.symm
    | true =>
      by_cases same : size = stop
      · simp [same]
      · simp [same]

theorem noted_beyond (agrees : s.FinalSizeAgrees stop fin) :
    (s.noted stop fin).finalSize.any (· < stop) = false := by
  cases found : s.finalSize with
  | none => cases fin <;> simp [noted, found]
  | some size => simpa [noted, found] using agrees.2

theorem receiveWithin_reaction (allowed : s.Allows (offset + data.length) fin) :
    s.Reaction offset data fin
      ((s.noted (offset + data.length) fin).receiveWithin offset data allowed.1) := by
  unfold receiveWithin
  rw [if_neg (by rw [noted_beyond allowed.2]; exact Bool.false_ne_true)]
  split
  · next beyond => exact .misplaced allowed (.inl beyond)
  next within =>
  have within : offset ≤ s.maxStreamDataLocal := Nat.not_lt.mp within
  split
  · next delivered =>
    have repeats : s.repeats offset data = true := by
      have behind : offset + data.length ≤ s.nextDeliverOffset := delivered
      simp [Stream.repeats, behind]
    exact .repeated ⟨allowed.1, allowed.2, within, .inl repeats⟩ repeats
  next reaches =>
  split
  · next held =>
    have buffered : s.alreadyBuffered offset (offset + data.length) = true := held
    have repeats : s.repeats offset data = true := by simp [Stream.repeats, buffered]
    exact .repeated ⟨allowed.1, allowed.2, within, .inl repeats⟩ repeats
  next unbuffered =>
  have fresh : s.repeats offset data = false := by
    have missing : s.alreadyBuffered offset (offset + data.length) = false := Bool.eq_false_iff.mpr unbuffered
    have ahead : s.nextDeliverOffset < offset + data.length := Nat.not_le.mp reaches
    simp [Stream.repeats, missing, ahead]
  split
  · next behind => exact .misplaced allowed (.inr ⟨fresh, .inl behind⟩)
  next undelivered =>
  split
  · next overlaps => exact .misplaced allowed (.inr ⟨fresh, .inr overlaps⟩)
  next clear =>
  have start : s.nextDeliverOffset ≤ offset := Nat.not_lt.mp undelivered
  have apart : s.overlapsBelow offset = false := Bool.eq_false_iff.mpr clear
  have placed : ¬ s.Misplaces offset data := by
    rintro (beyond | ⟨-, behind | overlaps⟩)
    · exact Nat.not_le.mpr beyond within
    · exact undelivered behind
    · exact clear overlaps
  have clamped : saturatingAdd s.bufferedBytes data.length > maxOutOfOrderBytes ↔
      s.bufferedBytes + data.length > maxOutOfOrderBytes := by
    simp [saturatingAdd, maxOutOfOrderBytes, u64Max]
  unfold buffer
  dsimp only
  split
  · next full =>
    refine .exhausted allowed placed fresh fun room => ?_
    rcases full with bytes | ranges
    · exact Nat.not_le.mpr (clamped.mp bytes) room.2.2.1
    · exact Nat.not_le.mpr room.2.2.2 ranges
  · next room =>
    obtain ⟨bytes, ranges⟩ := not_or.mp room
    have budget : s.bufferedBytes + data.length ≤ maxOutOfOrderBytes := Nat.not_lt.mp (mt clamped.mpr bytes)
    have takes : s.Takes offset data fin :=
      ⟨⟨allowed.1, allowed.2, within, .inr ⟨start, apart, budget, Nat.not_le.mp ranges⟩⟩, fresh⟩
    have exact_ : saturatingAdd (s.noted (offset + data.length) fin).bufferedBytes data.length =
        s.bufferedBytes + data.length := saturatingAdd_of_le (budget.trans (by decide))
    rw [exact_]
    exact .taken takes

theorem receive_reaction (s : Stream) (offset : Nat) (data : Bytes) (fin : Bool) :
    s.Reaction offset data fin (s.receive offset data fin) := by
  unfold receive
  split
  · next overflows =>
    refine .barred fun allowed => ?_
    rw [checkedAdd_of_le allowed.1] at overflows
    cases overflows
  next stop summed =>
  obtain ⟨fits, rfl⟩ := checkedAdd_some.mp summed
  rcases s.noteFinalSize_cases with
    ⟨agrees, result⟩ | ⟨differs, result | ⟨short, result⟩⟩
  · rw [result]
    exact receiveWithin_reaction ⟨fits, agrees⟩
  · rw [result]
    exact .barred fun allowed => differs allowed.2
  · rw [result]
    dsimp only
    rw [receiveWithin, if_pos short]
    exact .barred fun allowed => differs allowed.2

theorem receive_ok : (s.receive offset data fin).1 = .ok fresh ↔
    s.Receivable offset data fin ∧ fresh = s.freshBytes offset data := by
  have reaction := s.receive_reaction offset data fin
  generalize s.receive offset data fin = result at reaction
  unfold freshBytes
  cases reaction with
  | barred barred =>
    have refused : ¬ s.Receivable offset data fin := fun receivable => barred ⟨receivable.1, receivable.2.1⟩
    simp [refused]
  | misplaced _ misplaces => simp [misplaces.not_receivable]
  | exhausted _ _ new full => simp [not_receivable_of_full new full]
  | repeated receivable repeats => simp [receivable, repeats, eq_comm]
  | taken takes => simp [takes.1, takes.2, eq_comm]

end Stream

inductive StreamCall where
  | receive (offset : Nat) (data : Bytes) (fin : Bool) | readAvailable

/-- A stream and everything its reader has been given. -/
structure Reception where
  stream : Stream
  delivered : Bytes
  deriving DecidableEq

namespace Reception

def start (streamId : Nat) (protocolId : Bytes) (maxStreamData : Nat) : Reception :=
  { stream := .new streamId protocolId maxStreamData, delivered := [] }

def step (r : Reception) : StreamCall → Reception
  | .receive offset data fin => { r with stream := (r.stream.receive offset data fin).2 }
  | .readAvailable =>
    let ((out, _), stream) := r.stream.readAvailable
    { stream, delivered := r.delivered ++ out }

/-- The segment of a call is cut from the sender's bytes. -/
def AgreesWith (sent : Bytes) : StreamCall → Prop
  | .receive offset data _ => data = (sent.drop offset).take data.length
  | .readAvailable => True

/-- The reader has a prefix of the sender's bytes, up to the next offset, and every waiting range is cut from
them. -/
structure Faithful (sent : Bytes) (r : Reception) : Prop where
  delivered : r.delivered = sent.take r.stream.nextDeliverOffset
  within : r.stream.nextDeliverOffset ≤ sent.length
  ranges : ∀ entry ∈ r.stream.buffered, entry.2 <+: sent.drop entry.1

theorem Faithful.of_same {stream : Stream} (faithful : Faithful sent r)
    (same : r.stream.SameReception stream) : Faithful sent { r with stream } := by
  obtain ⟨next, ranges⟩ := same
  refine ⟨?_, ?_, ?_⟩
  · rw [next]; exact faithful.delivered
  · rw [next]; exact faithful.within
  · rw [ranges]; exact faithful.ranges

theorem receive_faithful (faithful : Faithful sent r) (agrees : data = (sent.drop offset).take data.length) :
    Faithful sent (r.step (.receive offset data fin)) := by
  have reaction := r.stream.receive_reaction offset data fin
  simp only [step]
  generalize r.stream.receive offset data fin = result at reaction
  cases reaction with
  | barred => exact faithful
  | misplaced => exact faithful.of_same ⟨rfl, rfl⟩
  | exhausted => exact faithful.of_same ⟨rfl, rfl⟩
  | repeated => exact faithful.of_same ⟨rfl, rfl⟩
  | taken =>
    refine ⟨faithful.delivered, faithful.within, fun entry member => ?_⟩
    obtain rfl | ⟨member, -⟩ := mem_insert.mp member
    · exact List.prefix_iff_eq_take.mpr agrees
    · exact faithful.ranges entry member

variable {s s' : Stream}

theorem take_first_faithful (faithful : Faithful sent ⟨s, given⟩)
    (found : s.buffered.first? = some (s.nextDeliverOffset, data)) :
    Faithful sent ⟨s.takeFirst s.nextDeliverOffset data, given ++ data⟩ := by
  obtain ⟨delivered, within, ranges⟩ := faithful
  have member := (first?_eq_some found).1
  have cut : data <+: sent.drop s.nextDeliverOffset := ranges _ member
  have next := saturatingAdd_of_le (s.fits _ member)
  have size := cut.length_le
  rw [List.length_drop] at size
  refine ⟨?_, ?_, fun entry kept => ?_⟩
  · simp only at delivered
    simp only [Stream.takeFirst, next, List.take_add, delivered, ← List.prefix_iff_eq_take.mp cut]
  · simp only [Stream.takeFirst, next] at within ⊢
    omega
  · exact ranges entry (mem_erase.mp kept).1

theorem drain_faithful (before : Bytes) (s : Stream) (out : Bytes)
    (faithful : Faithful sent ⟨s, before ++ out⟩) :
    Faithful sent ⟨(s.drain out).2, before ++ (s.drain out).1⟩ := by
  fun_induction Stream.drain s out with
  | case1 => exact faithful
  | case2 => exact faithful
  | case3 s out offset data found here ih =>
    obtain rfl : offset = s.nextDeliverOffset := not_not.mp here
    refine ih ?_
    rw [← List.append_assoc]
    exact take_first_faithful faithful found

theorem readAvailable_eq (s : Stream) : s.readAvailable.1.1 = (s.drain []).1 ∧
    (s.drain []).2.SameReception s.readAvailable.2 := by
  unfold Stream.readAvailable
  dsimp only
  split <;> exact ⟨rfl, rfl, rfl⟩

theorem step_faithful (r : Reception) (call : StreamCall) (faithful : Faithful sent r)
    (agrees : AgreesWith sent call) : Faithful sent (r.step call) := by
  cases call with
  | receive => exact receive_faithful faithful agrees
  | readAvailable =>
    obtain ⟨out, same⟩ := readAvailable_eq r.stream
    have drained := drain_faithful r.delivered r.stream [] (by simpa using faithful)
    simp only [step, out]
    exact drained.of_same same

theorem start_faithful : Faithful sent (start streamId protocolId maxStreamData) where
  delivered := rfl
  within := Nat.zero_le _
  ranges _ member := absurd member not_mem_empty

/-- Whatever segments of the sender's bytes arrive, and whenever the stream is read, the reader has been given a
prefix of them. -/
theorem delivered_is_prefix (sent : Bytes) (streamId : Nat) (protocolId : Bytes) (maxStreamData : Nat)
    (calls : List StreamCall) (agree : ∀ call ∈ calls, AgreesWith sent call) :
    (calls.foldl step (start streamId protocolId maxStreamData)).delivered <+: sent := by
  have faithful : Faithful sent (calls.foldl step (start streamId protocolId maxStreamData)) :=
    Run.invariant_of_meets step_faithful start_faithful (Run.meets_of_forall agree _)
  exact faithful.delivered ▸ List.take_prefix _ _

/-- Two segments in the wrong order, one of them twice, and two reads. -/
theorem delivered_is_prefix_reordered :
    ([.receive 2 [3, 4] false, .readAvailable, .receive 0 [1, 2] false, .receive 2 [3, 4] false,
      .readAvailable].foldl step (start 0 [] 100)).delivered <+: [1, 2, 3, 4, 5] :=
  delivered_is_prefix _ _ _ _ _ (by simp [AgreesWith])

/-! No accepted overlap stalls the stream, as long as no segment runs over the
start of a later range. -/

def Accepted (r : Reception) : StreamCall → Prop
  | .receive offset data fin => ∃ count, (r.stream.receive offset data fin).1 = .ok count
  | .readAvailable => True

/-- No buffered range begins strictly inside the segment. -/
def RunsOverNoRange (r : Reception) : StreamCall → Prop
  | .receive offset data _ =>
    ∀ entry ∈ r.stream.buffered, ¬ (offset < entry.1 ∧ entry.1 < offset + data.length)
  | .readAvailable => True

instance (r : Reception) (call : StreamCall) : Decidable (RunsOverNoRange r call) :=
  match call with
  | .receive offset data _ => inferInstanceAs (Decidable (∀ entry ∈ r.stream.buffered,
      ¬ (offset < entry.1 ∧ entry.1 < offset + data.length)))
  | .readAvailable => .isTrue trivial

/-- The byte at a position is delivered or waits in a range. -/
def Covers (s : Stream) (position : Nat) : Prop :=
  position < s.nextDeliverOffset ∨
    ∃ entry ∈ s.buffered, entry.1 ≤ position ∧ position < entry.1 + entry.2.length

/-- The ranges lie ahead of the delivered bytes and do not overlap. -/
structure Tidy (s : Stream) : Prop where
  ahead : ∀ entry ∈ s.buffered, s.nextDeliverOffset ≤ entry.1
  apart : ∀ low ∈ s.buffered, ∀ high ∈ s.buffered, low.1 < high.1 →
    low.1 + low.2.length ≤ high.1

theorem Tidy.of_same (tidy : Tidy s) (same : s.SameReception s') : Tidy s' := by
  obtain ⟨next, ranges⟩ := same
  exact ⟨by rw [next, ranges]; exact tidy.ahead, by rw [ranges]; exact tidy.apart⟩

theorem covers_of_same (same : s.SameReception s') : Covers s' position ↔ Covers s position := by
  obtain ⟨next, ranges⟩ := same
  rw [Covers, Covers, next, ranges]

theorem covers_of_known (known : s.Known offset stop) (starts : offset ≤ position) (ends : position < stop) :
    Covers s position := by
  obtain delivered | ⟨entry, member, low, high⟩ := known
  · exact .inl (by omega)
  · exact .inr ⟨entry, member, by omega, by omega⟩

theorem Tidy.below (tidy : Tidy s) (admits : s.Admits offset data) (member : entry ∈ s.buffered)
    (low : entry.1 < offset) : entry.1 + entry.2.length ≤ offset := by
  have clear := admits.clear
  unfold Stream.overlapsBelow at clear
  split at clear
  · next key value found =>
    obtain ⟨⟨here, below⟩, last⟩ := lastBelow?_eq_some found
    have ends : key + value.length ≤ offset := by
      rw [saturatingAdd_of_le (s.fits _ here)] at clear
      simpa using clear
    rcases Nat.lt_or_eq_of_le (last entry member low) with less | same
    · exact (tidy.apart entry member _ here less).trans below.le
    · obtain ⟨entryKey, entryValue⟩ := entry
      obtain rfl : entryKey = key := same
      rw [mem_unique member here]
      exact ends
  · next missing =>
    have above := lastBelow?_eq_none missing entry member
    omega

/-- Buffering an admitted segment that runs over no range keeps the ranges apart and what was covered, and
covers the segment. -/
theorem insert_progress (tidy : Tidy s) (admits : s.Admits offset data)
    (next : s'.nextDeliverOffset = s.nextDeliverOffset) (ranges : s'.buffered = s.buffered.insert offset data)
    (clear : ∀ entry ∈ s.buffered, ¬ (offset < entry.1 ∧ entry.1 < offset + data.length)) :
    Tidy s' ∧ (∀ position, Covers s position → Covers s' position) ∧
      ∀ position, offset ≤ position → position < offset + data.length → Covers s' position := by
  have inserted : (offset, data) ∈ s'.buffered := by
    rw [ranges, mem_insert]
    exact .inl rfl
  refine ⟨⟨?_, ?_⟩, fun position covered => ?_, fun position starts ends => ?_⟩
  · intro entry member
    rw [ranges, mem_insert] at member
    rw [next]
    obtain rfl | ⟨member, -⟩ := member
    · exact admits.undelivered
    · exact tidy.ahead entry member
  · intro low lowMember high highMember order
    rw [ranges, mem_insert] at lowMember highMember
    obtain rfl | ⟨lowMember, -⟩ := lowMember <;> obtain rfl | ⟨highMember, -⟩ := highMember
    · exact absurd order (Nat.lt_irrefl _)
    · have outside := clear high highMember
      simp only at order ⊢
      omega
    · exact tidy.below admits lowMember order
    · exact tidy.apart low lowMember high highMember order
  · obtain delivered | ⟨entry, member, starts, ends⟩ := covered
    · exact .inl (next ▸ delivered)
    · by_cases same : entry.1 = offset
      · obtain ⟨key, value⟩ := entry
        obtain rfl : key = offset := same
        have shorter := admits.replaced member
        exact .inr ⟨_, inserted, starts, by simp only at ends ⊢; omega⟩
      · refine .inr ⟨entry, ?_, starts, ends⟩
        rw [ranges, mem_insert]
        exact .inr ⟨member, same⟩
  · exact .inr ⟨_, inserted, starts, ends⟩

theorem take_first_progress (s' : Stream) (tidy : Tidy s)
    (found : s.buffered.first? = some (s.nextDeliverOffset, data))
    (next : s'.nextDeliverOffset = saturatingAdd s.nextDeliverOffset data.length)
    (ranges : s'.buffered = s.buffered.erase s.nextDeliverOffset) :
    Tidy s' ∧ ∀ position, Covers s position → Covers s' position := by
  have here := (first?_eq_some found).1
  rw [saturatingAdd_of_le (s.fits _ here)] at next
  refine ⟨⟨?_, ?_⟩, fun position covered => ?_⟩
  · intro entry member
    rw [ranges, mem_erase] at member
    have ahead := tidy.ahead entry member.1
    rw [next]
    exact tidy.apart _ here entry member.1 (Nat.lt_of_le_of_ne ahead (Ne.symm member.2))
  · intro low lowMember high highMember order
    rw [ranges, mem_erase] at lowMember highMember
    exact tidy.apart low lowMember.1 high highMember.1 order
  · obtain delivered | ⟨entry, member, starts, ends⟩ := covered
    · exact .inl (by omega)
    · by_cases same : entry.1 = s.nextDeliverOffset
      · obtain ⟨key, value⟩ := entry
        obtain rfl : key = s.nextDeliverOffset := same
        rw [mem_unique member here] at ends
        exact .inl (by rw [next]; exact ends)
      · refine .inr ⟨entry, ?_, starts, ends⟩
        rw [ranges, mem_erase]
        exact ⟨member, same⟩

theorem drain_progress (s : Stream) (out : Bytes) (tidy : Tidy s) :
    Tidy (s.drain out).2 ∧ (∀ position, Covers s position → Covers (s.drain out).2 position) ∧
      ∀ entry ∈ (s.drain out).2.buffered, (s.drain out).2.nextDeliverOffset < entry.1 := by
  fun_induction Stream.drain s out with
  | case1 s out missing =>
    exact ⟨tidy, fun _ covered => covered, fun _ member => absurd member (first?_eq_none missing)⟩
  | case2 s out offset data found waits =>
    refine ⟨tidy, fun _ covered => covered, fun entry member => ?_⟩
    have first := (first?_eq_some found).2 entry member
    have ahead := tidy.ahead _ (first?_eq_some found).1
    simp only at first ahead ⊢
    omega
  | case3 s out offset data found here ih =>
    obtain rfl : offset = s.nextDeliverOffset := not_not.mp here
    have taken := fun s' => take_first_progress s' tidy found
    obtain ⟨tidyEnd, keptEnd, settled⟩ := ih (taken _ rfl rfl).1
    exact ⟨tidyEnd, fun position covered => keptEnd position ((taken _ rfl rfl).2 position covered), settled⟩

theorem step_progress (tidy : Tidy r.stream) (accepted : Accepted r call) (clear : RunsOverNoRange r call) :
    Tidy (r.step call).stream ∧
      (∀ position, Covers r.stream position → Covers (r.step call).stream position) ∧
      ∀ offset data fin position, call = .receive offset data fin → offset ≤ position →
        position < offset + data.length → Covers (r.step call).stream position := by
  cases call with
  | receive offset data fin =>
    have reaction := r.stream.receive_reaction offset data fin
    simp only [step, Accepted, RunsOverNoRange] at accepted clear ⊢
    generalize r.stream.receive offset data fin = result at reaction accepted
    cases reaction with
    | barred | misplaced | exhausted =>
      obtain ⟨count, impossible⟩ := accepted
      cases impossible
    | repeated _ repeats =>
      have kept : r.stream.SameReception (r.stream.noted (offset + data.length) fin) := ⟨rfl, rfl⟩
      refine ⟨tidy.of_same kept, fun position => (covers_of_same kept).mpr, ?_⟩
      rintro _ _ _ position ⟨rfl, rfl, rfl⟩ starts ends
      exact (covers_of_same kept).mpr (covers_of_known (Stream.repeats_known repeats) starts ends)
    | taken takes =>
      refine And.imp_right (And.imp_right fun covered => ?_) (insert_progress tidy takes.admits rfl rfl clear)
      rintro _ _ _ position ⟨rfl, rfl, rfl⟩ starts ends
      exact covered position starts ends
  | readAvailable =>
    obtain ⟨tidied, kept, -⟩ := drain_progress r.stream [] tidy
    have same := (readAvailable_eq r.stream).2
    exact ⟨tidied.of_same same, fun position covered => (covers_of_same same).mpr
      (kept position covered), fun _ _ _ _ impossible => nomatch impossible⟩

theorem run_progress (tidy : Tidy r.stream)
    (accepted : Run.Meets Accepted step r calls) (clear : Run.Meets RunsOverNoRange step r calls) :
    Tidy (calls.foldl step r).stream ∧
      (∀ position, Covers r.stream position → Covers (calls.foldl step r).stream position) ∧
      ∀ offset data fin position, .receive offset data fin ∈ calls → offset ≤ position →
        position < offset + data.length → Covers (calls.foldl step r).stream position := by
  induction calls generalizing r with
  | nil => exact ⟨tidy, fun _ covered => covered, fun _ _ _ _ member => nomatch member⟩
  | cons call rest ih =>
    obtain ⟨tidied, kept, covered⟩ := step_progress tidy accepted.1 clear.1
    obtain ⟨tidyEnd, keptEnd, coveredEnd⟩ := ih tidied accepted.2 clear.2
    refine ⟨tidyEnd, fun position before => keptEnd position (kept position before), ?_⟩
    intro offset data fin position member starts ends
    obtain here | later := List.mem_cons.mp member
    · exact keptEnd position (covered offset data fin position here.symm starts ends)
    · exact coveredEnd offset data fin position later starts ends

/-- If every segment is accepted and none runs over the start of a later range, a read delivers every byte of
the prefix the segments cover. -/
theorem covered_prefix_is_delivered (sent : Bytes) (streamId : Nat) (protocolId : Bytes) (maxStreamData : Nat)
    (calls : List StreamCall) (count : Nat) (agree : ∀ call ∈ calls, AgreesWith sent call)
    (accepted : Run.Meets Accepted step (start streamId protocolId maxStreamData) calls)
    (clear : Run.Meets RunsOverNoRange step (start streamId protocolId maxStreamData) calls)
    (covered : ∀ position < count, ∃ offset data fin, .receive offset data fin ∈ calls ∧
      offset ≤ position ∧ position < offset + data.length) :
    sent.take count <+:
      ((calls.foldl step (start streamId protocolId maxStreamData)).step .readAvailable).delivered := by
  have tidyStart : Tidy (start streamId protocolId maxStreamData).stream :=
    ⟨fun _ member => absurd member not_mem_empty, fun _ member => absurd member not_mem_empty⟩
  obtain ⟨tidy, -, holds⟩ := run_progress tidyStart accepted clear
  have faithful : Faithful sent (calls.foldl step (start streamId protocolId maxStreamData)) :=
    Run.invariant_of_meets step_faithful start_faithful (Run.meets_of_forall agree _)
  generalize calls.foldl step (start streamId protocolId maxStreamData) = r at tidy holds faithful
  obtain ⟨-, kept, settled⟩ := drain_progress r.stream [] tidy
  obtain ⟨-, next, ranges⟩ := readAvailable_eq r.stream
  -- The next offset is not covered after the loop, so it is behind the prefix.
  have reached : count ≤ r.stream.readAvailable.2.nextDeliverOffset := by
    by_contra short
    rw [next] at short
    obtain ⟨offset, data, fin, member, starts, ends⟩ := covered _ (Nat.not_le.mp short)
    obtain delivered | ⟨entry, waits, low, -⟩ := kept _ (holds offset data fin _ member starts ends)
    · exact Nat.lt_irrefl _ delivered
    · exact Nat.not_le.mpr (settled entry waits) low
  have final := (step_faithful r .readAvailable faithful trivial).delivered
  rw [final]
  exact List.take_prefix_take_left reached

theorem covered_prefix_is_delivered_reordered :
    [1, 2, 3] <+: (([.receive 1 [2] false, .receive 2 [3] false, .receive 0 [1] false].foldl step
      (start 0 [] 100)).step .readAvailable).delivered := by
  refine covered_prefix_is_delivered [1, 2, 3, 4] 0 [] 100 _ 3 ?_ ?_ ?_ ?_
  · simp [AgreesWith]
  · exact ⟨⟨1, by decide +kernel⟩, ⟨1, by decide +kernel⟩, ⟨1, by decide +kernel⟩, trivial⟩
  · exact ⟨by decide +kernel, by decide +kernel, by decide +kernel, trivial⟩
  · intro position inside
    obtain rfl | rfl | rfl : position = 0 ∨ position = 1 ∨ position = 2 := by omega
    · exact ⟨0, [1], false, by simp, by simp⟩
    · exact ⟨1, [2], false, by simp, by simp⟩
    · exact ⟨2, [3], false, by simp, by simp⟩

/-- Two segments that overlap by one byte, the later one first. -/
def overlapping : List StreamCall := [.receive 1 [2, 3] false, .receive 0 [1, 2] false]

/-- Both are accepted and cover three bytes, but the reader is given two: the range at 1 is behind the next
offset. -/
theorem overlapping_segments_stall :
    (∀ call ∈ overlapping, AgreesWith [1, 2, 3] call) ∧
      Run.Meets Accepted step (start 0 [] 100) overlapping ∧
      (∀ position < 3, ∃ offset data fin, .receive offset data fin ∈ overlapping ∧
        offset ≤ position ∧ position < offset + data.length) ∧
      ∀ reads, ((overlapping ++ List.replicate (reads + 1) StreamCall.readAvailable).foldl step
        (start 0 [] 100)).delivered = [1, 2] := by
  refine ⟨by simp [AgreesWith, overlapping], ?_, ?_, ?_⟩
  · exact ⟨⟨2, by decide +kernel⟩, ⟨2, by decide +kernel⟩, trivial⟩
  · intro position inside
    obtain low | rfl : position < 2 ∨ position = 2 := by omega
    · exact ⟨0, [1, 2], false, by simp [overlapping], by simpa using low⟩
    · exact ⟨1, [2, 3], false, by simp [overlapping], by simp⟩
  · let r := (overlapping.foldl step (start 0 [] 100)).step .readAvailable
    have settled : r.step .readAvailable = r := by decide +kernel
    intro reads
    rw [List.foldl_append, List.replicate_succ, List.foldl_cons]
    have stuck : (List.replicate reads StreamCall.readAvailable).foldl step r = r := by
      induction reads with
      | zero => rfl
      | succ reads ih => rw [List.replicate_succ, List.foldl_cons, settled, ih]
    rw [stuck]
    decide +kernel

end Reception

namespace Stream

variable {s : Stream} {offset stop : Nat} {data : Bytes} {fin : Bool}

/-! ### Refused segments -/

/-- A refused segment leaves the stream as it was. -/
def RefusesCleanly (s : Stream) (offset : Nat) (data : Bytes) (fin : Bool) : Prop :=
  ∀ e s', s.receive offset data fin = (.error e, s') → s' = s

/-- The segment is accepted, or refused for its final size, or it does not bring the first final size and the
counter can be raised and lowered again where the budget is asked for. -/
def Reversible (s : Stream) (offset : Nat) (data : Bytes) (fin : Bool) : Prop :=
  s.Receivable offset data fin ∨ ¬ s.Allows (offset + data.length) fin ∨
    (fin = true → s.finalSize ≠ none) ∧ (s.Misplaces offset data ∨ s.bufferedBytes + data.length ≤ u64Max)

theorem noted_eq_self_iff : s.noted stop fin = s ↔ (fin = true → s.finalSize ≠ none) := by
  refine ⟨fun same final none => ?_, noted_eq_self⟩
  have size := congrArg finalSize same
  simp [noted, final, none] at size

/-- The counter is raised and lowered to the same number unless it saturates. -/
theorem exhausted_eq_self_iff (small : data.length ≤ u64Max) :
    { s.noted stop fin with bufferedBytes := saturatingAdd s.bufferedBytes data.length - data.length } = s ↔
      (fin = true → s.finalSize ≠ none) ∧ s.bufferedBytes + data.length ≤ u64Max := by
  have counter : saturatingAdd s.bufferedBytes data.length - data.length = s.bufferedBytes ↔
      s.bufferedBytes + data.length ≤ u64Max := by
    unfold saturatingAdd
    omega
  have unnoted : s.noted stop fin = s ↔ (fin = true → s.finalSize ≠ none) := noted_eq_self_iff
  rw [← unnoted, ← counter]
  constructor
  · intro same
    have size := congrArg finalSize same
    have bytes := congrArg bufferedBytes same
    refine ⟨?_, bytes⟩
    cases s
    simp only [noted] at size ⊢
    rw [size]
  · rintro ⟨same, bytes⟩
    rw [bytes, same]

theorem unchanged_iff :
    (∀ e' s'', ((.error e, s') : Except StreamError Nat × Stream) = (.error e', s'') → s'' = s) ↔ s' = s := by
  refine ⟨fun all => all e s' rfl, ?_⟩
  rintro rfl e' s'' same
  cases same
  rfl

/-- Just the reversible segments leave the stream as it was when they are refused. -/
theorem refusesCleanly_iff (s : Stream) (offset : Nat) (data : Bytes) (fin : Bool) :
    s.RefusesCleanly offset data fin ↔ s.Reversible offset data fin := by
  have reaction := s.receive_reaction offset data fin
  unfold RefusesCleanly Reversible
  generalize s.receive offset data fin = result at reaction
  cases reaction with
  | barred barred => exact ⟨fun _ => .inr (.inl barred), fun _ => unchanged_iff.mpr rfl⟩
  | misplaced allowed misplaces =>
    rw [unchanged_iff, noted_eq_self_iff]
    simp [allowed, misplaces, misplaces.not_receivable]
  | exhausted allowed placed fresh full =>
    have small : data.length ≤ u64Max := (Nat.le_add_left ..).trans allowed.1
    rw [unchanged_iff, exhausted_eq_self_iff small]
    simp [allowed, placed, not_receivable_of_full fresh full]
  | repeated receivable =>
    refine ⟨fun _ => .inl receivable, fun _ e s' same => ?_⟩
    cases same
  | taken takes =>
    refine ⟨fun _ => .inl takes.1, fun _ e s' same => ?_⟩
    cases same

/-- A FIN beyond the limit is refused and leaves its final size behind, for which the right one is refused
later. -/
theorem refused_fin_remembered : let s := Stream.new 0 [] 100
    let s' := (s.receive 200 [] true).2
    (s.receive 200 [] true).1 = .error .offsetsOutOfOrder ∧ s'.finalSize = some 200 ∧
      (s.receive 0 [1] true).1 = .ok 1 ∧ (s'.receive 0 [1] true).1 = .error .finalSizeConflict ∧
      ¬ s.RefusesCleanly 200 [] true := by
  intro s s'
  have refused : (s.receive 200 [] true).1 = .error .offsetsOutOfOrder := by decide +kernel
  have remembered : s'.finalSize = some 200 := by decide +kernel
  refine ⟨refused, remembered, by decide +kernel, by decide +kernel, fun clean => ?_⟩
  have same : s' = s := clean .offsetsOutOfOrder s' (Prod.ext refused rfl)
  rw [same] at remembered
  cases remembered

end Stream
end UniversalMesh.Session
