import UniversalMesh.Session.AckHistory

/-! What the receiver of packets reports and what the sender takes from the report, `umc-session/src/ack.rs` on
both ends. `record` may leave two ranges that touch; the lower one then holds at least two numbers, which is why
the sender's walk, stopping when its cursor is 0, never stops too early. -/
namespace UniversalMesh.Session
open Wire Ranges

section

variable {ranges : List Range} {s : AckReceiveState}

theorem mergeRight_touchLong (ascending : Ascending ranges)
    (long : TouchLong ranges) (i : Nat) : TouchLong (mergeRight ranges i) := by
  by_cases inside : i + 1 < ranges.length
  · obtain ⟨before, after, shape, rfl⟩ := split_pair (List.getElem?_eq_getElem (by omega))
      (List.getElem?_eq_getElem inside)
    rw [shape] at ascending long ⊢
    rw [mergeRight_pair]
    split
    · exact long.merge ascending
    · exact long
  · rwa [mergeRight_last (by omega)]

/-- A number put behind ranges it does not touch, and merged to the right, leaves no single number that touches
the next range. -/
theorem insert_touchLong {pn : Nat} (ascending : Ascending (before ++ (pn, pn) :: after))
    (long : TouchLong (before ++ after)) (apart : ∀ r ∈ before, r.2 + 1 < pn) :
    TouchLong (mergeRight (before ++ (pn, pn) :: after) before.length) := by
  obtain ⟨-, ordered, -⟩ := ascending_append.mp ascending
  obtain ⟨-, rest, gap⟩ := ascending_cons.mp ordered
  have untouched : ∀ r ∈ before, r.2 + 1 = pn → r.1 < r.2 := by
    intro r member touches
    exact absurd touches (apart r member).ne
  cases after with
  | nil =>
    rw [mergeRight_last (by simp)]
    exact long.splice untouched fun r member => absurd member List.not_mem_nil
  | cons next after =>
    have below := gap next List.mem_cons_self
    obtain ⟨nonempty, -, beyond⟩ := ascending_cons.mp rest
    rw [mergeRight_pair]
    split
    · have shorter : TouchLong (before ++ after) :=
        long.sublist ((List.sublist_cons_self next after).append_left before)
      refine shorter.splice untouched fun c _ _ => ?_
      omega
    · next separated =>
      refine long.splice untouched ?_
      intro c member touches
      rcases List.mem_cons.mp member with rfl | member
      · omega
      · have farther := beyond c member
        omega

/-- A new number extends the range that ends right below it, or is put between the ranges; then it is merged with
what is behind it. -/
theorem recordRange_split (ascending : Ascending ranges) (pn : Nat) :
    Covers ranges pn ∧ recordRange ranges pn = ranges ∨
    (∃ lower left after, ranges = lower ++ left :: after ∧ left.2 + 1 = pn ∧ (∀ r ∈ after, pn < r.1) ∧
      Ascending (lower ++ (left.1, pn) :: after) ∧
      recordRange ranges pn = mergeRight (lower ++ (left.1, pn) :: after) (lower.length + 1)) ∨
    ∃ before after, ranges = before ++ after ∧ (∀ r ∈ before, r.2 + 1 < pn) ∧ (∀ r ∈ after, pn < r.1) ∧
      recordRange ranges pn = mergeRight (before ++ (pn, pn) :: after) before.length := by
  rcases recordRange_cases ascending pn with covered | ⟨before, after, rfl, above, below, merged⟩
  · exact .inl covered
  right
  rw [merged]
  rcases List.eq_nil_or_concat before with rfl | ⟨lower, left, rfl⟩
  · exact .inr ⟨[], after, rfl, by simp, below, rfl⟩
  rw [List.concat_eq_append] at *
  have reach := above left (by simp)
  have inserted := ascending.insert above below
  simp only [List.append_assoc, List.singleton_append, List.length_append, List.length_singleton]
    at ascending inserted ⊢
  rw [mergeLeft_pair (by dsimp only; omega)]
  split
  · next touches =>
    exact .inl ⟨lower, left, after, rfl, by dsimp only at touches; omega, below, inserted.merge, rfl⟩
  · next separate =>
    refine .inr ⟨lower ++ [left], after, by simp, fun r member => ?_, below, by simp⟩
    rcases List.mem_append.mp member with earlier | here
    · obtain ⟨-, -, across⟩ := ascending_append.mp ascending
      have order := across r earlier left List.mem_cons_self
      have nonempty := ascending.nonempty left (by simp)
      omega
    · rw [List.mem_singleton.mp here]
      exact Nat.not_le.mp separate

theorem recordRange_touchLong (ascending : Ascending ranges)
    (long : TouchLong ranges) (pn : Nat) : TouchLong (recordRange ranges pn) := by
  rcases recordRange_split ascending pn with
    ⟨-, same⟩ | ⟨lower, left, after, rfl, touches, below, extended, merged⟩ |
    ⟨before, after, rfl, apart, below, merged⟩
  · rwa [same]
  · -- the number joins the range below it, which then holds at least two
    rw [merged]
    refine mergeRight_touchLong extended ?_ _
    obtain ⟨-, -, across⟩ := List.pairwise_append.mp long
    have nonempty := ascending.nonempty left (by simp)
    have shorter : TouchLong (lower ++ after) :=
      long.sublist ((List.sublist_cons_self left after).append_left lower)
    refine shorter.splice (fun r member => across r member left List.mem_cons_self) fun c _ _ => ?_
    omega
  · rw [merged]
    exact insert_touchLong (ascending.insert (fun r member => by have := apart r member; omega) below) long apart

namespace AckReceiveState

variable (numbers : List Nat)

/-- The state after the numbers have been received, in this order. -/
def received : AckReceiveState := numbers.foldl record new

/-- No number of the list makes `record` drop a range. -/
def WithinCap : Prop :=
  Run.Meets (fun s pn => (recordRange s.ranges pn).length ≤ maxStoredRanges) record new numbers

instance (numbers : List Nat) : Decidable (WithinCap numbers) :=
  Run.decidableMeets _ _ _

theorem record_touchLong (s : AckReceiveState) (pn : Nat) (long : TouchLong s.ranges) :
    TouchLong (record s pn).ranges :=
  (recordRange_touchLong s.ascending long pn).sublist (dropOldest_suffix _).sublist

theorem received_touchLong : TouchLong (received numbers).ranges :=
  Run.invariant record_touchLong List.Pairwise.nil

variable {ranges : List Range} {s : AckReceiveState} {ack : AckFrame} {delay : Nat}

theorem dropOldest_eq (within : ranges.length ≤ maxStoredRanges) : dropOldest ranges = ranges := by
  cases ranges with
  | nil => rfl
  | cons r ranges => exact if_neg (Nat.not_lt.mpr within)

theorem covers_foldl_record {numbers : List Nat}
    (within : Run.Meets (fun s pn => (recordRange s.ranges pn).length ≤ maxStoredRanges) record s numbers) :
    Covers (numbers.foldl record s).ranges n ↔ Covers s.ranges n ∨ n ∈ numbers := by
  induction numbers generalizing s with
  | nil => simp
  | cons pn rest ih =>
    have kept : (s.record pn).ranges = recordRange s.ranges pn := dropOldest_eq within.1
    rw [List.foldl_cons, ih within.2, kept, (recordRange_spec s.ascending).2 n, List.mem_cons, or_assoc]

theorem covers_received {numbers : List Nat} (within : WithinCap numbers) :
    Covers (received numbers).ranges n ↔ n ∈ numbers :=
  (covers_foldl_record within).trans (or_iff_right not_covers_nil)

/-- The receiver finds every number of ranges below a number, unless a range is (0, 0) and the one above it
begins at 1. -/
theorem reportedBelow_of_covers (nonempty : ∀ r ∈ ranges, r.1 ≤ r.2)
    (apart : ranges.Pairwise fun a b => b.2 < a.1) (below : ∀ r ∈ ranges, r.2 < prevLow)
    (long : ∀ r ∈ ranges, r.2 + 1 = prevLow → r.1 < r.2)
    (longer : ranges.Pairwise fun a b => b.2 + 1 = a.1 → b.1 < b.2) (covered : Covers ranges pn) :
    ReportedBelow pn prevLow ranges := by
  induction ranges generalizing prevLow with
  | nil => exact absurd covered not_covers_nil
  | cons r rest ih =>
    have order := nonempty _ List.mem_cons_self
    have under := below _ List.mem_cons_self
    have single := long _ List.mem_cons_self
    obtain ⟨next, tail⟩ := List.pairwise_cons.mp apart
    obtain ⟨nextLong, tailLong⟩ := List.pairwise_cons.mp longer
    rw [reportedBelow_cons order under]
    refine ⟨by omega, (covers_cons.mp covered).imp_right ?_⟩
    exact ih (fun r member => nonempty r (List.mem_cons_of_mem _ member)) tail next nextLong tailLong

/-- The frame built from the ranges acknowledges what they cover. -/
theorem acknowledges_iff (long : TouchLong s.ranges) (built : s.buildAck delay = some ack) :
    Acknowledges ack pn ↔ Covers s.ranges pn := by
  refine ⟨covers_of_buildAck built, fun covered => ?_⟩
  obtain ⟨lower, highest, shape, nonempty, apart, below, found⟩ := acknowledges_buildAck built
  rw [shape] at covered long
  obtain ⟨lowerLong, -, acrossLong⟩ := List.pairwise_append.mp long
  rw [found]
  rcases covers_append.mp covered with earlier | last
  · refine .inr (reportedBelow_of_covers nonempty apart below ?_ (List.pairwise_reverse.mpr lowerLong)
      (covers_reverse.mpr earlier))
    exact fun r member => acrossLong r (List.mem_reverse.mp member) highest List.mem_cons_self
  · exact .inl ((covers_cons.mp last).resolve_right not_covers_nil)

theorem additionalRanges_nonempty : ∀ r ∈ additionalRanges prevLow ranges, 1 ≤ r.length := by
  induction ranges generalizing prevLow with
  | nil => simp [additionalRanges]
  | cons r rest ih => exact List.forall_mem_cons.mpr ⟨Nat.le_add_left 1 _, ih⟩

theorem buildAck_nonempty (built : s.buildAck delay = some ack) : ack.NonEmptyRanges := by
  obtain ⟨lower, highest, -, -, first, -, additional⟩ := buildAck_shape built
  refine ⟨by omega, ?_⟩
  rw [additional]
  exact additionalRanges_nonempty

/-- The largest number of a frame is one of those covered, and none is above it. -/
theorem buildAck_largest (built : s.buildAck delay = some ack) :
    Covers s.ranges ack.largestAcknowledged ∧
      ∀ n, Covers s.ranges n → n ≤ ack.largestAcknowledged := by
  obtain ⟨lower, highest, shape, largestIs, -⟩ := buildAck_shape built
  have last : s.ranges.getLast? = some highest := by simp [shape]
  rw [largestIs]
  exact ⟨s.ascending.covers_last last, fun n => s.ascending.le_last last⟩

end AckReceiveState

namespace AckSendState
open AckReceiveState

theorem le_maxSent_iff {s : AckSendState} (increasing : s.outstanding.Pairwise (· < ·)) :
    m ≤ s.maxSent ↔ m = 0 ∨ ∃ n ∈ s.outstanding, m ≤ n := by
  have newest : s.maxSent = s.outstanding.getLast?.getD 0 := by
    rw [maxSent, outstanding, List.getLast?_map]
  rw [newest]
  rcases List.eq_nil_or_concat s.outstanding with none | ⟨older, last, shape⟩
  · simp [none]
  · rw [List.concat_eq_append] at shape
    rw [shape] at increasing ⊢
    obtain ⟨-, -, above⟩ := List.pairwise_append.mp increasing
    simp only [List.getLast?_append, List.getLast?_singleton, Option.some_or, Option.getD_some]
    constructor
    · intro reach
      exact .inr ⟨last, by simp, reach⟩
    · rintro (rfl | ⟨n, member, reach⟩)
      · exact Nat.zero_le _
      · rcases List.mem_append.mp member with earlier | here
        · have := above n earlier last (by simp)
          omega
        · rwa [List.mem_singleton.mp here] at reach

/-- The sender has a packet outstanding numbered as high as every number received, or only 0 was received. -/
def ReachesAll (s : AckSendState) (numbers : List Nat) : Prop :=
  (∃ sent ∈ s.outstanding, ∀ n ∈ numbers, n ≤ sent) ∨ ∀ n ∈ numbers, n = 0

/-- A sender records increasing numbers and applies ACKs, a receiver records numbers in any order, and its ACK
is applied: just the packets outstanding whose numbers were received leave the queue, exactly if the sender
still has one outstanding at or above the numbers received. -/
theorem ack_agreement_iff {calls : List SendCall} {numbers : List Nat} {delay : Nat} {ack : AckFrame}
    (increasing : (sentNumbers calls).Pairwise (· < ·)) (within : WithinCap numbers)
    (built : (received numbers).buildAck delay = some ack) :
    (∃ s', (after calls).applyAck ack.largestAcknowledged (flatRanges ack) =
          .ok ((after calls).outstanding.filter fun n => n ∈ numbers, s') ∧
        s'.sent = (after calls).sent.filter fun p => p.packetNumber ∉ numbers) ↔
      (after calls).ReachesAll numbers := by
  have agrees : acknowledged ack.largestAcknowledged (flatRanges ack) = fun n => decide (n ∈ numbers) := by
    funext pn
    rw [Bool.eq_iff_iff, decide_eq_true_iff, ← covers_received within]
    exact acknowledges_iff (received_touchLong numbers) built
  obtain ⟨covered, greatest⟩ := buildAck_largest built
  have known : ack.largestAcknowledged ∈ numbers := (covers_received within).mp covered
  have highest : ∀ n ∈ numbers, n ≤ ack.largestAcknowledged := fun n member =>
    greatest n ((covers_received within).mpr member)
  have order := increasing.sublist (outstanding_after calls)
  have reaches : (after calls).ReachesAll numbers ↔ ack.largestAcknowledged ≤ (after calls).maxSent := by
    rw [le_maxSent_iff order, or_comm, ReachesAll]
    refine or_congr (exists_congr fun sent => and_congr_right fun _ => ?_) ?_
    · exact ⟨fun all => all _ known, fun reach n member => (highest n member).trans reach⟩
    · refine ⟨fun all => all _ known, fun zero n member => ?_⟩
      have := highest n member
      omega
  rw [reaches]
  rcases applyAck_cases (after calls) ack.largestAcknowledged (flatRanges ack) with
    ⟨empty, -⟩ | ⟨-, unsent, refused⟩ | ⟨-, sent, s', applied, kept⟩
  · exact absurd empty (not_hasEmptyRange_iff.mpr (buildAck_nonempty built))
  · rw [refused]
    simp only [reduceCtorEq, false_and, exists_false, false_iff]
    omega
  · rw [agrees] at applied kept
    exact iff_of_true ⟨s', applied, by simpa using kept⟩ sent

/-- The numbers 1 and 2 are received. The sender of 0, 1 and 2 has had an ACK of 2 alone. -/
def secondLost : List SendCall :=
  [.recordSent (.new 0 .sessionData 0 100 true 0), .recordSent (.new 1 .sessionData 0 100 true 0),
    .recordSent (.new 2 .sessionData 0 100 true 0), .applyAck 2 [(1, 0)]]

/-- The ACK of 1 and 2 is an error for a sender that has had one of 2. -/
theorem later_ack_refused :
    (sentNumbers secondLost).Pairwise (· < ·) ∧ (sentNumbers secondLost = [0, 1, 2]) ∧
      WithinCap [2, 1] ∧ (after secondLost).outstanding = [0, 1] ∧
      ∃ ack, (received [2, 1]).buildAck 0 = some ack ∧
        (after secondLost).applyAck ack.largestAcknowledged (flatRanges ack) =
          .error .acknowledgesUnsent := by
  refine ⟨by decide, by decide, by decide, by decide +kernel, _, rfl, by decide +kernel⟩

/-- Of 0, 1 and 2 the numbers 2 and 0 are received, twice. -/
theorem ack_agreement_first_ack :
    (after (secondLost.take 3)).ReachesAll [2, 0, 2] ∧
      ∃ ack, (received [2, 0, 2]).buildAck 0 = some ack ∧
        ∃ s', (after (secondLost.take 3)).applyAck ack.largestAcknowledged (flatRanges ack) =
            .ok ([0, 2], s') ∧ s'.outstanding = [1] := by
  have reaches : (after (secondLost.take 3)).ReachesAll [2, 0, 2] := .inl ⟨2, by decide +kernel, by decide⟩
  obtain ⟨s', applied, kept⟩ := (@ack_agreement_iff (secondLost.take 3) [2, 0, 2] 0 _ (by decide)
    (by decide) rfl).mpr reaches
  exact ⟨reaches, _, rfl, s', applied, by rw [outstanding, kept]; decide +kernel⟩

end AckSendState

namespace AckReceiveState

theorem additionalRanges_length (prevLow : Nat) (ranges : List Range) :
    (additionalRanges prevLow ranges).length = ranges.length := by
  induction ranges generalizing prevLow with
  | nil => rfl
  | cons r rest ih => exact congrArg (· + 1) (ih r.1)

/-- The gaps and lengths below a number fit where the number and the lengths do. -/
theorem additionalRanges_fit {bound : Nat}
    (top : prevLow ≤ bound) (nonempty : ∀ r ∈ ranges, r.1 ≤ r.2) (high : ∀ r ∈ ranges, r.2 ≤ bound) :
    (∀ r ∈ additionalRanges prevLow ranges, r.gap ≤ bound ∧ r.length ≤ bound) ↔
      ∀ r ∈ ranges, r.2 - r.1 < bound := by
  induction ranges generalizing prevLow with
  | nil => simp [additionalRanges]
  | cons r rest ih =>
    obtain ⟨⟨order, others⟩, first, further⟩ :=
      And.intro (List.forall_mem_cons.mp nonempty) (List.forall_mem_cons.mp high)
    rw [additionalRanges, List.forall_mem_cons, List.forall_mem_cons, ih (by omega) others further]
    refine and_congr_left fun _ => ?_
    dsimp only
    omega

/-- The ranges can be reported: at most one more than the wire allows behind the first, with ends, lengths and a
delay that are varints. -/
structure Reportable (s : AckReceiveState) (delay : Nat) : Prop where
  few : s.ranges.length ≤ maxAckRanges + 1
  delayed : delay ≤ Varint.maxVarint
  fit : ∀ r ∈ s.ranges, r.2 ≤ Varint.maxVarint ∧ r.2 - r.1 < Varint.maxVarint

/-- The frame is encoded, and decodes back whatever follows. -/
def Parseable (ack : AckFrame) : Prop :=
  ∃ bytes, ack.encode = .ok bytes ∧ SelfDelimiting .ack AckFrame.decode ack bytes

theorem parseable_iff {delay : Nat} {ack : AckFrame}
    (built : s.buildAck delay = some ack) : Parseable ack ↔ s.Reportable delay := by
  have encodes : Parseable ack ↔ ∃ bytes, ack.encode = .ok bytes :=
    exists_congr fun bytes => and_iff_left_of_imp (ack.round_trip (buildAck_nonempty built))
  obtain ⟨lower, highest, shape, largestIs, first, delayIs, additional⟩ := buildAck_shape built
  obtain ⟨before, single, gaps⟩ := ascending_append.mp (shape ▸ s.ascending)
  have order : highest.1 ≤ highest.2 := (ascending_cons.mp single).1
  have below : ∀ r ∈ lower, r.2 < highest.1 := fun r member => gaps r member highest List.mem_cons_self
  have nonempty : ∀ r ∈ lower.reverse, r.1 ≤ r.2 := fun r member =>
    before.nonempty r (List.mem_reverse.mp member)
  have high : highest.2 ≤ Varint.maxVarint → ∀ r ∈ lower.reverse, r.2 ≤ Varint.maxVarint := by
    intro top r member
    have lower := below r (List.mem_reverse.mp member)
    omega
  rw [encodes, AckFrame.encode_isOk, largestIs, first, delayIs, additional, additionalRanges_length,
    List.length_reverse]
  constructor
  · rintro ⟨few, top, delayed, topLength, rest⟩
    have lengths := (additionalRanges_fit (by omega) nonempty (high top)).mp rest
    refine ⟨by simp [shape]; omega, delayed, fun r member => ?_⟩
    rw [shape] at member
    rcases List.mem_append.mp member with earlier | here
    · have listed := List.mem_reverse.mpr earlier
      exact ⟨high top r listed, lengths r listed⟩
    · rw [List.mem_singleton.mp here]
      exact ⟨top, by omega⟩
  · rintro ⟨few, delayed, fit⟩
    rw [shape] at few fit
    have top := fit highest (by simp)
    simp only [List.length_append, List.length_singleton] at few
    refine ⟨by omega, top.1, delayed, by omega, ?_⟩
    refine (additionalRanges_fit (by omega) nonempty (high top.1)).mpr fun r member => ?_
    exact (fit r (by simp [List.mem_reverse.mp member])).2

theorem buildAck_eq_none {delay : Nat} : s.buildAck delay = none ↔ s.ranges = [] := by
  have newest := s.newest
  unfold buildAck
  cases last : s.ranges.getLast? with
  | none => simp [List.getLast?_eq_none_iff.mp last]
  | some highest =>
    have some : s.ranges ≠ [] := by
      rintro none
      simp [none] at last
    rw [last] at newest
    simp [newest, some]

/-- Whatever was received, the ACK has nothing to report or is parsed by the peer, exactly if the ranges left
can be reported. -/
theorem ack_parseable_iff (numbers : List Nat) (delay : Nat) :
    ((received numbers).buildAck delay = none ∨
        ∃ ack, (received numbers).buildAck delay = some ack ∧ Parseable ack) ↔
      (received numbers).ranges = [] ∨ (received numbers).Reportable delay := by
  cases built : (received numbers).buildAck delay with
  | none => simp [buildAck_eq_none.mp built]
  | some ack =>
    have some : (received numbers).ranges ≠ [] := fun none => by
      simp [buildAck_eq_none.mpr none] at built
    simp [some, parseable_iff built]

/-- Every second of 132 numbers arrives: the 66 ranges are more than the wire allows. -/
theorem every_second_unparseable :
    ∃ ack, (received ((List.range 66).map (2 * ·))).buildAck 0 = some ack ∧
      ack.additionalRanges.length = 65 ∧ ack.encode = .error .tooManyAckRanges ∧ ¬ Parseable ack := by
  have outcome : ((received ((List.range 66).map (2 * ·))).buildAck 0).map
      (fun ack => (ack.additionalRanges.length, ack.encode)) = some (65, .error .tooManyAckRanges) := by
    decide +kernel
  obtain ⟨ack, built, same⟩ := Option.map_eq_some_iff.mp outcome
  obtain ⟨count, refused⟩ := Prod.mk.inj same
  refine ⟨ack, built, count, refused, ?_⟩
  rintro ⟨bytes, encoded, -⟩
  rw [refused] at encoded
  cases encoded

end AckReceiveState

end

/-! Which ranges the receiver of packets stores, `umc-session/src/ack.rs`. A number that touches one range is
merged with it. One that closes the gap between two is merged with the lower one alone: `record` then looks for
a right neighbour behind the merged range, not at it. -/

/-- The number closes a gap of one between what is covered below it and above it. -/
def Bridges (ranges : List Range) (pn : Nat) : Prop :=
  0 < pn ∧ Covers ranges (pn - 1) ∧ ¬ Covers ranges pn ∧ Covers ranges (pn + 1)

theorem mergeRight_of_canonical (canonical : Canonical back) :
    mergeRight (front ++ back) front.length = front ++ back := by
  cases back with
  | nil => exact mergeRight_last (by simp)
  | cons here rest =>
    cases rest with
    | nil => exact mergeRight_last (by simp)
    | cons right rest =>
      have gap := (List.pairwise_cons.mp canonical.apart).1 right List.mem_cons_self
      rw [mergeRight_pair, if_neg (by omega)]

variable {ranges : List Range} {pn : Nat}

theorem canonical_insert (canonical : Canonical (before ++ after)) (above : ∀ r ∈ before, r.2 + 1 < pn)
    (below : ∀ r ∈ after, pn < r.1) : Canonical (mergeRight (before ++ (pn, pn) :: after) before.length) := by
  cases after with
  | nil =>
    rw [mergeRight_last (by simp)]
    exact canonical.splice (Nat.le_refl _) above (by simp)
  | cons next after =>
    have behind : Canonical (next :: after) := canonical.suffix (List.suffix_append _ _)
    have gaps := (List.pairwise_cons.mp behind.apart).1
    have nonempty := behind.nonempty next List.mem_cons_self
    have reach := below next List.mem_cons_self
    rw [mergeRight_pair]
    split
    · have shorter : Canonical (before ++ after) :=
        ⟨fun r member => canonical.nonempty r (by simp at member ⊢; tauto),
          canonical.apart.sublist ((List.sublist_cons_self next after).append_left before)⟩
      exact shorter.splice (by dsimp only; omega) above gaps
    · next separate =>
      refine canonical.splice (Nat.le_refl _) above fun r member => ?_
      rcases List.mem_cons.mp member with rfl | later
      · omega
      · have order := gaps r later
        omega

/-- Of the ranges above a number the one that covers the next number begins with it. -/
theorem covers_next_iff (nonempty : ∀ r ∈ after, r.1 ≤ r.2) (below : ∀ r ∈ after, pn < r.1) :
    Covers after (pn + 1) ↔ ∃ r ∈ after, r.1 = pn + 1 := by
  constructor
  · rintro ⟨r, member, low, -⟩
    have order := below r member
    exact ⟨r, member, by omega⟩
  · rintro ⟨r, member, starts⟩
    have order := nonempty r member
    exact ⟨r, member, by omega, by omega⟩

theorem not_covers_of_lt (above : ∀ r ∈ before, r.2 < n) : ¬ Covers before n := by
  rintro ⟨r, member, -, high⟩
  have order := above r member
  omega

theorem not_covers_of_gt (below : ∀ r ∈ after, n < r.1) : ¬ Covers after n := by
  rintro ⟨r, member, low, -⟩
  have order := below r member
  omega

/-- A range that grows by one stays apart from the others unless the next one begins right behind it. -/
theorem canonical_extend_iff (canonical : Canonical (lower ++ left :: after)) (touches : left.2 + 1 = pn)
    (below : ∀ r ∈ after, pn < r.1) : Canonical (lower ++ (left.1, pn) :: after) ↔ ¬ Covers after (pn + 1) := by
  obtain ⟨-, -, across⟩ := List.pairwise_append.mp canonical.apart
  have nonempty := canonical.nonempty left (by simp)
  rw [covers_next_iff (fun r member => canonical.nonempty r (by simp [member])) below]
  constructor
  · rintro extended ⟨r, member, starts⟩
    obtain ⟨-, right, -⟩ := List.pairwise_append.mp extended.apart
    have gap := (List.pairwise_cons.mp right).1 r member
    dsimp only at gap
    omega
  · intro free
    have shorter : Canonical (lower ++ after) :=
      ⟨fun r member => canonical.nonempty r (by simp at member ⊢; tauto),
        canonical.apart.sublist ((List.sublist_cons_self left after).append_left lower)⟩
    refine shorter.splice (by dsimp only; omega) (fun r member => ?_) fun r member => ?_
    · exact across r member left List.mem_cons_self
    · have order := below r member
      have apart : r.1 ≠ pn + 1 := fun starts => free ⟨r, member, starts⟩
      omega

theorem bridges_extend_iff (canonical : Canonical (lower ++ left :: after))
    (touches : left.2 + 1 = pn) (below : ∀ r ∈ after, pn < r.1) :
    Bridges (lower ++ left :: after) pn ↔ Covers after (pn + 1) := by
  obtain ⟨-, -, across⟩ := List.pairwise_append.mp canonical.apart
  have nonempty := canonical.nonempty left (by simp)
  have behind : Covers (lower ++ left :: after) (pn - 1) := ⟨left, by simp, by omega, by omega⟩
  have low : ∀ n, pn ≤ n → ¬ Covers lower n := fun n beyond => by
    refine not_covers_of_lt fun r member => ?_
    have gap := across r member left List.mem_cons_self
    omega
  have fresh : ¬ Covers (lower ++ left :: after) pn := by
    rw [covers_append, covers_cons]
    rintro (lower | here | upper)
    · exact low pn le_rfl lower
    · omega
    · exact not_covers_of_gt below upper
  have here : ¬ (left.1 ≤ pn + 1 ∧ pn + 1 ≤ left.2) := by omega
  simp only [Bridges, behind, fresh, not_false_eq_true, true_and]
  rw [covers_append, covers_cons, or_iff_right (low _ (by omega)), or_iff_right here]
  exact and_iff_right (by omega)

namespace AckReceiveState

/-- Recording a number keeps canonical ranges canonical unless it closes a gap. -/
theorem canonical_record_iff (s : AckReceiveState) (pn : Nat) (canonical : Canonical s.ranges) :
    Canonical (s.record pn).ranges ↔ ¬ Bridges s.ranges pn := by
  show Canonical (dropOldest (recordRange s.ranges pn)) ↔ _
  rcases recordRange_split s.ascending pn with ⟨covered, same⟩ |
    ⟨lower, left, after, shape, touches, below, -, merged⟩ | ⟨before, after, shape, above, below, result⟩
  · rw [same]
    exact ⟨fun _ bridges => bridges.2.2.1 covered, fun _ => canonical.suffix (dropOldest_suffix _)⟩
  · have bounded := s.bounded
    rw [shape] at canonical bounded
    -- the merged range is at the index before the one that is compared
    have behind : Canonical after :=
      canonical.suffix ((List.suffix_cons left after).trans (List.suffix_append _ _))
    have unmerged : mergeRight ((lower ++ [(left.1, pn)]) ++ after) (lower ++ [(left.1, pn)]).length =
        (lower ++ [(left.1, pn)]) ++ after := mergeRight_of_canonical behind
    have result : recordRange s.ranges pn = lower ++ (left.1, pn) :: after := by
      rw [merged]
      simpa using unmerged
    rw [result, dropOldest_eq (by simpa using bounded), shape, canonical_extend_iff canonical touches below,
      bridges_extend_iff canonical touches below]
  · have kept : Canonical (recordRange s.ranges pn) := by
      rw [result]
      exact canonical_insert (shape ▸ canonical) above below
    refine ⟨fun _ bridges => ?_, fun _ => kept.suffix (dropOldest_suffix _)⟩
    obtain ⟨positive, lower, -, -⟩ := bridges
    rw [shape, covers_append] at lower
    rcases lower with lower | upper
    · refine not_covers_of_lt (fun r member => ?_) lower
      have order := above r member
      omega
    · refine not_covers_of_gt (fun r member => ?_) upper
      have order := below r member
      omega

/-- The stored ranges are sorted, disjoint and maximal in every state exactly if no number closes the gap
between two of them. -/
theorem canonical_throughout_iff (numbers : List Nat) :
    (∀ before after, numbers = before ++ after → Canonical (received before).ranges) ↔
      Run.Meets (fun s pn => ¬ Bridges s.ranges pn) record new numbers := by
  have kept : ∀ (s : AckReceiveState) (pn : Nat), True → Canonical s.ranges →
      (Canonical (s.record pn).ranges ↔ ¬ Bridges s.ranges pn) :=
    fun s pn _ canonical => s.canonical_record_iff pn canonical
  have empty : Canonical new.ranges := canonical_nil
  exact Run.throughout_iff (fun _ _ _ => trivial) kept trivial empty

/-- The number between two others arrives last: two ranges are left that touch. -/
theorem gap_filled_last : (received [0, 2, 1]).ranges = [(0, 1), (2, 2)] ∧
    ¬ Canonical (received [0, 2, 1]).ranges := by
  have stored : (received [0, 2, 1]).ranges = [(0, 1), (2, 2)] := by decide
  refine ⟨stored, ?_⟩
  intro canonical
  have gap := (List.pairwise_cons.mp (stored ▸ canonical).apart).1 (2, 2) List.mem_cons_self
  exact absurd gap (by decide)

end AckReceiveState
end UniversalMesh.Session
