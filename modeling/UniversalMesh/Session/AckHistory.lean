import UniversalMesh.Session.Ack

/-! The sending side of `umc-session/src/ack.rs` over whole histories of calls. An ACK is measured against the
packets still outstanding, which shrink as packets are acknowledged. -/
namespace UniversalMesh.Session
open Wire

inductive SendCall where
  | recordSent (p : SentPacket) | applyAck (largest : Nat) (ranges : List (Nat × Nat))
  deriving DecidableEq

/-- The packet numbers that the calls recorded as sent, in order. -/
def sentNumbers (calls : List SendCall) : List Nat :=
  calls.flatMap fun
    | .recordSent p => [p.packetNumber]
    | .applyAck _ _ => []

/-- `first_len` of `apply_ack`: the first pair carries the length of the first range. -/
def firstLength (ranges : List (Nat × Nat)) : Nat := (ranges.head?.map Prod.fst).getD 0

/-- What `apply_ack` refuses as an empty range, before it looks at the packets sent. -/
def HasEmptyRange (ranges : List (Nat × Nat)) : Prop :=
  firstLength ranges = 0 ∨ ((ranges.drop 1).any fun r => r.2 = 0) = true
  deriving Decidable

theorem not_hasEmptyRange_iff {ack : AckFrame} : ¬HasEmptyRange (flatRanges ack) ↔ ack.NonEmptyRanges := by
  simp only [HasEmptyRange, firstLength, flatRanges, not_or, List.head?_cons, Option.map_some, Option.getD_some,
    List.drop_one, List.tail_cons, List.any_map, List.any_eq_true, Function.comp_apply, decide_eq_true_eq,
    not_exists, not_and, AckFrame.NonEmptyRanges, Nat.one_le_iff_ne_zero, ne_eq]

namespace AckSendState

variable (s : AckSendState)

/-- One call; a refused ACK returns before the queue is touched. -/
def call : SendCall → AckSendState
  | .recordSent p => (s.recordSent p).2
  | .applyAck largest ranges =>
    match s.applyAck largest ranges with
    | .ok (_, s') => s'
    | .error _ => s

variable (calls : List SendCall)

def after : AckSendState := calls.foldl call new

/-- The numbers of the packets still outstanding, oldest first. -/
def outstanding : List Nat := s.sent.map SentPacket.packetNumber

/-- `max_sent` of `apply_ack`: the number of the newest packet outstanding. -/
def maxSent : Nat := (s.sent.getLast?.map SentPacket.packetNumber).getD 0

variable (largest : Nat)

/-- What an accepted ACK takes as acknowledged. -/
def acknowledged (ranges : List (Nat × Nat)) : Nat → Bool :=
  inRange largest (firstLength ranges) (ranges.drop 1)

/-- An empty range is refused first, then a number above the newest packet outstanding; otherwise the queue is
split. -/
theorem applyAck_cases (ranges : List (Nat × Nat)) :
    (HasEmptyRange ranges ∧ s.applyAck largest ranges = .error .emptyRange) ∨
    (¬ HasEmptyRange ranges ∧ s.maxSent < largest ∧
      s.applyAck largest ranges = .error .acknowledgesUnsent) ∨
    (¬ HasEmptyRange ranges ∧ largest ≤ s.maxSent ∧ ∃ s',
      s.applyAck largest ranges = .ok (s.outstanding.filter (acknowledged largest ranges), s') ∧
        s'.sent = s.sent.filter fun p => !acknowledged largest ranges p.packetNumber) := by
  by_cases first : firstLength ranges = 0
  · refine .inl ⟨.inl first, ?_⟩
    rw [firstLength] at first
    simp only [applyAck, first, if_true]
  by_cases further : ((ranges.drop 1).any fun r => r.2 = 0) = true
  · refine .inl ⟨.inr further, ?_⟩
    rw [firstLength] at first
    simp only [applyAck, first, further, if_true, if_false]
  have wellFormed : ¬ HasEmptyRange ranges := not_or.mpr ⟨first, further⟩
  rw [firstLength] at first
  by_cases unsent : s.maxSent < largest
  · refine .inr (.inl ⟨wellFormed, unsent, ?_⟩)
    rw [maxSent] at unsent
    simp only [applyAck, first, further, unsent, if_true, if_false, Bool.false_eq_true]
  · refine .inr (.inr ⟨wellFormed, Nat.not_lt.mp unsent, ?_⟩)
    rw [maxSent] at unsent
    simp only [applyAck, first, further, unsent, if_false, Bool.false_eq_true, outstanding, List.filter_map]
    exact ⟨_, rfl, rfl⟩

theorem outstanding_recordSent (p : SentPacket) :
    (s.recordSent p).2.outstanding.Sublist (s.outstanding ++ [p.packetNumber]) := by
  unfold recordSent
  split
  · split
    · next empty => simp [outstanding, empty]
    · next oldest rest shape => simp [outstanding, shape]
  · simp [outstanding]

theorem outstanding_applyAck (ranges : List (Nat × Nat)) :
    (s.call (.applyAck largest ranges)).outstanding.Sublist s.outstanding := by
  rw [call]
  rcases applyAck_cases s largest ranges with ⟨_, refused⟩ | ⟨_, _, refused⟩ | ⟨_, _, s', applied, kept⟩
  · rw [refused]
  · rw [refused]
  · rw [applied]
    rw [outstanding, kept]
    exact List.filter_sublist.map _

theorem outstanding_foldl {s : AckSendState} (known : s.outstanding.Sublist earlier) :
    (calls.foldl call s).outstanding.Sublist (earlier ++ sentNumbers calls) := by
  induction calls generalizing s earlier with
  | nil => simpa [sentNumbers] using known
  | cons c calls ih =>
    cases c with
    | recordSent p =>
      have next := ih ((outstanding_recordSent s p).trans (known.append_right _))
      simpa [sentNumbers, call] using next
    | applyAck largest ranges => exact ih ((outstanding_applyAck s largest ranges).trans known)

/-- The packets outstanding are among those sent, in the order they were sent. -/
theorem outstanding_after : (after calls).outstanding.Sublist (sentNumbers calls) :=
  outstanding_foldl calls (s := new) (List.nil_sublist [])

/-- The newest packet outstanding was sent; with none outstanding, `max_sent` is 0. -/
theorem maxSent_after : (after calls).maxSent ∈ sentNumbers calls ∨ (after calls).maxSent = 0 := by
  cases last : (after calls).sent.getLast? with
  | none => exact .inr (by simp [maxSent, last])
  | some p =>
    refine .inl ((outstanding_after calls).subset ?_)
    simp only [maxSent, last, Option.map_some, Option.getD_some]
    exact List.mem_map_of_mem (List.mem_of_getLast? last)

/-- Where the comparison with the newest packet outstanding answers as one with every packet sent would: a
number at or above `largest` that was sent has one outstanding behind it, and it is not the first ACK of a
sender that sent nothing. A frame with an empty range is refused as such. -/
def AnswersAsSent (ranges : List (Nat × Nat)) : Prop :=
  if HasEmptyRange ranges then ∃ n ∈ sentNumbers calls, largest ≤ n
  else (sentNumbers calls = [] → largest ≠ 0) ∧
    ∀ n ∈ sentNumbers calls, largest ≤ n → largest ≤ (after calls).maxSent

/-- An ACK is refused as one of a packet not sent just when it is above every number sent, exactly where the
newest packet outstanding stands for them. -/
theorem unsent_refused_iff (calls : List SendCall) (largest : Nat) (ranges : List (Nat × Nat)) :
    ((after calls).applyAck largest ranges = .error .acknowledgesUnsent ↔
        ∀ n ∈ sentNumbers calls, n < largest) ↔
      AnswersAsSent calls largest ranges := by
  have newest := maxSent_after calls
  unfold AnswersAsSent
  rcases applyAck_cases (after calls) largest ranges with
    ⟨empty, refused⟩ | ⟨filled, unsent, refused⟩ | ⟨filled, sent, s', applied, -⟩
  · rw [refused, if_pos empty]
    simp
  · rw [refused, if_neg filled]
    simp only [true_iff]
    constructor
    · intro above
      exact ⟨fun _ => by omega, fun n member reach => absurd (above n member) (by omega)⟩
    · rintro ⟨-, reached⟩ n member
      by_contra reach
      exact absurd (reached n member (by omega)) (by omega)
  · rw [applied, if_neg filled]
    simp only [reduceCtorEq, false_iff, not_forall, not_lt]
    constructor
    · rintro ⟨n, member, reach⟩
      refine ⟨fun none => ?_, fun _ _ _ => sent⟩
      simp [none] at member
    · rintro ⟨first, -⟩
      rcases newest with member | zero
      · exact ⟨_, member, sent⟩
      · obtain ⟨n, member⟩ := List.exists_mem_of_ne_nil (sentNumbers calls) fun none => by
          have := first none
          omega
        exact ⟨n, member, by omega⟩

/-- Three packets are sent and acknowledged, and acknowledged again. -/
def acknowledgedOnce : List SendCall :=
  [.recordSent (.new 0 .sessionData 0 100 true 0), .recordSent (.new 1 .sessionData 0 100 true 0),
    .recordSent (.new 2 .sessionData 0 100 true 0), .applyAck 2 [(3, 0)]]

/-- A repeated ACK of packets that were sent is refused as one of packets not sent. -/
theorem repeated_ack_refused :
    (after (acknowledgedOnce.take 3)).applyAck 2 [(3, 0)] = .ok ([0, 1, 2], new) ∧
    (after acknowledgedOnce).applyAck 2 [(3, 0)] = .error .acknowledgesUnsent ∧
      sentNumbers acknowledgedOnce = [0, 1, 2] := by
  decide +kernel

end AckSendState

/-! What an ACK frame denotes in the integers, against what `apply_ack` takes from it. The walk over the ranges
saturates and nothing refuses a frame that runs below zero, so a gap that is too large becomes an
acknowledgement of packet 0. -/

/-- The closed ranges below the first one, from the highest number not yet passed. -/
def exactRangesBelow (cursor : Int) : List AckRange → List (Int × Int)
  | [] => []
  | r :: rest =>
    (cursor - r.gap - (r.length - 1), cursor - r.gap) :: exactRangesBelow (cursor - r.gap - r.length) rest

/-- The closed ranges that the fields of a frame denote. -/
def exactRanges (ack : AckFrame) : List (Int × Int) :=
  (ack.largestAcknowledged - (ack.firstAckRange - 1), (ack.largestAcknowledged : Int)) ::
    exactRangesBelow (ack.largestAcknowledged - ack.firstAckRange) ack.additionalRanges

def HasNumber (ranges : List (Int × Int)) (pn : Nat) : Prop := ∃ r ∈ ranges, r.1 ≤ (pn : Int) ∧ (pn : Int) ≤ r.2
  deriving Decidable

def StartsBelowZero (ranges : List (Int × Int)) : Prop := ∃ r ∈ ranges, r.1 < 0
  deriving Decidable

def Denotes (ack : AckFrame) (pn : Nat) : Prop := HasNumber (exactRanges ack) pn
  deriving Decidable

def ExtendsBelowZero (ack : AckFrame) : Prop := StartsBelowZero (exactRanges ack)
  deriving Decidable

theorem HasNumber.cons (r : Int × Int) (has : HasNumber ranges pn) : HasNumber (r :: ranges) pn :=
  has.imp fun _ here => ⟨List.mem_cons_of_mem _ here.1, here.2⟩

theorem StartsBelowZero.cons (r : Int × Int) (below : StartsBelowZero ranges) : StartsBelowZero (r :: ranges) :=
  below.imp fun _ here => ⟨List.mem_cons_of_mem _ here.1, here.2⟩

theorem inRangesBelow_zero : inRangesBelow pn 0 ranges = false := by
  cases ranges with
  | nil => rfl
  | cons r rest => simp only [inRangesBelow, if_true]

/-- The walk is exact up to saturation, and saturation adds packet 0 only. -/
theorem inRangesBelow_exact (nonempty : ∀ r ∈ ranges, 1 ≤ r.length)
    (taken : inRangesBelow pn cursor (ranges.map fun r => (r.gap, r.length)) = true) :
    HasNumber (exactRangesBelow cursor ranges) pn ∨ pn = 0 ∧ StartsBelowZero (exactRangesBelow cursor ranges) := by
  induction ranges generalizing cursor with
  | nil => cases taken
  | cons r rest ih =>
    have length := nonempty r List.mem_cons_self
    simp only [List.map_cons, inRangesBelow] at taken
    split at taken
    · cases taken
    by_cases past : cursor < r.gap
    · -- The gap leads below zero: the saturated range is packet 0 alone, and the walk ends behind it.
      have zero : cursor - r.gap = 0 := by omega
      have below : StartsBelowZero (exactRangesBelow cursor (r :: rest)) :=
        ⟨_, List.mem_cons_self, by dsimp only; omega⟩
      rw [zero, Nat.zero_sub, Nat.zero_sub, inRangesBelow_zero] at taken
      split at taken
      · next hit => exact .inr ⟨by omega, below⟩
      · cases taken
    · split at taken
      · exact .inl ⟨_, List.mem_cons_self, by dsimp only; omega⟩
      · by_cases ends : cursor - r.gap < r.length
        · rw [Nat.sub_eq_zero_of_le (by omega), inRangesBelow_zero] at taken
          cases taken
        · have later := ih (fun other member => nonempty other (List.mem_cons_of_mem _ member)) taken
          have same : ((cursor - r.gap - r.length : Nat) : Int) = cursor - r.gap - r.length := by omega
          rw [same] at later
          exact later.imp (HasNumber.cons _) (And.imp_right (StartsBelowZero.cons _))

/-- What a frame with no empty range acknowledges, it denotes, apart from packet 0. -/
theorem Acknowledges.denotes {ack : AckFrame} (nonempty : ack.NonEmptyRanges)
    (acknowledges : Acknowledges ack pn) : Denotes ack pn ∨ pn = 0 ∧ ExtendsBelowZero ack := by
  obtain ⟨first, further⟩ := nonempty
  unfold Acknowledges inRange at acknowledges
  split at acknowledges
  · exact .inl ⟨_, List.mem_cons_self, by dsimp only; omega⟩
  · by_cases ends : ack.largestAcknowledged < ack.firstAckRange
    · rw [Nat.sub_eq_zero_of_le ends.le, inRangesBelow_zero] at acknowledges
      cases acknowledges
    · have below := inRangesBelow_exact further acknowledges
      have same : ((ack.largestAcknowledged - ack.firstAckRange : Nat) : Int) =
          ack.largestAcknowledged - ack.firstAckRange := by omega
      rw [same] at below
      exact below.imp (HasNumber.cons _) (And.imp_right (StartsBelowZero.cons _))

namespace AckSendState

/-- A packet leaves the queue only if its number is acknowledged, by a frame with no empty range. -/
theorem applyAck_removes {ack : AckFrame} {s s' : AckSendState}
    (applied : s.applyAck ack.largestAcknowledged (flatRanges ack) = .ok (acked, s')) (sent : p ∈ s.sent)
    (gone : p ∉ s'.sent) : ack.NonEmptyRanges ∧ Acknowledges ack p.packetNumber := by
  rcases applyAck_cases s ack.largestAcknowledged (flatRanges ack) with
    ⟨-, refused⟩ | ⟨-, -, refused⟩ | ⟨nonempty, -, s'', accepted, kept⟩
  · rw [refused] at applied
    cases applied
  · rw [refused] at applied
    cases applied
  · rw [accepted] at applied
    cases applied
    rw [kept, List.mem_filter, not_and, Bool.not_eq_true', Bool.not_eq_false] at gone
    exact ⟨not_hasEmptyRange_iff.mp nonempty, gone sent⟩

/-- An ACK is refused for an empty range or for a number that was not sent, and never for running below zero. -/
theorem applyAck_error_iff {ack : AckFrame} {s : AckSendState} :
    (∃ error, s.applyAck ack.largestAcknowledged (flatRanges ack) = .error error) ↔
      ¬ack.NonEmptyRanges ∨ s.maxSent < ack.largestAcknowledged := by
  rw [← not_hasEmptyRange_iff, not_not]
  rcases applyAck_cases s ack.largestAcknowledged (flatRanges ack) with
    ⟨empty, refused⟩ | ⟨-, unsent, refused⟩ | ⟨nonempty, sent, s', accepted, -⟩
  · exact iff_of_true ⟨_, refused⟩ (.inl empty)
  · exact iff_of_true ⟨_, refused⟩ (.inr unsent)
  · rw [accepted]
    exact iff_of_false nofun (not_or.mpr ⟨nonempty, sent.not_gt⟩)

/-- An ACK is taken exactly, so that a packet leaves the queue only if the frame denotes its number and a frame
that runs below zero is refused, just if its ranges stay above zero, one of them is empty, or it acknowledges a
number above the newest packet outstanding. -/
theorem ack_exact_iff (ack : AckFrame) (s : AckSendState) :
    (∀ acked s', s.applyAck ack.largestAcknowledged (flatRanges ack) = .ok (acked, s') →
        ∀ p ∈ s.sent, p ∉ s'.sent → Denotes ack p.packetNumber) ∧
      (ExtendsBelowZero ack → ∃ error, s.applyAck ack.largestAcknowledged (flatRanges ack) = .error error) ↔
    ¬ExtendsBelowZero ack ∨ ¬ack.NonEmptyRanges ∨ s.maxSent < ack.largestAcknowledged := by
  rw [← applyAck_error_iff]
  refine ⟨fun ⟨_, refused⟩ => not_or_of_imp refused, fun exact_ => ⟨?_, fun below => ?_⟩⟩
  · intro acked s' applied p sent gone
    have above : ¬ExtendsBelowZero ack := exact_.resolve_right fun ⟨error, refused⟩ => by
      rw [refused] at applied
      cases applied
    obtain ⟨nonempty, acknowledges⟩ := applyAck_removes applied sent gone
    exact (acknowledges.denotes nonempty).resolve_right fun ⟨_, below⟩ => above below
  · exact exact_.resolve_left fun above => above below

/-- Packet 5, and then a packet eleven numbers further down. -/
def runsBelowZero : AckFrame :=
  { largestAcknowledged := 5, ackDelay := 0, firstAckRange := 1, additionalRanges := [{ gap := 10, length := 1 }] }

/-- The ACK takes packet 0 from the queue, which the frame does not denote. -/
theorem saturated_ack_removes_zero :
    AckFrame.decode [5, 0, 2, 1, 10, 1] = .ok (runsBelowZero, 6) ∧ ExtendsBelowZero runsBelowZero ∧
      ¬Denotes runsBelowZero 0 ∧
      ∃ s', (after [.recordSent (.new 0 .sessionData 0 100 true 0), .recordSent (.new 5 .sessionData 0 100 true 0)]).applyAck
          runsBelowZero.largestAcknowledged (flatRanges runsBelowZero) = .ok ([0, 5], s') ∧ s'.sent = [] := by
  refine ⟨by decide +kernel, by decide, by decide, ⟨[], Nat.zero_le _⟩, by decide +kernel, rfl⟩

end AckSendState
end UniversalMesh.Session
