import Mathlib.Data.List.TakeWhile
import UniversalMesh.Lib.BitRing
import UniversalMesh.Lib.Run
import UniversalMesh.Wire.Packet
import UniversalMesh.Lib.Ranges

/-! `umc-session/src/spaces.rs`: packet number spaces and the replay window.
The window keeps one bit for each residue of the packet numbers modulo its
size; marking a number sets its bit and nothing ever clears one. -/
namespace UniversalMesh.Session
open MachineWord Wire

def defaultReplayWindow : Nat := 4096

theorem defaultReplayWindow_pos : 0 < defaultReplayWindow := by decide

/-- `ReplayWindow`: `size` and `bits` are the ring's. -/
structure ReplayWindow where
  ring : BitRing
  largest : Nat

namespace ReplayWindow

def new (size : Nat) (positive : 0 < size) : ReplayWindow :=
  { ring := BitRing.empty size positive, largest := 0 }

/-- `check_and_mark`: whether the packet may be processed, and the window after. -/
def checkAndMark (window : ReplayWindow) (pn : Nat) : Bool × ReplayWindow :=
  if saturatingAdd pn window.ring.size ≤ window.largest then (false, window)
  else if pn ≤ window.largest ∧ window.ring.get pn then (false, window)
  else
    (true, { ring := window.ring.set pn,
             largest := if pn > window.largest then pn else window.largest })

end ReplayWindow

inductive PacketSpace where
  | initial | handshake | sessionData | pathControl | relayData
  deriving DecidableEq, Repr

namespace PacketSpace

/-- The position in the enumeration, which orders the keys of the per-space maps. -/
def index : PacketSpace → Nat
  | initial => 0
  | handshake => 1
  | sessionData => 2
  | pathControl => 3
  | relayData => 4

theorem index_injective : Function.Injective index := by
  intro a b same
  cases a <;> cases b <;> first | rfl | cases same

instance : LinearOrder PacketSpace := LinearOrder.lift' index index_injective

end PacketSpace

inductive SpaceError where
  | packetNumberExhausted | pn (e : PacketNumber.PnError) | duplicateOrStale
  deriving DecidableEq, Repr

structure PacketSpaceState where
  space : PacketSpace
  (nextPacketNumber largestReceived : Nat)
  replay : ReplayWindow

namespace PacketSpaceState

def new (space : PacketSpace) : PacketSpaceState :=
  { space, nextPacketNumber := 0, largestReceived := 0,
    replay := .new defaultReplayWindow defaultReplayWindow_pos }

variable (s : PacketSpaceState)

/-- `allocate_packet_number`: the next outgoing packet number of the space. -/
def allocatePacketNumber : Except SpaceError (Nat × PacketSpaceState) :=
  if s.nextPacketNumber > PacketNumber.maxPacketNumber then .error .packetNumberExhausted
  else .ok (s.nextPacketNumber, { s with nextPacketNumber := s.nextPacketNumber + 1 })

/-- `admit_reconstructed`: the replay check and the largest number received. -/
def admitReconstructed (pn : Nat) : Except SpaceError (Nat × PacketSpaceState) :=
  match s.replay.checkAndMark pn with
  | (false, _) => .error .duplicateOrStale
  | (true, replay) =>
    .ok (pn, { s with replay, largestReceived := max pn s.largestReceived })

end PacketSpaceState

/-! What a replay window guarantees over a whole history of offered packet numbers. The log keeps the numbers
accepted; the window answers from one bit for each residue, and the invariant says which accepted numbers set
it. Completeness fails: a residue stays marked when the window moves past the number that set it. -/

/-- A window and the numbers it accepted, the latest first. -/
structure ReplayLog where
  window : ReplayWindow
  accepted : List Nat

namespace ReplayLog

def start : ReplayLog :=
  { window := .new defaultReplayWindow defaultReplayWindow_pos, accepted := [] }

def offer (log : ReplayLog) (pn : Nat) : ReplayLog :=
  let (admitted, window) := log.window.checkAndMark pn
  { window, accepted := if admitted then pn :: log.accepted else log.accepted }

variable (offered : List Nat)

def history : ReplayLog := offered.foldl offer start

def admits (log : ReplayLog) (pn : Nat) : Bool := (log.window.checkAndMark pn).1

/-- The number is not below the retained window: every accepted number is less
than a window above it. -/
def InWindow (log : ReplayLog) (pn : Nat) : Prop :=
  ∀ q ∈ log.accepted, q < pn + defaultReplayWindow

/-- The window's bits and its largest number are those of the accepted numbers. -/
structure Faithful (log : ReplayLog) : Prop where
  size : log.window.ring.size = defaultReplayWindow
  marks : ∀ index, log.window.ring.get index = true ↔
    ∃ q ∈ log.accepted, q % defaultReplayWindow = index % defaultReplayWindow
  below : ∀ q ∈ log.accepted, q ≤ log.window.largest
  attained : log.accepted = [] ∧ log.window.largest = 0 ∨ log.window.largest ∈ log.accepted

theorem admits_iff (log : ReplayLog) (pn : Nat) : log.admits pn = true ↔
    log.window.largest < saturatingAdd pn log.window.ring.size ∧
      (pn ≤ log.window.largest → log.window.ring.get pn = false) := by
  unfold admits ReplayWindow.checkAndMark
  split
  · simp; omega
  · split
    · simp_all
    · simp_all

variable {log : ReplayLog}

theorem offer_admitted (admitted : log.admits pn = true) :
    log.offer pn = { window := { ring := log.window.ring.set pn,
                                 largest := max pn log.window.largest },
                     accepted := pn :: log.accepted } := by
  obtain ⟨fresh, unmarked⟩ := (admits_iff log pn).mp admitted
  have larger : (if pn > log.window.largest then pn else log.window.largest) =
      max pn log.window.largest := by
    split <;> omega
  have unseen : ¬ (pn ≤ log.window.largest ∧ log.window.ring.get pn = true) :=
    fun seen => by simp [unmarked seen.1] at seen
  simp only [offer, ReplayWindow.checkAndMark, Nat.not_le.mpr fresh, unseen, if_false, if_true, larger]

theorem offer_refused (refused : log.admits pn = false) : log.offer pn = log := by
  unfold admits ReplayWindow.checkAndMark at refused
  unfold offer ReplayWindow.checkAndMark
  split at refused
  · simp only [*, if_true, Bool.false_eq_true, if_false]
  · split at refused
    · simp only [*, and_self, if_true, Bool.false_eq_true, if_false]
    · cases refused

theorem start_faithful : start.Faithful where
  size := rfl
  marks index := by simp [start, ReplayWindow.new, BitRing.get_empty]
  below _ member := nomatch member
  attained := .inl ⟨rfl, rfl⟩

theorem offer_faithful (log : ReplayLog) (pn : Nat) (faithful : log.Faithful) : (log.offer pn).Faithful := by
  cases verdict : log.admits pn with
  | false => rwa [offer_refused verdict]
  | true =>
    rw [offer_admitted verdict]
    refine ⟨faithful.size, fun index => ?_, fun q member => ?_, .inr ?_⟩
    · simp only [BitRing.get_set, faithful.size, Bool.or_eq_true, faithful.marks, beq_iff_eq,
        List.exists_mem_cons_iff]
      exact or_comm
    · rcases List.mem_cons.mp member with rfl | member
      · exact Nat.le_max_left ..
      · exact (faithful.below q member).trans (Nat.le_max_right ..)
    · rcases Nat.le_total log.window.largest pn with larger | smaller
      · simp [Nat.max_eq_left larger]
      · obtain ⟨-, zero⟩ | attained := faithful.attained
        · have : pn = 0 := by omega
          simp [zero, this]
        · simp [Nat.max_eq_right smaller, attained]

theorem history_faithful : (history offered).Faithful :=
  Run.invariant offer_faithful start_faithful

theorem admits_fresh (faithful : log.Faithful) (admitted : log.admits pn = true) :
    pn ∉ log.accepted ∧ log.InWindow pn := by
  obtain ⟨above, unmarked⟩ := (admits_iff log pn).mp admitted
  refine ⟨fun member => ?_, fun q member => ?_⟩
  · have marked := (faithful.marks pn).mpr ⟨pn, member, rfl⟩
    rw [unmarked (faithful.below pn member)] at marked
    cases marked
  · have bound := faithful.below q member
    rw [faithful.size, saturatingAdd] at above
    omega

theorem offer_nodup (log : ReplayLog) (pn : Nat) (held : log.Faithful ∧ log.accepted.Nodup) :
    (log.offer pn).Faithful ∧ (log.offer pn).accepted.Nodup := by
  obtain ⟨faithful, distinct⟩ := held
  refine ⟨offer_faithful log pn faithful, ?_⟩
  cases verdict : log.admits pn with
  | false => rwa [offer_refused verdict]
  | true =>
    rw [offer_admitted verdict]
    exact List.nodup_cons.mpr ⟨(admits_fresh faithful verdict).1, distinct⟩

/-- Over any history no packet number is accepted twice, and none a window or more below the largest accepted
one. -/
theorem replay_window_is_safe (offered : List Nat) :
    (history offered).accepted.Nodup ∧
      ∀ pn, (history offered).admits pn = true →
        pn ∉ (history offered).accepted ∧ (history offered).InWindow pn := by
  have held : (history offered).Faithful ∧ (history offered).accepted.Nodup :=
    Run.invariant offer_nodup ⟨start_faithful, List.nodup_nil⟩
  exact ⟨held.2, fun pn admitted => admits_fresh held.1 admitted⟩

theorem accepted_subset_offered (log : ReplayLog) :
    ∀ q ∈ (offered.foldl offer log).accepted, q ∈ offered ∨ q ∈ log.accepted := by
  induction offered generalizing log with
  | nil => exact fun q member => .inr member
  | cons pn rest ih =>
    intro q member
    obtain later | earlier := ih (log.offer pn) q member
    · exact .inl (List.mem_cons_of_mem _ later)
    · cases verdict : log.admits pn with
      | false => exact .inr (by rwa [offer_refused verdict] at earlier)
      | true =>
        rw [offer_admitted verdict] at earlier
        obtain rfl | earlier := List.mem_cons.mp earlier
        · exact .inl List.mem_cons_self
        · exact .inr earlier

theorem Faithful.largest_lt (faithful : log.Faithful) (positive : 0 < bound)
    (below : ∀ q ∈ log.accepted, q < bound) : log.window.largest < bound := by
  obtain ⟨-, zero⟩ | attained := faithful.attained
  · omega
  · exact below _ attained

theorem Faithful.admits_iff_unmarked (faithful : log.Faithful) (words : ∀ q ∈ log.accepted, q ≤ u64Max)
    (word : pn ≤ u64Max) (inWindow : log.InWindow pn) :
    log.admits pn = true ↔
      (∀ q ∈ log.accepted, q < pn) ∨
        ∀ q ∈ log.accepted, q % defaultReplayWindow ≠ pn % defaultReplayWindow ∧ q ≠ u64Max := by
  have unmarked : log.window.ring.get pn = false ↔
      ∀ q ∈ log.accepted, q % defaultReplayWindow ≠ pn % defaultReplayWindow := by
    rw [← Bool.not_eq_true, faithful.marks]
    simp
  have span := defaultReplayWindow_pos
  have top : 0 < u64Max := by decide
  rw [admits_iff, faithful.size, saturatingAdd, Nat.lt_min, unmarked]
  constructor
  · rintro ⟨⟨-, unsaturated⟩, gap⟩
    by_cases above : ∀ q ∈ log.accepted, q < pn
    · exact .inl above
    · right
      push Not at above
      obtain ⟨later, member, passed⟩ := above
      have residues := gap (passed.trans (faithful.below later member))
      intro q accepted
      have := faithful.below q accepted
      exact ⟨residues q accepted, by omega⟩
  · rintro (above | clear)
    · have reached : log.window.largest < pn ∨ log.accepted = [] := by
        obtain ⟨empty, -⟩ | attained := faithful.attained
        · exact .inr empty
        · exact .inl (above _ attained)
      obtain larger | empty := reached
      · exact ⟨⟨by omega, by omega⟩, fun smaller => by omega⟩
      · exact ⟨⟨faithful.largest_lt (by omega) inWindow, faithful.largest_lt top (by simp [empty])⟩,
          fun _ => by simp [empty]⟩
    · refine ⟨⟨faithful.largest_lt (by omega) inWindow, faithful.largest_lt top fun q member => ?_⟩,
        fun _ q member => (clear q member).1⟩
      have := words q member
      have := (clear q member).2
      omega

/-- A window admits a number in the window just when it is above every accepted one, or no accepted number
shares its residue and none is `u64::MAX`, where the lower bound saturates. -/
theorem in_window_number_is_admitted_iff (offered : List Nat) (pn : Nat)
    (words : ∀ q ∈ pn :: offered, q ≤ u64Max) (inWindow : (history offered).InWindow pn) :
    (history offered).admits pn = true ↔
      (∀ q ∈ (history offered).accepted, q < pn) ∨
        ∀ q ∈ (history offered).accepted,
          q % defaultReplayWindow ≠ pn % defaultReplayWindow ∧ q ≠ u64Max := by
  have accepted : ∀ q ∈ (history offered).accepted, q ≤ u64Max := fun q member =>
    words q <| List.mem_cons_of_mem _ <|
      (accepted_subset_offered offered start q member).resolve_right (by simp [start])
  exact (history_faithful offered).admits_iff_unmarked accepted (words pn List.mem_cons_self) inWindow

/-- After `0, 5` the gap at `3` is in the window and unmarked. -/
theorem gap_of_three_is_admitted : (history [0, 5]).admits 3 = true := by
  refine (in_window_number_is_admitted_iff [0, 5] 3 (by decide) ?_).mpr (.inr ?_)
  · rw [InWindow, accepted]
    decide
  · decide

/-- After `0, 4097` the number `4096` was never offered, but it shares its bit with `0`. -/
theorem stale_bit_refuses_fresh_number :
    4096 ∉ [0, 4097] ∧ (history [0, 4097]).InWindow 4096 ∧
      (history [0, 4097]).admits 4096 = false := by
  refine ⟨by decide, ?_, by decide +kernel⟩
  rw [InWindow, accepted]
  decide

end ReplayLog

/-! `umc-session/src/ack.rs` and `sent_packet.rs`: the packet numbers received in a space, from which ACK frames
are built, and the packets sent and not yet acknowledged. The ranges received ascend, and the largest number
ends the last one; both are part of the type. -/

open Ranges

/-- A point of the monotonic clock, in milliseconds; `duration_since` is the
difference, not below zero. -/
abbrev Instant := Nat

def maxStoredRanges : Nat := 256
def maxOutstandingPackets : Nat := 16384

/-! The insertion of `AckReceiveState::record`, step by step. -/

/-- The range at `i - 1` takes in the one at `i` if it reaches it. -/
def mergeLeft (ranges : List Range) (i : Nat) : List Range :=
  match i with
  | 0 => ranges
  | j + 1 =>
    match ranges[j]?, ranges[j + 1]? with
    | some left, some here =>
      if left.2 + 1 ≥ here.1 then (ranges.eraseIdx (j + 1)).set j (left.1, max here.2 left.2)
      else ranges
    | _, _ => ranges

/-- The range at `i` takes in the one at `i + 1` if it reaches it; after a merge to the left, the one behind the
merged range. -/
def mergeRight (ranges : List Range) (i : Nat) : List Range :=
  match ranges[i]?, ranges[i + 1]? with
  | some here, some right =>
    if here.2 + 1 ≥ right.1 then (ranges.eraseIdx i).set i (here.1, right.2) else ranges
  | _, _ => ranges

/-- The position the number belongs to: the first range that does not end below it. -/
def recordPosition (ranges : List Range) (packetNumber : Nat) : Nat :=
  (ranges.takeWhile fun r => r.2 < packetNumber).length

/-- The ranges with the number, before the oldest are dropped. -/
def recordRange (ranges : List Range) (packetNumber : Nat) : List Range :=
  let i := recordPosition ranges packetNumber
  if ranges[i]?.any fun r => r.1 ≤ packetNumber && packetNumber ≤ r.2 then ranges
  else mergeRight (mergeLeft (ranges.insertIdx i (packetNumber, packetNumber)) i) i

/-- `while ranges.len() > MAX_STORED_RANGES { ranges.pop_front() }`. -/
def dropOldest : List Range → List Range
  | [] => []
  | r :: ranges => if (r :: ranges).length > maxStoredRanges then dropOldest ranges else r :: ranges

variable {i : Nat} {ranges : List Range}

theorem split_pair (first : ranges[i]? = some a) (second : ranges[i + 1]? = some b) :
    ∃ before after, ranges = before ++ a :: b :: after ∧ before.length = i := by
  obtain ⟨inside, found⟩ := List.getElem?_eq_some_iff.mp second
  obtain ⟨_, here⟩ := List.getElem?_eq_some_iff.mp first
  refine ⟨ranges.take i, ranges.drop (i + 2), ?_, by simp; omega⟩
  rw [← found, ← here, List.getElem_cons_drop, List.getElem_cons_drop, List.take_append_drop]

theorem insertIdx_length : (before ++ after).insertIdx before.length r = before ++ r :: after := by
  induction before with
  | nil => rfl
  | cons head rest ih => exact congrArg (head :: ·) ih

theorem getElem?_pair (before after : List Range) (a b : Range) :
    (before ++ a :: b :: after)[before.length]? = some a ∧
      (before ++ a :: b :: after)[before.length + 1]? = some b := by
  constructor <;> simp

theorem mergeLeft_pair (order : left.2 ≤ here.2) :
    mergeLeft (before ++ left :: here :: after) (before.length + 1) =
      if left.2 + 1 ≥ here.1 then before ++ (left.1, here.2) :: after
      else before ++ left :: here :: after := by
  have merged : ((before ++ left :: here :: after).eraseIdx (before.length + 1)).set before.length
      (left.1, max here.2 left.2) = before ++ (left.1, here.2) :: after := by
    rw [Nat.max_eq_left order]
    simp [List.eraseIdx_append]
  obtain ⟨first, second⟩ := getElem?_pair before after left here
  simp only [mergeLeft, first, second, merged]

theorem mergeRight_pair (before after : List Range) (here right : Range) :
    mergeRight (before ++ here :: right :: after) before.length =
      if here.2 + 1 ≥ right.1 then before ++ (here.1, right.2) :: after
      else before ++ here :: right :: after := by
  have merged : ((before ++ here :: right :: after).eraseIdx before.length).set before.length
      (here.1, right.2) = before ++ (here.1, right.2) :: after := by
    simp [List.eraseIdx_append]
  obtain ⟨first, second⟩ := getElem?_pair before after here right
  simp only [mergeRight, first, second, merged]

theorem mergeRight_last (last : ranges.length ≤ i + 1) : mergeRight ranges i = ranges := by
  rw [mergeRight, List.getElem?_eq_none last]
  cases ranges[i]? <;> rfl

theorem mergeLeft_outside (outside : ranges.length ≤ i) : mergeLeft ranges i = ranges := by
  cases i with
  | zero => rfl
  | succ j =>
    rw [mergeLeft, List.getElem?_eq_none outside]
    cases ranges[j]? <;> rfl

section
variable (ascending : Ascending ranges)
include ascending

theorem mergeLeft_spec :
    Ascending (mergeLeft ranges i) ∧ ∀ n, Covers (mergeLeft ranges i) n ↔ Covers ranges n := by
  match i with
  | 0 => exact ⟨ascending, fun _ => Iff.rfl⟩
  | j + 1 =>
    by_cases inside : j + 1 < ranges.length
    · obtain ⟨before, after, shape, rfl⟩ := split_pair (List.getElem?_eq_getElem (by omega))
        (List.getElem?_eq_getElem inside)
      rw [shape] at ascending ⊢
      obtain ⟨-, right, -⟩ := ascending_append.mp ascending
      obtain ⟨-, rest, gap⟩ := ascending_cons.mp right
      have order := gap _ List.mem_cons_self
      have nonempty := (ascending_cons.mp rest).1
      rw [mergeLeft_pair (by omega)]
      split
      · exact ⟨ascending.merge, fun n => covers_merge ascending (by omega)⟩
      · exact ⟨ascending, fun _ => Iff.rfl⟩
    · rw [mergeLeft_outside (by omega)]
      exact ⟨ascending, fun _ => Iff.rfl⟩

theorem mergeRight_spec :
    Ascending (mergeRight ranges i) ∧ ∀ n, Covers (mergeRight ranges i) n ↔ Covers ranges n := by
  by_cases inside : i + 1 < ranges.length
  · obtain ⟨before, after, shape, rfl⟩ := split_pair (List.getElem?_eq_getElem (by omega))
      (List.getElem?_eq_getElem inside)
    rw [shape] at ascending ⊢
    rw [mergeRight_pair]
    split
    · exact ⟨ascending.merge, fun n => covers_merge ascending (by omega)⟩
    · exact ⟨ascending, fun _ => Iff.rfl⟩
  · rw [mergeRight_last (by omega)]
    exact ⟨ascending, fun _ => Iff.rfl⟩

/-- Nothing changes if a range has the number; otherwise it is put between the ranges below and above it, and
merged with its neighbours. -/
theorem recordRange_cases (pn : Nat) :
    (Covers ranges pn ∧ recordRange ranges pn = ranges) ∨
    ∃ before after, ranges = before ++ after ∧ (∀ r ∈ before, r.2 < pn) ∧ (∀ r ∈ after, pn < r.1) ∧
      recordRange ranges pn =
        mergeRight (mergeLeft (before ++ (pn, pn) :: after) before.length) before.length := by
  obtain ⟨before, after, shape, position, above, stop⟩ : ∃ before after, ranges = before ++ after ∧
      recordPosition ranges pn = before.length ∧ (∀ r ∈ before, r.2 < pn) ∧
      ∀ r, after.head? = some r → pn ≤ r.2 := by
    refine ⟨ranges.takeWhile fun r => r.2 < pn, ranges.dropWhile fun r => r.2 < pn,
      (List.takeWhile_append_dropWhile).symm, rfl, fun r member => ?_, fun r found => ?_⟩
    · simpa using List.mem_takeWhile_imp member
    · have refused := List.head?_dropWhile_not (fun r : Range => decide (r.2 < pn)) ranges
      rw [found] at refused
      simpa using refused
  have next : ranges[before.length]? = after.head? := by
    rw [shape, List.getElem?_append_right (Nat.le_refl _), Nat.sub_self, List.head?_eq_getElem?]
  unfold recordRange
  rw [position]
  dsimp only
  rw [next]
  split
  · next duplicate =>
    obtain ⟨r, found, inside⟩ := (Option.any_eq_true _ _).mp duplicate
    simp only [Bool.and_eq_true, decide_eq_true_eq] at inside
    exact .inl ⟨⟨r, shape ▸ List.mem_append_right _ (List.mem_of_head? found), inside⟩, rfl⟩
  · next fresh =>
    refine .inr ⟨before, after, shape, above, ?_, by rw [shape, insertIdx_length]⟩
    cases after with
    | nil => simp
    | cons first rest =>
      have reach := stop first rfl
      have outside : ¬ (first.1 ≤ pn ∧ pn ≤ first.2) := by simpa using fresh
      obtain ⟨-, right, -⟩ := ascending_append.mp (shape ▸ ascending)
      obtain ⟨-, tail, gap⟩ := ascending_cons.mp right
      refine List.forall_mem_cons.mpr ⟨by omega, fun r member => ?_⟩
      have order := gap r member
      omega

theorem recordRange_spec :
    Ascending (recordRange ranges pn) ∧
      ∀ n, Covers (recordRange ranges pn) n ↔ Covers ranges n ∨ n = pn := by
  rcases recordRange_cases ascending pn with ⟨covered, same⟩ | ⟨before, after, rfl, above, below, merged⟩
  · rw [same]
    refine ⟨ascending, fun n => (or_iff_left_of_imp ?_).symm⟩
    rintro rfl
    exact covered
  · rw [merged]
    obtain ⟨leftAscending, leftCovers⟩ := mergeLeft_spec (ascending.insert above below)
    obtain ⟨rightAscending, rightCovers⟩ := mergeRight_spec leftAscending
    refine ⟨rightAscending, fun n => ?_⟩
    rw [rightCovers, leftCovers]
    simp only [covers_append, covers_cons]
    have point : pn ≤ n ∧ n ≤ pn ↔ n = pn := by omega
    tauto

end

theorem dropOldest_suffix (ranges : List Range) : dropOldest ranges <:+ ranges := by
  fun_induction dropOldest ranges with
  | case1 => exact List.suffix_refl _
  | case2 r ranges _ ih => exact ih.trans (List.suffix_cons r ranges)
  | case3 => exact List.suffix_refl _

theorem dropOldest_length (ranges : List Range) : (dropOldest ranges).length ≤ maxStoredRanges := by
  fun_induction dropOldest ranges with
  | case1 => exact Nat.zero_le _
  | case2 _ _ _ ih => exact ih
  | case3 _ _ within => exact Nat.not_lt.mp within

/-- The cap is positive, so the last range is never dropped. -/
theorem dropOldest_last : (dropOldest ranges).getLast? = ranges.getLast? := by
  fun_induction dropOldest ranges with
  | case1 => rfl
  | case2 r ranges excess ih =>
    rw [ih]
    cases ranges with
    | nil => exact absurd excess (by simp [maxStoredRanges])
    | cons next rest => exact (List.getLast?_cons_cons).symm
  | case3 => rfl

structure AckReceiveState where
  ranges : List Range
  largest : Option Nat
  needsAck : Bool
  ascending : Ascending ranges
  newest : largest = ranges.getLast?.map Prod.snd
  bounded : ranges.length ≤ maxStoredRanges

namespace AckReceiveState

def new : AckReceiveState :=
  { ranges := [], largest := none, needsAck := false, ascending := ascending_nil, newest := rfl,
    bounded := Nat.zero_le _ }

def raise (largest : Option Nat) (packetNumber : Nat) : Option Nat :=
  if largest.all (packetNumber > ·) then some packetNumber else largest

variable (s : AckReceiveState)

theorem raise_newest (pn : Nat) :
    raise s.largest pn = (dropOldest (recordRange s.ranges pn)).getLast?.map Prod.snd := by
  obtain ⟨ascending, covers⟩ := recordRange_spec s.ascending
  rw [dropOldest_last, s.newest, raise]
  cases last : s.ranges.getLast? with
  | none =>
    have empty := List.getLast?_eq_none_iff.mp last
    refine (ascending.last_eq ((covers pn).mpr (.inr rfl)) fun m covered => ?_).symm
    have only : m = pn := by simpa [empty] using (covers m).mp covered
    exact only.le
  | some r =>
    have bound : ∀ m, Covers (recordRange s.ranges pn) m → m ≤ r.2 ∨ m = pn := fun m covered =>
      ((covers m).mp covered).imp_left (s.ascending.le_last last)
    simp only [Option.map_some, Option.all_some, decide_eq_true_eq, gt_iff_lt]
    split
    · refine (ascending.last_eq ((covers pn).mpr (.inr rfl)) fun m covered => ?_).symm
      have := bound m covered
      omega
    · have kept := (covers r.2).mpr (.inl (s.ascending.covers_last last))
      refine (ascending.last_eq kept fun m covered => ?_).symm
      have := bound m covered
      omega

def record (packetNumber : Nat) : AckReceiveState :=
  { ranges := dropOldest (recordRange s.ranges packetNumber)
    largest := raise s.largest packetNumber
    needsAck := true
    ascending := (recordRange_spec s.ascending).1.suffix (dropOldest_suffix _)
    newest := raise_newest s packetNumber
    bounded := dropOldest_length _ }

def takeNeedsAck : Bool × AckReceiveState :=
  (s.needsAck, { s with needsAck := false })

/-- The loop of `build_ack` over the ranges below the highest, downwards. -/
def additionalRanges (prevLow : Nat) : List Range → List AckRange
  | [] => []
  | (low, high) :: rest =>
    { gap := prevLow - (high + 1), length := high - low + 1 } :: additionalRanges low rest

def buildAck (ackDelayMs : Nat) : Option AckFrame :=
  match s.largest, s.ranges.getLast? with
  | some largest, some highest =>
    some { largestAcknowledged := largest, ackDelay := ackDelayMs
           firstAckRange := largest - highest.1 + 1
           additionalRanges := additionalRanges highest.1 (s.ranges.reverse.drop 1) }
  | _, _ => none

def dueAck : Option AckFrame :=
  let (due, s) := s.takeNeedsAck
  if due then s.buildAck 0 else none

theorem covers_record (covered : Covers (s.record pn).ranges n) : Covers s.ranges n ∨ n = pn := by
  have recorded : Covers (recordRange s.ranges pn) n := covers_of_suffix (dropOldest_suffix _) covered
  exact ((recordRange_spec s.ascending).2 n).mp recorded

end AckReceiveState

structure SentPacket where
  packetNumber : Nat
  space : PacketSpace
  sentAt : Instant
  size : Nat
  (ackEliciting inFlight : Bool)
  keyPhase : Nat
  deriving DecidableEq

def SentPacket.new (packetNumber : Nat) (space : PacketSpace) (sentAt : Instant) (size : Nat)
    (ackEliciting : Bool) (keyPhase : Nat) : SentPacket :=
  { packetNumber, space, sentAt, size, ackEliciting, inFlight := ackEliciting, keyPhase }

inductive AckError where
  | acknowledgesUnsent | emptyRange
  deriving DecidableEq, Repr

/-- The queue of sent packets, oldest first; `record_sent` keeps it within its cap. -/
structure AckSendState where
  sent : List SentPacket
  bounded : sent.length ≤ maxOutstandingPackets
  deriving DecidableEq

/-- The ranges below the first one: `cursor` is the highest number not yet passed. -/
def inRangesBelow (pn cursor : Nat) : List (Nat × Nat) → Bool
  | [] => false
  | (gap, length) :: ranges =>
    if cursor = 0 then false
    else
      let cursor := cursor - gap
      if cursor - (length - 1) ≤ pn ∧ pn ≤ cursor then true
      else inRangesBelow pn (cursor - length) ranges

def inRange (largest firstLen : Nat) (ranges : List (Nat × Nat)) (pn : Nat) : Bool :=
  if largest - (firstLen - 1) ≤ pn ∧ pn ≤ largest then true
  else inRangesBelow pn (largest - firstLen) ranges

namespace AckSendState

def new : AckSendState := { sent := [], bounded := Nat.zero_le _ }

/-- `record_sent`: the packet evicted at the cap, if it was ack-eliciting. -/
def recordSent (s : AckSendState) (p : SentPacket) : Option (Nat × Nat) × AckSendState :=
  if full : s.sent.length ≥ maxOutstandingPackets then
    match shape : s.sent with
    | [] => (none, ⟨[p], Nat.succ_le_of_lt (by decide)⟩)
    | oldest :: rest =>
      (if oldest.ackEliciting then some (oldest.packetNumber, oldest.size) else none,
        ⟨rest ++ [p], by have := s.bounded; simp [shape] at this ⊢; omega⟩)
  else (none, ⟨s.sent ++ [p], by simp; omega⟩)

/-- A packet enters the queue at its end; at the cap the oldest leaves it. -/
theorem recordSent_cases (queue : AckSendState) (p : SentPacket) :
    ((queue.recordSent p).1 = none ∧ (queue.recordSent p).2.sent = queue.sent ++ [p]) ∨
      ∃ oldest rest, queue.sent = oldest :: rest ∧
        (queue.recordSent p).1 =
          (if oldest.ackEliciting then some (oldest.packetNumber, oldest.size) else none) ∧
        (queue.recordSent p).2.sent = rest ++ [p] := by
  unfold recordSent
  split
  · split
    · next shape => exact .inl ⟨rfl, by simp [shape]⟩
    · next oldest rest shape => exact .inr ⟨oldest, rest, shape, rfl, rfl⟩
  · exact .inl ⟨rfl, rfl⟩

/-- `apply_ack`: the numbers acknowledged, and the queue without them. -/
def applyAck (s : AckSendState) (largest : Nat) (ranges : List (Nat × Nat)) :
    Except AckError (List Nat × AckSendState) :=
  let firstLen := (ranges.head?.map Prod.fst).getD 0
  if firstLen = 0 then .error .emptyRange
  else if (ranges.drop 1).any fun r => r.2 = 0 then .error .emptyRange
  else if largest > (s.sent.getLast?.map SentPacket.packetNumber).getD 0 then
    .error .acknowledgesUnsent
  else
    let acknowledged p := inRange largest firstLen (ranges.drop 1) p.packetNumber
    .ok ((s.sent.filter acknowledged).map SentPacket.packetNumber,
      ⟨s.sent.filter fun p => !acknowledged p, (List.length_filter_le ..).trans s.bounded⟩)

/-- An accepted ACK splits the queue: one part is returned, the other stays. -/
theorem applyAck_ok {s s' : AckSendState} (applied : s.applyAck largest ranges = .ok (acked, s')) :
    ∃ acknowledged : SentPacket → Bool,
      acked = (s.sent.filter acknowledged).map SentPacket.packetNumber ∧
        s'.sent = s.sent.filter fun p => !acknowledged p := by
  simp only [applyAck] at applied
  split at applied
  · cases applied
  split at applied
  · cases applied
  split at applied
  · cases applied
  · cases applied
    exact ⟨_, rfl, rfl⟩

end AckSendState

/-- The ranges of a frame as `apply_peer_ack` flattens them. -/
def flatRanges (ack : AckFrame) : List (Nat × Nat) :=
  (ack.firstAckRange, 0) :: ack.additionalRanges.map fun r => (r.gap, r.length)

/-- The receiver of the frame takes the number as acknowledged. -/
def Acknowledges (ack : AckFrame) (pn : Nat) : Prop :=
  inRange ack.largestAcknowledged ack.firstAckRange ((flatRanges ack).drop 1) pn = true
  deriving Decidable

namespace AckReceiveState

variable {pn : Nat} {ack : AckFrame} {s : AckReceiveState}

/-- The receiver of the frame finds the number below a range, in ranges that are reported highest first. -/
def ReportedBelow (pn prevLow : Nat) (ranges : List Range) : Prop :=
  inRangesBelow pn (prevLow - 1) ((additionalRanges prevLow ranges).map fun r => (r.gap, r.length)) = true

theorem reportedBelow_cons (order : r.1 ≤ r.2) (under : r.2 < prevLow) :
    ReportedBelow pn prevLow (r :: rest) ↔
      prevLow - 1 ≠ 0 ∧ (r.1 ≤ pn ∧ pn ≤ r.2 ∨ ReportedBelow pn r.1 rest) := by
  -- the gap takes the cursor to the high end, the length from there below the low end
  have top : prevLow - 1 - (prevLow - (r.2 + 1)) = r.2 := by omega
  have bottom : r.2 - (r.2 - r.1 + 1 - 1) = r.1 := by omega
  have passed : r.2 - (r.2 - r.1 + 1) = r.1 - 1 := by omega
  simp only [ReportedBelow, additionalRanges, List.map_cons, inRangesBelow, top, bottom, passed]
  grind

theorem covers_of_reportedBelow (nonempty : ∀ r ∈ ranges, r.1 ≤ r.2)
    (apart : ranges.Pairwise fun a b => b.2 < a.1) (below : ∀ r ∈ ranges, r.2 < prevLow)
    (found : ReportedBelow pn prevLow ranges) : Covers ranges pn := by
  induction ranges generalizing prevLow with
  | nil => cases found
  | cons r rest ih =>
    obtain ⟨next, tail⟩ := List.pairwise_cons.mp apart
    rw [reportedBelow_cons (nonempty _ List.mem_cons_self) (below _ List.mem_cons_self)] at found
    refine covers_cons.mpr (found.2.imp_right (ih (fun r member => ?_) tail next))
    exact nonempty r (List.mem_cons_of_mem _ member)

/-- The frame reports the highest range first and the ones below it downwards. -/
theorem buildAck_shape (built : s.buildAck delay = some ack) :
    ∃ lower highest, s.ranges = lower ++ [highest] ∧ ack.largestAcknowledged = highest.2 ∧
      ack.firstAckRange = highest.2 - highest.1 + 1 ∧ ack.ackDelay = delay ∧
      ack.additionalRanges = AckReceiveState.additionalRanges highest.1 lower.reverse := by
  unfold buildAck at built
  split at built
  swap
  · cases built
  next largest highest known last =>
  cases built
  obtain ⟨lower, shape⟩ : ∃ lower, s.ranges = lower ++ [highest] :=
    ⟨_, (List.dropLast_append_getLast? _ last).symm⟩
  have largestIs : largest = highest.2 := by
    have := s.newest
    rw [known, last] at this
    exact Option.some.inj this
  exact ⟨lower, highest, shape, largestIs, by rw [largestIs], rfl, by simp [shape]⟩

theorem covers_reverse : Covers ranges.reverse pn ↔ Covers ranges pn := by simp [Covers]

/-- The frame acknowledges the highest range and what its receiver finds below it. -/
theorem acknowledges_buildAck (built : s.buildAck delay = some ack) :
    ∃ lower highest, s.ranges = lower ++ [highest] ∧ (∀ r ∈ lower.reverse, r.1 ≤ r.2) ∧
      (lower.reverse.Pairwise fun a b => b.2 < a.1) ∧ (∀ r ∈ lower.reverse, r.2 < highest.1) ∧
      (Acknowledges ack pn ↔ highest.1 ≤ pn ∧ pn ≤ highest.2 ∨ ReportedBelow pn highest.1 lower.reverse) := by
  obtain ⟨lower, highest, shape, largestIs, first, -, additional⟩ := buildAck_shape built
  obtain ⟨before, single, gaps⟩ := ascending_append.mp (shape ▸ s.ascending)
  have order : highest.1 ≤ highest.2 := (ascending_cons.mp single).1
  have bottom : highest.2 - (highest.2 - highest.1 + 1 - 1) = highest.1 := by omega
  have passed : highest.2 - (highest.2 - highest.1 + 1) = highest.1 - 1 := by omega
  refine ⟨lower, highest, shape, fun r member => before.nonempty r (List.mem_reverse.mp member),
    List.pairwise_reverse.mpr before.apart,
    fun r member => gaps r (List.mem_reverse.mp member) highest List.mem_cons_self, ?_⟩
  simp only [Acknowledges, inRange, flatRanges, List.drop_one, List.tail_cons, largestIs, first, additional,
    bottom, passed, ReportedBelow]
  grind

theorem covers_of_buildAck (built : s.buildAck delay = some ack)
    (acknowledged : Acknowledges ack pn) : Covers s.ranges pn := by
  obtain ⟨lower, highest, shape, nonempty, apart, below, found⟩ := acknowledges_buildAck built
  rw [shape, covers_append, covers_cons]
  rcases found.mp acknowledged with inside | reported
  · exact .inr (.inl inside)
  · exact .inl (covers_reverse.mp (covers_of_reportedBelow nonempty apart below reported))

theorem covers_of_dueAck (due : s.dueAck = some ack) (acknowledged : Acknowledges ack pn) :
    Covers s.ranges pn := by
  unfold dueAck takeNeedsAck at due
  dsimp only at due
  split at due
  · exact covers_of_buildAck (s := { s with needsAck := false }) due acknowledged
  · cases due

end AckReceiveState
end UniversalMesh.Session
