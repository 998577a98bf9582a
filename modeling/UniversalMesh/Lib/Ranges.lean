
/-! Ascending lists of closed ranges of natural numbers. What such a list stands for is the set of numbers it
covers. -/
namespace UniversalMesh.Ranges

/-- A closed range, from its low to its high end. -/
abbrev Range := Nat × Nat

/-- Some range of the list contains the number. -/
def Covers (ranges : List Range) (n : Nat) : Prop := ∃ r ∈ ranges, r.1 ≤ n ∧ n ≤ r.2

/-- No range is empty, and every range ends before the next begins. -/
structure Ascending (ranges : List Range) : Prop where
  nonempty : ∀ r ∈ ranges, r.1 ≤ r.2
  apart : ranges.Pairwise fun a b => a.2 < b.1

variable {ranges before after : List Range} {a b r : Range} {n m : Nat}

@[simp] theorem not_covers_nil : ¬ Covers [] n := by simp [Covers]

@[simp] theorem covers_cons : Covers (r :: ranges) n ↔ (r.1 ≤ n ∧ n ≤ r.2) ∨ Covers ranges n := by
  simp [Covers]

@[simp] theorem covers_append : Covers (before ++ after) n ↔ Covers before n ∨ Covers after n := by
  simp only [Covers, List.mem_append, or_and_right, exists_or]

theorem ascending_nil : Ascending [] := ⟨by simp, .nil⟩

theorem ascending_append : Ascending (before ++ after) ↔
    Ascending before ∧ Ascending after ∧ ∀ a ∈ before, ∀ b ∈ after, a.2 < b.1 := by
  constructor
  · rintro ⟨nonempty, apart⟩
    obtain ⟨left, right, across⟩ := List.pairwise_append.mp apart
    exact ⟨⟨fun r member => nonempty r (List.mem_append_left _ member), left⟩,
      ⟨fun r member => nonempty r (List.mem_append_right _ member), right⟩, across⟩
  · rintro ⟨⟨first, left⟩, ⟨second, right⟩, across⟩
    refine ⟨fun r member => ?_, List.pairwise_append.mpr ⟨left, right, across⟩⟩
    exact (List.mem_append.mp member).elim (first r) (second r)

theorem ascending_cons : Ascending (r :: ranges) ↔
    r.1 ≤ r.2 ∧ Ascending ranges ∧ ∀ b ∈ ranges, r.2 < b.1 := by
  constructor
  · rintro ⟨nonempty, apart⟩
    obtain ⟨across, rest⟩ := List.pairwise_cons.mp apart
    exact ⟨nonempty r List.mem_cons_self,
      ⟨fun b member => nonempty b (List.mem_cons_of_mem _ member), rest⟩, across⟩
  · rintro ⟨first, ⟨others, rest⟩, across⟩
    exact ⟨List.forall_mem_cons.mpr ⟨first, others⟩, List.pairwise_cons.mpr ⟨across, rest⟩⟩

theorem covers_of_suffix (kept : after <:+ ranges) (covered : Covers after n) : Covers ranges n := by
  obtain ⟨r, member, inside⟩ := covered
  exact ⟨r, kept.mem member, inside⟩

theorem Ascending.insert (ascending : Ascending (before ++ after)) (above : ∀ r ∈ before, r.2 < n)
    (below : ∀ r ∈ after, n < r.1) : Ascending (before ++ (n, n) :: after) := by
  obtain ⟨left, right, across⟩ := ascending_append.mp ascending
  refine ascending_append.mpr ⟨left, ascending_cons.mpr ⟨Nat.le_refl n, right, below⟩, ?_⟩
  intro a member b later
  rcases List.mem_cons.mp later with rfl | later
  · exact above a member
  · exact across a member b later

theorem Ascending.merge (ascending : Ascending (before ++ a :: b :: after)) :
    Ascending (before ++ (a.1, b.2) :: after) := by
  obtain ⟨left, right, across⟩ := ascending_append.mp ascending
  obtain ⟨first, rest, gap⟩ := ascending_cons.mp right
  obtain ⟨second, tail, beyond⟩ := ascending_cons.mp rest
  have order := gap b List.mem_cons_self
  refine ascending_append.mpr ⟨left, ascending_cons.mpr ⟨by dsimp only; omega, tail, beyond⟩, ?_⟩
  intro r member b' later
  rcases List.mem_cons.mp later with rfl | later
  · exact across r member a List.mem_cons_self
  · exact across r member b' (List.mem_cons_of_mem _ (List.mem_cons_of_mem _ later))

theorem covers_merge (ascending : Ascending (before ++ a :: b :: after)) (adjacent : b.1 ≤ a.2 + 1) :
    Covers (before ++ (a.1, b.2) :: after) n ↔ Covers (before ++ a :: b :: after) n := by
  obtain ⟨-, right, -⟩ := ascending_append.mp ascending
  obtain ⟨first, rest, gap⟩ := ascending_cons.mp right
  have order := gap b List.mem_cons_self
  have second := (ascending_cons.mp rest).1
  simp only [covers_append, covers_cons, ← or_assoc]
  refine or_congr_left ?_
  rw [or_assoc]
  refine or_congr_right ?_
  omega

section
variable (ascending : Ascending ranges)
include ascending

theorem Ascending.suffix (kept : after <:+ ranges) : Ascending after :=
  ⟨fun r member => ascending.nonempty r (kept.mem member), ascending.apart.sublist kept.sublist⟩

theorem Ascending.le_last (last : ranges.getLast? = some r) (covered : Covers ranges n) : n ≤ r.2 := by
  obtain ⟨before, rfl⟩ := List.getLast?_eq_some_iff.mp last
  obtain ⟨-, -, across⟩ := ascending_append.mp ascending
  obtain ⟨a, member, -, high⟩ := covered
  rcases List.mem_append.mp member with earlier | here
  · have order := across a earlier r (by simp)
    have nonempty := ascending.nonempty r (by simp)
    omega
  · rw [List.mem_singleton.mp here] at high
    exact high

theorem Ascending.covers_last (last : ranges.getLast? = some r) : Covers ranges r.2 := by
  have member := List.mem_of_getLast? last
  exact ⟨r, member, ascending.nonempty r member, Nat.le_refl _⟩

theorem Ascending.last_eq (covered : Covers ranges n)
    (greatest : ∀ m, Covers ranges m → m ≤ n) : ranges.getLast?.map Prod.snd = some n := by
  cases last : ranges.getLast? with
  | none => simp [List.getLast?_eq_none_iff.mp last] at covered
  | some r =>
    have high := greatest r.2 (ascending.covers_last last)
    have low := ascending.le_last last covered
    exact congrArg some (Nat.le_antisymm high low)

end

/-- No range is empty, and between two of them there is a number that neither has. -/
structure Canonical (ranges : List Range) : Prop where
  nonempty : ∀ r ∈ ranges, r.1 ≤ r.2
  apart : ranges.Pairwise fun a b => a.2 + 1 < b.1

theorem canonical_nil : Canonical [] := ⟨by simp, .nil⟩

theorem Canonical.ascending (canonical : Canonical ranges) : Ascending ranges :=
  ⟨canonical.nonempty, canonical.apart.imp fun gap => by omega⟩

theorem Canonical.suffix (canonical : Canonical ranges) (kept : after <:+ ranges) : Canonical after :=
  ⟨fun r member => canonical.nonempty r (kept.mem member), canonical.apart.sublist kept.sublist⟩

/-- A range put between others, at a distance from all of them. -/
theorem Canonical.splice (canonical : Canonical (before ++ after)) (nonempty : a.1 ≤ a.2)
    (above : ∀ r ∈ before, r.2 + 1 < a.1) (below : ∀ r ∈ after, a.2 + 1 < r.1) :
    Canonical (before ++ a :: after) := by
  obtain ⟨left, right, across⟩ := List.pairwise_append.mp canonical.apart
  refine ⟨fun r member => ?_, List.pairwise_append.mpr ⟨left, List.pairwise_cons.mpr ⟨below, right⟩, ?_⟩⟩
  · rcases List.mem_append.mp member with earlier | here
    · exact canonical.nonempty r (List.mem_append_left _ earlier)
    rcases List.mem_cons.mp here with rfl | later
    · exact nonempty
    · exact canonical.nonempty r (List.mem_append_right _ later)
  · intro r member c later
    rcases List.mem_cons.mp later with rfl | later
    · exact above r member
    · exact across r member c later

/-- Where a range touches the next one, it holds more than one number. -/
def TouchLong (ranges : List Range) : Prop :=
  ranges.Pairwise fun a b => a.2 + 1 = b.1 → a.1 < a.2

/-- A range put between others, touching none before it and, if it touches one behind it, longer than one
number. -/
theorem TouchLong.splice (long : TouchLong (before ++ after))
    (apart : ∀ r ∈ before, r.2 + 1 = a.1 → r.1 < r.2) (behind : ∀ r ∈ after, a.2 + 1 = r.1 → a.1 < a.2) :
    TouchLong (before ++ a :: after) := by
  obtain ⟨left, right, across⟩ := List.pairwise_append.mp long
  refine List.pairwise_append.mpr ⟨left, List.pairwise_cons.mpr ⟨behind, right⟩, ?_⟩
  intro r member c later
  rcases List.mem_cons.mp later with rfl | later
  · exact apart r member
  · exact across r member c later

/-- Two neighbours that become one range touch the next as the second did, and are longer than one number. -/
theorem TouchLong.merge (long : TouchLong (before ++ a :: b :: after))
    (ascending : Ascending (before ++ a :: b :: after)) : TouchLong (before ++ (a.1, b.2) :: after) := by
  obtain ⟨-, -, across⟩ := List.pairwise_append.mp long
  obtain ⟨-, ordered, -⟩ := ascending_append.mp ascending
  obtain ⟨first, second, gap⟩ := ascending_cons.mp ordered
  have order := gap b List.mem_cons_self
  have high := (ascending_cons.mp second).1
  have shorter : TouchLong (before ++ after) :=
    long.sublist (((List.sublist_cons_self b after).cons a).append_left before)
  refine shorter.splice (fun r member => across r member a List.mem_cons_self) fun r _ _ => ?_
  omega

end UniversalMesh.Ranges
