import Mathlib.Order.Lattice

/-! Records that supersede each other: each stands in a slot and has a rank in it. A pass over a list of records
takes those it has not seen, and stops at one that does not agree with what it has seen: an older one of the
slot, or another one of the same rank. -/
namespace UniversalMesh.Sequenced

section
variable {ρ κ ν : Type} [LinearOrder ν] (slot : ρ → κ) (rank : ρ → ν)

/-- No record seen in the item's slot is newer, and none of its rank is another one. -/
def Agrees (seen : List ρ) (item : ρ) : Prop :=
  ∀ other ∈ seen, slot other = slot item → rank other ≤ rank item ∧ (rank other = rank item → other = item)

theorem Agrees.mono {slot : ρ → κ} {rank : ρ → ν}
    (agrees : Agrees slot rank more item) (fewer : seen ⊆ more) : Agrees slot rank seen item :=
  fun other member => agrees other (fewer member)

end

variable {ρ κ ν : Type} [DecidableEq ρ] [DecidableEq κ] [LinearOrder ν] (slot : ρ → κ) (rank : ρ → ν)

instance decidableAgrees (seen : List ρ) (item : ρ) : Decidable (Agrees slot rank seen item) :=
  inferInstanceAs (Decidable (∀ other ∈ seen, _))

/-- The records a pass takes, or nothing if it stops. -/
def take? (seen : List ρ) : List ρ → Option (List ρ)
  | [] => some []
  | item :: rest =>
    if Agrees slot rank seen item then
      if item ∈ seen then take? seen rest else (take? (seen ++ [item]) rest).map (item :: ·)
    else none

variable {slot rank} {seen items new : List ρ} {item : ρ}

/-- What the pass does with its first record; in both cases it has then seen the record. -/
theorem take?_cons (passed : take? slot rank seen (item :: rest) = some new) : Agrees slot rank seen item ∧
      (item ∈ seen ∧ take? slot rank seen rest = some new ∨
        item ∉ seen ∧ ∃ others, take? slot rank (seen ++ [item]) rest = some others ∧ new = item :: others) := by
  rw [take?] at passed
  split at passed
  case isFalse => cases passed
  case isTrue agrees =>
    refine ⟨agrees, ?_⟩
    split at passed
    case isTrue known => exact .inl ⟨known, passed⟩
    case isFalse unknown =>
      obtain ⟨others, taken, made⟩ := Option.map_eq_some_iff.mp passed
      exact .inr ⟨unknown, others, taken, made.symm⟩

section
variable (passed : take? slot rank seen items = some new)
include passed

/-- Every record of a pass that does not stop agrees with what was seen before it. -/
theorem agrees_of_take? : ∀ item ∈ items, Agrees slot rank seen item := by
  induction items generalizing seen new with
  | nil => simp
  | cons first rest ih =>
    intro item member
    obtain ⟨agrees, known | unknown⟩ := take?_cons passed
    · rcases List.mem_cons.mp member with rfl | later
      · exact agrees
      · exact ih known.2 item later
    · obtain ⟨-, others, taken, -⟩ := unknown
      rcases List.mem_cons.mp member with rfl | later
      · exact agrees
      · exact (ih taken item later).mono (List.subset_append_left seen [first])

/-- What was taken is new, comes from the records, and leaves none of them out. -/
theorem mem_take? : item ∈ new ↔ item ∈ items ∧ item ∉ seen := by
  induction items generalizing seen new with
  | nil =>
    cases passed
    simp
  | cons first rest ih =>
    obtain ⟨-, ⟨known, taken⟩ | ⟨unknown, others, taken, rfl⟩⟩ := take?_cons passed
    · rw [ih taken, List.mem_cons]
      constructor
      · exact fun ⟨later, fresh⟩ => ⟨.inr later, fresh⟩
      · rintro ⟨rfl | later, fresh⟩
        · exact absurd known fresh
        · exact ⟨later, fresh⟩
    · rw [List.mem_cons, ih taken, List.mem_cons, List.mem_append, List.mem_singleton]
      by_cases same : item = first
      · simp [same, unknown]
      · simp [same]

theorem nodup_take? : new.Nodup := by
  induction items generalizing seen new with
  | nil =>
    cases passed
    exact .nil
  | cons first rest ih =>
    obtain ⟨-, ⟨-, taken⟩ | ⟨-, others, taken, rfl⟩⟩ := take?_cons passed
    · exact ih taken
    · refine List.nodup_cons.mpr ⟨fun again => ?_, ih taken⟩
      exact ((mem_take? taken).mp again).2 (List.mem_append_right _ List.mem_cons_self)

end

/-- The first record has been seen, as new or before, when the later ones are compared. -/
theorem take?_rest (passed : take? slot rank seen (item :: rest) = some new) :
    ∃ more others, item ∈ more ∧ take? slot rank more rest = some others := by
  obtain ⟨-, ⟨known, taken⟩ | ⟨-, others, taken, -⟩⟩ := take?_cons passed
  · exact ⟨seen, new, known, taken⟩
  · exact ⟨seen ++ [item], others, List.mem_append_right _ List.mem_cons_self, taken⟩

theorem eq_of_take? (passed : take? slot rank seen items = some new) :
    ∀ first ∈ items, ∀ second ∈ items, slot first = slot second → rank first = rank second → first = second := by
  induction items generalizing seen new with
  | nil => simp
  | cons head rest ih =>
    obtain ⟨more, others, known, taken⟩ := take?_rest passed
    have behind : ∀ later ∈ rest, slot head = slot later → rank head = rank later → head = later :=
      fun later member slots => (agrees_of_take? taken later member head known slots).2
    intro first member second member' slots ranks
    rcases List.mem_cons.mp member with rfl | later
    · rcases List.mem_cons.mp member' with rfl | later'
      · rfl
      · exact behind second later' slots ranks
    · rcases List.mem_cons.mp member' with rfl | later'
      · exact (behind first later slots.symm ranks.symm).symm
      · exact ih taken first later second later' slots ranks

theorem take?_eq_nil : take? slot rank seen items = some [] ↔
    ∀ item ∈ items, Agrees slot rank seen item ∧ item ∈ seen := by
  constructor
  · intro passed item member
    refine ⟨agrees_of_take? passed item member, Classical.not_not.mp fun unknown => ?_⟩
    exact List.not_mem_nil ((mem_take? passed).mpr ⟨member, unknown⟩)
  · intro all
    induction items with
    | nil => rfl
    | cons first rest ih =>
      obtain ⟨⟨agrees, known⟩, others⟩ := List.forall_mem_cons.mp all
      rw [take?, if_pos agrees, if_pos known]
      exact ih others

/-- The same pass over what was seen and taken takes nothing exactly when the records have one rank in each
slot. -/
theorem take?_again (passed : take? slot rank seen items = some new)
    (holds : ∀ record, record ∈ both ↔ record ∈ seen ∨ record ∈ new) :
    take? slot rank both items = some [] ↔
      ∀ first ∈ items, ∀ second ∈ items, slot first = slot second → rank first = rank second := by
  have reached : ∀ item ∈ items, item ∈ both := by
    intro item member
    by_cases known : item ∈ seen
    · exact (holds item).mpr (.inl known)
    · exact (holds item).mpr (.inr ((mem_take? passed).mpr ⟨member, known⟩))
  rw [take?_eq_nil]
  constructor
  · intro all first member second member' slots
    obtain ⟨agrees, -⟩ := all second member'
    obtain ⟨agrees', -⟩ := all first member
    exact le_antisymm (agrees first (reached first member) slots).1
      (agrees' second (reached second member') slots.symm).1
  · intro ranks item member
    refine ⟨fun other held slots => ?_, reached item member⟩
    rcases (holds other).mp held with before | taken
    · exact agrees_of_take? passed item member other before slots
    · obtain ⟨listed, -⟩ := (mem_take? passed).mp taken
      exact ⟨(ranks other listed item member slots).le, eq_of_take? passed other listed item member slots⟩

end UniversalMesh.Sequenced
