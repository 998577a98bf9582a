import Mathlib.Data.List.Basic

/-! Runs of a step function over a list of inputs. `Meets` says that every step of a run is taken in a state and
on an input that satisfy a condition; a property that such steps preserve holds at the end of every such run.
`count` counts the steps of a kind. -/
namespace UniversalMesh.Run

variable {σ ι : Type} {step : σ → ι → σ}

/-- Every step of the run from `state` is taken under `condition`. -/
def Meets (condition : σ → ι → Prop) (step : σ → ι → σ) : σ → List ι → Prop
  | _, [] => True
  | state, input :: rest => condition state input ∧ Meets condition step (step state input) rest

instance decidableMeets (condition : σ → ι → Prop) [∀ state input, Decidable (condition state input)] :
    ∀ state inputs, Decidable (Meets condition step state inputs)
  | _, [] => .isTrue trivial
  | state, input :: rest =>
    have := decidableMeets condition (step state input) rest
    inferInstanceAs (Decidable (condition state input ∧ Meets condition step (step state input) rest))

variable {condition : σ → ι → Prop} {holds : σ → Prop} {inputs : List ι} {state : σ}

section
variable (preserved : ∀ state input, holds state → condition state input → holds (step state input))
include preserved

/-- What every step preserves under the condition holds after the run. -/
theorem invariant_of_meets (initial : holds state) (meets : Meets condition step state inputs) :
    holds (inputs.foldl step state) := by
  induction inputs generalizing state with
  | nil => exact initial
  | cons input rest ih => exact ih (preserved state input initial meets.1) meets.2

/-- What holds of every step that is taken under the condition and the invariant holds of all steps. -/
theorem meets_of_invariant (follows : ∀ state input, holds state → condition state input → property state input)
    (initial : holds state) (meets : Meets condition step state inputs) : Meets property step state inputs := by
  induction inputs generalizing state with
  | nil => trivial
  | cons input rest ih =>
    exact ⟨follows state input initial meets.1, ih (preserved state input initial meets.1) meets.2⟩

end

theorem meets_of_forall {condition : ι → Prop} (each : ∀ input ∈ inputs, condition input) (state : σ) :
    Meets (fun _ => condition) step state inputs := by
  induction inputs generalizing state with
  | nil => trivial
  | cons input rest ih =>
    exact ⟨each input List.mem_cons_self,
      ih (fun later member => each later (List.mem_cons_of_mem _ member)) (step state input)⟩

theorem Meets.imp (follows : ∀ state input, condition state input → weaker state input)
    (meets : Meets condition step state inputs) : Meets weaker step state inputs := by
  induction inputs generalizing state with
  | nil => trivial
  | cons input rest ih => exact ⟨follows state input meets.1, ih meets.2⟩

theorem Meets.and {admissible : ι → Prop} (meets : Meets condition step state inputs)
    (each : ∀ input ∈ inputs, admissible input) :
    Meets (fun state input => condition state input ∧ admissible input) step state inputs := by
  induction inputs generalizing state with
  | nil => trivial
  | cons input rest ih =>
    exact ⟨⟨meets.1, each input List.mem_cons_self⟩,
      ih meets.2 fun later member => each later (List.mem_cons_of_mem _ member)⟩

theorem meets_append : Meets condition step state (first ++ second) ↔
      Meets condition step state first ∧ Meets condition step (first.foldl step state) second := by
  induction first generalizing state with
  | nil => simp [Meets]
  | cons input rest ih => rw [List.cons_append, Meets, Meets, ih, and_assoc, List.foldl_cons]

/-- A run meets a condition if each of its steps does, wherever the run is cut. -/
theorem meets_iff :
    Meets condition step state inputs ↔
      ∀ before input after, inputs = before ++ input :: after → condition (before.foldl step state) input := by
  constructor
  · rintro meets before input after rfl
    exact (meets_append.mp meets).2.1
  · intro each
    induction inputs generalizing state with
    | nil => trivial
    | cons input rest ih =>
      refine ⟨each [] input rest rfl, ih fun before later after cut => ?_⟩
      exact each (input :: before) later after (by rw [cut, List.cons_append])

/-- Where a step keeps a property exactly if it meets a condition, the property holds in every state of a run
exactly if every step meets the condition. The steps may rely on an invariant. -/
theorem throughout_iff {stable : σ → Prop}
    (preserved : ∀ state input, stable state → stable (step state input))
    (kept : ∀ state input, stable state → holds state → (holds (step state input) ↔ condition state input))
    (invariant : stable state) (initial : holds state) :
    (∀ before after, inputs = before ++ after → holds (before.foldl step state)) ↔
      Meets condition step state inputs := by
  induction inputs generalizing state with
  | nil =>
    refine ⟨fun _ => trivial, fun _ before after cut => ?_⟩
    rw [(List.append_eq_nil_iff.mp cut.symm).1]
    exact initial
  | cons input rest ih =>
    have next := preserved state input invariant
    constructor
    · intro throughout
      have first : holds (step state input) := throughout [input] rest rfl
      refine ⟨(kept state input invariant initial).mp first, (ih next first).mp ?_⟩
      rintro before after rfl
      exact throughout (input :: before) after rfl
    · rintro ⟨meets, later⟩ before after cut
      have first := (kept state input invariant initial).mpr meets
      cases before with
      | nil => exact initial
      | cons head before =>
        obtain ⟨rfl, tail⟩ := List.cons.inj cut
        exact (ih next first).mpr later before after tail

/-- What every step preserves holds after every run. -/
theorem invariant (preserved : ∀ state input, holds state → holds (step state input)) (initial : holds state) :
    holds (inputs.foldl step state) :=
  invariant_of_meets (fun state input held _ => preserved state input held) initial
    (meets_of_forall (fun _ _ => trivial) state)

/-! ### Counting the steps of a kind -/

/-- How many steps of the run are hits. -/
def count (hit : σ → ι → Bool) (step : σ → ι → σ) : σ → List ι → Nat
  | _, [] => 0
  | state, input :: rest => (if hit state input then 1 else 0) + count hit step (step state input) rest

variable {hit : σ → ι → Bool} {state : σ}

theorem count_append :
    count hit step state (first ++ second) =
      count hit step state first + count hit step (first.foldl step state) second := by
  induction first generalizing state with
  | nil => simp [count]
  | cons input rest ih => rw [List.cons_append, count, count, ih, List.foldl_cons, Nat.add_assoc]

theorem count_le_length (inputs : List ι) : count hit step state inputs ≤ inputs.length := by
  induction inputs generalizing state with
  | nil => exact Nat.le_refl _
  | cons input rest ih =>
    rw [count, List.length_cons]
    have later := @ih (step state input)
    split <;> omega

theorem count_eq_zero_iff : count hit step state inputs = 0 ↔
    ∀ before input after, inputs = before ++ input :: after → hit (before.foldl step state) input = false := by
  constructor
  · rintro none before input after rfl
    rw [count_append, count] at none
    by_contra found
    simp_all
  · intro none
    induction inputs generalizing state with
    | nil => rfl
    | cons input rest ih =>
      have here := none [] input rest rfl
      rw [List.foldl_nil] at here
      rw [count, here, ih]
      · rfl
      · rintro before later after rfl
        exact none (input :: before) later after rfl

/-- At most one hit: behind a hit no other follows. -/
theorem count_le_one_iff : count hit step state inputs ≤ 1 ↔
    ∀ before first between second after, inputs = before ++ first :: (between ++ second :: after) →
      hit (before.foldl step state) first = true →
      hit ((before ++ first :: between).foldl step state) second = false := by
  constructor
  · rintro once before first between second after rfl found
    rw [count_append, count, if_pos found, count_append, count] at once
    by_contra again
    rw [if_pos (by simpa using again)] at once
    omega
  · intro once
    induction inputs generalizing state with
    | nil => exact Nat.zero_le _
    | cons input rest ih =>
      rw [count]
      by_cases found : hit state input = true
      · have none : count hit step (step state input) rest = 0 := by
          apply count_eq_zero_iff.mpr
          rintro between second after rfl
          exact once [] input between second after rfl found
        rw [if_pos found]
        omega
      · rw [if_neg found, Nat.zero_add]
        apply ih
        rintro before first between second after rfl later
        exact once (input :: before) first between second after rfl later

theorem count_simulation {τ κ : Type} {step' : τ → κ → τ} {hit' : τ → κ → Bool} (related : σ → τ → Prop)
    (image : ι → κ) (steps : ∀ s t input, related s t → related (step s input) (step' t (image input)))
    (hits : ∀ s t input, related s t → hit s input = hit' t (image input)) {t : τ} (start : related s t) :
    count hit step s inputs = count hit' step' t (inputs.map image) ∧
      related (inputs.foldl step s) ((inputs.map image).foldl step' t) := by
  induction inputs generalizing s t with
  | nil => exact ⟨rfl, start⟩
  | cons input rest ih =>
    obtain ⟨same, later⟩ := ih (steps s t input start)
    exact ⟨by rw [count, List.map_cons, count, same, hits s t input start], later⟩

end UniversalMesh.Run
