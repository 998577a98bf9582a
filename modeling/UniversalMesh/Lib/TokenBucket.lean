import Mathlib.Tactic.Linarith
import UniversalMesh.Lib.Run

/-! A token bucket in unbounded arithmetic. It earns `rate` tokens in `period` ticks, rounded down since the
tick it was last settled at, and holds at most its capacity. What is spent is asked for first: the answer is a
delay that is rounded down as well, so a spending may leave a debt of what one tick earns. -/
namespace UniversalMesh

structure TokenBucket where
  (rate period capacity : Nat)
  level : Int
  anchor : Option Nat
  deriving DecidableEq

namespace TokenBucket

/-- A spending: when it was asked for, what it costs and when it was made. -/
structure Spending where
  (asked cost spent : Nat)

/-- What a number of ticks earns. -/
def earned (b : TokenBucket) (ticks : Nat) : Nat := b.rate * ticks / b.period

/-- The tokens at a tick. -/
def available (b : TokenBucket) (now : Nat) : Int :=
  match b.anchor with
  | none => b.level
  | some anchor => min (b.level + b.earned (now - anchor)) b.capacity

/-- How long a spending that is not covered has to wait. -/
def delay (b : TokenBucket) (now cost : Nat) : Nat := ((cost - b.available now) * b.period / b.rate).toNat

/-- The bucket after a spending. -/
def pay (b : TokenBucket) (x : Spending) : TokenBucket :=
  { b with level := b.available x.spent - x.cost, anchor := some x.spent }

/-- The spending follows the last one, fits the capacity and was made when it was covered or had waited. -/
structure Due (b : TokenBucket) (x : Spending) : Prop where
  follows : ∀ anchor, b.anchor = some anchor → anchor ≤ x.asked
  later : x.asked ≤ x.spent
  fits : x.cost ≤ b.capacity
  waited : (x.cost : Int) ≤ b.available x.asked ∨ 0 < b.rate ∧ x.asked + b.delay x.asked x.cost ≤ x.spent

/-- What the spendings cost together. -/
def total (xs : List Spending) : Nat := (xs.map Spending.cost).sum

variable {b : TokenBucket} {x : Spending} {since last spent anchor now now' : Nat} {xs : List Spending}

/-! What time earns. -/

theorem earned_le (b : TokenBucket) (ticks : Nat) : b.period * b.earned ticks ≤ b.rate * ticks :=
  Nat.mul_div_le _ _

theorem lt_earned (positive : 0 < b.period) (ticks : Nat) :
    b.rate * ticks < b.period * b.earned ticks + b.period :=
  Nat.lt_mul_div_succ _ positive

theorem earned_mono (later : ticks ≤ ticks') : b.earned ticks ≤ b.earned ticks' :=
  Nat.div_le_div_right (Nat.mul_le_mul_left _ later)

theorem available_of_anchor (at_ : b.anchor = some anchor) (now : Nat) :
    b.available now = min (b.level + b.earned (now - anchor)) b.capacity := by
  unfold available
  rw [at_]

theorem available_mono (later : now ≤ now') : b.available now ≤ b.available now' := by
  unfold available
  split
  · exact le_rfl
  · next anchor _ =>
    have more := b.earned_mono (Nat.sub_le_sub_right later anchor)
    omega

theorem available_le_capacity (bounded : b.level ≤ b.capacity) (now : Nat) : b.available now ≤ b.capacity := by
  unfold available
  split
  · exact bounded
  · exact min_le_right _ _

/-- The tokens at a tick come from the level and the time since the anchor. -/
theorem available_le_earned (at_ : b.anchor = some anchor) (now : Nat) :
    b.period * b.available now ≤ b.period * b.level + b.rate * (now - anchor : Nat) := by
  have earned := b.earned_le (now - anchor)
  have le : b.available now ≤ b.level + b.earned (now - anchor) := by
    rw [available_of_anchor at_]
    exact min_le_left _ _
  have scaled : (b.period : Int) * b.available now ≤ b.period * (b.level + b.earned (now - anchor)) :=
    Int.mul_le_mul_of_nonneg_left le (Int.natCast_nonneg _)
  linarith

/-- The delay falls short of the deficit by less than one tick. -/
theorem delay_covers (positive : 0 < b.rate) (short : b.available now < x.cost) :
    (b.period : Int) * x.cost < b.period * b.available now + b.rate * b.delay now x.cost + b.rate := by
  have deficit : 0 ≤ (x.cost - b.available now) * (b.period : Int) :=
    Int.mul_nonneg (by omega) (Int.natCast_nonneg _)
  have nonneg : 0 ≤ (x.cost - b.available now) * (b.period : Int) / b.rate :=
    Int.ediv_nonneg deficit (Int.natCast_nonneg _)
  have rounded := Int.lt_ediv_add_one_mul_self ((x.cost - b.available now) * (b.period : Int))
    (Int.natCast_pos.mpr positive)
  have delay : (b.delay now x.cost : Int) = (x.cost - b.available now) * (b.period : Int) / b.rate :=
    Int.toNat_of_nonneg nonneg
  rw [delay]
  linarith

/-- What a spending costs is covered by the tokens it found, the time it waited and one tick. -/
theorem Due.cost_le (due : b.Due x) : (b.period : Int) * x.cost ≤
    b.period * b.available x.asked + b.rate * (x.spent - x.asked : Nat) + b.rate := by
  have rate : (0 : Int) ≤ b.rate := Int.natCast_nonneg _
  by_cases covered : (x.cost : Int) ≤ b.available x.asked
  · have cost : (b.period : Int) * x.cost ≤ b.period * b.available x.asked :=
      Int.mul_le_mul_of_nonneg_left covered (Int.natCast_nonneg _)
    have waited : 0 ≤ (b.rate : Int) * (x.spent - x.asked : Nat) := Int.mul_nonneg rate (Int.natCast_nonneg _)
    linarith
  · obtain ⟨positive, waited⟩ := due.waited.resolve_left covered
    have cost := delay_covers positive (not_le.mp covered)
    have least : b.delay x.asked x.cost ≤ x.spent - x.asked := by omega
    have enough : (b.rate : Int) * b.delay x.asked x.cost ≤ b.rate * (x.spent - x.asked : Nat) :=
      Int.mul_le_mul_of_nonneg_left (Int.ofNat_le.mpr least) rate
    linarith

/-! The meter: what was spent since the bucket was full, against what it has earned since. -/

/-- Since a tick at which the bucket was full these tokens were spent, the last of them at the anchor. -/
structure Metered (since last spent : Nat) (b : TokenBucket) : Prop where
  anchored : ∃ anchor, b.anchor = some anchor ∧ since ≤ anchor ∧ anchor ≤ last ∧
    (b.period : Int) * (spent + b.level) ≤ b.period * b.capacity + b.rate * (anchor - since : Nat) ∧
    (b.period : Int) * spent ≤ b.period * b.capacity + b.rate * (anchor - since : Nat) + b.rate

theorem mul_elapsed (rate : Nat) (first : since ≤ anchor) (second : anchor ≤ now) :
    (rate : Int) * (now - since : Nat) = rate * (anchor - since : Nat) + rate * (now - anchor : Nat) := by
  rw [← Int.mul_add]
  congr 1
  omega

theorem metered_first (full : b.available since = b.capacity) (bounded : b.level ≤ b.capacity)
    (fits : x.cost ≤ b.capacity) (begun : since ≤ x.spent) (ended : x.spent ≤ last) :
    Metered since last x.cost (b.pay x) := by
  have still : b.available x.spent = b.capacity :=
    le_antisymm (available_le_capacity bounded x.spent) (full ▸ available_mono begun)
  have earned : 0 ≤ (b.rate : Int) * (x.spent - since : Nat) :=
    Int.mul_nonneg (Int.natCast_nonneg _) (Int.natCast_nonneg _)
  refine ⟨x.spent, rfl, begun, ended, ?_, ?_⟩
  · simp only [pay, still]
    linarith
  · have cost : (b.period : Int) * x.cost ≤ b.period * b.capacity :=
      Int.mul_le_mul_of_nonneg_left (Int.ofNat_le.mpr fits) (Int.natCast_nonneg _)
    simp only [pay]
    linarith

theorem Metered.pay (metered : Metered since last spent b) (due : b.Due x) (ended : x.spent ≤ last) :
    Metered since last (spent + x.cost) (b.pay x) := by
  obtain ⟨anchor, at_, begun, -, credit, -⟩ := metered.anchored
  have follows := due.follows anchor at_
  have found := available_le_earned at_ x.asked
  have settled := available_le_earned at_ x.spent
  have asked := mul_elapsed b.rate begun follows
  have spending := mul_elapsed b.rate (begun.trans follows) due.later
  have whole := mul_elapsed b.rate begun (follows.trans due.later)
  refine ⟨x.spent, rfl, begun.trans (follows.trans due.later), ended, ?_, ?_⟩
  · simp only [TokenBucket.pay]
    push_cast
    linarith
  · have cost := due.cost_le
    simp only [TokenBucket.pay]
    push_cast
    linarith

theorem Metered.run (metered : Metered since last spent b) (due : Run.Meets Due TokenBucket.pay b xs)
    (ended : ∀ x ∈ xs, x.spent ≤ last) : Metered since last (spent + total xs) (xs.foldl TokenBucket.pay b) := by
  induction xs generalizing b spent with
  | nil => exact metered
  | cons x xs ih =>
    have next := ih (metered.pay due.1 (ended x List.mem_cons_self)) due.2 fun y member =>
      ended y (List.mem_cons_of_mem _ member)
    rwa [Nat.add_assoc] at next

theorem run_parameters (b : TokenBucket) : (xs.foldl pay b).rate = b.rate ∧
    (xs.foldl pay b).period = b.period ∧ (xs.foldl pay b).capacity = b.capacity := by
  induction xs generalizing b with
  | nil => exact ⟨rfl, rfl, rfl⟩
  | cons x xs ih => exact ih (b.pay x)

/-- From a full bucket on, spendings that are due cost at most the capacity, what the elapsed time earns and
what one tick earns. -/
theorem total_le (full : b.available since = b.capacity) (bounded : b.level ≤ b.capacity)
    (due : Run.Meets Due pay b xs) (begun : ∀ x ∈ xs, since ≤ x.spent) (ended : ∀ x ∈ xs, x.spent ≤ last) :
    b.period * total xs ≤ b.period * b.capacity + b.rate * (last - since) + b.rate := by
  cases xs with
  | nil => exact Nat.zero_le _
  | cons x xs =>
    have here := List.mem_cons_self (a := x) (l := xs)
    have first := metered_first full bounded due.1.fits (begun x here) (ended x here)
    obtain ⟨anchor, -, since_le, le_last, -, spent⟩ :=
      (first.run due.2 fun y member => ended y (List.mem_cons_of_mem _ member)).anchored
    obtain ⟨rate, period, capacity⟩ := (b.pay x).run_parameters
    rw [rate, period, capacity] at spent
    have elapsed : b.rate * (anchor - since) ≤ b.rate * (last - since) := Nat.mul_le_mul_left _ (by omega)
    have bound : b.period * (x.cost + total xs) ≤ b.period * b.capacity + b.rate * (anchor - since) + b.rate := by
      exact_mod_cast spent
    exact bound.trans (by omega)

/-! The debt. -/

/-- The level is within the capacity and a debt is less than what one tick earns, up to the rounding. A bucket
that was never spent from is full. -/
structure Solvent (b : TokenBucket) : Prop where
  ticks : 0 < b.period
  bounded : b.level ≤ b.capacity
  debt : -(b.rate + b.period : Int) < b.period * b.level
  fresh : b.anchor = none → b.level = b.capacity

theorem no_debt {rate period : Nat} {level : Int} (ticks : 0 < period) (nonneg : 0 ≤ level) :
    -(rate + period : Int) < period * level := by
  have : 0 ≤ (period : Int) * level := Int.mul_nonneg (Int.natCast_nonneg _) nonneg
  omega

theorem Solvent.pay (solvent : b.Solvent) (due : b.Due x) : (b.pay x).Solvent where
  ticks := solvent.ticks
  bounded := by
    have held := available_le_capacity solvent.bounded x.spent
    simp only [TokenBucket.pay]
    omega
  fresh := nofun
  debt := by
    have fits := due.fits
    simp only [TokenBucket.pay]
    by_cases full : b.available x.spent = b.capacity
    · exact no_debt solvent.ticks (by omega)
    · cases at_ : b.anchor with
      | none =>
        have level := solvent.fresh at_
        rw [available, at_] at full
        exact absurd level full
      | some anchor =>
        have earned : b.available x.spent = b.level + b.earned (x.spent - anchor) := by
          rw [available_of_anchor at_] at full ⊢
          omega
        have rounded : (b.rate : Int) * (x.spent - anchor : Nat) <
            b.period * b.earned (x.spent - anchor) + b.period := by
          exact_mod_cast lt_earned solvent.ticks (x.spent - anchor)
        have found := available_le_earned at_ x.asked
        have elapsed := mul_elapsed b.rate (due.follows anchor at_) due.later
        have cost := due.cost_le
        rw [earned]
        linarith

end TokenBucket
end UniversalMesh
