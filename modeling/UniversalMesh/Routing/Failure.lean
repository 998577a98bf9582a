import UniversalMesh.Lib.MachineWord

/-! `umc-routing/src/failure.rs`: after a failure a route is retried no sooner than a delay that doubles with
each further failure. The cap of the growth is shorter than the delay of two classes. -/
namespace UniversalMesh.Routing
open MachineWord

inductive FailureClass
  | noReachability | carrierFailure | relayRefused | authenticationFailed | policyRejected | timeout | loop
  | resourceLimit | protocolError
  deriving DecidableEq

namespace FailureClass

/-- Milliseconds. -/
def initialRetryDelay : FailureClass → Nat
  | carrierFailure => 1000
  | timeout | noReachability | resourceLimit => 5000
  | relayRefused | protocolError => 30000
  | policyRejected | authenticationFailed => 30 * 24 * 60 * 60 * 1000
  | loop => 10000

theorem second_le_initialRetryDelay (failure : FailureClass) : 1000 ≤ failure.initialRetryDelay := by
  cases failure <;> decide

end FailureClass

def maxBackoff : Nat := 5 * 60 * 1000

def backoffDelay (failureCount base jitterMs seed : Nat) : Nat :=
  let multiplier := 2 ^ min failureCount 10
  let delay := min (saturatingMul base multiplier) maxBackoff
  let jitter := seed % saturatingAdd jitterMs 1
  min (saturatingAdd delay jitter) maxBackoff

structure FailureTracker where
  lastFailure : Option (FailureClass × Nat)
  retryAfter : Option Nat
  failureCount : Nat
  deriving DecidableEq

def FailureTracker.new : FailureTracker := { lastFailure := none, retryAfter := none, failureCount := 0 }

/-- The delay before the retry, for a failure that brings the count to `failureCount`. -/
def FailureClass.delay (failure : FailureClass) (failureCount seed : Nat) : Nat :=
  backoffDelay failureCount failure.initialRetryDelay 100 seed

/-- The count is not expected to reach the end of its range; `none` is the panic if it does. -/
def FailureTracker.record (t : FailureTracker) (failure : FailureClass) (now seed : Nat) : Option FailureTracker := do
  let failureCount ← checkedAdd t.failureCount 1
  return { lastFailure := some (failure, now), failureCount
           retryAfter := some (saturatingAdd now (failure.delay failureCount seed)) }

namespace FailureClass
variable (failure : FailureClass)

/-- Neither the saturation nor the cap under the jitter makes a difference. -/
theorem delay_eq :
    failure.delay count seed = min (failure.initialRetryDelay * 2 ^ min count 10 + seed % 101) maxBackoff := by
  have jitterMs : saturatingAdd 100 1 = 101 := by decide
  simp only [delay, backoffDelay, jitterMs]
  simp only [saturatingMul, saturatingAdd, maxBackoff, u64Max]
  omega

/-- A further failure adds more than any jitter, and the cap is reached before the growth ends. -/
theorem delay_le (more : count < count') (seed seed' : Nat) :
    failure.delay count seed ≤ failure.delay count' seed' := by
  rw [delay_eq, delay_eq]
  have base := failure.second_le_initialRetryDelay
  by_cases growing : count < 10
  · have doubled : 2 ^ count * 2 ≤ 2 ^ min count' 10 := by
      rw [← Nat.pow_succ]
      exact Nat.pow_le_pow_right (by decide) (by omega)
    have grown := Nat.mul_le_mul_left failure.initialRetryDelay doubled
    have added : 1000 * 1 ≤ failure.initialRetryDelay * 2 ^ count := Nat.mul_le_mul base Nat.one_le_two_pow
    rw [Nat.min_eq_left growing.le]
    refine min_le_min_right _ ?_
    rw [← Nat.mul_assoc] at grown
    omega
  · have capped : 1000 * 2 ^ 10 ≤ failure.initialRetryDelay * 2 ^ min count' 10 := by
      rw [Nat.min_eq_right (by omega)]
      exact Nat.mul_le_mul_right _ base
    refine (min_le_right _ _).trans (le_min ?_ le_rfl)
    rw [maxBackoff]
    omega

theorem delay_bounds (count seed : Nat) : min failure.initialRetryDelay maxBackoff ≤ failure.delay count seed ∧
    failure.delay count seed ≤ maxBackoff := by
  rw [delay_eq]
  have grown := Nat.le_mul_of_pos_right failure.initialRetryDelay (Nat.two_pow_pos (min count 10))
  omega

end FailureClass

namespace FailureTracker
variable {t t' r r' : FailureTracker} {failure : FailureClass} {now now' seed seed' : Nat}

theorem record_retryAfter (recorded : t.record failure now seed = some r) :
    r.retryAfter = some (saturatingAdd now (failure.delay (t.failureCount + 1) seed)) := by
  obtain ⟨count, counted, made⟩ := Option.bind_eq_some_iff.mp recorded
  obtain ⟨-, rfl⟩ := checkedAdd_some.mp counted
  cases made
  rfl

/-- A retry waits for the delay of the failure's class just when the cap allows that delay, or the clock is
near its end; and it waits as long as after fewer failures of the class. -/
theorem retryAfter_respects_iff (recorded : t.record failure now seed = some r)
    (again : t'.record failure now' seed' = some r') :
    ((∃ retry ∈ r.retryAfter, saturatingAdd now failure.initialRetryDelay ≤ retry) ↔
      failure.initialRetryDelay ≤ maxBackoff ∨ u64Max ≤ now + maxBackoff) ∧
    (t.failureCount < t'.failureCount → now ≤ now' →
      ∃ retry ∈ r.retryAfter, ∃ retry' ∈ r'.retryAfter, retry ≤ retry') := by
  rw [record_retryAfter recorded, record_retryAfter again]
  simp only [Option.mem_some_iff, exists_eq_left', saturatingAdd]
  constructor
  · have bounds := failure.delay_bounds (t.failureCount + 1) seed
    omega
  · intro more later
    exact min_le_min_right _ (Nat.add_le_add later (failure.delay_le (Nat.succ_lt_succ more) seed seed'))

theorem retryAfter_respects_twice : ∃ r r' : FailureTracker,
    new.record .carrierFailure 0 7 = some r ∧ r.record .carrierFailure 10 3 = some r' ∧
      ∃ retry ∈ r.retryAfter, ∃ retry' ∈ r'.retryAfter, retry ≤ retry' := by
  have once : new.record .carrierFailure 0 7 = some ⟨some (.carrierFailure, 0), some 2007, 1⟩ := by decide
  have twice : FailureTracker.record ⟨some (.carrierFailure, 0), some 2007, 1⟩ .carrierFailure 10 3 =
      some ⟨some (.carrierFailure, 10), some 4013, 2⟩ := by decide
  exact ⟨_, _, once, twice, (retryAfter_respects_iff once twice).2 (by decide) (by decide)⟩

/-- A rejection by policy may be retried after five minutes instead of thirty days. -/
theorem policy_rejection_retried_early :
    (FailureTracker.new.record .policyRejected 0 0).bind FailureTracker.retryAfter = some 300000 ∧
      FailureClass.policyRejected.initialRetryDelay = 2592000000 := by
  decide

end FailureTracker
end UniversalMesh.Routing
