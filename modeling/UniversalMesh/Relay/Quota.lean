import Mathlib.Data.Prod.Lex
import UniversalMesh.Lib.OrderedMap
import UniversalMesh.Lib.Run
import UniversalMesh.Wire.Field

/-! `umc-relay/src/quota.rs`: the rate limit of relayed bytes, and the account of the bytes that wait in
queues, by circuit and by peer. -/
namespace UniversalMesh.Relay
open MachineWord Wire OrderedMap Run

structure RateLimiter where
  (rateBytesPerSec bucket lastRefillMs : Nat)

namespace RateLimiter

def new (rateBytesPerSec initialBurst : Nat) : RateLimiter :=
  { rateBytesPerSec, bucket := initialBurst, lastRefillMs := 0 }

def refill (l : RateLimiter) (nowMs : Nat) : Nat :=
  min (saturatingAdd l.bucket (saturatingMul (nowMs - l.lastRefillMs) l.rateBytesPerSec / 1000)) l.rateBytesPerSec

def allow (l : RateLimiter) (nowMs bytes : Nat) : Bool × RateLimiter :=
  let bucket := l.refill nowMs
  if bytes ≤ bucket then (true, { l with bucket := bucket - bytes, lastRefillMs := nowMs })
  else (false, { l with bucket, lastRefillMs := nowMs })

/-- The calls, a time and a number of bytes each, that were allowed. -/
def granted (l : RateLimiter) : List (Nat × Nat) → List (Nat × Nat)
  | [] => []
  | (nowMs, bytes) :: calls =>
    let (allowed, l) := l.allow nowMs bytes
    if allowed then (nowMs, bytes) :: l.granted calls else l.granted calls

/-- The bytes granted from one time to another. -/
def grantedWithin (l : RateLimiter) (calls : List (Nat × Nat)) (since till : Nat) : Nat :=
  (((l.granted calls).filter fun call => since ≤ call.1 ∧ call.1 ≤ till).map Prod.snd).sum

variable {l : RateLimiter} {calls : List (Nat × Nat)} {nowMs bytes since till : Nat}

theorem refill_le (l : RateLimiter) (nowMs : Nat) :
    l.refill nowMs ≤ l.bucket + l.rateBytesPerSec * (nowMs - l.lastRefillMs) / 1000 := by
  have earned : saturatingMul (nowMs - l.lastRefillMs) l.rateBytesPerSec / 1000 ≤
      l.rateBytesPerSec * (nowMs - l.lastRefillMs) / 1000 :=
    Nat.div_le_div_right ((min_le_left _ _).trans (Nat.mul_comm _ _).le)
  exact (min_le_left _ _).trans ((min_le_left _ _).trans (Nat.add_le_add_left earned _))

/-- A call refills the bucket, and what it is granted is taken from there. -/
theorem allow_spends (l : RateLimiter) (nowMs bytes : Nat) :
    ∃ allowed bucket, l.allow nowMs bytes = (allowed, { l with bucket, lastRefillMs := nowMs }) ∧
      bucket + (if allowed then bytes else 0) = l.refill nowMs := by
  unfold allow
  dsimp only
  split
  · next covered => exact ⟨_, _, rfl, Nat.sub_add_cancel covered⟩
  · exact ⟨_, _, rfl, rfl⟩

theorem grantedWithin_cons (answered : l.allow nowMs bytes = (allowed, l')) :
    l.grantedWithin ((nowMs, bytes) :: calls) since till =
      (if since ≤ nowMs ∧ nowMs ≤ till then if allowed then bytes else 0 else 0) +
        l'.grantedWithin calls since till := by
  simp only [grantedWithin, granted, answered]
  cases allowed with
  | false => simp
  | true => by_cases inside : since ≤ nowMs ∧ nowMs ≤ till <;> simp [inside]

/-- After a call the bucket and what it earns until then pay for all that is granted. -/
theorem grantedWithin_le (ordered : (l.lastRefillMs :: calls.map Prod.fst).Pairwise (· ≤ ·)) (since till : Nat) :
    l.grantedWithin calls since till ≤
      if l.lastRefillMs ≤ till then l.bucket + l.rateBytesPerSec * (till - l.lastRefillMs) / 1000 else 0 := by
  induction calls generalizing l with
  | nil => exact Nat.zero_le _
  | cons call calls ih =>
    obtain ⟨nowMs, bytes⟩ := call
    obtain ⟨earlier, ordered⟩ := List.pairwise_cons.mp ordered
    have later : l.lastRefillMs ≤ nowMs := earlier nowMs List.mem_cons_self
    obtain ⟨allowed, bucket, answered, spent⟩ := l.allow_spends nowMs bytes
    have rest := ih (l := { l with bucket, lastRefillMs := nowMs }) ordered
    have refilled := l.refill_le nowMs
    rw [grantedWithin_cons answered]
    dsimp only at rest
    by_cases inTime : nowMs ≤ till
    · rw [if_pos inTime] at rest
      rw [if_pos (later.trans inTime), show till - l.lastRefillMs = nowMs - l.lastRefillMs + (till - nowMs) by omega,
        Nat.mul_add]
      split <;> omega
    · rw [if_neg inTime] at rest
      simp [inTime]
      omega

/-- However the calls follow each other, what they are granted in any window of time is at most one second's
rate and what the window earns. -/
theorem grantedWithin_bounded (l : RateLimiter) (ordered : (calls.map Prod.fst).Pairwise (· ≤ ·)) (since till : Nat) :
    l.grantedWithin calls since till ≤
      l.rateBytesPerSec + l.rateBytesPerSec * (till - since) / 1000 := by
  induction calls generalizing l with
  | nil => exact Nat.zero_le _
  | cons call calls ih =>
    obtain ⟨nowMs, bytes⟩ := call
    obtain ⟨allowed, bucket, answered, spent⟩ := l.allow_spends nowMs bytes
    rw [grantedWithin_cons answered]
    by_cases begun : since ≤ nowMs
    · have rest := grantedWithin_le (l := { l with bucket, lastRefillMs := nowMs }) ordered since till
      have capped : l.refill nowMs ≤ l.rateBytesPerSec := min_le_right _ _
      dsimp only at rest
      by_cases inTime : nowMs ≤ till
      · have shorter : l.rateBytesPerSec * (till - nowMs) / 1000 ≤ l.rateBytesPerSec * (till - since) / 1000 :=
          Nat.div_le_div_right (Nat.mul_le_mul_left _ (by omega))
        rw [if_pos inTime] at rest
        rw [if_pos ⟨begun, inTime⟩]
        omega
      · rw [if_neg inTime] at rest
        simp [inTime]
        omega
    · simpa [begun] using ih { l with bucket, lastRefillMs := nowMs } ordered.of_cons

theorem grantedWithin_bounded_three :
    (new 1000 5000).grantedWithin [(0, 800), (500, 600), (500, 300)] 0 500 = 1400 ∧
      (new 1000 5000).grantedWithin [(0, 800), (500, 600), (500, 300)] 0 500 ≤ 1000 + 1000 * (500 - 0) / 1000 :=
  ⟨by decide, grantedWithin_bounded (new 1000 5000) (by decide) 0 500⟩

end RateLimiter

def perCircuitQueueBytes : Nat := 256 * 1024

def perPeerQueueBytes : Nat := 2 * 1024 * 1024

def maxQueuePeers : Nat := 1024

/-- `perCircuitBytes` is the legacy account of circuit zero. -/
structure QueueAccount where
  (perCircuitBytes perPeerBytes : Nat)
  peerQueues : OrderedMap Bytes Nat
  circuitQueues : OrderedMap (Bytes ×ₗ Nat) Nat

namespace QueueAccount
variable (q : QueueAccount) (peer : Bytes) (circuitId bytes : Nat)

def new : QueueAccount := { perCircuitBytes := 0, perPeerBytes := 0, peerQueues := .empty, circuitQueues := .empty }

/-- What a map says for a key, nothing for one that it does not have. -/
def amount {κ : Type} [LinearOrder κ] (queues : OrderedMap κ Nat) (key : κ) : Nat := (queues.get? key).getD 0

/-- `none` is `QueueError::Full`. -/
def acceptForCircuit : Option QueueAccount :=
  let key := toLex (peer, circuitId)
  (checkedAdd (amount q.circuitQueues key) bytes).bind fun circuit =>
    if circuit > perCircuitQueueBytes then none
    else (checkedAdd (amount q.peerQueues peer) bytes).bind fun peerTotal =>
      if peerTotal > perPeerQueueBytes then none
      else if (q.peerQueues.get? peer).isNone ∧ q.peerQueues.size ≥ maxQueuePeers then none
      else
        let peerQueues := q.peerQueues.insert peer peerTotal
        some { perCircuitBytes := if circuitId = 0 then circuit else q.perCircuitBytes
               perPeerBytes := peerQueues.sumBy id
               peerQueues, circuitQueues := q.circuitQueues.insert key circuit }

/-- Takes bytes from an entry, which goes when nothing is left. -/
def lower {κ : Type} [LinearOrder κ] (queues : OrderedMap κ Nat) (key : κ) (bytes : Nat) : OrderedMap κ Nat :=
  match queues.get? key with
  | none => queues
  | some total => if total - bytes = 0 then queues.erase key else queues.insert key (total - bytes)

def releaseForCircuit : QueueAccount :=
  let peerQueues := lower q.peerQueues peer bytes
  { perCircuitBytes := if circuitId = 0 then q.perCircuitBytes - bytes else q.perCircuitBytes
    perPeerBytes := peerQueues.sumBy id
    peerQueues, circuitQueues := lower q.circuitQueues (toLex (peer, circuitId)) bytes }

inductive Call
  | accept (peer : Bytes) (circuitId bytes : Nat)
  | release (peer : Bytes) (circuitId bytes : Nat)

/-- A refused call changes nothing. -/
def step (q : QueueAccount) : Call → QueueAccount
  | .accept peer circuitId bytes => (q.acceptForCircuit peer circuitId bytes).getD q
  | .release peer circuitId bytes => q.releaseForCircuit peer circuitId bytes

/-- The bytes in the queues of a peer's circuits. -/
def heldBy (circuitQueues : OrderedMap (Bytes ×ₗ Nat) Nat) (peer : Bytes) : Nat :=
  (circuitQueues.filter fun entry => (ofLex entry.1).1 = peer).sumBy id

/-- The bounds hold, and the total of the peers is their sum. -/
structure Bounded : Prop where
  circuits : ∀ key, amount q.circuitQueues key ≤ perCircuitQueueBytes
  peers : ∀ peer, amount q.peerQueues peer ≤ perPeerQueueBytes
  total : q.perPeerBytes = q.peerQueues.sumBy id

def Balanced : Prop := ∀ peer, amount q.peerQueues peer = heldBy q.circuitQueues peer

/-- What is released is in the circuit's queue, or no other circuit of the peer has anything. -/
def Covers : Call → Prop
  | .accept .. => True
  | .release peer circuitId bytes => bytes ≤ amount q.circuitQueues (toLex (peer, circuitId)) ∨
      amount q.peerQueues peer = amount q.circuitQueues (toLex (peer, circuitId))

section
variable {κ : Type} [LinearOrder κ] (queues : OrderedMap κ Nat) (key other : κ)

theorem amount_insert (total : Nat) :
    amount (queues.insert key total) other = if other = key then total else amount queues other := by
  rw [amount, get?_insert]
  split <;> rfl

theorem amount_lower : amount (lower queues key bytes) other =
    if other = key then amount queues key - bytes else amount queues other := by
  unfold lower
  split
  · next missing =>
    split
    · next here => simp [amount, here, missing]
    · rfl
  next total found =>
  have held : amount queues key = total := by rw [amount, found]; rfl
  split
  · next gone =>
    rw [amount, get?_erase]
    split
    · rw [held, gone]; rfl
    · rfl
  · rw [amount_insert, held]

theorem erase_lower : (lower queues key bytes).erase key = queues.erase key := by
  unfold lower
  split
  · rfl
  split
  · exact erase_of_get?_eq_none (by rw [get?_erase, if_pos rfl])
  · exact erase_insert_self

end

/-- The bytes in the queues of a peer are those in one of the queues and those in the others. -/
theorem heldBy_erase (queues : OrderedMap (Bytes ×ₗ Nat) Nat) (key : Bytes ×ₗ Nat) (peer : Bytes) :
    heldBy queues peer =
      heldBy (queues.erase key) peer + if (ofLex key).1 = peer then amount queues key else 0 := by
  have parted : ((queues.erase key).filter fun entry => (ofLex entry.1).1 = peer) =
      (queues.filter fun entry => (ofLex entry.1).1 = peer).erase key :=
    ext_mem fun entry => by simp only [mem_filter, mem_erase, and_right_comm]
  rw [heldBy, heldBy, parted]
  by_cases own : (ofLex key).1 = peer
  · have kept : (queues.filter fun entry => (ofLex entry.1).1 = peer).get? key = queues.get? key :=
      get?_filter_of_keep fun _ _ => decide_eq_true own
    rw [if_pos own, amount, ← kept]
    cases found : (queues.filter fun entry => (ofLex entry.1).1 = peer).get? key with
    | none => rw [erase_of_get?_eq_none found]; rfl
    | some total => exact (sumBy_erase found id).symm
  · rw [if_neg own, erase_of_get?_eq_none]
    · rfl
    · exact get?_eq_none.mpr fun total member => own (of_decide_eq_true (mem_filter.mp member).2)

variable {q q' : QueueAccount} {peer : Bytes} {circuitId bytes : Nat}

theorem acceptForCircuit_some (accepted : q.acceptForCircuit peer circuitId bytes = some q') :
    amount q.circuitQueues (toLex (peer, circuitId)) + bytes ≤ perCircuitQueueBytes ∧
      amount q.peerQueues peer + bytes ≤ perPeerQueueBytes ∧
      q'.circuitQueues = q.circuitQueues.insert (toLex (peer, circuitId))
        (amount q.circuitQueues (toLex (peer, circuitId)) + bytes) ∧
      q'.peerQueues = q.peerQueues.insert peer (amount q.peerQueues peer + bytes) ∧
      q'.perPeerBytes = q'.peerQueues.sumBy id := by
  obtain ⟨circuit, counted, accepted⟩ := Option.bind_eq_some_iff.mp accepted
  obtain ⟨-, rfl⟩ := checkedAdd_some.mp counted
  split at accepted
  · cases accepted
  next fits =>
  obtain ⟨total, counted, accepted⟩ := Option.bind_eq_some_iff.mp accepted
  obtain ⟨-, rfl⟩ := checkedAdd_some.mp counted
  split at accepted
  · cases accepted
  next within =>
  split at accepted
  · cases accepted
  · cases accepted
    exact ⟨Nat.not_lt.mp fits, Nat.not_lt.mp within, rfl, rfl, rfl⟩

theorem step_bounded (bounded : q.Bounded) (call : Call) : (q.step call).Bounded := by
  cases call with
  | accept peer circuitId bytes =>
    rw [step]
    cases accepted : q.acceptForCircuit peer circuitId bytes with
    | none => exact bounded
    | some q' =>
      obtain ⟨circuit, total, circuits, peers, sum⟩ := acceptForCircuit_some accepted
      refine ⟨fun key => ?_, fun other => ?_, sum⟩
      · rw [Option.getD_some, circuits, amount_insert]
        split
        · exact circuit
        · exact bounded.circuits key
      · rw [Option.getD_some, peers, amount_insert]
        split
        · exact total
        · exact bounded.peers other
  | release peer circuitId bytes =>
    have lowered : ∀ {κ : Type} [LinearOrder κ] {queues : OrderedMap κ Nat} {bound : Nat} (key : κ),
        (∀ other, amount queues other ≤ bound) → ∀ other, amount (lower queues key bytes) other ≤ bound := by
      intro κ _ queues bound key within other
      rw [amount_lower]
      split
      · exact (Nat.sub_le _ _).trans (within key)
      · exact within other
    exact ⟨lowered _ bounded.circuits, lowered _ bounded.peers, rfl⟩

/-- From a balanced account only a release that is not covered leads to one that is not. -/
theorem step_balanced_iff (balanced : q.Balanced) (call : Call) : (q.step call).Balanced ↔ q.Covers call := by
  cases call with
  | accept peer circuitId bytes =>
    refine iff_of_true (fun other => ?_) trivial
    rw [step]
    cases accepted : q.acceptForCircuit peer circuitId bytes with
    | none => exact balanced other
    | some q' =>
      obtain ⟨-, -, circuits, peers, -⟩ := acceptForCircuit_some accepted
      have before := heldBy_erase q.circuitQueues (toLex (peer, circuitId)) other
      rw [Option.getD_some, peers, circuits, amount_insert, heldBy_erase _ (toLex (peer, circuitId)),
        erase_insert_self, amount_insert, if_pos rfl]
      rw [← balanced] at before
      by_cases own : other = peer
      · subst own
        simp at before ⊢
        omega
      · simp [own, Ne.symm own] at before ⊢
        exact before
  | release peer circuitId bytes =>
    have after : ∀ other, amount (q.step (.release peer circuitId bytes)).peerQueues other =
        heldBy (q.step (.release peer circuitId bytes)).circuitQueues other ↔
          (other = peer → q.Covers (.release peer circuitId bytes)) := by
      intro other
      have before := heldBy_erase q.circuitQueues (toLex (peer, circuitId)) other
      rw [← balanced] at before
      rw [step, releaseForCircuit, heldBy_erase _ (toLex (peer, circuitId)), erase_lower, amount_lower, amount_lower,
        if_pos rfl]
      by_cases own : other = peer
      · subst own
        simp [Covers] at before ⊢
        omega
      · simp [own, Ne.symm own] at before ⊢
        exact before
    constructor
    · exact fun held => (after peer).mp (held peer) rfl
    · exact fun covers other => (after other).mpr fun _ => covers

/-- After every call of a run the account is right, just when every release in it is covered. -/
theorem accounts_throughout_iff (calls : List Call) :
    (∀ before after, calls = before ++ after →
      (before.foldl step new).Bounded ∧ (before.foldl step new).Balanced) ↔ Meets Covers step new calls := by
  have kept : ∀ (q : QueueAccount) (call : Call), q.Bounded → q.Bounded ∧ q.Balanced →
      ((q.step call).Bounded ∧ (q.step call).Balanced ↔ q.Covers call) := by
    intro q call bounded held
    rw [and_iff_right (step_bounded bounded call)]
    exact step_balanced_iff held.2 call
  have bounded : new.Bounded := ⟨fun _ => Nat.zero_le _, fun _ => Nat.zero_le _, rfl⟩
  exact throughout_iff (fun _ call bounded => step_bounded bounded call) kept bounded ⟨bounded, fun _ => rfl⟩

/-- One circuit gives back more than it has: the bytes of the other are taken off the peer's total. -/
theorem release_unbalances : let q := [Call.accept [7] 1 10, .accept [7] 2 20, .release [7] 1 25].foldl step new
    amount q.peerQueues [7] = 5 ∧ heldBy q.circuitQueues [7] = 20 := by
  decide

end QueueAccount
end UniversalMesh.Relay
