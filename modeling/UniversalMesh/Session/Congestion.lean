import UniversalMesh.Lib.TokenBucket
import UniversalMesh.Session.Ack

/-! `umc-session/src/congestion.rs`: the Reno controller and its pacing bucket.
Tokens are signed, in thousandths of a byte. -/
namespace UniversalMesh.Session
open MachineWord

def smss : Nat := 1200
def initialCwnd : Nat := 10 * smss
def minCwnd : Nat := 2 * smss
def lossThreshold : Nat := 3

structure PacingState where
  (rateBps burstBytes : Nat)
  tokensMilli : Int
  lastSend : Option Instant
  deriving DecidableEq

namespace PacingState

def new : PacingState := { rateBps := 0, burstBytes := 0, tokensMilli := 0, lastSend := none }

/-- A number of bytes in token units. -/
def milli (bytes : Nat) : Int := clampI64 (toI64 bytes * 1000)

variable (s : PacingState)

/-- The rate of a window in bits per second, as `set_rate` computes it; 0 without a round-trip time. -/
def rateOf (cwnd smoothedRttMs : Nat) : Nat := saturatingMul (saturatingMul cwnd 8) 1000 / smoothedRttMs

/-- Pacing for a window. A bucket that is enabled starts full, a smaller burst clamps the tokens. -/
def setRate (cwnd smoothedRttMs smss : Nat) : PacingState :=
  let rateBps := rateOf cwnd smoothedRttMs
  let burstBytes := if smoothedRttMs = 0 then 0 else min (cwnd / 2) (saturatingMul smss 10)
  let tokensMilli :=
    if rateBps = 0 then 0
    else if s.rateBps = 0 then milli burstBytes
    else min s.tokensMilli (milli burstBytes)
  { s with rateBps, burstBytes, tokensMilli }

def tokensAtMilli (now : Instant) : Int :=
  match s.lastSend with
  | none => s.tokensMilli
  | some last =>
    let refilled := toI64 (saturatingMul s.rateBps (now - last) / 8)
    min (clampI64 (s.tokensMilli + refilled)) (milli s.burstBytes)

/-- The refill until now is credited at the present rate, and the next one is counted from now. -/
def materialize (now : Instant) : PacingState :=
  { s with
    tokensMilli := if s.lastSend.isSome then s.tokensAtMilli now else s.tokensMilli
    lastSend := some now }

/-- `next_send_time`. The subtraction of the tokens is exact here; the source's may overflow where a debt and the
packet together exceed an i64. -/
def nextSendTime (now : Instant) (needed : Nat) : Option Instant :=
  if s.rateBps = 0 then none
  else
    let tokens := s.tokensAtMilli now
    if tokens ≥ milli needed then none
    else
      let delayMs := toU64 ((clampI64 ((milli needed - tokens) * 8)).tdiv (toI64 s.rateBps))
      some (saturatingAdd now delayMs)

def consume (bytes : Nat) (now : Instant) : PacingState :=
  { s with tokensMilli := clampI64 (s.tokensAtMilli now - milli bytes), lastSend := some now }

end PacingState

structure Reno where
  (cwnd ssthresh inFlight smss consecutiveLosses smoothedRttMs : Nat)
  pacing : PacingState
  deriving DecidableEq

namespace Reno

def new : Reno :=
  { cwnd := initialCwnd, ssthresh := u64Max, inFlight := 0, smss := Session.smss
    consecutiveLosses := 0, smoothedRttMs := 0, pacing := .new }

variable (c : Reno)

def updatePacing : Reno :=
  { c with pacing := c.pacing.setRate c.cwnd c.smoothedRttMs c.smss }

def reducedWindow : Nat := max (c.cwnd / 2) minCwnd

def reduceWindow : Reno :=
  { c with ssthresh := c.reducedWindow, cwnd := c.reducedWindow }.updatePacing

/-- The window of `on_ack`: it grows by the bytes in slow start, and by a packet a round trip after it. -/
def grownWindow (acked : Nat) : Nat :=
  if c.cwnd < c.ssthresh then saturatingAdd c.cwnd acked
  else saturatingAdd c.cwnd (saturatingMul c.smss acked / c.cwnd)

def onAck (acked : Nat) : Reno :=
  { c with consecutiveLosses := 0, cwnd := c.grownWindow acked }.updatePacing

def onLoss (lostBytes : Nat) : Reno :=
  { c with inFlight := c.inFlight - lostBytes, consecutiveLosses := 0 }.reduceWindow

variable (bytes : Nat)

def onPacketSent : Reno :=
  { c with inFlight := saturatingAdd c.inFlight bytes }

def onPacketAcknowledged : Reno :=
  { c with inFlight := c.inFlight - bytes }

/-- `on_packet_lost`: the third consecutive loss reduces the window. -/
def onPacketLost : Reno :=
  let c := { c with inFlight := c.inFlight - bytes, consecutiveLosses := c.consecutiveLosses + 1 }
  if c.consecutiveLosses ≥ lossThreshold then { c with consecutiveLosses := 0 }.reduceWindow else c

def sendAllowance : Nat := c.cwnd - c.inFlight

def setSmoothedRtt (ms : Nat) (now : Instant) : Reno :=
  if c.smoothedRttMs = ms then c
  else { c with smoothedRttMs := ms, pacing := c.pacing.materialize now }.updatePacing

def consumePacing (now : Instant) : Reno :=
  { c with pacing := c.pacing.consume bytes now }

end Reno

/-! `umc-session/src/rtt.rs` and `loss.rs`: the round-trip estimate, the probe
timeout and the detection of lost packets. -/

def timerGranularityMs : Nat := 1
def defaultPtoMs : Nat := 1000
def packetThreshold : Nat := 3

structure RttEstimator where
  (latestRtt minRtt smoothedRtt rttVariance : Nat)
  initialized : Bool
  deriving DecidableEq

namespace RttEstimator

def new : RttEstimator :=
  { latestRtt := 0, minRtt := 0, smoothedRtt := 0, rttVariance := 0, initialized := false }

def sample (rtt : RttEstimator) (sampleMs : Nat) : RttEstimator :=
  if rtt.initialized then
    let absDiff := max rtt.smoothedRtt sampleMs - min rtt.smoothedRtt sampleMs
    { latestRtt := sampleMs, minRtt := min rtt.minRtt sampleMs
      smoothedRtt := (7 * rtt.smoothedRtt + sampleMs) / 8
      rttVariance := (3 * rtt.rttVariance + absDiff) / 4, initialized := true }
  else
    { latestRtt := sampleMs, minRtt := sampleMs, smoothedRtt := sampleMs
      rttVariance := sampleMs / 2, initialized := true }

end RttEstimator

structure LossDetector where
  maxAckDelayMs : Nat
  deriving DecidableEq

namespace LossDetector

def pto (d : LossDetector) (rtt : RttEstimator) : Nat :=
  if rtt.initialized then
    rtt.smoothedRtt + max (4 * rtt.rttVariance) timerGranularityMs + d.maxAckDelayMs
  else defaultPtoMs

def packetThresholdLost (sentPn largestAcked : Nat) : Bool := largestAcked ≥ sentPn + packetThreshold

def timeThresholdLost (rtt : RttEstimator) (sentAt now : Instant) (higherAcked : Bool) : Bool :=
  higherAcked && rtt.initialized && now - sentAt ≥ 9 * max rtt.latestRtt rtt.smoothedRtt / 8

def persistentCongestion (pto : Nat) (oldestLostAt newestLostAt : Instant) : Bool :=
  newestLostAt - oldestLostAt ≥ 3 * pto

/-- The test of `detect_lost_packets` for one packet. -/
def declaresLost (rtt : RttEstimator) (now : Instant) (largestAcked : Nat) (p : SentPacket) : Bool :=
  packetThresholdLost p.packetNumber largestAcked ||
    timeThresholdLost rtt p.sentAt now (largestAcked > p.packetNumber)

end LossDetector

/-- `detect_lost_packets`: the numbers lost, and the queue rebuilt from the rest. -/
def detectLostPackets (s : AckSendState) (rtt : RttEstimator) (now : Instant) (largestAcked : Nat) :
    List Nat × AckSendState :=
  let lost p := LossDetector.declaresLost rtt now largestAcked p
  ((s.sent.filter lost).map SentPacket.packetNumber,
    (s.sent.filter fun p => !lost p).foldl (fun state p => (state.recordSent p).2) .new)

theorem foldl_recordSent {queue : AckSendState}
    (room : queue.sent.length + packets.length ≤ maxOutstandingPackets) :
    (packets.foldl (fun state p => (state.recordSent p).2) queue).sent = queue.sent ++ packets := by
  induction packets generalizing queue with
  | nil => simp
  | cons p packets ih =>
    rw [List.length_cons] at room
    have appended : (queue.recordSent p).2.sent = queue.sent ++ [p] := by
      rw [AckSendState.recordSent, dif_neg (by omega)]
    rw [List.foldl_cons, ih (by simp [appended]; omega), appended, List.append_assoc]
    rfl

theorem detectLostPackets_sent (s : AckSendState) (rtt : RttEstimator) (now : Instant) (largestAcked : Nat) :
    (detectLostPackets s rtt now largestAcked).2.sent =
      s.sent.filter fun p => !LossDetector.declaresLost rtt now largestAcked p := by
  have room : (s.sent.filter fun p => !LossDetector.declaresLost rtt now largestAcked p).length ≤
      maxOutstandingPackets := (List.length_filter_le ..).trans s.bounded
  have empty : AckSendState.new.sent = [] := rfl
  exact foldl_recordSent (by simpa [empty] using room)

/-! The pacing bucket at a fixed rate. Its fixed-point arithmetic saturates at 64 bits; while eight times the
burst and the rate fit, it is the token bucket of the integers, and the bytes sent are bounded by the burst, the
elapsed time and one millisecond at the rate. -/

namespace PacingState
variable {s : PacingState}

/-- The bucket in unbounded arithmetic, in thousandths of a byte: a millisecond earns an eighth of the bits per
second. -/
def bucket (s : PacingState) : TokenBucket :=
  { rate := s.rateBps, period := 8, capacity := 1000 * s.burstBytes, level := s.tokensMilli, anchor := s.lastSend }

/-- Eight times the largest deficit, in thousandths of a byte, is a 64-bit number. -/
def Representable (s : PacingState) : Prop := (8000 * s.burstBytes + s.rateBps + 7 : Nat) ≤ i64Max

/-- No operation on packets within the burst saturates: tokens, wait and charge are those of the unbounded
bucket, and the instant returned is a 64-bit number. -/
structure Unsaturated (s : PacingState) : Prop where
  tokens : ∀ now, s.tokensAtMilli now = s.bucket.available now
  wait : ∀ now needed, s.rateBps ≠ 0 → needed ≤ s.burstBytes → s.nextSendTime now needed =
    if (1000 * needed : Nat) ≤ s.bucket.available now then none
    else some (saturatingAdd now (s.bucket.delay now (1000 * needed)))
  charge : ∀ bytes now, bytes ≤ s.burstBytes → clampI64 (s.tokensAtMilli now - milli bytes) =
    s.bucket.available now - (1000 * bytes : Nat)

/-- What a paced bucket holds and owes is representable, and it is unlimited only if it holds nothing. -/
structure Regular (s : PacingState) : Prop where
  representable : s.Representable
  solvent : s.bucket.Solvent
  limited : s.rateBps = 0 → s.burstBytes = 0

theorem Representable.milli_eq (representable : s.Representable) (fits : bytes ≤ s.burstBytes) :
    milli bytes = (1000 * bytes : Nat) := by
  unfold Representable i64Max at representable
  simp only [milli, toI64, clampI64, i64Max]
  omega

namespace Regular

section
variable (regular : s.Regular)
include regular

/-- The level is above the debt of one millisecond. -/
theorem level_le_available (now : Instant) : -(s.rateBps + 8 : Int) < 8 * s.bucket.available now := by
  have debt : -(s.rateBps + 8 : Int) < 8 * s.tokensMilli := regular.solvent.debt
  unfold TokenBucket.available
  split
  · exact debt
  · simp only [bucket]
    omega

theorem tokensAtMilli_eq (now : Instant) : s.tokensAtMilli now = s.bucket.available now := by
  have representable := regular.representable
  have debt : -(s.rateBps + 8 : Int) < 8 * s.tokensMilli := regular.solvent.debt
  unfold tokensAtMilli TokenBucket.available
  cases at_ : s.lastSend with
  | none => simp only [bucket, at_]
  | some last =>
    simp only [bucket, at_, TokenBucket.earned]
    rw [representable.milli_eq le_rfl]
    unfold Representable i64Max at representable
    -- Where the product saturates, both refills fill the bucket.
    simp only [saturatingMul, toI64, clampI64, u64Max, i64Max]
    omega

theorem nextSendTime_eq (now : Instant) (limited : s.rateBps ≠ 0)
    (fits : needed ≤ s.burstBytes) : s.nextSendTime now needed =
      if (1000 * needed : Nat) ≤ s.bucket.available now then none
      else some (saturatingAdd now (s.bucket.delay now (1000 * needed))) := by
  have representable := regular.representable
  have debt := regular.level_le_available now
  unfold nextSendTime
  rw [if_neg limited, regular.tokensAtMilli_eq now, representable.milli_eq fits]
  unfold Representable at representable
  by_cases covered : (1000 * needed : Nat) ≤ s.bucket.available now
  · rw [if_pos covered, if_pos covered]
  · have rate : toI64 s.rateBps = s.rateBps := by
      simp only [toI64]
      omega
    have deficit : clampI64 (((1000 * needed : Nat) - s.bucket.available now) * 8) =
        ((1000 * needed : Nat) - s.bucket.available now) * 8 := by
      simp only [clampI64]
      omega
    have positive : 0 ≤ ((1000 * needed : Nat) - s.bucket.available now) * 8 := by omega
    have wait := Int.ediv_nonneg positive (Int.natCast_nonneg s.rateBps)
    rw [if_neg covered, if_neg covered, rate, deficit, Int.tdiv_eq_ediv_of_nonneg positive, toU64,
      if_neg (not_lt.mpr wait)]
    rfl

theorem charge_eq (fits : bytes ≤ s.burstBytes) (now : Instant) :
    clampI64 (s.tokensAtMilli now - milli bytes) = s.bucket.available now - (1000 * bytes : Nat) := by
  have representable := regular.representable
  have debt := regular.level_le_available now
  have bounded := TokenBucket.available_le_capacity regular.solvent.bounded now
  have capacity : s.bucket.capacity = 1000 * s.burstBytes := rfl
  rw [regular.tokensAtMilli_eq now, representable.milli_eq fits]
  unfold Representable i64Max at representable
  simp only [clampI64, i64Max]
  omega

theorem unsaturated : s.Unsaturated where
  tokens := regular.tokensAtMilli_eq
  wait now _ := regular.nextSendTime_eq now
  charge _ now fits := regular.charge_eq fits now

end

end Regular

/-! Paced sends. -/

structure Send where
  queried : Instant
  bytes : Nat
  consumed : Instant

def Send.spending (x : Send) : TokenBucket.Spending :=
  { asked := x.queried, cost := 1000 * x.bytes, spent := x.consumed }

def send (s : PacingState) (x : Send) : PacingState := s.consume x.bytes x.consumed

/-- The packet fits the burst and leaves no earlier than the instant that the bucket named, on a clock that does
not run backwards and has not reached its end. -/
structure Paced (s : PacingState) (x : Send) : Prop where
  follows : ∀ last, s.lastSend = some last → last ≤ x.queried
  later : x.queried ≤ x.consumed
  clock : x.consumed < u64Max
  fits : x.bytes ≤ s.burstBytes
  waited : ∀ instant, s.nextSendTime x.queried x.bytes = some instant → instant ≤ x.consumed

section
variable (regular : s.Regular)
include regular

theorem Regular.bucket_send (fits : x.bytes ≤ s.burstBytes) : (s.send x).bucket = s.bucket.pay x.spending := by
  simp only [send, consume, bucket, TokenBucket.pay, Send.spending]
  rw [regular.charge_eq fits x.consumed]
  rfl

theorem Regular.due (paced : s.Paced x) : s.bucket.Due x.spending where
  follows := paced.follows
  later := paced.later
  fits := Nat.mul_le_mul_left 1000 paced.fits
  waited := by
    by_cases covered : ((1000 * x.bytes : Nat) : Int) ≤ s.bucket.available x.queried
    · exact .inl covered
    · by_cases unlimited : s.rateBps = 0
      · -- An unlimited bucket that holds nothing owes nothing, and the packet is empty.
        have empty := regular.limited unlimited
        have debt := regular.level_le_available x.queried
        have fits := paced.fits
        omega
      · have wait := regular.nextSendTime_eq x.queried unlimited paced.fits
        rw [if_neg covered] at wait
        have waited := paced.waited _ wait
        have clock := paced.clock
        refine .inr ⟨Nat.pos_of_ne_zero unlimited, ?_⟩
        exact (min_le_iff.mp waited).resolve_right (not_le.mpr clock)

theorem Regular.send (paced : s.Paced x) : (s.send x).Regular where
  representable := regular.representable
  limited := regular.limited
  solvent := by
    rw [regular.bucket_send paced.fits]
    exact regular.solvent.pay (regular.due paced)

/-- A run of paced sends is a run of spendings that are due. -/
theorem Regular.run (paced : Run.Meets Paced PacingState.send s sends) :
    (sends.foldl PacingState.send s).Regular ∧
      Run.Meets TokenBucket.Due TokenBucket.pay s.bucket (sends.map Send.spending) ∧
      (sends.foldl PacingState.send s).bucket = (sends.map Send.spending).foldl TokenBucket.pay s.bucket := by
  induction sends generalizing s with
  | nil => exact ⟨regular, trivial, rfl⟩
  | cons x rest ih =>
    have same := regular.bucket_send paced.1.fits
    obtain ⟨ended, due, agrees⟩ := ih (regular.send paced.1) paced.2
    rw [same] at due agrees
    exact ⟨ended, ⟨regular.due paced.1, due⟩, agrees⟩

end

/-! A bucket that is configured once. -/

/-- `set_rate` on a new state. -/
def configured (cwnd smoothedRttMs smss : Nat) : PacingState := new.setRate cwnd smoothedRttMs smss

variable (sends : List Send)

def bytesOf : Nat := (sends.map Send.bytes).sum

theorem total_spending : TokenBucket.total (sends.map Send.spending) = 1000 * bytesOf sends := by
  induction sends with
  | nil => rfl
  | cons x rest ih =>
    simp only [TokenBucket.total, bytesOf, List.map_cons, List.sum_cons] at ih ⊢
    rw [ih, Nat.mul_add]
    rfl

theorem unlimited_tokens (unlimited : s.rateBps = 0) (empty : s.tokensMilli ≤ 0) (now : Instant) :
    s.tokensAtMilli now ≤ 0 := by
  simp only [tokensAtMilli, unlimited, saturatingMul, toI64, clampI64, i64Max]
  cases s.lastSend with
  | none => exact empty
  | some last =>
    dsimp only
    omega

theorem unlimited_run (unlimited : s.rateBps = 0) (empty : s.tokensMilli ≤ 0) :
    (sends.foldl send s).rateBps = 0 ∧ (sends.foldl send s).tokensMilli ≤ 0 := by
  induction sends generalizing s with
  | nil => exact ⟨unlimited, empty⟩
  | cons x rest ih =>
    refine ih (s := s.send x) unlimited ?_
    have none_ := unlimited_tokens unlimited empty x.consumed
    simp only [send, consume, milli, toI64, clampI64, i64Max]
    omega

/-- A configured bucket that is full at some time of a run starts full, or it is unlimited and holds nothing. -/
theorem configured_regular {sends : List Send} (representable : b.Representable)
    (configured : b.tokensMilli = if b.rateBps = 0 then 0 else milli b.burstBytes)
    (full : (sends.foldl send b).tokensAtMilli since = milli b.burstBytes) : b.Regular := by
  have exact_ := representable.milli_eq le_rfl
  by_cases unlimited : b.rateBps = 0
  · have level : b.tokensMilli = 0 := configured.trans (if_pos unlimited)
    have empty : b.burstBytes = 0 := by
      obtain ⟨rate, tokens⟩ := unlimited_run sends unlimited level.le
      have none_ := unlimited_tokens rate tokens since
      omega
    refine ⟨representable, ⟨Nat.succ_pos 7, ?_, ?_, fun _ => ?_⟩, fun _ => empty⟩
    · simp [bucket, level]
    · simp only [bucket, level]
      omega
    · simp [bucket, level, empty]
  · have level : b.tokensMilli = milli b.burstBytes := configured.trans (if_neg unlimited)
    rw [exact_] at level
    refine ⟨representable, ⟨Nat.succ_pos 7, level.le, ?_, fun _ => level⟩, fun off => absurd off unlimited⟩
    exact TokenBucket.no_debt (Nat.succ_pos 7) (by rw [bucket, level]; exact Int.natCast_nonneg _)

/-- The pacing bound. A bucket is configured once, in representable arithmetic; its packets are at most the
burst and leave when the bucket says. Then from any instant at which it is full, the bytes that leave are at
most the burst, what the rate grants and one millisecond of it (bits per second over milliseconds are 8000 times
bytes), and nothing saturates. -/
theorem paced_bytes_le {cwnd smoothedRttMs smss : Nat} {p : PacingState} {earlier later : List Send} {t0 t1 : Instant}
    (set : configured cwnd smoothedRttMs smss = p) (representable : p.Representable)
    (paced : Run.Meets Paced send p (earlier ++ later))
    (full : (earlier.foldl send p).tokensAtMilli t0 = milli p.burstBytes)
    (within : ∀ x ∈ later, t0 ≤ x.consumed ∧ x.consumed ≤ t1) :
    8000 * bytesOf later ≤ 8000 * p.burstBytes + p.rateBps * (t1 - t0) + p.rateBps ∧
      ((earlier ++ later).foldl send p).Unsaturated := by
  have regular := configured_regular representable (by simp [← set, configured, setRate, new]) full
  obtain ⟨first, second⟩ := Run.meets_append.mp paced
  obtain ⟨filled, -, agrees⟩ := regular.run first
  obtain ⟨ended, due, -⟩ := filled.run second
  refine ⟨?_, by rw [List.foldl_append]; exact ended.unsaturated⟩
  obtain ⟨rate, period, capacity⟩ := TokenBucket.run_parameters p.bucket
  rw [← agrees] at rate period capacity
  have whole : (earlier.foldl send p).bucket.available t0 = (earlier.foldl send p).bucket.capacity := by
    rw [← filled.tokensAtMilli_eq, full, capacity]
    exact representable.milli_eq le_rfl
  have begun : ∀ x ∈ later.map Send.spending, t0 ≤ x.spent := by
    simp only [List.forall_mem_map]
    exact fun x member => (within x member).1
  have ends : ∀ x ∈ later.map Send.spending, x.spent ≤ t1 := by
    simp only [List.forall_mem_map]
    exact fun x member => (within x member).2
  have bound := TokenBucket.total_le whole filled.solvent.bounded due begun ends
  rw [rate, period, capacity, total_spending] at bound
  simp only [bucket] at bound
  omega

/-- The burst of 6000 bytes and one packet ten milliseconds later, the instant named for it. -/
def burstAndPacket : List Send := [⟨0, 6000, 0⟩, ⟨0, 1200, 10⟩]

theorem paced_bytes_le_burst_and_packet :
    let p := configured 12000 100 1200
    p.rateBps = 960000 ∧ p.burstBytes = 6000 ∧
      8000 * bytesOf burstAndPacket ≤ 8000 * 6000 + 960000 * (10 - 0) + 960000 := by
  intro p
  refine ⟨by decide, by decide, ?_⟩
  have representable : p.Representable := by
    unfold Representable
    decide
  have first : p.Paced ⟨0, 6000, 0⟩ := ⟨nofun, le_rfl, by decide, by decide, by decide⟩
  have second : (p.send ⟨0, 6000, 0⟩).Paced ⟨0, 1200, 10⟩ :=
    ⟨by decide, by decide, by decide, by decide, by decide⟩
  exact (@paced_bytes_le 12000 100 1200 p [] burstAndPacket 0 10 rfl representable
    ⟨first, second, trivial⟩ (by decide) (by decide)).1

/-- Rate and burst as large as they get, and two packets of the burst. -/
def hugeBursts : List Send := [⟨0, isizeMax, 0⟩, ⟨0, isizeMax, 1⟩]

/-- The burst in thousandths of a byte saturates: the second packet waits one millisecond only, and the two
exceed the bound by almost a burst. -/
theorem saturated_bursts_exceed :
    (configured u64Max 1 u64Max).burstBytes = isizeMax ∧
      Run.Meets Paced send (configured u64Max 1 u64Max) hugeBursts ∧
      (configured u64Max 1 u64Max).tokensAtMilli 0 = milli isizeMax ∧
      8000 * isizeMax + (configured u64Max 1 u64Max).rateBps * (1 - 0) + (configured u64Max 1 u64Max).rateBps <
        8000 * bytesOf hugeBursts := by
  have first : (configured u64Max 1 u64Max).Paced ⟨0, isizeMax, 0⟩ :=
    ⟨nofun, le_rfl, by decide, by decide, by decide⟩
  have second : ((configured u64Max 1 u64Max).send ⟨0, isizeMax, 0⟩).Paced ⟨0, isizeMax, 1⟩ :=
    ⟨by decide, by decide, by decide, by decide, by decide⟩
  exact ⟨by decide, ⟨first, second, trivial⟩, by decide, by decide⟩

end PacingState

/-! Changes of the pacing rate. The bucket credits the time since its anchor at the rate it has now, so the rate
may only change at the instant at which the bucket was settled. `set_smoothed_rtt` settles it first; the window
events (`on_ack`, `on_loss`, `on_packet_lost`) do not. -/

/-- An event on the controller that touches its pacing. -/
inductive RenoEvent where
  | ack (bytes : Nat) | loss (bytes : Nat) | packetLost (bytes : Nat) | smoothedRtt (ms : Nat)
  | paced (bytes : Nat)
  deriving DecidableEq

namespace PacingState
variable {s : PacingState} {now : Instant}

/-- The tokens are a 64-bit number and within the burst. -/
structure InRange (s : PacingState) : Prop where
  lower : -i64Max - 1 ≤ s.tokensMilli
  upper : s.tokensMilli ≤ milli s.burstBytes

theorem milli_bounds (bytes : Nat) : 0 ≤ milli bytes ∧ milli bytes ≤ i64Max := by
  simp only [milli, toI64, clampI64, i64Max]
  omega

theorem new_inRange : new.InRange := ⟨by decide, by decide⟩

theorem InRange.tokensAtMilli (range : s.InRange) (now : Instant) :
    -i64Max - 1 ≤ s.tokensAtMilli now ∧ s.tokensAtMilli now ≤ milli s.burstBytes := by
  obtain ⟨lower, upper⟩ := range
  obtain ⟨nonneg, -⟩ := milli_bounds s.burstBytes
  unfold PacingState.tokensAtMilli
  cases s.lastSend with
  | none => exact ⟨lower, upper⟩
  | some last =>
    simp only [clampI64, i64Max] at lower ⊢
    omega

theorem InRange.setRate (range : s.InRange) (cwnd smoothedRttMs smss : Nat) :
    (s.setRate cwnd smoothedRttMs smss).InRange := by
  have lower := range.lower
  simp only [PacingState.setRate]
  refine ⟨?_, ?_⟩
  · obtain ⟨nonneg, -⟩ :=
      milli_bounds (if smoothedRttMs = 0 then 0 else min (cwnd / 2) (saturatingMul smss 10))
    unfold i64Max at lower ⊢
    dsimp only
    split
    · omega
    · split
      · omega
      · omega
  · obtain ⟨nonneg, -⟩ :=
      milli_bounds (if smoothedRttMs = 0 then 0 else min (cwnd / 2) (saturatingMul smss 10))
    dsimp only
    split
    · exact nonneg
    · split
      · exact le_rfl
      · exact min_le_right _ _

theorem InRange.consume (range : s.InRange) (bytes : Nat) (now : Instant) : (s.consume bytes now).InRange := by
  obtain ⟨-, upper⟩ := range.tokensAtMilli now
  obtain ⟨cost, -⟩ := milli_bounds bytes
  obtain ⟨nonneg, -⟩ := milli_bounds s.burstBytes
  refine ⟨?_, ?_⟩
  · exact le_max_left _ _
  · simp only [PacingState.consume, clampI64, i64Max]
    omega

theorem materialize_eq :
    s.materialize now = { s with tokensMilli := s.tokensAtMilli now, lastSend := some now } := by
  unfold materialize PacingState.tokensAtMilli
  cases s.lastSend <;> rfl

theorem InRange.materialize (range : s.InRange) (now : Instant) : (s.materialize now).InRange := by
  obtain ⟨lower, upper⟩ := range.tokensAtMilli now
  rw [materialize_eq]
  exact ⟨lower, upper⟩

theorem InRange.tokensAtMilli_settled (range : s.InRange) (settled : ∀ last, s.lastSend = some last → now ≤ last) :
    s.tokensAtMilli now = s.tokensMilli := by
  obtain ⟨lower, upper⟩ := range
  obtain ⟨-, most⟩ := milli_bounds s.burstBytes
  unfold PacingState.tokensAtMilli
  cases at_ : s.lastSend with
  | none => rfl
  | some last =>
    have none_ : now - last = 0 := Nat.sub_eq_zero_of_le (settled last at_)
    simp only [none_, saturatingMul, toI64, clampI64, i64Max] at lower most ⊢
    omega

theorem InRange.setRate_keeps (range : s.InRange) {cwnd smoothedRttMs smss : Nat} (paced : s.rateBps ≠ 0)
    (still : (s.setRate cwnd smoothedRttMs smss).rateBps ≠ 0)
    (settled : ∀ last, s.lastSend = some last → now ≤ last) :
    (s.setRate cwnd smoothedRttMs smss).tokensAtMilli now =
      min (s.tokensAtMilli now) (milli (s.setRate cwnd smoothedRttMs smss).burstBytes) := by
  rw [(range.setRate cwnd smoothedRttMs smss).tokensAtMilli_settled settled, range.tokensAtMilli_settled settled]
  exact (if_neg still).trans (if_neg paced)

end PacingState

namespace Reno

def handle (c : Reno) (now : Instant) : RenoEvent → Reno
  | .ack bytes => c.onAck bytes
  | .loss bytes => c.onLoss bytes
  | .packetLost bytes => c.onPacketLost bytes
  | .smoothedRtt ms => c.setSmoothedRtt ms now
  | .paced bytes => c.consumePacing bytes now

/-- The window that an event sets, if it sets one. -/
def newWindow (c : Reno) : RenoEvent → Option Nat
  | .ack bytes => some (c.grownWindow bytes)
  | .loss _ => some c.reducedWindow
  | .packetLost _ => if c.consecutiveLosses + 1 ≥ lossThreshold then some c.reducedWindow else none
  | .smoothedRtt _ | .paced _ => none

/-- A new window sets the rate as the bucket is; a new round-trip time settles the bucket and then sets the
rate; a packet is charged. -/
theorem handle_pacing (c : Reno) (now : Instant) (event : RenoEvent) :
    (∃ cwnd, c.newWindow event = some cwnd ∧
      (c.handle now event).pacing = c.pacing.setRate cwnd c.smoothedRttMs c.smss) ∨
    c.newWindow event = none ∧
      ((c.handle now event).pacing = c.pacing ∨
        (∃ ms, (c.handle now event).pacing = (c.pacing.materialize now).setRate c.cwnd ms c.smss) ∨
        ∃ bytes, (c.handle now event).pacing = c.pacing.consume bytes now) := by
  cases event with
  | ack bytes => exact .inl ⟨_, rfl, rfl⟩
  | loss bytes => exact .inl ⟨_, rfl, rfl⟩
  | packetLost bytes =>
    simp only [handle, newWindow, onPacketLost]
    split
    · exact .inl ⟨_, rfl, rfl⟩
    · exact .inr ⟨rfl, .inl rfl⟩
  | smoothedRtt ms =>
    simp only [handle, setSmoothedRtt]
    split
    · exact .inr ⟨rfl, .inl rfl⟩
    · exact .inr ⟨rfl, .inr (.inl ⟨ms, rfl⟩)⟩
  | paced bytes => exact .inr ⟨rfl, .inr (.inr ⟨bytes, rfl⟩)⟩

/-- The controller, the clock, and the instant since which the present rate is in force. -/
structure Timeline where
  controller : Reno
  (clock since : Instant)

namespace Timeline

def start : Timeline := { controller := .new, clock := 0, since := 0 }

def step (t : Timeline) (x : Nat × RenoEvent) : Timeline :=
  let controller := t.controller.handle (t.clock + x.1) x.2
  { controller, clock := t.clock + x.1
    since := if controller.pacing.rateBps = t.controller.pacing.rateBps then t.since else t.clock + x.1 }

/-- The bucket credits at its rate only time at which the rate was in force. -/
def CreditsRateInForce (t : Timeline) : Prop :=
  t.controller.pacing.rateBps ≠ 0 → ∀ last, t.controller.pacing.lastSend = some last → t.since ≤ last

/-- If the event changes the rate while pacing is on, the tokens at its instant are those before it, up to the
burst. -/
def KeepsTokens (t : Timeline) (x : Nat × RenoEvent) : Prop :=
  (t.step x).controller.pacing.rateBps ≠ t.controller.pacing.rateBps →
    t.controller.pacing.rateBps ≠ 0 → (t.step x).controller.pacing.rateBps ≠ 0 →
    (t.step x).controller.pacing.tokensAtMilli (t.clock + x.1) =
      min (t.controller.pacing.tokensAtMilli (t.clock + x.1))
        (PacingState.milli (t.step x).controller.pacing.burstBytes)

/-- A new window, if its rate is another one and not 0, comes at the instant at which the bucket was settled
last, or before it ever was. -/
def Settled (t : Timeline) (x : Nat × RenoEvent) : Prop :=
  ∀ cwnd, t.controller.newWindow x.2 = some cwnd →
    PacingState.rateOf cwnd t.controller.smoothedRttMs ≠ t.controller.pacing.rateBps →
    PacingState.rateOf cwnd t.controller.smoothedRttMs ≠ 0 →
    ∀ last, t.controller.pacing.lastSend = some last → t.clock + x.1 ≤ last

/-- Rate and anchor are not of the future, and the tokens are in range. -/
structure Regular (t : Timeline) : Prop where
  since : t.since ≤ t.clock
  anchor : ∀ last, t.controller.pacing.lastSend = some last → last ≤ t.clock
  range : t.controller.pacing.InRange

variable {t : Timeline} {x : Nat × RenoEvent}

theorem start_regular : start.Regular := ⟨le_rfl, nofun, PacingState.new_inRange⟩

theorem Regular.step (regular : t.Regular) (x : Nat × RenoEvent) : (t.step x).Regular := by
  have later : t.clock ≤ t.clock + x.1 := Nat.le_add_right _ _
  have kept : ∀ last, t.controller.pacing.lastSend = some last → last ≤ t.clock + x.1 := fun last at_ =>
    (regular.anchor last at_).trans later
  have moved : ∀ last, some (t.clock + x.1) = some last → last ≤ t.clock + x.1 := fun last at_ =>
    (Option.some.inj at_).ge
  have since : (t.step x).since ≤ t.clock + x.1 := by
    simp only [Timeline.step]
    split
    · exact regular.since.trans later
    · exact le_rfl
  rcases t.controller.handle_pacing (t.clock + x.1) x.2 with 
    ⟨cwnd, -, rated⟩ | ⟨-, same | ⟨ms, rated⟩ | ⟨bytes, charged⟩⟩
  · refine ⟨since, ?_, ?_⟩ <;> simp only [Timeline.step, rated]
    · exact kept
    · exact regular.range.setRate _ _ _
  · refine ⟨since, ?_, ?_⟩ <;> simp only [Timeline.step, same]
    · exact kept
    · exact regular.range
  · refine ⟨since, ?_, ?_⟩ <;> simp only [Timeline.step, rated]
    · exact moved
    · exact (regular.range.materialize _).setRate _ _ _
  · refine ⟨since, ?_, ?_⟩ <;> simp only [Timeline.step, charged]
    · exact moved
    · exact regular.range.consume _ _

/-- A step keeps the credit at the rate in force just if a window event that changes the rate finds the bucket
settled. -/
theorem creditsRateInForce_step_iff (regular : t.Regular) (credits : t.CreditsRateInForce) :
    (t.step x).CreditsRateInForce ↔ t.Settled x := by
  have begun : t.since ≤ t.clock + x.1 := regular.since.trans (Nat.le_add_right _ _)
  unfold CreditsRateInForce Settled
  simp only [Timeline.step]
  rcases t.controller.handle_pacing (t.clock + x.1) x.2 with
    ⟨cwnd, window, rated⟩ | ⟨none, same | ⟨ms, rated⟩ | ⟨bytes, charged⟩⟩
  · rw [rated, window]
    by_cases changed : PacingState.rateOf cwnd t.controller.smoothedRttMs = t.controller.pacing.rateBps
    · simp only [PacingState.setRate, changed, if_true, Option.some.injEq, forall_eq', ne_eq, not_true_eq_false,
        false_implies, iff_true]
      exact credits
    · simp only [PacingState.setRate, changed, if_false, Option.some.injEq, forall_eq', ne_eq,
        not_false_eq_true, true_implies]
  · simp only [same, none, if_true, reduceCtorEq, false_implies, implies_true, iff_true]
    exact credits
  · -- The bucket is settled now, and the present rate is in force by now.
    rw [rated]
    simp only [none, reduceCtorEq, false_implies, implies_true, iff_true]
    intro _ last at_
    rw [← Option.some.inj at_]
    split
    · exact begun
    · exact le_rfl
  · rw [charged]
    simp only [PacingState.consume, none, if_true, reduceCtorEq, false_implies, implies_true, iff_true]
    intro _ last at_
    rw [← Option.some.inj at_]
    exact begun

theorem Settled.keepsTokens (regular : t.Regular) (settled : t.Settled x) : t.KeepsTokens x := by
  unfold KeepsTokens
  simp only [Timeline.step]
  rcases t.controller.handle_pacing (t.clock + x.1) x.2 with
    ⟨cwnd, window, rated⟩ | ⟨-, same | ⟨ms, rated⟩ | ⟨bytes, charged⟩⟩
  · rw [rated]
    exact fun changed paced still => regular.range.setRate_keeps paced still (settled cwnd window changed still)
  · rw [same]
    exact fun changed => absurd rfl changed
  · rw [rated]
    intro _ paced still
    have range := regular.range.materialize (t.clock + x.1)
    have settled : ∀ last, (t.controller.pacing.materialize (t.clock + x.1)).lastSend = some last →
        t.clock + x.1 ≤ last := fun last at_ => (Option.some.inj at_).le
    rw [range.setRate_keeps paced still settled, range.tokensAtMilli_settled settled, PacingState.materialize_eq]
  · rw [charged]
    exact fun changed => absurd rfl changed

/-- Over every sequence of events, elapsed time is credited at the rate that was in force and every change of
the rate keeps the tokens, just if every window event that changes the rate finds the bucket settled at its
instant. -/
theorem rerating_iff (events : List (Nat × RenoEvent)) :
    ((∀ before after, events = before ++ after → (before.foldl step start).CreditsRateInForce) ∧
      Run.Meets KeepsTokens step start events) ↔ Run.Meets Settled step start events := by
  have initial : start.CreditsRateInForce := fun _ _ at_ => nomatch at_
  have credits : (∀ before after, events = before ++ after → (before.foldl step start).CreditsRateInForce) ↔
      Run.Meets Settled step start events :=
    Run.throughout_iff (fun _ x regular => Regular.step regular x)
      (fun _ _ regular held => creditsRateInForce_step_iff regular held) start_regular initial
  refine ⟨fun ⟨throughout, _⟩ => credits.mp throughout, fun settled => ⟨credits.mpr settled, ?_⟩⟩
  exact Run.meets_of_invariant (fun _ x regular _ => Regular.step regular x)
    (fun _ _ regular settled => Settled.keepsTokens regular settled) start_regular settled

/-- The round-trip time is measured, the burst leaves, and ten milliseconds later a window is acknowledged. -/
def ackAfterBurst : List (Nat × RenoEvent) := [(0, .smoothedRtt 100), (0, .paced 6000), (10, .ack 12000)]

/-- The acknowledgement doubles the rate and with it the tokens of the ten milliseconds before it. -/
theorem ack_recredits : let before := (ackAfterBurst.take 2).foldl step start
    let after := ackAfterBurst.foldl step start
    before.controller.pacing.rateBps = 960000 ∧ after.controller.pacing.rateBps = 1920000 ∧
      before.controller.pacing.tokensAtMilli 10 = 1200000 ∧ after.controller.pacing.tokensAtMilli 10 = 2400000 ∧
      after.controller.pacing.burstBytes = 12000 ∧ after.since = 10 ∧ after.controller.pacing.lastSend = some 0 := by
  decide

end Timeline
end Reno
end UniversalMesh.Session
