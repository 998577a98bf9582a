import UniversalMesh.Session.Flight

/-! `bins/umcd/src/session_task.rs`, the repair of losses: an inbound packet is fed to the session, an ACK in it
starts a loss pass over the sent queue, and a probe goes out when the peer stays silent. -/
namespace UniversalMesh.Daemon
open Wire Crypto Session

variable (crypto : Primitives) (s : Session)

/-- `parse_control_frames`: the space, the path and the frames of a packet that parses. -/
def parseControlFrames (bytes : Bytes) : Option (ShortPacketSpace × Nat × List Frame) :=
  match s.openInbound crypto bytes with
  | .error _ => none
  | .ok packet =>
    match parsePayload (.protectedSpace packet.space) packet.payload with
    | .error _ => none
    | .ok frames => some (packet.space, packet.pathId, frames)

/-- The largest number that the ACK frames of a packet acknowledge. -/
def largestAcked (frames : List Frame) : Option Nat :=
  (frames.filterMap fun
    | .ack f => some f.largestAcknowledged
    | _ => none).max?

variable (before : Session)

/-- The packets lost over three probe timeouts mark their path as degraded. Only the
ack-eliciting ones count. -/
def degradePath (pathId : Nat) (lost : List Nat) : Session :=
  let sentAt := ((lost.filterMap before.sentPacket?).filter (·.ackEliciting)).map SentPacket.sentAt
  match sentAt.min?, sentAt.max? with
  | some oldest, some newest =>
    if LossDetector.persistentCongestion (s.loss.pto s.rtt) oldest newest then
      (s.markPathDegraded pathId).2
    else s
  | _, _ => s

def leaveFlight (pn : Nat) : Session :=
  match before.sentPacket? pn with
  | none => s
  | some p => { s with congestion := s.congestion.onPacketLost p.size }

/-- One turn of the loop over the lost packets. A payload that is refused is kept. -/
def repairLost (now : Instant) (s : Session) (pn : Nat) : Option Bytes × Session :=
  match (leaveFlight s before pn).retransmit crypto pn now with
  | (.ok (some bytes), s) => (some bytes, s)
  | (.ok none, s) => (none, s.pruneRetransmitPayload pn)
  | (.error _, s) => (none, s)

/-- The loop over the lost packets, with the packets to send. -/
def repairAll (before : Session) (now : Instant) (s : Session) : List Nat → List Bytes × Session
  | [] => ([], s)
  | pn :: lost =>
    let (retransmit, s) := repairLost crypto before now s pn
    let (retransmits, s) := repairAll before now s lost
    (retransmit.toList ++ retransmits, s)

variable (now : Instant)

/-- The loss pass. Every lost packet leaves the sent queue before the loop. -/
def lossPass (pathId largestAcked : Nat) : List Bytes × Session :=
  let (lost, sent) := detectLostPackets s.sent s.rtt now largestAcked
  repairAll crypto s now (degradePath { s with sent } s pathId lost) lost

/-- The loss pass of an inbound packet: only for an ACK in the session data space. -/
def lossPassOf : Option (ShortPacketSpace × Nat × List Frame) → List Bytes × Session
  | some (.sessionData, pathId, frames) =>
    match largestAcked frames with
    | none => ([], s)
    | some largest => lossPass crypto s now pathId largest
  | _ => ([], s)

/-- The pacing follows the session's round-trip estimate. -/
def updatePacing : Session :=
  { s with congestion := s.congestion.setSmoothedRtt s.rtt.smoothedRtt now }

/-- The packet is fed to the session; whether it is processed further. `tail` is what the
entropy source fills into the answer to a stateless reset. -/
def feedSession (bytes : Bytes) (tail : Octets 16) : Bool × Session :=
  match s.onInbound crypto now bytes with
  | (.ok _, s) => (true, s)
  | (.error .statelessReset, s) => (true, (s.maybeEmitStatelessReset now tail bytes.length).2)
  | (.error _, s) => (false, s)

/-- `process_inbound_packet_on_links`, up to the pacing update: the retransmissions and
the session after them. -/
def processInbound (bytes : Bytes) (tail : Octets 16) : List Bytes × Session :=
  let frames := parseControlFrames crypto s bytes
  let (processed, s) := feedSession crypto s now bytes tail
  if processed then
    let (retransmits, s) := lossPassOf crypto s now frames
    (retransmits, updatePacing s now)
  else ([], s)

/-- The probe timeout: a PING while an ack-eliciting packet is in flight. -/
def probe : Option Bytes × Session :=
  if s.sent.sent.any fun p => p.ackEliciting && p.inFlight then
    let ping := (Varint.encode FrameType.ping.value).toOption.getD []
    match s.buildOutbound crypto now ping with
    | (.ok bytes, s) => (bytes, s)
    | (.error _, s) => (none, s)
  else (none, s)

end UniversalMesh.Daemon

/-! Whether every payload the session keeps can still be repaired. A payload is found again through the number
of its packet in the sent queue. The loss pass takes the lost packets out of the queue first and sends their
payloads again one by one, so one that the congestion window refuses is stranded. -/
namespace UniversalMesh.Session
open Wire Crypto OrderedMap

/-- The numbers of the packets in the sent queue. -/
def outstanding (s : Session) : List Nat := s.sent.sent.map SentPacket.packetNumber

/-- Every payload that is kept belongs to a packet in the sent queue, except for those given, and every packet
in the queue elicits an ACK. -/
structure RecoverableBut (pending : List Nat) (s : Session) : Prop where
  payloads : ∀ pn, (s.retransmitPayloads.get? pn).isSome = true → pn ∈ s.outstanding ∨ pn ∈ pending
  eliciting : ∀ p ∈ s.sent.sent, p.ackEliciting = true

variable {s s' : Session} {pending : List Nat} {pn : Nat}

theorem SameRecovery.recoverable (same : SameRecovery s s') (before : s.RecoverableBut pending) :
    s'.RecoverableBut pending := by
  refine ⟨?_, ?_⟩
  · rw [same.retained, outstanding, same.sent]
    exact before.payloads
  · rw [same.sent]
    exact before.eliciting

theorem RecoverableBut.of_enqueued {size : Nat}
    (queue : s.sent.sent = left ++ [.new pn .sessionData now size true 0])
    (kept : ∀ other, (s.retransmitPayloads.get? other).isSome = true →
      other = pn ∨ other ∈ left.map SentPacket.packetNumber ∨ other ∈ pending)
    (eliciting : ∀ p ∈ left, p.ackEliciting = true) : s.RecoverableBut pending := by
  refine ⟨fun other found => ?_, fun p member => ?_⟩
  · have numbers : s.outstanding = left.map SentPacket.packetNumber ++ [pn] := by
      rw [outstanding, queue, List.map_append]
      rfl
    rw [numbers, List.mem_append, List.mem_singleton]
    have := kept other found
    tauto
  · obtain old | new := List.mem_append.mp (queue ▸ member)
    · exact eliciting p old
    · rw [List.mem_singleton.mp new]
      rfl

theorem recordOutbound_recoverable (now : Instant) (payload : Bytes) (size : Nat)
    (before : s.RecoverableBut pending) : (s.recordOutbound now pn payload size).RecoverableBut pending := by
  have sentCases := s.sent.recordSent_cases (.new pn .sessionData now size true 0)
  have inserted : ∀ other, ((s.retransmitPayloads.insert pn payload).get? other).isSome = true →
      other = pn ∨ other ∈ s.outstanding ∨ other ∈ pending := fun other kept =>
    (isSome_get?_insert.mp kept).imp_right (before.payloads other)
  simp only [recordOutbound]
  generalize s.sent.recordSent (.new pn .sessionData now size true 0) = result at sentCases ⊢
  obtain ⟨evicted, queue⟩ := result
  obtain ⟨rfl, shape⟩ | ⟨oldest, rest, whole, gone, shape⟩ := sentCases
  · exact .of_enqueued shape inserted before.eliciting
  · rw [if_pos (before.eliciting oldest (by simp [whole]))] at gone
    obtain rfl : evicted = some (oldest.packetNumber, oldest.size) := gone
    refine .of_enqueued shape (fun other kept => ?_) fun p member =>
      before.eliciting p (by simp [whole, member])
    obtain ⟨differ, kept⟩ := isSome_get?_erase.mp kept
    have numbers : s.outstanding = oldest.packetNumber :: rest.map SentPacket.packetNumber := by
      rw [outstanding, whole, List.map_cons]
    have := inserted other kept
    rw [numbers, List.mem_cons] at this
    tauto

theorem buildOutboundInner_recoverable (crypto : Primitives) (pathId : Nat) (now : Instant)
    (payload : Bytes) (before : s.RecoverableBut pending) :
    (s.buildOutboundInner crypto pathId now payload).2.RecoverableBut pending := by
  obtain ⟨same | ⟨space, -, same⟩, -⟩ | ⟨space, pkt, -, result⟩ := s.buildOutboundInner_cases crypto pathId now payload
  · rw [same]
    exact before
  · rw [same]
    exact SameRecovery.recoverable (s := s) ⟨rfl, rfl⟩ before
  · have taken : (s.numbered space).RecoverableBut pending := SameRecovery.recoverable (s := s) ⟨rfl, rfl⟩ before
    have recorded := @recordOutbound_recoverable _ _ space.nextPacketNumber now (s.outboundPayload payload) pkt.length
      taken
    obtain ⟨_, charged⟩ := chargePath_writes ((s.numbered space).recordOutbound now space.nextPacketNumber
      (s.outboundPayload payload) pkt.length) pathId pkt.length
    rw [result]
    refine SameRecovery.recoverable ?_ recorded
    unfold numbered at charged
    simp only [sentOn, charged]
    exact ⟨rfl, rfl⟩

theorem pruneRetransmitPayload_recoverable (before : s.RecoverableBut (pn :: pending)) :
    (s.pruneRetransmitPayload pn).RecoverableBut pending := by
  refine ⟨fun other kept => ?_, before.eliciting⟩
  obtain ⟨differ, kept⟩ := isSome_get?_erase.mp kept
  exact (before.payloads other kept).imp_right fun listed => (List.mem_cons.mp listed).resolve_left differ

theorem RecoverableBut.weaken (before : s.RecoverableBut pending) : s.RecoverableBut (pn :: pending) :=
  ⟨fun other kept => (before.payloads other kept).imp_right (List.mem_cons_of_mem _), before.eliciting⟩

variable {crypto : Primitives}

theorem retransmit_recoverable (before : s.RecoverableBut pending) :
    (s.retransmit crypto number now).2.RecoverableBut pending := by
  obtain same | ⟨payload, -, refused | sent⟩ := s.retransmit_cases crypto number now
  · rw [same]
    exact before
  · rw [refused]
    exact buildOutboundInner_recoverable crypto s.primaryPathId now payload before
  · rw [sent]
    exact pruneRetransmitPayload_recoverable
      (buildOutboundInner_recoverable crypto s.primaryPathId now payload before).weaken

theorem RecoverableBut.of_removed (before : s.RecoverableBut [])
    (queue : s'.sent.sent = s.sent.sent.filter fun p => !removed p)
    (kept : ∀ pn, (s'.retransmitPayloads.get? pn).isSome = true →
      (s.retransmitPayloads.get? pn).isSome = true) :
    s'.RecoverableBut ((s.sent.sent.filter removed).map SentPacket.packetNumber) := by
  refine ⟨fun pn found => ?_, fun p member => ?_⟩
  · obtain here | none := before.payloads pn (kept pn found)
    · obtain ⟨p, member, rfl⟩ := List.mem_map.mp here
      rw [outstanding, queue]
      cases gone : removed p with
      | false => exact .inl (List.mem_map_of_mem (List.mem_filter.mpr ⟨member, by simp [gone]⟩))
      | true => exact .inr (List.mem_map_of_mem (List.mem_filter.mpr ⟨member, gone⟩))
    · cases none
  · rw [queue] at member
    exact before.eliciting p (List.mem_filter.mp member).1

theorem applyPeerAck_cases (s : Session) (ack : AckFrame) (now : Instant) :
    (s.applyPeerAck ack now).2 = s ∨
      ∃ acknowledged : SentPacket → Bool,
        (s.applyPeerAck ack now).2.sent.sent = s.sent.sent.filter (fun p => !acknowledged p) ∧
          (s.applyPeerAck ack now).2.retransmitPayloads =
            List.foldl OrderedMap.erase s.retransmitPayloads
              ((s.sent.sent.filter acknowledged).map SentPacket.packetNumber) := by
  unfold applyPeerAck
  split
  · exact .inl rfl
  · next applied =>
    obtain ⟨acknowledged, rfl, queue⟩ := AckSendState.applyAck_ok applied
    exact .inr ⟨acknowledged, queue, rfl⟩

theorem applyPeerAck_recoverable {ack : AckFrame} (before : s.RecoverableBut []) :
    (s.applyPeerAck ack now).2.RecoverableBut [] := by
  obtain failed | ⟨acknowledged, queue, retained⟩ := s.applyPeerAck_cases ack now
  · rw [failed]
    exact before
  have erased : ∀ pn, ((s.applyPeerAck ack now).2.retransmitPayloads.get? pn).isSome = true →
      pn ∉ (s.sent.sent.filter acknowledged).map SentPacket.packetNumber ∧
        (s.retransmitPayloads.get? pn).isSome = true := by
    intro pn found
    rw [retained, get?_eraseAll] at found
    split at found
    · cases found
    · exact ⟨‹_›, found⟩
  have left := before.of_removed queue fun pn found => (erased pn found).2
  exact ⟨fun pn found => .inl ((left.payloads pn found).resolve_right (erased pn found).1), left.eliciting⟩

theorem Call.recoverable (call : Call) (before : s.RecoverableBut []) :
    (call.run crypto s).RecoverableBut [] := by
  cases call with
  | control call => exact (call.keeps crypto s).1.transport.recovery.recoverable before
  | data call => exact (call.transport s).recovery.recoverable before
  | buildOutbound pathId now payload =>
    exact buildOutboundInner_recoverable crypto pathId now payload before
  | retransmit pn now => exact retransmit_recoverable before
  | pruneRetransmitPayload pn => exact pruneRetransmitPayload_recoverable before.weaken
  | onInbound now bytes =>
    refine onInbound_invariant (fun _ _ _ _ _ _ => SameRecovery.recoverable ⟨rfl, rfl⟩) ?_
      eachInboundFrame_mem before
    intro pathId s frame _ before
    by_cases acks : ∃ f, frame = .ack f
    · obtain ⟨f, rfl⟩ := acks
      exact applyPeerAck_recoverable before
    · exact (s.applyFrame_recovery crypto now pathId fun f shape => acks ⟨f, shape⟩).recoverable before

/-- A payload passes the gates of `build_outbound_inner` on the primary path, a packet
number is left for it, and the packet can be assembled. -/
def CanSend (crypto : Primitives) (s : Session) (payload : Bytes) : Prop :=
  s.amplificationLimited s.primaryPathId (s.outboundPayload payload) = false ∧
    s.congestionLimited (s.outboundPayload payload) = false ∧
      ∃ space ∈ s.spaces.get? .sessionData,
        space.nextPacketNumber ≤ PacketNumber.maxPacketNumber ∧
          (buildProtectedPacket crypto s.localKeys s.localHpKey .sessionData s.dcid s.primaryPathId
            space.nextPacketNumber false (s.outboundPayload payload)).toOption.isSome = true
  deriving Decidable

theorem buildOutboundInner_ok (now : Instant) (sendable : s.state = .active → s.CanSend crypto payload) :
    ∃ packet, (s.buildOutboundInner crypto s.primaryPathId now payload).1 = .ok packet := by
  unfold buildOutboundInner
  split
  · exact ⟨none, rfl⟩
  next active =>
  obtain ⟨amplification, congestion, space, found, number, assembled⟩ := sendable (not_not.mp active)
  have allocated : space.allocatePacketNumber =
      .ok (space.nextPacketNumber, { space with nextPacketNumber := space.nextPacketNumber + 1 }) :=
    if_neg (Nat.not_lt.mpr number)
  simp only [amplification, congestion, Bool.false_eq_true, if_false, Option.mem_def.mp found, allocated]
  cases built : buildProtectedPacket crypto s.localKeys s.localHpKey .sessionData s.dcid
      s.primaryPathId space.nextPacketNumber false (s.outboundPayload payload) with
  | error e => simp [built, Except.toOption] at assembled
  | ok pkt => exact ⟨some pkt, rfl⟩

/-- The payload of a packet can be sent again, if it is kept. -/
def Repairable (crypto : Primitives) (s : Session) (pn : Nat) : Prop :=
  s.state = .active → ∀ payload ∈ s.retransmitPayloads.get? pn, s.CanSend crypto payload
  deriving Decidable

theorem retransmit_repairs (now : Instant) (repairable : s.Repairable crypto pn)
    (before : s.RecoverableBut (pn :: pending)) :
    (∃ packet, (s.retransmit crypto pn now).1 = .ok packet) ∧
      (s.retransmit crypto pn now).2.RecoverableBut (pn :: pending) ∧
        ((s.retransmit crypto pn now).2.retransmitPayloads.get? pn) = none := by
  unfold retransmit
  split
  · next missing => exact ⟨⟨none, rfl⟩, before, missing⟩
  next payload kept =>
  have built := buildOutboundInner_recoverable crypto s.primaryPathId now payload before
  obtain ⟨packet, sent⟩ := s.buildOutboundInner_ok now fun active => repairable active payload kept
  split
  · next shape =>
    rw [shape] at sent
    cases sent
  · next shape =>
    rw [shape] at built
    refine ⟨⟨_, rfl⟩, pruneRetransmitPayload_recoverable built.weaken, ?_⟩
    rw [pruneRetransmitPayload, get?_erase, if_pos rfl]

theorem RecoverableBut.settle (before : s.RecoverableBut (pn :: pending))
    (gone : s.retransmitPayloads.get? pn = none) : s.RecoverableBut pending := by
  refine ⟨fun other kept => ?_, before.eliciting⟩
  obtain here | listed := before.payloads other kept
  · exact .inl here
  · obtain rfl | later := List.mem_cons.mp listed
    · rw [gone] at kept
      cases kept
    · exact .inr later

end UniversalMesh.Session

namespace UniversalMesh.Daemon
open Wire Crypto Session

section
variable (crypto : Primitives)

/-- Every lost packet can be sent again, in the session that the loop reaches it with. -/
def RepairsAll (before : Session) (now : Instant) (s : Session) : List Nat → Prop
  | [] => True
  | pn :: lost =>
    (leaveFlight s before pn).Repairable crypto pn ∧
      RepairsAll before now (repairLost crypto before now s pn).2 lost

instance decidableRepairsAll (before : Session) (now : Instant) :
    ∀ s lost, Decidable (RepairsAll crypto before now s lost)
  | _, [] => .isTrue trivial
  | s, pn :: lost =>
    have := decidableRepairsAll before now (repairLost crypto before now s pn).2 lost
    inferInstanceAs (Decidable ((leaveFlight s before pn).Repairable crypto pn ∧ _))

def PassRepairs (s : Session) (now : Instant) (pathId largestAcked : Nat) : Prop :=
  RepairsAll crypto s now
    (degradePath { s with sent := (detectLostPackets s.sent s.rtt now largestAcked).2 } s pathId
      (detectLostPackets s.sent s.rtt now largestAcked).1)
    (detectLostPackets s.sent s.rtt now largestAcked).1
  deriving Decidable

end

variable {crypto : Primitives} {s : Session} {pending : List Nat} {now : Instant}

theorem leaveFlight_recovery (s before : Session) (pn : Nat) : SameRecovery s (leaveFlight s before pn) := by
  unfold leaveFlight
  split <;> exact ⟨rfl, rfl⟩

theorem degradePath_recovery : SameRecovery s (degradePath s before pathId lost) := by
  simp only [degradePath, markPathDegraded]
  repeat' split
  all_goals exact ⟨rfl, rfl⟩

theorem repairLost_recoverable (repairable : (leaveFlight s before pn).Repairable crypto pn)
    (recoverable : s.RecoverableBut (pn :: pending)) :
    (repairLost crypto before now s pn).2.RecoverableBut pending := by
  have left := (leaveFlight_recovery s before pn).recoverable recoverable
  obtain ⟨⟨packet, sent⟩, kept, gone⟩ := retransmit_repairs now repairable left
  unfold repairLost
  split
  · next shape =>
    rw [shape] at kept gone
    exact kept.settle gone
  · next shape =>
    rw [shape] at kept
    exact pruneRetransmitPayload_recoverable kept
  · next shape =>
    rw [shape] at sent
    cases sent

theorem repairAll_recoverable (repairs : RepairsAll crypto before now s lost)
    (recoverable : s.RecoverableBut lost) : (repairAll crypto before now s lost).2.RecoverableBut [] := by
  induction lost generalizing s with
  | nil => exact recoverable
  | cons pn lost ih => exact ih repairs.2 (repairLost_recoverable repairs.1 recoverable)

theorem lossPass_recoverable {pathId largestAcked : Nat}
    (repairs : PassRepairs crypto s now pathId largestAcked) (recoverable : s.RecoverableBut []) :
    (lossPass crypto s now pathId largestAcked).2.RecoverableBut [] := by
  refine repairAll_recoverable repairs (degradePath_recovery.recoverable ?_)
  exact recoverable.of_removed (detectLostPackets_sent s.sent s.rtt now largestAcked)
    fun _ kept => kept

/-- What a session's task does that concerns the recovery of lost packets. -/
inductive TaskStep where
  | call (call : Call) | inbound (now : Instant) (bytes : Bytes) (tail : Octets 16)
  | lossPass (now : Instant) (pathId largestAcked : Nat) | probe (now : Instant)

section
variable (crypto : Primitives) (s : Session)

def taskStep : TaskStep → Session
  | .call call => call.run crypto s
  | .inbound now bytes tail => (processInbound crypto s now bytes tail).2
  | .lossPass now pathId largestAcked => (lossPass crypto s now pathId largestAcked).2
  | .probe now => (probe crypto s now).2

/-- The loss pass of an inbound packet can send every lost packet again. -/
def PassRepairsOf (now : Instant) :
    Option (ShortPacketSpace × Nat × List Frame) → Prop
  | some (.sessionData, pathId, frames) =>
    ∀ largest ∈ largestAcked frames, PassRepairs crypto s now pathId largest
  | _ => True

instance (now : Instant) :
    ∀ frames, Decidable (PassRepairsOf crypto s now frames)
  | some (.sessionData, _, frames) =>
    inferInstanceAs (Decidable (∀ largest ∈ largestAcked frames, _))
  | some (.pathControl, _, _) | some (.relayData, _, _) | none => .isTrue trivial

def StepRepairs : TaskStep → Prop
  | .inbound now bytes tail =>
    (feedSession crypto s now bytes tail).1 = true →
      PassRepairsOf crypto (feedSession crypto s now bytes tail).2 now (parseControlFrames crypto s bytes)
  | .lossPass now pathId largestAcked => PassRepairs crypto s now pathId largestAcked
  | .call _ | .probe _ => True

instance : DecidablePred (StepRepairs crypto s)
  | .inbound _ _ _ => inferInstanceAs (Decidable (_ → PassRepairsOf ..))
  | .lossPass _ _ _ => inferInstanceAs (Decidable (PassRepairs ..))
  | .call _ | .probe _ => .isTrue trivial

end

theorem lossPassOf_recoverable (repairs : PassRepairsOf crypto s now frames)
    (recoverable : s.RecoverableBut []) : (lossPassOf crypto s now frames).2.RecoverableBut [] := by
  unfold lossPassOf
  split
  · next pathId frames =>
    split
    · exact recoverable
    · next largest found => exact lossPass_recoverable (repairs largest found) recoverable
  · exact recoverable

theorem probe_recoverable (recoverable : s.RecoverableBut []) : (probe crypto s now).2.RecoverableBut [] := by
  simp only [probe]
  split
  · have built : (s.buildOutbound crypto now
        ((Varint.encode FrameType.ping.value).toOption.getD [])).2.RecoverableBut [] :=
      buildOutboundInner_recoverable crypto s.primaryPathId now _ recoverable
    split
    all_goals
      next shape =>
        rw [shape] at built
        exact built
  · exact recoverable

theorem feedSession_recoverable (recoverable : s.RecoverableBut []) :
    (feedSession crypto s now bytes tail).2.RecoverableBut [] := by
  have received : (s.onInbound crypto now bytes).2.RecoverableBut [] :=
    Call.recoverable (.onInbound now bytes) recoverable
  unfold feedSession
  split
  · next shape => rw [shape] at received; exact received
  · next s' shape =>
    rw [shape] at received
    exact (ControlCall.keeps crypto s'
      (.maybeEmitStatelessReset now tail bytes.length)).1.transport.recovery.recoverable received
  · next shape => rw [shape] at received; exact received

theorem updatePacing_recovery : SameRecovery s (updatePacing s now) :=
  ⟨rfl, rfl⟩

theorem taskStep_recoverable (s : Session) (step : TaskStep) (recoverable : s.RecoverableBut [])
    (repairs : StepRepairs crypto s step) : (taskStep crypto s step).RecoverableBut [] := by
  cases step with
  | call call => exact Call.recoverable call recoverable
  | lossPass => exact lossPass_recoverable repairs recoverable
  | probe now => exact probe_recoverable recoverable
  | inbound now bytes tail =>
    have fed : (feedSession crypto s now bytes tail).2.RecoverableBut [] :=
      feedSession_recoverable recoverable
    simp only [taskStep, processInbound]
    split
    · next processed =>
      exact updatePacing_recovery.recoverable (lossPassOf_recoverable (repairs processed) fed)
    · exact fed

/-- In every run of a session's task in which the loss passes can send the lost packets again, every payload
that is kept belongs to a packet in the sent queue, so that it can still be acknowledged or declared lost. -/
theorem retained_payload_is_outstanding {config : SessionConfig} {s : Session}
    (started : Session.new crypto config = .ok s) {steps : List TaskStep}
    (repairs : Run.Meets (StepRepairs crypto) (taskStep crypto) s steps) :
    ∀ pn, ((steps.foldl (taskStep crypto) s).retransmitPayloads.get? pn).isSome = true →
      pn ∈ (steps.foldl (taskStep crypto) s).outstanding := by
  have fresh := new_fresh started
  have initial : s.RecoverableBut [] := by
    refine ⟨fun pn kept => ?_, fun p member => ?_⟩
    · rw [fresh.retained] at kept
      cases kept
    · rw [fresh.sent] at member
      cases member
  have recoverable : (steps.foldl (taskStep crypto) s).RecoverableBut [] :=
    Run.invariant_of_meets taskStep_recoverable initial repairs
  intro pn kept
  exact (recoverable.payloads pn kept).resolve_right List.not_mem_nil

/-- A STREAM frame with 1400 bytes for stream 1. -/
def largeSegment : Bytes := [0x10, 0x01, 0x0C, 0x45, 0x78] ++ List.replicate 1400 7 ++ [0, 0]

/-- Six packets, and an ACK for the last of them. -/
def sixThenAck (payload : Bytes) : List TaskStep :=
  List.replicate 6 (.call (.buildOutbound 0 0 payload)) ++
    [.inbound 50 (plainPacket 0 [0x08, 5, 0, 1, 1]) (Octets.fill 16 0)]

/-- The third of three lost packets halves the window and no longer fits: no packet in the queue leads to its
payload. -/
theorem limited_payload_is_stranded :
    let s := (sixThenAck largeSegment).foldl (taskStep transparent) tenByteServer
    s.state = .active ∧ s.retransmitPayloads.get? 2 = some largeSegment ∧ 2 ∉ s.outstanding := by
  decide +kernel

/-- Small packets fit the window, and their payloads are found under new numbers. -/
theorem retained_payload_is_outstanding_six_segments :
    Run.Meets (StepRepairs transparent) (taskStep transparent) tenByteServer
        (sixThenAck (openingFrame [1, 2, 3])) ∧
      8 ∈ ((sixThenAck (openingFrame [1, 2, 3])).foldl (taskStep transparent)
        tenByteServer).outstanding := by
  have repairs : Run.Meets (StepRepairs transparent) (taskStep transparent) tenByteServer
      (sixThenAck (openingFrame [1, 2, 3])) := by
    decide +kernel
  exact ⟨repairs, retained_payload_is_outstanding (new_started _) repairs 8 (by decide +kernel)⟩

end UniversalMesh.Daemon

/-! The congestion gate over the runs of a session's task. Between two steps the bytes in flight are those of
the packets in the sent queue. A loss pass takes the lost packets out of the queue at once and reports them to
the controller one by one, sending each payload again in between; there the controller still counts those it has
not heard of. -/
namespace UniversalMesh.Session

theorem new_flight (started : Session.new crypto config = .ok s) : s.FlightBut [] := by
  unfold Session.new at started
  split at started
  · cases started
  next addressed =>
  split at started
  · cases started
    have empty : ∀ p ∈ AckSendState.new.sent, False := fun _ member => List.not_mem_nil member
    exact ⟨rfl, .nil, fun p member => (empty p member).elim, fun p member => (empty p member).elim,
      fun p member => (empty p member).elim, Nat.zero_le _, not_not.mp addressed⟩
  · cases started

theorem Reno.onPacketLost_inFlight (c : Reno) (bytes : Nat) :
    (c.onPacketLost bytes).inFlight = c.inFlight - bytes := by
  simp only [Reno.onPacketLost]
  split <;> rfl

theorem Reno.setSmoothedRtt_inFlight {c : Reno} : (c.setSmoothedRtt ms now).inFlight = c.inFlight := by
  unfold Reno.setSmoothedRtt
  split <;> rfl

end UniversalMesh.Session

namespace UniversalMesh.Daemon
open Wire Crypto Session

/-- The packets that a loss pass takes out of the queue. -/
def lostPackets (s : Session) (now : Instant) (largestAcked : Nat) : List SentPacket :=
  s.sent.sent.filter (LossDetector.declaresLost s.rtt now largestAcked)

section
variable (crypto : Primitives)

def detected (s : Session) (now : Instant) (pathId largestAcked : Nat) : Session :=
  degradePath { s with sent := (detectLostPackets s.sent s.rtt now largestAcked).2 } s pathId
    (detectLostPackets s.sent s.rtt now largestAcked).1

/-- Where a loss pass sends a payload again: the lost packets before it are settled, and it has left the flight
itself. -/
def RepairTurn (s turn : Session) : Prop :=
  ∃ now pathId largestAcked earlier p later, lostPackets s now largestAcked = earlier ++ p :: later ∧
    turn = leaveFlight (repairAll crypto s now (detected s now pathId largestAcked)
      (earlier.map SentPacket.packetNumber)).2 s p.packetNumber

/-- What concerns the flight: the steps of the session's task, and an ACK applied by itself. -/
inductive FlightStep where
  | task (step : TaskStep) | peerAck (ack : AckFrame) (now : Instant)

def flightStep (s : Session) : FlightStep → Session
  | .task step => taskStep crypto s step
  | .peerAck ack now => (s.applyPeerAck ack now).2

end

variable {crypto : Primitives} {s : Session} {pending : List SentPacket} {now : Instant}

theorem degradePath_flight : SameFlight s (degradePath s before pathId lost) := by
  simp only [degradePath, markPathDegraded]
  repeat' split
  all_goals exact .of_eq rfl rfl rfl rfl

variable {pathId largestAcked : Nat}

theorem detected_flight (flight : s.FlightBut []) :
    (detected s now pathId largestAcked).FlightBut (lostPackets s now largestAcked) := by
  apply degradePath_flight.flight
  have queue := detectLostPackets_sent s.sent s.rtt now largestAcked
  have whole := flightSize_filter s.sent.sent (LossDetector.declaresLost s.rtt now largestAcked)
  have counted := flight.counted
  have bound := flightSize_le flight.sized
  have bounded := Nat.mul_le_mul_right maxPacketSize s.sent.bounded
  have none : flightSize [] = 0 := rfl
  refine flight.dequeue queue ?_ ?_ rfl rfl
  · rw [queue, lostPackets]
    show s.congestion.inFlight = _
    omega
  · rw [lostPackets]
    omega

variable {before : Session} {p : SentPacket}

theorem leaveFlight_flight (record : before.sentPacket? p.packetNumber = some p)
    (flight : s.FlightBut (p :: pending)) : (leaveFlight s before p.packetNumber).FlightBut pending := by
  have counted := flight.counted
  have waiting := flight.reported
  have split : flightSize (p :: pending) = p.size + flightSize pending := by simp [flightSize]
  simp only [leaveFlight, record]
  refine ⟨?_, flight.ascending, flight.issued, flight.eliciting, flight.sized, by omega, flight.addressed⟩
  simp only [Reno.onPacketLost_inFlight]
  omega

theorem repairLost_flight (tagged : PacketKeys.AppendsTag crypto)
    (record : before.sentPacket? p.packetNumber = some p) (flight : s.FlightBut (p :: pending)) :
    (repairLost crypto before now s p.packetNumber).2.FlightBut pending := by
  have sent := retransmit_flight tagged p.packetNumber now (leaveFlight_flight record flight)
  unfold repairLost
  split
  all_goals
    rename_i shape
    rw [shape] at sent
  · exact sent
  · exact (pruneRetransmitPayload_flight _ _).flight sent
  · exact sent

theorem repairAll_flight (tagged : PacketKeys.AppendsTag crypto)
    (records : ∀ p ∈ settled, before.sentPacket? p.packetNumber = some p)
    (flight : s.FlightBut (settled ++ left)) :
    (repairAll crypto before now s (settled.map SentPacket.packetNumber)).2.FlightBut left := by
  induction settled generalizing s with
  | nil => exact flight
  | cons p settled ih =>
    obtain ⟨record, others⟩ := List.forall_mem_cons.mp records
    exact ih others (repairLost_flight tagged record flight)

theorem lostPackets_record (flight : s.FlightBut [])
    (lost : p ∈ lostPackets s now largestAcked) : s.sentPacket? p.packetNumber = some p :=
  flight.sentPacket? (List.mem_filter.mp lost).1

section
variable (tagged : PacketKeys.AppendsTag crypto)
include tagged

/-- Behind a loss pass every lost packet has been reported. -/
theorem lossPass_flight
    (flight : s.FlightBut []) : (lossPass crypto s now pathId largestAcked).2.FlightBut [] := by
  have start : (detected s now pathId largestAcked).FlightBut (lostPackets s now largestAcked) :=
    detected_flight flight
  rw [← List.append_nil (lostPackets s now largestAcked)] at start
  exact repairAll_flight tagged (fun p lost => lostPackets_record flight lost) start

theorem RepairTurn.addressed (repairing : RepairTurn crypto s turn) (flight : s.FlightBut []) :
    turn.dcid.length = defaultDcidLen := by
  obtain ⟨now, pathId, largestAcked, earlier, p, later, lost, rfl⟩ := repairing
  have records : ∀ q ∈ earlier ++ p :: later, s.sentPacket? q.packetNumber = some q :=
    fun q member => lostPackets_record flight (lost ▸ member)
  have start : (detected s now pathId largestAcked).FlightBut (lostPackets s now largestAcked) :=
    detected_flight flight
  rw [lost] at start
  have reached : (repairAll crypto s now (detected s now pathId largestAcked)
      (earlier.map SentPacket.packetNumber)).2.FlightBut (p :: later) :=
    repairAll_flight tagged (fun q member => records q (List.mem_append_left _ member)) start
  exact (leaveFlight_flight (records p (by simp)) reached).addressed

theorem taskStep_flight (flight : s.FlightBut []) : (taskStep crypto s step).FlightBut [] := by
  cases step with
  | call call => exact Call.flight tagged call flight
  | lossPass => exact lossPass_flight tagged flight
  | probe now =>
    simp only [taskStep, probe]
    split
    · have built : (s.buildOutbound crypto now
          ((Varint.encode FrameType.ping.value).toOption.getD [])).2.FlightBut [] :=
        buildOutboundInner_flight tagged flight
      split
      all_goals
        next shape =>
          rw [shape] at built
          exact built
    · exact flight
  | inbound now bytes tail =>
    have fed : (feedSession crypto s now bytes tail).2.FlightBut [] := by
      have received : (s.onInbound crypto now bytes).2.FlightBut [] :=
        Call.flight tagged (.onInbound now bytes) flight
      unfold feedSession
      split
      all_goals
        rename_i shape
        rw [shape] at received
      · exact received
      · exact (ControlCall.keeps crypto _ (.maybeEmitStatelessReset now tail bytes.length)).1.flight.flight received
      · exact received
    simp only [taskStep, processInbound]
    split
    · have paced : ∀ s : Session, SameFlight s (updatePacing s now) := fun s =>
        ⟨rfl, Reno.setSmoothedRtt_inFlight, Nat.le_refl _, id⟩
      apply (paced _).flight
      unfold lossPassOf
      split
      · split
        · exact fed
        · exact lossPass_flight tagged fed
      · exact fed
    · exact fed

end

/-- In every run of sends, ACKs and loss reports the bytes in flight are the sizes of the packets in the sent
queue, and right behind a packet that is sent and not exempt, the sends of a loss pass among them, they are
within the congestion window. -/
theorem in_flight_within_window (tagged : PacketKeys.AppendsTag crypto) {config : SessionConfig} {s : Session}
    (started : Session.new crypto config = .ok s) (steps : List FlightStep) :
    let reached := steps.foldl (flightStep crypto) s
    reached.congestion.inFlight = (reached.sent.sent.map SentPacket.size).sum ∧
    ∀ sender, sender = reached ∨ RepairTurn crypto reached sender →
      ∀ pathId now payload pkt, (sender.buildOutboundInner crypto pathId now payload).1 = .ok (some pkt) →
        payloadIsExempt (sender.outboundPayload payload) = false →
        (sender.buildOutboundInner crypto pathId now payload).2.congestion.inFlight ≤
          (sender.buildOutboundInner crypto pathId now payload).2.congestion.cwnd := by
  intro reached
  have preserved : ∀ (s : Session) (step : FlightStep), s.FlightBut [] →
      (flightStep crypto s step).FlightBut [] := by
    intro s step flight
    cases step with
    | task step => exact taskStep_flight tagged flight
    | peerAck ack now => exact applyPeerAck_flight flight
  have flight : reached.FlightBut [] := Run.invariant preserved (new_flight started)
  refine ⟨flight.counted, fun sender building pathId now payload pkt sent gated => ?_⟩
  have addressed : sender.dcid.length = defaultDcidLen := by
    obtain rfl | turn := building
    · exact flight.addressed
    · exact turn.addressed tagged flight
  exact buildOutboundInner_within_window tagged addressed sent gated

/-- Three of six packets are lost, and the window is halved. -/
def threeLost : List FlightStep := (sixThenAck largeSegment).map .task

theorem in_flight_within_window_three_lost :
    let s := threeLost.foldl (flightStep transparent) tenByteServer
    let s' := (s.buildOutboundInner transparent 0 60 (openingFrame [1])).2
    s.congestion.inFlight = (s.sent.sent.map SentPacket.size).sum ∧
      s'.congestion.inFlight ≤ s'.congestion.cwnd := by
  have tagged : PacketKeys.AppendsTag transparent := by
    rintro key nonce aad msg sealed ⟨⟩
    simp
  obtain ⟨counted, within⟩ := in_flight_within_window tagged (s := tenByteServer) (new_started _) threeLost
  refine ⟨counted, within _ (.inl rfl) 0 60 (openingFrame [1]) (plainPacket 8 (openingFrame [1])) ?_ ?_⟩
  all_goals decide +kernel

end UniversalMesh.Daemon
