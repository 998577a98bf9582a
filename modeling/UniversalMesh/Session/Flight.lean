import Mathlib.Algebra.Order.BigOperators.Group.List
import UniversalMesh.Session.Calls
import UniversalMesh.Session.PacketRoundTrip

/-! The bytes in flight. A packet that is sent is charged to the congestion controller and enters the sent
queue; it leaves both when it is acknowledged, evicted or lost. The invariant counts the two against each other,
with the packets lost and not yet reported to the controller as a parameter. -/
namespace UniversalMesh.Session
open MachineWord Wire Crypto

/-- The bytes of some packets. -/
def flightSize (packets : List SentPacket) : Nat := (packets.map SentPacket.size).sum

/-- The number that the next packet of the session data space gets. -/
def nextNumber (s : Session) : Nat :=
  ((s.spaces.get? .sessionData).map PacketSpaceState.nextPacketNumber).getD 0

/-- The controller counts the packets in the queue and those given; the numbers ascend below the next one, and
the sizes are those of packets. -/
structure FlightBut (pending : List SentPacket) (s : Session) : Prop where
  counted : s.congestion.inFlight = flightSize s.sent.sent + flightSize pending
  ascending : s.sent.sent.Pairwise fun p q => p.packetNumber < q.packetNumber
  issued : ∀ p ∈ s.sent.sent, p.packetNumber < s.nextNumber
  eliciting : ∀ p ∈ s.sent.sent, p.ackEliciting = true
  sized : ∀ p ∈ s.sent.sent, p.size ≤ maxPacketSize
  reported : flightSize pending ≤ maxOutstandingPackets * maxPacketSize
  addressed : s.dcid.length = defaultDcidLen

/-- Nothing that the flight depends on has changed but numbers used up. -/
structure SameFlight (s s' : Session) : Prop where
  sent : s'.sent = s.sent
  inFlight : s'.congestion.inFlight = s.congestion.inFlight
  number : s.nextNumber ≤ s'.nextNumber
  addressed : s.dcid.length = defaultDcidLen → s'.dcid.length = defaultDcidLen

namespace SameFlight

variable {s s' s'' : Session} {pending : List SentPacket}

theorem of_eq (sent : s'.sent = s.sent) (congestion : s'.congestion = s.congestion) (spaces : s'.spaces = s.spaces)
    (dcid : s'.dcid = s.dcid) : SameFlight s s' :=
  ⟨sent, congestion ▸ rfl, by rw [nextNumber, nextNumber, spaces], dcid ▸ id⟩

theorem flight (same : SameFlight s s') (before : s.FlightBut pending) : s'.FlightBut pending := by
  refine ⟨?_, ?_, ?_, ?_, ?_, before.reported, same.addressed before.addressed⟩
  · rw [same.inFlight, same.sent, before.counted]
  · rw [same.sent]
    exact before.ascending
  · rw [same.sent]
    exact fun p member => (before.issued p member).trans_le same.number
  · rw [same.sent]
    exact before.eliciting
  · rw [same.sent]
    exact before.sized

end SameFlight

theorem SameWire.flight (same : SameWire s s') : SameFlight s s' :=
  .of_eq same.transport.recovery.sent same.congestion same.spaces same.dcid

/-! ### Calls that leave the flight alone -/

section
variable (crypto : Primitives) (s : Session)

theorem applyFrame_flight (now : Instant) (pathId : Nat) (other : ∀ f, frame ≠ .ack f) :
    SameFlight s (s.applyFrame crypto now pathId frame).2 := by
  by_cases concerns : ConcernsData frame
  · exact (SameWire.of_link (s.applyFrame_link crypto now pathId concerns)).flight
  obtain ⟨-, ⟨f, _, _, _, _, shape, -⟩ | ⟨_, dcid, -, sized, written⟩ | same⟩ :=
    s.applyFrame_other crypto now pathId concerns
  · exact absurd shape (other f)
  · rw [written]
    exact ⟨rfl, rfl, Nat.le_refl _, fun addressed => sized.elim (fun same => same ▸ addressed) id⟩
  · exact same.flight

theorem admitPacket_flight (now : Instant) (bytes : Bytes) : SameFlight s (s.admitPacket crypto now bytes).2 := by
  obtain ⟨e, state, refused⟩ | ⟨packet, space, space', -, found, shape, admitted⟩ :=
    s.admitPacket_cases crypto now bytes
  · rw [refused]
    exact .of_eq rfl rfl rfl rfl
  obtain ⟨paths, accounted⟩ := accountReceived_writes _ packet.pathId bytes.length now
  have number : space'.nextPacketNumber = space.nextPacketNumber := by
    unfold PacketSpaceState.admitReconstructed at shape
    split at shape <;> cases shape
    rfl
  rw [admitted, accounted]
  refine ⟨rfl, rfl, le_of_eq ?_, id⟩
  simp only [nextNumber, OrderedMap.get?_insert]
  split
  · next same => rw [same, found, Option.map_some, Option.map_some, number]
  · rfl

theorem emitAck_flight (space : PacketSpace) (response : Bytes) : SameFlight s (s.emitAck space response).2 := by
  obtain ⟨_, written⟩ := s.emitAck_writes space response
  rw [written]
  exact .of_eq rfl rfl rfl rfl

theorem resetIdleTimer_flight (frames : List Frame) (now : Instant) :
    SameFlight s (s.resetIdleTimer frames now) := by
  obtain ⟨_, written⟩ := s.resetIdleTimer_writes frames now
  rw [written]
  exact .of_eq rfl rfl rfl rfl

theorem pruneRetransmitPayload_flight (pn : Nat) : SameFlight s (s.pruneRetransmitPayload pn) :=
  .of_eq rfl rfl rfl rfl

theorem chargePath_flight (pathId size : Nat) : SameFlight s (s.chargePath pathId size) := by
  unfold chargePath
  repeat' split
  all_goals exact .of_eq rfl rfl rfl rfl

end

/-! ### Sending -/

section
variable {crypto : Primitives} {s : Session} {pending : List SentPacket} {pathId : Nat} {now : Instant}
  {space : PacketSpaceState} {payload pkt : Bytes}

theorem numbered_flight (found : s.spaces.get? .sessionData = some space) : SameFlight s (s.numbered space) := by
  refine ⟨rfl, rfl, ?_, id⟩
  simp only [numbered, nextNumber, OrderedMap.get?_insert, if_true, found, Option.map_some, Option.getD_some]
  omega

theorem sentOn_sent : (s.sentOn pathId now space payload pkt).sent =
    (s.sent.recordSent (.new space.nextPacketNumber .sessionData now pkt.length true 0)).2 := by
  simp only [sentOn, (chargePath_flight _ pathId pkt.length).sent, recordOutbound]
  split <;> simp_all

/-- What the queue evicts is released before the packet is charged. -/
theorem sentOn_inFlight : (s.sentOn pathId now space payload pkt).congestion.inFlight =
    saturatingAdd (s.congestion.inFlight -
      (((s.sent.recordSent (.new space.nextPacketNumber .sessionData now pkt.length true 0)).1.map Prod.snd).getD 0))
      pkt.length := by
  simp only [sentOn, Reno.onPacketSent, (chargePath_flight _ pathId pkt.length).inFlight, recordOutbound]
  split <;> simp_all [Reno.onPacketAcknowledged]

theorem sentOn_cwnd : (s.sentOn pathId now space payload pkt).congestion.cwnd = s.congestion.cwnd := by
  simp only [sentOn, Reno.onPacketSent, chargePath, recordOutbound]
  repeat' split
  all_goals rfl

theorem sentOn_number : (s.sentOn pathId now space payload pkt).nextNumber = space.nextPacketNumber + 1 := by
  simp only [sentOn, nextNumber, chargePath, recordOutbound]
  repeat' split
  all_goals simp

theorem sentOn_dcid : (s.sentOn pathId now space payload pkt).dcid = s.dcid := by
  simp only [sentOn, chargePath, recordOutbound]
  repeat' split
  all_goals rfl

theorem Sends.number (sends : Sends crypto s pathId space payload pkt) : s.nextNumber = space.nextPacketNumber := by
  simp [nextNumber, sends.found]

/-- The estimate of the congestion gate covers what the header and the tag add. -/
theorem Sends.length_le (tagged : PacketKeys.AppendsTag crypto) (addressed : s.dcid.length = defaultDcidLen)
    (sends : Sends crypto s pathId space payload pkt) :
    pkt.length ≤ payload.length + protectedOverheadEstimate ∧ pkt.length ≤ maxPacketSize := by
  have size := buildProtectedPacket_length tagged sends.built
  have fits := buildProtectedPacket_fits sends.built
  have width := Varint.encoding_length_le pathId
  unfold packetOverhead at size
  unfold defaultDcidLen at addressed
  unfold protectedOverheadEstimate
  omega

theorem flightSize_le (sized : ∀ p ∈ packets, p.size ≤ maxPacketSize) :
    flightSize packets ≤ packets.length * maxPacketSize := by
  have bound := List.sum_le_card_nsmul (packets.map SentPacket.size) maxPacketSize (by simpa using sized)
  simpa [flightSize] using bound

theorem FlightBut.room (before : s.FlightBut pending) :
    flightSize s.sent.sent + flightSize pending + maxPacketSize ≤ u64Max := by
  have queue := flightSize_le before.sized
  have bounded := Nat.mul_le_mul_right maxPacketSize s.sent.bounded
  have waiting := before.reported
  have small : 2 * (maxOutstandingPackets * maxPacketSize) + maxPacketSize ≤ u64Max := by decide
  omega

theorem FlightBut.enqueue {s' : Session} (before : s.FlightBut pending) (kept : left.Sublist s.sent.sent)
    (queue : s'.sent.sent = left ++ [.new s.nextNumber .sessionData now size true 0])
    (counted : s'.congestion.inFlight = flightSize left + flightSize pending + size)
    (number : s'.nextNumber = s.nextNumber + 1) (small : size ≤ maxPacketSize) (dcid : s'.dcid = s.dcid) :
    s'.FlightBut pending := by
  have old : ∀ p ∈ left, p ∈ s.sent.sent := fun p member => kept.subset member
  refine ⟨?_, ?_, ?_, ?_, ?_, before.reported, dcid ▸ before.addressed⟩
  · rw [counted, queue]
    simp only [flightSize, List.map_append, List.sum_append, List.map_cons, List.map_nil, List.sum_singleton,
      SentPacket.new]
    omega
  · rw [queue]
    apply List.pairwise_append.mpr
    refine ⟨before.ascending.sublist kept, List.pairwise_singleton _ _, fun p member q last => ?_⟩
    rw [List.mem_singleton.mp last]
    exact before.issued p (old p member)
  all_goals
    rw [queue]
    intro p member
    obtain here | last := List.mem_append.mp member
  · have := before.issued p (old p here)
    omega
  · rw [List.mem_singleton.mp last, number]
    exact Nat.lt_succ_self _
  · exact before.eliciting p (old p here)
  · rw [List.mem_singleton.mp last]
    rfl
  · exact before.sized p (old p here)
  · rw [List.mem_singleton.mp last]
    exact small

section
variable (tagged : PacketKeys.AppendsTag crypto)
include tagged

theorem Sends.flight (sends : Sends crypto s pathId space payload pkt)
    (before : s.FlightBut pending) : (s.sentOn pathId now space payload pkt).FlightBut pending := by
  have number := sends.number
  have small := (sends.length_le tagged before.addressed).2
  have room := before.room
  have counted := before.counted
  have entered := s.sent.recordSent_cases (.new space.nextPacketNumber .sessionData now pkt.length true 0)
  have inFlight := @sentOn_inFlight s pathId now space payload pkt
  have queue := congrArg AckSendState.sent (@sentOn_sent s pathId now space payload pkt)
  obtain ⟨none, shape⟩ | ⟨oldest, rest, whole, evicted, shape⟩ := entered
  · rw [shape, ← number] at queue
    refine before.enqueue (List.Sublist.refl _) queue ?_ (by rw [sentOn_number, number]) small sentOn_dcid
    rw [inFlight, none, saturatingAdd]
    simp only [Option.map_none, Option.getD_none]
    omega
  · rw [shape, ← number] at queue
    rw [if_pos (before.eliciting oldest (by simp [whole]))] at evicted
    refine before.enqueue (whole ▸ List.sublist_cons_self _ _) queue ?_ (by rw [sentOn_number, number]) small
      sentOn_dcid
    have split : flightSize s.sent.sent = oldest.size + flightSize rest := by simp [flightSize, whole]
    rw [inFlight, evicted, saturatingAdd]
    simp only [Option.map_some, Option.getD_some]
    omega

theorem buildOutboundInner_flight (before : s.FlightBut pending) :
    (s.buildOutboundInner crypto pathId now payload).2.FlightBut pending := by
  obtain ⟨same | ⟨space, found, same⟩, -⟩ | ⟨space, pkt, sends, result⟩ :=
    s.buildOutboundInner_cases crypto pathId now payload
  · rw [same]
    exact before
  · rw [same]
    exact (numbered_flight found).flight before
  · rw [result]
    exact sends.flight tagged before

/-- The gate leaves room for the packet: behind a send that it looked at, the flight is within the window. -/
theorem buildOutboundInner_within_window (addressed : s.dcid.length = defaultDcidLen)
    (sent : (s.buildOutboundInner crypto pathId now payload).1 = .ok (some pkt))
    (gated : payloadIsExempt (s.outboundPayload payload) = false) :
    (s.buildOutboundInner crypto pathId now payload).2.congestion.inFlight ≤
      (s.buildOutboundInner crypto pathId now payload).2.congestion.cwnd := by
  obtain ⟨-, none⟩ | ⟨space, built, sends, result⟩ := s.buildOutboundInner_cases crypto pathId now payload
  · exact absurd sent (none pkt)
  · have length := (sends.length_le tagged addressed).1
    have passed := sends.uncongested
    simp only [congestionLimited, gated, Bool.not_false, Bool.true_and, decide_eq_false_iff_not, gt_iff_lt,
      Nat.not_lt, Reno.sendAllowance] at passed
    rw [result, sentOn_inFlight, sentOn_cwnd, saturatingAdd]
    have overhead : 0 < protectedOverheadEstimate := by decide
    omega

theorem retransmit_flight (pn : Nat) (now : Instant)
    (before : s.FlightBut pending) : (s.retransmit crypto pn now).2.FlightBut pending := by
  obtain same | ⟨payload, -, refused | sent⟩ := s.retransmit_cases crypto pn now
  · rw [same]
    exact before
  · rw [refused]
    exact buildOutboundInner_flight tagged before
  · rw [sent]
    exact (pruneRetransmitPayload_flight _ pn).flight
      (buildOutboundInner_flight tagged before)

end

/-! ### Acknowledgement and loss -/

theorem flightSize_filter (packets : List SentPacket) (removed : SentPacket → Bool) :
    flightSize packets = flightSize (packets.filter removed) + flightSize (packets.filter fun p => !removed p) := by
  induction packets with
  | nil => rfl
  | cons p packets ih =>
    simp only [flightSize, List.map_cons, List.sum_cons] at ih ⊢
    cases gone : removed p <;> simp [gone] <;> omega

theorem FlightBut.sentPacket? (before : s.FlightBut pending) (member : p ∈ s.sent.sent) :
    s.sentPacket? p.packetNumber = some p := by
  unfold Session.sentPacket?
  cases found : s.sent.sent.reverse.find? (·.packetNumber = p.packetNumber) with
  | none =>
    have absent := List.find?_eq_none.mp found p (List.mem_reverse.mpr member)
    simp at absent
  | some q =>
    have here : q ∈ s.sent.sent := List.mem_reverse.mp (List.mem_of_find?_eq_some found)
    have number : q.packetNumber = p.packetNumber := by simpa using List.find?_some found
    have distinct : (s.sent.sent.map SentPacket.packetNumber).Nodup :=
      List.pairwise_map.mpr (before.ascending.imp Nat.ne_of_lt)
    rw [List.inj_on_of_nodup_map distinct here member number]

theorem foldl_onPacketAcknowledged (sizes : List Nat) (c : Reno) :
    (sizes.foldl Reno.onPacketAcknowledged c).inFlight = c.inFlight - sizes.sum := by
  induction sizes generalizing c with
  | nil => rfl
  | cons size sizes ih =>
    rw [List.foldl_cons, ih, List.sum_cons, Reno.onPacketAcknowledged, Nat.sub_sub]

theorem FlightBut.ackCongestion (before : s.FlightBut pending) (acknowledged : SentPacket → Bool) :
    (s.ackCongestion ((s.sent.sent.filter acknowledged).map SentPacket.packetNumber)).inFlight =
      s.congestion.inFlight - flightSize (s.sent.sent.filter acknowledged) := by
  have sizes : ((s.sent.sent.filter acknowledged).map SentPacket.packetNumber).filterMap
      (fun pn => (s.sentPacket? pn).map SentPacket.size) = (s.sent.sent.filter acknowledged).map SentPacket.size := by
    rw [List.filterMap_map, ← List.filterMap_eq_map]
    apply List.filterMap_congr
    intro p member
    simp [before.sentPacket? (List.mem_filter.mp member).1]
  simp only [Session.ackCongestion, sizes]
  split
  · simp only [Reno.onAck, Reno.updatePacing, foldl_onPacketAcknowledged]
    rfl
  · exact foldl_onPacketAcknowledged _ _

theorem FlightBut.dequeue {s' : Session} {removed : SentPacket → Bool}
    (before : s.FlightBut pending) (queue : s'.sent.sent = s.sent.sent.filter fun p => !removed p)
    (counted : s'.congestion.inFlight = flightSize s'.sent.sent + flightSize lost)
    (waiting : flightSize lost ≤ maxOutstandingPackets * maxPacketSize)
    (spaces : s'.spaces = s.spaces) (dcid : s'.dcid = s.dcid) : s'.FlightBut lost := by
  have old : ∀ p ∈ s'.sent.sent, p ∈ s.sent.sent := by
    intro p member
    rw [queue] at member
    exact (List.mem_filter.mp member).1
  have number : s'.nextNumber = s.nextNumber := by rw [nextNumber, nextNumber, spaces]
  refine ⟨counted, ?_, ?_, ?_, ?_, waiting, dcid ▸ before.addressed⟩
  · rw [queue]
    exact before.ascending.filter _
  · exact fun p member => number ▸ before.issued p (old p member)
  · exact fun p member => before.eliciting p (old p member)
  · exact fun p member => before.sized p (old p member)

theorem applyPeerAck_flight {ack : AckFrame} (before : s.FlightBut []) :
    (s.applyPeerAck ack now).2.FlightBut [] := by
  unfold applyPeerAck
  split
  · exact before
  · next applied =>
    obtain ⟨acknowledged, rfl, queue⟩ := AckSendState.applyAck_ok applied
    refine before.dequeue queue ?_ (Nat.zero_le _) rfl rfl
    have whole := flightSize_filter s.sent.sent acknowledged
    have counted := before.counted
    rw [before.ackCongestion, queue]
    omega

theorem Call.flight (tagged : PacketKeys.AppendsTag crypto) (call : Call) (before : s.FlightBut []) :
    (call.run crypto s).FlightBut [] := by
  cases call with
  | control call => exact (call.keeps crypto s).1.flight.flight before
  | data call => exact (call.wire s).flight.flight before
  | buildOutbound => exact buildOutboundInner_flight tagged before
  | retransmit pn now => exact retransmit_flight tagged pn now before
  | pruneRetransmitPayload pn => exact (s.pruneRetransmitPayload_flight pn).flight before
  | onInbound now bytes =>
    refine onInbound_stable (s.admitPacket_flight crypto now bytes)
      (fun s frames => s.resetIdleTimer_flight frames now) emitAck_flight SameFlight.flight ?_
      eachInboundFrame_mem before
    intro pathId s frame _ before
    by_cases acks : ∃ f, frame = .ack f
    · obtain ⟨f, rfl⟩ := acks
      exact applyPeerAck_flight before
    · exact (s.applyFrame_flight crypto now pathId fun f shape => acks ⟨f, shape⟩).flight before

end

/-! The anti-amplification limit of `build_outbound_inner`. The gate compares the payload with what the path may
still send, and looks at the first frame only; the path is charged for the whole packet. -/

/-- The size of the packet that a payload makes on a path, with padding, header and tag. -/
def wireLength (s : Session) (pathId : Nat) (payload : Bytes) : Nat :=
  (s.outboundPayload payload).length + packetOverhead s.dcid pathId

section
variable {crypto : Primitives} {s : Session} {pathId : Nat} {now : Instant} {space : PacketSpaceState}
  {payload pkt : Bytes} {path : Path}

theorem recordOutbound_paths : (s.recordOutbound now pn payload size).paths = s.paths := by
  simp only [recordOutbound]
  split <;> rfl

/-- An unvalidated path is charged for the packet. -/
theorem sentOn_path (found : s.paths.get? pathId = some path) (unvalidated : path.validated = false) :
    (s.sentOn pathId now space payload pkt).paths.get? pathId = some (path.recordSent pkt.length) := by
  have same : ∀ spaces, (recordOutbound { s with spaces } now space.nextPacketNumber payload
      pkt.length).paths.get? pathId = some path := by
    intro spaces
    rw [recordOutbound_paths]
    exact found
  simp only [sentOn, chargePath, same, unvalidated, Bool.false_eq_true, if_false, OrderedMap.get?_insert, if_true]

/-- The allowance is what is left of three times the bytes received, while the counter holds it. -/
theorem le_sendAllowance_iff (positive : 0 < size) (representable : path.sentBytesUnvalidated + size ≤ u64Max) :
    size ≤ path.sendAllowance ↔ path.sentBytesUnvalidated + size ≤ 3 * path.receivedBytesUnvalidated := by
  unfold Path.sendAllowance saturatingMul
  omega

/-- Behind a packet on an unvalidated path, what was sent on it is within three times what was received exactly
if the packet, and not the payload alone, was within the allowance. -/
theorem amplification_bounded_iff (tagged : PacketKeys.AppendsTag crypto)
    (found : s.paths.get? pathId = some path) (unvalidated : path.validated = false)
    (sent : (s.buildOutboundInner crypto pathId now payload).1 = .ok (some pkt))
    (representable : path.sentBytesUnvalidated + pkt.length ≤ u64Max) :
    (∃ charged, (s.buildOutboundInner crypto pathId now payload).2.paths.get? pathId = some charged ∧
      charged.sentBytesUnvalidated = path.sentBytesUnvalidated + pkt.length ∧
      charged.sentBytesUnvalidated ≤ 3 * charged.receivedBytesUnvalidated) ↔
    s.wireLength pathId payload ≤ path.sendAllowance := by
  obtain ⟨-, none⟩ | ⟨space, built, sends, result⟩ := s.buildOutboundInner_cases crypto pathId now payload
  · exact absurd sent (none pkt)
  · rw [result] at sent ⊢
    obtain rfl : built = pkt := by simpa using sent
    have length : built.length = s.wireLength pathId payload := buildProtectedPacket_length tagged sends.built
    have positive : 0 < s.wireLength pathId payload := by
      unfold wireLength packetOverhead
      omega
    rw [length] at representable
    rw [sentOn_path found unvalidated, le_sendAllowance_iff positive representable, ← length]
    constructor
    · rintro ⟨charged, same, -, within⟩
      cases same
      exact within
    · exact fun within => ⟨_, rfl, rfl, within⟩

end
/-- A session with an unvalidated path 0. -/
def candidate : Session :=
  (tenByteServer.addPath 0 "ump.udp/1" [] [] 0 (Octets.fill 8 0)).2

/-- The path has received a PING of 29 bytes. -/
def pinged : Session := (candidate.onInbound transparent 0 (plainPacket 0 [0x04])).2

/-- Whether a path is validated, what was sent on it, and three times what was received. -/
def amplification (path : Path) : Bool × Nat × Nat :=
  (path.validated, path.sentBytesUnvalidated, 3 * path.receivedBytesUnvalidated)

theorem amplification_bounded_small_segment :
    ∃ charged, (pinged.buildOutboundInner transparent 0 1 (openingFrame [1, 2, 3])).2.paths.get? 0 = some charged ∧
      charged.sentBytesUnvalidated = 0 + 37 ∧ charged.sentBytesUnvalidated ≤ 3 * charged.receivedBytesUnvalidated := by
  have tagged : PacketKeys.AppendsTag transparent := by
    rintro key nonce aad msg sealed ⟨⟩
    simp
  have found : ∃ path, pinged.paths.get? 0 = some path ∧ path.validated = false ∧
      path.sentBytesUnvalidated = 0 ∧ path.sendAllowance = 87 := by
    decide +kernel
  obtain ⟨path, found, unvalidated, none, allowance⟩ := found
  have sent : (pinged.buildOutboundInner transparent 0 1 (openingFrame [1, 2, 3])).1 =
      .ok (some (plainPacket 0 (openingFrame [1, 2, 3]))) := by
    decide +kernel
  have length : (plainPacket 0 (openingFrame [1, 2, 3])).length = 37 := by decide
  have within : pinged.wireLength 0 (openingFrame [1, 2, 3]) ≤ 87 := by decide +kernel
  have bounded := (amplification_bounded_iff tagged found unvalidated sent (by rw [none, length]; decide)).mpr
    (allowance ▸ within)
  rwa [none, length] at bounded

/-- A STREAM frame as long as the allowance makes a longer packet, and a PING in front of one is not held back. -/
theorem amplification_exceeded :
    let frame := openingFrame (List.replicate 80 7)
    (pinged.buildOutboundInner transparent 0 1 frame).1 = .ok (some (plainPacket 0 frame)) ∧
      (decodeFrames frame).toOption.map (List.map frameTypeOf) = some [.stream] ∧
      ((pinged.buildOutboundInner transparent 0 1 frame).2.paths.get? 0).map
        amplification = some (false, 115, 87) ∧
      (decodeFrames (0x04 :: openingFrame [1])).toOption.map (List.map frameTypeOf) = some [.ping, .stream] ∧
      ((candidate.buildOutboundInner transparent 0 1 (0x04 :: openingFrame [1])).2.paths.get? 0).map
        amplification = some (false, 36, 0) := by
  decide +kernel

end UniversalMesh.Session
