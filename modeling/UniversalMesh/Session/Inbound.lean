import UniversalMesh.Session.State

/-! The sending side of `session.rs`: `build_outbound_inner` with its two gates, and
`retransmit`. -/
namespace UniversalMesh.Session
open MachineWord Wire Crypto

section

def protectedOverheadEstimate : Nat := 64

/-- The frame types `payload_is_exempt` lets through the gates. -/
def exemptTypes : List FrameType := [.ack, .ping, .pathChallenge, .pathResponse, .migrate]

variable (payload : Bytes)

/-- `payload_is_exempt`: only the first frame's type is looked at. -/
def payloadIsExempt : Bool :=
  match Varint.decode payload with
  | .error _ => false
  | .ok (frameType, _) => exemptTypes.contains ⟨frameType⟩

variable (s : Session)

/-- `outbound_payload`: data is padded to a fixed size where the policy asks for it. -/
def outboundPayload : Bytes :=
  if !s.trafficPadding || payloadIsExempt payload || payload.length ≥ trafficPaddingTarget then
    payload
  else payload ++ List.replicate (trafficPaddingTarget - payload.length) 0

/-- The anti-amplification gate of `build_outbound_inner`. -/
def amplificationLimited (pathId : Nat) (payload : Bytes) : Bool :=
  match s.paths.get? pathId with
  | none => false
  | some path =>
    !path.validated && !payloadIsExempt payload && payload.length > path.sendAllowance

/-- The congestion gate of `build_outbound_inner`. -/
def congestionLimited : Bool :=
  !payloadIsExempt payload &&
    payload.length + protectedOverheadEstimate > s.congestion.sendAllowance

/-- The sent packet enters the queue; a packet evicted at the cap loses its payload, and its bytes are released.
-/
def recordOutbound (now : Instant) (pn : Nat) (payload : Bytes) (size : Nat) : Session :=
  let retained := s.retransmitPayloads.insert pn payload
  match s.sent.recordSent (.new pn .sessionData now size true 0) with
  | (none, sent) => { s with sent, retransmitPayloads := retained }
  | (some (lostPn, lostSize), sent) =>
    { s with sent, retransmitPayloads := retained.erase lostPn
             congestion := s.congestion.onPacketAcknowledged lostSize }

/-- An unvalidated path is charged for the bytes sent on it. -/
def chargePath (pathId size : Nat) : Session :=
  match s.paths.get? pathId with
  | none => s
  | some path =>
    if path.validated then s else { s with paths := s.paths.insert pathId (path.recordSent size) }

section
variable (crypto : Primitives) (s : Session)

/-- `build_outbound_inner`. A packet number that was allocated stays so when the
packet cannot be assembled. -/
def buildOutboundInner (pathId : Nat) (now : Instant) (payload : Bytes) : Reply (Option Bytes) :=
  if s.state ≠ .active then (.ok none, s)
  else
    let payload := s.outboundPayload payload
    if s.amplificationLimited pathId payload then (.error .amplificationLimit, s)
    else if s.congestionLimited payload then (.error .congestionLimited, s)
    else
      match s.spaces.get? .sessionData with
      | none => (.error .noSpace, s)
      | some space =>
        match space.allocatePacketNumber with
        | .error e => (.error (.space e), s)
        | .ok (pn, space) =>
          let s := { s with spaces := s.spaces.insert .sessionData space }
          match buildProtectedPacket crypto s.localKeys s.localHpKey .sessionData s.dcid pathId pn
            false payload with
          | .error e => (.error (.packet e), s)
          | .ok pkt =>
            let s := (s.recordOutbound now pn payload pkt.length).chargePath pathId pkt.length
            (.ok (some pkt), { s with congestion := s.congestion.onPacketSent pkt.length })

/-- `build_outbound` and its variants without a path: the primary path's. -/
def buildOutbound (now : Instant) (payload : Bytes) : Reply (Option Bytes) :=
  s.buildOutboundInner crypto s.primaryPathId now payload

def pruneRetransmitPayload (pn : Nat) : Session :=
  { s with retransmitPayloads := s.retransmitPayloads.erase pn }

/-- `Session::retransmit`. The payload is kept when the packet is refused. -/
def retransmit (pn : Nat) (now : Instant) : Reply (Option Bytes) :=
  match s.retransmitPayloads.get? pn with
  | none => (.ok none, s)
  | some payload =>
    match s.buildOutboundInner crypto s.primaryPathId now payload with
    | (.error e, s) => (.error e, s)
    | (.ok bytes, s) => (.ok bytes, s.pruneRetransmitPayload pn)

end

end

/-! `on_inbound` of `session.rs`, frame by frame. The packet is opened, admitted to its replay window and
recorded for acknowledgement before its payload is parsed; the frames are applied in order, and one that is
refused ends the call with what those before it have done. -/

def validateStreamId (streamId initiator : Nat) (unidirectional : Bool) : Bool :=
  initiator ≤ 1 && streamId % 4 = (initiator ||| if unidirectional then 2 else 0)

variable (s : Session) (f : StreamFrame)

/-- The checks of `apply_stream_frame` before it touches a stream. -/
def checkStreamFrame : Except SessionError Unit :=
  let initiator := f.streamId % 2
  if !validateStreamId f.streamId initiator f.unidirectional then .error .invalidStreamId
  else
    match s.streams.get? f.streamId with
    | some stream =>
      if initiator = initiatorBit s.role ∧ stream.unidirectional then .error .invalidStreamId
      else if stream.unidirectional ≠ f.unidirectional then .error .invalidStreamId
      else if s.closedStreams.contains f.streamId then .error .streamClosed
      else .ok ()
    | none =>
      if initiator ≠ 1 - initiatorBit s.role then .error .invalidStreamId
      else if s.closedStreams.contains f.streamId then .error .streamClosed
      else if s.streams.size ≥ maxStreamsPerSession then .error .streamLimit
      else if !f.isOpen then .error .protocolViolation
      else .ok ()

/-- A new stream with the opening fields of its first frame. -/
def openedStream : Stream :=
  { Stream.new f.streamId f.protocolId s.defaultMaxStreamData with
    unidirectional := f.unidirectional, metadata := f.metadata, recvOpened := true }

/-- The stream a frame is for; a known one has to agree with the opening fields. -/
def streamFor : Except SessionError Stream :=
  match s.streams.get? f.streamId with
  | none => .ok (s.openedStream f)
  | some stream =>
    if f.isOpen then
      if stream.protocolId ≠ f.protocolId ∨ stream.metadata ≠ f.metadata then
        .error .protocolViolation
      else .ok { stream with recvOpened := true }
    else if !stream.recvOpened ∨ f.protocolId ≠ [] ∨ f.metadata ≠ [] then .error .protocolViolation
    else .ok stream

/-- The receiving half is over: nothing may be delivered any more. -/
def recvClosed (stream : Stream) : Bool :=
  stream.recvState = .dataRead || stream.recvState = .resetRead || stream.recvState = .resetRecvd

/-- The session with the stream of a frame put back; a new one is counted. -/
def putStream (streamId : Nat) (stream : Stream) : Session :=
  { s.setStream streamId stream with
    peerInitiatedStreams :=
      if (s.streams.get? streamId).isNone then s.peerInitiatedStreams + 1
      else s.peerInitiatedStreams }

/-- The end of `apply_stream_frame`. The segment is buffered before the connection's
credit is charged for it. -/
def receiveSegment (stream : Stream) : Reply Unit :=
  if recvClosed stream then (.error .streamClosed, s.putStream f.streamId stream)
  else
    match stream.receive f.offset f.data f.fin with
    | (.error e, stream) => (.error (.stream e), s.putStream f.streamId stream)
    | (.ok newBytes, stream) =>
      let s := s.putStream f.streamId stream
      match s.flow.consume newBytes with
      | .error e => (.error (.flow e), s)
      | .ok flow =>
        let consumed := (s.streamConsumed.get? f.streamId).getD 0
        (.ok (), { s with
          flow, streamConsumed := s.streamConsumed.insert f.streamId (consumed + newBytes) })

def applyStreamFrame : Reply Unit :=
  match s.checkStreamFrame f with
  | .error e => (.error e, s)
  | .ok () =>
    match s.streamFor f with
    | .error e => (.error e, s)
    | .ok stream => s.receiveSegment f stream

/-- The RESET_STREAM arm. The final size is charged once. -/
def applyResetStream (f : ResetStreamFrame) : Reply Unit :=
  if s.closedStreams.contains f.streamId then (.error .streamClosed, s)
  else
    match s.streams.get? f.streamId with
    | none => (.ok (), s)
    | some stream =>
      if f.finalSize < stream.maxReceivedOffset then (.error (.flow .exceedsCredit), s)
      else if stream.finalSize.any (· ≠ f.finalSize) then (.error (.flow .exceedsCredit), s)
      else
        let known := s.resetFinalSizes.contains f.streamId
        let s := { s with
          resetFinalSizes := if known then s.resetFinalSizes else f.streamId :: s.resetFinalSizes }
        match if known then .ok s.flow else s.flow.consume f.finalSize with
        | .error e => (.error (.flow e), s)
        | .ok flow =>
          let stream := { stream with
            recvState := .resetRecvd, resetErrorCode := some f.appErrorCode }
          (.ok (), { s.setStream f.streamId stream with
            flow
            streamConsumed := s.streamConsumed.erase f.streamId
            streamAppConsumed := s.streamAppConsumed.erase f.streamId })

/-- A change to one stream, if the session has it. -/
def onStream (streamId : Nat) (change : Stream → Stream) : Session :=
  match s.streams.get? streamId with
  | none => s
  | some stream => s.setStream streamId (change stream)

/-- The MAX_STREAMS arm. -/
def raiseStreamLimit (f : MaxStreamsFrame) : Session :=
  if f.bidirectional then
    { s with flow := { s.flow with
        maxBidirectionalStreamsLocal := max s.flow.maxBidirectionalStreamsLocal f.maximumStreams } }
  else
    { s with flow := { s.flow with
        maxUnidirectionalStreamsLocal := max s.flow.maxUnidirectionalStreamsLocal f.maximumStreams } }

/-- The record of a sent packet; the source's map keeps the last of a number. -/
def sentPacket? (pn : Nat) : Option SentPacket :=
  s.sent.sent.reverse.find? (·.packetNumber = pn)

/-- The congestion feedback of `apply_peer_ack`. -/
def ackCongestion (acked : List Nat) : Reno :=
  let sizes := acked.filterMap fun pn => (s.sentPacket? pn).map SentPacket.size
  let congestion := sizes.foldl Reno.onPacketAcknowledged s.congestion
  if sizes.sum > 0 then congestion.onAck sizes.sum else congestion

/-- The round-trip samples of `apply_peer_ack`; the newest packet's is the latest. -/
def ackRtt (acked : List Nat) (ackDelay : Nat) (now : Instant) : RttEstimator :=
  let sampleOf pn := (s.sentPacket? pn).map fun p => now - p.sentAt - ackDelay
  let rtt := ((acked.filterMap sampleOf).filter (0 < ·)).foldl RttEstimator.sample s.rtt
  match acked.getLast?.bind sampleOf with
  | some sample => if sample > 0 then { rtt with latestRtt := sample } else rtt
  | none => rtt

def applyPeerAck (ack : AckFrame) (now : Instant) : Reply (List Nat) :=
  match s.sent.applyAck ack.largestAcknowledged (flatRanges ack) with
  | .error e => (.error (.ack e), s)
  | .ok (acked, sent) =>
    (.ok acked, { s with
      sent
      retransmitPayloads := acked.foldl OrderedMap.erase s.retransmitPayloads
      congestion := s.ackCongestion acked
      rtt := s.ackRtt acked ack.ackDelay now })

/-- The MIGRATE arm, for a sequence that is not news. The sequence is taken before the
migration is tried. -/
def applyMigrate (f : MigrateFrame) : Reply Unit :=
  if f.migrationSequence ≤ s.lastMigrationSequence then (.ok (), s)
  else if f.oldPathId ≠ s.primaryPathId then (.error .pathMigration, s)
  else
    let s := { s with lastMigrationSequence := f.migrationSequence }
    if f.makePrimary then s.migrateTo f.newPathId f.keepOldPath else (.ok (), s)

/-- The DATAGRAM arm. -/
def applyDatagram (d : DatagramFrame) : Reply Unit :=
  let datagram : Datagram :=
    { contextId := d.contextId, data := d.data, expiresAtMs := none, ackRequested := d.ackRequested }
  match s.datagrams.enqueueInbound datagram with
  | .error e => (.error (.datagram e), s)
  | .ok datagrams => (.ok (), { s with datagrams })

/-- The NEW_CONNECTION_ID arm. -/
def applyNewConnectionId (f : NewConnectionIdFrame) : Reply Unit :=
  if f.connectionId.length ≠ defaultDcidLen then (.error .badConnectionId, s)
  else (.ok (), { s with dcid := f.connectionId })

def silently (reply : Reply α) : Reply Bytes := (reply.1.map fun _ => [], reply.2)

section
variable (crypto : Primitives) (now : Instant)

/-- One turn of the loop: what the frame adds to the response. -/
def applyFrame (pathId : Nat) (s : Session) : Frame → Reply Bytes
  | .stream f => silently (s.applyStreamFrame f)
  | .datagram d => silently (s.applyDatagram d)
  | .resetStream f => silently (s.applyResetStream f)
  | .stopSending f => (.ok [], s.onStream f.streamId fun stream => { stream with sendState := .resetSent })
  | .maxData f =>
    (.ok [], if f.maximumData > s.flow.maxDataRemote then
      { s with flow := { s.flow with maxDataRemote := f.maximumData } } else s)
  | .maxStreamData f =>
    (.ok [], s.onStream f.streamId fun stream =>
      { stream with maxStreamDataRemote := max stream.maxStreamDataRemote f.maximumStreamData })
  | .maxStreams f => (.ok [], s.raiseStreamLimit f)
  | .connectionClose _ => (.ok [], { s with state := .closed })
  | .newConnectionId f => silently (s.applyNewConnectionId f)
  | .retireConnectionId f => (.ok [], { s with cids := (s.cids.retire f.sequence).2 })
  | .ack f => silently (s.applyPeerAck f now)
  | .keyUpdate f => silently (s.onKeyUpdate crypto f.updateSequence)
  | .pathChallenge f => (.ok (onPathChallenge f.data), s)
  | .pathResponse f => silently (s.onPathResponse pathId f.data)
  | .migrate f => silently (s.applyMigrate f)
  | _ => (.ok [], s)

/-- The first frame that fails ends the packet; what came before it stays applied. -/
def applyFrames (now : Instant) (pathId : Nat) (s : Session) (response : Bytes) :
    List Frame → Reply Bytes
  | [] => (.ok response, s)
  | frame :: frames =>
    match s.applyFrame crypto now pathId frame with
    | (.error e, s) => (.error e, s)
    | (.ok out, s) => s.applyFrames now pathId (response ++ out) frames

variable (s : Session)

/-- The end of `on_inbound`: the ACK of the packet's space, if one is due. -/
def emitAck (space : PacketSpace) (response : Bytes) : Reply Bytes :=
  match s.recvAcks.get? space with
  | none => (.ok response, s)
  | some state =>
    let s := { s with recvAcks := s.recvAcks.insert space state.takeNeedsAck.2 }
    match state.dueAck with
    | none => (.ok response, s)
    | some ack => ((ack.write response).mapError fun _ => .encode, s)

/-- The space of the session for the space of a header. -/
def spaceOf : ShortPacketSpace → PacketSpace
  | .sessionData => .sessionData
  | .pathControl => .pathControl
  | .relayData => .relayData

/-- The packet number to expect in the session data space. -/
def expectedPn : Nat :=
  ((s.spaces.get? .sessionData).map fun space => saturatingAdd space.largestReceived 1).getD 0

/-- `parse_protected_packet` as `on_inbound` calls it. -/
def openInbound (bytes : Bytes) : Except PacketBuildError OpenedPacket :=
  parseProtectedPacket crypto s.remoteKeys s.remoteHpKey s.expectedPn bytes

/-- A packet that does not open may be a stateless reset. -/
def onUnopened (bytes : Bytes) (e : PacketBuildError) : Reply α :=
  match s.statelessResetSecret with
  | none => (.error (.packet e), s)
  | some secret =>
    if tokenMatches bytes (resetToken secret) then (.error .statelessReset, { s with state := .closed })
    else (.error (.packet e), s)

def recordReceived (space : PacketSpace) (pn : Nat) : Session :=
  let state := (s.recvAcks.get? space).getD .new
  { s with recvAcks := s.recvAcks.insert space (state.record pn) }

/-- The bytes received grow the budget of the packet's path, or of the default path. -/
def accountReceived (pathId size : Nat) (now : Instant) : Session :=
  let budgetPath := if (s.paths.get? pathId).isSome then pathId else defaultPathId
  match s.paths.get? budgetPath with
  | none => s
  | some path => { s with paths := s.paths.insert budgetPath (path.recordReceived size now) }

/-- The idle timer is reset by a packet with a frame that is not padding. -/
def resetIdleTimer (frames : List Frame) (now : Instant) : Session :=
  if frames.any (· ≠ .padding) then { s with lastActivity := some now } else s

/-- The admission of `on_inbound`: the packet opens, its number is new to its space, and it is recorded for
acknowledgement, before its payload is looked at. -/
def admitPacket (bytes : Bytes) : Reply OpenedPacket :=
  match s.openInbound crypto bytes with
  | .error e => s.onUnopened bytes e
  | .ok packet =>
    let space := spaceOf packet.space
    match s.spaces.get? space with
    | none => (.error .noSpace, s)
    | some spaceState =>
      match spaceState.admitReconstructed packet.pn with
      | .error e => (.error (.space e), s)
      | .ok (pn, spaceState) =>
        let s := { s with spaces := s.spaces.insert space spaceState }
        (.ok packet, (s.recordReceived space pn).accountReceived packet.pathId bytes.length now)

/-- The payload of an admitted packet is parsed and its frames are applied. -/
def applyPacket (packet : OpenedPacket) : Reply Bytes :=
  match parsePayload (.protectedSpace packet.space) packet.payload with
  | .error e => (.error (.wirePacket e), s)
  | .ok frames => (s.resetIdleTimer frames now).applyFrames crypto now packet.pathId [] frames

/-- A packet is admitted, applied and acknowledged. -/
def onInbound (bytes : Bytes) : Reply Bytes :=
  match s.admitPacket crypto now bytes with
  | (.error e, s) => (.error e, s)
  | (.ok packet, s) =>
    match s.applyPacket crypto now packet with
    | (.error e, s) => (.error e, s)
    | (.ok response, s) => s.emitAck (spaceOf packet.space) response

end
end UniversalMesh.Session
