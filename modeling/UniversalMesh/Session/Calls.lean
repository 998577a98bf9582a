import UniversalMesh.Session.Inbound

/-! What sending and receiving packets write in a session: each function has one lemma with the fields that it
may change. -/
namespace UniversalMesh.Session
open MachineWord Wire Crypto

section

/-- What a session knows of its streams. -/
structure StreamSide where
  role : Role
  (nextOutgoingStream nextOutgoingUnidirectional : Nat)
  streams : OrderedMap Nat Stream
  closedStreams : ClosedStreamRegistry
  flow : FlowControl

def streamSide (s : Session) : StreamSide := { s with }

variable (crypto : Primitives) (s : Session)

/-! ### Packets that are sent -/

theorem recordOutbound_writes (now : Instant) (pn : Nat) (payload : Bytes) (size : Nat) :
    ∃ sent retained congestion, s.recordOutbound now pn payload size =
      { s with sent, retransmitPayloads := retained, congestion } := by
  unfold recordOutbound
  dsimp only
  split <;> exact ⟨_, _, _, rfl⟩

theorem chargePath_writes (pathId size : Nat) : ∃ paths, s.chargePath pathId size = { s with paths } := by
  unfold chargePath
  repeat' split
  all_goals exact ⟨_, rfl⟩

/-- The session with the next number of the session data space taken. -/
def numbered (space : PacketSpaceState) : Session :=
  { s with spaces := s.spaces.insert .sessionData { space with nextPacketNumber := space.nextPacketNumber + 1 } }

def sentOn (s : Session) (pathId : Nat) (now : Instant) (space : PacketSpaceState) (payload pkt : Bytes) : Session :=
  let numbered := { s with
    spaces := s.spaces.insert .sessionData { space with nextPacketNumber := space.nextPacketNumber + 1 } }
  let charged := (numbered.recordOutbound now space.nextPacketNumber payload pkt.length).chargePath pathId pkt.length
  { charged with congestion := charged.congestion.onPacketSent pkt.length }

/-- The payload passes both gates and makes a packet under the next number. -/
structure Sends (crypto : Primitives) (s : Session) (pathId : Nat) (space : PacketSpaceState)
    (payload pkt : Bytes) : Prop where
  found : s.spaces.get? .sessionData = some space
  unamplified : s.amplificationLimited pathId payload = false
  uncongested : s.congestionLimited payload = false
  built : buildProtectedPacket crypto s.localKeys s.localHpKey .sessionData s.dcid pathId
    space.nextPacketNumber false payload = .ok pkt

theorem sentOn_writes (pathId : Nat) (now : Instant) (space : PacketSpaceState) (payload pkt : Bytes) :
    ∃ sent retained congestion paths, s.sentOn pathId now space payload pkt =
      { s.numbered space with sent, retransmitPayloads := retained, congestion, paths } := by
  obtain ⟨sent, retained, congestion, recorded⟩ :=
    (s.numbered space).recordOutbound_writes now space.nextPacketNumber payload pkt.length
  obtain ⟨paths, charged⟩ := chargePath_writes
    ((s.numbered space).recordOutbound now space.nextPacketNumber payload pkt.length) pathId pkt.length
  refine ⟨sent, retained, congestion.onPacketSent pkt.length, paths, ?_⟩
  rw [recorded] at charged
  unfold numbered at charged recorded
  simp only [sentOn, recorded, charged]
  rfl

/-- `build_outbound_inner` sends a packet, or takes a number at most. -/
theorem buildOutboundInner_cases (pathId : Nat) (now : Instant) (payload : Bytes) :
    let outcome := s.buildOutboundInner crypto pathId now payload
    ((outcome.2 = s ∨ ∃ space, s.spaces.get? .sessionData = some space ∧ outcome.2 = s.numbered space) ∧
      ∀ pkt, outcome.1 ≠ .ok (some pkt)) ∨
    ∃ space pkt, Sends crypto s pathId space (s.outboundPayload payload) pkt ∧
      outcome = (.ok (some pkt), s.sentOn pathId now space (s.outboundPayload payload) pkt) := by
  simp only [buildOutboundInner]
  split
  · exact .inl ⟨.inl rfl, by simp⟩
  split
  · exact .inl ⟨.inl rfl, by simp⟩
  split
  · exact .inl ⟨.inl rfl, by simp⟩
  next unamplified uncongested =>
  split
  · exact .inl ⟨.inl rfl, by simp⟩
  next space found =>
  split
  · exact .inl ⟨.inl rfl, by simp⟩
  next pn space' allocated =>
  obtain ⟨rfl, rfl⟩ : pn = space.nextPacketNumber ∧
      space' = { space with nextPacketNumber := space.nextPacketNumber + 1 } := by
    unfold PacketSpaceState.allocatePacketNumber at allocated
    split at allocated <;> cases allocated
    exact ⟨rfl, rfl⟩
  split
  · exact .inl ⟨.inr ⟨space, found, rfl⟩, by simp⟩
  next pkt built =>
  refine .inr ⟨space, pkt, ⟨found, ?_, ?_, built⟩, rfl⟩
  · exact Bool.eq_false_of_not_eq_true unamplified
  · exact Bool.eq_false_of_not_eq_true uncongested

theorem buildOutboundInner_writes (pathId : Nat) (now : Instant) (payload : Bytes) :
    ∃ spaces sent retained congestion paths, (s.buildOutboundInner crypto pathId now payload).2 =
      { s with spaces, sent, retransmitPayloads := retained, congestion, paths } := by
  obtain ⟨same | ⟨space, -, same⟩, -⟩ | ⟨space, pkt, -, result⟩ := s.buildOutboundInner_cases crypto pathId now payload
  · exact ⟨_, _, _, _, _, same⟩
  · exact ⟨_, _, _, _, _, same⟩
  · obtain ⟨sent, retained, congestion, paths, written⟩ :=
      s.sentOn_writes pathId now space (s.outboundPayload payload) pkt
    rw [result]
    exact ⟨_, sent, retained, congestion, paths, written⟩

/-- A retransmission drops the payload of the packet that is sent again. -/
theorem retransmit_cases (pn : Nat) (now : Instant) :
    (s.retransmit crypto pn now).2 = s ∨ ∃ payload, s.retransmitPayloads.get? pn = some payload ∧
      ((s.retransmit crypto pn now).2 = (s.buildOutboundInner crypto s.primaryPathId now payload).2 ∨
        (s.retransmit crypto pn now).2 =
          (s.buildOutboundInner crypto s.primaryPathId now payload).2.pruneRetransmitPayload pn) := by
  unfold retransmit
  split
  · exact .inl rfl
  · next payload found =>
    refine .inr ⟨payload, found, ?_⟩
    split
    · next refused => exact .inl (by rw [refused])
    · next sent => exact .inr (by rw [sent])

theorem retransmit_writes (pn : Nat) (now : Instant) :
    ∃ spaces sent retained congestion paths, (s.retransmit crypto pn now).2 =
      { s with spaces, sent, retransmitPayloads := retained, congestion, paths } := by
  obtain same | ⟨payload, -, built⟩ := s.retransmit_cases crypto pn now
  · exact ⟨_, _, _, _, _, same⟩
  obtain ⟨spaces, sent, retained, congestion, paths, written⟩ :=
    s.buildOutboundInner_writes crypto s.primaryPathId now payload
  rw [written] at built
  obtain refused | sent := built
  · exact ⟨_, _, _, _, _, refused⟩
  · exact ⟨_, _, _, _, _, sent⟩

/-! ### Packets that are received -/

theorem accountReceived_writes (pathId size : Nat) (now : Instant) :
    ∃ paths, s.accountReceived pathId size now = { s with paths } := by
  simp only [accountReceived]
  split <;> exact ⟨_, rfl⟩

/-- A packet is refused, and may close the session, or it opens and its space admits its number. -/
theorem admitPacket_cases (now : Instant) (bytes : Bytes) :
    (∃ e state, s.admitPacket crypto now bytes = (.error e, { s with state })) ∨
      ∃ packet space space', s.openInbound crypto bytes = .ok packet ∧
        s.spaces.get? (spaceOf packet.space) = some space ∧
        space.admitReconstructed packet.pn = .ok (packet.pn, space') ∧
        s.admitPacket crypto now bytes = (.ok packet, accountReceived
          { s with
            spaces := s.spaces.insert (spaceOf packet.space) space'
            recvAcks := s.recvAcks.insert (spaceOf packet.space)
              (((s.recvAcks.get? (spaceOf packet.space)).getD .new).record packet.pn) }
          packet.pathId bytes.length now) := by
  unfold admitPacket
  split
  · unfold onUnopened
    repeat' split
    all_goals exact .inl ⟨_, _, rfl⟩
  next packet opened =>
  dsimp only
  split
  · exact .inl ⟨_, _, rfl⟩
  next space found =>
  split
  · exact .inl ⟨_, _, rfl⟩
  next pn space' admitted =>
  obtain rfl : packet.pn = pn := by
    unfold PacketSpaceState.admitReconstructed at admitted
    split at admitted <;> cases admitted
    rfl
  exact .inr ⟨packet, space, space', opened, found, admitted, rfl⟩

theorem admitPacket_writes (now : Instant) (bytes : Bytes) :
    ∃ state spaces acks paths, (s.admitPacket crypto now bytes).2 =
      { s with state, spaces, recvAcks := acks, paths } := by
  obtain ⟨e, state, refused⟩ | ⟨packet, space, space', -, -, -, admitted⟩ := s.admitPacket_cases crypto now bytes
  · rw [refused]
    exact ⟨_, _, _, _, rfl⟩
  · rw [admitted]
    obtain ⟨paths, accounted⟩ := accountReceived_writes _ packet.pathId bytes.length now
    exact ⟨_, _, _, _, accounted⟩

theorem resetIdleTimer_writes (frames : List Frame) (now : Instant) :
    ∃ activity, s.resetIdleTimer frames now = { s with lastActivity := activity } := by
  unfold resetIdleTimer
  split <;> exact ⟨_, rfl⟩

theorem emitAck_writes (space : PacketSpace) (response : Bytes) :
    ∃ acks, (s.emitAck space response).2 = { s with recvAcks := acks } := by
  simp only [emitAck]
  repeat' split
  all_goals exact ⟨_, rfl⟩

end

/-! The session as a state machine: the calls a daemon makes on it, and which parts of the state each of them
leaves alone. -/

/-- The calls that concern closing, keys, paths, connection IDs and datagrams. -/
inductive ControlCall where
  | sendDatagram (d : Datagram) (maxSize : Nat) | popOutboundDatagramPayload (nowMs : Nat)
  | recvDatagram | touch (now : Instant) | close (now : Instant) | finalizeClose
  | maybeEmitStatelessReset (now : Instant) (tail : Octets 16) (triggerLen : Nat)
  | setStatelessResetSecret (secret : Octets 32) | initiateKeyUpdate | onKeyUpdate (sequence : Nat)
  | addPath (pathId : Nat) (carrierType : String) (localContext remoteContext : Bytes)
      (now : Instant) (challenge : Octets 8)
  | onPathResponse (pathId : Nat) (response : Octets challengeLen)
  | migrateTo (newPathId : Nat) (keepOld : Bool)
  | buildMigratePayload (newPathId : Nat) (keepOldPath duplicateCriticalFrames : Bool)
  | takePathMigration | takePathValidation | markPathDegraded (pathId : Nat)
  | issueConnectionId (bytes : Octets 8) (token : Octets 16) | setDirectPathAllowed (allowed : Bool)
  | setTrafficPadding (enabled : Bool) | setPrivacyProfile (profile : Nat)

/-- The calls of an application on its streams, and the credit frames. -/
inductive DataCall where
  | openStreamKind (unidirectional : Bool)
  | openStreamWithProtocol (protocolId : Bytes) (unidirectional : Bool)
  | sendStreamData (streamId : Nat) (data : Bytes) (fin : Bool)
  | closeStreamSendPayload (streamId : Nat)
  | resetStreamPayload (streamId applicationErrorCode : Nat) | readStream (streamId : Nat)
  | flowControlFrames

/-- The calls on a session. `apply_peer_ack` is part of `on_inbound`, and what the daemon's loss pass does is in
`Daemon.LossRepair`. `force_validate` is left out: here a path is validated by a response. -/
inductive Call where
  | control (call : ControlCall) | data (call : DataCall)
  | buildOutbound (pathId : Nat) (now : Instant) (payload : Bytes)
  | retransmit (pn : Nat) (now : Instant) | pruneRetransmitPayload (pn : Nat)
  | onInbound (now : Instant) (bytes : Bytes)

variable (crypto : Primitives)

def ControlCall.run (s : Session) : ControlCall → Session
  | sendDatagram d maxSize => (s.sendDatagram d maxSize).2
  | popOutboundDatagramPayload nowMs => (s.popOutboundDatagramPayload nowMs).2
  | recvDatagram => s.recvDatagram.2
  | touch now => s.touch now
  | close now => s.close now
  | finalizeClose => s.finalizeClose
  | maybeEmitStatelessReset now tail triggerLen => (s.maybeEmitStatelessReset now tail triggerLen).2
  | setStatelessResetSecret secret => { s with statelessResetSecret := some secret }
  | initiateKeyUpdate => (s.initiateKeyUpdate crypto).2
  | onKeyUpdate sequence => (s.onKeyUpdate crypto sequence).2
  | addPath pathId carrierType localContext remoteContext now challenge =>
    (s.addPath pathId carrierType localContext remoteContext now challenge).2
  | onPathResponse pathId response => (s.onPathResponse pathId response).2
  | migrateTo newPathId keepOld => (s.migrateTo newPathId keepOld).2
  | buildMigratePayload newPathId keepOldPath duplicateCriticalFrames =>
    (s.buildMigratePayload newPathId keepOldPath duplicateCriticalFrames).2
  | takePathMigration => s.takePathMigration.2
  | takePathValidation => s.takePathValidation.2
  | markPathDegraded pathId => (s.markPathDegraded pathId).2
  | issueConnectionId bytes token => (s.issueConnectionId bytes token).2
  | setDirectPathAllowed allowed => { s with directPathAllowed := allowed }
  | setTrafficPadding enabled => { s with trafficPadding := enabled }
  -- the strictest profile pads; the profile itself is not read by the session
  | setPrivacyProfile profile => { s with trafficPadding := s.trafficPadding || decide (3 ≤ profile) }

def DataCall.run (s : Session) : DataCall → Session
  | openStreamKind unidirectional => (s.openStreamKind unidirectional).2
  | openStreamWithProtocol protocolId unidirectional =>
    (s.openStreamWithProtocol protocolId unidirectional).2
  | sendStreamData streamId data fin => (s.sendStreamData streamId data fin).2
  | closeStreamSendPayload streamId => (s.closeStreamSendPayload streamId).2
  | resetStreamPayload streamId code => (s.resetStreamPayload streamId code).2
  | readStream streamId => (s.readStream streamId).2
  | flowControlFrames => s.flowControlFrames.2

def Call.run (s : Session) : Call → Session
  | control call => call.run crypto s
  | data call => call.run s
  | buildOutbound pathId now payload => (s.buildOutboundInner crypto pathId now payload).2
  | retransmit pn now => (s.retransmit crypto pn now).2
  | pruneRetransmitPayload pn => s.pruneRetransmitPayload pn
  | onInbound now bytes => (s.onInbound crypto now bytes).2

structure SameData (s s' : Session) : Prop where
  streams : s'.streams = s.streams
  flow : s'.flow = s.flow

/-- The packets sent and the payloads kept for them are the same. -/
structure SameRecovery (s s' : Session) : Prop where
  sent : s'.sent = s.sent
  retained : s'.retransmitPayloads = s.retransmitPayloads

/-- The sent packets and the packets to acknowledge are the same. -/
structure SameTransport (s s' : Session) : Prop where
  acks : s'.recvAcks = s.recvAcks
  recovery : SameRecovery s s'

/-- All that packets are made of and counted with is the same: also the controller, the packet numbers and the
connection ID. -/
structure SameWire (s s' : Session) : Prop where
  transport : SameTransport s s'
  congestion : s'.congestion = s.congestion
  spaces : s'.spaces = s.spaces
  dcid : s'.dcid = s.dcid

/-- The path table, the primary path and the last migration accepted are the same. -/
structure SamePaths (s s' : Session) : Prop where
  paths : s'.paths = s.paths
  primary : s'.primaryPathId = s.primaryPathId
  migration : s'.lastMigrationSequence = s.lastMigrationSequence

variable {s s' : Session} {frame : Frame}

theorem SameData.of_streams (same : s'.streamSide = s.streamSide) : SameData s s' :=
  ⟨congrArg StreamSide.streams same, congrArg StreamSide.flow same⟩

/-- What packets are made of and counted with, and the paths they are sent on. -/
structure LinkSide where
  sent : AckSendState
  retransmitPayloads : OrderedMap Nat Bytes
  recvAcks : OrderedMap PacketSpace AckReceiveState
  congestion : Reno
  spaces : OrderedMap PacketSpace PacketSpaceState
  dcid : Bytes
  paths : OrderedMap Nat Path
  (primaryPathId lastMigrationSequence : Nat)

def linkSide (s : Session) : LinkSide := { s with }

theorem SameWire.of_link (same : s'.linkSide = s.linkSide) : SameWire s s' :=
  ⟨⟨congrArg LinkSide.recvAcks same, congrArg LinkSide.sent same, congrArg LinkSide.retransmitPayloads same⟩,
    congrArg LinkSide.congestion same, congrArg LinkSide.spaces same, congrArg LinkSide.dcid same⟩

theorem SamePaths.of_link (same : s'.linkSide = s.linkSide) : SamePaths s s' :=
  ⟨congrArg LinkSide.paths same, congrArg LinkSide.primaryPathId same, congrArg LinkSide.lastMigrationSequence same⟩

variable (s : Session)

theorem ControlCall.keeps (call : ControlCall) :
    SameWire s (call.run crypto s) ∧ (call.run crypto s).streamSide = s.streamSide := by
  cases call
  all_goals simp only [run, Session.sendDatagram, Session.popOutboundDatagramPayload,
    Session.maybeEmitStatelessReset, Session.initiateKeyUpdate, Session.onKeyUpdate,
    Session.addPath, Session.onPathResponse, Session.migrateTo, Session.buildMigratePayload,
    Session.markPathDegraded, Session.issueConnectionId, Session.close]
  all_goals repeat' split
  all_goals exact ⟨⟨⟨rfl, rfl, rfl⟩, rfl, rfl, rfl⟩, rfl⟩

theorem setNextOutgoing_keeps (unidirectional : Bool) (next : Nat) :
    (s.setNextOutgoing unidirectional next).linkSide = s.linkSide ∧
      SameData s (s.setNextOutgoing unidirectional next) := by
  unfold setNextOutgoing
  split <;> exact ⟨rfl, rfl, rfl⟩

theorem openStreamKind_link (unidirectional : Bool) : (s.openStreamKind unidirectional).2.linkSide = s.linkSide := by
  simp only [openStreamKind]
  split
  · rfl
  split
  · rfl
  next next _ =>
  have counted := (s.setNextOutgoing_keeps unidirectional next).1
  split <;> exact counted

theorem accountRead_link (streamId bytes : Nat) : (s.accountRead streamId bytes).linkSide = s.linkSide := by
  simp only [accountRead]
  split <;> rfl

theorem connectionCredit_link : s.connectionCredit.2.linkSide = s.linkSide := by
  simp only [connectionCredit]
  repeat' split
  all_goals rfl

theorem streamCredit_link (streamId : Nat) : (s.streamCredit streamId).2.linkSide = s.linkSide := by
  simp only [streamCredit]
  repeat' split
  all_goals rfl

theorem streamCredits_link : (s.streamCredits streamIds).2.linkSide = s.linkSide := by
  induction streamIds generalizing s with
  | nil => rfl
  | cons streamId rest ih => exact (ih _).trans (s.streamCredit_link streamId)

theorem streamCountCredit_link : s.streamCountCredit.2.linkSide = s.linkSide := by
  simp only [streamCountCredit]
  split <;> rfl

variable (call : DataCall)

theorem DataCall.link : (call.run s).linkSide = s.linkSide := by
  cases call with
  | openStreamKind unidirectional => exact s.openStreamKind_link unidirectional
  | openStreamWithProtocol protocolId unidirectional =>
    have opened := s.openStreamKind_link unidirectional
    simp only [run, Session.openStreamWithProtocol]
    split
    · rfl
    split
    · next shape => exact shape ▸ opened
    · next shape =>
      rw [shape] at opened
      split <;> exact opened
  | readStream streamId =>
    simp only [run, Session.readStream]
    split
    · rfl
    · next stream _ =>
      have read := accountRead_link (s.setStream streamId stream.readAvailable.2) streamId
        stream.readAvailable.1.1.length
      repeat' split
      all_goals first
        | rfl
        | exact read
  | flowControlFrames =>
    obtain ⟨streamIds, shape⟩ := s.flowControlFrames_session
    rw [run, shape, streamCountCredit_link, streamCredits_link, connectionCredit_link]
  | _ =>
    simp only [run, Session.sendStreamData, Session.closeStreamSendPayload, Session.resetStreamPayload]
    repeat' split
    all_goals rfl

theorem DataCall.wire : SameWire s (call.run s) := .of_link (call.link s)

theorem DataCall.transport : SameTransport s (call.run s) := (call.wire s).transport

/-- Only an inbound packet changes what is to be acknowledged. -/
theorem Call.acks_of_not_inbound {call : Call} (outbound : ∀ now bytes, call ≠ .onInbound now bytes) :
    (call.run crypto s).recvAcks = s.recvAcks := by
  cases call with
  | control call => exact (call.keeps crypto s).1.transport.acks
  | data call => exact (call.transport s).acks
  | buildOutbound pathId now payload =>
    obtain ⟨_, _, _, _, _, written⟩ := s.buildOutboundInner_writes crypto pathId now payload
    rw [run, written]
  | retransmit pn now =>
    obtain ⟨_, _, _, _, _, written⟩ := s.retransmit_writes crypto pn now
    rw [run, written]
  | pruneRetransmitPayload pn => rfl
  | onInbound now bytes => exact absurd rfl (outbound now bytes)

def Call.ConcernsStreams : Call → Prop
  | .data _ | .onInbound _ _ => True
  | _ => False

theorem Call.streams {call : Call} (other : ¬call.ConcernsStreams) :
    (call.run crypto s).streamSide = s.streamSide := by
  cases call with
  | control call => exact (call.keeps crypto s).2
  | buildOutbound pathId now payload =>
    obtain ⟨_, _, _, _, _, written⟩ := s.buildOutboundInner_writes crypto pathId now payload
    rw [run, written]
    rfl
  | retransmit pn now =>
    obtain ⟨_, _, _, _, _, written⟩ := s.retransmit_writes crypto pn now
    rw [run, written]
    rfl
  | pruneRetransmitPayload pn => rfl
  | data call => exact absurd trivial other
  | onInbound now bytes => exact absurd trivial other

/-! The frames of an inbound packet. -/

theorem applyStreamFrame_link (f : StreamFrame) : (s.applyStreamFrame f).2.linkSide = s.linkSide := by
  simp only [applyStreamFrame, receiveSegment, putStream]
  repeat' split
  all_goals rfl

theorem applyResetStream_link (f : ResetStreamFrame) : (s.applyResetStream f).2.linkSide = s.linkSide := by
  simp only [applyResetStream]
  repeat' split
  all_goals rfl

theorem onStream_link (streamId : Nat) (change : Stream → Stream) :
    (s.onStream streamId change).linkSide = s.linkSide := by
  unfold onStream
  split <;> rfl

theorem raiseStreamLimit_link (f : MaxStreamsFrame) : (s.raiseStreamLimit f).linkSide = s.linkSide := by
  unfold raiseStreamLimit
  split <;> rfl

theorem applyMigrate_keeps (f : MigrateFrame) :
    SameWire s (s.applyMigrate f).2 ∧ (s.applyMigrate f).2.streamSide = s.streamSide := by
  simp only [applyMigrate, Session.migrateTo]
  repeat' split
  all_goals exact ⟨⟨⟨rfl, rfl, rfl⟩, rfl, rfl, rfl⟩, rfl⟩

theorem applyDatagram_keeps (d : DatagramFrame) :
    SameWire s (s.applyDatagram d).2 ∧ (s.applyDatagram d).2.streamSide = s.streamSide := by
  unfold applyDatagram
  dsimp only
  split <;> exact ⟨⟨⟨rfl, rfl, rfl⟩, rfl, rfl, rfl⟩, rfl⟩

def ConcernsData : Frame → Prop
  | .stream _ | .resetStream _ | .stopSending _ | .maxData _ | .maxStreamData _ | .maxStreams _ => True
  | _ => False

variable (now : Instant) (pathId : Nat)

theorem applyFrame_link (concerns : ConcernsData frame) :
    (s.applyFrame crypto now pathId frame).2.linkSide = s.linkSide := by
  cases frame with
  | stream f => exact s.applyStreamFrame_link f
  | resetStream f => exact s.applyResetStream_link f
  | stopSending f => exact s.onStream_link _ _
  | maxData f =>
    simp only [applyFrame]
    split <;> rfl
  | maxStreamData f => exact s.onStream_link _ _
  | maxStreams f => exact s.raiseStreamLimit_link f
  | _ => cases concerns

/-- What another frame can touch: the sent packets if it is an ACK, the connection ID, or no part of packets. -/
theorem applyFrame_other (other : ¬ConcernsData frame) :
    (s.applyFrame crypto now pathId frame).2.streamSide = s.streamSide ∧
      ((∃ f sent retained congestion rtt, frame = .ack f ∧ (s.applyFrame crypto now pathId frame).2 =
          { s with sent, retransmitPayloads := retained, congestion, rtt }) ∨
        (∃ f dcid, frame = .newConnectionId f ∧ (dcid = s.dcid ∨ dcid.length = defaultDcidLen) ∧
          (s.applyFrame crypto now pathId frame).2 = { s with dcid }) ∨
        SameWire s (s.applyFrame crypto now pathId frame).2) := by
  cases frame with
  | ack f =>
    simp only [applyFrame, silently, applyPeerAck]
    split <;> exact ⟨rfl, .inl ⟨f, _, _, _, _, rfl, rfl⟩⟩
  | newConnectionId f =>
    simp only [applyFrame, silently, applyNewConnectionId]
    split
    · exact ⟨rfl, .inr (.inl ⟨f, _, rfl, .inl rfl, rfl⟩)⟩
    · next sized => exact ⟨rfl, .inr (.inl ⟨f, _, rfl, .inr (not_not.mp sized), rfl⟩)⟩
  | datagram d => exact ⟨(s.applyDatagram_keeps d).2, .inr (.inr (s.applyDatagram_keeps d).1)⟩
  | migrate f => exact ⟨(s.applyMigrate_keeps f).2, .inr (.inr (s.applyMigrate_keeps f).1)⟩
  | keyUpdate f =>
    have kept := ControlCall.keeps crypto s (.onKeyUpdate f.updateSequence)
    exact ⟨kept.2, .inr (.inr kept.1)⟩
  | pathResponse f =>
    have kept := ControlCall.keeps crypto s (.onPathResponse pathId f.data)
    exact ⟨kept.2, .inr (.inr kept.1)⟩
  | stream f => exact absurd trivial other
  | resetStream f => exact absurd trivial other
  | stopSending f => exact absurd trivial other
  | maxData f => exact absurd trivial other
  | maxStreamData f => exact absurd trivial other
  | maxStreams f => exact absurd trivial other
  | _ => exact ⟨rfl, .inr (.inr ⟨⟨rfl, rfl, rfl⟩, rfl, rfl, rfl⟩)⟩

theorem applyFrame_acks (frame : Frame) : (s.applyFrame crypto now pathId frame).2.recvAcks = s.recvAcks := by
  by_cases concerns : ConcernsData frame
  · exact congrArg LinkSide.recvAcks (s.applyFrame_link crypto now pathId concerns)
  obtain ⟨-, ⟨_, _, _, _, _, -, written⟩ | ⟨_, _, -, -, written⟩ | same⟩ := s.applyFrame_other crypto now pathId concerns
  · rw [written]
  · rw [written]
  · exact same.transport.acks

theorem applyFrame_recovery (notAck : ∀ f, frame ≠ .ack f) :
    SameRecovery s (s.applyFrame crypto now pathId frame).2 := by
  by_cases concerns : ConcernsData frame
  · exact (SameWire.of_link (s.applyFrame_link crypto now pathId concerns)).transport.recovery
  obtain ⟨-, ⟨f, _, _, _, _, shape, -⟩ | ⟨_, _, -, -, written⟩ | same⟩ := s.applyFrame_other crypto now pathId concerns
  · exact absurd shape (notAck f)
  · rw [written]
    exact ⟨rfl, rfl⟩
  · exact same.transport.recovery

/-- Every frame that the loop reaches meets the condition, in the session it meets. -/
def EachFrame (condition : Session → Frame → Prop) (now : Instant) (pathId : Nat) (s : Session) :
    List Frame → Prop
  | [] => True
  | frame :: frames =>
    condition s frame ∧
      match s.applyFrame crypto now pathId frame with
      | (.error _, _) => True
      | (.ok _, s) => s.EachFrame condition now pathId frames

/-- The frames of an inbound packet that is admitted and parses. -/
def inboundFrames (bytes : Bytes) : List Frame :=
  match s.admitPacket crypto now bytes with
  | (.error _, _) => []
  | (.ok packet, _) =>
    ((parsePayload (.protectedSpace packet.space) packet.payload).toOption).getD []

/-- The same for the frames of an inbound packet. -/
def EachInboundFrame (condition : Session → Frame → Prop) (now : Instant) (bytes : Bytes) : Prop :=
  match s.admitPacket crypto now bytes with
  | (.error _, _) => True
  | (.ok packet, s) =>
    match parsePayload (.protectedSpace packet.space) packet.payload with
    | .error _ => True
    | .ok frames =>
      (s.resetIdleTimer frames now).EachFrame crypto condition now packet.pathId frames

instance instDecidableEachFrame (condition : Session → Frame → Prop)
    [∀ s frame, Decidable (condition s frame)] (now : Instant) (pathId : Nat) (s : Session) :
    ∀ frames, Decidable (s.EachFrame crypto condition now pathId frames)
  | [] => .isTrue trivial
  | frame :: frames =>
    match shape : s.applyFrame crypto now pathId frame with
    | (.error _, _) => decidable_of_iff (condition s frame) (by simp [EachFrame, shape])
    | (.ok _, s') =>
      have := instDecidableEachFrame condition now pathId s' frames
      decidable_of_iff (condition s frame ∧ s'.EachFrame crypto condition now pathId frames)
        (by simp [EachFrame, shape])

instance (condition : Session → Frame → Prop) [∀ s frame, Decidable (condition s frame)]
    (now : Instant) (bytes : Bytes) : Decidable (s.EachInboundFrame crypto condition now bytes) :=
  match shape : s.admitPacket crypto now bytes with
  | (.error _, _) => .isTrue (by simp [EachInboundFrame, shape])
  | (.ok packet, s') =>
    match parsed : parsePayload (.protectedSpace packet.space) packet.payload with
    | .error _ => .isTrue (by simp [EachInboundFrame, shape, parsed])
    | .ok frames =>
      decidable_of_iff ((s'.resetIdleTimer frames now).EachFrame crypto condition now
        packet.pathId frames) (by simp [EachInboundFrame, shape, parsed])

section
variable {s crypto} {condition : Session → Frame → Prop} {holds : Session → Prop} {now : Instant}

theorem eachFrame_of_mem {pathId : Nat} (all : ∀ s, ∀ frame ∈ frames, condition s frame) :
    s.EachFrame crypto condition now pathId frames := by
  induction frames generalizing s with
  | nil => trivial
  | cons frame frames ih =>
    refine ⟨all s frame List.mem_cons_self, ?_⟩
    split
    · trivial
    · exact ih fun s frame member => all s frame (List.mem_cons_of_mem _ member)

theorem eachInboundFrame_mem :
    s.EachInboundFrame crypto (fun _ frame => frame ∈ s.inboundFrames crypto now bytes) now bytes := by
  unfold EachInboundFrame inboundFrames
  split
  · trivial
  split
  · trivial
  · next parsed =>
    simp only [parsed, Except.toOption, Option.getD_some]
    exact eachFrame_of_mem fun _ _ member => member

/-- A property that every frame keeps holds after the frames of a packet, accepted or not. -/
theorem applyFrames_invariant {pathId : Nat}
    (kept : ∀ s frame, condition s frame → holds s → holds (s.applyFrame crypto now pathId frame).2)
    {response : Bytes} (meets : s.EachFrame crypto condition now pathId frames) (initial : holds s) :
    holds (s.applyFrames crypto now pathId response frames).2 := by
  induction frames generalizing s response with
  | nil => exact initial
  | cons frame frames ih =>
    obtain ⟨here, later⟩ := meets
    have next := kept s frame here initial
    unfold applyFrames
    cases shape : s.applyFrame crypto now pathId frame with
    | mk result s' =>
      rw [shape] at next later
      cases result with
      | error e => exact next
      | ok out => exact ih later next

/-- A property that admission, idle timer and ACK leave alone and that every frame keeps holds after an inbound
call, whether it fails or not. -/
theorem onInbound_stable {related : Session → Session → Prop} {bytes : Bytes}
    (admits : related s (s.admitPacket crypto now bytes).2)
    (idles : ∀ s frames, related s (resetIdleTimer s frames now))
    (emits : ∀ s space response, related s (emitAck s space response).2)
    (stable : ∀ {s s'}, related s s' → holds s → holds s')
    (kept : ∀ pathId s frame, condition s frame → holds s → holds (s.applyFrame crypto now pathId frame).2)
    (meets : s.EachInboundFrame crypto condition now bytes) (initial : holds s) :
    holds (s.onInbound crypto now bytes).2 := by
  have admitted := stable admits initial
  unfold EachInboundFrame at meets
  unfold onInbound
  cases shape : s.admitPacket crypto now bytes with
  | mk result s' =>
    rw [shape] at admitted meets
    cases result with
    | error e => exact admitted
    | ok packet =>
      have applied : holds (s'.applyPacket crypto now packet).2 := by
        cases parsed : parsePayload (.protectedSpace packet.space) packet.payload with
        | error e =>
          simp only [applyPacket, parsed]
          exact admitted
        | ok frames =>
          simp only [parsed] at meets
          simp only [applyPacket, parsed]
          exact applyFrames_invariant (kept packet.pathId) meets (stable (idles s' frames) admitted)
      dsimp only
      split
      · next failed => exact failed ▸ applied
      · next applied' =>
        rw [applied'] at applied
        exact stable (emits _ _ _) applied

/-- The same for a property that does not depend on what these three write. -/
theorem onInbound_invariant (stable : ∀ s state spaces acks paths activity, holds s →
      holds { s with state, spaces, recvAcks := acks, paths, lastActivity := activity })
    (kept : ∀ pathId s frame, condition s frame → holds s → holds (s.applyFrame crypto now pathId frame).2)
    (meets : s.EachInboundFrame crypto condition now bytes) (initial : holds s) :
    holds (s.onInbound crypto now bytes).2 := by
  have admits : holds s → holds (s.admitPacket crypto now bytes).2 := by
    obtain ⟨_, _, _, _, written⟩ := s.admitPacket_writes crypto now bytes
    rw [written]
    exact stable s _ _ _ _ _
  have idles : ∀ s frames, holds s → holds (resetIdleTimer s frames now) := by
    intro s frames
    obtain ⟨_, written⟩ := s.resetIdleTimer_writes frames now
    rw [written]
    exact stable s _ _ _ _ _
  have emits : ∀ s space response, holds s → holds (emitAck s space response).2 := by
    intro s space response
    obtain ⟨_, written⟩ := s.emitAck_writes space response
    rw [written]
    exact stable s _ _ _ _ _
  exact @onInbound_stable crypto s condition holds now (fun s s' => holds s → holds s') bytes admits idles emits
    (fun related before => related before) kept meets initial

end

/-! Sessions and packets for runs on fixed inputs. -/

/-- A server with a connection limit of ten bytes and a stream limit of a hundred. -/
def tenByteConfig : SessionConfig := .plain .server 10 100 (by decide)

def tenByteServer : Session := started transparent tenByteConfig (by decide +kernel)

/-- A packet of the session data space that `transparent` opens. -/
def plainPacket (pn : Nat) (payload : Bytes) : Bytes :=
  0x04 :: [1, 2, 3, 4, 5, 6, 7, 8] ++ [0] ++ toBeBytes 2 pn ++ payload ++ List.replicate 16 0

/-- A STREAM frame that opens stream 0 with the data and no FIN. -/
def openingFrame (data : Bytes) : Bytes :=
  [0x10, 0x00, 0x0C] ++ Varint.encoding data.length ++ data ++ [0, 0]

end UniversalMesh.Session
