import UniversalMesh.Session.Calls
import UniversalMesh.Session.StreamDelivery

/-! Which frames `on_inbound` accepts. Every arm of its loop is given the decidable condition under which it
does not fail, in terms of the session the frame meets. -/
namespace UniversalMesh.Session
open Wire Crypto

section

/-- The opening fields of a frame agree with the stream they are for. -/
def OpeningAgrees (stream : Stream) (f : StreamFrame) : Prop :=
  if f.isOpen then stream.protocolId = f.protocolId ∧ stream.metadata = f.metadata
  else stream.recvOpened = true ∧ f.protocolId = [] ∧ f.metadata = []
  deriving Decidable

section
variable (s : Session)

/-- The stream takes the segment and the connection has credit for what is new in it. -/
def TakesSegment (stream : Stream) (f : StreamFrame) : Prop :=
  recvClosed stream = false ∧ stream.Receivable f.offset f.data f.fin ∧
    s.flow.consumed + stream.freshBytes f.offset f.data ≤ s.flow.maxDataLocal
  deriving Decidable

/-- The first frame of a stream the peer may open. -/
def OpensStream (f : StreamFrame) : Prop :=
  f.streamId % 2 = 1 - initiatorBit s.role ∧ s.streams.size < maxStreamsPerSession ∧
    f.isOpen = true ∧ s.TakesSegment (s.openedStream f) f
  deriving Decidable

/-- A further frame of a stream that the peer may send on. -/
def ContinuesStream (stream : Stream) (f : StreamFrame) : Prop :=
  ¬ (f.streamId % 2 = initiatorBit s.role ∧ stream.unidirectional = true) ∧
    stream.unidirectional = f.unidirectional ∧ OpeningAgrees stream f ∧ s.TakesSegment stream f
  deriving Decidable

def AcceptsStream (f : StreamFrame) : Prop :=
  validateStreamId f.streamId (f.streamId % 2) f.unidirectional = true ∧
    s.closedStreams.contains f.streamId = false ∧
      ((s.streams.get? f.streamId).isNone = true → s.OpensStream f) ∧
        ∀ stream ∈ s.streams.get? f.streamId, s.ContinuesStream stream f
  deriving Decidable

/-- RESET_STREAM frames: the final size fits what was received, and the credit where it is charged. -/
def AcceptsReset (f : ResetStreamFrame) : Prop :=
  s.closedStreams.contains f.streamId = false ∧
    ∀ stream ∈ s.streams.get? f.streamId,
      stream.maxReceivedOffset ≤ f.finalSize ∧ stream.finalSize.all (· = f.finalSize) = true ∧
        (s.resetFinalSizes.contains f.streamId = false →
          s.flow.consumed + f.finalSize ≤ s.flow.maxDataLocal)
  deriving Decidable

def AcceptsAck (f : AckFrame) : Prop :=
  f.firstAckRange ≠ 0 ∧ (∀ r ∈ f.additionalRanges, r.length ≠ 0) ∧
    f.largestAcknowledged ≤ (s.sent.sent.getLast?.map SentPacket.packetNumber).getD 0
  deriving Decidable

/-- The inbound queue has room for the datagram. -/
def AcceptsDatagram (d : DatagramFrame) : Prop :=
  s.datagrams.inbound.length < maxQueuedDatagrams ∧
    s.datagrams.inboundBytes + d.data.length ≤ maxQueuedDatagramBytes
  deriving Decidable

def MayMigrateTo (pathId : Nat) : Prop :=
  ∃ path ∈ s.paths.get? pathId,
    (!s.directPathAllowed && isDirectCarrier path.carrierType) = false ∧ path.state = .validated
  deriving Decidable

/-- MIGRATE frames: old news, or from the primary path. -/
def AcceptsMigrate (f : MigrateFrame) : Prop :=
  f.migrationSequence ≤ s.lastMigrationSequence ∨
    (f.oldPathId = s.primaryPathId ∧ (f.makePrimary = true → s.MayMigrateTo f.newPathId))
  deriving Decidable

/-- The response answers a challenge of the path. -/
def AnswersChallenge (pathId : Nat) (response : Octets 8) : Prop :=
  ∃ path ∈ s.paths.get? pathId, path.challenges.any (·.data = response) = true
  deriving Decidable

/-- The frames that `on_inbound` accepts on a path; the other types are never refused. -/
def Accepts (pathId : Nat) : Frame → Prop
  | .stream f => s.AcceptsStream f
  | .resetStream f => s.AcceptsReset f
  | .datagram d => s.AcceptsDatagram d
  | .newConnectionId f => f.connectionId.length = defaultDcidLen
  | .ack f => s.AcceptsAck f
  | .keyUpdate f =>
    f.updateSequence = s.keyUpdate.updateSequence + 1 ∨ f.updateSequence = s.keyUpdate.updateSequence
  | .pathResponse f => s.AnswersChallenge pathId f.data
  | .migrate f => s.AcceptsMigrate f
  | _ => True

instance (pathId : Nat) : DecidablePred (s.Accepts pathId)
  | .stream f => inferInstanceAs (Decidable (s.AcceptsStream f))
  | .resetStream f => inferInstanceAs (Decidable (s.AcceptsReset f))
  | .datagram d => inferInstanceAs (Decidable (s.AcceptsDatagram d))
  | .newConnectionId f => inferInstanceAs (Decidable (f.connectionId.length = defaultDcidLen))
  | .ack f => inferInstanceAs (Decidable (s.AcceptsAck f))
  | .keyUpdate _ => inferInstanceAs (Decidable (_ ∨ _))
  | .pathResponse f => instDecidableAnswersChallenge s pathId f.data
  | .migrate f => inferInstanceAs (Decidable (s.AcceptsMigrate f))
  | .padding | .ping | .connectionClose _ | .stopSending _ | .maxData _ | .maxStreamData _
  | .maxStreams _ | .retireConnectionId _ | .pathChallenge _ | .pathStatus _ | .auth _
  | .handshakeData _ | .capabilities _ | .sessionTicket _ | .routeRequest _ | .routeResponse _
  | .routeError _ | .relayOpen _ | .relayStatus _ | .relayData _ | .relayClose _ | .bundle _
  | .bundleAck _ | .peerHint _ | .serviceHint _ | .dhtLookup _ | .revocationBatch _ =>
    inferInstanceAs (Decidable True)

end

/-- The call has not failed. -/
def Succeeds (reply : Reply α) : Prop := ∃ value, reply.1 = .ok value

@[simp] theorem succeeds_ok (value : α) (s : Session) : Succeeds (.ok value, s) := ⟨value, rfl⟩

@[simp] theorem not_succeeds_error (e : SessionError) (s : Session) : ¬ Succeeds ((.error e, s) : Reply α) := by
  simp [Succeeds]

theorem succeeds_guard {failed : Prop} [Decidable failed] :
    Succeeds (if failed then (.error e, s) else reply) ↔ ¬ failed ∧ Succeeds reply := by
  split <;> simp [*]

theorem guard_ok {failed : Prop} [Decidable failed] {rest : Except ε α} :
    (if failed then .error e else rest) = .ok value ↔ ¬ failed ∧ rest = .ok value := by
  split <;> simp [*]

theorem succeeds_silently : Succeeds (silently reply) ↔ Succeeds reply := by
  obtain ⟨result, s⟩ := reply
  cases result <;> simp [silently, Except.map]

variable {s : Session} {f : StreamFrame}

theorem receiveSegment_isOk : Succeeds (s.receiveSegment f stream) ↔ s.TakesSegment stream f := by
  unfold receiveSegment TakesSegment
  split
  · next closed => simp [closed]
  next notClosed =>
  have received := fun fresh => @Stream.receive_ok stream f.offset f.data f.fin fresh
  cases shape : stream.receive f.offset f.data f.fin with
  | mk result stream' =>
    rw [shape] at received
    cases result with
    | error e =>
      have refused : ¬ stream.Receivable f.offset f.data f.fin := fun takes =>
        absurd ((received _).mpr ⟨takes, rfl⟩) (by simp)
      simp [refused]
    | ok newBytes =>
      obtain ⟨takes, rfl⟩ := (received newBytes).mp rfl
      have credit := @FlowControl.consume_isOk (stream.freshBytes f.offset f.data) s.flow
      have same : (s.putStream f.streamId stream').flow = s.flow := rfl
      simp only [same, notClosed, takes, true_and, ← credit]
      cases s.flow.consume (stream.freshBytes f.offset f.data) with
      | error e => simp
      | ok flow => simp

theorem checkStreamFrame_ok :
    s.checkStreamFrame f = .ok () ↔
      validateStreamId f.streamId (f.streamId % 2) f.unidirectional = true ∧
        s.closedStreams.contains f.streamId = false ∧
          ((s.streams.get? f.streamId).isNone = true →
            f.streamId % 2 = 1 - initiatorBit s.role ∧ s.streams.size < maxStreamsPerSession ∧
              f.isOpen = true) ∧
            ∀ stream ∈ s.streams.get? f.streamId,
              ¬ (f.streamId % 2 = initiatorBit s.role ∧ stream.unidirectional = true) ∧
                stream.unidirectional = f.unidirectional := by
  unfold checkStreamFrame
  cases known : s.streams.get? f.streamId with
  | none =>
    simp only [guard_ok]
    simp
    tauto
  | some stream =>
    simp only [guard_ok]
    simp
    tauto

theorem streamFor_of_known (found : s.streams.get? f.streamId = some known) :
    s.streamFor f = .ok stream ↔ OpeningAgrees known f ∧ stream = { known with recvOpened := true } := by
  unfold streamFor OpeningAgrees
  rw [found]
  by_cases opening : f.isOpen = true
  · simp only [opening, if_true, guard_ok, not_or, not_not, Except.ok.injEq]
    exact and_congr_right fun _ => eq_comm
  · have agrees : ¬ ((!known.recvOpened) = true ∨ f.protocolId ≠ [] ∨ f.metadata ≠ []) ↔
        known.recvOpened = true ∧ f.protocolId = [] ∧ f.metadata = [] := by simp
    simp only [opening, Bool.false_eq_true, if_false, guard_ok, agrees, Except.ok.injEq]
    refine and_congr_right fun agreed => ?_
    rw [← agreed.1]
    exact eq_comm

theorem applyStreamFrame_stages :
    Succeeds (s.applyStreamFrame f) ↔ s.checkStreamFrame f = .ok () ∧
      ∃ stream, s.streamFor f = .ok stream ∧ s.TakesSegment stream f := by
  unfold applyStreamFrame
  cases s.checkStreamFrame f with
  | error e => simp
  | ok _ =>
    cases s.streamFor f with
    | error e => simp
    | ok stream => simp [receiveSegment_isOk]

theorem applyStreamFrame_isOk : Succeeds (s.applyStreamFrame f) ↔ s.AcceptsStream f := by
  rw [applyStreamFrame_stages, checkStreamFrame_ok]
  unfold AcceptsStream OpensStream ContinuesStream
  cases found : s.streams.get? f.streamId with
  | none =>
    have opened : s.streamFor f = .ok (s.openedStream f) := by rw [streamFor, found]
    simp [opened]
    tauto
  | some known =>
    -- no check of the segment reads the flag that the opening frame sets
    have takes : s.TakesSegment { known with recvOpened := true } f ↔ s.TakesSegment known f := Iff.rfl
    simp [streamFor_of_known found, takes]
    tauto

theorem applyResetStream_isOk {f : ResetStreamFrame} : Succeeds (s.applyResetStream f) ↔ s.AcceptsReset f := by
  unfold applyResetStream AcceptsReset
  rw [succeeds_guard, Bool.not_eq_true]
  refine and_congr_right fun _ => ?_
  cases s.streams.get? f.streamId with
  | none => simp
  | some stream =>
    have agrees : ¬ stream.finalSize.any (· ≠ f.finalSize) = true ↔
        stream.finalSize.all (· = f.finalSize) = true := by
      cases stream.finalSize <;> simp
    simp only [succeeds_guard, agrees, Nat.not_lt, Option.mem_some_iff, forall_eq']
    refine and_congr_right fun _ => and_congr_right fun _ => ?_
    cases known : s.resetFinalSizes.contains f.streamId with
    | true => simp
    | false =>
      rw [← FlowControl.consume_isOk]
      cases s.flow.consume f.finalSize <;> simp

theorem applyDatagram_isOk : Succeeds (s.applyDatagram d) ↔ s.AcceptsDatagram d := by
  unfold applyDatagram AcceptsDatagram DatagramQueue.enqueueInbound
  by_cases full : s.datagrams.inbound.length ≥ maxQueuedDatagrams
  · simp [full]
  by_cases large : s.datagrams.inboundBytes + d.data.length > maxQueuedDatagramBytes
  · simp [full, large]
  · simp [full, large]
    omega

theorem applyAck_isOk {sent : AckSendState} {f : AckFrame} :
    (∃ acked, sent.applyAck f.largestAcknowledged (flatRanges f) = .ok acked) ↔
      f.firstAckRange ≠ 0 ∧ (∀ r ∈ f.additionalRanges, r.length ≠ 0) ∧
        f.largestAcknowledged ≤ (sent.sent.getLast?.map SentPacket.packetNumber).getD 0 := by
  simp [AckSendState.applyAck, flatRanges, guard_ok]

theorem applyPeerAck_isOk {f : AckFrame} {now : Instant} :
    Succeeds (s.applyPeerAck f now) ↔ s.AcceptsAck f := by
  unfold applyPeerAck AcceptsAck
  rw [← applyAck_isOk]
  cases s.sent.applyAck f.largestAcknowledged (flatRanges f) <;> simp

theorem onKeyUpdate_isOk {sequence : Nat} : Succeeds (s.onKeyUpdate crypto sequence) ↔
      sequence = s.keyUpdate.updateSequence + 1 ∨ sequence = s.keyUpdate.updateSequence := by
  unfold onKeyUpdate
  rw [succeeds_guard]
  tauto

theorem onPathResponse_isOk {response : Octets 8} :
    Succeeds (s.onPathResponse pathId response) ↔ s.AnswersChallenge pathId response := by
  unfold onPathResponse AnswersChallenge Path.confirm
  cases s.paths.get? pathId with
  | none => simp
  | some path =>
    have found := @List.findIdx?_isSome _ path.challenges (·.data = response)
    simp only [Option.mem_some_iff, exists_eq_left', ← found]
    cases path.challenges.findIdx? (·.data = response) <;> simp

theorem migrateTo_isOk : Succeeds (s.migrateTo newPathId keepOld) ↔ s.MayMigrateTo newPathId := by
  unfold migrateTo MayMigrateTo
  cases s.paths.get? newPathId with
  | none => simp
  | some path =>
    simp only [succeeds_guard, succeeds_ok]
    simp

theorem applyMigrate_isOk {f : MigrateFrame} : Succeeds (s.applyMigrate f) ↔ s.AcceptsMigrate f := by
  unfold applyMigrate AcceptsMigrate
  split
  · next old => simp [old]
  · next news =>
    simp only [succeeds_guard, not_not, news, false_or]
    refine and_congr_right fun _ => ?_
    split
    · next primary => simp [primary, migrateTo_isOk, MayMigrateTo]
    · next backup => simp [backup]

section
variable (crypto : Primitives)

theorem applyFrame_isOk (now : Instant) :
    Succeeds (s.applyFrame crypto now pathId frame) ↔ s.Accepts pathId frame := by
  cases frame with
  | stream f => exact succeeds_silently.trans applyStreamFrame_isOk
  | resetStream f => exact succeeds_silently.trans applyResetStream_isOk
  | datagram d => exact succeeds_silently.trans applyDatagram_isOk
  | ack f => exact succeeds_silently.trans applyPeerAck_isOk
  | keyUpdate f => exact succeeds_silently.trans onKeyUpdate_isOk
  | pathResponse f => exact succeeds_silently.trans onPathResponse_isOk
  | migrate f => exact succeeds_silently.trans applyMigrate_isOk
  | newConnectionId f =>
    refine succeeds_silently.trans (succeeds_guard.trans ?_)
    simp [Accepts]
  | _ => exact iff_of_true (succeeds_ok _ _) trivial

/-- The payload parses, and every frame is acceptable to the session that the frames before it have left. -/
def AcceptsPacket (s : Session) (now : Instant) (packet : OpenedPacket) : Prop :=
  match parsePayload (.protectedSpace packet.space) packet.payload with
  | .error _ => False
  | .ok frames =>
    (s.resetIdleTimer frames now).EachFrame crypto (fun s => s.Accepts packet.pathId) now
      packet.pathId frames

theorem applyFrames_isOk : Succeeds (s.applyFrames crypto now pathId response frames) ↔
      s.EachFrame crypto (fun s => s.Accepts pathId) now pathId frames := by
  induction frames generalizing s response with
  | nil => exact iff_of_true (succeeds_ok _ _) trivial
  | cons frame frames ih =>
    unfold applyFrames EachFrame
    rw [← applyFrame_isOk crypto now]
    obtain ⟨result, s'⟩ := s.applyFrame crypto now pathId frame
    cases result with
    | error e => simp
    | ok out => simpa using ih

theorem applyPacket_isOk : Succeeds (s.applyPacket crypto now packet) ↔ s.AcceptsPacket crypto now packet := by
  unfold applyPacket AcceptsPacket
  cases parsePayload (.protectedSpace packet.space) packet.payload with
  | error e => simp
  | ok frames => exact applyFrames_isOk crypto

instance (s : Session) (now : Instant) (packet : OpenedPacket) :
    Decidable (s.AcceptsPacket crypto now packet) :=
  match shape : parsePayload (.protectedSpace packet.space) packet.payload with
  | .error _ => .isFalse (by simp [AcceptsPacket, shape])
  | .ok frames =>
    decidable_of_iff ((s.resetIdleTimer frames now).EachFrame crypto
      (fun s => s.Accepts packet.pathId) now packet.pathId frames) (by simp [AcceptsPacket, shape])

end

end

/-! What an acknowledgement promises. A journal beside the session keeps the packets whose frames were all
applied and the ACK frames emitted. `on_inbound` records a number for acknowledgement before it parses the
payload, so a packet refused half-way is acknowledged too; while every admitted packet is acceptable, whatever
is acknowledged was applied. -/

open Ranges OrderedMap

/-- The packet number is one that the next ACK of its space may cover. -/
def Recorded (s : Session) (space : PacketSpace) (pn : Nat) : Prop :=
  ∃ state, s.recvAcks.get? space = some state ∧ Covers state.ranges pn

section
variable (crypto : Primitives)

/-- The packet that an inbound call has applied, with all of its frames. -/
def appliedPacket (s : Session) (now : Instant) (bytes : Bytes) : Option (PacketSpace × Nat) :=
  match s.admitPacket crypto now bytes with
  | (.error _, _) => none
  | (.ok packet, s) =>
    match s.applyPacket crypto now packet with
    | (.error _, _) => none
    | (.ok _, _) => some (spaceOf packet.space, packet.pn)

/-- The ACK frame that an inbound call puts behind its response. -/
def emittedAck (s : Session) (now : Instant) (bytes : Bytes) : Option (PacketSpace × AckFrame) :=
  match s.admitPacket crypto now bytes with
  | (.error _, _) => none
  | (.ok packet, s) =>
    match s.applyPacket crypto now packet with
    | (.error _, _) => none
    | (.ok _, s) =>
      let space := spaceOf packet.space
      ((s.recvAcks.get? space).bind AckReceiveState.dueAck).map fun ack => (space, ack)

structure Journal where
  session : Session
  applied : List (PacketSpace × Nat)
  acknowledged : List (PacketSpace × AckFrame)

namespace Journal

def start (s : Session) : Journal := { session := s, applied := [], acknowledged := [] }

def step (j : Journal) (call : Call) : Journal :=
  match call with
  | .onInbound now bytes =>
    { session := (j.session.onInbound crypto now bytes).2
      applied := (j.session.appliedPacket crypto now bytes).toList ++ j.applied
      acknowledged := (j.session.emittedAck crypto now bytes).toList ++ j.acknowledged }
  | call => { j with session := call.run crypto j.session }

def AdmitsAcceptable (j : Journal) : Call → Prop
  | .onInbound now bytes =>
    match j.session.admitPacket crypto now bytes with
    | (.error _, _) => True
    | (.ok packet, s) => s.AcceptsPacket crypto now packet
  | _ => True

instance (j : Journal) : DecidablePred (j.AdmitsAcceptable crypto)
  | .onInbound now bytes =>
    match shape : j.session.admitPacket crypto now bytes with
    | (.error _, _) => .isTrue (by simp [AdmitsAcceptable, shape])
    | (.ok packet, s) =>
      decidable_of_iff (s.AcceptsPacket crypto now packet) (by simp [AdmitsAcceptable, shape])
  | .control _ | .data _ | .buildOutbound _ _ _ | .retransmit _ _ | .pruneRetransmitPayload _ =>
    .isTrue trivial

/-- Whatever is recorded or acknowledged was applied. -/
structure Sound (j : Journal) : Prop where
  recorded : ∀ space pn, j.session.Recorded space pn → (space, pn) ∈ j.applied
  acknowledged : ∀ space ack, (space, ack) ∈ j.acknowledged →
    ∀ pn, Acknowledges ack pn → (space, pn) ∈ j.applied

end Journal
end

variable {crypto : Primitives} (s : Session) {now : Instant} {space : PacketSpace} {pn : Nat}

theorem recorded_congr {s s' : Session} (same : s'.recvAcks = s.recvAcks) :
    s'.Recorded space pn ↔ s.Recorded space pn := by
  unfold Recorded
  rw [same]

theorem recorded_of_admit (recorded : (s.admitPacket crypto now bytes).2.Recorded space pn) :
    s.Recorded space pn ∨
      ∃ packet, (s.admitPacket crypto now bytes).1 = .ok packet ∧ space = spaceOf packet.space ∧
        pn = packet.pn := by
  obtain ⟨e, state, refused⟩ | ⟨packet, _, _, -, -, -, admitted⟩ := s.admitPacket_cases crypto now bytes
  · rw [refused] at recorded
    exact .inl recorded
  obtain ⟨paths, accounted⟩ := accountReceived_writes _ packet.pathId bytes.length now
  rw [admitted, accounted] at recorded
  obtain ⟨state, found, covered⟩ := recorded
  by_cases here : space = spaceOf packet.space
  · subst here
    rw [get?_insert_self] at found
    cases found
    obtain before | rfl := AckReceiveState.covers_record _ covered
    · cases known : s.recvAcks.get? (spaceOf packet.space) with
      | none =>
        rw [known] at before
        exact absurd before not_covers_nil
      | some state =>
        rw [known] at before
        exact .inl ⟨state, known, before⟩
    · exact .inr ⟨packet, by rw [admitted], rfl, rfl⟩
  · rw [get?_insert_of_ne here] at found
    exact .inl ⟨state, found, covered⟩

theorem applyPacket_acks (crypto : Primitives) (now : Instant) (packet : OpenedPacket) :
    (s.applyPacket crypto now packet).2.recvAcks = s.recvAcks := by
  unfold applyPacket
  split
  · rfl
  · next frames _ =>
    have each : (s.resetIdleTimer frames now).EachFrame crypto (fun _ _ => True) now packet.pathId
        frames := eachFrame_of_mem fun _ _ _ => trivial
    have kept : ∀ (s' : Session) frame, True → s'.recvAcks = s.recvAcks →
        (s'.applyFrame crypto now packet.pathId frame).2.recvAcks = s.recvAcks :=
      fun s' frame _ same => (s'.applyFrame_acks crypto now packet.pathId frame).trans same
    obtain ⟨_, idle⟩ := s.resetIdleTimer_writes frames now
    exact applyFrames_invariant kept each (by rw [idle])

theorem recorded_of_emitAck {s : Session}
    (recorded : (s.emitAck emitted response).2.Recorded space pn) : s.Recorded space pn := by
  cases known : s.recvAcks.get? emitted with
  | none =>
    rw [emitAck, known] at recorded
    exact recorded
  | some state =>
    have acks : (s.emitAck emitted response).2.recvAcks =
        s.recvAcks.insert emitted state.takeNeedsAck.2 := by
      simp only [emitAck, known]
      split <;> rfl
    obtain ⟨state', found, covered⟩ := recorded
    rw [acks] at found
    by_cases here : space = emitted
    · subst here
      rw [get?_insert_self] at found
      cases found
      exact ⟨state, known, covered⟩
    · rw [get?_insert_of_ne here] at found
      exact ⟨state', found, covered⟩

namespace Journal
variable {j : Journal}

/-- A packet that is admitted only where it can be applied keeps the journal sound. -/
theorem inbound_sound (sound : j.Sound) (acceptable : j.AdmitsAcceptable crypto (.onInbound now bytes)) :
    (j.step crypto (.onInbound now bytes)).Sound := by
  have admission : ∀ space pn, (j.session.admitPacket crypto now bytes).2.Recorded space pn → _ :=
    fun space pn => recorded_of_admit j.session
  unfold AdmitsAcceptable at acceptable
  unfold step appliedPacket emittedAck onInbound
  cases shape : j.session.admitPacket crypto now bytes with
  | mk result s =>
    simp only [shape] at admission acceptable ⊢
    cases result with
    | error e =>
      refine ⟨fun space pn recorded => ?_, sound.acknowledged⟩
      obtain before | ⟨packet, failed, -⟩ := admission space pn recorded
      · exact sound.recorded space pn before
      · cases failed
    | ok packet =>
      obtain ⟨response, applied⟩ := (applyPacket_isOk crypto).mpr acceptable
      have acks := s.applyPacket_acks crypto now packet
      cases shape : s.applyPacket crypto now packet with
      | mk result s' =>
        simp only [shape] at applied acks ⊢
        subst applied
        -- what is recorded now was recorded before, or is the packet that was applied
        have covered : ∀ space pn, s'.Recorded space pn →
            (space, pn) ∈ (spaceOf packet.space, packet.pn) :: j.applied := by
          intro space pn recorded
          obtain before | ⟨_, same, rfl, rfl⟩ := admission space pn ((recorded_congr acks).mp recorded)
          · exact List.mem_cons_of_mem _ (sound.recorded space pn before)
          · cases same
            exact List.mem_cons_self
        refine ⟨fun space pn recorded => covered space pn (recorded_of_emitAck recorded), ?_⟩
        intro space ack emitted pn acknowledged
        obtain now | before := List.mem_append.mp emitted
        · obtain ⟨found, due, same⟩ := Option.map_eq_some_iff.mp (Option.mem_toList.mp now)
          cases same
          obtain ⟨state, known, due⟩ := Option.bind_eq_some_iff.mp due
          exact covered _ pn ⟨state, known, AckReceiveState.covers_of_dueAck due acknowledged⟩
        · exact List.mem_cons_of_mem _ (sound.acknowledged space ack before pn acknowledged)

theorem step_sound (j : Journal) (call : Call) (sound : j.Sound)
    (acceptable : j.AdmitsAcceptable crypto call) : (j.step crypto call).Sound := by
  by_cases inbound : ∃ now bytes, call = .onInbound now bytes
  · obtain ⟨now, bytes, rfl⟩ := inbound
    exact inbound_sound sound acceptable
  · have same : (call.run crypto j.session).recvAcks = j.session.recvAcks :=
      Call.acks_of_not_inbound crypto j.session fun now bytes shape => inbound ⟨now, bytes, shape⟩
    have stepped : j.step crypto call = { j with session := call.run crypto j.session } := by
      cases call with
      | onInbound now bytes => exact absurd ⟨now, bytes, rfl⟩ inbound
      | _ => rfl
    rw [stepped]
    exact ⟨fun space pn recorded => sound.recorded space pn ((recorded_congr same).mp recorded),
      sound.acknowledged⟩

end Journal

/-- In every run in which the packets admitted are acceptable, a number that an emitted ACK acknowledges belongs
to a packet of its space all of whose frames were applied. -/
theorem acknowledged_is_applied {config : SessionConfig} {s : Session}
    (started : Session.new crypto config = .ok s) {calls : List Call}
    (acceptable : Run.Meets (Journal.AdmitsAcceptable crypto) (Journal.step crypto) (.start s) calls) :
    ∀ space ack, (space, ack) ∈ (calls.foldl (Journal.step crypto) (.start s)).acknowledged →
      ∀ pn, Acknowledges ack pn →
        (space, pn) ∈ (calls.foldl (Journal.step crypto) (.start s)).applied := by
  have fresh : (Journal.start s).Sound := by
    refine ⟨fun space pn recorded => ?_, fun space ack emitted => by cases emitted⟩
    obtain ⟨state, found, -⟩ := recorded
    change s.recvAcks.get? space = some state at found
    rw [(new_fresh started).acks] at found
    cases found
  have sound : (calls.foldl (Journal.step crypto) (.start s)).Sound :=
    Run.invariant_of_meets Journal.step_sound fresh acceptable
  exact sound.acknowledged

/-- Packet 0 with twenty bytes for a stream, past the credit, then a PING in packet 1. -/
def refusedThenPing : List Call :=
  [.onInbound 0 (plainPacket 0 (openingFrame (List.replicate 20 7))),
    .onInbound 1 (plainPacket 1 [0x04])]

/-- The STREAM frame is refused, but the ACK for the PING covers its packet too. -/
theorem refused_packet_is_acknowledged :
    ((tenByteServer.onInbound transparent 0 (plainPacket 0 (openingFrame (List.replicate 20 7)))).1 =
        .error (.flow .exceedsCredit)) ∧
      ∃ ack, (.sessionData, ack) ∈
          (refusedThenPing.foldl (Journal.step transparent) (.start tenByteServer)).acknowledged ∧
        Acknowledges ack 0 ∧
          (PacketSpace.sessionData, 0) ∉
            (refusedThenPing.foldl (Journal.step transparent) (.start tenByteServer)).applied := by
  refine ⟨by decide +kernel, ⟨1, 0, 2, []⟩, ?_, by decide, ?_⟩
  · decide +kernel
  · decide +kernel

/-- Packet 0 with five bytes for a stream, then a PING in packet 2. -/
def streamThenPing : List Call :=
  [.onInbound 0 (plainPacket 0 (openingFrame [1, 2, 3, 4, 5])), .onInbound 1 (plainPacket 2 [0x04])]

theorem acknowledged_is_applied_stream_then_ping :
    Run.Meets (Journal.AdmitsAcceptable transparent) (Journal.step transparent)
        (.start tenByteServer) streamThenPing ∧
      (PacketSpace.sessionData, 0) ∈
        (streamThenPing.foldl (Journal.step transparent) (.start tenByteServer)).applied := by
  have acceptable : Run.Meets (Journal.AdmitsAcceptable transparent) (Journal.step transparent)
      (.start tenByteServer) streamThenPing := by decide +kernel
  refine ⟨acceptable, acknowledged_is_applied (new_started _) acceptable .sessionData
    ⟨2, 0, 1, [⟨1, 1⟩]⟩ ?_ 0 (by decide)⟩
  decide +kernel

end UniversalMesh.Session
