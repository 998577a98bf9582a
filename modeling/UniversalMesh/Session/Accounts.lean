import UniversalMesh.Wire.RoundTrip
import UniversalMesh.Session.Acceptance

/-! The bytes of a session's streams: how many it holds for its applications, and how many it has handed out for
the peer. A STREAM frame raises the first, `send_stream_data` the second, and most calls neither. -/
namespace UniversalMesh.Session
open MachineWord Wire Crypto OrderedMap

namespace Stream

variable (s : Stream)

/-- The bytes of a stream that were delivered or wait in its buffer. -/
def heldBytes : Nat := s.nextDeliverOffset + s.buffered.sumBy List.length

/-- A segment adds no more than what `receive` reports as new. -/
theorem heldBytes_receive (offset : Nat) (data : Bytes) (fin : Bool) :
    (s.receive offset data fin).2.heldBytes ≤
      s.heldBytes + ((s.receive offset data fin).1.toOption).getD 0 := by
  have reaction := s.receive_reaction offset data fin
  generalize s.receive offset data fin = result at reaction
  cases reaction with
  | barred | misplaced | exhausted | repeated => exact Nat.le_add_right ..
  | taken =>
    have put := s.buffered.sumBy_put offset data List.length
    simp only [heldBytes, noted, Except.toOption, Option.getD_some]
    omega

theorem receive_nextSendOffset (offset : Nat) (data : Bytes) (fin : Bool) :
    (s.receive offset data fin).2.nextSendOffset = s.nextSendOffset := by
  have reaction := s.receive_reaction offset data fin
  generalize s.receive offset data fin = result at reaction
  cases reaction <;> rfl

theorem drain_bytes (out : Bytes) :
    (s.drain out).2.heldBytes = s.heldBytes ∧ (s.drain out).2.nextSendOffset = s.nextSendOffset := by
  fun_induction drain s out with
  | case1 => exact ⟨rfl, rfl⟩
  | case2 => exact ⟨rfl, rfl⟩
  | case3 s out offset data found here ih =>
    obtain rfl : offset = s.nextDeliverOffset := not_not.mp here
    refine ⟨ih.1.trans ?_, ih.2⟩
    have member := (first?_eq_some found).1
    have taken := sumBy_erase (get?_eq_some.mpr member) List.length
    simp only [heldBytes, takeFirst, saturatingAdd_of_le (s.fits _ member)]
    omega

theorem readAvailable_bytes : s.readAvailable.2.heldBytes = s.heldBytes ∧
      s.readAvailable.2.nextSendOffset = s.nextSendOffset := by
  have drained := s.drain_bytes []
  unfold readAvailable
  dsimp only
  split <;> exact drained

/-- What the stream's limit leaves of the data for an open sending half. -/
def sendable (data : Bytes) : Nat :=
  if s.sendState = .dataAcked ∨ s.sendState = .resetAcked ∨ s.sendState = .resetSent then 0
  else min data.length (s.maxStreamDataRemote - s.nextSendOffset)

theorem sendReady_bytes {s s' : Stream} (ready : s.sendReady data = .ok (part, s')) :
    s'.heldBytes = s.heldBytes ∧ s'.nextSendOffset = s.nextSendOffset + s.sendable data := by
  unfold sendReady at ready
  unfold sendable
  split at ready
  · cases ready
  · next opened =>
    cases ready
    exact ⟨rfl, by rw [if_neg opened]⟩

end Stream

def held (s : Session) : Nat := s.streams.sumBy Stream.heldBytes

/-- The bytes that the streams have handed out for transmission. -/
def handedOut (s : Session) : Nat := s.streams.sumBy Stream.nextSendOffset

/-- No byte was received or handed out, and the connection's limits are the same. -/
structure Settled (s s' : Session) : Prop where
  held : s'.held ≤ s.held
  handedOut : s'.handedOut ≤ s.handedOut
  consumed : s.flow.consumed ≤ s'.flow.consumed
  localLimit : s'.flow.maxDataLocal = s.flow.maxDataLocal
  remoteLimit : s'.flow.maxDataRemote = s.flow.maxDataRemote

theorem Settled.trans (first : Settled s s') (second : Settled s' s'') : Settled s s'' :=
  ⟨second.held.trans first.held, second.handedOut.trans first.handedOut,
    first.consumed.trans second.consumed, second.localLimit.trans first.localLimit,
    second.remoteLimit.trans first.remoteLimit⟩

theorem SameData.settled (same : SameData s s') : Settled s s' := by
  have held : s'.held = s.held := by rw [Session.held, same.streams, Session.held]
  have handedOut : s'.handedOut = s.handedOut := by
    rw [Session.handedOut, same.streams, Session.handedOut]
  exact ⟨held.le, handedOut.le, same.flow ▸ Nat.le_refl _, same.flow ▸ rfl, same.flow ▸ rfl⟩

section
variable (s : Session) {streamId : Nat} {stream : Stream}

theorem Settled.refl : Settled s s := SameData.settled ⟨rfl, rfl⟩

theorem held_setStream (streamId : Nat) (stream : Stream) :
    (s.setStream streamId stream).held + ((s.streams.get? streamId).map Stream.heldBytes).getD 0 =
      s.held + stream.heldBytes :=
  s.streams.sumBy_put streamId stream Stream.heldBytes

theorem handedOut_setStream (streamId : Nat) (stream : Stream) :
    (s.setStream streamId stream).handedOut +
        ((s.streams.get? streamId).map Stream.nextSendOffset).getD 0 =
      s.handedOut + stream.nextSendOffset :=
  s.streams.sumBy_put streamId stream Stream.nextSendOffset

theorem setStream_settled (known : s.streams.get? streamId = some old)
    (held : stream.heldBytes ≤ old.heldBytes) (sent : stream.nextSendOffset ≤ old.nextSendOffset) :
    Settled s (s.setStream streamId stream) := by
  have heldPut := s.held_setStream streamId stream
  have sentPut := s.handedOut_setStream streamId stream
  simp only [known, Option.map_some, Option.getD_some] at heldPut sentPut
  exact ⟨by omega, by omega, Nat.le_refl _, rfl, rfl⟩

theorem setStream_settled_of_empty (held : stream.heldBytes = 0) (sent : stream.nextSendOffset = 0) :
    Settled s (s.setStream streamId stream) := by
  have heldPut := s.held_setStream streamId stream
  have sentPut := s.handedOut_setStream streamId stream
  exact ⟨by omega, by omega, Nat.le_refl _, rfl, rfl⟩

/-! The calls of an application. -/

theorem openStreamKind_settled (unidirectional : Bool) : Settled s (s.openStreamKind unidirectional).2 := by
  simp only [openStreamKind]
  split
  · exact .refl s
  split
  · exact .refl s
  next next _ =>
  have counted := (s.setNextOutgoing_keeps unidirectional next).2.settled
  split
  · exact counted
  · exact counted.trans (setStream_settled_of_empty _ rfl rfl)

theorem accountRead_data (streamId bytes : Nat) : SameData s (s.accountRead streamId bytes) := by
  simp only [accountRead]
  split <;> exact ⟨rfl, rfl⟩

theorem readStream_settled (streamId : Nat) : Settled s (s.readStream streamId).2 := by
  simp only [readStream]
  split
  · exact .refl s
  next stream known =>
  split
  · exact setStream_settled s known (Nat.le_refl _) (Nat.le_refl _)
  split
  · exact .refl s
  have read := stream.readAvailable_bytes
  have put := (setStream_settled s known read.1.le read.2.le).trans
    (accountRead_data _ streamId stream.readAvailable.1.1.length).settled
  split
  · exact put.trans (SameData.settled ⟨rfl, rfl⟩)
  · exact put

theorem openStreamWithProtocol_settled (protocolId : Bytes) (unidirectional : Bool) :
    Settled s (s.openStreamWithProtocol protocolId unidirectional).2 := by
  have opened := s.openStreamKind_settled unidirectional
  simp only [openStreamWithProtocol]
  split
  · exact .refl s
  split
  · next shape => exact shape ▸ opened
  next shape =>
  rw [shape] at opened
  split
  · exact opened
  · next known => exact opened.trans (setStream_settled _ known (Nat.le_refl _) (Nat.le_refl _))

theorem closeStreamSendPayload_settled (streamId : Nat) : Settled s (s.closeStreamSendPayload streamId).2 := by
  simp only [closeStreamSendPayload]
  split
  · exact .refl s
  next known =>
  split
  · exact .refl s
  · exact setStream_settled s known (Nat.le_refl _) (Nat.le_refl _)

theorem resetStreamPayload_settled (streamId code : Nat) :
    Settled s (s.resetStreamPayload streamId code).2 := by
  simp only [resetStreamPayload]
  split
  · exact .refl s
  · next known => exact setStream_settled s known (Nat.le_refl _) (Nat.le_refl _)

def sendable (streamId : Nat) (data : Bytes) : Nat :=
  ((s.streams.get? streamId).map (·.sendable data)).getD 0

/-- What `send_stream_data` hands out; it looks at the stream's limit only. -/
theorem sendStreamData_account (streamId : Nat) (data : Bytes) (fin : Bool) :
    (s.sendStreamData streamId data fin).2.held ≤ s.held ∧
      (s.sendStreamData streamId data fin).2.handedOut ≤ s.handedOut + s.sendable streamId data ∧
        (s.sendStreamData streamId data fin).2.flow = s.flow := by
  simp only [sendStreamData]
  split
  · exact ⟨Nat.le_refl _, Nat.le_add_right .., rfl⟩
  next stream known =>
  split
  · exact ⟨Nat.le_refl _, Nat.le_add_right .., rfl⟩
  next stream' ready =>
  obtain ⟨heldSame, sent⟩ := Stream.sendReady_bytes ready
  have heldPut := s.held_setStream streamId stream'
  have sentPut := s.handedOut_setStream streamId stream'
  simp only [known, Option.map_some, Option.getD_some] at heldPut sentPut
  simp only [sendable, known, Option.map_some, Option.getD_some]
  exact ⟨by omega, by omega, rfl⟩

theorem streamCredit_settled (streamId : Nat) : Settled s (s.streamCredit streamId).2 := by
  simp only [streamCredit]
  split
  · exact .refl s
  next known =>
  repeat' split
  all_goals first
    | exact .refl s
    | exact setStream_settled s known (Nat.le_refl _) (Nat.le_refl _)

theorem streamCredits_settled (streamIds : List Nat) : Settled s (s.streamCredits streamIds).2 := by
  induction streamIds generalizing s with
  | nil => exact .refl s
  | cons streamId rest ih => exact (s.streamCredit_settled streamId).trans (ih _)

theorem streamCountCredit_settled : Settled s s.streamCountCredit.2 := by
  simp only [streamCountCredit]
  split
  · exact ⟨Nat.le_refl _, Nat.le_refl _, Nat.le_refl _, rfl, rfl⟩
  · exact .refl s

/-! The frames of the peer. -/

theorem onStream_settled (streamId : Nat) (held : ∀ stream, (change stream).heldBytes = stream.heldBytes)
    (sent : ∀ stream, (change stream).nextSendOffset = stream.nextSendOffset) :
    Settled s (s.onStream streamId change) := by
  unfold onStream
  split
  · exact .refl s
  · next known => exact setStream_settled s known (held _).le (sent _).le

theorem applyResetStream_settled (f : ResetStreamFrame) : Settled s (s.applyResetStream f).2 := by
  simp only [applyResetStream]
  split
  · exact .refl s
  split
  · exact .refl s
  next stream known =>
  split
  · exact .refl s
  split
  · exact .refl s
  split
  · exact SameData.settled ⟨rfl, rfl⟩
  next flow charged =>
  have put : Settled s (s.setStream f.streamId { stream with
      recvState := .resetRecvd, resetErrorCode := some f.appErrorCode }) :=
    setStream_settled s known (Nat.le_refl _) (Nat.le_refl _)
  have credit : s.flow.consumed ≤ flow.consumed ∧ flow.maxDataLocal = s.flow.maxDataLocal ∧
      flow.maxDataRemote = s.flow.maxDataRemote := by
    split at charged
    · cases charged
      exact ⟨Nat.le_refl _, rfl, rfl⟩
    · obtain ⟨total, limits⟩ := FlowControl.consume_ok charged
      exact ⟨total ▸ Nat.le_add_right .., limits⟩
  exact ⟨put.held, put.handedOut, credit.1, credit.2.1, credit.2.2⟩

theorem raiseStreamLimit_settled (f : MaxStreamsFrame) : Settled s (s.raiseStreamLimit f) := by
  unfold raiseStreamLimit
  split <;> exact ⟨Nat.le_refl _, Nat.le_refl _, Nat.le_refl _, rfl, rfl⟩

/-- What a STREAM frame does to the accounts: no more bytes come to be held than are charged, if the
connection's credit covers what is new. -/
structure Takes (covered : Prop) (s s' : Session) : Prop where
  handedOut : s'.handedOut ≤ s.handedOut
  consumed : s.flow.consumed ≤ s'.flow.consumed
  localLimit : s'.flow.maxDataLocal = s.flow.maxDataLocal
  remoteLimit : s'.flow.maxDataRemote = s.flow.maxDataRemote
  charged : covered → s'.held + s.flow.consumed ≤ s.held + s'.flow.consumed

theorem Settled.takes {covered : Prop} (settled : Settled s s') : Takes covered s s' :=
  ⟨settled.handedOut, settled.consumed, settled.localLimit, settled.remoteLimit,
    fun _ => Nat.add_le_add settled.held settled.consumed⟩

section
variable (found : s.streamFor f = .ok stream)
include found

/-- The stream a frame is for has the bytes of the stream it will replace. -/
theorem streamFor_bytes :
    stream.heldBytes = ((s.streams.get? f.streamId).map Stream.heldBytes).getD 0 ∧
      stream.nextSendOffset = ((s.streams.get? f.streamId).map Stream.nextSendOffset).getD 0 := by
  unfold streamFor at found
  split at found
  · next known =>
    cases found
    simp [known, openedStream, Stream.new, Stream.heldBytes]
  next known =>
  rw [known]
  split at found
  · split at found
    · cases found
    · cases found
      exact ⟨rfl, rfl⟩
  · split at found
    · cases found
    · cases found
      exact ⟨rfl, rfl⟩

theorem putStream_account (held : stream'.heldBytes ≤ stream.heldBytes + added)
    (sent : stream'.nextSendOffset = stream.nextSendOffset) :
    (s.putStream f.streamId stream').held ≤ s.held + added ∧
      (s.putStream f.streamId stream').handedOut ≤ s.handedOut := by
  obtain ⟨heldBefore, sentBefore⟩ := s.streamFor_bytes found
  have heldPut := s.held_setStream f.streamId stream'
  have sentPut := s.handedOut_setStream f.streamId stream'
  have placed : (s.putStream f.streamId stream').held = (s.setStream f.streamId stream').held ∧
    (s.putStream f.streamId stream').handedOut = (s.setStream f.streamId stream').handedOut := ⟨rfl, rfl⟩
  exact ⟨by omega, by omega⟩

/-- Where the credit does not cover a segment, its bytes are held without being charged. -/
theorem receiveSegment_takes :
    Takes (recvClosed stream = false → stream.Receivable f.offset f.data f.fin →
        s.flow.consumed + stream.freshBytes f.offset f.data ≤ s.flow.maxDataLocal)
      s (s.receiveSegment f stream).2 := by
  have received := stream.heldBytes_receive f.offset f.data f.fin
  have sent := stream.receive_nextSendOffset f.offset f.data f.fin
  have accepted := fun fresh => @Stream.receive_ok stream f.offset f.data f.fin fresh
  unfold receiveSegment
  split
  · obtain ⟨held, handedOut⟩ := s.putStream_account found (Nat.le_add_right _ 0) rfl
    exact ⟨handedOut, Nat.le_refl _, rfl, rfl, fun _ => Nat.add_le_add_right held _⟩
  next unclosed =>
  cases shape : stream.receive f.offset f.data f.fin with
  | mk result stream' =>
    rw [shape] at received sent accepted
    obtain ⟨held, handedOut⟩ := s.putStream_account found received sent
    cases result with
    | error e => exact ⟨handedOut, Nat.le_refl _, rfl, rfl, fun _ => Nat.add_le_add_right held _⟩
    | ok newBytes =>
      obtain ⟨receivable, fresh⟩ := (accepted newBytes).mp rfl
      dsimp only
      split
      · next refused =>
        refine ⟨handedOut, Nat.le_refl _, rfl, rfl, fun covered => ?_⟩
        obtain ⟨flow, charged⟩ := FlowControl.consume_isOk.mpr
          (covered (Bool.eq_false_iff.mpr unclosed) receivable)
        rw [← fresh] at charged
        exact absurd (charged.symm.trans refused) (by simp)
      · next flow charged =>
        obtain ⟨total, localLimit, remoteLimit⟩ := FlowControl.consume_ok charged
        have before : (s.putStream f.streamId stream').flow.consumed = s.flow.consumed := rfl
        refine ⟨handedOut, by show s.flow.consumed ≤ flow.consumed; omega, localLimit, remoteLimit,
          fun _ => ?_⟩
        have after : (s.putStream f.streamId stream').held ≤ s.held + newBytes := held
        show (s.putStream f.streamId stream').held + s.flow.consumed ≤ s.held + flow.consumed
        omega

end

theorem applyStreamFrame_takes (f : StreamFrame) :
    Takes (s.checkStreamFrame f = .ok () → ∀ stream, s.streamFor f = .ok stream →
        recvClosed stream = false → stream.Receivable f.offset f.data f.fin →
          s.flow.consumed + stream.freshBytes f.offset f.data ≤ s.flow.maxDataLocal)
      s (s.applyStreamFrame f).2 := by
  unfold applyStreamFrame
  split
  · exact (Settled.refl s).takes
  next checked =>
  split
  · exact (Settled.refl s).takes
  next stream found =>
  have segment := s.receiveSegment_takes found
  exact { segment with charged := fun covered => segment.charged (covered checked stream found) }

variable (crypto : Primitives)

/-- Only STREAM frames bring bytes, and only MAX_DATA frames a limit. -/
theorem applyFrame_accounts (now : Instant) (pathId : Nat) (frame : Frame) :
    (∃ f, frame = .stream f) ∨ (∃ f, frame = .maxData f) ∨
      Settled s (s.applyFrame crypto now pathId frame).2 := by
  cases frame with
  | stream f => exact .inl ⟨f, rfl⟩
  | maxData f => exact .inr (.inl ⟨f, rfl⟩)
  | resetStream f => exact .inr (.inr (s.applyResetStream_settled f))
  | stopSending f => exact .inr (.inr (s.onStream_settled _ (fun _ => rfl) fun _ => rfl))
  | maxStreamData f => exact .inr (.inr (s.onStream_settled _ (fun _ => rfl) fun _ => rfl))
  | maxStreams f => exact .inr (.inr (s.raiseStreamLimit_settled f))
  | _ => exact .inr (.inr (SameData.of_streams (s.applyFrame_other crypto now pathId id).1).settled)

/-- Only `send_stream_data`, `flow_control_frames` and `on_inbound` move stream bytes or raise a limit. -/
theorem Call.accounts (call : Call) :
    (∃ streamId data fin, call = .data (.sendStreamData streamId data fin)) ∨
      call = .data .flowControlFrames ∨ (∃ now bytes, call = .onInbound now bytes) ∨
        Settled s (call.run crypto s) := by
  cases call with
  | onInbound now bytes => exact .inr (.inr (.inl ⟨now, bytes, rfl⟩))
  | data call =>
    cases call with
    | sendStreamData streamId data fin => exact .inl ⟨streamId, data, fin, rfl⟩
    | flowControlFrames => exact .inr (.inl rfl)
    | openStreamKind => exact .inr (.inr (.inr (s.openStreamKind_settled _)))
    | openStreamWithProtocol =>
      exact .inr (.inr (.inr (s.openStreamWithProtocol_settled _ _)))
    | closeStreamSendPayload streamId =>
      exact .inr (.inr (.inr (s.closeStreamSendPayload_settled _)))
    | resetStreamPayload => exact .inr (.inr (.inr (s.resetStreamPayload_settled _ _)))
    | readStream streamId => exact .inr (.inr (.inr (s.readStream_settled _)))
  | _ => exact .inr (.inr (.inr (SameData.of_streams (Call.streams crypto s id)).settled))

end

/-! The connection's flow control, in both directions. A ledger beside the session keeps the limits advertised
to the peer and received from it. The session buffers a segment before it charges the credit, and hands out
bytes without looking at the peer's connection limit; the bounds hold where every segment and every send stays
within the credit on its own. -/

/-- The limits of the MAX_DATA frames among the frames. -/
def maxDataLimits (frames : List Frame) : List Nat :=
  frames.filterMap fun
    | .maxData f => some f.maximumData
    | _ => none

/-- The limits a peer reads from payloads. -/
def announcedLimits (payloads : List Bytes) : List Nat :=
  payloads.flatMap fun payload => maxDataLimits ((decodeFrames payload).toOption.getD [])

theorem mem_announcedLimits {payloads : List Bytes} {f : MaxDataFrame} (sent : payload ∈ payloads)
    (encoded : f.encode = .ok payload) : f.maximumData ∈ announcedLimits payloads := by
  have decoded : decodeFrames payload = .ok [.maxData f] :=
    Frame.decodeFrames_alone (MaxDataFrame.round_trip encoded) rfl fun _ => rfl
  exact List.mem_flatMap.mpr ⟨payload, sent, by simp [decoded, Except.toOption, maxDataLimits]⟩

/-- A session with the bytes it ever came to hold and the connection limits advertised and granted. -/
structure CreditLedger where
  session : Session
  everHeld : Nat
  (advertised granted : List Nat)

section
variable (crypto : Primitives)

namespace CreditLedger

/-- The session of a configuration starts with its limit in both directions. -/
def start (config : SessionConfig) (s : Session) : CreditLedger :=
  { session := s, everHeld := 0
    advertised := [config.initialMaxData], granted := [config.initialMaxData] }

/-- One call, with the bytes and limits it brings. -/
def step (l : CreditLedger) (call : Call) : CreditLedger :=
  { session := call.run crypto l.session
    everHeld := l.everHeld + ((call.run crypto l.session).held - l.session.held)
    advertised :=
      match call with
      | .data .flowControlFrames => announcedLimits l.session.flowControlFrames.1 ++ l.advertised
      | _ => l.advertised
    granted :=
      match call with
      | .onInbound now bytes => maxDataLimits (l.session.inboundFrames crypto now bytes) ++ l.granted
      | _ => l.granted }

end CreditLedger

def streamFrame? : Frame → Option StreamFrame
  | .stream f => some f
  | _ => none

/-- What is new in a segment that passes the checks of its frame and stream is within the connection's credit.
-/
def CreditCovers (s : Session) (frame : Frame) : Prop :=
  ∀ f ∈ streamFrame? frame, s.checkStreamFrame f = .ok () → ∀ stream ∈ (s.streamFor f).toOption,
    recvClosed stream = false → stream.Receivable f.offset f.data f.fin →
      s.flow.consumed + stream.freshBytes f.offset f.data ≤ s.flow.maxDataLocal
  deriving Decidable

/-- A doubled limit can be written in a MAX_DATA frame. -/
def CreditAnnounceable (s : Session) : Prop :=
  s.flow.creditRemainingLocal < s.flow.maxDataLocal / 2 →
    2 * s.flow.maxDataLocal ≤ Varint.maxVarint
  deriving Decidable

namespace CreditLedger

/-- The peer stays within the credit of each segment, and the limit within a varint. -/
def WithinCredit (l : CreditLedger) : Call → Prop
  | .onInbound now bytes => l.session.EachInboundFrame crypto CreditCovers now bytes
  | .data .flowControlFrames => l.session.CreditAnnounceable
  | _ => True

instance (l : CreditLedger) : DecidablePred (l.WithinCredit crypto)
  | .onInbound now bytes =>
    inferInstanceAs (Decidable (l.session.EachInboundFrame crypto CreditCovers now bytes))
  | .data .flowControlFrames => inferInstanceAs (Decidable l.session.CreditAnnounceable)
  | .data (.openStreamKind _) | .data (.openStreamWithProtocol _ _) | .data (.sendStreamData _ _ _)
  | .data (.closeStreamSendPayload _) | .data (.resetStreamPayload _ _) | .data (.readStream _)
  | .control _ | .buildOutbound _ _ _ | .retransmit _ _ | .pruneRetransmitPayload _ => .isTrue trivial

/-- The bytes of each send are within the peer's connection limit. -/
def WithinGrant (l : CreditLedger) : Call → Prop
  | .data (.sendStreamData streamId data _) =>
    l.session.handedOut + l.session.sendable streamId data ≤ l.session.flow.maxDataRemote
  | _ => True

/-- Every byte that was ever held is charged, and an advertised limit covers the
session's own. -/
structure Covered (l : CreditLedger) : Prop where
  charged : l.everHeld ≤ l.session.flow.consumed
  announced : ∃ limit ∈ l.advertised, l.session.flow.maxDataLocal ≤ limit

end CreditLedger
end

variable {crypto : Primitives} {now : Instant} (s : Session)

/-- Every byte that came to be held since `origin` is charged, under the same limit. -/
structure Charged (origin s : Session) : Prop where
  held : s.held + origin.flow.consumed ≤ origin.held + s.flow.consumed
  consumed : origin.flow.consumed ≤ s.flow.consumed
  limit : s.flow.maxDataLocal = origin.flow.maxDataLocal

theorem Charged.refl (s : Session) : Charged s s := ⟨Nat.le_refl _, Nat.le_refl _, rfl⟩

variable {origin s s' : Session}

theorem Takes.chargedSince {covered : Prop} (takes : Takes covered s s')
    (covers : covered) (charged : Charged origin s) : Charged origin s' := by
  have before := charged.held
  have paid := takes.charged covers
  exact ⟨by omega, charged.consumed.trans takes.consumed, takes.localLimit.trans charged.limit⟩

theorem Settled.chargedSince (settled : Settled s s') (charged : Charged origin s) : Charged origin s' :=
  Takes.chargedSince settled.takes trivial charged

theorem connectionCredit_kept :
    s.connectionCredit.2.streams = s.streams ∧
      s.connectionCredit.2.flow.consumed = s.flow.consumed ∧
        s.connectionCredit.2.flow.maxDataRemote = s.flow.maxDataRemote := by
  simp only [connectionCredit]
  split
  · split
    · simp only [FlowControl.grantMore]
      split <;> simp
    · exact ⟨rfl, rfl, rfl⟩
  · exact ⟨rfl, rfl, rfl⟩

/-- A limit that is raised is the one in the MAX_DATA frame, if it can be written. -/
theorem connectionCredit_announced (announceable : s.CreditAnnounceable) :
    s.connectionCredit.2.flow.maxDataLocal = s.flow.maxDataLocal ∨
      ∃ payload ∈ s.connectionCredit.1, ∃ f : MaxDataFrame,
        f.encode = .ok payload ∧ s.connectionCredit.2.flow.maxDataLocal = f.maximumData := by
  simp only [connectionCredit]
  split
  swap
  · exact .inl rfl
  next due =>
  split
  swap
  · exact .inl rfl
  next more =>
  have written : saturatingMul s.flow.maxDataLocal 2 ≤ Varint.maxVarint := by
    have fits := announceable due
    rw [Nat.mul_comm] at fits
    exact (Nat.min_le_left ..).trans fits
  obtain ⟨payload, encoded⟩ :=
    MaxDataFrame.encode_of_le (f := { maximumData := saturatingMul s.flow.maxDataLocal 2 }) written
  refine .inr ⟨payload, by simp [encoded, Except.toOption], _, encoded, ?_⟩
  simp only [FlowControl.grantMore, more, dif_pos]

theorem flowControlFrames_rest :
    Settled s.connectionCredit.2 s.flowControlFrames.2 ∧
      ∀ payload ∈ s.connectionCredit.1, payload ∈ s.flowControlFrames.1 := by
  constructor
  · obtain ⟨streamIds, shape⟩ := s.flowControlFrames_session
    exact (streamCredits_settled _ _).trans (streamCountCredit_settled _)
  · intro payload sent
    have first : payload ∈ s.connectionCredit.1.toList := Option.mem_toList.mpr sent
    exact List.mem_append_left _ (List.mem_append_left _ first)

/-- The frames of a peer that stays within the credit: what comes to be held is charged. -/
theorem applyFrame_charged {origin : Session} (covers : s.CreditCovers frame)
    (charged : Charged origin s) : Charged origin (s.applyFrame crypto now pathId frame).2 := by
  obtain ⟨f, rfl⟩ | ⟨f, rfl⟩ | settled := s.applyFrame_accounts crypto now pathId frame
  · have taken := (s.applyStreamFrame_takes f).chargedSince
      (fun checked stream found => covers f rfl checked stream (by rw [found]; rfl)) charged
    exact ⟨taken.held, taken.consumed, taken.limit⟩
  · simp only [applyFrame]
    split <;> exact ⟨charged.held, charged.consumed, charged.limit⟩
  · exact settled.chargedSince charged

namespace CreditLedger
variable (l : CreditLedger)

theorem advertised_step (member : limit ∈ l.advertised) : limit ∈ (l.step crypto call).advertised := by
  simp only [step]
  split
  · exact List.mem_append_right _ member
  · exact member

theorem step_everHeld : (l.step crypto call).everHeld =
    l.everHeld + ((l.step crypto call).session.held - l.session.held) :=
  rfl

theorem step_charged (covered : l.Covered) (charged : Charged l.session (call.run crypto l.session)) :
    (l.step crypto call).everHeld ≤ (call.run crypto l.session).flow.consumed := by
  have all := covered.charged
  have since := charged.held
  have more := charged.consumed
  show l.everHeld + ((call.run crypto l.session).held - l.session.held) ≤ _
  omega

/-- The limit that a MAX_DATA frame raises is advertised by it. -/
theorem flowControlFrames_covered (covered : l.Covered) (announceable : l.session.CreditAnnounceable) :
    (l.step crypto (.data .flowControlFrames)).Covered := by
  obtain ⟨limit, member, above⟩ := covered.announced
  obtain ⟨streams, consumed, -⟩ := l.session.connectionCredit_kept
  obtain ⟨rest, sent⟩ := l.session.flowControlFrames_rest
  have all := covered.charged
  have held : l.session.flowControlFrames.2.held ≤ l.session.held := by
    refine rest.held.trans ?_
    rw [Session.held, streams, Session.held]
  have charged : l.session.flow.consumed ≤ l.session.flowControlFrames.2.flow.consumed :=
    consumed.ge.trans rest.consumed
  have same := rest.localLimit
  have after : (l.step crypto (.data .flowControlFrames)).session = l.session.flowControlFrames.2 := rfl
  refine ⟨?_, ?_⟩
  · rw [step_everHeld, after]
    omega
  obtain kept | ⟨payload, announced, f, encoded, raised⟩ := l.session.connectionCredit_announced announceable
  · exact ⟨limit, l.advertised_step member, (same.trans kept).le.trans above⟩
  · exact ⟨f.maximumData, List.mem_append_left _ (mem_announcedLimits (sent payload announced) encoded),
      (same.trans raised).le⟩

theorem step_covered (l : CreditLedger) (call : Call) (covered : l.Covered)
    (within : l.WithinCredit crypto call) : (l.step crypto call).Covered := by
  have kept : Charged l.session (call.run crypto l.session) → (l.step crypto call).Covered := by
    intro charged
    obtain ⟨limit, member, above⟩ := covered.announced
    exact ⟨l.step_charged covered charged, limit, l.advertised_step member, charged.limit.le.trans above⟩
  obtain ⟨streamId, data, fin, rfl⟩ | rfl | ⟨now, bytes, rfl⟩ | settled := Call.accounts l.session crypto call
  · obtain ⟨held, -, flow⟩ := l.session.sendStreamData_account streamId data fin
    have consumed := (congrArg FlowControl.consumed flow).ge
    exact kept ⟨Nat.add_le_add held consumed, consumed, congrArg FlowControl.maxDataLocal flow⟩
  · exact l.flowControlFrames_covered covered within
  · exact kept (onInbound_invariant (fun _ _ _ _ _ _ => Settled.chargedSince (SameData.settled ⟨rfl, rfl⟩))
      (fun _ s _ covers => s.applyFrame_charged covers) within (.refl l.session))
  · exact kept (settled.chargedSince (.refl l.session))

end CreditLedger

/-- In every run in which the segments stay within the connection's credit, the bytes that streams have
delivered or buffered never exceed the largest limit advertised. -/
theorem held_within_advertised {config : SessionConfig} {s : Session}
    (started : Session.new crypto config = .ok s) {calls : List Call}
    (within : Run.Meets (CreditLedger.WithinCredit crypto) (CreditLedger.step crypto) (.start config s) calls) :
    ∃ limit ∈ (calls.foldl (CreditLedger.step crypto) (.start config s)).advertised,
      (calls.foldl (CreditLedger.step crypto) (.start config s)).everHeld ≤ limit := by
  have fresh := new_fresh started
  have initial : (CreditLedger.start config s).Covered := by
    refine ⟨Nat.zero_le _, config.initialMaxData, List.mem_cons_self, ?_⟩
    show s.flow.maxDataLocal ≤ config.initialMaxData
    rw [fresh.flow]
    exact Nat.le_refl _
  have covered : (calls.foldl (CreditLedger.step crypto) (.start config s)).Covered :=
    Run.invariant_of_meets CreditLedger.step_covered initial within
  obtain ⟨limit, member, above⟩ := covered.announced
  exact ⟨limit, member, covered.charged.trans ((FlowControl.within _).trans above)⟩

/-- Twenty bytes for a stream, past the credit, and the same frame again. -/
def overfullSegment : List Call :=
  [.onInbound 0 (plainPacket 0 (openingFrame (List.replicate 20 7))),
    .onInbound 1 (plainPacket 1 (openingFrame (List.replicate 20 7)))]

/-- The call fails, yet its bytes are held, more than was ever advertised. -/
theorem refused_segment_is_held :
    (tenByteServer.onInbound transparent 0
        (plainPacket 0 (openingFrame (List.replicate 20 7)))).1 = .error (.flow .exceedsCredit) ∧
      (overfullSegment.foldl (CreditLedger.step transparent)
        (.start tenByteConfig tenByteServer)).everHeld = 20 ∧
      (overfullSegment.foldl (CreditLedger.step transparent)
        (.start tenByteConfig tenByteServer)).advertised = [10] := by
  refine ⟨by decide +kernel, by decide +kernel, by decide +kernel⟩

/-- Six bytes for a stream, a MAX_DATA frame and the same six bytes again. -/
def segmentWithinCredit : List Call :=
  [.onInbound 0 (plainPacket 0 (openingFrame [1, 2, 3, 4, 5, 6])), .data .flowControlFrames,
    .onInbound 1 (plainPacket 1 (openingFrame [1, 2, 3, 4, 5, 6]))]

theorem held_within_advertised_six_bytes :
    let l := CreditLedger.start tenByteConfig tenByteServer
    let l' := segmentWithinCredit.foldl (CreditLedger.step transparent) l
    Run.Meets (CreditLedger.WithinCredit transparent) (CreditLedger.step transparent) l
        segmentWithinCredit ∧
      ∃ limit ∈ l'.advertised, l'.everHeld ≤ limit := by
  intro l
  have within : Run.Meets (CreditLedger.WithinCredit transparent) (CreditLedger.step transparent) l
      segmentWithinCredit := by decide +kernel
  exact ⟨within, held_within_advertised (new_started _) within⟩

/-! The sending direction. -/

/-- What is handed out is within the peer's limit, one of those granted. -/
def Allowed (limits : List Nat) (s : Session) : Prop :=
  s.handedOut ≤ s.flow.maxDataRemote ∧ s.flow.maxDataRemote ∈ limits

theorem Settled.allowed (settled : Settled s s') (allowed : s.Allowed limits) : s'.Allowed limits := by
  refine ⟨settled.handedOut.trans ?_, ?_⟩
  · rw [settled.remoteLimit]
    exact allowed.1
  · rw [settled.remoteLimit]
    exact allowed.2

/-- The frames of the peer hand out nothing, and MAX_DATA only raises the limit. -/
theorem applyFrame_allowed {pathId : Nat} (noted : ∀ limit ∈ maxDataLimits [frame], limit ∈ limits)
    (allowed : s.Allowed limits) : (s.applyFrame crypto now pathId frame).2.Allowed limits := by
  obtain ⟨f, rfl⟩ | ⟨f, rfl⟩ | settled := s.applyFrame_accounts crypto now pathId frame
  · have taken := s.applyStreamFrame_takes f
    refine ⟨?_, taken.remoteLimit.symm ▸ allowed.2⟩
    exact taken.handedOut.trans (allowed.1.trans taken.remoteLimit.ge)
  · simp only [applyFrame]
    split
    · next more =>
      exact ⟨allowed.1.trans (Nat.le_of_lt more), noted f.maximumData (by simp [maxDataLimits])⟩
    · exact allowed
  · exact settled.allowed allowed

namespace CreditLedger

theorem granted_step (l : CreditLedger) (member : limit ∈ l.granted) :
    limit ∈ (l.step crypto call).granted := by
  simp only [step]
  split
  · exact List.mem_append_right _ member
  · exact member

theorem step_allowed (l : CreditLedger) (call : Call) (allowed : l.session.Allowed l.granted)
    (within : l.WithinGrant call) : (l.step crypto call).session.Allowed (l.step crypto call).granted := by
  obtain ⟨streamId, data, fin, rfl⟩ | rfl | ⟨now, bytes, rfl⟩ | settled := Call.accounts l.session crypto call
  · obtain ⟨-, sent, flow⟩ := l.session.sendStreamData_account streamId data fin
    have limit := congrArg FlowControl.maxDataRemote flow
    exact ⟨sent.trans (within.trans limit.ge), limit.symm ▸ allowed.2⟩
  · obtain ⟨streams, -, remoteLimit⟩ := l.session.connectionCredit_kept
    have credited : l.session.connectionCredit.2.Allowed l.granted := by
      refine ⟨?_, remoteLimit.symm ▸ allowed.2⟩
      rw [handedOut, streams, remoteLimit]
      exact allowed.1
    exact l.session.flowControlFrames_rest.1.allowed credited
  · have more : l.session.Allowed (l.step crypto (.onInbound now bytes)).granted :=
      ⟨allowed.1, List.mem_append_right _ allowed.2⟩
    refine onInbound_invariant (fun _ _ _ _ _ _ => Settled.allowed (SameData.settled ⟨rfl, rfl⟩))
      (fun _ s frame member => s.applyFrame_allowed fun limit here => ?_)
      eachInboundFrame_mem more
    refine List.mem_append_left _ ?_
    obtain ⟨_, only, noted⟩ := List.mem_filterMap.mp here
    obtain rfl := List.mem_singleton.mp only
    exact List.mem_filterMap.mpr ⟨_, member, noted⟩
  · obtain ⟨sent, received⟩ := settled.allowed allowed
    exact ⟨sent, l.granted_step received⟩

end CreditLedger

/-- In every run in which each send stays within the peer's connection limit, the bytes handed out never exceed
the largest limit received. -/
theorem handedOut_within_granted {config : SessionConfig} {s : Session}
    (started : Session.new crypto config = .ok s) {calls : List Call}
    (within : Run.Meets CreditLedger.WithinGrant (CreditLedger.step crypto) (.start config s) calls) :
    ∃ limit ∈ (calls.foldl (CreditLedger.step crypto) (.start config s)).granted,
      (calls.foldl (CreditLedger.step crypto) (.start config s)).session.handedOut ≤ limit := by
  have fresh := new_fresh started
  have initial : s.Allowed [config.initialMaxData] := by
    rw [Allowed, handedOut, fresh.streams, fresh.flow]
    exact ⟨Nat.zero_le _, List.mem_singleton_self _⟩
  have allowed := Run.invariant_of_meets CreditLedger.step_allowed initial within
  exact ⟨_, allowed.2, allowed.1⟩

def openAndSend (data : Bytes) : List Call :=
  [.data (.openStreamKind false), .data (.sendStreamData 1 data false)]

/-- A hundred bytes go out against a connection limit of ten. -/
theorem send_ignores_connection_limit :
    let l := (openAndSend (List.replicate 100 7)).foldl (CreditLedger.step transparent)
      (.start tenByteConfig tenByteServer)
    l.session.handedOut = 100 ∧ l.granted = [10] := by
  decide +kernel

theorem handedOut_within_granted_ten_bytes :
    let l := CreditLedger.start tenByteConfig tenByteServer
    let calls := openAndSend (List.replicate 10 7)
    let l' := calls.foldl (CreditLedger.step transparent) l
    Run.Meets CreditLedger.WithinGrant (CreditLedger.step transparent) l calls ∧
      ∃ limit ∈ l'.granted, l'.session.handedOut ≤ limit := by
  intro l calls
  have within : Run.Meets CreditLedger.WithinGrant (CreditLedger.step transparent) l calls :=
    ⟨trivial, by unfold CreditLedger.WithinGrant; decide +kernel, trivial⟩
  exact ⟨within, handedOut_within_granted (new_started _) within⟩

end UniversalMesh.Session
