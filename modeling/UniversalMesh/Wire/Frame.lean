import UniversalMesh.Wire.Frames.Control
import UniversalMesh.Wire.Frames.Routing
import UniversalMesh.Wire.Frames.Bundle

/-! `umc-wire/src/frame.rs`: the frames of a packet payload and the loop that
parses them. A payload is the frames' encodings one after the other, without a
count and without separators. -/
namespace UniversalMesh.Wire
open MachineWord

inductive Frame where
  | padding | ping | ack (f : AckFrame) | connectionClose (f : ConnectionCloseFrame)
  | stream (f : StreamFrame) | resetStream (f : ResetStreamFrame)
  | stopSending (f : StopSendingFrame) | maxData (f : MaxDataFrame)
  | maxStreamData (f : MaxStreamDataFrame) | maxStreams (f : MaxStreamsFrame)
  | datagram (f : DatagramFrame) | newConnectionId (f : NewConnectionIdFrame)
  | retireConnectionId (f : RetireConnectionIdFrame) | pathChallenge (f : PathChallengeFrame)
  | pathResponse (f : PathResponseFrame) | pathStatus (f : PathStatusFrame)
  | migrate (f : MigrateFrame) | keyUpdate (f : KeyUpdateFrame) | auth (f : AuthFrame)
  | handshakeData (f : HandshakeDataFrame) | capabilities (f : CapabilitiesFrame)
  | sessionTicket (f : SessionTicketFrame) | routeRequest (f : RouteRequestFrame)
  | routeResponse (f : RouteResponseFrame) | routeError (f : RouteErrorFrame)
  | relayOpen (f : RelayOpenFrame) | relayStatus (f : RelayStatusFrame)
  | relayData (f : RelayDataFrame) | relayClose (f : RelayCloseFrame) | bundle (f : BundleFrame)
  | bundleAck (f : BundleAckFrame) | peerHint (f : PeerHintFrame)
  | serviceHint (f : ServiceHintFrame) | dhtLookup (f : DhtLookupFrame)
  | revocationBatch (f : RevocationBatchFrame)
  deriving DecidableEq, Repr

namespace Frame

/-- Each frame's own `encode`. PADDING and PING have no body: their encoding is
the type, which is how every sender of them writes it. -/
def encode : Frame → Except FrameError Bytes
  | padding => putVarint FrameType.padding.value []
  | ping => putVarint FrameType.ping.value []
  | ack f => f.encode
  | connectionClose f => f.encode
  | stream f => f.encode
  | resetStream f => f.encode
  | stopSending f => f.encode
  | maxData f => f.encode
  | maxStreamData f => f.encode
  | maxStreams f => f.encode
  | datagram f => f.encode
  | newConnectionId f => f.encode
  | retireConnectionId f => f.encode
  | pathChallenge f => f.encode
  | pathResponse f => f.encode
  | pathStatus f => f.encode
  | migrate f => f.encode
  | keyUpdate f => f.encode
  | auth f => f.encode
  | handshakeData f => f.encode
  | capabilities f => f.encode
  | sessionTicket f => f.encode
  | routeRequest f => f.encode
  | routeResponse f => f.encode
  | routeError f => f.encode
  | relayOpen f => f.encode
  | relayStatus f => f.encode
  | relayData f => f.encode
  | relayClose f => f.encode
  | bundle f => f.encode
  | bundleAck f => f.encode
  | peerHint f => f.encode
  | serviceHint f => f.encode
  | dhtLookup f => f.encode
  | revocationBatch f => f.encode

/-- `let (f, used) = decode(rest)?; pos += used; out.push(make(f))`. -/
def decodeAs (make : F → Frame) (decoded : Except FrameError (F × Nat)) :
    Except FrameError (Frame × Nat) := do
  let (f, used) ← decoded
  .ok (make f, used)

/-- The inner `match ty` of `decode_frames`, for the fixed layouts. -/
def decodeFixed (ty : FrameType) (rest : Bytes) : Except FrameError (Frame × Nat) :=
  match ty with
  | .padding => .ok (padding, 0)
  | .ping => .ok (ping, 0)
  | .ack => decodeAs ack (AckFrame.decode rest)
  | .connectionClose => decodeAs connectionClose (ConnectionCloseFrame.decode rest)
  | .stream => decodeAs stream (StreamFrame.decode rest)
  | .resetStream => decodeAs resetStream (ResetStreamFrame.decode rest)
  | .stopSending => decodeAs stopSending (StopSendingFrame.decode rest)
  | .maxData => decodeAs maxData (MaxDataFrame.decode rest)
  | .maxStreamData => decodeAs maxStreamData (MaxStreamDataFrame.decode rest)
  | .maxStreams => decodeAs maxStreams (MaxStreamsFrame.decode rest)
  | .datagram => decodeAs datagram (DatagramFrame.decode rest)
  | .newConnectionId => decodeAs newConnectionId (NewConnectionIdFrame.decode rest)
  | .retireConnectionId => decodeAs retireConnectionId (RetireConnectionIdFrame.decode rest)
  | .pathChallenge => decodeAs pathChallenge (PathChallengeFrame.decode rest)
  | .pathResponse => decodeAs pathResponse (PathResponseFrame.decode rest)
  | .pathStatus => decodeAs pathStatus (PathStatusFrame.decode rest)
  | .migrate => decodeAs migrate (MigrateFrame.decode rest)
  | .keyUpdate => decodeAs keyUpdate (KeyUpdateFrame.decode rest)
  | .auth => decodeAs auth (AuthFrame.decode rest)
  | .handshakeData => decodeAs handshakeData (HandshakeDataFrame.decode rest)
  | .capabilities => decodeAs capabilities (CapabilitiesFrame.decode rest)
  | .sessionTicket => decodeAs sessionTicket (SessionTicketFrame.decode rest)
  | .routeRequest => decodeAs routeRequest (RouteRequestFrame.decode rest)
  | .routeResponse => decodeAs routeResponse (RouteResponseFrame.decode rest)
  | .routeError => decodeAs routeError (RouteErrorFrame.decode rest)
  | .relayOpen => decodeAs relayOpen (RelayOpenFrame.decode rest)
  | .relayStatus => decodeAs relayStatus (RelayStatusFrame.decode rest)
  | .relayData => decodeAs relayData (RelayDataFrame.decode rest)
  | .relayClose => decodeAs relayClose (RelayCloseFrame.decode rest)
  | .bundle => decodeAs bundle (BundleFrame.decode rest)
  | .bundleAck => decodeAs bundleAck (BundleAckFrame.decode rest)
  | .peerHint => decodeAs peerHint (PeerHintFrame.decode rest)
  | .serviceHint => decodeAs serviceHint (ServiceHintFrame.decode rest)
  | _ =>
    if ty.behavior = .optionalFixed then .error (.unknownOptionalFixedFrame ty)
    else .error (.unknownCriticalFrame ty)

/-- The known frames of the optional length-delimited layout have to fill their
declared length; an unknown one is skipped. -/
def decodeOptional (ty : FrameType) (body : Bytes) (len : Nat) :
    Except FrameError (Option Frame) :=
  if ty = .dhtLookup then do
    let (f, used) ← DhtLookupFrame.decode body
    refuse (used != len) .truncated
    .ok (some (dhtLookup f))
  else if ty = .revocationBatch then do
    let (f, used) ← RevocationBatchFrame.decode body
    refuse (used != len) .truncated
    .ok (some (revocationBatch f))
  else .ok none

/-- One iteration of the loop of `decode_frames`: the frame pushed, if any, and
the position of the next one. -/
def decodeNext (payload : Bytes) (pos : Nat) : Except FrameError (Option Frame × Nat) := do
  let (rawTy, pos) ← readVarint payload pos
  let ty : FrameType := ⟨rawTy⟩
  match ty.behavior with
  | .criticalFixed | .optionalFixed => do
    let (f, used) ← decodeFixed ty (payload.drop pos)
    .ok (some f, pos + used)
  | .criticalLengthDelimited =>
    if ty = .relayStatus then do
      let (f, used) ← RelayStatusFrame.decodeLengthDelimited (payload.drop pos)
      .ok (some (relayStatus f), pos + used)
    else .error (.unknownCriticalFrame ty)
  | .optionalLengthDelimited => do
    let (len, pos) ← readVarint payload pos
    match checkedAdd pos len with
    | none => .error .lengthExceedsLimit
    | some stop =>
      if stop > payload.length then .error .truncated
      else do
        let f ← decodeOptional ty ((payload.take stop).drop pos) len
        .ok (f, stop)

theorem readVarint_advances (read : readVarint payload pos = .ok (v, next)) : pos < next := by
  unfold readVarint at read
  split at read
  · cases read
  · next width decoded =>
    cases read
    have := Varint.decode_advances decoded
    omega

theorem decodeNext_advances (decoded : decodeNext payload pos = .ok (frame, next)) : pos < next := by
  obtain ⟨⟨rawTy, start⟩, read, continued⟩ := bind_ok.mp decoded
  have started := readVarint_advances read
  simp only at continued
  split at continued
  · obtain ⟨⟨f, used⟩, -, done⟩ := bind_ok.mp continued
    cases done
    omega
  · obtain ⟨⟨f, used⟩, -, done⟩ := bind_ok.mp continued
    cases done
    omega
  · split at continued
    · obtain ⟨⟨f, used⟩, -, done⟩ := bind_ok.mp continued
      cases done
      omega
    · cases continued
  · obtain ⟨⟨len, bodyStart⟩, measured, rest⟩ := bind_ok.mp continued
    have bodyStarted := readVarint_advances measured
    split at rest
    · cases rest
    · next stop summed =>
      obtain ⟨-, rfl⟩ := checkedAdd_some.mp summed
      split at rest
      · cases rest
      · obtain ⟨f, -, done⟩ := bind_ok.mp rest
        cases done
        omega

/-- The loop of `decode_frames` from a position, with the frames pushed so far. -/
def decodeFramesFrom (payload : Bytes) (pos : Nat) (out : List Frame) :
    Except FrameError (List Frame) :=
  if pos < payload.length then
    match _decoded : decodeNext payload pos with
    | .error e => .error e
    | .ok (frame, next) => decodeFramesFrom payload next (out ++ frame.toList)
  else .ok out
termination_by payload.length - pos
decreasing_by
  have := decodeNext_advances _decoded
  omega

end Frame

def decodeFrames (payload : Bytes) : Except FrameError (List Frame) :=
  Frame.decodeFramesFrom payload 0 []

end UniversalMesh.Wire
