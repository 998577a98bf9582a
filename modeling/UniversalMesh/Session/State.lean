import Mathlib.Data.List.Infix
import UniversalMesh.Session.Congestion
import UniversalMesh.Session.Packet
import UniversalMesh.Session.Stream

/-! `umc-session/src/path.rs` and `cid.rs`: the carrier paths of a session with
their validation, and the connection IDs it has issued. -/
namespace UniversalMesh.Session
open MachineWord Wire

inductive PathState where
  | new | validating | validated | degraded | failed | retired
  deriving DecidableEq, Repr

def maxCandidatePaths : Nat := 2
def maxOutstandingChallenges : Nat := 3
def maxChallengeRetries : Nat := 3
def challengeRetryPtoMultiplier : Nat := 3

inductive PathError where
  | tooManyChallenges | unknownChallenge | validationFailed
  deriving DecidableEq, Repr

structure PathChallenge where
  data : Octets 8
  (sentAt expiresAt : Instant)
  retries : Nat
  deriving DecidableEq

structure Path where
  pathId : Nat
  state : PathState
  carrierType : String
  (localContext remoteContext : Bytes)
  validated : Bool
  (rttMs mtu : Nat)
  lastActivity : Instant
  (receivedBytesUnvalidated sentBytesUnvalidated : Nat)
  challenges : List PathChallenge
  deriving DecidableEq

namespace Path

def new (pathId : Nat) (carrierType : String) (localContext remoteContext : Bytes)
    (now : Instant) : Path :=
  { pathId, state := .new, carrierType, localContext, remoteContext, validated := false
    rttMs := 0, mtu := 1200, lastActivity := now, receivedBytesUnvalidated := 0
    sentBytesUnvalidated := 0, challenges := [] }

variable (p : Path)

/-- `Path::send_allowance`: three times what was received, less what was sent. -/
def sendAllowance : Nat :=
  saturatingMul p.receivedBytesUnvalidated 3 - p.sentBytesUnvalidated

def recordReceived (bytes : Nat) (now : Instant) : Path :=
  { p with receivedBytesUnvalidated := p.receivedBytesUnvalidated + bytes, lastActivity := now }

def recordSent (bytes : Nat) : Path :=
  { p with sentBytesUnvalidated := p.sentBytesUnvalidated + bytes }

/-- A challenge lives for a few probe timeouts of at least a second. -/
def startValidation (challenge : Octets 8) (now : Instant) (ptoMs : Nat) : Except PathError Path :=
  if p.challenges.length ≥ maxOutstandingChallenges then .error .tooManyChallenges
  else
    let expiresAt := saturatingAdd now (challengeRetryPtoMultiplier * max ptoMs 1000)
    .ok { p with
      challenges := p.challenges ++ [{ data := challenge, sentAt := now, expiresAt, retries := 0 }]
      state := .validating }

/-- `Path::confirm`: the first challenge with the response's data is answered. -/
def confirm (response : Octets 8) : Except PathError Path :=
  match p.challenges.findIdx? (·.data = response) with
  | none => .error .unknownChallenge
  | some index =>
    .ok { p with
      challenges := p.challenges.eraseIdx index, validated := true, state := .validated
      sentBytesUnvalidated := 0, receivedBytesUnvalidated := 0 }

/-- The loop of `retry_expired_challenges`; it stops at a challenge past its retries. -/
def retryFrom (now : Instant) : List PathChallenge → Except PathError Bool × List PathChallenge
  | [] => (.ok false, [])
  | challenge :: rest =>
    if challenge.expiresAt ≤ now then
      let challenge := { challenge with retries := challenge.retries + 1 }
      if challenge.retries > maxChallengeRetries then (.error .validationFailed, challenge :: rest)
      else
        let (result, rest) := retryFrom now rest
        (result.map fun _ => true, { challenge with expiresAt := saturatingAdd now 1000 } :: rest)
    else
      let (result, rest) := retryFrom now rest
      (result, challenge :: rest)

def retryExpiredChallenges (now : Instant) : Except PathError Bool × Path :=
  let (result, challenges) := retryFrom now p.challenges
  (result, { p with challenges })

def markFailed : Path := { p with state := .failed, validated := false }

end Path

def isDirectCarrier (carrierType : String) : Bool :=
  !decide ("relay".toList <:+: carrierType.toList) && !decide ("route".toList <:+: carrierType.toList)

def defaultActiveLimit : Nat := 4
def minCidLen : Nat := 1
def maxCidLen : Nat := 20

structure ConnectionId where
  sequence : Nat
  bytes : Bytes
  resetToken : Octets 16
  retired : Bool
  deriving DecidableEq

structure ConnectionIdManager where
  activeLimit : Nat
  issued : List ConnectionId
  nextSequence : Nat
  deriving DecidableEq

namespace ConnectionIdManager

def new (activeLimit : Nat) : ConnectionIdManager :=
  { activeLimit := max activeLimit 2, issued := [], nextSequence := 0 }

variable (m : ConnectionIdManager)

def activeCount : Nat := (m.issued.filter fun c => !c.retired).length

/-- `ConnectionIdManager::issue`, with the bytes its entropy source fills in. -/
def issue (bytes : Bytes) (resetToken : Octets 16) : Option (ConnectionId × ConnectionIdManager) :=
  if bytes.length < minCidLen ∨ bytes.length > maxCidLen then none
  else if m.activeCount ≥ m.activeLimit then none
  else
    let cid : ConnectionId := { sequence := m.nextSequence, bytes, resetToken, retired := false }
    some (cid, { m with nextSequence := m.nextSequence + 1, issued := m.issued ++ [cid] })

/-- The first record that `find` finds, retired. -/
def retireFirst (sequence : Nat) : List ConnectionId → List ConnectionId
  | [] => []
  | c :: rest =>
    if c.sequence = sequence then { c with retired := true } :: rest
    else c :: retireFirst sequence rest

def retire (sequence : Nat) : Bool × ConnectionIdManager :=
  (m.issued.any (·.sequence = sequence), { m with issued := retireFirst sequence m.issued })

def retirePriorTo (limit : Nat) : Nat × ConnectionIdManager :=
  let prior c := !c.retired && decide (c.sequence < limit)
  ((m.issued.filter prior).length,
    { m with issued := m.issued.map fun c => if prior c then { c with retired := true } else c })

end ConnectionIdManager

/-! `umc-session/src/flow.rs` and `datagram.rs`: the connection's credit and the
datagram queues. -/

inductive FlowError where
  | exceedsCredit | overflow
  deriving DecidableEq, Repr

/-- The connection's credit, a 64-bit word of which no more is consumed than granted. -/
structure FlowControl where
  (maxDataLocal maxDataRemote consumed maxBidirectionalStreamsLocal : Nat)
  maxUnidirectionalStreamsLocal : Nat
  representable : maxDataLocal ≤ u64Max
  within : consumed ≤ maxDataLocal
  deriving DecidableEq

namespace FlowControl

def new (initialMaxData maxBidi maxUni : Nat) (representable : initialMaxData ≤ u64Max) :
    FlowControl :=
  { maxDataLocal := initialMaxData, maxDataRemote := initialMaxData, consumed := 0
    maxBidirectionalStreamsLocal := maxBidi, maxUnidirectionalStreamsLocal := maxUni
    representable, within := Nat.zero_le _ }

variable (f : FlowControl)

def consume (bytes : Nat) : Except FlowError FlowControl :=
  match checkedAdd f.consumed bytes with
  | none => .error .overflow
  | some newTotal =>
    if exceeded : newTotal > f.maxDataLocal then .error .exceedsCredit
    else .ok { f with consumed := newTotal, within := Nat.not_lt.mp exceeded }

def creditRemainingLocal : Nat := f.maxDataLocal - f.consumed

/-- `grant_more`, of a 64-bit word. -/
def grantMore (newMax : Nat) (representable : newMax ≤ u64Max) : FlowControl :=
  if more : newMax > f.maxDataLocal then
    { f with maxDataLocal := newMax, representable, within := f.within.trans more.le }
  else f

theorem consume_ok {f f' : FlowControl} (consumed : f.consume bytes = .ok f') :
    f'.consumed = f.consumed + bytes ∧ f'.maxDataLocal = f.maxDataLocal ∧
      f'.maxDataRemote = f.maxDataRemote := by
  unfold consume at consumed
  split at consumed
  · cases consumed
  · next total summed =>
    obtain ⟨-, rfl⟩ := checkedAdd_some.mp summed
    split at consumed
    · cases consumed
    · cases consumed
      exact ⟨rfl, rfl, rfl⟩

theorem consume_streams {f f' : FlowControl} (consumed : f.consume bytes = .ok f') :
    f'.maxBidirectionalStreamsLocal = f.maxBidirectionalStreamsLocal := by
  unfold consume at consumed
  split at consumed
  · cases consumed
  · split at consumed <;> cases consumed
    rfl

theorem consume_isOk {f : FlowControl} :
    (∃ f', f.consume bytes = .ok f') ↔ f.consumed + bytes ≤ f.maxDataLocal := by
  constructor
  · rintro ⟨f', consumed⟩
    obtain ⟨total, limit, -⟩ := consume_ok consumed
    have := f'.within
    omega
  · intro credit
    rw [consume, checkedAdd_of_le (credit.trans f.representable)]
    exact ⟨_, dif_neg (Nat.not_lt.mpr credit)⟩

end FlowControl

def maxQueuedDatagrams : Nat := 256
def maxQueuedDatagramBytes : Nat := 2 * 1024 * 1024

structure Datagram where
  contextId : Nat
  data : Bytes
  expiresAtMs : Option Nat
  ackRequested : Bool
  deriving DecidableEq

inductive DatagramError where
  | queueFull | bytesFull | oversize
  deriving DecidableEq, Repr

structure DatagramQueue where
  (outbound inbound : List Datagram)
  (outboundBytes inboundBytes : Nat)
  deriving DecidableEq

namespace DatagramQueue

def new : DatagramQueue := { outbound := [], inbound := [], outboundBytes := 0, inboundBytes := 0 }

variable (q : DatagramQueue)

def enqueueOutbound (d : Datagram) (maxSize : Nat) : Except DatagramError DatagramQueue :=
  if d.data.length > maxSize then .error .oversize
  else if q.outbound.length ≥ maxQueuedDatagrams then .error .queueFull
  else if q.outboundBytes + d.data.length > maxQueuedDatagramBytes then .error .bytesFull
  else .ok { q with
    outbound := q.outbound ++ [d], outboundBytes := q.outboundBytes + d.data.length }

/-- `pop_outbound`: the expired datagrams at the front are dropped. -/
def popOutbound (nowMs : Nat) : Option Datagram × DatagramQueue :=
  let expired d := d.expiresAtMs.any (· ≤ nowMs)
  let dropped := q.outbound.takeWhile expired
  let freed := q.outboundBytes - (dropped.map (·.data.length)).sum
  match q.outbound.dropWhile expired with
  | [] => (none, { q with outbound := [], outboundBytes := freed })
  | d :: rest => (some d, { q with outbound := rest, outboundBytes := freed - d.data.length })

def enqueueInbound (d : Datagram) : Except DatagramError DatagramQueue :=
  if q.inbound.length ≥ maxQueuedDatagrams then .error .queueFull
  else if q.inboundBytes + d.data.length > maxQueuedDatagramBytes then .error .bytesFull
  else .ok { q with inbound := q.inbound ++ [d], inboundBytes := q.inboundBytes + d.data.length }

def popInbound : Option Datagram × DatagramQueue :=
  match q.inbound with
  | [] => (none, q)
  | d :: rest => (some d, { q with inbound := rest, inboundBytes := q.inboundBytes - d.data.length })

end DatagramQueue

/-! The state of `umc-session/src/session.rs`, with the key phases of
`key_update.rs`. A call that fails still returns the session: many of them change
it before the check that fails. -/

open Crypto

def defaultDcidLen : Nat := 8
def initialStreams : Nat := 16
def maxClosedStreamIds : Nat := 1024
def maxStreamsPerSession : Nat := 1024
def minDrainMs : Nat := 1000
def statelessResetIntervalMs : Nat := 60000
def trafficPaddingTarget : Nat := 1024

inductive SessionError where
  | badConnectionId | badKeys | noSpace | space (e : SpaceError) | packet (e : PacketBuildError)
  | wirePacket (e : PacketError) | stream (e : StreamError) | flow (e : FlowError)
  | datagram (e : DatagramError) | encode | streamNotFound | streamClosed | invalidStreamId
  | protocolViolation | streamLimit | ack (e : AckError) | keyUpdate | pathBudget | pathNotFound
  | pathNotValidated | pathMigration | pathValidation | amplificationLimit | congestionLimited
  | directPathForbidden | connectionIdLimit | statelessReset
  deriving DecidableEq, Repr

inductive Role where
  | client | server
  deriving DecidableEq, Repr

inductive SessionState where
  | active | draining | closed
  deriving DecidableEq, Repr

/-- The ids of closed streams in the order they were closed; the source keeps a hash set of them beside the
queue. -/
structure ClosedStreamRegistry where
  order : List Nat
  deriving DecidableEq

namespace ClosedStreamRegistry

def contains (r : ClosedStreamRegistry) (streamId : Nat) : Bool := r.order.contains streamId

/-- `ClosedStreamRegistry::insert`: past the cap the oldest id is forgotten. -/
def insert (r : ClosedStreamRegistry) (streamId : Nat) : ClosedStreamRegistry :=
  if r.contains streamId then r
  else
    let order := r.order ++ [streamId]
    if order.length > maxClosedStreamIds then { order := order.drop 1 } else { order }

end ClosedStreamRegistry

structure KeyUpdateState where
  (localSecret remoteSecret : Octets 32)
  (localPhase remotePhase : UInt8)
  updateSequence : Nat
  awaitingConfirmation : Bool
  deriving DecidableEq

namespace KeyUpdateState

def new (localSecret remoteSecret : Octets 32) : KeyUpdateState :=
  { localSecret, remoteSecret, localPhase := 0, remotePhase := 0, updateSequence := 0
    awaitingConfirmation := false }

/-- `KeyUpdateState::initiate`: refused while an update awaits its confirmation. -/
def initiate (crypto : Primitives) (k : KeyUpdateState) : Option (Nat × KeyUpdateState) :=
  if k.awaitingConfirmation then none
  else
    let k := { k with
      localSecret := nextTrafficSecret crypto k.localSecret
      localPhase := k.localPhase ^^^ 1
      updateSequence := k.updateSequence + 1
      awaitingConfirmation := true }
    some (k.updateSequence, k)

def confirmRemotePhase (k : KeyUpdateState) (newRemoteSecret : Octets 32) : KeyUpdateState :=
  { k with remoteSecret := newRemoteSecret, remotePhase := k.remotePhase ^^^ 1 }

def markConfirmed (k : KeyUpdateState) : KeyUpdateState := { k with awaitingConfirmation := false }

end KeyUpdateState

/-- `SessionConfig`; `initial_max_data` is a 64-bit word. -/
structure SessionConfig where
  role : Role
  dcid : Bytes
  (localTrafficSecret remoteTrafficSecret : Octets 32)
  (initialMaxData initialMaxStreamData maxAckDelayMs : Nat)
  representable : initialMaxData ≤ u64Max

/-- A configuration for runs on fixed inputs. -/
def SessionConfig.plain (role : Role) (initialMaxData initialMaxStreamData : Nat)
    (representable : initialMaxData ≤ u64Max) : SessionConfig :=
  { role, dcid := [1, 2, 3, 4, 5, 6, 7, 8]
    localTrafficSecret := Octets.fill 32 0
    remoteTrafficSecret := Octets.fill 32 0
    initialMaxData, initialMaxStreamData, maxAckDelayMs := 25, representable }

end UniversalMesh.Session

namespace UniversalMesh
open Session Wire Crypto

/-- `Session`: the state of one end of a connection. -/
structure Session where
  role : Role
  state : SessionState
  (localKeys remoteKeys : PacketKeys)
  (localHpKey remoteHpKey : Octets 32)
  spaces : OrderedMap PacketSpace PacketSpaceState
  sent : AckSendState
  congestion : Reno
  retransmitPayloads : OrderedMap Nat Bytes
  recvAcks : OrderedMap PacketSpace AckReceiveState
  rtt : RttEstimator
  loss : LossDetector
  streams : OrderedMap Nat Stream
  (nextOutgoingStream nextOutgoingUnidirectional : Nat)
  closedStreams : ClosedStreamRegistry
  flow : FlowControl
  (streamConsumed streamAppConsumed : OrderedMap Nat Nat)
  resetFinalSizes : List Nat
  (peerInitiatedStreams defaultMaxStreamData maxStreamsSent : Nat)
  datagrams : DatagramQueue
  dcid : Bytes
  keyUpdate : KeyUpdateState
  paths : OrderedMap Nat Path
  lastMigrationSequence : Nat
  lastPathMigration : Option (Nat × Nat × Bool)
  lastPathValidation : Option Nat
  (primaryPathId nextMigrationSequence : Nat)
  cids : ConnectionIdManager
  directPathAllowed : Bool
  (lastActivity drainingDeadline : Option Instant)
  statelessResetSecret : Option (Octets 32)
  lastResetMs : Option Nat
  trafficPadding : Bool

namespace Session

/-- What a call returns, and the session it leaves. -/
abbrev Reply (α : Type) := Except SessionError α × Session

/-- The three spaces of a session. -/
def newSpaces : OrderedMap PacketSpace PacketSpaceState :=
  ((OrderedMap.empty.insert .sessionData (.new .sessionData)).insert .pathControl
    (.new .pathControl)).insert .relayData (.new .relayData)

def new (crypto : Primitives) (config : SessionConfig) : Except SessionError Session :=
  if config.dcid.length ≠ defaultDcidLen then .error .badConnectionId
  else
    match PacketKeys.fromTrafficSecret crypto config.localTrafficSecret,
      PacketKeys.fromTrafficSecret crypto config.remoteTrafficSecret with
    | .ok localKeys, .ok remoteKeys =>
      .ok {
        role := config.role
        state := .active
        localKeys
        remoteKeys
        localHpKey := headerProtectionKey crypto config.localTrafficSecret
        remoteHpKey := headerProtectionKey crypto config.remoteTrafficSecret
        spaces := newSpaces
        sent := .new
        congestion := .new
        retransmitPayloads := .empty
        recvAcks := .empty
        rtt := .new
        loss := { maxAckDelayMs := config.maxAckDelayMs }
        streams := .empty
        nextOutgoingStream := 0
        nextOutgoingUnidirectional := 0
        closedStreams := { order := [] }
        flow := .new config.initialMaxData initialStreams initialStreams config.representable
        streamConsumed := .empty
        streamAppConsumed := .empty
        resetFinalSizes := []
        peerInitiatedStreams := 0
        defaultMaxStreamData := config.initialMaxStreamData
        maxStreamsSent := initialStreams
        datagrams := .new
        dcid := config.dcid
        keyUpdate := .new config.localTrafficSecret config.remoteTrafficSecret
        paths := .empty
        lastMigrationSequence := 0
        lastPathMigration := none
        lastPathValidation := none
        primaryPathId := defaultPathId
        nextMigrationSequence := 0
        cids := .new defaultActiveLimit
        directPathAllowed := true
        lastActivity := none
        drainingDeadline := none
        statelessResetSecret := none
        lastResetMs := none
        trafficPadding := false }
    | _, _ => .error .badKeys

def started (crypto : Primitives) (config : SessionConfig)
    (valid : (Session.new crypto config).toOption.isSome = true) : Session :=
  (Session.new crypto config).toOption.get valid

theorem new_started (valid : (Session.new crypto config).toOption.isSome = true) :
    Session.new crypto config = .ok (started crypto config valid) := by
  unfold started
  generalize Session.new crypto config = result at valid ⊢
  cases result with
  | error e => cases valid
  | ok s => rfl

/-- An active session without streams or packets, with the configured credit in both directions and the
configured secrets. -/
structure Fresh (config : SessionConfig) (s : Session) : Prop where
  active : s.state = .active
  sent : s.sent = .new
  retained : s.retransmitPayloads = .empty
  acks : s.recvAcks = .empty
  streams : s.streams = .empty
  flow : s.flow = .new config.initialMaxData initialStreams initialStreams config.representable
  keys : s.keyUpdate = .new config.localTrafficSecret config.remoteTrafficSecret

theorem new_fresh (started : Session.new crypto config = .ok s) : Fresh config s := by
  unfold Session.new at started
  split at started
  · cases started
  split at started
  · cases started
    exact ⟨rfl, rfl, rfl, rfl, rfl, rfl, rfl⟩
  · cases started

theorem new_initial (started : Session.new crypto config = .ok s) :
    s.spaces = newSpaces ∧ (s.paths = .empty ∧ s.primaryPathId = 0) ∧
      s.nextOutgoingStream = 0 ∧ s.nextOutgoingUnidirectional = 0 := by
  unfold Session.new at started
  split at started
  · cases started
  split at started
  · cases started
    exact ⟨rfl, ⟨rfl, rfl⟩, rfl, rfl⟩
  · cases started

end Session
end UniversalMesh

/-! The calls of `session.rs` that an application makes on its streams and
datagrams, and the credit frames of `flow_control_frames`. -/
namespace UniversalMesh.Session
open MachineWord Wire

section

/-- The type, followed by an encoding without its own type of `strip` bytes. -/
def withType (ty : FrameType) (strip : Nat) (encoded : Except FrameError Bytes) :
    Except SessionError Bytes :=
  match putVarint ty.value [], encoded with
  | .ok payload, .ok enc => .ok (payload ++ enc.drop strip)
  | _, _ => .error .encode

variable (s : Session) (streamId : Nat)

/-- The session with a stream put into its map. -/
def setStream (stream : Stream) : Session :=
  { s with streams := s.streams.insert streamId stream }

/-- The low bit of the stream ids a role allocates. -/
def initiatorBit : Role → Nat
  | .client => 0
  | .server => 1

/-- The sequence number of the next stream of a kind that the session opens. -/
def setNextOutgoing (unidirectional : Bool) (next : Nat) : Session :=
  if unidirectional then { s with nextOutgoingUnidirectional := next }
  else { s with nextOutgoingStream := next }

/-- The low bits of the id tell the initiator and the kind. -/
def openStreamKind (unidirectional : Bool) : Reply Nat :=
  if s.streams.size ≥ maxStreamsPerSession then (.error .streamLimit, s)
  else
    let sequence := if unidirectional then s.nextOutgoingUnidirectional else s.nextOutgoingStream
    match checkedAdd sequence 1 with
    | none => (.error .streamLimit, s)
    | some next =>
      let s := s.setNextOutgoing unidirectional next
      let low := initiatorBit s.role ||| if unidirectional then 2 else 0
      match (checkedMul sequence 4).bind (checkedAdd · low) with
      | none => (.error .streamLimit, s)
      | some id =>
        let stream := { Stream.new id [] s.defaultMaxStreamData with unidirectional }
        (.ok id, s.setStream id stream)

def openStreamWithProtocol (protocolId : Bytes) (unidirectional : Bool) : Reply Nat :=
  if protocolId.length > maxProtocolIdLen then (.error .encode, s)
  else
    match s.openStreamKind unidirectional with
    | (.error e, s) => (.error e, s)
    | (.ok id, s) =>
      match s.streams.get? id with
      | none => (.ok id, s)
      | some stream =>
        (.ok id, s.setStream id { stream with protocolId, unidirectional })

/-- The STREAM frame `send_stream_data` builds for the chunk the stream allows. -/
def streamFrame (stream : Stream) (offset : Nat) (chunk : Bytes) (fin : Bool) : StreamFrame :=
  { streamId, fin, offsetPresent := offset ≠ 0, lenPresent := true, isOpen := offset = 0
    unidirectional := stream.unidirectional, offset, data := chunk
    protocolId := stream.protocolId, metadata := [] }

/-- `send_stream_data`. A FIN goes out only with the last of the caller's data. -/
def sendStreamData (data : Bytes) (fin : Bool) : Reply Bytes :=
  match s.streams.get? streamId with
  | none => (.error .streamNotFound, s)
  | some stream =>
    match stream.sendReady data with
    | .error e => (.error (.stream e), s)
    | .ok ((offset, chunk), stream) =>
      let fin := fin && chunk.length == data.length
      (withType .stream 1 (streamFrame streamId stream offset chunk fin).encode,
        s.setStream streamId stream)

/-- The `FIN` frame; it also opens a stream that has sent nothing. -/
def closeStreamSendPayload : Reply Bytes :=
  match s.streams.get? streamId with
  | none => (.error .streamNotFound, s)
  | some stream =>
    if stream.sendState = .dataAcked ∨ stream.sendState = .resetAcked ∨
        stream.sendState = .resetSent then
      (.error (.stream .alreadyClosed), s)
    else
      let offset := stream.nextSendOffset
      let frame : StreamFrame :=
        { streamId, fin := true, offsetPresent := offset ≠ 0, lenPresent := true
          isOpen := offset = 0, unidirectional := stream.unidirectional, offset, data := []
          protocolId := if offset = 0 then stream.protocolId else [], metadata := [] }
      (frame.encode.mapError fun _ => .encode,
        s.setStream streamId { stream with sendState := .dataSent })

def resetStreamPayload (streamId applicationErrorCode : Nat) : Reply Bytes :=
  match s.streams.get? streamId with
  | none => (.error .streamNotFound, s)
  | some stream =>
    let frame : ResetStreamFrame :=
      { streamId, appErrorCode := applicationErrorCode, finalSize := stream.nextSendOffset }
    (frame.encode.mapError fun _ => .encode,
      s.setStream streamId { stream with sendState := .resetSent })

def sendDatagram (d : Datagram) (maxSize : Nat) : Reply Unit :=
  match s.datagrams.enqueueOutbound d maxSize with
  | .error e => (.error (.datagram e), s)
  | .ok datagrams => (.ok (), { s with datagrams })

def popOutboundDatagramPayload (nowMs : Nat) : Option Bytes × Session :=
  match s.datagrams.popOutbound nowMs with
  | (none, datagrams) => (none, { s with datagrams })
  | (some d, datagrams) =>
    let frame : DatagramFrame :=
      { contextId := d.contextId, ackRequested := d.ackRequested, duplicateSuppression := false
        expirationDelta := d.expiresAtMs.map (· - nowMs), data := d.data }
    (frame.encode.toOption, { s with datagrams })

def recvDatagram : Option Datagram × Session :=
  let (d, datagrams) := s.datagrams.popInbound
  (d, { s with datagrams })

/-- The accounts of `read_stream` for bytes the application was given. -/
def accountRead (streamId bytes : Nat) : Session :=
  if bytes = 0 then s
  else
    let streamConsumed :=
      match s.streamConsumed.get? streamId with
      | none => s.streamConsumed
      | some consumed => s.streamConsumed.insert streamId (consumed - bytes)
    let appConsumed := (s.streamAppConsumed.get? streamId).getD 0
    { s with streamConsumed
             streamAppConsumed := s.streamAppConsumed.insert streamId (saturatingAdd appConsumed bytes) }

/-- What `read_stream` forgets about a stream that was read to its end. -/
def closeReadStream : Session :=
  { s with
    closedStreams := s.closedStreams.insert streamId
    streamConsumed := s.streamConsumed.erase streamId
    streamAppConsumed := s.streamAppConsumed.erase streamId
    resetFinalSizes := s.resetFinalSizes.erase streamId }

/-- A reset is read once; reading the end closes the stream. -/
def readStream : Reply (Bytes × Bool) :=
  match s.streams.get? streamId with
  | none => (.error .streamNotFound, s)
  | some stream =>
    if stream.recvState = .resetRecvd then
      (.error (.stream .resetByPeer), s.setStream streamId { stream with recvState := .resetRead })
    else if stream.recvState = .resetRead then (.error (.stream .alreadyClosed), s)
    else
      let ((data, eof), stream) := stream.readAvailable
      let s := (s.setStream streamId stream).accountRead streamId data.length
      (.ok (data, eof), if eof then s.closeReadStream streamId else s)

/-- The connection's part of `flow_control_frames`: MAX_DATA when more than half of
the credit is consumed. -/
def connectionCredit : Option Bytes × Session :=
  if s.flow.creditRemainingLocal < s.flow.maxDataLocal / 2 then
    let newMax := saturatingMul s.flow.maxDataLocal 2
    if newMax > s.flow.maxDataLocal then
      let frame : MaxDataFrame := { maximumData := newMax }
      (frame.encode.toOption, { s with flow := s.flow.grantMore newMax (Nat.min_le_right ..) })
    else (none, s)
  else (none, s)

/-- One stream's part: MAX_STREAM_DATA when more than half of its limit is unread, or
read by the application. -/
def streamCredit : Option Bytes × Session :=
  match s.streams.get? streamId with
  | none => (none, s)
  | some stream =>
    let unread := (s.streamConsumed.get? streamId).getD 0
    let appConsumed := (s.streamAppConsumed.get? streamId).getD 0
    let limit := stream.maxStreamDataLocal
    if limit - unread < limit / 2 ∨ limit - appConsumed < limit / 2 then
      let newMax := saturatingMul limit 2
      if newMax > limit then
        let frame : MaxStreamDataFrame := { streamId, maximumStreamData := newMax }
        (frame.encode.toOption,
          s.setStream streamId { stream with maxStreamDataLocal := newMax })
      else (none, s)
    else (none, s)

/-- The stream count's part: MAX_STREAMS when the peer has opened more than half of
what was offered. -/
def streamCountCredit : Option Bytes × Session :=
  let newCount := saturatingMul s.peerInitiatedStreams 2
  if s.peerInitiatedStreams > initialStreams ∧ newCount > s.maxStreamsSent then
    let frame : MaxStreamsFrame := { bidirectional := true, maximumStreams := newCount }
    (frame.encode.toOption,
      { s with maxStreamsSent := newCount
               flow := { s.flow with maxBidirectionalStreamsLocal := newCount } })
  else (none, s)

/-- The streams' parts, one after the other. -/
def streamCredits (s : Session) : List Nat → List Bytes × Session
  | [] => ([], s)
  | streamId :: streamIds =>
    let (frame, s) := s.streamCredit streamId
    let (frames, s) := s.streamCredits streamIds
    (frame.toList ++ frames, s)

/-- `flow_control_frames`. The source walks the streams in the order of a hash set;
here it is the order of their ids. -/
def flowControlFrames : List Bytes × Session :=
  let (maxData, s) := s.connectionCredit
  let streamIds := (s.streamConsumed.entries.map Prod.fst ++
    s.streamAppConsumed.entries.map Prod.fst).dedup
  let (maxStreamData, s) := s.streamCredits streamIds
  let (maxStreams, s) := s.streamCountCredit
  (maxData.toList ++ maxStreamData ++ maxStreams.toList, s)

/-- The three credits are given one after the other. -/
theorem flowControlFrames_session : ∃ streamIds, s.flowControlFrames.2 =
    (s.connectionCredit.2.streamCredits streamIds).2.streamCountCredit.2 :=
  ⟨_, rfl⟩

end

/-! The calls of `session.rs` that concern closing, keys, paths and connection IDs. -/

open Crypto

variable (s : Session) (now : Instant)

def touch : Session := { s with lastActivity := some now }

/-- `Session::close`: an active session starts to drain. -/
def close : Session :=
  if s.state ≠ .active then s
  else
    let drainMs := max (3 * s.loss.pto s.rtt) minDrainMs
    { s with state := .draining, drainingDeadline := some (saturatingAdd now drainMs) }

def finalizeClose : Session := { s with state := .closed }

/-- `maybe_emit_stateless_reset`, with the tail its entropy source fills in. -/
def maybeEmitStatelessReset (tail : Octets 16) (triggerLen : Nat) : Option Bytes × Session :=
  match s.statelessResetSecret with
  | none => (none, s)
  | some secret =>
    if s.lastResetMs.any fun last => now - last < statelessResetIntervalMs then (none, s)
    else
      let reset := buildStatelessReset (resetToken secret) tail
      let maxLen := min (max triggerLen minResetLen) reset.length
      (some (reset.take maxLen), { s with lastResetMs := some now })

/-- The KEY_UPDATE payload of a sequence number. -/
def keyUpdatePayload (sequence : Nat) : Except SessionError Bytes :=
  let frame : KeyUpdateFrame := { updateSequence := sequence, requestPeerUpdate := false }
  match putVarint FrameType.keyUpdate.value [] with
  | .error _ => .error .encode
  | .ok ty => withType .keyUpdate ty.length frame.encode

def initiateKeyUpdate (crypto : Primitives) (s : Session) : Reply Bytes :=
  match s.keyUpdate.initiate crypto with
  | none => (.error .keyUpdate, s)
  | some (sequence, keyUpdate) => (keyUpdatePayload sequence, { s with keyUpdate })

/-- The next sequence number moves the remote phase, the current one only confirms. -/
def onKeyUpdate (crypto : Primitives) (s : Session) (sequence : Nat) : Reply Unit :=
  let k := s.keyUpdate
  if sequence ≠ k.updateSequence + 1 ∧ sequence ≠ k.updateSequence then (.error .keyUpdate, s)
  else
    let k :=
      if sequence > k.updateSequence then
        { k.confirmRemotePhase (nextTrafficSecret crypto k.remoteSecret) with
          updateSequence := sequence }
      else k
    (.ok (), { s with keyUpdate := k.markConfirmed })

/-- The paths that count against the candidate budget. -/
def candidatePaths : Nat :=
  (s.paths.entries.filter fun entry =>
    [.validated, .degraded, .validating].contains entry.2.state).length

/-- `add_path_with_challenge_bytes`. -/
def addPath (pathId : Nat) (carrierType : String) (localContext remoteContext : Bytes)
    (now : Instant) (challenge : Octets 8) : Reply (Octets 8) :=
  if (s.paths.get? pathId).isSome then (.error .pathBudget, s)
  else if !s.directPathAllowed && isDirectCarrier carrierType then (.error .directPathForbidden, s)
  else if s.candidatePaths > maxCandidatePaths then (.error .pathBudget, s)
  else
    let path := Path.new pathId carrierType localContext remoteContext now
    match path.startValidation challenge now (s.loss.pto s.rtt) with
    | .error _ => (.error .pathBudget, s)
    | .ok path => (.ok challenge, { s with paths := s.paths.insert pathId path })

/-- `on_path_challenge`: the PATH_RESPONSE payload; the session is not changed. -/
def onPathChallenge (challenge : Octets challengeLen) : Bytes :=
  let ty := (putVarint FrameType.pathResponse.value []).toOption.getD []
  let frame : PathResponseFrame := { data := challenge }
  match frame.encode with
  | .error _ => ty
  | .ok enc => if ty.length ≤ enc.length then ty ++ enc.drop ty.length else ty

def onPathResponse (pathId : Nat) (response : Octets challengeLen) : Reply Unit :=
  match s.paths.get? pathId with
  | none => (.error .pathNotFound, s)
  | some path =>
    match path.confirm response with
    | .error _ => (.error .pathValidation, s)
    | .ok path =>
      (.ok (), { s with paths := s.paths.insert pathId path, lastPathValidation := some pathId })

/-- Every path but one is marked as failed. -/
def failOtherPaths (paths : OrderedMap Nat Path) (kept : Nat) : OrderedMap Nat Path :=
  { entries := paths.entries.map fun entry =>
      (entry.1, if entry.1 = kept then entry.2 else entry.2.markFailed)
    sorted := List.pairwise_map.mpr paths.sorted }

/-- The new path must be validated and allowed; the others fail unless they are kept. -/
def migrateTo (newPathId : Nat) (keepOld : Bool) : Reply Unit :=
  match s.paths.get? newPathId with
  | none => (.error .pathNotFound, s)
  | some path =>
    if !s.directPathAllowed && isDirectCarrier path.carrierType then (.error .directPathForbidden, s)
    else if path.state ≠ .validated then (.error .pathNotValidated, s)
    else
      (.ok (), { s with
        paths := if keepOld then s.paths else failOtherPaths s.paths newPathId
        primaryPathId := newPathId
        lastPathMigration := some (s.primaryPathId, newPathId, keepOld) })

def buildMigratePayload (newPathId : Nat) (keepOldPath duplicateCriticalFrames : Bool) : Reply Bytes :=
  match s.paths.get? newPathId with
  | none => (.error .pathNotFound, s)
  | some path =>
    if path.state ≠ .validated then (.error .pathNotValidated, s)
    else
      let sequence := saturatingAdd s.nextMigrationSequence 1
      let frame : MigrateFrame :=
        { oldPathId := s.primaryPathId, newPathId, migrationSequence := sequence
          makePrimary := true, keepOldPath, duplicateCriticalFrames }
      (frame.encode.mapError fun _ => .encode, { s with nextMigrationSequence := sequence })

def takePathMigration : Option (Nat × Nat × Bool) × Session :=
  (s.lastPathMigration, { s with lastPathMigration := none })

def takePathValidation : Option Nat × Session :=
  (s.lastPathValidation, { s with lastPathValidation := none })

/-- `mark_path_degraded`: whether the path has become degraded. -/
def markPathDegraded (pathId : Nat) : Bool × Session :=
  match s.paths.get? pathId with
  | none => (false, s)
  | some path =>
    if path.state = .degraded then (false, s)
    else (true, { s with paths := s.paths.insert pathId { path with state := .degraded, rttMs := 0 } })

/-- `issue_connection_id`, with the bytes its entropy source fills in. -/
def issueConnectionId (bytes : Octets 8) (token : Octets 16) : Reply Bytes :=
  match s.cids.issue bytes.1 token with
  | none => (.error .connectionIdLimit, s)
  | some (cid, cids) =>
    let retirePriorTo := cid.sequence - 1
    let cids := if retirePriorTo > 0 then (cids.retirePriorTo retirePriorTo).2 else cids
    let frame : NewConnectionIdFrame :=
      { sequence := cid.sequence, retirePriorTo, connectionId := cid.bytes, resetToken := token }
    (frame.encode.mapError fun _ => .encode, { s with cids })

end UniversalMesh.Session
