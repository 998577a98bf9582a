import UniversalMesh.Wire.Field

/-! `umc-wire/src/frames/routing.rs` and `frames/relay.rs`: route discovery and
relay circuits. -/
namespace UniversalMesh.Wire
open MachineWord Reader

def maxHopLimit : Nat := 32
def maxDestinationHint : Nat := 512
def maxPathExclusions : Nat := 32
def maxRouteAuth : Nat := 1024
def maxExclusionEntry : Nat := 64

structure RouteRequestFrame where
  requestId : Nat
  (allowRelay allowStoreForward requirePrivateResponse localScopeOnly gatewayQuery : Bool)
  (hopLimit expirationDelta : Nat)
  destinationHint : Bytes
  pathExclusions : List Bytes
  requesterAuth : Bytes
  deriving DecidableEq, Repr

namespace RouteRequestFrame

def encode (f : RouteRequestFrame) : Except FrameError Bytes := do
  refuse (f.hopLimit == 0 || f.hopLimit > maxHopLimit) .invalidPadding
  refuse (f.pathExclusions.length > maxPathExclusions) .lengthExceedsLimit
  let out ← putVarint FrameType.routeRequest.value []
  let out ← putVarint f.requestId out
  let out ← put [flagByte [f.allowRelay, f.allowStoreForward, f.requirePrivateResponse,
    f.localScopeOnly, f.gatewayQuery]] out
  let out ← putVarint f.hopLimit out
  let out ← putVarint f.expirationDelta out
  let out ← putBytes f.destinationHint maxDestinationHint out
  let out ← putVarint f.pathExclusions.length out
  let out ← f.pathExclusions.foldlM (fun out e => putBytes e maxExclusionEntry out) out
  putBytes f.requesterAuth maxRouteAuth out

def decode (body : Bytes) : Except FrameError (RouteRequestFrame × Nat) :=
  run (do
    let requestId ← readVarint
    let flags ← readByte
    refuseIf (hasFlag flags 0xE0) .invalidPadding
    let hopLimit ← readVarint
    refuseIf (hopLimit == 0 || hopLimit > maxHopLimit) .invalidPadding
    let expiration ← readVarint
    let hint ← readBytes maxDestinationHint
    let exCount ← readVarint
    refuseIf (exCount > maxPathExclusions) .lengthExceedsLimit
    let exclusions ← (readBytes maxExclusionEntry).times exCount
    let auth ← readBytes maxRouteAuth
    return { requestId, allowRelay := hasFlag flags 0x01, allowStoreForward := hasFlag flags 0x02,
             requirePrivateResponse := hasFlag flags 0x04, localScopeOnly := hasFlag flags 0x08,
             gatewayQuery := hasFlag flags 0x10, hopLimit, expirationDelta := expiration,
             destinationHint := hint, pathExclusions := exclusions, requesterAuth := auth }) body

theorem round_trip (encoded : encode f = .ok bytes) : SelfDelimiting .routeRequest decode f bytes := by
  obtain ⟨hops, checked⟩ := refuse_bind_ok.mp encoded
  obtain ⟨few, written⟩ := refuse_bind_ok.mp checked
  obtain ⟨reserved, flags⟩ := five_flags f.allowRelay f.allowStoreForward
    f.requirePrivateResponse f.localScopeOnly f.gatewayQuery
  refine .of_carries ?_ written
  refine carries_varint.bind <| carries_byte.bind <| .allowed reserved ?_
  simp only [flags]
  exact carries_varint.bind <| .allowed hops <| carries_varint.bind <|
    carries_bytes.bind <| carries_varint.bind <| .allowed few <|
    (Carries.times fun e _ => carries_bytes).bind <| carries_bytes.last rfl

end RouteRequestFrame

structure RouteResponseFrame where
  (requestId responseSequence : Nat)
  (direct relayRequired storeForwardAvailable localPath gatewayPath : Bool)
  routeLifetime : Nat
  (nextHopHint routeMetadata authentication : Bytes)
  deriving DecidableEq, Repr

namespace RouteResponseFrame

def maxNextHopHint : Nat := 1024
def maxRouteMetadata : Nat := 4096

def encode (f : RouteResponseFrame) : Except FrameError Bytes := do
  refuse (f.direct && f.relayRequired) .invalidPadding
  let out ← putVarint FrameType.routeResponse.value []
  let out ← putVarint f.requestId out
  let out ← putVarint f.responseSequence out
  let out ← put [flagByte [f.direct, f.relayRequired, f.storeForwardAvailable, f.localPath,
    f.gatewayPath]] out
  let out ← putVarint f.routeLifetime out
  let out ← putBytes f.nextHopHint maxNextHopHint out
  let out ← putBytes f.routeMetadata maxRouteMetadata out
  putBytes f.authentication maxRouteAuth out

def decode (body : Bytes) : Except FrameError (RouteResponseFrame × Nat) :=
  run (do
    let requestId ← readVarint
    let sequence ← readVarint
    let flags ← readByte
    refuseIf (hasFlag flags 0xE0) .invalidPadding
    let lifetime ← readVarint
    let nh ← readBytes maxNextHopHint
    let metadata ← readBytes maxRouteMetadata
    let auth ← readBytes maxRouteAuth
    return { requestId, responseSequence := sequence, direct := hasFlag flags 0x01,
             relayRequired := hasFlag flags 0x02, storeForwardAvailable := hasFlag flags 0x04,
             localPath := hasFlag flags 0x08, gatewayPath := hasFlag flags 0x10,
             routeLifetime := lifetime, nextHopHint := nh, routeMetadata := metadata,
             authentication := auth }) body

theorem round_trip (encoded : encode f = .ok bytes) : SelfDelimiting .routeResponse decode f bytes := by
  obtain ⟨-, written⟩ := refuse_bind_ok.mp encoded
  obtain ⟨reserved, flags⟩ := five_flags f.direct f.relayRequired f.storeForwardAvailable
    f.localPath f.gatewayPath
  refine .of_carries ?_ written
  refine carries_varint.bind <| carries_varint.bind <| carries_byte.bind <|
    .allowed reserved ?_
  simp only [flags]
  exact carries_varint.bind <| carries_bytes.bind <| carries_bytes.bind <|
    carries_bytes.last rfl

end RouteResponseFrame

structure RouteErrorFrame where
  (requestId errorCode failedHopIndex : Nat)
  diagnostic : Bytes
  deriving DecidableEq, Repr

namespace RouteErrorFrame

def maxDiagnostic : Nat := 256

def encode (f : RouteErrorFrame) : Except FrameError Bytes := do
  let out ← putVarint FrameType.routeError.value []
  let out ← putVarint f.requestId out
  let out ← putVarint f.errorCode out
  let out ← putVarint f.failedHopIndex out
  putBytes f.diagnostic maxDiagnostic out

def decode (body : Bytes) : Except FrameError (RouteErrorFrame × Nat) :=
  run (do
    let requestId ← readVarint
    let code ← readVarint
    let hop ← readVarint
    let diag ← readBytes maxDiagnostic
    return { requestId, errorCode := code, failedHopIndex := hop, diagnostic := diag }) body

theorem round_trip (encoded : encode f = .ok bytes) : SelfDelimiting .routeError decode f bytes :=
  .of_carries (carries_varint.bind <| carries_varint.bind <| carries_varint.bind <|
    carries_bytes.last rfl) encoded

end RouteErrorFrame

def maxRelayPayload : Nat := 64 * 1024
def maxRelayDiagnostic : Nat := 256
def maxRelayAuth : Nat := 1024
def maxRequestedLifetimeMs : Nat := 24 * 60 * 60 * 1000

structure RelayOpenFrame where
  circuitId : Nat
  (bidirectional storeForwardAllowed privateCircuit multipathAllowed : Bool)
  (requestedLifetime requestedByteQuota : Nat)
  (nextHopHint authorization : Bytes)
  deriving DecidableEq, Repr

namespace RelayOpenFrame

def maxNextHopHint : Nat := 1024

/-- A requested lifetime is zero or between one second and a day. -/
def badLifetime (lifetime : Nat) : Bool :=
  lifetime != 0 && !(1000 ≤ lifetime && lifetime ≤ maxRequestedLifetimeMs)

def encode (f : RelayOpenFrame) : Except FrameError Bytes := do
  refuse (badLifetime f.requestedLifetime) .invalidPadding
  let out ← putVarint FrameType.relayOpen.value []
  let out ← putVarint f.circuitId out
  let out ← put [flagByte [f.bidirectional, f.storeForwardAllowed, f.privateCircuit,
    f.multipathAllowed]] out
  let out ← putVarint f.requestedLifetime out
  let out ← putVarint f.requestedByteQuota out
  let out ← putBytes f.nextHopHint maxNextHopHint out
  putBytes f.authorization maxRelayAuth out

def decode (body : Bytes) : Except FrameError (RelayOpenFrame × Nat) :=
  run (do
    let circuitId ← readVarint
    let flags ← readByte
    refuseIf (hasFlag flags 0xF0) .invalidPadding
    let lifetime ← readVarint
    refuseIf (badLifetime lifetime) .invalidPadding
    let quota ← readVarint
    let nh ← readBytes maxNextHopHint
    let auth ← readBytes maxRelayAuth
    return { circuitId, bidirectional := hasFlag flags 0x01,
             storeForwardAllowed := hasFlag flags 0x02, privateCircuit := hasFlag flags 0x04,
             multipathAllowed := hasFlag flags 0x08, requestedLifetime := lifetime,
             requestedByteQuota := quota, nextHopHint := nh, authorization := auth }) body

theorem round_trip (encoded : encode f = .ok bytes) : SelfDelimiting .relayOpen decode f bytes := by
  obtain ⟨lifetime, written⟩ := refuse_bind_ok.mp encoded
  obtain ⟨reserved, flags⟩ := four_flags f.bidirectional f.storeForwardAllowed f.privateCircuit
    f.multipathAllowed
  refine .of_carries ?_ written
  refine carries_varint.bind <| carries_byte.bind <| .allowed reserved ?_
  simp only [flags]
  exact carries_varint.bind <| .allowed lifetime <| carries_varint.bind <|
    carries_bytes.bind <| carries_bytes.last rfl

end RelayOpenFrame

structure RelayStatusFrame where
  (circuitId statusSequence statusCode : Nat)
  (bidirectionalGranted privateHandlingGranted multipathGranted downstreamAuthenticated : Bool)
  retryable : Bool
  (grantedLifetime grantedByteQuota maximumRelayPayload : Nat)
  (diagnostic authentication : Bytes)
  deriving DecidableEq, Repr

namespace RelayStatusFrame

def putBody (f : RelayStatusFrame) (body : Bytes) : Except FrameError Bytes := do
  let body ← putVarint f.circuitId body
  let body ← putVarint f.statusSequence body
  let body ← putVarint f.statusCode body
  let body ← put [flagByte [f.bidirectionalGranted, f.privateHandlingGranted, f.multipathGranted,
    f.downstreamAuthenticated, f.retryable]] body
  let body ← putVarint f.grantedLifetime body
  let body ← putVarint f.grantedByteQuota body
  let body ← putVarint f.maximumRelayPayload body
  let body ← putBytes f.diagnostic maxRelayDiagnostic body
  putBytes f.authentication maxRelayAuth body

def encode (f : RelayStatusFrame) : Except FrameError Bytes := do
  let body ← f.putBody []
  putDelimited .relayStatus body

def decode (body : Bytes) : Except FrameError (RelayStatusFrame × Nat) :=
  run (do
    let circuitId ← readVarint
    let seq ← readVarint
    let code ← readVarint
    let flags ← readByte
    refuseIf (hasFlag flags 0xE0) .invalidPadding
    let lifetime ← readVarint
    let quota ← readVarint
    let maxPayload ← readVarint
    let diag ← readBytes maxRelayDiagnostic
    let auth ← readBytes maxRelayAuth
    return { circuitId, statusSequence := seq, statusCode := code,
             bidirectionalGranted := hasFlag flags 0x01,
             privateHandlingGranted := hasFlag flags 0x02, multipathGranted := hasFlag flags 0x04,
             downstreamAuthenticated := hasFlag flags 0x08, retryable := hasFlag flags 0x10,
             grantedLifetime := lifetime, grantedByteQuota := quota,
             maximumRelayPayload := maxPayload, diagnostic := diag, authentication := auth }) body

/-- The body is cut at its declared length; what the inner decoder leaves of it
is dropped. -/
def decodeLengthDelimited (payload : Bytes) : Except FrameError (RelayStatusFrame × Nat) := do
  let (len, used) ← run readVarint payload
  match checkedAdd used len with
  | none => .error .lengthExceedsLimit
  | some stop =>
    if stop ≤ payload.length then do
      let (frame, _) ← decode ((payload.drop used).take len)
      .ok (frame, stop)
    else .error .truncated

theorem body_round_trip (encoded : encode f = .ok bytes) : LengthDelimited .relayStatus decode f bytes := by
  obtain ⟨reserved, flags⟩ := five_flags f.bidirectionalGranted f.privateHandlingGranted
    f.multipathGranted f.downstreamAuthenticated f.retryable
  refine .of_carries ?_ encoded
  refine carries_varint.bind <| carries_varint.bind <| carries_varint.bind <|
    carries_byte.bind <| .allowed reserved ?_
  simp only [flags]
  exact carries_varint.bind <| carries_varint.bind <| carries_varint.bind <|
    carries_bytes.bind <| carries_bytes.last rfl

theorem round_trip (encoded : encode f = .ok bytes) :
    SelfDelimiting .relayStatus decodeLengthDelimited f bytes := by
  obtain ⟨known, body, shape, bound, reads⟩ := body_round_trip encoded
  refine ⟨known, _, shape, ?_⟩
  rintro _ ⟨rest, rfl⟩
  have width := Varint.encoding_length_le body.length
  have representable : (Varint.encoding body.length).length + body.length ≤ u64Max := by
    unfold Varint.maxVarint at bound
    unfold u64Max
    omega
  rw [List.append_assoc, decodeLengthDelimited, (reads_varint bound).run (List.prefix_append _ _)]
  simp [checkedAdd_of_le representable, reads]

end RelayStatusFrame

structure RelayDataFrame where
  (circuitId relaySequence : Nat)
  (fin ackRequested highPriority : Bool)
  data : Bytes
  deriving DecidableEq, Repr

namespace RelayDataFrame

def encode (f : RelayDataFrame) : Except FrameError Bytes := do
  refuse (f.data.length > maxRelayPayload) .lengthExceedsLimit
  refuse (f.data.isEmpty && !f.fin) .invalidPadding
  let out ← putVarint FrameType.relayData.value []
  let out ← putVarint f.circuitId out
  let out ← putVarint f.relaySequence out
  let out ← put [flagByte [f.fin, f.ackRequested, f.highPriority]] out
  putBytes f.data maxRelayPayload out

def decode (body : Bytes) : Except FrameError (RelayDataFrame × Nat) :=
  run (do
    let circuitId ← readVarint
    let seq ← readVarint
    let flags ← readByte
    refuseIf (hasFlag flags 0xF8) .invalidPadding
    let data ← readBytes maxRelayPayload
    refuseIf (data.isEmpty && !hasFlag flags 0x01) .invalidPadding
    return { circuitId, relaySequence := seq, fin := hasFlag flags 0x01,
             ackRequested := hasFlag flags 0x02, highPriority := hasFlag flags 0x04, data }) body

theorem round_trip (encoded : encode f = .ok bytes) : SelfDelimiting .relayData decode f bytes := by
  obtain ⟨-, checked⟩ := refuse_bind_ok.mp encoded
  obtain ⟨meaningful, written⟩ := refuse_bind_ok.mp checked
  obtain ⟨reserved, flags⟩ := three_flags f.fin f.ackRequested f.highPriority
  refine .of_carries ?_ written
  refine carries_varint.bind <| carries_varint.bind <| carries_byte.bind <|
    .allowed reserved ?_
  simp only [flags]
  exact carries_bytes.closing <| (Reads.refuseIf meaningful).bind .pure

end RelayDataFrame

structure RelayCloseFrame where
  (circuitId reasonCode finalRelaySequence : Nat)
  deriving DecidableEq, Repr

namespace RelayCloseFrame

def encode (f : RelayCloseFrame) : Except FrameError Bytes := do
  let out ← putVarint FrameType.relayClose.value []
  let out ← putVarint f.circuitId out
  let out ← putVarint f.reasonCode out
  putVarint f.finalRelaySequence out

def decode (body : Bytes) : Except FrameError (RelayCloseFrame × Nat) :=
  run (do
    let circuitId ← readVarint
    let reason ← readVarint
    let finalSeq ← readVarint
    return { circuitId, reasonCode := reason, finalRelaySequence := finalSeq }) body

theorem round_trip (encoded : encode f = .ok bytes) : SelfDelimiting .relayClose decode f bytes :=
  .of_carries (carries_varint.bind <| carries_varint.bind <| carries_varint.last rfl)
    encoded

end RelayCloseFrame
end UniversalMesh.Wire
