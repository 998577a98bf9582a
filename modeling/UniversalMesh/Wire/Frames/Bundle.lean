import UniversalMesh.Wire.Field

/-! `umc-wire/src/frames/bundle.rs` and `frames/misc.rs`: store-and-forward
bundles, hints, DHT lookups and revocation batches. -/
namespace UniversalMesh.Wire
open Reader

def maxBundleId : Nat := 64
def maxBundleDestinationHint : Nat := 512
def maxBundleAuth : Nat := 1024
def maxBundlePayload : Nat := 65535 - 128

structure BundleFrame where
  bundleId : Bytes
  (custodyRequested deliveryAckRequested doNotReplicate localScopeOnly highSensitivity : Bool)
  (priority creationTime expirationTime replicationLimit : Nat)
  (destinationHint payload bundleAuth : Bytes)
  chunkIndex : Nat
  chunkFinal : Bool
  deriving DecidableEq, Repr

namespace BundleFrame

def flagChunked : UInt8 := 0x20
def flagChunkFinal : UInt8 := 0x40

/-- A bundle in one piece is its own first and final chunk. -/
def chunked (f : BundleFrame) : Bool := f.chunkIndex != 0 || !f.chunkFinal

def encode (f : BundleFrame) : Except FrameError Bytes := do
  refuse (f.payload.length > maxBundlePayload) .lengthExceedsLimit
  let out ← putVarint FrameType.bundle.value []
  let out ← putBytes f.bundleId maxBundleId out
  let out ← put [flagByte [f.custodyRequested, f.deliveryAckRequested, f.doNotReplicate,
    f.localScopeOnly, f.highSensitivity, f.chunked, f.chunked && f.chunkFinal]] out
  let out ← putIf f.chunked (putVarint f.chunkIndex) out
  let out ← putVarint f.priority out
  let out ← putVarint f.creationTime out
  let out ← putVarint f.expirationTime out
  let out ← putVarint f.replicationLimit out
  let out ← putBytes f.destinationHint maxBundleDestinationHint out
  let out ← putBytes f.payload maxBundlePayload out
  putBytes f.bundleAuth maxBundleAuth out

def decode (body : Bytes) : Except FrameError (BundleFrame × Nat) :=
  run (do
    let id ← readBytes maxBundleId
    let flags ← readByte
    refuseIf (hasFlag flags 0x80 || (hasFlag flags flagChunkFinal && !hasFlag flags flagChunked))
      .invalidPadding
    let chunkIndex ← readVarint.readIf (hasFlag flags flagChunked) 0
    let priority ← readVarint
    let created ← readVarint
    let expires ← readVarint
    let replication ← readVarint
    let dh ← readBytes maxBundleDestinationHint
    let payload ← readBytes maxBundlePayload
    let auth ← readBytes maxBundleAuth
    return { bundleId := id, custodyRequested := hasFlag flags 0x01,
             deliveryAckRequested := hasFlag flags 0x02, doNotReplicate := hasFlag flags 0x04,
             localScopeOnly := hasFlag flags 0x08, highSensitivity := hasFlag flags 0x10,
             priority, creationTime := created, expirationTime := expires,
             replicationLimit := replication, destinationHint := dh, payload,
             bundleAuth := auth, chunkIndex,
             chunkFinal := !hasFlag flags flagChunked || hasFlag flags flagChunkFinal }) body

theorem round_trip (encoded : encode f = .ok bytes) : SelfDelimiting .bundle decode f bytes := by
  obtain ⟨-, written⟩ := refuse_bind_ok.mp encoded
  obtain ⟨reserved, custody, ack, replicate, scope, sensitive, chunk, final⟩ :=
    seven_flags f.custodyRequested f.deliveryAckRequested f.doNotReplicate f.localScopeOnly
      f.highSensitivity f.chunked (f.chunked && f.chunkFinal)
  refine .of_carries ?_ written
  refine carries_bytes.bind <| carries_byte.bind ?_
  simp only [flagChunked, flagChunkFinal, reserved, custody, ack, replicate, scope, sensitive, chunk, final]
  refine .allowed ?_ <| Carries.bind (.optional rfl (fun _ => carries_varint) ?_) <|
    carries_varint.bind <| carries_varint.bind <| carries_varint.bind <|
    carries_varint.bind <| carries_bytes.bind <| carries_bytes.bind <|
    carries_bytes.last ?_
  · cases f.chunked <;> simp
  · intro whole
    simp_all [chunked]
  · have final : (!f.chunked || f.chunked && f.chunkFinal) = f.chunkFinal := by
      unfold chunked
      cases f.chunkFinal <;> cases f.chunkIndex != 0 <;> rfl
    simp only [final]

end BundleFrame

structure BundleAckFrame where
  bundleId : Bytes
  (status storedUntil : Nat)
  authentication : Bytes
  deriving DecidableEq, Repr

namespace BundleAckFrame

def encode (f : BundleAckFrame) : Except FrameError Bytes := do
  let out ← putVarint FrameType.bundleAck.value []
  let out ← putBytes f.bundleId maxBundleId out
  let out ← putVarint f.status out
  let out ← putVarint f.storedUntil out
  putBytes f.authentication maxBundleAuth out

def decode (body : Bytes) : Except FrameError (BundleAckFrame × Nat) :=
  run (do
    let bundleId ← readBytes maxBundleId
    let status ← readVarint
    let storedUntil ← readVarint
    let authentication ← readBytes maxBundleAuth
    return { bundleId, status, storedUntil, authentication }) body

theorem round_trip (encoded : encode f = .ok bytes) : SelfDelimiting .bundleAck decode f bytes :=
  .of_carries (carries_bytes.bind <| carries_varint.bind <| carries_varint.bind <|
    carries_bytes.last rfl) encoded

end BundleAckFrame

def maxHints : Nat := 32
def maxPeerId : Nat := 64
def maxCarrierType : Nat := 64
def maxConnectionHint : Nat := 1024
def maxAuthenticator : Nat := 1024
def maxProtocolId : Nat := 255
def maxEndpointHint : Nat := 512
def maxServiceMetadata : Nat := 4096
def maxSignature : Nat := 1024
def maxDhtRecords : Nat := 16
def maxDhtCarrier : Nat := 64
def maxDhtHint : Nat := 1024
def maxRevocationBatch : Nat := 16 * 1024

structure PeerHintEntry where
  (temporaryPeerId carrierType connectionHint : Bytes)
  expirationTime : Nat
  (isPublic introduced isLocal ephemeral doNotReshare : Bool)
  authenticator : Bytes
  deriving DecidableEq, Repr

structure PeerHintFrame where
  entries : List PeerHintEntry
  deriving DecidableEq, Repr

namespace PeerHintFrame

def putEntry (e : PeerHintEntry) (out : Bytes) : Except FrameError Bytes := do
  let out ← putBytes e.temporaryPeerId maxPeerId out
  let out ← putBytes e.carrierType maxCarrierType out
  let out ← putBytes e.connectionHint maxConnectionHint out
  let out ← putVarint e.expirationTime out
  let out ← put [flagByte [e.isPublic, e.introduced, e.isLocal, e.ephemeral, e.doNotReshare]] out
  putBytes e.authenticator maxAuthenticator out

def readEntry : FieldReader PeerHintEntry := do
  let temporaryPeerId ← readBytes maxPeerId
  let carrierType ← readBytes maxCarrierType
  let connectionHint ← readBytes maxConnectionHint
  let expiration ← readVarint
  let flags ← readByte
  refuseIf (hasFlag flags 0xE0) .invalidPadding
  let auth ← readBytes maxAuthenticator
  return { temporaryPeerId, carrierType, connectionHint, expirationTime := expiration,
           isPublic := hasFlag flags 0x01, introduced := hasFlag flags 0x02,
           isLocal := hasFlag flags 0x04, ephemeral := hasFlag flags 0x08,
           doNotReshare := hasFlag flags 0x10, authenticator := auth }

def encode (f : PeerHintFrame) : Except FrameError Bytes := do
  refuse (f.entries.length > maxHints) .lengthExceedsLimit
  let out ← putVarint FrameType.peerHint.value []
  let out ← putVarint f.entries.length out
  f.entries.foldlM (fun out e => putEntry e out) out

def decode (body : Bytes) : Except FrameError (PeerHintFrame × Nat) :=
  run (do
    let count ← readVarint
    refuseIf (count > maxHints) .lengthExceedsLimit
    let entries ← readEntry.times count
    return { entries }) body

theorem carries_entry (e : PeerHintEntry) : Carries (putEntry e) readEntry e := by
  obtain ⟨reserved, flags⟩ := five_flags e.isPublic e.introduced e.isLocal e.ephemeral
    e.doNotReshare
  refine carries_bytes.bind <| carries_bytes.bind <| carries_bytes.bind <|
    carries_varint.bind <| carries_byte.bind <| .allowed reserved ?_
  simp only [flags]
  exact carries_bytes.last rfl

theorem round_trip (encoded : encode f = .ok bytes) : SelfDelimiting .peerHint decode f bytes := by
  obtain ⟨few, written⟩ := refuse_bind_ok.mp encoded
  refine .of_carries ?_ written
  exact carries_varint.bind <| .allowed few <|
    (Carries.times fun e _ => carries_entry e).last rfl

end PeerHintFrame

structure ServiceHintFrame where
  (protocolId endpointHint metadata : Bytes)
  expirationTime : Nat
  signature : Bytes
  deriving DecidableEq, Repr

namespace ServiceHintFrame

def encode (f : ServiceHintFrame) : Except FrameError Bytes := do
  let out ← putVarint FrameType.serviceHint.value []
  let out ← putBytes f.protocolId maxProtocolId out
  let out ← putBytes f.endpointHint maxEndpointHint out
  let out ← putBytes f.metadata maxServiceMetadata out
  let out ← putVarint f.expirationTime out
  putBytes f.signature maxSignature out

def decode (body : Bytes) : Except FrameError (ServiceHintFrame × Nat) :=
  run (do
    let protocolId ← readBytes maxProtocolId
    let endpointHint ← readBytes maxEndpointHint
    let metadata ← readBytes maxServiceMetadata
    let expirationTime ← readVarint
    let signature ← readBytes maxSignature
    return { protocolId, endpointHint, metadata, expirationTime, signature }) body

theorem round_trip (encoded : encode f = .ok bytes) : SelfDelimiting .serviceHint decode f bytes :=
  .of_carries (carries_bytes.bind <| carries_bytes.bind <| carries_bytes.bind <|
    carries_varint.bind <| carries_bytes.last rfl) encoded

end ServiceHintFrame

structure DhtRecordWire where
  (endpointId identityPublicKey carrierType connectionHint : Bytes)
  (expirationTime sequence : Nat)
  signature : Bytes
  deriving DecidableEq, Repr

/-- The sizes the decoder demands and the encoder does not check. -/
def DhtRecordWire.WellSized (record : DhtRecordWire) : Prop :=
  record.endpointId.length = 32 ∧ record.identityPublicKey.length = 32 ∧
    record.signature.length = 64

structure DhtLookupFrame where
  requestId : Nat
  response : Bool
  targetEndpointId : Bytes
  records : List DhtRecordWire
  deriving DecidableEq, Repr

namespace DhtLookupFrame

def putRecord (record : DhtRecordWire) (body : Bytes) : Except FrameError Bytes := do
  let body ← putBytes record.endpointId 32 body
  let body ← putBytes record.identityPublicKey 32 body
  let body ← putBytes record.carrierType maxDhtCarrier body
  let body ← putBytes record.connectionHint maxDhtHint body
  let body ← putVarint record.expirationTime body
  let body ← putVarint record.sequence body
  putBytes record.signature maxSignature body

def putBody (f : DhtLookupFrame) (body : Bytes) : Except FrameError Bytes := do
  let body ← putVarint f.requestId body
  let body ← putBytes f.targetEndpointId 32 body
  let body ← put [flagByte [f.response]] body
  let body ← putVarint f.records.length body
  f.records.foldlM (fun body record => putRecord record body) body

def encode (f : DhtLookupFrame) : Except FrameError Bytes := do
  refuse (f.targetEndpointId.length != 32 || f.records.length > maxDhtRecords) .lengthExceedsLimit
  let body ← f.putBody []
  putDelimited .dhtLookup body

/-- The `read` closure: every byte string of the frame, whatever its own limit. -/
def readField : FieldReader Bytes := readBytes 1024

def readRecord : FieldReader DhtRecordWire := do
  let endpointId ← readField
  let identityPublicKey ← readField
  let carrierType ← readField
  let connectionHint ← readField
  refuseIf (endpointId.length != 32 || identityPublicKey.length != 32 ||
    carrierType.length > maxDhtCarrier || connectionHint.length > maxDhtHint) .lengthExceedsLimit
  let expirationTime ← readVarint
  let sequence ← readVarint
  let signature ← readField
  refuseIf (signature.length != 64) .lengthExceedsLimit
  return { endpointId, identityPublicKey, carrierType, connectionHint, expirationTime, sequence,
           signature }

def decode (body : Bytes) : Except FrameError (DhtLookupFrame × Nat) :=
  run (do
    let requestId ← readVarint
    let targetEndpointId ← readField
    refuseIf (targetEndpointId.length != 32) .lengthExceedsLimit
    let response ← readByte
    let count ← readVarint
    refuseIf (count > maxDhtRecords) .lengthExceedsLimit
    let records ← readRecord.times count
    return { requestId, response := response != 0, targetEndpointId, records }) body

theorem carries_record (sized : record.WellSized) : Carries (putRecord record) readRecord record := by
  obtain ⟨endpoint, key, signature⟩ := sized
  intro out result written
  -- The decoder's bounds on the carrier and the hint are the encoder's limits.
  have bounds : record.carrierType.length ≤ maxDhtCarrier ∧
      record.connectionHint.length ≤ maxDhtHint := by
    simp only [putRecord, bind_ok, putBytes_ok] at written
    obtain ⟨_, -, _, -, _, ⟨carrier, -⟩, _, ⟨hint, -⟩, -⟩ := written
    exact ⟨carrier, hint⟩
  have sizes : (record.endpointId.length != 32 || record.identityPublicKey.length != 32 ||
      record.carrierType.length > maxDhtCarrier || record.connectionHint.length > maxDhtHint) =
      false := by
    simp [endpoint, key, bounds]
  have signed : (record.signature.length != 64) = false := by simp [signature]
  suffices carried : Carries (putRecord record) readRecord record from carried written
  exact (carries_bytes_within (by decide)).bind <| (carries_bytes_within (by decide)).bind <|
    (carries_bytes_within (by decide)).bind <| (carries_bytes_within (by decide)).bind <|
    .allowed sizes <| carries_varint.bind <| carries_varint.bind <|
    (carries_bytes_within (by decide)).closing <| (Reads.refuseIf signed).bind .pure

theorem spoils_record (missized : ¬ record.WellSized) : Spoils (putRecord record) readRecord := by
  have behind : Appends fun out => putVarint record.expirationTime out >>= fun body =>
      putVarint record.sequence body >>= putBytes record.signature maxSignature :=
    carries_varint.appends.bind (carries_varint.appends.bind carries_bytes.appends)
  refine .bind (carries_bytes_within (by decide)) <| .bind (carries_bytes_within (by decide)) <|
    .bind (carries_bytes_within (by decide)) <| .bind (carries_bytes_within (by decide)) ?_
  by_cases sizes : (record.endpointId.length != 32 || record.identityPublicKey.length != 32 ||
      record.carrierType.length > maxDhtCarrier || record.connectionHint.length > maxDhtHint) = true
  · exact .refused sizes behind
  · have passed := Bool.eq_false_of_not_eq_true sizes
    refine .allowed passed <| .bind carries_varint <| .bind carries_varint <|
      .closing (carries_bytes_within (by decide)) (.refuseIf ?_)
    simp only [DhtRecordWire.WellSized] at missized
    simp_all

theorem record_carried_or_spoilt :
    Carries (putRecord record) readRecord record ∨ Spoils (putRecord record) readRecord := by
  by_cases sized : record.WellSized
  · exact .inl (carries_record sized)
  · exact .inr (spoils_record sized)

theorem round_trip (sized : ∀ record ∈ f.records, record.WellSized)
    (encoded : encode f = .ok bytes) : LengthDelimited .dhtLookup decode f bytes := by
  obtain ⟨checked, written⟩ := refuse_bind_ok.mp encoded
  rw [Bool.or_eq_false_iff] at checked
  obtain ⟨target, few⟩ := checked
  refine .of_carries ?_ written
  refine carries_varint.bind <| (carries_bytes_within (by decide)).bind <|
    .allowed target <| carries_byte.bind <| carries_varint.bind <| .allowed few <|
    (Carries.times fun record member => carries_record (sized record member)).last ?_
  have flag : (flagByte [f.response] != 0) = f.response := by cases f.response <;> decide
  simp only [flag]

/-- A frame with a record of other sizes is encoded and not read back. -/
theorem refused (missized : ¬ ∀ record ∈ f.records, record.WellSized)
    (encoded : encode f = .ok bytes) : LengthRefused .dhtLookup decode bytes := by
  obtain ⟨checked, written⟩ := refuse_bind_ok.mp encoded
  rw [Bool.or_eq_false_iff] at checked
  obtain ⟨target, few⟩ := checked
  have bad : ∃ record ∈ f.records, Spoils (putRecord record) readRecord := by
    push Not at missized
    obtain ⟨record, member, missized⟩ := missized
    exact ⟨record, member, spoils_record missized⟩
  refine .of_spoils ?_ written
  refine .bind carries_varint <| .bind (carries_bytes_within (by decide)) <|
    .allowed target <| .bind carries_byte <| .bind carries_varint <| .allowed few ?_
  exact (Spoils.times (fun record _ => record_carried_or_spoilt) bad).before

end DhtLookupFrame

structure RevocationBatchFrame where
  payload : Bytes
  deriving DecidableEq, Repr

namespace RevocationBatchFrame

def encode (f : RevocationBatchFrame) : Except FrameError Bytes := do
  refuse (f.payload.length > maxRevocationBatch) .lengthExceedsLimit
  putDelimited .revocationBatch f.payload

def decode (body : Bytes) : Except FrameError (RevocationBatchFrame × Nat) := do
  refuse (body.length > maxRevocationBatch) .lengthExceedsLimit
  .ok ({ payload := body }, body.length)

theorem round_trip (encoded : encode f = .ok bytes) : LengthDelimited .revocationBatch decode f bytes := by
  obtain ⟨small, framed⟩ := refuse_bind_ok.mp encoded
  obtain ⟨known, rfl, bound⟩ := putDelimited_ok framed
  exact ⟨known, f.payload, rfl, bound, refuse_bind_ok.mpr ⟨small, rfl⟩⟩

end RevocationBatchFrame
end UniversalMesh.Wire
