import UniversalMesh.Wire.Field

/-! The ACK and CONNECTION_CLOSE frames of `umc-wire/src/frame.rs`. -/
namespace UniversalMesh.Wire
open MachineWord Reader

def maxAckRanges : Nat := 64
def maxReasonLen : Nat := 1024

structure AckRange where
  (gap length : Nat)
  deriving DecidableEq, Repr

structure AckFrame where
  (largestAcknowledged ackDelay firstAckRange : Nat)
  additionalRanges : List AckRange
  deriving DecidableEq, Repr

namespace AckFrame

def putRange (r : AckRange) (out : Bytes) : Except FrameError Bytes := do
  let out ← putVarint r.gap out
  putVarint r.length out

def readRange : FieldReader AckRange := do
  let gap ← readVarint
  let length ← readVarint
  refuseIf (length == 0) .ackRangeUnderflow
  return { gap, length }

/-- The type and the fields, as `encode` and the session's `on_inbound` write them. -/
def write (f : AckFrame) (out : Bytes) : Except FrameError Bytes := do
  let out ← putVarint FrameType.ack.value out
  let out ← putVarint f.largestAcknowledged out
  let out ← putVarint f.ackDelay out
  let out ← putVarint (f.additionalRanges.length + 1) out
  let out ← putVarint f.firstAckRange out
  f.additionalRanges.foldlM (fun out r => putRange r out) out

def encode (f : AckFrame) : Except FrameError Bytes := do
  refuse (f.additionalRanges.length > maxAckRanges) .tooManyAckRanges
  f.write []

def decode (body : Bytes) : Except FrameError (AckFrame × Nat) :=
  run (do
    let largest ← readVarint
    let delay ← readVarint
    let rangeCount ← readVarint
    refuseIf (rangeCount == 0 || rangeCount > maxAckRanges + 1) .tooManyAckRanges
    let first ← readVarint
    refuseIf (first == 0) .ackRangeUnderflow
    let ranges ← readRange.times (rangeCount - 1)
    return { largestAcknowledged := largest, ackDelay := delay, firstAckRange := first,
             additionalRanges := ranges }) body

/-- No range is empty; the encoder does not check it. -/
def NonEmptyRanges (f : AckFrame) : Prop :=
  1 ≤ f.firstAckRange ∧ ∀ r ∈ f.additionalRanges, 1 ≤ r.length

theorem carries_range (nonEmpty : 1 ≤ r.length) : Carries (putRange r) readRange r := by
  have checked : (r.length == 0) = false := by simp; omega
  exact carries_varint.bind <| carries_varint.closing <|
    (Reads.refuseIf checked).bind .pure

theorem putRanges_isOk (ranges : List AckRange) (out : Bytes) :
    (∃ result, ranges.foldlM (fun out r => putRange r out) out = .ok result) ↔
      ∀ r ∈ ranges, r.gap ≤ Varint.maxVarint ∧ r.length ≤ Varint.maxVarint := by
  induction ranges generalizing out with
  | nil => simp [pure, Except.pure]
  | cons r rest ih =>
    have shape : ∀ out, (r :: rest).foldlM (fun out r => putRange r out) out =
        putVarint r.gap out >>= fun out => putVarint r.length out >>= fun out =>
          rest.foldlM (fun out r => putRange r out) out := by
      intro out
      simp only [List.foldlM_cons, putRange, bind_assoc]
    rw [shape, putVarint_bind_isOk, putVarint_bind_isOk, ih, List.forall_mem_cons, and_assoc]

/-- The frames that `encode` takes: few ranges, and every number a varint. -/
theorem encode_isOk : (∃ bytes, encode f = .ok bytes) ↔
    f.additionalRanges.length ≤ maxAckRanges ∧ f.largestAcknowledged ≤ Varint.maxVarint ∧
      f.ackDelay ≤ Varint.maxVarint ∧ f.firstAckRange ≤ Varint.maxVarint ∧
      ∀ r ∈ f.additionalRanges, r.gap ≤ Varint.maxVarint ∧ r.length ≤ Varint.maxVarint := by
  have checked : (∃ bytes, encode f = .ok bytes) ↔
      f.additionalRanges.length ≤ maxAckRanges ∧ ∃ bytes, f.write [] = .ok bytes := by
    simp only [encode, refuse_bind_ok, exists_and_left, decide_eq_false_iff_not, gt_iff_lt, not_lt]
  rw [checked, write, putVarint_bind_isOk, putVarint_bind_isOk, putVarint_bind_isOk,
    putVarint_bind_isOk, putVarint_bind_isOk, putRanges_isOk]
  have typed : FrameType.ack.value ≤ Varint.maxVarint := by decide
  have counted : f.additionalRanges.length ≤ maxAckRanges →
      f.additionalRanges.length + 1 ≤ Varint.maxVarint := by
    simp only [maxAckRanges, Varint.maxVarint]
    omega
  tauto

theorem round_trip (nonEmpty : f.NonEmptyRanges) (encoded : encode f = .ok bytes) :
    SelfDelimiting .ack decode f bytes := by
  obtain ⟨few, written⟩ := refuse_bind_ok.mp encoded
  obtain ⟨first, others⟩ := nonEmpty
  have counted : (f.additionalRanges.length + 1 == 0 ||
      f.additionalRanges.length + 1 > maxAckRanges + 1) = false := by simpa using few
  have started : (f.firstAckRange == 0) = false := by simp; omega
  refine .of_carries ?_ written
  exact carries_varint.bind <| carries_varint.bind <| carries_varint.bind <|
    .allowed counted <| carries_varint.bind <| .allowed started <|
    (Carries.times fun r member => carries_range (others r member)).last rfl

theorem spoils_range (empty : r.length = 0) : Spoils (putRange r) readRange :=
  .bind carries_varint <| .closing carries_varint <| .refuseIf (by simp [empty])

theorem refused (empty : ¬ f.NonEmptyRanges) (encoded : encode f = .ok bytes) : Refused .ack decode bytes := by
  obtain ⟨few, written⟩ := refuse_bind_ok.mp encoded
  have counted : (f.additionalRanges.length + 1 == 0 ||
      f.additionalRanges.length + 1 > maxAckRanges + 1) = false := by simpa using few
  have range : ∀ r, Carries (putRange r) readRange r ∨ Spoils (putRange r) readRange := fun r =>
    (Nat.eq_zero_or_pos r.length).elim (fun none => .inr (spoils_range none)) fun some => .inl (carries_range some)
  refine .of_spoils ?_ written
  refine .bind carries_varint <| .bind carries_varint <| .bind carries_varint <|
    .allowed counted <| .bind carries_varint ?_
  by_cases started : f.firstAckRange = 0
  · refine .refused (by simp [started]) (.times fun r _ => ?_)
    exact (range r).elim Carries.appends .of_writes
  · have bad : ∃ r ∈ f.additionalRanges, Spoils (putRange r) readRange := by
      by_contra none
      refine empty ⟨Nat.pos_of_ne_zero started, fun r member => Nat.pos_of_ne_zero fun zero => ?_⟩
      exact none ⟨r, member, spoils_range zero⟩
    refine .allowed (by simp [started]) ?_
    exact (Spoils.times (fun r _ => range r) bad).before

end AckFrame

structure ConnectionCloseFrame where
  (errorCode triggerFrameType : Nat)
  reason : Bytes
  deriving DecidableEq, Repr

namespace ConnectionCloseFrame

def encode (f : ConnectionCloseFrame) : Except FrameError Bytes := do
  refuse (f.reason.length > maxReasonLen) .lengthExceedsLimit
  let out ← putVarint FrameType.connectionClose.value []
  let out ← putVarint f.errorCode out
  let out ← putVarint f.triggerFrameType out
  putBytes f.reason maxReasonLen out

def decode (body : Bytes) : Except FrameError (ConnectionCloseFrame × Nat) :=
  run (do
    let code ← readVarint
    let trigger ← readVarint
    let reason ← readBytes maxReasonLen
    return { errorCode := code, triggerFrameType := trigger, reason }) body

theorem round_trip (encoded : encode f = .ok bytes) : SelfDelimiting .connectionClose decode f bytes :=
  .of_carries (carries_varint.bind <| carries_varint.bind <|
    carries_bytes.last rfl) (refuse_bind_ok.mp encoded).2

end ConnectionCloseFrame

/-! `umc-wire/src/frames/handshake.rs`: AUTH, HANDSHAKE_DATA, CAPABILITIES and
SESSION_TICKET. -/

def maxHandshakeMessage : Nat := 16384
def maxCapabilities : Nat := 128
def maxCapabilityValue : Nat := 4096

structure AuthFrame where
  method : Nat
  data : Bytes
  deriving DecidableEq, Repr

namespace AuthFrame

def encode (f : AuthFrame) : Except FrameError Bytes := do
  refuse (f.data.length > maxHandshakeMessage) .lengthExceedsLimit
  let out ← putVarint FrameType.auth.value []
  let out ← putVarint f.method out
  putBytes f.data maxHandshakeMessage out

def decode (body : Bytes) : Except FrameError (AuthFrame × Nat) :=
  run (do
    let method ← readVarint
    let data ← readBytes maxHandshakeMessage
    return { method, data }) body

theorem round_trip (encoded : encode f = .ok bytes) : SelfDelimiting .auth decode f bytes :=
  .of_carries (carries_varint.bind <| carries_bytes.last rfl)
    (refuse_bind_ok.mp encoded).2

end AuthFrame

structure HandshakeDataFrame where
  offset : Nat
  data : Bytes
  deriving DecidableEq, Repr

namespace HandshakeDataFrame

def encode (f : HandshakeDataFrame) : Except FrameError Bytes := do
  refuse (f.data.length > maxHandshakeMessage) .lengthExceedsLimit
  let out ← putVarint FrameType.handshakeData.value []
  let out ← putVarint f.offset out
  putBytes f.data maxHandshakeMessage out

def decode (body : Bytes) : Except FrameError (HandshakeDataFrame × Nat) :=
  run (do
    let offset ← readVarint
    let data ← readBytes maxHandshakeMessage
    return { offset, data }) body

theorem round_trip (encoded : encode f = .ok bytes) : SelfDelimiting .handshakeData decode f bytes :=
  .of_carries (carries_varint.bind <| carries_bytes.last rfl)
    (refuse_bind_ok.mp encoded).2

end HandshakeDataFrame

structure Capability where
  id : Nat
  value : Bytes
  deriving DecidableEq, Repr

structure CapabilitiesFrame where
  entries : List Capability
  deriving DecidableEq, Repr

namespace CapabilitiesFrame

def putEntry (e : Capability) (out : Bytes) : Except FrameError Bytes := do
  let out ← putVarint e.id out
  putBytes e.value maxCapabilityValue out

def readEntry : FieldReader Capability := do
  let id ← readVarint
  let value ← readBytes maxCapabilityValue
  return { id, value }

def encode (f : CapabilitiesFrame) : Except FrameError Bytes := do
  refuse (f.entries.length > maxCapabilities) .lengthExceedsLimit
  let out ← putVarint FrameType.capabilities.value []
  let out ← putVarint f.entries.length out
  f.entries.foldlM (fun out e => putEntry e out) out

def decode (body : Bytes) : Except FrameError (CapabilitiesFrame × Nat) :=
  run (do
    let count ← readVarint
    refuseIf (count > maxCapabilities) .lengthExceedsLimit
    let entries ← readEntry.times count
    return { entries }) body

theorem carries_entry (e : Capability) : Carries (putEntry e) readEntry e :=
  carries_varint.bind <| carries_bytes.last rfl

theorem round_trip (encoded : encode f = .ok bytes) : SelfDelimiting .capabilities decode f bytes := by
  obtain ⟨few, written⟩ := refuse_bind_ok.mp encoded
  refine .of_carries ?_ written
  exact carries_varint.bind <| .allowed few <|
    (Carries.times fun e _ => carries_entry e).last rfl

end CapabilitiesFrame

structure SessionTicketFrame where
  (lifetime ageAdd : Nat)
  (nonce ticket : Bytes)
  deriving DecidableEq, Repr

namespace SessionTicketFrame

def maxTicket : Nat := 16384

def encode (f : SessionTicketFrame) : Except FrameError Bytes := do
  let out ← putVarint FrameType.sessionTicket.value []
  let out ← putVarint f.lifetime out
  let out ← putVarint f.ageAdd out
  let out ← putBytes f.nonce 256 out
  putBytes f.ticket maxTicket out

def decode (body : Bytes) : Except FrameError (SessionTicketFrame × Nat) :=
  run (do
    let lifetime ← readVarint
    let ageAdd ← readVarint
    let nonce ← readBytes 256
    let ticket ← readBytes maxTicket
    return { lifetime, ageAdd, nonce, ticket }) body

theorem round_trip (encoded : encode f = .ok bytes) : SelfDelimiting .sessionTicket decode f bytes :=
  .of_carries (carries_varint.bind <| carries_varint.bind <| carries_bytes.bind <|
    carries_bytes.last rfl) encoded

end SessionTicketFrame

/-! `umc-wire/src/frames/path.rs`: path validation, migration, key update and
connection identifier frames. -/

def challengeLen : Nat := 8
def resetTokenLen : Nat := 16

structure PathChallengeFrame where
  data : Octets challengeLen
  deriving DecidableEq, Repr

namespace PathChallengeFrame

def encode (f : PathChallengeFrame) : Except FrameError Bytes := do
  let out ← putVarint FrameType.pathChallenge.value []
  put f.data.val out

def decode (body : Bytes) : Except FrameError (PathChallengeFrame × Nat) :=
  run (do
    let data ← readArray challengeLen
    return { data }) body

theorem round_trip (encoded : encode f = .ok bytes) : SelfDelimiting .pathChallenge decode f bytes :=
  .of_carries ((carries_array _).last rfl) encoded

end PathChallengeFrame

structure PathResponseFrame where
  data : Octets challengeLen
  deriving DecidableEq, Repr

namespace PathResponseFrame

def encode (f : PathResponseFrame) : Except FrameError Bytes := do
  let out ← putVarint FrameType.pathResponse.value []
  put f.data.val out

def decode (body : Bytes) : Except FrameError (PathResponseFrame × Nat) :=
  run (do
    let data ← readArray challengeLen
    return { data }) body

theorem round_trip (encoded : encode f = .ok bytes) : SelfDelimiting .pathResponse decode f bytes :=
  .of_carries ((carries_array _).last rfl) encoded

end PathResponseFrame

structure PathStatusFrame where
  pathId : Nat
  (validated active degraded isLocal metered censoredOrFiltered : Bool)
  (estimatedRtt estimatedBandwidth estimatedLoss costClass : Nat)
  deriving DecidableEq, Repr

namespace PathStatusFrame

def encode (f : PathStatusFrame) : Except FrameError Bytes := do
  let out ← putVarint FrameType.pathStatus.value []
  let out ← putVarint f.pathId out
  let out ← put [flagByte [f.validated, f.active, f.degraded, f.isLocal, f.metered,
    f.censoredOrFiltered]] out
  let out ← putVarint f.estimatedRtt out
  let out ← putVarint f.estimatedBandwidth out
  let out ← putVarint f.estimatedLoss out
  putVarint f.costClass out

def decode (body : Bytes) : Except FrameError (PathStatusFrame × Nat) :=
  run (do
    let pathId ← readVarint
    let flags ← readByte
    refuseIf (hasFlag flags 0xC0) .invalidPadding
    let rtt ← readVarint
    let bw ← readVarint
    let loss ← readVarint
    let cost ← readVarint
    return { pathId, validated := hasFlag flags 0x01, active := hasFlag flags 0x02,
             degraded := hasFlag flags 0x04, isLocal := hasFlag flags 0x08,
             metered := hasFlag flags 0x10, censoredOrFiltered := hasFlag flags 0x20,
             estimatedRtt := rtt, estimatedBandwidth := bw, estimatedLoss := loss,
             costClass := cost }) body

theorem round_trip (encoded : encode f = .ok bytes) : SelfDelimiting .pathStatus decode f bytes := by
  obtain ⟨reserved, flags⟩ := six_flags f.validated f.active f.degraded f.isLocal f.metered
    f.censoredOrFiltered
  refine .of_carries ?_ encoded
  refine carries_varint.bind <| carries_byte.bind <| .allowed reserved ?_
  simp only [flags]
  exact carries_varint.bind <| carries_varint.bind <| carries_varint.bind <|
    carries_varint.last rfl

end PathStatusFrame

structure MigrateFrame where
  (oldPathId newPathId migrationSequence : Nat)
  (makePrimary keepOldPath duplicateCriticalFrames : Bool)
  deriving DecidableEq, Repr

namespace MigrateFrame

def encode (f : MigrateFrame) : Except FrameError Bytes := do
  let out ← putVarint FrameType.migrate.value []
  let out ← putVarint f.oldPathId out
  let out ← putVarint f.newPathId out
  let out ← putVarint f.migrationSequence out
  put [flagByte [f.makePrimary, f.keepOldPath, f.duplicateCriticalFrames]] out

def decode (body : Bytes) : Except FrameError (MigrateFrame × Nat) :=
  run (do
    let old ← readVarint
    let new ← readVarint
    let seq ← readVarint
    let flags ← readByte
    refuseIf (hasFlag flags 0xF8) .invalidPadding
    return { oldPathId := old, newPathId := new, migrationSequence := seq,
             makePrimary := hasFlag flags 0x01, keepOldPath := hasFlag flags 0x02,
             duplicateCriticalFrames := hasFlag flags 0x04 }) body

theorem round_trip (encoded : encode f = .ok bytes) : SelfDelimiting .migrate decode f bytes := by
  obtain ⟨reserved, flags⟩ := three_flags f.makePrimary f.keepOldPath f.duplicateCriticalFrames
  refine .of_carries ?_ encoded
  refine carries_varint.bind <| carries_varint.bind <| carries_varint.bind <|
    carries_byte.closing <| (Reads.refuseIf reserved).bind (.made ?_)
  simp only [flags]

end MigrateFrame

structure KeyUpdateFrame where
  updateSequence : Nat
  requestPeerUpdate : Bool
  deriving DecidableEq, Repr

namespace KeyUpdateFrame

def encode (f : KeyUpdateFrame) : Except FrameError Bytes := do
  let out ← putVarint FrameType.keyUpdate.value []
  let out ← putVarint f.updateSequence out
  put [flagByte [f.requestPeerUpdate]] out

def decode (body : Bytes) : Except FrameError (KeyUpdateFrame × Nat) :=
  run (do
    let seq ← readVarint
    let flags ← readByte
    refuseIf (hasFlag flags 0xFE) .invalidPadding
    return { updateSequence := seq, requestPeerUpdate := hasFlag flags 0x01 }) body

theorem round_trip (encoded : encode f = .ok bytes) : SelfDelimiting .keyUpdate decode f bytes := by
  obtain ⟨reserved, flag⟩ := one_flag f.requestPeerUpdate
  refine .of_carries ?_ encoded
  refine carries_varint.bind <|
    carries_byte.closing <| (Reads.refuseIf reserved).bind (.made ?_)
  simp only [flag]

theorem encode_ok : encode f = .ok bytes ↔
    f.updateSequence ≤ Varint.maxVarint ∧
      bytes = Varint.encoding FrameType.keyUpdate.value ++ Varint.encoding f.updateSequence ++
        [flagByte [f.requestPeerUpdate]] := by
  have typed : putVarint FrameType.keyUpdate.value [] =
      .ok (Varint.encoding FrameType.keyUpdate.value) := putVarint_ok.mpr ⟨by decide, rfl⟩
  rw [encode, typed, ok_bind]
  constructor
  · intro written
    obtain ⟨out, wrote, closed⟩ := bind_ok.mp written
    obtain ⟨bound, rfl⟩ := putVarint_ok.mp wrote
    cases closed
    exact ⟨bound, rfl⟩
  · rintro ⟨bound, rfl⟩
    rw [putVarint_ok.mpr ⟨bound, rfl⟩]
    rfl

end KeyUpdateFrame

structure NewConnectionIdFrame where
  (sequence retirePriorTo : Nat)
  connectionId : Bytes
  resetToken : Octets resetTokenLen
  deriving DecidableEq, Repr

namespace NewConnectionIdFrame

def encode (f : NewConnectionIdFrame) : Except FrameError Bytes := do
  refuse (!(1 ≤ f.connectionId.length && f.connectionId.length ≤ 20)) .lengthExceedsLimit
  refuse (f.retirePriorTo > f.sequence) .invalidPadding
  let out ← putVarint FrameType.newConnectionId.value []
  let out ← putVarint f.sequence out
  let out ← putVarint f.retirePriorTo out
  let out ← put [UInt8.ofNat f.connectionId.length] out
  let out ← put f.connectionId out
  put f.resetToken.val out

def decode (body : Bytes) : Except FrameError (NewConnectionIdFrame × Nat) :=
  run (do
    let seq ← readVarint
    let retire ← readVarint
    let cidLen ← readByte
    refuseIf (!(1 ≤ cidLen.toNat && cidLen.toNat ≤ 20)) .lengthExceedsLimit
    let cid ← readSlice cidLen.toNat
    let resetToken ← readArray resetTokenLen
    refuseIf (retire > seq) .invalidPadding
    return { sequence := seq, retirePriorTo := retire, connectionId := cid, resetToken }) body

theorem round_trip (encoded : encode f = .ok bytes) : SelfDelimiting .newConnectionId decode f bytes := by
  obtain ⟨sized, checked⟩ := refuse_bind_ok.mp encoded
  obtain ⟨ordered, written⟩ := refuse_bind_ok.mp checked
  have width : (UInt8.ofNat f.connectionId.length).toNat = f.connectionId.length := by
    have short : f.connectionId.length ≤ 20 := by simp_all
    exact UInt8.toNat_ofNat_of_lt' (by show _ < 256; omega)
  refine .of_carries ?_ written
  refine carries_varint.bind <| carries_varint.bind <| carries_byte.bind ?_
  rw [width]
  exact .allowed sized <| carries_slice.bind <|
    (carries_array _).closing <| (Reads.refuseIf ordered).bind .pure

end NewConnectionIdFrame

structure RetireConnectionIdFrame where
  sequence : Nat
  deriving DecidableEq, Repr

namespace RetireConnectionIdFrame

def encode (f : RetireConnectionIdFrame) : Except FrameError Bytes := do
  let out ← putVarint FrameType.retireConnectionId.value []
  putVarint f.sequence out

def decode (body : Bytes) : Except FrameError (RetireConnectionIdFrame × Nat) :=
  run (do
    let seq ← readVarint
    return { sequence := seq }) body

theorem round_trip (encoded : encode f = .ok bytes) : SelfDelimiting .retireConnectionId decode f bytes :=
  .of_carries (carries_varint.last rfl) encoded

end RetireConnectionIdFrame

/-! The application data frames of `umc-wire/src/frames`: `stream.rs`, `flow.rs`
and `datagram.rs`. Each codec comes with its round trip. -/

def maxProtocolIdLen : Nat := 255
def maxStreamMetadataLen : Nat := 4096

structure StreamFrame where
  streamId : Nat
  (fin offsetPresent lenPresent isOpen unidirectional : Bool)
  offset : Nat
  (data protocolId metadata : Bytes)
  deriving DecidableEq, Repr

namespace StreamFrame

/-- The data length: `u32::try_from(l).map_err(|_| LengthExceedsLimit)?`. -/
def readLength : FieldReader Nat := do
  let len ← readVarint
  refuseIf (u32Max < len) .lengthExceedsLimit
  return len

/-- The fields that only an OPEN frame carries. -/
def readOpen : FieldReader (Bytes × Bytes) := do
  let protocolId ← readBytes maxProtocolIdLen
  let metadata ← readBytes maxStreamMetadataLen
  return (protocolId, metadata)

def putOpen (f : StreamFrame) (out : Bytes) : Except FrameError Bytes := do
  let out ← putBytes f.protocolId maxProtocolIdLen out
  putBytes f.metadata maxStreamMetadataLen out

def encode (f : StreamFrame) : Except FrameError Bytes := do
  let out ← putVarint FrameType.stream.value []
  let out ← putVarint f.streamId out
  let out ← put [flagByte [f.fin, f.offsetPresent, f.lenPresent, f.isOpen, f.unidirectional]] out
  let out ← putIf f.offsetPresent (putVarint f.offset) out
  let out ← putIf f.lenPresent (putVarint f.data.length) out
  let out ← put f.data out
  putIf f.isOpen f.putOpen out

def decode (body : Bytes) : Except FrameError (StreamFrame × Nat) :=
  run (do
    let streamId ← readVarint
    let flags ← readByte
    refuseIf (hasFlag flags 0xE0) .invalidPadding
    let offset ← readVarint.readIf (hasFlag flags 0x02) 0
    let dataLen ← (if hasFlag flags 0x04 then readLength else remaining)
    let data ← readSlice dataLen
    let opened ← readOpen.readIf (hasFlag flags 0x08) ([], [])
    return { streamId, fin := hasFlag flags 0x01, offsetPresent := hasFlag flags 0x02,
             lenPresent := hasFlag flags 0x04, isOpen := hasFlag flags 0x08,
             unidirectional := hasFlag flags 0x10, offset, data,
             protocolId := opened.1, metadata := opened.2 }) body

/-- What the flags promise of the other fields: an offset that is not sent is
zero, the fields of an OPEN frame are empty in any other, and the data has a
length that `u32` holds. -/
def WellFlagged (f : StreamFrame) : Prop :=
  (f.offsetPresent = true ∨ f.offset = 0) ∧
    (f.isOpen = true ∨ f.protocolId = [] ∧ f.metadata = []) ∧ f.data.length ≤ u32Max

theorem carries_length (small : len ≤ u32Max) : Carries (putVarint len) readLength len :=
  carries_varint.closing ((Reads.refuseIf (by simpa using small)).bind .pure)

theorem carries_open (f : StreamFrame) : Carries f.putOpen readOpen (f.protocolId, f.metadata) :=
  carries_bytes.bind (carries_bytes.last rfl)

/-- The frame as it arrives: what its flags leave out is read as zero and empty. -/
def asSent (f : StreamFrame) : StreamFrame :=
  { f with
    offset := if f.offsetPresent then f.offset else 0
    protocolId := if f.isOpen then f.protocolId else []
    metadata := if f.isOpen then f.metadata else [] }

theorem asSent_of_wellFlagged {f : StreamFrame} (flagged : f.WellFlagged) : f.asSent = f := by
  obtain ⟨offset, opened, -⟩ := flagged
  cases f
  simp only [asSent, mk.injEq, true_and]
  refine ⟨?_, ?_, ?_⟩ <;> split <;> simp_all

theorem carries_offset (f : StreamFrame) :
    Carries (putIf f.offsetPresent (putVarint f.offset)) (readVarint.readIf f.offsetPresent 0)
      f.asSent.offset := by
  refine .optional rfl (fun present => ?_) fun absent => by simp [asSent, absent]
  simpa only [asSent, present, if_true] using carries_varint

theorem carries_opened (f : StreamFrame) :
    Carries (putIf f.isOpen f.putOpen) (readOpen.readIf f.isOpen ([], []))
      (f.asSent.protocolId, f.asSent.metadata) := by
  refine .optional rfl (fun present => ?_) fun absent => by simp [asSent, absent]
  simpa only [asSent, present, if_true] using carries_open f

theorem arrives (sized : f.lenPresent = true) (small : f.data.length ≤ u32Max)
    (encoded : encode f = .ok bytes) : SelfDelimiting .stream decode f.asSent bytes := by
  obtain ⟨reserved, fin, offsetFlag, lenFlag, openFlag, uniFlag⟩ :=
    five_flags f.fin f.offsetPresent f.lenPresent f.isOpen f.unidirectional
  refine .of_carries ?_ encoded
  refine carries_varint.bind <| carries_byte.bind <| .allowed reserved ?_
  simp only [fin, offsetFlag, lenFlag, openFlag, uniFlag]
  refine (carries_offset f).bind ?_
  simp only [sized, putIf, if_true]
  refine (carries_length small).bind <| carries_slice.bind <| (carries_opened f).last ?_
  simp [asSent, sized]

theorem round_trip (flagged : f.WellFlagged) (sized : f.lenPresent = true)
    (encoded : encode f = .ok bytes) : SelfDelimiting .stream decode f bytes := by
  have sent := arrives sized flagged.2.2 encoded
  rwa [asSent_of_wellFlagged flagged] at sent

/-- A STREAM frame without its length extends to the end of the packet, so it
is read back when it is the last frame and not OPEN. -/
theorem arrives_at_end (unsized : f.lenPresent = false) (unopened : f.isOpen = false)
    (encoded : encode f = .ok bytes) : EndDelimited .stream decode f.asSent bytes := by
  obtain ⟨reserved, fin, offsetFlag, lenFlag, openFlag, uniFlag⟩ :=
    five_flags f.fin f.offsetPresent f.lenPresent f.isOpen f.unidirectional
  refine .of_carries ?_ encoded
  refine .bind carries_varint <| .bind carries_byte <| .allowed reserved ?_
  simp only [fin, offsetFlag, lenFlag, openFlag, uniFlag]
  refine .bind (carries_offset f) ?_
  simp only [unsized, unopened]
  intro out result written
  cases written
  refine ⟨f.data, rfl, readsToEnd_remaining (Reads.pure.bind (.made ?_))⟩
  simp [asSent, unsized, unopened]

theorem round_trip_at_end (flagged : f.WellFlagged) (unsized : f.lenPresent = false)
    (unopened : f.isOpen = false) (encoded : encode f = .ok bytes) : EndDelimited .stream decode f bytes := by
  have sent := arrives_at_end unsized unopened encoded
  rwa [asSent_of_wellFlagged flagged] at sent

/-- The decoder finds its fields behind the data: the length is there for an
OPEN frame, and `u32` holds it. -/
def Delimits (f : StreamFrame) : Prop :=
  if f.lenPresent then f.data.length ≤ u32Max else f.isOpen = false

theorem appends_open (f : StreamFrame) : Appends (putIf f.isOpen f.putOpen : Writer FrameError UInt8) :=
  (carries_opened f).appends

/-- Data whose length `u32` does not hold, and an OPEN frame whose data takes
the fields behind it, are encoded and not read back. -/
theorem refused (lost : ¬ f.Delimits) (encoded : encode f = .ok bytes) : Refused .stream decode bytes := by
  obtain ⟨reserved, fin, offsetFlag, lenFlag, openFlag, uniFlag⟩ :=
    five_flags f.fin f.offsetPresent f.lenPresent f.isOpen f.unidirectional
  refine .of_spoils ?_ encoded
  refine .bind carries_varint <| .bind carries_byte <| .allowed reserved ?_
  simp only [fin, offsetFlag, lenFlag, openFlag, uniFlag]
  refine .bind (carries_offset f) ?_
  unfold Delimits at lost
  cases sized : f.lenPresent with
  | true =>
    simp only [sized, if_true, Nat.not_le] at lost
    have spoils : Spoils (putVarint f.data.length) readLength :=
      .closing carries_varint (.refuseIf (by simpa using lost))
    exact spoils.first (carries_slice.appends.bind (appends_open f))
  | false =>
    have opened : f.isOpen = true := by simpa [sized] using lost
    intro out result written
    have grown : Appends (fun out => put f.data out >>= putIf f.isOpen f.putOpen) :=
      carries_slice.appends.bind (appends_open f)
    obtain ⟨piece, rfl⟩ := grown written
    refine ⟨piece, rfl, refuses_behind_remaining fun data body => ⟨.truncated, ?_⟩⟩
    simp [opened, readIf, readOpen, Bind.bind, readBytes_at_end]

end StreamFrame

structure ResetStreamFrame where
  (streamId appErrorCode finalSize : Nat)
  deriving DecidableEq, Repr

namespace ResetStreamFrame

def encode (f : ResetStreamFrame) : Except FrameError Bytes := do
  let out ← putVarint FrameType.resetStream.value []
  let out ← putVarint f.streamId out
  let out ← putVarint f.appErrorCode out
  putVarint f.finalSize out

def decode (body : Bytes) : Except FrameError (ResetStreamFrame × Nat) :=
  run (do
    let streamId ← readVarint
    let code ← readVarint
    let finalSize ← readVarint
    return { streamId, appErrorCode := code, finalSize }) body

theorem encode_of_le (stream : f.streamId ≤ Varint.maxVarint) (code : f.appErrorCode ≤ Varint.maxVarint)
    (size : f.finalSize ≤ Varint.maxVarint) :
    encode f = .ok (Varint.encoding FrameType.resetStream.value ++ Varint.encoding f.streamId ++
      Varint.encoding f.appErrorCode ++ Varint.encoding f.finalSize) := by
  have put : ∀ {v : Nat} (out : Bytes), v ≤ Varint.maxVarint → putVarint v out = .ok (out ++ Varint.encoding v) :=
    fun out bound => putVarint_ok.mpr ⟨bound, rfl⟩
  rw [encode, put [] (by decide), ok_bind, put _ stream, ok_bind, put _ code, ok_bind, put _ size]
  rfl

theorem round_trip (encoded : encode f = .ok bytes) : SelfDelimiting .resetStream decode f bytes :=
  .of_carries (carries_varint.bind <| carries_varint.bind <|
    carries_varint.last rfl) encoded

end ResetStreamFrame

structure StopSendingFrame where
  (streamId appErrorCode : Nat)
  deriving DecidableEq, Repr

namespace StopSendingFrame

def encode (f : StopSendingFrame) : Except FrameError Bytes := do
  let out ← putVarint FrameType.stopSending.value []
  let out ← putVarint f.streamId out
  putVarint f.appErrorCode out

def decode (body : Bytes) : Except FrameError (StopSendingFrame × Nat) :=
  run (do
    let streamId ← readVarint
    let code ← readVarint
    return { streamId, appErrorCode := code }) body

theorem round_trip (encoded : encode f = .ok bytes) : SelfDelimiting .stopSending decode f bytes :=
  .of_carries (carries_varint.bind <| carries_varint.last rfl) encoded

end StopSendingFrame
/-! `frames/flow.rs`: MAX_DATA, MAX_STREAM_DATA and MAX_STREAMS. -/

structure MaxDataFrame where
  maximumData : Nat
  deriving DecidableEq, Repr

namespace MaxDataFrame

def encode (f : MaxDataFrame) : Except FrameError Bytes := do
  let out ← putVarint FrameType.maxData.value []
  putVarint f.maximumData out

def decode (body : Bytes) : Except FrameError (MaxDataFrame × Nat) :=
  run (do
    let maximumData ← readVarint
    return { maximumData }) body

theorem round_trip (encoded : encode f = .ok bytes) : SelfDelimiting .maxData decode f bytes :=
  .of_carries (carries_varint.last rfl) encoded

theorem encode_of_le (bound : f.maximumData ≤ Varint.maxVarint) : ∃ bytes, encode f = .ok bytes := by
  have typed : putVarint FrameType.maxData.value [] = .ok (Varint.encoding FrameType.maxData.value) :=
    putVarint_ok.mpr ⟨by decide, rfl⟩
  exact ⟨_, by rw [encode, typed, ok_bind, putVarint_ok.mpr ⟨bound, rfl⟩]⟩

end MaxDataFrame

structure MaxStreamDataFrame where
  (streamId maximumStreamData : Nat)
  deriving DecidableEq, Repr

namespace MaxStreamDataFrame

def encode (f : MaxStreamDataFrame) : Except FrameError Bytes := do
  let out ← putVarint FrameType.maxStreamData.value []
  let out ← putVarint f.streamId out
  putVarint f.maximumStreamData out

def decode (body : Bytes) : Except FrameError (MaxStreamDataFrame × Nat) :=
  run (do
    let streamId ← readVarint
    let maximumStreamData ← readVarint
    return { streamId, maximumStreamData }) body

theorem round_trip (encoded : encode f = .ok bytes) : SelfDelimiting .maxStreamData decode f bytes :=
  .of_carries (carries_varint.bind <| carries_varint.last rfl) encoded

end MaxStreamDataFrame

structure MaxStreamsFrame where
  bidirectional : Bool
  maximumStreams : Nat
  deriving DecidableEq, Repr

namespace MaxStreamsFrame

def encode (f : MaxStreamsFrame) : Except FrameError Bytes := do
  let out ← putVarint FrameType.maxStreams.value []
  let out ← putVarint (!f.bidirectional).toNat out
  putVarint f.maximumStreams out

def decode (body : Bytes) : Except FrameError (MaxStreamsFrame × Nat) :=
  run (do
    let dir ← readVarint
    refuseIf (dir > 1) .invalidPadding
    let maximumStreams ← readVarint
    return { bidirectional := dir == 0, maximumStreams }) body

theorem round_trip (encoded : encode f = .ok bytes) : SelfDelimiting .maxStreams decode f bytes := by
  refine .of_carries ?_ encoded
  obtain ⟨bidirectional, maximumStreams⟩ := f
  refine carries_varint.bind <| .allowed ?_ <| carries_varint.last ?_
  · cases bidirectional <;> rfl
  · cases bidirectional <;> rfl

end MaxStreamsFrame

/-! `frames/datagram.rs`: DATAGRAM. -/

def maxDatagramPayload : Nat := 1200

structure DatagramFrame where
  contextId : Nat
  (ackRequested duplicateSuppression : Bool)
  expirationDelta : Option Nat
  data : Bytes
  deriving DecidableEq, Repr

namespace DatagramFrame

def encode (f : DatagramFrame) : Except FrameError Bytes := do
  refuse (f.data.length > maxDatagramPayload) .lengthExceedsLimit
  let out ← putVarint FrameType.datagram.value []
  let out ← putVarint f.contextId out
  let out ← put [flagByte [f.ackRequested, f.duplicateSuppression, f.expirationDelta.isSome]] out
  let out ← putSome f.expirationDelta putVarint out
  let out ← putVarint f.data.length out
  put f.data out

def decode (body : Bytes) : Except FrameError (DatagramFrame × Nat) :=
  run (do
    let contextId ← readVarint
    let flags ← readByte
    refuseIf (hasFlag flags 0xF8) .invalidPadding
    let expirationDelta ← readVarint.readSome (hasFlag flags 0x04)
    let dataLen ← readVarint
    refuseIf (dataLen > maxDatagramPayload) .lengthExceedsLimit
    let data ← readSlice dataLen
    return { contextId, ackRequested := hasFlag flags 0x01,
             duplicateSuppression := hasFlag flags 0x02, expirationDelta, data }) body

theorem round_trip (encoded : encode f = .ok bytes) : SelfDelimiting .datagram decode f bytes := by
  obtain ⟨fits, written⟩ := refuse_bind_ok.mp encoded
  obtain ⟨reserved, ackFlag, duplicateFlag, deltaFlag⟩ :=
    three_flags f.ackRequested f.duplicateSuppression f.expirationDelta.isSome
  refine .of_carries ?_ written
  refine carries_varint.bind <| carries_byte.bind <| .allowed reserved ?_
  simp only [ackFlag, duplicateFlag, deltaFlag]
  exact (Carries.some fun _ => carries_varint).bind <| carries_varint.bind <|
    .allowed fits <| carries_slice.last rfl

end DatagramFrame
end UniversalMesh.Wire
