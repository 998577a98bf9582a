import UniversalMesh.Wire.Varint
import UniversalMesh.Lib.Codec

/-! `umc-types/src/frame.rs`: the registered frame types. The low two bits of
a type say how a receiver that does not know the frame has to treat it. -/
namespace UniversalMesh.Wire

structure FrameType where
  value : Nat
  deriving DecidableEq, Repr

namespace FrameType

@[match_pattern] def padding : FrameType := ⟨0x00⟩
@[match_pattern] def ping : FrameType := ⟨0x04⟩
@[match_pattern] def ack : FrameType := ⟨0x08⟩
@[match_pattern] def connectionClose : FrameType := ⟨0x0C⟩
@[match_pattern] def stream : FrameType := ⟨0x10⟩
@[match_pattern] def resetStream : FrameType := ⟨0x14⟩
@[match_pattern] def stopSending : FrameType := ⟨0x18⟩
@[match_pattern] def maxData : FrameType := ⟨0x1C⟩
@[match_pattern] def maxStreamData : FrameType := ⟨0x20⟩
@[match_pattern] def maxStreams : FrameType := ⟨0x24⟩
@[match_pattern] def datagram : FrameType := ⟨0x28⟩
@[match_pattern] def newConnectionId : FrameType := ⟨0x2C⟩
@[match_pattern] def retireConnectionId : FrameType := ⟨0x30⟩
@[match_pattern] def pathChallenge : FrameType := ⟨0x34⟩
@[match_pattern] def pathResponse : FrameType := ⟨0x38⟩
@[match_pattern] def pathStatus : FrameType := ⟨0x3C⟩
@[match_pattern] def migrate : FrameType := ⟨0x40⟩
@[match_pattern] def keyUpdate : FrameType := ⟨0x44⟩
@[match_pattern] def routeRequest : FrameType := ⟨0x48⟩
@[match_pattern] def routeResponse : FrameType := ⟨0x4C⟩
@[match_pattern] def routeError : FrameType := ⟨0x50⟩
@[match_pattern] def relayOpen : FrameType := ⟨0x54⟩
@[match_pattern] def relayData : FrameType := ⟨0x58⟩
@[match_pattern] def relayClose : FrameType := ⟨0x5C⟩
@[match_pattern] def bundle : FrameType := ⟨0x60⟩
@[match_pattern] def bundleAck : FrameType := ⟨0x64⟩
@[match_pattern] def peerHint : FrameType := ⟨0x68⟩
@[match_pattern] def capabilities : FrameType := ⟨0x6C⟩
@[match_pattern] def auth : FrameType := ⟨0x70⟩
@[match_pattern] def handshakeData : FrameType := ⟨0x74⟩
@[match_pattern] def sessionTicket : FrameType := ⟨0x78⟩
@[match_pattern] def serviceHint : FrameType := ⟨0x7C⟩
@[match_pattern] def dhtLookup : FrameType := ⟨0x7F⟩
@[match_pattern] def relayStatus : FrameType := ⟨0x82⟩
@[match_pattern] def revocationBatch : FrameType := ⟨0x83⟩

end FrameType

inductive ExtensionBehavior where
  | criticalFixed | optionalFixed | criticalLengthDelimited | optionalLengthDelimited
  deriving DecidableEq, Repr

def FrameType.behavior (ty : FrameType) : ExtensionBehavior :=
  match ty.value &&& 0b11 with
  | 0b00 => .criticalFixed
  | 0b01 => .optionalFixed
  | 0b10 => .criticalLengthDelimited
  | _ => .optionalLengthDelimited

/-- `FrameError` of `umc-wire/src/frame.rs`. -/
inductive FrameError where
  | unknownCriticalFrame (ty : FrameType) | unknownOptionalFixedFrame (ty : FrameType)
  | invalidPadding | ackRangeUnderflow | tooManyAckRanges | ackDelayTooLarge
  | varint (e : Varint.DecodeError) | varintEncode (e : Varint.EncodeError) | truncated
  | lengthExceedsLimit | unsupportedLengthDelimited
  deriving DecidableEq, Repr

end UniversalMesh.Wire

/-! `umc-wire/src/bytes.rs`: length-prefixed byte strings. -/
namespace UniversalMesh.Wire.ByteString
open MachineWord

inductive BytesError where
  | varintTooLarge | lengthExceedsLimit | truncated
  deriving DecidableEq, Repr

def encode (out value : Bytes) (limit : Nat) : Except BytesError Bytes :=
  if value.length > limit then .error .lengthExceedsLimit
  else
    match Varint.encodeInto out value.length with
    | .error _ => .error .varintTooLarge
    | .ok out => .ok (out ++ value)

/-- `bytes::decode`: the value and the bytes consumed with its prefix. -/
def decode (buf : Bytes) (limit : Nat) : Except BytesError (Bytes × Nat) :=
  match Varint.decode buf with
  | .error _ => .error .truncated
  | .ok (len, n) =>
    if len > limit then .error .lengthExceedsLimit
    else
      match checkedAdd n len with
      | none => .error .truncated
      | some total =>
        if buf.length < total then .error .truncated
        else .ok ((buf.take total).drop n, total)

/-- The length prefix followed by the value. -/
def encoding (value : Bytes) : Bytes := Varint.encoding value.length ++ value

theorem encode_ok : encode out value limit = .ok result ↔
      value.length ≤ limit ∧ value.length ≤ Varint.maxVarint ∧ result = out ++ encoding value := by
  unfold encode encoding
  by_cases large : value.length > limit
  · simp [large]
  · have fits : value.length ≤ limit := by omega
    simp only [large, ↓reduceIte, fits, true_and]
    cases written : Varint.encodeInto out value.length with
    | error e =>
      have refused : ¬ value.length ≤ Varint.maxVarint := fun bound => by
        rw [Varint.encodeInto_ok.mpr ⟨bound, rfl⟩] at written
        cases written
      simp [refused]
    | ok prefixed =>
      obtain ⟨bound, rfl⟩ := Varint.encodeInto_ok.mp written
      simp [bound, eq_comm]

theorem decode_encoding (fits : value.length ≤ limit) (bound : value.length ≤ Varint.maxVarint)
    (suffix : Bytes) : decode (encoding value ++ suffix) limit = .ok (value, (encoding value).length) := by
  have width := Varint.encoding_length_le value.length
  have total : (Varint.encoding value.length).length + value.length ≤ u64Max := by
    unfold Varint.maxVarint at bound
    unfold u64Max
    omega
  have within : ¬ value.length > limit := by omega
  have enough : ¬ (Varint.encoding value.length ++ (value ++ suffix)).length <
      (Varint.encoding value.length).length + value.length := by
    simp only [List.length_append]
    omega
  unfold decode encoding
  rw [List.append_assoc, Varint.decode_encoding bound]
  simp only [within, ↓reduceIte, checkedAdd_of_le total, enough]
  rw [← List.append_assoc, ← List.length_append, List.take_left, List.drop_left]

end UniversalMesh.Wire.ByteString

/-! The field readers and writers every frame codec of `umc-wire` is made of. Each pair has one rule: what the
writer appended, the reader reads back, wherever it stands. -/
namespace UniversalMesh.Wire
open Reader

/-- `varint::encode_into(&mut out, v).map_err(FrameError::VarintEncode)?`. -/
def putVarint (v : Nat) (out : Bytes) : Except FrameError Bytes :=
  (Varint.encodeInto out v).mapError .varintEncode

/-- `bytes::encode(&mut out, value, limit).map_err(|_| LengthExceedsLimit)?`. -/
def putBytes (value : Bytes) (limit : Nat) (out : Bytes) : Except FrameError Bytes :=
  (ByteString.encode out value limit).mapError fun _ => .lengthExceedsLimit

/-- A reader of a frame body. -/
abbrev FieldReader := Reader FrameError UInt8

/-- `type || length || body`, the layout of a length-delimited frame. -/
def putDelimited (ty : FrameType) (body : Bytes) : Except FrameError Bytes := do
  let out ← putVarint ty.value []
  let out ← putVarint body.length out
  put body out

/-- `varint::decode(&body[pos..]).map_err(FrameError::Varint)?; pos += n`. -/
def readVarint : FieldReader Nat := fun body pos =>
  match Varint.decode (body.drop pos) with
  | .error e => .error (.varint e)
  | .ok (v, n) => .ok (v, pos + n)

/-- `bytes::decode(&body[pos..], limit).map_err(|_| Truncated)?; pos += n`. -/
def readBytes (limit : Nat) : FieldReader Bytes := fun body pos =>
  match ByteString.decode (body.drop pos) limit with
  | .error _ => .error .truncated
  | .ok (value, n) => .ok (value, pos + n)

/-- `*body.get(pos).ok_or(FrameError::Truncated)?; pos += 1`. -/
def readByte : FieldReader UInt8 := fun body pos =>
  match body[pos]? with
  | none => .error .truncated
  | some byte => .ok (byte, pos + 1)

/-- `body.get(pos..pos + len).ok_or(FrameError::Truncated)?; pos += len`. The source's `checked_add` refuses
with the same error, so the sum is a natural number here. -/
def readSlice (len : Nat) : FieldReader Bytes := fun body pos =>
  if pos + len ≤ body.length then .ok ((body.drop pos).take len, pos + len)
  else .error .truncated

/-- A byte array `[u8; n]`. -/
abbrev Octets (n : Nat) := { bytes : Bytes // bytes.length = n }

/-- `[byte; n]`. -/
def Octets.fill (n : Nat) (byte : UInt8) : Octets n := ⟨List.replicate n byte, List.length_replicate⟩

/-- `copy_from_slice(body.get(pos..pos + n).ok_or(FrameError::Truncated)?)`. -/
def readArray (n : Nat) : FieldReader (Octets n) := fun body pos =>
  if fits : pos + n ≤ body.length then
    .ok (⟨(body.drop pos).take n, by rw [List.length_take, List.length_drop]; omega⟩, pos + n)
  else .error .truncated

/-- `body.len() - pos`. -/
def remaining : FieldReader Nat := fun body pos => .ok (body.length - pos, pos)

/-- `if cond { flags |= mask }` for the masks `0x01, 0x02, 0x04, ..` in order. -/
def flagByte (bits : List Bool) : UInt8 :=
  (bits.zip [0x01, 0x02, 0x04, 0x08, 0x10, 0x20, 0x40]).foldl
    (fun flags entry => if entry.1 then flags ||| entry.2 else flags) 0

/-- `flags & mask != 0`. -/
def hasFlag (flags mask : UInt8) : Bool := flags &&& mask != 0

/-- `bytes` is the type followed by a body that `decode` reads back as `f` and
consumes exactly, whatever follows it. -/
def SelfDelimiting (ty : FrameType) (decode : Bytes → Except FrameError (F × Nat)) (f : F)
    (bytes : Bytes) : Prop :=
  ty.value ≤ Varint.maxVarint ∧ ∃ body, bytes = Varint.encoding ty.value ++ body ∧
    ∀ rest, body <+: rest → decode rest = .ok (f, body.length)

/-- The bytes are those of one frame. -/
theorem SelfDelimiting.unique (first : SelfDelimiting ty decode f bytes) (second : SelfDelimiting ty decode g bytes) :
    f = g := by
  obtain ⟨-, body, rfl, reads⟩ := first
  obtain ⟨-, other, same, decodes⟩ := second
  obtain rfl := List.append_cancel_left same
  have both := (reads body List.prefix_rfl).symm.trans (decodes body List.prefix_rfl)
  exact congrArg Prod.fst (Except.ok.inj both)

/-- `bytes` is the type followed by a body that `decode` reads back as `f` when
nothing follows it. -/
def EndDelimited (ty : FrameType) (decode : Bytes → Except FrameError (F × Nat)) (f : F)
    (bytes : Bytes) : Prop :=
  ty.value ≤ Varint.maxVarint ∧ ∃ body, bytes = Varint.encoding ty.value ++ body ∧
    decode body = .ok (f, body.length)

/-- `bytes` is the type, a length and a body of that length that `decode` reads
back as `f`. -/
def LengthDelimited (ty : FrameType) (decode : Bytes → Except FrameError (F × Nat)) (f : F)
    (bytes : Bytes) : Prop :=
  ty.value ≤ Varint.maxVarint ∧
    ∃ body, bytes = Varint.encoding ty.value ++ (Varint.encoding body.length ++ body) ∧
      body.length ≤ Varint.maxVarint ∧ decode body = .ok (f, body.length)

/-- `bytes` is the type followed by a body that `decode` refuses. -/
def Refused (ty : FrameType) (decode : Bytes → Except FrameError (F × Nat)) (bytes : Bytes) : Prop :=
  ty.value ≤ Varint.maxVarint ∧ ∃ body, bytes = Varint.encoding ty.value ++ body ∧ ∃ e, decode body = .error e

/-- `bytes` is the type, a length and a body of that length that `decode`
refuses. -/
def LengthRefused (ty : FrameType) (decode : Bytes → Except FrameError (F × Nat)) (bytes : Bytes) : Prop :=
  ty.value ≤ Varint.maxVarint ∧
    ∃ body, bytes = Varint.encoding ty.value ++ (Varint.encoding body.length ++ body) ∧
      body.length ≤ Varint.maxVarint ∧ ∃ e, decode body = .error e

theorem putVarint_ok :
    putVarint v out = .ok result ↔ v ≤ Varint.maxVarint ∧ result = out ++ Varint.encoding v := by
  rw [← Varint.encodeInto_ok, putVarint]
  cases Varint.encodeInto out v <;> simp [Except.mapError]

/-- A varint is written if it fits, and then the writer goes on behind it. -/
theorem putVarint_bind_isOk :
    (∃ result, (putVarint v out >>= next) = .ok result) ↔
      v ≤ Varint.maxVarint ∧ ∃ result, next (out ++ Varint.encoding v) = .ok result := by
  constructor
  · rintro ⟨result, written⟩
    obtain ⟨middle, wrote, continued⟩ := bind_ok.mp written
    obtain ⟨bound, rfl⟩ := putVarint_ok.mp wrote
    exact ⟨bound, result, continued⟩
  · rintro ⟨bound, result, continued⟩
    exact ⟨result, bind_ok.mpr ⟨_, putVarint_ok.mpr ⟨bound, rfl⟩, continued⟩⟩

theorem putBytes_ok : putBytes value limit out = .ok result ↔ value.length ≤ limit ∧
      value.length ≤ Varint.maxVarint ∧ result = out ++ ByteString.encoding value := by
  rw [← ByteString.encode_ok, putBytes]
  cases ByteString.encode out value limit <;> simp [Except.mapError]

theorem putBytes_bind_isOk :
    (∃ result, (putBytes value limit out >>= next) = .ok result) ↔
      value.length ≤ limit ∧ value.length ≤ Varint.maxVarint ∧
        ∃ result, next (out ++ ByteString.encoding value) = .ok result := by
  simp only [bind_ok, putBytes_ok]
  constructor
  · rintro ⟨result, _, ⟨fits, bound, rfl⟩, continued⟩
    exact ⟨fits, bound, result, continued⟩
  · rintro ⟨fits, bound, result, continued⟩
    exact ⟨result, _, ⟨fits, bound, rfl⟩, continued⟩

theorem reads_varint (bound : v ≤ Varint.maxVarint) : Reads readVarint v (Varint.encoding v) := by
  intro body pos held
  obtain ⟨rest, shape⟩ := held.drop
  rw [readVarint, shape, Varint.decode_encoding bound]

theorem reads_bytes (fits : value.length ≤ limit) (bound : value.length ≤ Varint.maxVarint) :
    Reads (readBytes limit) value (ByteString.encoding value) := by
  intro body pos held
  obtain ⟨rest, shape⟩ := held.drop
  rw [readBytes, shape, ByteString.decode_encoding fits bound]

theorem reads_byte : Reads readByte byte [byte] := by
  intro body pos held
  rw [readByte, held.head]
  rfl

theorem reads_slice : Reads (readSlice piece.length) piece piece := by
  intro body pos held
  rw [readSlice, if_pos held.end_le, held.take]

theorem carries_varint : Carries (putVarint v) readVarint v := by
  intro out result written
  obtain ⟨bound, rfl⟩ := putVarint_ok.mp written
  exact ⟨_, rfl, reads_varint bound⟩

theorem carries_bytes_within (within : limit ≤ readLimit) :
    Carries (putBytes value limit) (readBytes readLimit) value := by
  intro out result written
  obtain ⟨fits, bound, rfl⟩ := putBytes_ok.mp written
  exact ⟨_, rfl, reads_bytes (fits.trans within) bound⟩

theorem carries_bytes : Carries (putBytes value limit) (readBytes limit) value :=
  carries_bytes_within (Nat.le_refl limit)

theorem carries_byte : Carries (put [byte] : Writer FrameError UInt8) readByte byte :=
  .put reads_byte

theorem carries_slice : Carries (put piece : Writer FrameError UInt8) (readSlice piece.length) piece :=
  .put reads_slice

theorem carries_array (array : Octets n) :
    Carries (put array.val : Writer FrameError UInt8) (readArray n) array := by
  obtain ⟨piece, rfl⟩ := array
  refine .put fun body pos held => ?_
  rw [readArray, dif_pos held.end_le]
  simp only [held.take]

variable {F : Type} {ty : FrameType} {write : Writer FrameError UInt8} {reader : FieldReader F} {f : F} {bytes : Bytes}

/-- An encoder that writes its type and then a body its decoder reads back. -/
theorem SelfDelimiting.of_carries (body : Carries write reader f)
    (encoded : (putVarint ty.value [] >>= write) = .ok bytes) : SelfDelimiting ty (run reader) f bytes := by
  obtain ⟨typed, wrote, continued⟩ := bind_ok.mp encoded
  obtain ⟨known, rfl⟩ := putVarint_ok.mp wrote
  obtain ⟨piece, rfl, reads⟩ := body continued
  exact ⟨known, piece, by rw [List.nil_append], fun rest begins => reads.run begins⟩

theorem Refused.of_spoils (body : Spoils write reader) (encoded : (putVarint ty.value [] >>= write) = .ok bytes) :
    Refused ty (run reader) bytes := by
  obtain ⟨typed, wrote, continued⟩ := bind_ok.mp encoded
  obtain ⟨known, rfl⟩ := putVarint_ok.mp wrote
  obtain ⟨piece, rfl, refuses⟩ := body continued
  exact ⟨known, piece, by rw [List.nil_append], refuses.run List.prefix_rfl⟩

variable {next : Bytes → FieldReader F}

/-- A length taken from what is left of the body reads all that is left. -/
theorem readsToEnd_remaining (follows : (next data).Reads f []) :
    ReadsToEnd (remaining >>= fun len => readSlice len >>= next) f data := by
  intro body pos within left
  have size := congrArg List.length left
  rw [List.length_drop] at size
  have sliced := (reads_slice.bind follows).toEnd within (by rw [left, List.append_nil])
  simpa only [Bind.bind, remaining, size] using sliced

/-- Behind a length taken from what is left, nothing is left to read. -/
theorem refuses_behind_remaining (follows : ∀ data body, ∃ e, next data body body.length = .error e) :
    Refuses (remaining >>= fun len => readSlice len >>= next) piece := by
  intro body pos held
  have ends : pos + (body.length - pos) = body.length := Nat.add_sub_cancel' held.1
  obtain ⟨e, failed⟩ := follows ((body.drop pos).take (body.length - pos)) body
  refine ⟨e, ?_⟩
  simp only [Bind.bind, remaining, readSlice, ends, Nat.le_refl, if_true, failed]

theorem readBytes_at_end (limit : Nat) (body : Bytes) : readBytes limit body body.length = .error .truncated := by
  simp [readBytes, ByteString.decode, Varint.decode]

theorem EndDelimited.of_carries (body : CarriesToEnd write reader f)
    (encoded : (putVarint ty.value [] >>= write) = .ok bytes) : EndDelimited ty (run reader) f bytes := by
  obtain ⟨typed, wrote, continued⟩ := bind_ok.mp encoded
  obtain ⟨known, rfl⟩ := putVarint_ok.mp wrote
  obtain ⟨piece, rfl, reads⟩ := body continued
  exact ⟨known, piece, by rw [List.nil_append], reads.run⟩

theorem putDelimited_ok (written : putDelimited ty body = .ok bytes) : ty.value ≤ Varint.maxVarint ∧
      bytes = Varint.encoding ty.value ++ (Varint.encoding body.length ++ body) ∧
        body.length ≤ Varint.maxVarint := by
  obtain ⟨typed, wrote, continued⟩ := bind_ok.mp written
  obtain ⟨known, rfl⟩ := putVarint_ok.mp wrote
  obtain ⟨sized, counted, rest⟩ := bind_ok.mp continued
  obtain ⟨bound, rfl⟩ := putVarint_ok.mp counted
  cases rest
  exact ⟨known, by simp only [List.nil_append, List.append_assoc], bound⟩

/-- A body built first and then framed by its type and length. -/
theorem LengthDelimited.of_carries (carried : Carries write reader f)
    (encoded : (write [] >>= putDelimited ty) = .ok bytes) : LengthDelimited ty (run reader) f bytes := by
  obtain ⟨body, built, framed⟩ := bind_ok.mp encoded
  obtain ⟨piece, rfl, reads⟩ := carried built
  obtain ⟨known, rfl, bound⟩ := putDelimited_ok framed
  exact ⟨known, body, rfl, bound, reads.run (List.prefix_refl body)⟩

theorem LengthRefused.of_spoils (spoilt : Spoils write reader) (encoded : (write [] >>= putDelimited ty) = .ok bytes) :
    LengthRefused ty (run reader) bytes := by
  obtain ⟨body, built, framed⟩ := bind_ok.mp encoded
  obtain ⟨piece, rfl, refuses⟩ := spoilt built
  obtain ⟨known, rfl, bound⟩ := putDelimited_ok framed
  exact ⟨known, _, rfl, bound, refuses.run List.prefix_rfl⟩

theorem one_flag : ∀ a : Bool, hasFlag (flagByte [a]) 0xFE = false ∧
    hasFlag (flagByte [a]) 0x01 = a := by
  decide

theorem three_flags : ∀ a b c : Bool, let flags := flagByte [a, b, c]
    hasFlag flags 0xF8 = false ∧ hasFlag flags 0x01 = a ∧ hasFlag flags 0x02 = b ∧
    hasFlag flags 0x04 = c := by
  decide

theorem four_flags : ∀ a b c d : Bool, let flags := flagByte [a, b, c, d]
    hasFlag flags 0xF0 = false ∧ hasFlag flags 0x01 = a ∧ hasFlag flags 0x02 = b ∧
    hasFlag flags 0x04 = c ∧ hasFlag flags 0x08 = d := by
  decide

theorem five_flags : ∀ a b c d e : Bool, let flags := flagByte [a, b, c, d, e]
    hasFlag flags 0xE0 = false ∧ hasFlag flags 0x01 = a ∧ hasFlag flags 0x02 = b ∧
    hasFlag flags 0x04 = c ∧ hasFlag flags 0x08 = d ∧ hasFlag flags 0x10 = e := by
  decide

theorem six_flags : ∀ a b c d e f : Bool, let flags := flagByte [a, b, c, d, e, f]
    hasFlag flags 0xC0 = false ∧ hasFlag flags 0x01 = a ∧ hasFlag flags 0x02 = b ∧
    hasFlag flags 0x04 = c ∧ hasFlag flags 0x08 = d ∧ hasFlag flags 0x10 = e ∧
    hasFlag flags 0x20 = f := by
  decide

theorem seven_flags : ∀ a b c d e f g : Bool, let flags := flagByte [a, b, c, d, e, f, g]
    hasFlag flags 0x80 = false ∧ hasFlag flags 0x01 = a ∧ hasFlag flags 0x02 = b ∧
    hasFlag flags 0x04 = c ∧ hasFlag flags 0x08 = d ∧ hasFlag flags 0x10 = e ∧ hasFlag flags 0x20 = f ∧
    hasFlag flags 0x40 = g := by
  decide

end UniversalMesh.Wire
