import UniversalMesh.Wire.Frame

/-! Payload round trip: parsing the concatenated encodings of a list of frames returns the list. -/
namespace UniversalMesh.Wire
open MachineWord Reader

/-- A byte slice: no allocation is longer than `isize::MAX`. -/
structure Slice where
  bytes : Bytes
  addressable : bytes.length ≤ isizeMax

namespace Frame

/-- One iteration of the parser reads `bytes` as `frame`, wherever it stands. -/
def Parses (frame : Frame) (bytes : Bytes) : Prop :=
  ∀ ⦃payload : Bytes⦄ ⦃pos : Nat⦄, payload.length ≤ isizeMax → Holds payload pos bytes →
    decodeNext payload pos = .ok (some frame, pos + bytes.length)

/-- One iteration reads `bytes` as `frame` when nothing follows. -/
def ParsesAtEnd (frame : Frame) (bytes : Bytes) : Prop :=
  ∀ ⦃payload : Bytes⦄ ⦃pos : Nat⦄, pos ≤ payload.length → payload.drop pos = bytes →
    decodeNext payload pos = .ok (some frame, payload.length)

variable {F : Type} {ty : FrameType} {decode : Bytes → Except FrameError (F × Nat)} {f : F}
variable {make : F → Frame} {bytes : Bytes}

variable {payload : Bytes} {pos : Nat}

theorem decodeNext_fixed (delimited : SelfDelimiting ty decode f bytes) (fixed : ty.behavior = .criticalFixed)
    (dispatch : ∀ rest, decodeFixed ty rest = decodeAs make (decode rest)) (held : Holds payload pos bytes) :
    decodeNext payload pos = .ok (some (make f), pos + bytes.length) := by
  obtain ⟨known, body, rfl, reads⟩ := delimited
  obtain ⟨typed, rest⟩ := held.append
  simp only [decodeNext, reads_varint known typed, ok_bind, fixed, dispatch, decodeAs,
    reads _ rest.2, List.length_append, Nat.add_assoc]

theorem parses_fixed (delimited : SelfDelimiting ty decode f bytes) (fixed : ty.behavior = .criticalFixed)
    (dispatch : ∀ rest, decodeFixed ty rest = decodeAs make (decode rest)) : Parses (make f) bytes :=
  fun _ _ _ held => decodeNext_fixed delimited fixed dispatch held

theorem parses_fixed_at_end (delimited : EndDelimited ty decode f bytes)
    (fixed : ty.behavior = .criticalFixed)
    (dispatch : ∀ rest, decodeFixed ty rest = decodeAs make (decode rest)) : ParsesAtEnd (make f) bytes := by
  obtain ⟨known, body, rfl, reads⟩ := delimited
  intro payload pos within left
  have typed : Holds payload pos (Varint.encoding ty.value) := ⟨within, body, left.symm⟩
  have behind : payload.drop (pos + (Varint.encoding ty.value).length) = body := by
    rw [← List.drop_drop, left, List.drop_left]
  have size := congrArg List.length left
  rw [List.length_drop, List.length_append] at size
  have ends : pos + (Varint.encoding ty.value).length + body.length = payload.length := by omega
  simp only [decodeNext, reads_varint known typed, ok_bind, fixed, dispatch, decodeAs, behind, reads, ends]

theorem parses_optional (delimited : LengthDelimited ty decode f bytes)
    (optional : ty.behavior = .optionalLengthDelimited)
    (dispatch : ∀ body len, decode body = .ok (f, len) → decodeOptional ty body len = .ok (some (make f))) :
    Parses (make f) bytes := by
  obtain ⟨known, body, rfl, bound, reads⟩ := delimited
  intro payload pos small held
  obtain ⟨typed, rest⟩ := held.append
  obtain ⟨sized, standing⟩ := rest.append
  have within := standing.end_le
  have representable : pos + (Varint.encoding ty.value).length +
      (Varint.encoding body.length).length + body.length ≤ u64Max := by
    unfold isizeMax at small
    unfold u64Max
    omega
  have cut : (payload.take (pos + (Varint.encoding ty.value).length +
      (Varint.encoding body.length).length + body.length)).drop
      (pos + (Varint.encoding ty.value).length + (Varint.encoding body.length).length) = body := by
    rw [List.drop_take, Nat.add_sub_cancel_left, standing.take]
  simp only [decodeNext, reads_varint known typed, ok_bind, optional, reads_varint bound sized,
    checkedAdd_of_le representable, gt_iff_lt, Nat.not_lt.mpr within, if_false, cut,
    dispatch body body.length reads]
  simp only [List.length_append, Nat.add_assoc]

theorem parses_bare (fixed : ty.behavior = .criticalFixed)
    (dispatch : ∀ rest, decodeFixed ty rest = .ok (frame, 0))
    (encoded : putVarint ty.value [] = .ok bytes) : Parses frame bytes := by
  obtain ⟨known, rfl⟩ := putVarint_ok.mp encoded
  intro payload pos _ held
  simp only [List.nil_append] at held
  simp only [decodeNext, reads_varint known held, ok_bind, fixed, dispatch, Nat.add_zero, List.nil_append]

theorem parses_relay_status {f : RelayStatusFrame}
    (delimited : SelfDelimiting .relayStatus RelayStatusFrame.decodeLengthDelimited f bytes) :
    Parses (relayStatus f) bytes := by
  obtain ⟨known, body, rfl, reads⟩ := delimited
  intro payload pos _ held
  obtain ⟨typed, rest⟩ := held.append
  have critical : FrameType.relayStatus.behavior = .criticalLengthDelimited := rfl
  simp only [decodeNext, reads_varint known typed, ok_bind, critical, if_true,
    reads _ rest.2, List.length_append, Nat.add_assoc]

/-- What a frame promises beyond what its encoder checks. -/
def Promises : Frame → Prop
  | ack f => f.NonEmptyRanges
  | stream f => f.WellFlagged
  | dhtLookup f => ∀ record ∈ f.records, record.WellSized
  | _ => True

/-- Only a STREAM frame without its length does not delimit itself. -/
def Delimited : Frame → Prop
  | stream f => f.lenPresent = true
  | _ => True

/-- The encoding of every delimited frame parses back, whatever follows it. -/
theorem parses_of_encode (promises : frame.Promises) (delimited : frame.Delimited)
    (encoded : frame.encode = .ok bytes) : Parses frame bytes := by
  cases frame with
  | padding => exact parses_bare rfl (fun _ => rfl) encoded
  | ping => exact parses_bare rfl (fun _ => rfl) encoded
  | ack f => exact parses_fixed (f.round_trip promises encoded) rfl fun _ => rfl
  | stream f =>
    exact parses_fixed (f.round_trip promises delimited encoded) rfl fun _ => rfl
  | relayStatus f => exact parses_relay_status (f.round_trip encoded)
  | dhtLookup f =>
    refine parses_optional (f.round_trip promises encoded) rfl fun body len reads => ?_
    simp [decodeOptional, reads, refuse]
  | revocationBatch f =>
    refine parses_optional (f.round_trip encoded) rfl fun body len reads => ?_
    simp [decodeOptional, reads, refuse, FrameType.revocationBatch, FrameType.dhtLookup]
  | _ f => exact parses_fixed (f.round_trip encoded) rfl fun _ => rfl

theorem decodeFramesFrom_step (inside : pos < payload.length)
    (decoded : decodeNext payload pos = .ok (some frame, next)) :
    decodeFramesFrom payload pos out = decodeFramesFrom payload next (out ++ [frame]) := by
  rw [decodeFramesFrom, if_pos inside]
  split
  · simp_all
  · simp_all

theorem decodeFramesFrom_end (outside : payload.length ≤ pos) : decodeFramesFrom payload pos out = .ok out := by
  rw [decodeFramesFrom, if_neg (Nat.not_lt.mpr outside)]

theorem Parses.nonempty (parses : Parses frame bytes) : bytes ≠ [] := by
  rintro rfl
  have read := @parses [] 0 (Nat.zero_le _) ⟨Nat.le_refl 0, List.prefix_refl []⟩
  exact absurd (decodeNext_advances read) (Nat.lt_irrefl 0)

theorem ParsesAtEnd.nonempty (parses : ParsesAtEnd frame bytes) : bytes ≠ [] := by
  rintro rfl
  have read := parses (Nat.le_refl ([] : Bytes).length) rfl
  exact absurd (decodeNext_advances read) (Nat.lt_irrefl 0)

/-- A STREAM frame without its length is followed by nothing and is not OPEN. -/
def OpenEndedLast (frames : List Frame) : Prop :=
  ∀ before f after, frames = before ++ stream f :: after →
    f.lenPresent = true ∨ after = [] ∧ f.isOpen = false

theorem OpenEndedLast.tail (last : OpenEndedLast (frame :: frames)) : OpenEndedLast frames :=
  fun before f after shape => last (frame :: before) f after (by rw [shape, List.cons_append])

/-- The first frame of a payload delimits itself, or it is the whole payload. -/
theorem parses_first (promises : frame.Promises) (last : OpenEndedLast (frame :: frames))
    (encoded : frame.encode = .ok bytes) : Parses frame bytes ∨ frames = [] ∧ ParsesAtEnd frame bytes := by
  by_cases delimited : frame.Delimited
  · exact .inl (parses_of_encode promises delimited encoded)
  · cases frame with
    | stream f =>
      obtain sized | ⟨alone, closed⟩ := last [] f frames rfl
      · exact absurd sized delimited
      · refine .inr ⟨alone, ?_⟩
        have delimitedAtEnd := f.round_trip_at_end promises (by simpa [Delimited] using delimited)
          closed encoded
        exact parses_fixed_at_end delimitedAtEnd rfl fun _ => rfl
    | _ => exact absurd trivial delimited

/-- The loop reads encodings that stand one behind another, frame by frame. -/
theorem decodeFramesFrom_encodings (small : payload.length ≤ isizeMax)
    (encoded : List.Forall₂ (fun frame piece => frame.encode = .ok piece) frames pieces)
    (promises : ∀ frame ∈ frames, frame.Promises) (last : OpenEndedLast frames)
    (within : pos ≤ payload.length) (left : payload.drop pos = pieces.flatten) :
    decodeFramesFrom payload pos out = .ok (out ++ frames) := by
  induction encoded generalizing pos out with
  | nil =>
    have done : payload.length ≤ pos := List.drop_eq_nil_iff.mp left
    rw [decodeFramesFrom_end done, List.append_nil]
  | @cons frame piece frames pieces first others ih =>
    have size := congrArg List.length left
    rw [List.length_drop, List.flatten_cons, List.length_append] at size
    obtain parses | ⟨rfl, parses⟩ := parses_first (promises _ List.mem_cons_self) last first
    · have held : Holds payload pos piece := ⟨within, pieces.flatten, left.symm⟩
      have width := List.length_pos_iff.mpr parses.nonempty
      have behind : payload.drop (pos + piece.length) = pieces.flatten := by
        rw [← List.drop_drop, left, List.flatten_cons, List.drop_left]
      rw [decodeFramesFrom_step (by omega) (parses small held),
        ih (fun other member => promises other (List.mem_cons_of_mem _ member)) last.tail
          held.end_le behind, List.append_assoc, List.singleton_append]
    · cases others
      rw [List.flatten_cons, List.flatten_nil, List.append_nil] at left
      have width := List.length_pos_iff.mpr parses.nonempty
      rw [decodeFramesFrom_step (by omega) (parses within left), decodeFramesFrom_end (Nat.le_refl _)]

theorem decodeFrames_alone (delimited : SelfDelimiting ty decode f bytes)
    (fixed : ty.behavior = .criticalFixed)
    (dispatch : ∀ rest, decodeFixed ty rest = decodeAs make (decode rest)) :
    decodeFrames bytes = .ok [make f] := by
  have read := decodeNext_fixed delimited fixed dispatch
    (⟨Nat.zero_le _, List.prefix_refl bytes⟩ : Holds bytes 0 bytes)
  have inside : 0 < bytes.length := by
    have := decodeNext_advances read
    omega
  rw [decodeFrames, decodeFramesFrom_step inside read, decodeFramesFrom_end (by omega)]
  rfl

end Frame

/-- Parsing the concatenated encodings of any list of frames that keep their promises returns exactly the list.
-/
theorem decodeFrames_round_trip (frames : List Frame) (pieces : List Bytes)
    (encoded : List.Forall₂ (fun frame piece => frame.encode = .ok piece) frames pieces)
    (promises : ∀ frame ∈ frames, frame.Promises) (last : Frame.OpenEndedLast frames) (payload : Slice)
    (whole : payload.bytes = pieces.flatten) : decodeFrames payload.bytes = .ok frames :=
  Frame.decodeFramesFrom_encodings payload.addressable encoded promises last (Nat.zero_le _)
    (by rw [List.drop_zero, whole])

/-- An ACK, an OPEN STREAM frame with its length and a STREAM frame that runs to
the end of the packet. -/
def samplePayload : List Frame :=
  [.ack { largestAcknowledged := 100, ackDelay := 5, firstAckRange := 3,
          additionalRanges := [{ gap := 2, length := 4 }] },
   .stream { streamId := 0, fin := false, offsetPresent := false, lenPresent := true,
             isOpen := true, unidirectional := false, offset := 0, data := [1, 2],
             protocolId := [7], metadata := [] },
   .stream { streamId := 4, fin := true, offsetPresent := true, lenPresent := false,
             isOpen := false, unidirectional := false, offset := 9, data := [3],
             protocolId := [], metadata := [] }]

def samplePieces : List Bytes :=
  [[0x08, 0x40, 0x64, 0x05, 0x02, 0x03, 0x02, 0x04], [0x10, 0x00, 0x0C, 0x02, 1, 2, 0x01, 7, 0x00],
   [0x10, 0x04, 0x03, 0x09, 3]]

theorem decodeFrames_round_trip_sample : decodeFrames samplePieces.flatten = .ok samplePayload := by
  refine decodeFrames_round_trip samplePayload samplePieces ?_ ?_ ?_ ⟨_, by decide⟩ rfl
  · exact .cons (by decide) (.cons (by decide) (.cons (by decide) .nil))
  · simp [samplePayload, Frame.Promises, AckFrame.NonEmptyRanges, StreamFrame.WellFlagged, u32Max]
  · intro before f after shape
    match before with
    | [] => cases shape
    | [_] => cases shape; exact .inl rfl
    | [_, _] => cases shape; exact .inr ⟨rfl, rfl⟩
    | _ :: _ :: _ :: _ => simp [samplePayload] at shape

/-! What an encoder emits, put in a payload of its own, in front of the parser. Three encoders check less than
their decoders. -/

namespace Frame

variable {F : Type} {ty : FrameType} {decode : Bytes → Except FrameError (F × Nat)}
variable {bytes : Bytes}

/-- The decoder takes the encoding, if perhaps not as the same frame. -/
def ReadsBack : Frame → Prop
  | ack f => f.NonEmptyRanges
  | stream f => f.Delimits
  | dhtLookup f => ∀ record ∈ f.records, record.WellSized
  | _ => True

/-- The parser takes the payload and finds a frame in it. -/
def Accepted (bytes : Bytes) : Prop := ∃ frames, decodeFrames bytes = .ok frames ∧ frames ≠ []

theorem accepted_of_decodeNext (read : decodeNext bytes 0 = .ok (some frame, bytes.length)) :
    Accepted bytes := by
  refine ⟨[frame], ?_, List.cons_ne_nil _ _⟩
  have inside : 0 < bytes.length := decodeNext_advances read
  rw [decodeFrames, decodeFramesFrom_step inside read, decodeFramesFrom_end (Nat.le_refl _)]
  rfl

theorem Parses.accepted (parses : Parses frame bytes) (small : bytes.length ≤ isizeMax) : Accepted bytes := by
  have read := parses small (⟨Nat.zero_le _, List.prefix_rfl⟩ : Holds bytes 0 bytes)
  rw [Nat.zero_add] at read
  exact accepted_of_decodeNext read

theorem ParsesAtEnd.accepted (parses : ParsesAtEnd frame bytes) : Accepted bytes :=
  accepted_of_decodeNext (parses (Nat.zero_le _) rfl)

theorem not_accepted_of_decodeNext (failed : decodeNext bytes 0 = .error e) : ¬ Accepted bytes := by
  rintro ⟨frames, decoded, found⟩
  rw [decodeFrames, decodeFramesFrom] at decoded
  split at decoded
  · split at decoded <;> simp_all
  · cases decoded
    exact found rfl

theorem holds_front : Holds (first ++ second) 0 first :=
  ⟨Nat.zero_le _, second, rfl⟩

theorem not_accepted_fixed (make : F → Frame) (refused : Refused ty decode bytes)
    (fixed : ty.behavior = .criticalFixed)
    (dispatch : ∀ rest, decodeFixed ty rest = decodeAs make (decode rest)) : ¬ Accepted bytes := by
  obtain ⟨known, body, rfl, e, failed⟩ := refused
  apply not_accepted_of_decodeNext (e := e)
  simp only [decodeNext, reads_varint known holds_front, ok_bind, fixed, Nat.zero_add,
    List.drop_left, dispatch, decodeAs, failed]
  rfl

theorem not_accepted_dhtLookup (refused : LengthRefused .dhtLookup DhtLookupFrame.decode bytes)
    (small : bytes.length ≤ isizeMax) : ¬ Accepted bytes := by
  obtain ⟨known, body, rfl, bound, e, failed⟩ := refused
  have held : Holds (Varint.encoding FrameType.dhtLookup.value ++ (Varint.encoding body.length ++ body)) 0
      (Varint.encoding FrameType.dhtLookup.value ++ (Varint.encoding body.length ++ body)) :=
    ⟨Nat.zero_le _, List.prefix_rfl⟩
  obtain ⟨typed, rest⟩ := held.append
  obtain ⟨sized, standing⟩ := rest.append
  have within := standing.end_le
  have representable := within.trans (small.trans (by decide : isizeMax ≤ u64Max))
  apply not_accepted_of_decodeNext (e := e)
  simp only [decodeNext, reads_varint known typed, ok_bind, reads_varint bound sized,
    checkedAdd_of_le representable, gt_iff_lt, Nat.not_lt.mpr within, if_false, List.drop_take,
    Nat.add_sub_cancel_left, standing.take, decodeOptional, if_true, failed]
  rfl

theorem stream_accepted_iff (f : StreamFrame) (encoded : f.encode = .ok bytes) (small : bytes.length ≤ isizeMax) :
    Accepted bytes ↔ f.Delimits := by
  by_cases delimits : f.Delimits
  · refine iff_of_true ?_ delimits
    unfold StreamFrame.Delimits at delimits
    cases sized : f.lenPresent with
    | true =>
      have arrived := StreamFrame.arrives sized (by simpa [sized] using delimits) encoded
      have parses : Parses (stream f.asSent) bytes := parses_fixed arrived rfl fun _ => rfl
      exact parses.accepted small
    | false =>
      have arrived := StreamFrame.arrives_at_end sized (by simpa [sized] using delimits) encoded
      have parses : ParsesAtEnd (stream f.asSent) bytes := parses_fixed_at_end arrived rfl fun _ => rfl
      exact parses.accepted
  · refine iff_of_false ?_ delimits
    exact not_accepted_fixed stream (StreamFrame.refused delimits encoded) rfl fun _ => rfl

end Frame

/-- The parser accepts what an encoder emits, as a payload of its own, exactly if an ACK has no empty range, a
STREAM frame has its length where the decoder needs it and the records of a DHT_LOOKUP have the sizes the
decoder demands. -/
theorem own_decoder_accepts_iff (frame : Frame) (bytes : Slice) (encoded : frame.encode = .ok bytes.bytes) :
    (∃ frames, decodeFrames bytes.bytes = .ok frames ∧ frames ≠ []) ↔ frame.ReadsBack := by
  have accepted : frame.Promises → frame.Delimited → Frame.Accepted bytes.bytes := fun promises delimited =>
    (Frame.parses_of_encode promises delimited encoded).accepted bytes.addressable
  cases frame with
  | ack f =>
    by_cases nonEmpty : f.NonEmptyRanges
    · exact iff_of_true (accepted nonEmpty trivial) nonEmpty
    · refine iff_of_false ?_ nonEmpty
      exact Frame.not_accepted_fixed Frame.ack (AckFrame.refused nonEmpty encoded) rfl fun _ => rfl
  | stream f => exact Frame.stream_accepted_iff f encoded bytes.addressable
  | dhtLookup f =>
    by_cases sized : ∀ record ∈ f.records, record.WellSized
    · exact iff_of_true (accepted sized trivial) sized
    · refine iff_of_false ?_ sized
      exact Frame.not_accepted_dhtLookup (DhtLookupFrame.refused sized encoded) bytes.addressable
  | _ => exact iff_of_true (accepted trivial trivial) trivial

/-- The first frame of a stream, with its length or without. -/
def openFrame (lenPresent : Bool) : StreamFrame :=
  { streamId := 0, fin := false, offsetPresent := false, lenPresent, isOpen := true, unidirectional := false,
    offset := 0, data := [1], protocolId := [7], metadata := [] }

theorem own_decoder_accepts_open :
    ∃ frames, decodeFrames [0x10, 0x00, 0x0C, 0x01, 1, 0x01, 7, 0x00] = .ok frames ∧ frames ≠ [] := by
  apply (own_decoder_accepts_iff (.stream (openFrame true)) ⟨_, by decide⟩ (by decide)).mpr
  simp [Frame.ReadsBack, StreamFrame.Delimits, openFrame, u32Max]

/-- An ACK whose first range is empty is emitted and refused, and so is an OPEN STREAM frame
without its length. -/
theorem refused_encodings :
    (Frame.ack { largestAcknowledged := 5, ackDelay := 0, firstAckRange := 0, additionalRanges := [] }).encode =
        .ok [0x08, 0x05, 0x00, 0x01, 0x00] ∧
      decodeFrames [0x08, 0x05, 0x00, 0x01, 0x00] = .error .ackRangeUnderflow ∧
      (Frame.stream (openFrame false)).encode = .ok [0x10, 0x00, 0x08, 1, 0x01, 7, 0x00] ∧
      decodeFrames [0x10, 0x00, 0x08, 1, 0x01, 7, 0x00] = .error .truncated := by
  decide +kernel

end UniversalMesh.Wire
