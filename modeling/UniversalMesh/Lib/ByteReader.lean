import UniversalMesh.Lib.Codec
import UniversalMesh.Lib.MachineWord

/-! Readers of bytes for formats of fixed fields, with one error, chosen by the caller, for a body that ends too
early. Each has one rule: the bytes of a value are read back as the value, wherever they stand. -/
namespace UniversalMesh.ByteReader
open MachineWord Reader

variable {ε : Type} (short : ε)

def byte : Reader ε UInt8 UInt8 := fun body pos =>
  match body[pos]? with
  | none => .error short
  | some value => .ok (value, pos + 1)

def slice (length : Nat) : Reader ε UInt8 (List UInt8) := fun body pos =>
  if pos + length ≤ body.length then .ok ((body.drop pos).take length, pos + length)
  else .error short

theorem length_window {body : List UInt8} (fits : pos + n ≤ body.length) :
    ((body.drop pos).take n).length = n := by
  rw [List.length_take, List.length_drop]
  omega

def array (n : Nat) : Reader ε UInt8 { bytes : List UInt8 // bytes.length = n } := fun body pos =>
  if fits : pos + n ≤ body.length then .ok (⟨(body.drop pos).take n, length_window fits⟩, pos + n)
  else .error short

/-- `u64::from_be_bytes` of the next eight bytes. -/
def word64 : Reader ε UInt8 UInt64 := do
  let digits ← array short 8
  pure (UInt64.ofNat (fromBeBytes digits.val))

/-- `usize::from` of the next byte, as a length. -/
def length8 : Reader ε UInt8 Nat := do
  let digit ← byte short
  pure digit.toNat

/-- `u16::from_be_bytes` of the next two bytes, as a length. -/
def length16 : Reader ε UInt8 Nat := do
  let digits ← array short 2
  pure (fromBeBytes digits.val)

/-- `str::as_bytes`. -/
def textBytes (text : String) : List UInt8 := text.toUTF8.data.toList

/-- `String::from_utf8`. -/
def textOf? (bytes : List UInt8) : Option String := String.fromUTF8? ⟨bytes.toArray⟩

/-- A computation that reads nothing. -/
def lift {α : Type} (result : Except ε α) : Reader ε UInt8 α := fun _ pos =>
  result.map fun value => (value, pos)

/-- A bounded body that one record fills, followed by a check of the record. -/
def decodeWhole {α : Type} (limit : Nat) (oversized trailing : ε) (reader : Reader ε UInt8 α)
    (check : α → Except ε Unit) (bytes : List UInt8) : Except ε α := do
  refuse (bytes.length > limit) oversized
  let (value, offset) ← reader.run bytes
  refuse (offset ≠ bytes.length) trailing
  check value
  .ok value

variable (word : UInt64)

/-- `u64::to_be_bytes`. -/
def wordBytes : List UInt8 := toBeBytes 8 word.toNat

@[simp] theorem wordBytes_length : (wordBytes word).length = 8 :=
  toBeBytes_length 8 word.toNat

theorem ofNat_wordBytes : UInt64.ofNat (fromBeBytes (wordBytes word)) = word := by
  have bound : word.toNat < 256 ^ 8 := word.toNat_lt
  rw [wordBytes, fromBeBytes_toBeBytes, Nat.mod_eq_of_lt bound, UInt64.ofNat_toNat]

theorem byte_reads (value : UInt8) : Reads (byte short) value [value] := by
  intro body pos held
  rw [byte, held.head]
  rfl

theorem byte_run_ok
    (read : byte short body pos = .ok (value, mid)) : Holds body pos [value] ∧ mid = pos + 1 := by
  unfold byte at read
  split at read
  · cases read
  · next found =>
    cases read
    obtain ⟨within, rfl⟩ := List.getElem?_eq_some_iff.mp found
    refine ⟨⟨within.le, body.drop (pos + 1), ?_⟩, rfl⟩
    rw [List.drop_eq_getElem_cons within]
    rfl

theorem length8_reads (bound : length < 256) : Reads (length8 short) length [UInt8.ofNat length] :=
  (byte_reads short _).bind (.made (UInt8.toNat_ofNat_of_lt' bound))

theorem length8_run_ok (read : length8 short body pos = .ok (length, mid)) :
    Holds body pos [UInt8.ofNat length] ∧ mid = pos + 1 := by
  obtain ⟨digit, _, read, made⟩ := bind_run_ok.mp read
  cases made
  rw [UInt8.ofNat_toNat]
  exact byte_run_ok short read

theorem slice_run_ok (read : slice short length body pos = .ok (piece, mid)) :
    piece.length = length ∧ Holds body pos piece ∧ mid = pos + piece.length := by
  unfold slice at read
  split at read
  · next fits =>
    cases read
    rw [length_window fits]
    exact ⟨rfl, ⟨by omega, List.take_prefix _ _⟩, rfl⟩
  · cases read

theorem slice_reads (piece : List UInt8) : Reads (slice short piece.length) piece piece := by
  intro body pos held
  rw [slice, if_pos held.end_le, held.take]

theorem array_reads (value : { bytes : List UInt8 // bytes.length = n }) :
    Reads (array short n) value value.val := by
  obtain ⟨piece, rfl⟩ := value
  intro body pos held
  rw [array, dif_pos held.end_le]
  simp only [held.take]

theorem word64_reads : Reads (word64 short) word (wordBytes word) := by
  have digits := array_reads short ⟨wordBytes word, wordBytes_length word⟩
  have reads : Reads (word64 short) word (wordBytes word ++ []) := digits.bind (.made (ofNat_wordBytes word))
  rwa [List.append_nil] at reads

theorem length16_reads (bound : length < 65536) : Reads (length16 short) length (toBeBytes 2 length) := by
  have digits := array_reads short ⟨toBeBytes 2 length, toBeBytes_length 2 length⟩
  have whole : fromBeBytes (toBeBytes 2 length) = length := by
    rw [fromBeBytes_toBeBytes]
    exact Nat.mod_eq_of_lt bound
  have reads : Reads (length16 short) length (toBeBytes 2 length ++ []) := digits.bind (.made whole)
  rwa [List.append_nil] at reads

theorem lift_reads (made : result = .ok value) : Reads (lift result) value [] := by
  intro body pos _
  rw [made]
  rfl

theorem lift_run_ok : lift result body pos = .ok (value, mid) ↔ result = .ok value ∧ mid = pos := by
  cases result with
  | error e => simp [lift, Except.map]
  | ok made => simp [lift, Except.map, eq_comm]

theorem decodeWhole_ok (fits : bytes.length ≤ limit) (reads : Reads reader value bytes)
    (sound : check value = .ok ()) : decodeWhole limit oversized trailing reader check bytes = .ok value := by
  rw [decodeWhole, refuse_bind_ok, reads.run (List.prefix_refl bytes)]
  refine ⟨decide_eq_false (Nat.not_lt.mpr fits), ?_⟩
  simp [sound, refuse]

end UniversalMesh.ByteReader
