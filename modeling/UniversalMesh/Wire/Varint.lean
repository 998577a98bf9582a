import UniversalMesh.Lib.MachineWord

/-! `umc-wire/src/varint.rs`: canonical variable-width integers of one, two,
four or eight bytes, the width standing in the top two bits of the first. -/
namespace UniversalMesh.Wire

abbrev Bytes := List UInt8

namespace Varint
open MachineWord

def maxVarint : Nat := 4611686018427387903

inductive EncodeError where
  | valueTooLarge
  deriving DecidableEq, Repr

inductive DecodeError where
  | truncated | nonCanonical | invalidWidth | overflow
  deriving DecidableEq, Repr

/-- `encode_into`: the canonical encoding of `v` appended to `out`. -/
def encodeInto (out : Bytes) (v : Nat) : Except EncodeError Bytes :=
  if v ≤ 63 then
    .ok (out ++ [UInt8.ofNat (v &&& 0x3F)])
  else if v ≤ 16383 then
    .ok (out ++ [(0x40 : UInt8) ||| UInt8.ofNat ((v >>> 8) &&& 0x3F), UInt8.ofNat (v &&& 0xFF)])
  else if v ≤ 1073741823 then
    .ok (out ++ ((0x80 : UInt8) ||| UInt8.ofNat ((v >>> 24) &&& 0x3F)) ::
      (toBeBytes 4 (v &&& 0x00FFFFFF)).drop 1)
  else if v ≤ maxVarint then
    .ok (out ++ ((0xC0 : UInt8) ||| UInt8.ofNat ((v >>> 56) &&& 0x3F)) :: (toBeBytes 8 v).drop 1)
  else
    .error .valueTooLarge

def encode (v : Nat) : Except EncodeError Bytes := encodeInto [] v

/-- Width announced by the top two bits of the first byte. -/
def widthOf (first : UInt8) : Nat :=
  match (first >>> 6).toNat with
  | 0 => 1
  | 1 => 2
  | 2 => 4
  | _ => 8

/-- Largest value of each width (`fits_width`). -/
def widthLimit : Nat → Nat
  | 1 => 63
  | 2 => 16383
  | 4 => 1073741823
  | _ => maxVarint

/-- The next smaller width already carries the value (`NonCanonical`). -/
def smallerWidthFits : Nat → Nat → Bool
  | 2, v => v ≤ 63
  | 4, v => v ≤ 16383
  | 8, v => v ≤ 1073741823
  | _, _ => false

/-- The 64-bit value of the first `width` bytes with the width bits cleared. -/
def rawValue (first : UInt8) (buf : Bytes) (width : Nat) : Nat :=
  fromBeBytes ((first &&& 0x3F) :: (buf.take width).drop 1 ++ List.replicate (8 - width) 0)
    >>> ((8 - width) * 8)

/-- `decode`: the value at the start of `buf` and its encoded width. -/
def decode (buf : Bytes) : Except DecodeError (Nat × Nat) :=
  match buf with
  | [] => .error .truncated
  | first :: _ =>
    let width := widthOf first
    if buf.length < width then .error .truncated
    else
      let v := rawValue first buf width
      if ¬ v ≤ widthLimit width then .error .invalidWidth
      else if smallerWidthFits width v then .error .nonCanonical
      else .ok (v, width)

/-- The bytes `encode_into` appends, where it succeeds. -/
def encoding (v : Nat) : Bytes :=
  match encode v with
  | .ok bytes => bytes
  | .error _ => []

theorem encodeInto_eq_map : encodeInto out v = (encode v).map (out ++ ·) := by
  unfold encode encodeInto
  repeat' split
  all_goals simp [Except.map]

theorem encode_of_le (bound : v ≤ maxVarint) : encode v = .ok (encoding v) := by
  have success : ∃ bytes, encode v = .ok bytes := by
    unfold encode encodeInto
    repeat' split
    all_goals exact ⟨_, rfl⟩
  obtain ⟨bytes, shape⟩ := success
  simp [encoding, shape]

theorem encodeInto_ok : encodeInto out v = .ok result ↔ v ≤ maxVarint ∧ result = out ++ encoding v := by
  constructor
  · intro shape
    have bound : v ≤ maxVarint := by
      by_contra large
      have limit : ¬ v ≤ 63 ∧ ¬ v ≤ 16383 ∧ ¬ v ≤ 1073741823 := by
        unfold maxVarint at large
        omega
      simp [encodeInto, limit, large] at shape
    rw [encodeInto_eq_map, encode_of_le bound, Except.map, Except.ok.injEq] at shape
    exact ⟨bound, shape.symm⟩
  · rintro ⟨bound, rfl⟩
    rw [encodeInto_eq_map, encode_of_le bound, Except.map]

private theorem tagged_byte : ∀ (tag : Fin 4) (high : Fin 64),
    widthOf (UInt8.ofNat (tag.val * 64) ||| UInt8.ofNat high.val) = [1, 2, 4, 8][tag.val] ∧
      ((UInt8.ofNat (tag.val * 64) ||| UInt8.ofNat high.val) &&& 0x3F).toNat = high.val := by
  decide

private theorem tag_width_le : ∀ tag : Fin 4, [1, 2, 4, 8][tag.val] ≤ 8 := by decide

private theorem rawValue_cons (first : UInt8) (low suffix : Bytes) (width : Nat)
    (length : low.length + 1 = width) (small : width ≤ 8) :
    rawValue first (first :: low ++ suffix) width =
      (first &&& 0x3F).toNat * 256 ^ low.length + fromBeBytes low := by
  have taken : ((first :: low ++ suffix).take width).drop 1 = low := by
    subst length
    simp
  rw [rawValue, taken, fromBeBytes_append, fromBeBytes_zeros, fromBeBytes_cons,
    List.length_replicate, Nat.add_zero, Nat.shiftRight_eq_div_pow, Nat.mul_comm (8 - width) 8,
    Nat.pow_mul]
  exact Nat.mul_div_cancel _ (Nat.pow_pos (by decide))

/-- Reading a tag, its six high bits and the low-order bytes of its width gives back their value, if no smaller
width carries it. -/
private theorem decode_tagged (tag : Fin 4) (suffix : Bytes)
    (highBound : high < 64) (announced : width = [1, 2, 4, 8][tag.val])
    (length : low.length + 1 = width)
    (value : v = high * 256 ^ low.length + fromBeBytes low) (limit : v ≤ widthLimit width)
    (canonical : smallerWidthFits width v = false) :
    decode (((UInt8.ofNat (tag.val * 64) ||| UInt8.ofNat high) :: low) ++ suffix) =
      .ok (v, width) := by
  obtain ⟨widthRead, highBits⟩ := tagged_byte tag ⟨high, highBound⟩
  rw [← announced] at widthRead
  have small : width ≤ 8 := announced ▸ tag_width_le tag
  have enough : ¬ (((UInt8.ofNat (tag.val * 64) ||| UInt8.ofNat high) :: low) ++ suffix).length
      < width := by
    simp only [List.length_append, List.length_cons]
    omega
  have read := rawValue_cons (UInt8.ofNat (tag.val * 64) ||| UInt8.ofNat high) low suffix width
    length small
  rw [highBits, ← value] at read
  simp only [List.cons_append] at read enough ⊢
  simp only [decode, widthRead, enough, ↓reduceIte, read, limit, not_true_eq_false, canonical,
    Bool.false_eq_true]

private theorem mask6 : n &&& 0x3F = n % 64 := Nat.and_two_pow_sub_one_eq_mod n 6
private theorem mask8 : n &&& 0xFF = n % 256 := Nat.and_two_pow_sub_one_eq_mod n 8
private theorem mask24 : n &&& 0x00FFFFFF = n % 16777216 :=
  Nat.and_two_pow_sub_one_eq_mod n 24

theorem encoding_one (range : v ≤ 63) : encoding v = (UInt8.ofNat (0 * 64) ||| UInt8.ofNat v) :: [] := by
  have low : v % 64 = v := by omega
  simp [encoding, encode, encodeInto, range, mask6, low]

theorem encoding_two (above : 63 < v) (range : v ≤ 16383) :
    encoding v = (UInt8.ofNat (1 * 64) ||| UInt8.ofNat (v / 256)) :: toBeBytes 1 (v % 256) := by
  have skip : ¬ v ≤ 63 := by omega
  have high : v / 256 % 64 = v / 256 := by omega
  simp [encoding, encode, encodeInto, skip, range, mask6, mask8, Nat.shiftRight_eq_div_pow, high, toBeBytes]

theorem encoding_four (above : 16383 < v) (range : v ≤ 1073741823) :
    encoding v = (UInt8.ofNat (2 * 64) ||| UInt8.ofNat (v / 16777216)) ::
      toBeBytes 3 (v % 16777216) := by
  have skip : ¬ v ≤ 63 ∧ ¬ v ≤ 16383 := by omega
  have high : v / 16777216 % 64 = v / 16777216 := by omega
  simp [encoding, encode, encodeInto, skip, range, mask6, mask24, Nat.shiftRight_eq_div_pow, high, toBeBytes]

theorem encoding_eight (above : 1073741823 < v) (range : v ≤ maxVarint) :
    encoding v = (UInt8.ofNat (3 * 64) ||| UInt8.ofNat (v / 72057594037927936)) ::
      toBeBytes 7 v := by
  have skip : ¬ v ≤ 63 ∧ ¬ v ≤ 16383 ∧ ¬ v ≤ 1073741823 := by omega
  have high : v / 72057594037927936 % 64 = v / 72057594037927936 := by
    unfold maxVarint at range
    omega
  simp [encoding, encode, encodeInto, skip, range, mask6, Nat.shiftRight_eq_div_pow, high, toBeBytes]

/-- Decoding an encoding returns the value and consumes exactly the encoding,
whatever follows it. -/
theorem decode_encoding (bound : v ≤ maxVarint) (suffix : Bytes) :
    decode (encoding v ++ suffix) = .ok (v, (encoding v).length) := by
  by_cases one : v ≤ 63
  · rw [encoding_one one]
    exact decode_tagged 0 suffix (by omega) rfl rfl (by simp [fromBeBytes]) one rfl
  by_cases two : v ≤ 16383
  · rw [encoding_two (by omega) two]
    exact decode_tagged 1 suffix (by omega) rfl rfl
      (by rw [fromBeBytes_toBeBytes, toBeBytes_length]; omega) two
      (by simp [smallerWidthFits]; omega)
  by_cases four : v ≤ 1073741823
  · rw [encoding_four (by omega) four]
    exact decode_tagged 2 suffix (by omega) rfl rfl
      (by rw [fromBeBytes_toBeBytes, toBeBytes_length]; omega) four
      (by simp [smallerWidthFits]; omega)
  · rw [encoding_eight (by omega) bound]
    exact decode_tagged 3 suffix (by unfold maxVarint at bound; omega) rfl rfl
      (by rw [fromBeBytes_toBeBytes, toBeBytes_length]; omega) bound
      (by simp [smallerWidthFits]; omega)

theorem encoding_length_le (v : Nat) : (encoding v).length ≤ 8 := by
  by_cases bound : v ≤ maxVarint
  · by_cases one : v ≤ 63
    · simp [encoding_one one]
    by_cases two : v ≤ 16383
    · simp [encoding_two (by omega) two]
    by_cases four : v ≤ 1073741823
    · simp [encoding_four (by omega) four]
    · simp [encoding_eight (by omega) bound]
  · have refused : encode v = .error .valueTooLarge := by
      have limit : ¬ v ≤ 63 ∧ ¬ v ≤ 16383 ∧ ¬ v ≤ 1073741823 := by
        unfold maxVarint at bound
        omega
      simp [encode, encodeInto, limit, bound]
    simp [encoding, refused]

theorem decode_advances (read : decode buf = .ok (v, width)) : 0 < width := by
  cases buf with
  | nil => cases read
  | cons first rest =>
    simp only [decode] at read
    repeat' split at read
    all_goals first | cases read
    unfold widthOf
    split <;> decide

/-! What is read is what would have been written. -/

private theorem byte_tagged : ∀ n : Fin 256,
    UInt8.ofNat n.val = UInt8.ofNat (n.val / 64 * 64) ||| UInt8.ofNat (n.val % 64) := by
  decide +kernel

/-- A value that was read stood there as a tag, six high bits and the low-order bytes of its width, and no
smaller width carries it. -/
theorem decode_ok (read : decode buf = .ok (v, width)) :
    ∃ (tag : Fin 4) (high : Nat) (low suffix : Bytes), high < 64 ∧ width = [1, 2, 4, 8][tag.val] ∧
      low.length + 1 = width ∧ buf = (UInt8.ofNat (tag.val * 64) ||| UInt8.ofNat high) :: (low ++ suffix) ∧
      v = high * 256 ^ low.length + fromBeBytes low ∧ v ≤ widthLimit width ∧
      smallerWidthFits width v = false := by
  cases buf with
  | nil => cases read
  | cons first rest =>
    let tag : Fin 4 := ⟨first.toNat / 64, by have := first.toNat_lt; omega⟩
    have small : first.toNat % 64 < 64 := Nat.mod_lt _ (by decide)
    have split : first = UInt8.ofNat (tag.val * 64) ||| UInt8.ofNat (first.toNat % 64) := by
      rw [← byte_tagged ⟨first.toNat, first.toNat_lt⟩, UInt8.ofNat_toNat]
    obtain ⟨announced, high⟩ := tagged_byte tag ⟨first.toNat % 64, small⟩
    rw [← split] at announced high
    have bound : widthOf first ≤ 8 := announced ▸ tag_width_le tag
    have positive : 0 < widthOf first := by
      unfold widthOf
      split <;> decide
    simp only [decode] at read
    split at read
    · cases read
    next enough =>
    split at read
    · cases read
    next limit =>
    split at read
    · cases read
    next canonical =>
    cases read
    have length : (rest.take (widthOf first - 1)).length + 1 = widthOf first := by
      rw [List.length_take]
      rw [List.length_cons] at enough
      omega
    have whole : first :: rest.take (widthOf first - 1) ++ rest.drop (widthOf first - 1) = first :: rest := by
      rw [List.cons_append, List.take_append_drop]
    have value := rawValue_cons first _ (rest.drop (widthOf first - 1)) _ length bound
    rw [whole, high] at value
    refine ⟨tag, first.toNat % 64, rest.take (widthOf first - 1), rest.drop (widthOf first - 1), small, announced,
      length, ?_, value, not_not.mp limit, Bool.eq_false_iff.mpr canonical⟩
    rw [← split, List.take_append_drop]

private theorem encoding_tagged (tag : Fin 4) (highBound : high < 64)
    (announced : width = [1, 2, 4, 8][tag.val]) (length : low.length + 1 = width)
    (value : v = high * 256 ^ low.length + fromBeBytes low) (canonical : smallerWidthFits width v = false) :
    v ≤ maxVarint ∧ encoding v = (UInt8.ofNat (tag.val * 64) ||| UInt8.ofNat high) :: low := by
  have digits := toBeBytes_fromBeBytes low 0
  have allDigits := toBeBytes_fromBeBytes low high
  have below := fromBeBytes_lt low
  unfold maxVarint
  obtain one | two | four | eight : tag = 0 ∨ tag = 1 ∨ tag = 2 ∨ tag = 3 := by omega
  · subst one
    obtain rfl : low = [] := List.eq_nil_of_length_eq_zero (by simp at announced; omega)
    simp only [List.length_nil, Nat.pow_zero, Nat.mul_one, fromBeBytes, List.foldl_nil, Nat.add_zero] at value
    subst value
    exact ⟨by omega, encoding_one (by omega)⟩
  · subst two
    obtain rfl : width = 2 := announced
    have size : low.length = 1 := by omega
    rw [size] at value below digits
    simp only [smallerWidthFits, decide_eq_false_iff_not] at canonical
    rw [encoding_two (by omega) (by omega), show v / 256 = high by omega, show v % 256 = fromBeBytes low by omega]
    rw [Nat.zero_mul, Nat.zero_add] at digits
    exact ⟨by omega, congrArg _ digits⟩
  · subst four
    obtain rfl : width = 4 := announced
    have size : low.length = 3 := by omega
    rw [size] at value below digits
    simp only [smallerWidthFits, decide_eq_false_iff_not] at canonical
    rw [encoding_four (by omega) (by omega), show v / 16777216 = high by omega,
      show v % 16777216 = fromBeBytes low by omega]
    rw [Nat.zero_mul, Nat.zero_add] at digits
    exact ⟨by omega, congrArg _ digits⟩
  · subst eight
    obtain rfl : width = 8 := announced
    have size : low.length = 7 := by omega
    rw [size] at value below allDigits
    simp only [smallerWidthFits, decide_eq_false_iff_not] at canonical
    have range : v ≤ maxVarint := by
      unfold maxVarint
      omega
    rw [encoding_eight (by omega) range, show v / 72057594037927936 = high by omega]
    rw [← value] at allDigits
    exact ⟨range, congrArg _ allDigits⟩

theorem encoding_of_decode (read : decode buf = .ok (v, width)) : v ≤ maxVarint ∧ encoding v = buf.take width := by
  obtain ⟨tag, high, low, suffix, small, announced, length, rfl, value, -, canonical⟩ := decode_ok read
  obtain ⟨bound, same⟩ := encoding_tagged tag small announced length value canonical
  refine ⟨bound, ?_⟩
  rw [same, ← length, List.take_succ_cons, List.take_left]

/-- An encoding is read back whatever follows it, what is read is an encoding, and so two buffers that are read
as one value begin with the same bytes. -/
theorem canonical_bijection :
    (∀ v ≤ maxVarint, ∃ bytes, encode v = .ok bytes ∧
      ∀ suffix, decode (bytes ++ suffix) = .ok (v, bytes.length)) ∧
    (∀ buf v width, decode buf = .ok (v, width) → encode v = .ok (buf.take width)) ∧
    ∀ buf buf' v width width', decode buf = .ok (v, width) → decode buf' = .ok (v, width') →
      buf.take width = buf'.take width' := by
  have written : ∀ buf v width, decode buf = .ok (v, width) → encode v = .ok (buf.take width) := by
    intro buf v width read
    obtain ⟨bound, same⟩ := encoding_of_decode read
    rw [encode_of_le bound, same]
  refine ⟨fun v bound => ⟨encoding v, encode_of_le bound, decode_encoding bound⟩, written, ?_⟩
  intro buf buf' v width width' read again
  have both := (written buf v width read).symm.trans (written buf' v width' again)
  exact Except.ok.inj both

end Varint
end UniversalMesh.Wire
