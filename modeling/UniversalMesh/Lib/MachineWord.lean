import Mathlib.Tactic.Ring

/-! Fixed-width unsigned arithmetic over the natural numbers: the checked and saturating operations of 64-bit
words, and big-endian byte strings. -/
namespace UniversalMesh.MachineWord

/-- The bytes of a byte string literal. -/
def ascii (text : String) : List UInt8 := text.toList.map fun c => UInt8.ofNat c.toNat

/-- Largest 64-bit unsigned value, also the largest `usize` of the target. -/
def u64Max : Nat := 2 ^ 64 - 1

/-- Largest 32-bit unsigned value. -/
def u32Max : Nat := 2 ^ 32 - 1

/-- `isize::MAX`, the most bytes an allocation holds on a 64-bit target. -/
def isizeMax : Nat := 2 ^ 63 - 1

def checkedAdd (a b : Nat) : Option Nat := if a + b ≤ u64Max then some (a + b) else none

def checkedMul (a b : Nat) : Option Nat := if a * b ≤ u64Max then some (a * b) else none

def saturatingAdd (a b : Nat) : Nat := min (a + b) u64Max

def saturatingMul (a b : Nat) : Nat := min (a * b) u64Max

/-- Largest 64-bit signed value. -/
def i64Max : Int := 2 ^ 63 - 1

/-- A signed result brought into the range of 64-bit words (`saturating_add` and so on). -/
def clampI64 (value : Int) : Int := max (-i64Max - 1) (min value i64Max)

/-- `i64::try_from(value).unwrap_or(i64::MAX)`. -/
def toI64 (value : Nat) : Int := min (value : Int) i64Max

/-- `u64::try_from(value).unwrap_or(u64::MAX)`. -/
def toU64 (value : Int) : Nat := if value < 0 then u64Max else value.toNat

theorem checkedAdd_of_le (fits : a + b ≤ u64Max) : checkedAdd a b = some (a + b) :=
  if_pos fits

theorem checkedAdd_some : checkedAdd a b = some c ↔ a + b ≤ u64Max ∧ c = a + b := by
  unfold checkedAdd
  split
  · simp [*, eq_comm]
  · simp [*]

theorem saturatingAdd_of_le (fits : a + b ≤ u64Max) : saturatingAdd a b = a + b :=
  min_eq_left fits

/-- The `width` low-order bytes of `value`, most significant first. -/
def toBeBytes : Nat → Nat → List UInt8
  | 0, _ => []
  | width + 1, value => UInt8.ofNat (value / 256 ^ width) :: toBeBytes width value

variable (bytes : List UInt8)

/-- The number whose big-endian digits are `bytes`. -/
def fromBeBytes : Nat :=
  bytes.foldl (fun value byte => value * 256 + byte.toNat) 0

@[simp] theorem toBeBytes_length (width value : Nat) : (toBeBytes width value).length = width := by
  induction width with
  | zero => rfl
  | succ width ih => simp [toBeBytes, ih]

private theorem foldl_digits (high : Nat) : bytes.foldl (fun value byte => value * 256 + byte.toNat) high =
      high * 256 ^ bytes.length + fromBeBytes bytes := by
  induction bytes generalizing high with
  | nil => simp [fromBeBytes]
  | cons byte rest ih =>
    simp only [fromBeBytes, List.foldl_cons, List.length_cons, Nat.zero_mul, Nat.zero_add]
    rw [ih, ih byte.toNat]
    ring

theorem fromBeBytes_cons (byte : UInt8) (rest : List UInt8) :
    fromBeBytes (byte :: rest) = byte.toNat * 256 ^ rest.length + fromBeBytes rest := by
  rw [fromBeBytes, List.foldl_cons, foldl_digits, Nat.zero_mul, Nat.zero_add]

theorem fromBeBytes_append (high low : List UInt8) :
    fromBeBytes (high ++ low) = fromBeBytes high * 256 ^ low.length + fromBeBytes low := by
  rw [fromBeBytes, List.foldl_append, foldl_digits]
  rfl

theorem fromBeBytes_zeros (count : Nat) : fromBeBytes (List.replicate count 0) = 0 := by
  induction count with
  | zero => rfl
  | succ count ih => simp [List.replicate_succ, fromBeBytes_cons, ih]

theorem fromBeBytes_toBeBytes (width value : Nat) :
    fromBeBytes (toBeBytes width value) = value % 256 ^ width := by
  induction width with
  | zero => simp [toBeBytes, fromBeBytes, Nat.mod_one]
  | succ width ih =>
    have digit : (UInt8.ofNat (value / 256 ^ width)).toNat = value / 256 ^ width % 256 := by simp
    rw [toBeBytes, fromBeBytes_cons, ih, toBeBytes_length, digit]
    conv => rhs; rw [Nat.pow_succ, Nat.mod_mul]
    rw [Nat.mul_comm, Nat.add_comm]

theorem fromBeBytes_lt : fromBeBytes bytes < 256 ^ bytes.length := by
  induction bytes with
  | nil => simp [fromBeBytes]
  | cons byte rest ih =>
    have digit : byte.toNat + 1 ≤ 256 := byte.toNat_lt
    have scaled := Nat.mul_le_mul_right (256 ^ rest.length) digit
    rw [Nat.succ_mul] at scaled
    rw [fromBeBytes_cons, List.length_cons, Nat.pow_succ, Nat.mul_comm (256 ^ rest.length)]
    omega

/-- The digits of a value are those it was read from, whatever stands above them. -/
theorem toBeBytes_fromBeBytes (high : Nat) :
    toBeBytes bytes.length (high * 256 ^ bytes.length + fromBeBytes bytes) = bytes := by
  induction bytes generalizing high with
  | nil => rfl
  | cons byte rest ih =>
    have shape : high * 256 ^ (rest.length + 1) + (byte.toNat * 256 ^ rest.length + fromBeBytes rest) =
        (high * 256 + byte.toNat) * 256 ^ rest.length + fromBeBytes rest := by ring
    have digit : ((high * 256 + byte.toNat) * 256 ^ rest.length + fromBeBytes rest) / 256 ^ rest.length =
        high * 256 + byte.toNat := by
      rw [Nat.mul_comm, Nat.mul_add_div (Nat.pow_pos (by decide)), Nat.div_eq_of_lt (fromBeBytes_lt rest),
        Nat.add_zero]
    have byteOf : UInt8.ofNat (high * 256 + byte.toNat) = byte := by
      apply UInt8.toNat_inj.mp
      rw [UInt8.toNat_ofNat', Nat.add_comm, Nat.add_mul_mod_self_right]
      exact Nat.mod_eq_of_lt byte.toNat_lt
    rw [List.length_cons, fromBeBytes_cons, shape, toBeBytes, digit, byteOf, ih]

end UniversalMesh.MachineWord
