import Mathlib.Data.List.Basic

/-! A ring of bits packed into bytes: index `i` is the bit `i % size`. Indices
that differ by a multiple of the size share a bit, so a ring answers for the
residues of the indices set so far and for nothing finer. -/
namespace UniversalMesh

structure BitRing where
  size : Nat
  bits : List UInt8
  positive : 0 < size
  sized : bits.length = (size + 7) / 8

namespace BitRing

/-- A ring with every bit clear. -/
def empty (size : Nat) (positive : 0 < size) : BitRing :=
  { size, bits := List.replicate ((size + 7) / 8) 0, positive, sized := List.length_replicate }

variable (ring : BitRing)

def get (index : Nat) : Bool :=
  let pos := index % ring.size
  ((ring.bits.getD (pos / 8) 0).toNat >>> (pos % 8)) &&& 1 == 1

def set (index : Nat) : BitRing :=
  let pos := index % ring.size
  { ring with
    bits := ring.bits.modify (pos / 8) fun byte => byte ||| (1 <<< UInt8.ofNat (pos % 8))
    sized := by rw [List.length_modify, ring.sized] }

theorem get_eq_testBit : ring.get index =
      (ring.bits.getD (index % ring.size / 8) 0).toNat.testBit (index % ring.size % 8) := by
  rw [get, Nat.and_one_is_mod, Nat.shiftRight_eq_div_pow, Nat.testBit_eq_decide_div_mod_eq]
  rfl

theorem testBit_set_bit (low : offset < 8) (small : bit < 8) :
    (byte ||| (1 <<< UInt8.ofNat offset)).toNat.testBit bit =
      (byte.toNat.testBit bit || offset == bit) := by
  have shift : (UInt8.ofNat offset).toNat % 8 = offset := by
    rw [UInt8.toNat_ofNat_of_lt' (by show offset < 256; omega), Nat.mod_eq_of_lt low]
  rw [UInt8.toNat_or, Nat.testBit_or, UInt8.toNat_shiftLeft, shift, Nat.testBit_mod_two_pow]
  simp [small, Nat.shiftLeft_eq, Nat.testBit_two_pow, beq_eq_decide]

theorem get_empty (size : Nat) (positive : 0 < size) (index : Nat) :
    (empty size positive).get index = false := by
  rw [get_eq_testBit]
  simp only [empty, List.getD_eq_getElem?_getD, List.getElem?_replicate]
  split <;> simp

theorem get_set (index other : Nat) :
    (ring.set index).get other = (ring.get other || index % ring.size == other % ring.size) := by
  have place := Nat.mod_lt index ring.positive
  have within : index % ring.size / 8 < ring.bits.length := by
    rw [ring.sized]
    omega
  rw [get_eq_testBit, get_eq_testBit]
  simp only [set, List.getD_eq_getElem?_getD, List.getElem?_modify]
  by_cases sameByte : index % ring.size / 8 = other % ring.size / 8
  · rw [← sameByte, List.getElem?_eq_getElem within]
    simp only [if_true, Option.map_eq_map, Option.map_some, Option.getD_some]
    rw [testBit_set_bit (Nat.mod_lt _ (by decide)) (Nat.mod_lt _ (by decide))]
    congr 1
    rw [Bool.eq_iff_iff]
    simp only [beq_iff_eq]
    omega
  · have differ : (index % ring.size == other % ring.size) = false := by
      simp only [beq_eq_false_iff_ne, ne_eq]
      omega
    simp [sameByte, differ]

end BitRing
end UniversalMesh
