import Mathlib.Data.Nat.Bitwise
import Norn.Foundation.Bytes

/-!
# Byte strings as strings of bits

The bits of a byte string stand in the order of its bytes, and in each byte
the most significant bit comes first.  Reading a bit out of its byte and
setting a bit in its byte are then reading and setting at a position.
-/

namespace Norn.Foundation

/-- The bits of a byte, the most significant one first. -/
def byteBits (byte : UInt8) : List Bool :=
  (List.range 8).reverse.map fun bit =>
    byte &&& (1 <<< UInt8.ofNat bit) != 0

/-- The bits of a byte string. -/
def bitsOf (bytes : List UInt8) : List Bool := bytes.flatMap byteBits

theorem toNat_one_shiftLeft {bit : Nat} (inside : bit < 8) :
    ((1 : UInt8) <<< UInt8.ofNat bit).toNat = 2 ^ bit := by
  have small : bit % 256 % 8 = bit := by omega
  have word : 2 ^ bit < 2 ^ 8 := Nat.pow_lt_pow_right (by omega) inside
  rw [UInt8.toNat_shiftLeft, UInt8.toNat_ofNat', small]
  change 1 <<< bit % 2 ^ 8 = 2 ^ bit
  rw [Nat.one_shiftLeft, Nat.mod_eq_of_lt word]

variable (byte : UInt8) (bytes : List UInt8)

theorem and_bit_ne_zero {bit : Nat} (inside : bit < 8) :
    (byte &&& (1 <<< UInt8.ofNat bit) != 0) = byte.toNat.testBit bit := by
  have value :
      (byte &&& (1 <<< UInt8.ofNat bit)).toNat =
        (byte.toNat.testBit bit).toNat * 2 ^ bit := by
    rw [UInt8.toNat_and, toNat_one_shiftLeft inside, Nat.and_two_pow]
  cases set : byte.toNat.testBit bit with
  | false =>
    rw [set, Bool.toNat_false, Nat.zero_mul] at value
    rw [bne_eq_false_iff_eq]
    exact UInt8.toNat_inj.mp value
  | true =>
    rw [set, Bool.toNat_true, Nat.one_mul] at value
    rw [bne_iff_ne]
    intro zero
    rw [zero] at value
    exact (Nat.two_pow_pos bit).ne value

@[simp]
theorem length_byteBits : (byteBits byte).length = 8 := rfl

theorem getElem?_byteBits {position : Nat} (inside : position < 8) :
    (byteBits byte)[position]? = some (byte.toNat.testBit (7 - position)) := by
  have reversed : (List.range 8).reverse[position]? = some (7 - position) := by
    rw [List.getElem?_reverse (by simpa using inside)]
    simp only [List.length_range]
    rw [List.getElem?_range (by omega)]
  rw [byteBits, List.getElem?_map, reversed, Option.map_some,
    and_bit_ne_zero byte (by omega)]

theorem bitsOf_cons :
    bitsOf (byte :: bytes) = byteBits byte ++ bitsOf bytes :=
  List.flatMap_cons

theorem bitsOf_append (front back : List UInt8) :
    bitsOf (front ++ back) = bitsOf front ++ bitsOf back :=
  List.flatMap_append

@[simp]
theorem length_bitsOf : (bitsOf bytes).length = 8 * bytes.length := by
  induction bytes with
  | nil => rfl
  | cons byte bytes induction =>
    rw [bitsOf_cons, List.length_append, induction, length_byteBits,
      List.length_cons]
    omega

/-- A bit is read out of its byte. -/
theorem getElem?_bitsOf (position : Nat) :
    (bitsOf bytes)[position]? =
      bytes[position / 8]?.map fun byte =>
        byte.toNat.testBit (7 - position % 8) := by
  induction bytes generalizing position with
  | nil => rfl
  | cons byte bytes induction =>
    rw [bitsOf_cons]
    by_cases first : position < 8
    · rw [List.getElem?_append_left (by simpa using first),
        getElem?_byteBits byte first, Nat.div_eq_of_lt first,
        Nat.mod_eq_of_lt first]
      rfl
    · have later : position / 8 = (position - 8) / 8 + 1 := by omega
      have same : (position - 8) % 8 = position % 8 := by omega
      rw [List.getElem?_append_right (by simpa using first),
        length_byteBits, induction, same, later, List.getElem?_cons_succ]

theorem byte_eq_of_byteBits {left right : UInt8}
    (same : byteBits left = byteBits right) : left = right := by
  apply UInt8.toNat_inj.mp
  apply Nat.eq_of_testBit_eq
  intro bit
  by_cases inside : bit < 8
  · have read := congrArg (fun bits => bits[7 - bit]?) same
    simp only [getElem?_byteBits _ (show 7 - bit < 8 by omega),
      Option.some.injEq] at read
    rwa [show 7 - (7 - bit) = bit by omega] at read
  · have large : 2 ^ 8 ≤ 2 ^ bit := Nat.pow_le_pow_right (by omega) (by omega)
    rw [Nat.testBit_lt_two_pow ((UInt8.toNat_lt left).trans_le large),
      Nat.testBit_lt_two_pow ((UInt8.toNat_lt right).trans_le large)]

/-- The bits determine the bytes. -/
theorem bitsOf_injective : Function.Injective bitsOf := by
  intro left
  induction left with
  | nil =>
    intro right same
    have length := congrArg List.length same
    rw [length_bitsOf, length_bitsOf] at length
    exact (List.eq_nil_of_length_eq_zero (by
      simp only [List.length_nil] at length
      omega)).symm
  | cons byte bytes induction =>
    intro right same
    cases right with
    | nil =>
      have length := congrArg List.length same
      simp only [length_bitsOf, List.length_cons, List.length_nil] at length
      omega
    | cons other others =>
      rw [bitsOf_cons, bitsOf_cons] at same
      rcases List.append_inj same rfl with ⟨first, later⟩
      rw [byte_eq_of_byteBits first, induction later]

/-- A bit is read by a shift. -/
theorem shiftRight_and_one {bit : Nat} (inside : bit < 8) :
    ((byte >>> UInt8.ofNat bit) &&& 1).toNat =
      (byte.toNat.testBit bit).toNat := by
  have small : bit % 256 % 8 = bit := by omega
  rw [UInt8.toNat_and, UInt8.toNat_shiftRight, UInt8.toNat_ofNat', small]
  change byte.toNat >>> bit &&& 1 = _
  rw [Nat.and_one_is_mod, Nat.testBit_eq_decide_div_mod_eq,
    Nat.shiftRight_eq_div_pow]
  rcases Nat.mod_two_eq_zero_or_one (byte.toNat / 2 ^ bit) with even | odd
  · simp [even]
  · simp [odd]

/-- A bit is set by a disjunction with a shifted one. -/
theorem testBit_or_shiftLeft {value : UInt8} {set : Bool}
    (isBit : value.toNat = set.toNat) {bit other : Nat} (inside : bit < 8)
    (otherInside : other < 8) :
    (byte ||| value <<< UInt8.ofNat bit).toNat.testBit other =
      (byte.toNat.testBit other || (decide (other = bit) && set)) := by
  have small : bit % 256 % 8 = bit := by omega
  rw [UInt8.toNat_or, UInt8.toNat_shiftLeft, UInt8.toNat_ofNat', small,
    isBit, Nat.testBit_or, Nat.testBit_mod_two_pow, Nat.testBit_shiftLeft]
  congr 1
  cases set with
  | false => simp
  | true =>
    rw [Bool.toNat_true, Bool.and_true]
    have shifted : Nat.testBit 1 (other - bit) = decide (other - bit = 0) := by
      rw [Bool.eq_iff_iff, Nat.testBit_one_eq_true_iff_self_eq_zero,
        decide_eq_true_iff]
    rw [shifted, Bool.eq_iff_iff]
    simp only [Bool.and_eq_true, decide_eq_true_eq, otherInside, true_and]
    omega

end Norn.Foundation
