import Mathlib.Algebra.BigOperators.Ring.Finset
import Mathlib.Tactic.Ring
import Norn.Packet.Varint

/-!
# The numbers that byte strings write

`decode_uvarint` on every byte string.  It stops at the first byte with a
clear top bit, if there is one among the first ten, and returns the number
that the groups up to there write, modulo `2 ^ 64`.  Nine groups fit a word;
of the tenth only the lowest bit does, and the others are shifted out.
-/

namespace Norn.Packet

open Foundation

variable {byte : UInt8} {bytes : List UInt8}

/-- The top bit is clear. -/
def IsLast (byte : UInt8) : Prop := byte &&& 0x80 = 0

instance : DecidablePred IsLast :=
  fun byte => inferInstanceAs (Decidable (byte &&& 0x80 = 0))

/-- The position of the first byte with a clear top bit. -/
def lastPosition (bytes : List UInt8) : Nat :=
  bytes.findIdx fun byte => decide (IsLast byte)

/-- The number that the first `count` groups write. -/
def groupSum (bytes : List UInt8) (count : Nat) : Nat :=
  ∑ index ∈ Finset.range count, (bytes.getD index 0).toNat % 128 * 128 ^ index

/-- Ten groups of which the last one does not fit a word. -/
def TenthTooLarge (bytes : List UInt8) : Prop :=
  lastPosition bytes = 9 ∧ 2 ≤ (bytes.getD 9 0).toNat

theorem groupSum_zero (bytes : List UInt8) :
    groupSum bytes 0 = 0 := Finset.sum_range_zero _

theorem groupSum_cons (byte : UInt8) (rest : List UInt8) (count : Nat) :
    groupSum (byte :: rest) (count + 1) =
      byte.toNat % 128 + 128 * groupSum rest count := by
  unfold groupSum
  rw [Finset.sum_range_succ', Finset.mul_sum, Nat.add_comm]
  congr 1
  · simp
  · refine Finset.sum_congr rfl fun index _ => ?_
    rw [List.getD_cons_succ]
    ring

theorem groupSum_lt (bytes : List UInt8) (count : Nat) :
    groupSum bytes count < 128 ^ count := by
  unfold groupSum
  induction count with
  | zero =>
    exact Nat.one_pos
  | succ count inductionHypothesis =>
    have group :
        (bytes.getD count 0).toNat % 128 * 128 ^ count ≤ 127 * 128 ^ count :=
      Nat.mul_le_mul_right _ (by omega)
    rw [Finset.sum_range_succ, pow_succ]
    omega

theorem lastPosition_cons_of_last (last : IsLast byte) (rest : List UInt8) :
    lastPosition (byte :: rest) = 0 := by
  simp [lastPosition, List.findIdx_cons, last]

theorem lastPosition_cons_of_not (marked : ¬IsLast byte) (rest : List UInt8) :
    lastPosition (byte :: rest) = lastPosition rest + 1 := by
  simp [lastPosition, List.findIdx_cons, marked]

theorem isLast_lastPosition (found : lastPosition bytes < bytes.length) :
    IsLast (bytes.getD (lastPosition bytes) 0) := by
  induction bytes with
  | nil =>
    cases found
  | cons byte rest inductionHypothesis =>
    by_cases last : IsLast byte
    · rw [lastPosition_cons_of_last last]
      exact last
    · rw [lastPosition_cons_of_not last, List.length_cons] at found
      rw [lastPosition_cons_of_not last, List.getD_cons_succ]
      exact inductionHypothesis (by omega)

theorem toNat_or_shiftLeft_mod {val group : UInt64} {shift : Nat}
    (inside : shift < 64) (low : val.toNat < 2 ^ shift) :
    (val ||| (group <<< UInt64.ofNat shift)).toNat =
      (val.toNat + 2 ^ shift * group.toNat) % 2 ^ 64 := by
  have amount : (UInt64.ofNat shift).toNat % 64 = shift := by
    rw [UInt64.toNat_ofNat']
    omega
  have width : 2 ^ 64 = 2 ^ shift * 2 ^ (64 - shift) := by
    rw [← pow_add, Nat.add_sub_cancel' (Nat.le_of_lt inside)]
  have shifted :
      (group.toNat <<< shift) % 2 ^ 64 =
        2 ^ shift * (group.toNat % 2 ^ (64 - shift)) := by
    rw [Nat.shiftLeft_eq, Nat.mul_comm, width, Nat.mul_mod_mul_left]
  have sum := Nat.two_pow_add_eq_or_of_lt low (group.toNat % 2 ^ (64 - shift))
  rw [UInt64.toNat_or, UInt64.toNat_shiftLeft, amount, shifted,
    Nat.or_comm, ← sum, width, Nat.mod_mul, Nat.add_mul_mod_self_left,
    Nat.mod_eq_of_lt low, Nat.add_mul_div_left _ _ (Nat.two_pow_pos _),
    Nat.div_eq_of_lt low, Nat.zero_add, Nat.add_comm]

theorem decodeUvarintLoop_round {byte : UInt8} {val : UInt64} {index : Nat}
    (early : index ≤ 9)
    (low : val.toNat < 2 ^ (7 * index)) (rest : List UInt8) :
    ∃ next : UInt64,
      next.toNat = (val.toNat + 2 ^ (7 * index) * (byte.toNat % 128)) % 2 ^ 64 ∧
        decodeUvarintLoop (byte :: rest) val (7 * index) index =
          if IsLast byte then
            .ok (next, index + 1)
          else
            decodeUvarintLoop rest next (7 * (index + 1)) (index + 1) := by
  have inside : 7 * index < 64 := by
    omega
  refine ⟨val |||
    ((byte &&& 0x7f).toUInt64 <<< UInt64.ofNat (7 * index)), ?_, ?_⟩
  · rw [toNat_or_shiftLeft_mod inside low, toNat_mask]
  · rw [decodeUvarintLoop, if_neg (Nat.not_le.mpr inside)]
    rfl

theorem decodeUvarintLoop_late (bytes : List UInt8) (val : UInt64) :
    ∃ failure, decodeUvarintLoop bytes val (7 * (9 + 1)) (9 + 1) =
      .error failure := by
  cases bytes with
  | nil =>
    exact ⟨_, rfl⟩
  | cons byte rest =>
    exact ⟨_, if_pos (by decide)⟩

theorem toNat_below {val next : UInt64} {index : Nat} (early : index + 1 ≤ 9)
    (low : val.toNat < 2 ^ (7 * index))
    (value :
      next.toNat =
        (val.toNat + 2 ^ (7 * index) * (byte.toNat % 128)) % 2 ^ 64) :
    next.toNat = val.toNat + 2 ^ (7 * index) * (byte.toNat % 128) ∧
      next.toNat < 2 ^ (7 * (index + 1)) := by
  have group : 2 ^ (7 * index) * (byte.toNat % 128) ≤ 2 ^ (7 * index) * 127 :=
    Nat.mul_le_mul_left _ (by omega)
  have width : 2 ^ (7 * (index + 1)) = 2 ^ (7 * index) * 128 := by
    rw [Nat.mul_add, pow_add]
    rfl
  have room : 2 ^ (7 * (index + 1)) ≤ 2 ^ 63 :=
    Nat.pow_le_pow_right (by decide) (by omega)
  have exact :
      (val.toNat + 2 ^ (7 * index) * (byte.toNat % 128)) % 2 ^ 64 =
        val.toNat + 2 ^ (7 * index) * (byte.toNat % 128) :=
    Nat.mod_eq_of_lt (by omega)
  rw [exact] at value
  exact ⟨value, by omega⟩

/-- The loop reads the groups as digits and wraps at the word size. -/
theorem decodeUvarintLoop_value {bytes : List UInt8}
    {val value : UInt64} {index consumed : Nat} (early : index ≤ 9)
    (low : val.toNat < 2 ^ (7 * index))
    (decoded :
      decodeUvarintLoop bytes val (7 * index) index = .ok (value, consumed)) :
    lastPosition bytes < bytes.length ∧
      consumed = index + (lastPosition bytes + 1) ∧
      consumed ≤ 10 ∧
      value.toNat =
        (val.toNat +
          2 ^ (7 * index) * groupSum bytes (lastPosition bytes + 1)) %
            2 ^ 64 := by
  induction bytes generalizing val index with
  | nil =>
    cases decoded
  | cons byte rest inductionHypothesis =>
    rcases @decodeUvarintLoop_round byte val index early low rest with
      ⟨next, added, round⟩
    rw [round] at decoded
    by_cases last : IsLast byte
    · rw [if_pos last] at decoded
      cases decoded
      rw [lastPosition_cons_of_last last, groupSum_cons, groupSum_zero]
      refine ⟨Nat.succ_pos _, rfl, by omega, ?_⟩
      rw [Nat.mul_zero, Nat.add_zero]
      exact added
    · rw [if_neg last] at decoded
      rcases Nat.lt_or_ge index 9 with before | tenth
      · rcases toNat_below before low added with ⟨value, below⟩
        rcases inductionHypothesis before below decoded with
          ⟨found, counted, short, total⟩
        rw [lastPosition_cons_of_not last, groupSum_cons, List.length_cons]
        refine ⟨by omega, by omega, short, ?_⟩
        rw [total, value]
        congr 1
        rw [Nat.mul_succ, pow_add]
        ring
      · have tenth : index = 9 := Nat.le_antisymm early tenth
        subst tenth
        rcases decodeUvarintLoop_late rest next with ⟨failure, late⟩
        rw [late] at decoded
        cases decoded

theorem decodeUvarintLoop_accepts {bytes : List UInt8} {val : UInt64}
    {index : Nat} (found : lastPosition bytes < bytes.length)
    (near : index + lastPosition bytes ≤ 9)
    (low : val.toNat < 2 ^ (7 * index)) :
    ∃ value consumed,
      decodeUvarintLoop bytes val (7 * index) index =
        .ok (value, consumed) := by
  induction bytes generalizing val index with
  | nil =>
    cases found
  | cons byte rest inductionHypothesis =>
    rcases @decodeUvarintLoop_round byte val index (by omega) low rest with
      ⟨next, added, round⟩
    rw [round]
    by_cases last : IsLast byte
    · rw [if_pos last]
      exact ⟨_, _, rfl⟩
    · rw [if_neg last]
      rw [lastPosition_cons_of_not last] at found near
      rw [List.length_cons] at found
      rcases toNat_below (by omega) low added with ⟨_, below⟩
      exact inductionHypothesis (by omega) (by omega) below

theorem decodeUvarint_value {value : UInt64} {consumed : Nat}
    (decoded : decodeUvarint bytes = .ok (value, consumed)) :
    lastPosition bytes < bytes.length ∧ consumed = lastPosition bytes + 1 ∧
      consumed ≤ 10 ∧
      value.toNat = groupSum bytes consumed % 2 ^ 64 := by
  rcases @decodeUvarintLoop_value bytes 0 value 0 consumed (Nat.zero_le _)
    Nat.one_pos decoded with
    ⟨found, counted, short, total⟩
  rw [Nat.zero_add] at counted
  refine ⟨found, counted, short, ?_⟩
  rw [total, counted]
  simp

theorem groupSum_fits (short : lastPosition bytes + 1 ≤ 10)
    (fits : ¬TenthTooLarge bytes) :
    groupSum bytes (lastPosition bytes + 1) < 2 ^ 64 := by
  have nine := groupSum_lt bytes (lastPosition bytes)
  have split :
      groupSum bytes (lastPosition bytes + 1) =
        groupSum bytes (lastPosition bytes) +
          (bytes.getD (lastPosition bytes) 0).toNat % 128 *
            128 ^ lastPosition bytes :=
    Finset.sum_range_succ _ _
  rcases Nat.lt_or_ge (lastPosition bytes) 9 with before | tenth
  · have whole := groupSum_lt bytes (lastPosition bytes + 1)
    have room : 128 ^ (lastPosition bytes + 1) ≤ 128 ^ 9 :=
      Nat.pow_le_pow_right (by decide) before
    exact Nat.lt_trans (Nat.lt_of_lt_of_le whole room) (by decide)
  · have position : lastPosition bytes = 9 := by
      omega
    have small : (bytes.getD 9 0).toNat < 2 := by
      by_contra large
      exact fits ⟨position, Nat.not_lt.mp large⟩
    rw [split, position]
    rw [position] at nine
    have group : (bytes.getD 9 0).toNat % 128 * 128 ^ 9 ≤ 1 * 128 ^ 9 :=
      Nat.mul_le_mul_right _ (by omega)
    have room : 128 ^ 9 + 1 * 128 ^ 9 = 2 ^ 64 := by
      decide
    omega

theorem accepts_of_tenthTooLarge (large : TenthTooLarge bytes) :
    ∃ value consumed,
      decodeUvarint bytes = .ok (value, consumed) ∧
        2 ^ 64 ≤ groupSum bytes consumed := by
  rcases large with ⟨position, large⟩
  have available : 9 < bytes.length := by
    by_contra missing
    rw [List.getD_eq_getElem?_getD,
      List.getElem?_eq_none (Nat.not_lt.mp missing)] at large
    exact absurd large (by decide)
  have found : lastPosition bytes < bytes.length := by
    rw [position]
    exact available
  rcases @decodeUvarintLoop_accepts bytes 0 0 found (by omega) Nat.one_pos with
    ⟨value, consumed, decoded⟩
  refine ⟨value, consumed, decoded, ?_⟩
  have last := isLast_lastPosition found
  rw [position] at last
  have small : (bytes.getD 9 0).toNat < 128 := (mark_eq_zero_iff _).mp last
  have split :
      groupSum bytes (9 + 1) =
        groupSum bytes 9 + (bytes.getD 9 0).toNat % 128 * 128 ^ 9 :=
    Finset.sum_range_succ _ _
  have group : 2 * 128 ^ 9 ≤ (bytes.getD 9 0).toNat % 128 * 128 ^ 9 :=
    Nat.mul_le_mul_right _ (by rw [Nat.mod_eq_of_lt small]; exact large)
  have word : 2 * 128 ^ 9 = 2 ^ 64 := by
    decide
  rw [(decodeUvarint_value decoded).2.1, position, split]
  omega

/--
Whenever `decode_uvarint` returns a number, it has read up to the first byte
with a clear top bit and the number is the one those groups write, if and only
if the byte string does not start with ten groups of which the last does not
fit.
-/
theorem uvarint_exact_iff (bytes : List UInt8) :
    (∀ value consumed,
      decodeUvarint bytes = .ok (value, consumed) →
        lastPosition bytes < bytes.length ∧ consumed = lastPosition bytes + 1 ∧
          value.toNat = groupSum bytes consumed) ↔
      ¬TenthTooLarge bytes := by
  constructor
  · rintro exact ⟨position, large⟩
    rcases accepts_of_tenthTooLarge ⟨position, large⟩ with
      ⟨value, consumed, decoded, overflow⟩
    rcases exact value consumed decoded with ⟨_, _, total⟩
    have bounded := value.toNat_lt
    omega
  · intro fits value consumed decoded
    rcases decodeUvarint_value decoded with ⟨found, counted, short, total⟩
    refine ⟨found, counted, ?_⟩
    rw [counted] at short
    rw [total, counted, Nat.mod_eq_of_lt (groupSum_fits short fits)]

/-- Nine empty groups and a tenth that is shifted out of the word. -/
def tenGroups : List UInt8 := List.replicate 9 0x80 ++ [0x02]

/-- Ten groups that stand for `2 ^ 64` are read as zero. -/
theorem tenGroups_misread :
    decodeUvarint tenGroups = .ok (0, 10) ∧ lastPosition tenGroups = 9 ∧
      groupSum tenGroups 10 = 2 ^ 64 := by
  decide +kernel

end Norn.Packet
