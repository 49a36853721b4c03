import Mathlib.Data.List.Basic
import Mathlib.Tactic.NormNum
import Mathlib.Tactic.Ring

/-!
# Fixed-width byte strings and checked machine arithmetic

`Bytes count` is a byte array of statically known length; its order is the
lexicographic one.  Reading a slice, subtracting and shifting are fallible:
an out-of-range index or an overflowing operation is reported as a `Panic`,
so that absence of panics is a property of the results.

Little-endian encodings are given for every width together with both round
trips.
-/

namespace Norn.Foundation

/-! ## Fallible computations -/

section Fallible

variable {Failure Other Value Result : Type}

@[simp]
theorem ok_bind (value : Value) (next : Value → Except Failure Result) :
    (Except.ok value >>= next) = next value :=
  rfl

@[simp]
theorem error_bind (failure : Failure) (next : Value → Except Failure Result) :
    (Except.error failure >>= next) = Except.error failure :=
  rfl

@[simp]
theorem pure_eq_ok (value : Value) :
    (pure value : Except Failure Value) = Except.ok value := rfl

@[simp]
theorem throw_eq_error (failure : Failure) :
    (throw failure : Except Failure Value) = Except.error failure :=
  rfl

@[simp]
theorem mapError_ok (convert : Failure → Other) (value : Value) :
    (Except.ok value : Except Failure Value).mapError convert =
      Except.ok value :=
  rfl

@[simp]
theorem mapError_error (convert : Failure → Other) (failure : Failure) :
    (Except.error failure : Except Failure Value).mapError convert =
      Except.error (convert failure) :=
  rfl

theorem bind_eq_ok_iff (first : Except Failure Value)
    (next : Value → Except Failure Result) (result : Result) :
    (first >>= next) = Except.ok result ↔
      ∃ value, first = Except.ok value ∧ next value = Except.ok result := by
  cases first with
  | error failure => simp
  | ok value => simp

end Fallible

instance decidableForallSome {Value : Type*} (value : Option Value)
    (holds : Value → Prop) [DecidablePred holds] :
    Decidable (∀ found, value = some found → holds found) :=
  match value with
  | none => isTrue nofun
  | some found =>
    decidable_of_iff (holds found)
      ⟨fun known _ same => Option.some.inj same ▸ known,
        fun always => always found rfl⟩

instance decidableExistsOk {Failure Value : Type*} :
    (value : Except Failure Value) → Decidable (∃ found, value = .ok found)
  | .ok found => isTrue ⟨found, rfl⟩
  | .error _ => isFalse nofun

/-- The ways in which a memory-safe program aborts. -/
inductive Panic where
  | sliceOutOfRange
  | arithmeticOverflow
  deriving DecidableEq, Repr

/-- Subtraction that aborts below zero. -/
def checkedSub (left right : UInt64) : Except Panic UInt64 :=
  if right ≤ left then .ok (left - right) else .error .arithmeticOverflow

/-- Left shift that aborts when the shift amount reaches the word width. -/
def checkedShl (value amount : UInt64) : Except Panic UInt64 :=
  if amount < 64 then .ok (value <<< amount) else .error .arithmeticOverflow

/-- Subtraction that stops at zero. -/
def saturatingSub (left right : UInt64) : UInt64 :=
  if right ≤ left then left - right else 0

/-- Addition that stops at the largest word. -/
def saturatingAdd (left right : UInt64) : UInt64 :=
  if left.toNat + right.toNat < 2 ^ 64 then
    left + right
  else
    0xffffffffffffffff

theorem checkedSub_of_le {left right : UInt64} (ordered : right ≤ left) :
    checkedSub left right = .ok (left - right) := by
  simp [checkedSub, ordered]

theorem checkedShl_of_lt {value amount : UInt64} (bounded : amount < 64) :
    checkedShl value amount = .ok (value <<< amount) := by
  simp [checkedShl, bounded]

theorem toNat_saturatingSub (left right : UInt64) :
    (saturatingSub left right).toNat = left.toNat - right.toNat := by
  unfold saturatingSub
  split_ifs with ordered
  · exact UInt64.toNat_sub_of_le left right ordered
  · have below : left.toNat < right.toNat := by
      simpa [UInt64.le_iff_toNat_le] using ordered
    simp only [UInt64.toNat_ofNat]
    omega

/-! ## Byte arrays -/

/-- A byte array of length `count`. -/
def Bytes (count : Nat) : Type :=
  { bytes : List UInt8 // bytes.length = count }

namespace Bytes

variable {count position : Nat} {left right : Bytes count} {data : List UInt8}

instance (count : Nat) : DecidableEq (Bytes count) :=
  inferInstanceAs (DecidableEq { bytes : List UInt8 // bytes.length = count })

/-- The bytes of an array, first byte first. -/
def toList {count : Nat} (bytes : Bytes count) : List UInt8 := bytes.val

@[simp]
theorem length_toList (bytes : Bytes count) : bytes.toList.length = count :=
  bytes.property

@[ext]
theorem ext (equal : left.toList = right.toList) :
    left = right :=
  Subtype.ext equal

/-- The array holding `count` copies of one byte. -/
def replicate (count : Nat) (byte : UInt8) : Bytes count :=
  ⟨List.replicate count byte, List.length_replicate⟩

instance (count : Nat) : Inhabited (Bytes count) := ⟨replicate count 0⟩

/-- Byte arrays are compared lexicographically. -/
instance (count : Nat) : LT (Bytes count) :=
  ⟨fun left right => left.toList < right.toList⟩

instance (count : Nat) : DecidableLT (Bytes count) :=
  fun left right =>
    inferInstanceAs (Decidable (left.toList < right.toList))

theorem lt_asymm (below : left < right) : ¬ right < left :=
  List.lt_asymm below

theorem lt_or_gt_of_ne (distinct : left ≠ right) :
    left < right ∨ right < left := by
  by_cases below : left < right
  · exact Or.inl below
  · right
    by_contra above
    apply distinct
    apply ext
    exact List.le_antisymm (List.not_lt.mp above) (List.not_lt.mp below)

theorem not_lt_trans {first second third : Bytes count} (low : ¬ second < first)
    (high : ¬ third < second) : ¬ third < first :=
  List.not_lt.mpr (List.le_trans (List.not_lt.mp low) (List.not_lt.mp high))

theorem eq_of_not_lt (notBelow : ¬ left < right) (notAbove : ¬ right < left) :
    left = right := by
  by_contra distinct
  rcases lt_or_gt_of_ne distinct with below | above
  · exact notBelow below
  · exact notAbove above

/-- A byte string of the right length, as an array. -/
def ofList (count : Nat) (bytes : List UInt8) : Option (Bytes count) :=
  if sized : bytes.length = count then some ⟨bytes, sized⟩ else none

@[simp]
theorem ofList_toList (bytes : Bytes count) :
    ofList count bytes.toList = some bytes :=
  dif_pos bytes.length_toList

theorem toList_of_ofList {bytes : List UInt8} {array : Bytes count}
    (converted : ofList count bytes = some array) :
    array.toList = bytes := by
  unfold ofList at converted
  split_ifs at converted
  cases converted
  rfl

/-- Change the byte at one position. -/
def modify {count : Nat} (bytes : Bytes count) (position : Nat)
    (change : UInt8 → UInt8) : Bytes count :=
  ⟨bytes.toList.modify position change, by
    rw [List.length_modify, length_toList]⟩

/-- The field of `width` bytes at `start` in a buffer of known size. -/
def field {count : Nat} (bytes : Bytes count) (start width : Nat)
    (inside : start + width ≤ count) : Bytes width :=
  ⟨(bytes.toList.drop start).take width, by
    rw [List.length_take, List.length_drop, length_toList]
    omega⟩

/-- A field that lies between two parts of a buffer is what was put there. -/
theorem field_eq {count width : Nat} {bytes : Bytes count}
    {front rest : List UInt8} (value : Bytes width)
    (layout : bytes.toList = front ++ (value.toList ++ rest))
    {start : Nat} (inside : start + width ≤ count)
    (positioned : start = front.length) :
    bytes.field start width inside = value := by
  apply ext
  change (bytes.toList.drop start).take width = value.toList
  rw [layout, positioned, List.drop_left, List.take_left' value.length_toList]

/-- A leading array is determined by the bytes, and so is what follows. -/
theorem append_inj {first second : Bytes count} {left right : List UInt8}
    (same : first.toList ++ left = second.toList ++ right) :
    first = second ∧ left = right := by
  rcases List.append_inj same (by simp) with ⟨front, back⟩
  exact ⟨ext front, back⟩

/-- The slice of `count` bytes that starts at `position`. -/
def sliceAt (data : List UInt8) (position count : Nat) :
    Except Panic (Bytes count) :=
  if inside : position + count ≤ data.length then
    .ok ⟨(data.drop position).take count, by
      rw [List.length_take, List.length_drop]
      omega⟩
  else
    .error .sliceOutOfRange

/-- A slice inside the data is read without a panic. -/
theorem sliceAt_of_le (inside : position + count ≤ data.length) :
    ∃ bytes : Bytes count,
      sliceAt data position count = .ok bytes ∧
        bytes.toList = (data.drop position).take count := by
  refine ⟨_, dif_pos inside, rfl⟩

/-- A slice that coincides with a field of the data returns that field. -/
theorem sliceAt_append (front : List UInt8) (field : Bytes count)
    (rest : List UInt8) (positioned : position = front.length) :
    sliceAt (front ++ (field.toList ++ rest)) position count = .ok field := by
  have inside :
      position + count ≤ (front ++ (field.toList ++ rest)).length := by
    simp only [List.length_append, length_toList]
    omega
  obtain ⟨bytes, read, content⟩ := sliceAt_of_le inside
  have same : bytes = field := by
    apply ext
    rw [content, positioned, List.drop_left, List.take_left' (by simp)]
  rw [read, same]

/-- A slice of the front of the data is one of the data. -/
theorem sliceAt_take {length : Nat} (inside : position + count ≤ length) :
    sliceAt (data.take length) position count =
      sliceAt data position count := by
  by_cases available : position + count ≤ data.length
  · have kept : position + count ≤ (data.take length).length := by
      rw [List.length_take]
      exact Nat.le_min.mpr ⟨inside, available⟩
    rcases sliceAt_of_le kept with ⟨first, read, content⟩
    rcases sliceAt_of_le available with ⟨second, found, bytes⟩
    have same : first = second := by
      apply ext
      rw [content, bytes, List.drop_take, List.take_take,
        Nat.min_eq_left (by omega)]
    rw [read, found, same]
  · have missing : ¬position + count ≤ (data.take length).length := by
      rw [List.length_take]
      omega
    unfold sliceAt
    rw [dif_neg available, dif_neg missing]

/-- Read `count` bytes off the front of the data. -/
def read (count : Nat) (data : List UInt8) :
    Except Panic (Bytes count × List UInt8) :=
  if inside : count ≤ data.length then
    .ok (⟨data.take count, by rw [List.length_take]; omega⟩, data.drop count)
  else
    .error .sliceOutOfRange

@[simp]
theorem read_append (field : Bytes count) (rest : List UInt8) :
    read count (field.toList ++ rest) = .ok (field, rest) := by
  have inside : count ≤ (field.toList ++ rest).length := by
    simp
  have front : (field.toList ++ rest).take count = field.toList :=
    List.take_left' field.length_toList
  have back : (field.toList ++ rest).drop count = rest :=
    List.drop_left' field.length_toList
  simp only [read, dif_pos inside, back, front]
  rfl

/-- Reading splits the data without losing a byte. -/
theorem eq_append_of_read {rest : List UInt8} {field : Bytes count}
    (taken : read count data = .ok (field, rest)) :
    data = field.toList ++ rest := by
  unfold read at taken
  split_ifs at taken with inside
  cases taken
  exact (List.take_append_drop count data).symm

end Bytes

/-- The bytes of an ASCII string literal. -/
def asciiBytes (text : String) : List UInt8 :=
  text.toList.map fun character => UInt8.ofNat character.toNat

/-! ## Little-endian numbers -/

/-- The `width` low-order bytes of a number, least significant first. -/
def littleEndian : Nat → Nat → List UInt8
  | 0, _ => []
  | width + 1, number =>
    UInt8.ofNat number :: littleEndian width (number / 256)

/-- The number written by a little-endian byte string. -/
def littleEndianValue : List UInt8 → Nat
  | [] => 0
  | byte :: rest => byte.toNat + 256 * littleEndianValue rest

@[simp]
theorem length_littleEndian (width number : Nat) :
    (littleEndian width number).length = width := by
  induction width generalizing number with
  | zero => rfl
  | succ width induction => simp [littleEndian, induction]

theorem littleEndianValue_littleEndian (width number : Nat) :
    littleEndianValue (littleEndian width number) = number % 256 ^ width := by
  induction width generalizing number with
  | zero => simp [littleEndian, littleEndianValue, Nat.mod_one]
  | succ width induction =>
    have lowByte : (UInt8.ofNat number).toNat = number % 256 := by
      simp
    simp only [littleEndian, littleEndianValue, induction, lowByte]
    rw [pow_succ, Nat.mul_comm (256 ^ width) 256, Nat.mod_mul]

/-- Numbers that fit the width are determined by their bytes. -/
theorem littleEndian_inj {width first second : Nat}
    (firstFits : first < 256 ^ width) (secondFits : second < 256 ^ width)
    (same : littleEndian width first = littleEndian width second) :
    first = second := by
  have values := congrArg littleEndianValue same
  rwa [littleEndianValue_littleEndian, littleEndianValue_littleEndian,
    Nat.mod_eq_of_lt firstFits, Nat.mod_eq_of_lt secondFits] at values

/-- The bytes that wrote a number are those it is written with. -/
theorem littleEndian_littleEndianValue (bytes : List UInt8) :
    littleEndian bytes.length (littleEndianValue bytes) = bytes := by
  induction bytes with
  | nil => rfl
  | cons byte rest induction =>
    have bound := byte.toNat_lt
    have low :
        UInt8.ofNat (byte.toNat + 256 * littleEndianValue rest) =
          byte := by
      apply UInt8.toNat_inj.mp
      rw [UInt8.toNat_ofNat']
      omega
    have high :
        (byte.toNat + 256 * littleEndianValue rest) / 256 =
          littleEndianValue rest := by
      omega
    rw [List.length_cons, littleEndianValue, littleEndian, low, high, induction]

/-- The two little-endian bytes of a 16-bit word. -/
def u16ToLe (word : UInt16) : Bytes 2 :=
  ⟨littleEndian 2 word.toNat, length_littleEndian 2 word.toNat⟩

theorem u16ToLe_injective : Function.Injective u16ToLe := by
  intro left right equal
  apply UInt16.toNat_inj.mp
  exact littleEndian_inj left.toNat_lt right.toNat_lt
    (congrArg Bytes.toList equal)

/-- The 16-bit word written by two little-endian bytes. -/
def u16FromLe (bytes : Bytes 2) : UInt16 :=
  UInt16.ofNat (littleEndianValue bytes.toList)

@[simp]
theorem u16FromLe_u16ToLe (word : UInt16) :
    u16FromLe (u16ToLe word) = word := by
  apply UInt16.toNat_inj.mp
  simp only [u16FromLe, u16ToLe, Bytes.toList, littleEndianValue_littleEndian,
    UInt16.toNat_ofNat']
  have small : word.toNat < 2 ^ 16 := word.toNat_lt
  omega

@[simp]
theorem u16ToLe_u16FromLe (bytes : Bytes 2) :
    u16ToLe (u16FromLe bytes) = bytes := by
  apply Bytes.ext
  have written := littleEndian_littleEndianValue bytes.toList
  have same :
      ∀ number, littleEndian 2 (number % 2 ^ 16) =
        littleEndian 2 number := by
    intro number
    simp only [littleEndian, List.cons.injEq, and_true]
    constructor
    · apply UInt8.toNat_inj.mp
      rw [UInt8.toNat_ofNat', UInt8.toNat_ofNat']
      omega
    · apply UInt8.toNat_inj.mp
      rw [UInt8.toNat_ofNat', UInt8.toNat_ofNat']
      omega
  rw [Bytes.length_toList] at written
  change littleEndian 2 (UInt16.ofNat _).toNat = _
  rw [UInt16.toNat_ofNat', same, written]

/-- The four little-endian bytes of a 32-bit word. -/
def u32ToLe (word : UInt32) : Bytes 4 :=
  ⟨littleEndian 4 word.toNat, length_littleEndian 4 word.toNat⟩

theorem u32ToLe_injective : Function.Injective u32ToLe := by
  intro left right equal
  apply UInt32.toNat_inj.mp
  exact littleEndian_inj left.toNat_lt right.toNat_lt
    (congrArg Bytes.toList equal)

/-- The 32-bit word written by four little-endian bytes. -/
def u32FromLe (bytes : Bytes 4) : UInt32 :=
  UInt32.ofNat (littleEndianValue bytes.toList)

@[simp]
theorem u32FromLe_u32ToLe (word : UInt32) :
    u32FromLe (u32ToLe word) = word := by
  apply UInt32.toNat_inj.mp
  simp only [u32FromLe, u32ToLe, Bytes.toList, littleEndianValue_littleEndian,
    UInt32.toNat_ofNat']
  have small : word.toNat < 2 ^ 32 := word.toNat_lt
  omega

/-- The eight little-endian bytes of a 64-bit word. -/
def u64ToLe (word : UInt64) : Bytes 8 :=
  ⟨littleEndian 8 word.toNat, length_littleEndian 8 word.toNat⟩

/-- The 64-bit word written by eight little-endian bytes. -/
def u64FromLe (bytes : Bytes 8) : UInt64 :=
  UInt64.ofNat (littleEndianValue bytes.toList)

@[simp]
theorem u64FromLe_u64ToLe (word : UInt64) :
    u64FromLe (u64ToLe word) = word := by
  apply UInt64.toNat_inj.mp
  simp only [u64FromLe, u64ToLe, Bytes.toList, littleEndianValue_littleEndian,
    UInt64.toNat_ofNat']
  have small : word.toNat < 2 ^ 64 := word.toNat_lt
  omega

theorem u64ToLe_injective : Function.Injective u64ToLe := by
  intro left right equal
  have decoded := congrArg u64FromLe equal
  simpa using decoded

end Norn.Foundation
