import Norn.Foundation.Bits

/-!
# Addresses from keys

`address.rs` counts the leading ones in the hash of a key, which stand for the
work behind the key, and derives an IPv6 address and a subnet from the hash: a
first byte that tells the two apart, the number of leading ones, and the bits
of the hash behind the zero that ends them.

An index behind the end of the hash stops the program; that is the outcome
`none`.
-/

namespace Norn.Address

open Foundation

/-! ## Counting -/

section Count

variable {N : Type*} [Add N] [OfNat N 1]

/-- The loop over the bits of a byte; `false` stands for `break 'outer`. -/
def countBits (byte : UInt8) : List Nat → N → N × Bool
  | [], ones => (ones, true)
  | bit :: bits, ones =>
    if byte &&& (1 <<< UInt8.ofNat bit) != 0 then
      countBits byte bits (ones + 1)
    else
      (ones, false)

/-- The loop over the bytes of a hash. -/
def countOnes : List UInt8 → N → N
  | [], ones => ones
  | byte :: bytes, ones =>
    match countBits byte (List.range 8).reverse ones with
    | (ones, true) => countOnes bytes ones
    | (ones, false) => ones

end Count

/-- `key_difficulty_bits`, given the hash of the key. -/
def keyDifficultyBits (hash : Bytes 64) : UInt32 :=
  countOnes hash.toList 0

/-! ## Derivations -/

/-- One round of the loop that copies bits. -/
def copyBit {size : Nat} (hash : Bytes 64) (startBit : Nat)
    (derived : Bytes size) (i : Nat) : Option (Bytes size) :=
  let srcBit := startBit + i
  let srcByte := srcBit / 8
  let srcBitInByte := 7 - srcBit % 8
  hash.toList[srcByte]?.map fun byte =>
    let bit := (byte >>> UInt8.ofNat srcBitInByte) &&& 1
    let dstByte := 2 + i / 8
    let dstBitInByte := 7 - i % 8
    derived.modify dstByte fun old =>
      old ||| bit <<< UInt8.ofNat dstBitInByte

/-- What a derivation starts with. -/
def blank (size : Nat) (first : UInt8) (ones : Nat) : Bytes (2 + size) :=
  ⟨first :: UInt8.ofNat ones :: List.replicate size 0, by
    rw [List.length_cons, List.length_cons, List.length_replicate]
    omega⟩

/-- The two derivations. -/
def fromHash (size count : Nat) (first : UInt8) (hash : Bytes 64) :
    Option (Bytes (2 + size)) :=
  let ones := countOnes hash.toList 0
  (List.range count).foldlM (copyBit hash (ones + 1)) (blank size first ones)

/-- `addr_from_hash`. -/
def addrFromHash (hash : Bytes 64) : Option (Bytes 16) :=
  fromHash 14 112 0x02 hash

/-- `subnet_from_hash`. -/
def subnetFromHash (hash : Bytes 64) : Option (Bytes 8) :=
  fromHash 6 48 0x03 hash

/-- The leading ones of a hash. -/
def leadingOnes (hash : Bytes 64) : Nat :=
  ((bitsOf hash.toList).takeWhile id).length

section Count

variable {N : Type*} [Add N] [OfNat N 1]

theorem countBits_eq (byte : UInt8) (bits : List Nat) (ones : N) :
    let read := bits.map fun bit =>
      byte &&& (1 <<< UInt8.ofNat bit) != 0
    countBits byte bits ones =
      ((· + 1)^[(read.takeWhile id).length] ones,
        decide ((read.takeWhile id).length = read.length)) := by
  induction bits generalizing ones with
  | nil => rfl
  | cons bit bits induction =>
    simp only [countBits, List.map_cons, List.takeWhile_cons, id_eq]
    split_ifs
    · rw [induction]
      simp only [List.length_cons, Nat.add_right_cancel_iff,
        Function.iterate_succ_apply]
    · simp

/-- The loop adds one for every leading one. -/
theorem countOnes_eq (bytes : List UInt8) (ones : N) :
    countOnes bytes ones =
      (· + 1)^[((bitsOf bytes).takeWhile id).length] ones := by
  induction bytes generalizing ones with
  | nil => rfl
  | cons byte bytes induction =>
    have counted := countBits_eq byte (List.range 8).reverse ones
    change
      countBits byte _ ones =
        ((· + 1)^[((byteBits byte).takeWhile id).length] ones,
          decide
            (((byteBits byte).takeWhile id).length = (byteBits byte).length))
            at counted
    rw [countOnes, counted, bitsOf_cons, List.takeWhile_append]
    split_ifs with whole
    · simp only [whole, decide_true]
      rw [induction, List.length_append, Nat.add_comm,
        Function.iterate_add_apply]
    · simp only [whole, decide_false]

/-- A counter that starts at zero ends at the number of leading ones. -/
theorem countOnes_leadingOnes {value : Nat → N}
    (next : ∀ count, value (count + 1) = value count + 1) (hash : Bytes 64) :
    countOnes hash.toList (value 0) = value (leadingOnes hash) := by
  have counts (times : Nat) : (· + 1)^[times] (value 0) = value times := by
    induction times with
    | zero => rfl
    | succ times induction =>
      rw [Function.iterate_succ_apply', induction, next]
  rw [countOnes_eq, counts, leadingOnes]

end Count

theorem keyDifficultyBits_eq (hash : Bytes 64) :
    keyDifficultyBits hash = UInt32.ofNat (leadingOnes hash) := by
  have next (count : Nat) :
      UInt32.ofNat (count + 1) = UInt32.ofNat count + 1 := by
    rw [UInt32.ofNat_add]
    rfl
  exact countOnes_leadingOnes next hash

theorem take_leadingOnes {hash : Bytes 64} (fewer : leadingOnes hash < 512) :
    (bitsOf hash.toList).take (leadingOnes hash + 1) =
      List.replicate (leadingOnes hash) true ++ [false] := by
  have split :=
    List.takeWhile_append_dropWhile (p := id) (l := bitsOf hash.toList)
  have ones :
      (bitsOf hash.toList).takeWhile id =
        List.replicate (leadingOnes hash) true := by
    rw [List.eq_replicate_iff]
    exact ⟨rfl, List.all_eq_true.mp List.all_takeWhile⟩
  rw [ones] at split
  have length := congrArg List.length split
  rw [List.length_append, List.length_replicate, length_bitsOf,
    Bytes.length_toList] at length
  cases rest : (bitsOf hash.toList).dropWhile id with
  | nil =>
    rw [rest, List.length_nil] at length
    omega
  | cons bit bits =>
    have zero : bit = false := by
      have nonempty : (bitsOf hash.toList).dropWhile id ≠ [] := by
        simp [rest]
      have head := List.head_dropWhile_not id nonempty
      simpa [rest] using head
    rw [rest, zero] at split
    rw [← split, List.take_append, List.length_replicate,
      List.take_of_length_le (by simp)]
    simp

theorem leadingOnes_eq {hash : Bytes 64} {count : Nat}
    (front :
      (bitsOf hash.toList).take (count + 1) =
        List.replicate count true ++ [false]) :
    leadingOnes hash = count := by
  rw [leadingOnes, ← List.take_append_drop (count + 1)
    (bitsOf hash.toList), front, List.append_assoc,
    List.takeWhile_append_of_pos (by simp)]
  simp

theorem getElem?_bitsOf_modify {bytes : List UInt8} {value : UInt8}
    {set : Bool} (isBit : value.toNat = set.toNat) (index : Nat)
    {position : Nat}
    (clear : (bitsOf bytes)[16 + index]? = some false) :
    (bitsOf (bytes.modify (2 + index / 8) fun old =>
        old ||| value <<< UInt8.ofNat (7 - index % 8)))[position]? =
      if position = 16 + index then some set
      else (bitsOf bytes)[position]? := by
  rw [getElem?_bitsOf] at clear
  rw [getElem?_bitsOf, getElem?_bitsOf, List.getElem?_modify]
  have place : (16 + index) / 8 = 2 + index / 8 := by omega
  have same : (16 + index) % 8 = index % 8 := by omega
  rw [place, same] at clear
  by_cases byte : 2 + index / 8 = position / 8
  · rw [← byte]
    cases content : bytes[2 + index / 8]? with
    | none => simp [content] at clear
    | some old =>
      simp only [content, Option.map_some, Option.some.injEq] at clear
      simp only [Option.map_eq_map, Option.map_some, if_true,
        testBit_or_shiftLeft old isBit (show 7 - index % 8 < 8 by omega)
          (show 7 - position % 8 < 8 by omega)]
      by_cases here : position = 16 + index
      · have bit : position % 8 = index % 8 := by omega
        simp [here, same, clear]
      · have bit : ¬ 7 - position % 8 = 7 - index % 8 := by omega
        simp [here, bit]
  · have elsewhere : position ≠ 16 + index := by
      rintro rfl
      exact byte place.symm
    simp [byte, elsewhere]

theorem copyBit_eq {size : Nat} {hash : Bytes 64} {startBit i : Nat}
    {derived : Bytes size} (inside : startBit + i < 512)
    (clear : (bitsOf derived.toList)[16 + i]? = some false) :
    ∃ next, copyBit hash startBit derived i = some next ∧
      ∀ position, (bitsOf next.toList)[position]? =
        if position = 16 + i then (bitsOf hash.toList)[startBit + i]?
        else (bitsOf derived.toList)[position]? := by
  have read := getElem?_bitsOf hash.toList (startBit + i)
  have within : (startBit + i) / 8 < hash.toList.length := by
    rw [Bytes.length_toList]
    omega
  simp only [copyBit]
  rw [List.getElem?_eq_getElem within, Option.map_some] at read
  rw [List.getElem?_eq_getElem within, Option.map_some]
  refine ⟨_, rfl, ?_⟩
  intro position
  rw [read]
  exact getElem?_bitsOf_modify
    (shiftRight_and_one _ (show 7 - (startBit + i) % 8 < 8 by omega)) i
    clear

/-- The first bits have been copied. -/
theorem copied_bits {size : Nat} {hash : Bytes 64} {startBit count : Nat}
    {start : Bytes size} (inside : startBit + count ≤ 512)
    (clear : ∀ i < count, (bitsOf start.toList)[16 + i]? = some false) :
    ∃ derived,
      (List.range count).foldlM (copyBit hash startBit) start = some derived ∧
        ∀ position, (bitsOf derived.toList)[position]? =
          if 16 ≤ position ∧ position < 16 + count then
            (bitsOf hash.toList)[startBit + (position - 16)]?
          else
            (bitsOf start.toList)[position]? := by
  induction count with
  | zero =>
    refine ⟨start, rfl, ?_⟩
    intro position
    rw [if_neg (by omega)]
  | succ count induction =>
    rcases induction (by omega) (fun i below => clear i (by omega)) with
      ⟨before, folded, bits⟩
    have untouched : (bitsOf before.toList)[16 + count]? = some false := by
      rw [bits, if_neg (by omega)]
      exact clear count (by omega)
    rcases @copyBit_eq _ hash startBit count before (by omega) untouched with
      ⟨next, copied, nextBits⟩
    refine ⟨next, ?_, ?_⟩
    · rw [List.range_succ, List.foldlM_append, folded]
      simp [copied]
    · intro position
      rw [nextBits, bits]
      by_cases here : position = 16 + count
      · rw [if_pos here, if_pos (by omega), here, Nat.add_sub_cancel_left]
      · rw [if_neg here]
        by_cases earlier : 16 ≤ position ∧ position < 16 + count
        · rw [if_pos earlier, if_pos (by omega)]
        · rw [if_neg earlier, if_neg (by omega)]

/-- A derivation has its two bytes and then the bits behind the zero. -/
theorem fromHash_eq {size count : Nat} (whole : count = 8 * size)
    (first : UInt8) {hash : Bytes 64}
    (inside : leadingOnes hash + 1 + count ≤ 512) :
    ∃ tail, (fromHash size count first hash).map Bytes.toList =
        some (first :: UInt8.ofNat (leadingOnes hash) :: tail) ∧
      bitsOf tail =
        ((bitsOf hash.toList).drop (leadingOnes hash + 1)).take count := by
  have ones : countOnes hash.toList 0 = leadingOnes hash :=
    @countOnes_leadingOnes _ _ _ id (fun _ => rfl) hash
  have layout :
      bitsOf (blank size first (leadingOnes hash)).toList =
        bitsOf [first, UInt8.ofNat (leadingOnes hash)] ++
          bitsOf (List.replicate size 0) :=
    bitsOf_append [first, UInt8.ofNat (leadingOnes hash)] _
  have clear :
      ∀ i < count,
        (bitsOf (blank size first (leadingOnes hash)).toList)[16 + i]? =
          some false := by
    intro i below
    have within : i / 8 < size := by omega
    rw [layout, List.getElem?_append_right (by simp), getElem?_bitsOf]
    simp [within]
  rcases copied_bits inside clear with ⟨derived, folded, bits⟩
  have all :
      bitsOf derived.toList =
        bitsOf [first, UInt8.ofNat (leadingOnes hash)] ++
          ((bitsOf hash.toList).drop (leadingOnes hash + 1)).take
            count := by
    apply List.ext_getElem?
    intro position
    rw [bits, layout]
    by_cases front : position < 16
    · rw [if_neg (by omega), List.getElem?_append_left (by simpa),
        List.getElem?_append_left (by simpa)]
    · rw [List.getElem?_append_right (by simp; omega),
        List.getElem?_append_right (by simp; omega)]
      simp only [length_bitsOf, List.length_cons, List.length_nil,
        List.getElem?_take, List.getElem?_drop]
      by_cases inner : position < 16 + count
      · rw [if_pos ⟨by omega, inner⟩, if_pos (by omega)]
      · rw [if_neg (by omega), if_neg (by omega),
          List.getElem?_eq_none (by simp; omega)]
  rw [← List.take_append_drop 2 derived.toList, bitsOf_append] at all
  rcases List.append_inj all (by simp) with ⟨two, rest⟩
  refine ⟨derived.toList.drop 2, ?_, rest⟩
  have parts := List.take_append_drop 2 derived.toList
  rw [bitsOf_injective two] at parts
  rw [fromHash, ones, folded, Option.map_some, ← parts]
  rfl

theorem take_bits_eq_iff {hash other : Bytes 64} {count : Nat}
    (fewer : leadingOnes hash < 512) :
    (bitsOf hash.toList).take (leadingOnes hash + 1 + count) =
        (bitsOf other.toList).take (leadingOnes hash + 1 + count) ↔
      (bitsOf other.toList).take (leadingOnes hash + 1) =
          List.replicate (leadingOnes hash) true ++ [false] ∧
        ((bitsOf hash.toList).drop (leadingOnes hash + 1)).take count =
          ((bitsOf other.toList).drop (leadingOnes hash + 1)).take
            count := by
  have parts (bits : List Bool) :
      bits.take (leadingOnes hash + 1 + count) =
        bits.take (leadingOnes hash + 1) ++
          (bits.drop (leadingOnes hash + 1)).take count :=
    List.take_add
  rw [parts, parts, take_leadingOnes fewer]
  constructor
  · intro same
    rcases List.append_inj' same (by simp) with ⟨front, back⟩
    exact ⟨front.symm, back⟩
  · rintro ⟨front, back⟩
    rw [front, back]

/--
Addresses and subnets are what they are meant to be: the byte in front, the
number of leading ones, and the bits behind the zero that ends them.  So two
hashes have the same address just when they agree up to the last bit copied.
-/
theorem address_derivation (hash : Bytes 64) (few : leadingOnes hash ≤ 255) :
    (∃ tail, (addrFromHash hash).map Bytes.toList =
        some (0x02 :: UInt8.ofNat (leadingOnes hash) :: tail) ∧
      bitsOf tail =
        ((bitsOf hash.toList).drop (leadingOnes hash + 1)).take 112) ∧
      (∃ tail, (subnetFromHash hash).map Bytes.toList =
          some (0x03 :: UInt8.ofNat (leadingOnes hash) :: tail) ∧
        bitsOf tail =
          ((bitsOf hash.toList).drop (leadingOnes hash + 1)).take 48) ∧
      (keyDifficultyBits hash).toNat = leadingOnes hash ∧
      ∀ other : Bytes 64, leadingOnes other ≤ 255 →
        (addrFromHash hash = addrFromHash other ↔
          (bitsOf hash.toList).take (leadingOnes hash + 113) =
            (bitsOf other.toList).take (leadingOnes hash + 113)) := by
  refine ⟨?_, ?_, ?_, ?_⟩
  · exact @fromHash_eq 14 112 rfl 0x02 hash (by omega)
  · exact @fromHash_eq 6 48 rfl 0x03 hash (by omega)
  · rw [keyDifficultyBits_eq, UInt32.toNat_ofNat']
    omega
  · intro other otherFew
    rcases @fromHash_eq 14 112 rfl 0x02 hash (by omega) with
      ⟨tail, derived, bits⟩
    rcases @fromHash_eq 14 112 rfl 0x02 other (by omega) with
      ⟨otherTail, otherDerived, otherBits⟩
    have lists :
        addrFromHash hash = addrFromHash other ↔
          (addrFromHash hash).map Bytes.toList =
            (addrFromHash other).map Bytes.toList :=
      (Option.map_injective fun _ _ => Bytes.ext).eq_iff.symm
    have agree := @take_bits_eq_iff hash other 112 (few.trans_lt (by omega))
    rw [Nat.add_assoc] at agree
    rw [lists, agree]
    unfold addrFromHash
    rw [derived, otherDerived]
    constructor
    · intro same
      simp only [Option.some.injEq, List.cons.injEq, true_and] at same
      have ones : leadingOnes other = leadingOnes hash := by
        have bytes := congrArg UInt8.toNat same.1
        simp only [UInt8.toNat_ofNat'] at bytes
        omega
      rw [ones] at otherBits
      refine ⟨?_, ?_⟩
      · rw [← ones]
        exact take_leadingOnes (by omega)
      · rw [← bits, ← otherBits, same.2]
    · rintro ⟨front, back⟩
      have ones := leadingOnes_eq front
      rw [ones] at otherBits
      rw [ones, bitsOf_injective (bits.trans (back.trans otherBits.symm))]

/-- The address of the hash that starts with one bit and is zero otherwise. -/
theorem address_of_one_bit :
    leadingOnes ⟨0x80 :: List.replicate 63 0, rfl⟩ = 1 ∧
      ∃ tail,
        (addrFromHash ⟨0x80 :: List.replicate 63 0, rfl⟩).map Bytes.toList =
          some (0x02 :: 1 :: tail) := by
  have one : leadingOnes ⟨0x80 :: List.replicate 63 0, rfl⟩ = 1 := by
    decide +kernel
  rcases (address_derivation ⟨0x80 :: List.replicate 63 0, rfl⟩
    (by rw [one]; omega)).1 with ⟨tail, derived, _⟩
  rw [one] at derived
  exact ⟨one, tail, derived⟩

end Norn.Address
