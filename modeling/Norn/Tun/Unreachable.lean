import Norn.Tun.Adapter

/-!
# The replies for unreachable destinations

A reply of the adapter is an IPv6 packet with an ICMPv6 message in it.  What a
receiver checks is stated over the packet alone: its size, its fields, and
that the ones' complement sum over the pseudo-header and the message, in which
carries are added at the other end, has all bits set.

Such a sum is a remainder modulo `65535`, with `65535` in the place of zero
unless all words are zero, and so is what `internet_checksum` computes.
-/

namespace Norn.Tun

open Foundation

/-! ## Ones' complement sums -/

/-- Addition with the carry added at the other end. -/
def addEndAround (left right : Nat) : Nat :=
  if left + right < 65536 then left + right else left + right - 65535

/-- The ones' complement sum of the words of a byte string. -/
def onesComplementSum (data : List UInt8) : Nat :=
  (bigEndianWords data).foldl addEndAround 0

/-- The remainder of a sum, with `65535` in the place of zero. -/
structure Folds (sum folded : Nat) : Prop where
  congruent : folded % 65535 = sum % 65535
  word : folded < 65536
  zero : folded = 0 ↔ sum = 0

theorem Folds.eq_ones {sum folded : Nat} (folds : Folds sum folded)
    (multiple : sum % 65535 = 0) (positive : 0 < sum) :
    folded = 65535 := by
  have congruent := folds.congruent
  have word := folds.word
  have zero := folds.zero
  omega

theorem folds_foldCarries (sum : Nat) : Folds sum (foldCarries sum) := by
  induction sum using Nat.strong_induction_on with
  | _ sum induction =>
    rw [foldCarries]
    split_ifs with small
    · exact ⟨rfl, small, Iff.rfl⟩
    · have folds := induction (sum % 65536 + sum / 65536) (by omega)
      have congruent := folds.congruent
      have zero := folds.zero
      exact ⟨by omega, folds.word, by omega⟩

theorem Folds.addEndAround {sum folded word : Nat}
    (folds : Folds sum folded) (bounded : word < 65536) :
    Folds (sum + word) (addEndAround folded word) := by
  have congruent := folds.congruent
  have size := folds.word
  have zero := folds.zero
  unfold Tun.addEndAround
  split_ifs <;> exact ⟨by omega, by omega, by omega⟩

theorem bigEndianWords_lt (data : List UInt8) :
    ∀ word ∈ bigEndianWords data, word < 65536 := by
  fun_induction bigEndianWords data with
  | case1 => simp
  | case2 high =>
    have bound := UInt8.toNat_lt high
    simp only [List.mem_singleton, forall_eq]
    omega
  | case3 high low rest induction =>
    have highBound := UInt8.toNat_lt high
    have lowBound := UInt8.toNat_lt low
    simp only [List.mem_cons, forall_eq_or_imp]
    exact ⟨by omega, induction⟩

theorem folds_onesComplementSum (data : List UInt8) :
    Folds (bigEndianWords data).sum (onesComplementSum data) := by
  have fold :
      ∀ (words : List Nat) (sum folded : Nat),
        (∀ word ∈ words, word < 65536) → Folds sum folded →
          Folds (sum + words.sum) (words.foldl addEndAround folded) := by
    intro words
    induction words with
    | nil => exact fun _ _ _ folds => folds
    | cons word words induction =>
      intro sum folded bounded folds
      rw [List.sum_cons, ← Nat.add_assoc]
      exact induction _ _ (fun other member => bounded other (by simp [member]))
        (folds.addEndAround (bounded word (by simp)))
  have all :=
    fold (bigEndianWords data) 0 0 (bigEndianWords_lt data)
      ⟨rfl, by omega, Iff.rfl⟩
  rwa [Nat.zero_add] at all

theorem bigEndianWords_append {front : List UInt8}
    (even : front.length % 2 = 0) (back : List UInt8) :
    bigEndianWords (front ++ back) =
      bigEndianWords front ++ bigEndianWords back := by
  fun_induction bigEndianWords front with
  | case1 => rfl
  | case2 high => simp at even
  | case3 high low rest induction =>
    simp only [List.length_cons] at even
    rw [List.cons_append, List.cons_append, bigEndianWords,
      induction (by omega), List.cons_append]

/-- The word at a position of a packet. -/
def wordAt (pkt : List UInt8) (position : Nat) : Nat :=
  (pkt.getD position 0).toNat * 256 + (pkt.getD (position + 1) 0).toNat

/-- The pseudo-header of the message in an ICMPv6 packet. -/
def pseudoHeader (pkt : List UInt8) : List UInt8 :=
  (pkt.drop 8).take 16 ++ ((pkt.drop 24).take 16 ++
    (twoBytes ((pkt.length - 40) / 65536) ++
      (twoBytes (pkt.length - 40) ++ [0, 0, 0, 58])))

theorem bigEndianWords_twoBytes {value : Nat} (word : value < 65536)
    (rest : List UInt8) :
    bigEndianWords (twoBytes value ++ rest) = value :: bigEndianWords rest := by
  simp only [twoBytes, List.cons_append, List.nil_append, bigEndianWords,
    UInt8.toNat_ofNat', List.cons.injEq, and_true]
  omega

theorem sum_bigEndianWords {front : List UInt8}
    (even : front.length % 2 = 0) {value : Nat} (word : value < 65536)
    (quoted : List UInt8) :
    (bigEndianWords (front ++ (1 :: 0 :: (twoBytes value ++ quoted)))).sum =
      (bigEndianWords front).sum + 256 + value +
        (bigEndianWords quoted).sum := by
  rw [bigEndianWords_append even, bigEndianWords,
    bigEndianWords_twoBytes word, List.sum_append, List.sum_cons,
    List.sum_cons]
  change _ + (256 + _) = _
  omega

/-- A sum is completed by its checksum. -/
theorem checksum_completes {front : List UInt8}
    (even : front.length % 2 = 0) (quoted : List UInt8) :
    onesComplementSum
        (front ++ (1 :: 0 ::
          (twoBytes
            (internetChecksum (front ++ (1 :: 0 :: ([0, 0] ++ quoted)))) ++
              quoted))) = 65535 := by
  have before := sum_bigEndianWords even (show 0 < 65536 by decide) quoted
  change (bigEndianWords (front ++ (1 :: 0 :: ([0, 0] ++ quoted)))).sum =
    _ at before
  have folds :=
    folds_foldCarries
      (bigEndianWords (front ++ (1 :: 0 :: ([0, 0] ++ quoted)))).sum
  have congruent := folds.congruent
  have word := folds.word
  have after :=
    sum_bigEndianWords even
      (show internetChecksum (front ++ (1 :: 0 :: ([0, 0] ++ quoted))) < 65536
        by unfold internetChecksum; omega)
      quoted
  rw [internetChecksum] at after ⊢
  apply (folds_onesComplementSum _).eq_ones
  · omega
  · omega

/-- The parts of a packet with a header of forty bytes. -/
theorem drop_header {pkt ourAddr source body : List UInt8}
    (layout : pkt.drop 8 = ourAddr ++ (source ++ body))
    (ours : ourAddr.length = 16) (sources : source.length = 16) :
    (pkt.drop 8).take 16 = ourAddr ∧ (pkt.drop 24).take 16 = source ∧
      pkt.drop 40 = body := by
  have behind : pkt.drop 24 = source ++ body := by
    rw [show 24 = 8 + 16 from rfl, ← List.drop_drop, layout,
      List.drop_left' ours]
  refine ⟨?_, ?_, ?_⟩
  · rw [layout, List.take_left' ours]
  · rw [behind, List.take_left' sources]
  · rw [show 40 = 24 + 16 from rfl, ← List.drop_drop, behind,
      List.drop_left' sources]

/--
Every reply is a packet that its receiver accepts: of a size that every link
carries, with the right length and destination, as much of the packet it is
about as fits, and a checksum that completes the sum.
-/
theorem icmpv6_unreachable_well_formed (ourAddr : Bytes 16)
    (origPkt : List UInt8) :
    (origPkt.length < 40 → icmpv6DestUnreachable ourAddr origPkt = none) ∧
      (40 ≤ origPkt.length →
        ∃ pkt, icmpv6DestUnreachable ourAddr origPkt = some pkt ∧
          pkt.length ≤ 1280 ∧ wordAt pkt 4 = pkt.length - 40 ∧
          (pkt.drop 24).take 16 = (origPkt.drop 8).take 16 ∧
          pkt.drop 48 = origPkt.take (1280 - 48) ∧
          onesComplementSum (pseudoHeader pkt ++ pkt.drop 40) = 65535) := by
  constructor
  · exact fun short => if_pos short
  · intro long
    have sources : ((origPkt.drop 8).take 16).length = 16 := by
      rw [List.length_take, List.length_drop]
      omega
    have quoted : (origPkt.take (1280 - 40 - 8)).length ≤ 1232 :=
      List.length_take_le _ origPkt
    rw [show 1280 - 48 = 1280 - 40 - 8 from rfl]
    simp only [icmpv6DestUnreachable, if_neg (Nat.not_lt.mpr long)]
    refine ⟨_, rfl, ?_⟩
    generalize origPkt.take (1280 - 40 - 8) = orig at quoted
    generalize (origPkt.drop 8).take 16 = source at sources
    have ours := ourAddr.length_toList
    have completed :=
      @checksum_completes
        (ourAddr.toList ++ (source ++
          (twoBytes ((8 + orig.length) / 65536) ++
            (twoBytes (8 + orig.length) ++ [0, 0, 0, 58]))))
        (by
          simp only [List.length_append, ours, sources, twoBytes,
            List.length_cons, List.length_nil])
        (0 :: 0 :: 0 :: 0 :: orig)
    generalize internetChecksum _ = checksum at completed ⊢
    generalize built :
      0x60 :: 0 :: 0 :: 0 ::
          (twoBytes (8 + orig.length) ++
            58 :: 64 :: (ourAddr.toList ++ source)) ++
        1 :: 0 :: (twoBytes checksum ++ 0 :: 0 :: 0 :: 0 :: orig) = pkt
    have size : pkt.length = 48 + orig.length := by
      rw [← built]
      simp only [List.length_append, List.length_cons, ours, sources,
        twoBytes, List.length_nil]
      omega
    have payload : pkt.length - 40 = 8 + orig.length := by omega
    have layout :
        pkt.drop 8 =
          ourAddr.toList ++ (source ++
            (1 :: 0 :: (twoBytes checksum ++ 0 :: 0 :: 0 :: 0 :: orig))) := by
      rw [← built, ← List.append_assoc]
      rfl
    rcases drop_header layout ours sources with ⟨src, dst, body⟩
    refine ⟨by omega, ?_, dst, ?_, ?_⟩
    · rw [payload, ← built]
      change
        (UInt8.ofNat ((8 + orig.length) / 256)).toNat * 256 +
          (UInt8.ofNat (8 + orig.length)).toNat = _
      rw [UInt8.toNat_ofNat', UInt8.toNat_ofNat']
      omega
    · rw [show 48 = 40 + 8 from rfl, ← List.drop_drop, body]
      rfl
    · rw [pseudoHeader, src, dst, body, payload]
      exact completed

end Norn.Tun
