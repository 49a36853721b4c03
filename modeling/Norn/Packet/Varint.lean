import Norn.Foundation.Bytes

/-!
# Variable-length integers

`encode_uvarint` and `decode_uvarint` of `packet.rs`: seven bits a byte, least
significant group first, the top bit set on all bytes but the last.

The encoder's loop runs at most ten times on a 64-bit word.  Encodings are
self-delimiting: whatever follows one, it is read back, and with it the
number of bytes it takes.
-/

namespace Norn.Packet

open Foundation

/-- The errors of the frame decoders. -/
inductive FrameError where
  | uvarintOverflow
  | uvarintTruncated
  | lengthTooLong
  | frameTooLarge (length : UInt64)
  | earlyEof
  | pathNotTerminated
  | nothingConsumed
  | pathTooLong
  | sigReqTooShort
  | sigReqNoPubKey
  | sigResTooShort
  | sigResNoKey
  | announceTooShort
  | announceNoSender
  | cuckooTooShort
  | cuckooDataTooShort (available : Nat)
  | pathLookupTooShort
  | pathNotifyTooShort
  | pathBrokenTooShort
  | pathNegativeTooShort
  | trafficTooShort (available : Nat)
  | trafficNoPresence
  | trafficCoordTruncated (available : Nat)
  | trafficPayloadOverflow
  | trafficPayloadTruncated (needed available : Nat)
  | holePunchTooShort (length : Nat)
  | holePunchTruncated (endpointLen available : Nat)
  | holePunchNotUtf8
  | onionKeyTooShort (length : Nat)
  | reputationTooShort (length : Nat)
  | coordTooShort (length : Nat)
  | coordVersion (version : UInt8)
  | capabilityTooShort (length : Nat)
  | onionTooShort (length : Nat)
  | onionTooLong (aeadLen : Nat)
  | onionOverflow
  | onionTruncated
  | panicked (reason : Panic)
  deriving DecidableEq, Repr

/-- The loop of `encode_uvarint`, for at most `fuel` rounds. -/
def encodeUvarintLoop : Nat → UInt64 → List UInt8
  | 0, _ => []
  | fuel + 1, v =>
    let byte := (v &&& 0x7f).toUInt8
    let rest := v >>> 7
    if rest = 0 then
      [byte]
    else
      (byte ||| 0x80) :: encodeUvarintLoop fuel rest

/-- `encode_uvarint`: ten rounds are enough for every 64-bit word. -/
def encodeUvarint (v : UInt64) : List UInt8 := encodeUvarintLoop 10 v

/-- The loop of `decode_uvarint`. -/
def decodeUvarintLoop :
    List UInt8 → UInt64 → Nat → Nat → Except FrameError (UInt64 × Nat)
  | [], _, _, _ => .error .uvarintTruncated
  | byte :: rest, val, shift, index =>
    if 64 ≤ shift then
      .error .uvarintOverflow
    else
      let val := val ||| ((byte &&& 0x7f).toUInt64 <<< UInt64.ofNat shift)
      if byte &&& 0x80 = 0 then
        .ok (val, index + 1)
      else
        decodeUvarintLoop rest val (shift + 7) (index + 1)

/-- `decode_uvarint`: the value and the number of bytes it takes. -/
def decodeUvarint (data : List UInt8) : Except FrameError (UInt64 × Nat) :=
  decodeUvarintLoop data 0 0 0

section Groups

variable (v : UInt64)

theorem toNat_group : (v &&& 0x7f).toUInt8.toNat = v.toNat % 128 := by
  rw [UInt64.toNat_toUInt8, UInt64.toNat_and]
  change (v.toNat &&& 127) % 2 ^ 8 = v.toNat % 128
  rw [Nat.and_two_pow_sub_one_eq_mod v.toNat 7]
  omega

theorem toNat_shift : (v >>> 7).toNat = v.toNat / 128 := by
  rw [UInt64.toNat_shiftRight]
  change v.toNat >>> 7 = v.toNat / 128
  rw [Nat.shiftRight_eq_div_pow]

theorem shift_eq_zero_iff : v >>> 7 = 0 ↔ v.toNat < 128 := by
  rw [← UInt64.toNat_inj, toNat_shift]
  change v.toNat / 128 = 0 ↔ _
  omega

end Groups

section Bytes

variable (byte : UInt8)

theorem toNat_mask : (byte &&& 0x7f).toUInt64.toNat = byte.toNat % 128 := by
  rw [UInt8.toNat_toUInt64, UInt8.toNat_and]
  exact Nat.and_two_pow_sub_one_eq_mod byte.toNat 7

theorem mark_eq_zero_iff : byte &&& 0x80 = 0 ↔ byte.toNat < 128 := by
  have all :
      ∀ value : Fin 256, UInt8.ofNat value.val &&& 0x80 = 0 ↔
        value.val < 128 := by
    decide +kernel
  simpa using all ⟨byte.toNat, byte.toNat_lt⟩

theorem toNat_marked (small : byte.toNat < 128) :
    (byte ||| 0x80).toNat = byte.toNat + 128 := by
  have sum := Nat.two_pow_add_eq_or_of_lt (i := 7) small 1
  rw [UInt8.toNat_or]
  change byte.toNat ||| 2 ^ 7 = byte.toNat + 128
  rw [Nat.or_comm, ← Nat.mul_one (2 ^ 7), ← sum]
  omega

end Bytes

theorem toNat_or_shiftLeft {val group : UInt64} {shift : Nat}
    (inside : shift < 64) (low : val.toNat < 2 ^ shift)
    (fits : group.toNat * 2 ^ shift < 2 ^ 64) :
    (val ||| (group <<< UInt64.ofNat shift)).toNat =
      val.toNat + group.toNat * 2 ^ shift := by
  have amount : (UInt64.ofNat shift).toNat % 64 = shift := by
    rw [UInt64.toNat_ofNat']
    omega
  have sum := Nat.two_pow_add_eq_or_of_lt low group.toNat
  rw [UInt64.toNat_or, UInt64.toNat_shiftLeft, amount,
    Nat.shiftLeft_eq, Nat.mod_eq_of_lt fits, Nat.or_comm,
    Nat.mul_comm group.toNat, ← sum]
  omega

theorem decodeUvarintLoop_cons {byte : UInt8} {val : UInt64}
    {shift : Nat} (inside : shift < 64) (low : val.toNat < 2 ^ shift)
    (fits : byte.toNat % 128 * 2 ^ shift < 2 ^ 64)
    (rest : List UInt8) (index : Nat) :
    ∃ next : UInt64,
      next.toNat = val.toNat + byte.toNat % 128 * 2 ^ shift ∧
        decodeUvarintLoop (byte :: rest) val shift index =
          if byte.toNat < 128 then
            .ok (next, index + 1)
          else
            decodeUvarintLoop rest next (shift + 7) (index + 1) := by
  have payload := toNat_mask byte
  have sum := toNat_or_shiftLeft inside low (by rw [payload]; exact fits)
  rw [payload] at sum
  refine ⟨_, sum, ?_⟩
  simp only [decodeUvarintLoop, if_neg (Nat.not_le.mpr inside),
    mark_eq_zero_iff]

theorem group_add_rest (number shift : Nat) :
    number % 128 * 2 ^ shift + number / 128 * 2 ^ (shift + 7) =
      number * 2 ^ shift := by
  calc
    number % 128 * 2 ^ shift + number / 128 * 2 ^ (shift + 7) =
        (number % 128 + 128 * (number / 128)) * 2 ^ shift := by
      ring
    _ = number * 2 ^ shift := by
      rw [Nat.mod_add_div]

theorem round_fits {number shift : Nat} (large : ¬ number < 128)
    (fits : number * 2 ^ shift < 2 ^ 64) : shift + 7 < 64 := by
  rw [← Nat.pow_lt_pow_iff_right (a := 2) (by omega)]
  calc
    2 ^ (shift + 7) = 128 * 2 ^ shift := by
      ring
    _ ≤ number * 2 ^ shift := Nat.mul_le_mul_right _ (Nat.not_lt.mp large)
    _ < 2 ^ 64 := fits

theorem group_below {low number shift : Nat} (below : low < 2 ^ shift) :
    low + number % 128 * 2 ^ shift < 2 ^ (shift + 7) := by
  have group : number % 128 * 2 ^ shift ≤ 127 * 2 ^ shift :=
    Nat.mul_le_mul_right _ (by omega)
  have width : 2 ^ (shift + 7) = 128 * 2 ^ shift := by
    ring
  omega

/--
The decoder undoes what is left of the encoder's loop: the value read so far
lies below `shift`, the rest of the number above it.
-/
theorem decodeUvarintLoop_encode (fuel : Nat) {v val : UInt64}
    {shift : Nat} (enough : v.toNat < 128 ^ fuel) (positive : 0 < fuel)
    (inside : shift < 64) (fits : v.toNat * 2 ^ shift < 2 ^ 64)
    (low : val.toNat < 2 ^ shift) (rest : List UInt8) (index : Nat) :
    ∃ result : UInt64,
      decodeUvarintLoop (encodeUvarintLoop fuel v ++ rest) val shift index =
        .ok (result, index + (encodeUvarintLoop fuel v).length) ∧
      result.toNat = val.toNat + v.toNat * 2 ^ shift := by
  induction fuel generalizing v val shift index with
  | zero => cases positive
  | succ fuel induction =>
    have group := toNat_group v
    have remaining := toNat_shift v
    have scaled := group_add_rest v.toNat shift
    by_cases last : v >>> 7 = 0
    · have bounded := (shift_eq_zero_iff v).mp last
      rcases @decodeUvarintLoop_cons (v &&& 0x7f).toUInt8 val shift
          inside low (by rw [group, Nat.mod_mod]; omega) rest index with
        ⟨next, value, decoded⟩
      refine ⟨next, ?_, ?_⟩
      · rw [if_pos (by omega)] at decoded
        simpa only [encodeUvarintLoop, if_pos last, List.cons_append,
          List.nil_append, List.length_singleton] using decoded
      · rw [value, group, Nat.mod_mod, Nat.mod_eq_of_lt bounded]
    · have large := mt (shift_eq_zero_iff v).mpr last
      have marked := toNat_marked (v &&& 0x7f).toUInt8 (by omega)
      have payload :
          ((v &&& 0x7f).toUInt8 ||| 0x80).toNat % 128 = v.toNat % 128 := by
        omega
      have left : 0 < fuel := by
        rcases Nat.eq_zero_or_pos fuel with rfl | positive
        · exact absurd enough large
        · exact positive
      have shorter : (v >>> 7).toNat < 128 ^ fuel := by
        rw [remaining]
        apply Nat.div_lt_of_lt_mul
        rwa [← Nat.pow_succ']
      rcases @decodeUvarintLoop_cons ((v &&& 0x7f).toUInt8 ||| 0x80) val
          shift inside low (by rw [payload]; omega)
          (encodeUvarintLoop fuel (v >>> 7) ++ rest) index with
        ⟨next, value, decoded⟩
      rw [payload] at value
      rw [if_neg (by omega)] at decoded
      rcases induction shorter left (round_fits large fits)
        (by rw [remaining]; omega)
          (by rw [value]; exact group_below low) (index + 1) with
        ⟨result, decodedRest, total⟩
      refine ⟨result, ?_, ?_⟩
      · simp only [encodeUvarintLoop, if_neg last, List.cons_append,
          List.length_cons]
        rw [decoded, decodedRest, Nat.add_assoc, Nat.add_comm 1]
      · rw [total, value, remaining]
        omega

theorem decodeUvarint_encodeUvarint (v : UInt64) (rest : List UInt8) :
    decodeUvarint (encodeUvarint v ++ rest) =
      .ok (v, (encodeUvarint v).length) := by
  have bounded : v.toNat < 2 ^ 64 := v.toNat_lt
  rcases @decodeUvarintLoop_encode 10 v 0 0 (by omega) (by omega)
      (by omega) (by omega) (by decide) rest 0 with
    ⟨result, decoded, value⟩
  have same : result = v := by
    apply UInt64.toNat_inj.mp
    rw [value]
    simp
  rw [← same, Nat.zero_add] at decoded
  rw [← same]
  exact decoded

theorem length_encodeUvarintLoop_le (fuel : Nat) {groups : Nat}
    {v : UInt64} (bounded : v.toNat < 128 ^ (groups + 1)) :
    (encodeUvarintLoop fuel v).length ≤ groups + 1 := by
  induction fuel generalizing groups v with
  | zero => exact Nat.zero_le _
  | succ fuel induction =>
    by_cases last : v >>> 7 = 0
    · simp only [encodeUvarintLoop, if_pos last, List.length_singleton]
      omega
    · cases groups with
      | zero => exact absurd ((shift_eq_zero_iff v).mpr bounded) last
      | succ groups =>
        have shorter : (v >>> 7).toNat < 128 ^ (groups + 1) := by
          rw [toNat_shift]
          apply Nat.div_lt_of_lt_mul
          rwa [← Nat.pow_succ']
        simp only [encodeUvarintLoop, if_neg last, List.length_cons]
        exact Nat.succ_le_succ (induction shorter)

theorem length_encodeUvarint_pos (v : UInt64) :
    1 ≤ (encodeUvarint v).length := by
  by_cases last : v >>> 7 = 0
  · simp [encodeUvarint, encodeUvarintLoop, last]
  · simp only [encodeUvarint, encodeUvarintLoop, if_neg last, List.length_cons]
    omega

theorem length_encodeUvarint_le (v : UInt64) :
    (encodeUvarint v).length ≤ 10 := by
  have bounded : v.toNat < 2 ^ 64 := v.toNat_lt
  exact length_encodeUvarintLoop_le 10 (by omega)

theorem length_encodeUvarint_toUInt64_le (v : UInt32) :
    (encodeUvarint v.toUInt64).length ≤ 5 := by
  have bounded : v.toNat < 2 ^ 32 := v.toNat_lt
  have value : v.toUInt64.toNat = v.toNat := UInt32.toNat_toUInt64 v
  exact length_encodeUvarintLoop_le 10 (by omega)

theorem encodeUvarint_append_inj {v w : UInt64} {left right : List UInt8}
    (same : encodeUvarint v ++ left = encodeUvarint w ++ right) :
    v = w ∧ left = right := by
  have read := decodeUvarint_encodeUvarint v left
  rw [same, decodeUvarint_encodeUvarint] at read
  have value := (Prod.mk.inj (Except.ok.inj read)).1
  subst value
  exact ⟨rfl, List.append_cancel_left same⟩

end Norn.Packet
