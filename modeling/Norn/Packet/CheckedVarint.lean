import Norn.Foundation.Checked
import Norn.Packet.Varint

/-!
# Variable-length numbers with their checks

`decode_uvarint` as it counts the bytes it has read: every shift and every sum
is checked.  It passes its checks on every slice.
-/

namespace Norn.Packet

open Foundation

/-- The loop of `decode_uvarint`. -/
def decodeUvarintCheckedLoop :
    List UInt8 → UInt64 → Nat → Nat → Checked FrameError (UInt64 × Nat)
  | [], _, _, _ => .failure .uvarintTruncated
  | byte :: rest, val, shift, index =>
    if 64 ≤ shift then
      .failure .uvarintOverflow
    else do
      let group ← Checked.shl (byte &&& 0x7f).toUInt64 shift
      let val := val ||| group
      let shift ← Checked.add 32 shift 7
      let next ← Checked.add 64 index 1
      if byte &&& 0x80 = 0 then
        .value (val, next)
      else
        decodeUvarintCheckedLoop rest val shift next

/-- `decode_uvarint`. -/
def decodeUvarintChecked (data : Slice) : Checked FrameError (UInt64 × Nat) :=
  decodeUvarintCheckedLoop data.bytes 0 0 0

theorem decodeUvarintCheckedLoop_returns {bytes : List UInt8} {val : UInt64}
    {shift index : Nat}
    (bounded : index + bytes.length < 2 ^ 64) :
    (decodeUvarintCheckedLoop bytes val shift index).Returns
      (decodeUvarintLoop bytes val shift index) := by
  induction bytes generalizing val shift index with
  | nil =>
    exact Checked.returns_failure _
  | cons byte rest inductionHypothesis =>
    rw [List.length_cons] at bounded
    refine .branch Iff.rfl (fun _ => Checked.returns_failure _) ?_
    intro small
    refine .step (Checked.shl_of_lt (Nat.not_le.mp small)) ?_
    refine .step (Checked.add_of_lt (by omega)) ?_
    refine .step (Checked.add_of_lt (by omega)) ?_
    refine .branch Iff.rfl (fun _ => Checked.returns_value _) ?_
    intro _
    exact inductionHypothesis (by omega)

theorem decodeUvarintChecked_returns (data : Slice) :
    (decodeUvarintChecked data).Returns (decodeUvarint data.bytes) := by
  have bounded := data.bounded
  exact decodeUvarintCheckedLoop_returns (by omega)

theorem consumed_le_of_decodeUvarintLoop {bytes : List UInt8}
    {val value : UInt64} {shift index consumed : Nat}
    (decoded :
      decodeUvarintLoop bytes val shift index = .ok (value, consumed)) :
    consumed ≤ index + bytes.length := by
  induction bytes generalizing val shift index with
  | nil =>
    cases decoded
  | cons byte rest inductionHypothesis =>
    unfold decodeUvarintLoop at decoded
    split_ifs at decoded
    · cases decoded
      rw [List.length_cons]
      omega
    · have further := inductionHypothesis decoded
      rw [List.length_cons]
      omega

theorem consumed_le_of_decodeUvarint {bytes : List UInt8} {value : UInt64}
    {consumed : Nat}
    (decoded : decodeUvarint bytes = .ok (value, consumed)) :
    consumed ≤ bytes.length := by
  have bound := consumed_le_of_decodeUvarintLoop decoded
  rwa [Nat.zero_add] at bound

end Norn.Packet
