import Norn.Onion.Layers
import Norn.Packet.CheckedVarint

/-!
# Peeling a layer with its checks

`OnionPacket::peel` as it indexes the plaintext of a layer.  Whoever builds a
layer chooses its plaintext, and with it the length that stands behind the
type byte.  The sum of that length and the position behind it is not checked:
it may overflow.  In every other case the checks pass, and what is returned is
as many bytes behind the length as it says.

With overflow checks off the sum wraps around and the slice that starts behind
it is out of range; that is the outcome of `peel` on lists.
-/

namespace Norn.Onion

open Foundation Packet

variable {P : Primitives}

/-- The content of a layer behind its type byte. -/
def contentChecked (truncated : OnionError) (buf : Slice) :
    Checked OnionError (List UInt8) := do
  let behind ← buf.behind 1
  let (length, consumed) ← (decodeUvarintChecked behind).mapFailure .frame
  let start ← Checked.add 64 1 consumed
  let finish ← Checked.add 64 start length.toNat
  if buf.length < finish then
    .failure truncated
  else
    let content ← buf.between start finish
    return content.bytes

/-- `OnionPacket::peel`. -/
def peelChecked (packet : OnionPacket) (keys : OnionKeyChain P) :
    Checked OnionError PeeledOnion :=
  match keys.tryDecrypt packet.epk packet.aeadPayload with
  | .error failure => .failure failure
  | .ok opened => do
      let buf ← Slice.alloc opened
      if buf.bytes = [] then
        .failure .emptyPayload
      else
        let layerType ← buf.index 0
        if layerType = onionForward then
          let inner ← contentChecked .forwardTruncated buf
          return .forward inner
        else if layerType = onionDeliver then
          let traffic ← contentChecked .deliverTruncated buf
          return .deliver traffic
        else
          .failure (.unknownType layerType)

/-- What a peeled layer holds. -/
def PeeledOnion.content : PeeledOnion → List UInt8
  | .forward inner => inner
  | .deliver traffic => traffic

/--
A layer that opens declares a length behind its type byte: the plaintext
behind that byte, the length and the number of bytes that it takes.
-/
def Declares (packet : OnionPacket) (keys : OnionKeyChain P)
    (data : List UInt8) (length : UInt64) (consumed : Nat) : Prop :=
  ∃ layerType,
    keys.tryDecrypt packet.epk packet.aeadPayload = .ok (layerType :: data) ∧
      (layerType = onionForward ∨ layerType = onionDeliver) ∧
      decodeUvarint data = .ok (length, consumed)

/-- The declared length does not overflow behind its position. -/
def LengthFits (packet : OnionPacket) (keys : OnionKeyChain P) : Prop :=
  ∀ data length consumed,
    Declares packet keys data length consumed →
      1 + consumed + length.toNat < 2 ^ 64

/-- The bytes are as many behind the declared length as it says. -/
def IsDeclared (packet : OnionPacket) (keys : OnionKeyChain P)
    (content : List UInt8) : Prop :=
  ∃ data length consumed,
    Declares packet keys data length consumed ∧
      content = (data.drop consumed).take length.toNat ∧
      content.length = length.toNat

/-! ## The content of a layer -/

section Content

variable {truncated : OnionError} {buf : Slice} {layerType : UInt8}
variable {data : List UInt8}

theorem ok_of_mapError {Value : Type} {outcome : Except FrameError Value}
    {result : Value}
    (converted : outcome.mapError OnionError.frame = .ok result) :
    outcome = .ok result := by
  cases outcome with
  | error failure =>
    cases converted
  | ok value =>
    cases converted
    rfl

theorem behind_typeByte (holds : buf.bytes = layerType :: data) :
    ∃ behind : Slice,
      buf.behind 1 = (.value behind : Checked OnionError Slice) ∧
        ((decodeUvarintChecked behind).mapFailure OnionError.frame).Returns
          ((decodeUvarint data).mapError .frame) := by
  have one : 1 ≤ buf.length := by
    unfold Slice.length
    rw [holds, List.length_cons]
    omega
  rcases @Slice.behind_of_le OnionError buf 1 one with ⟨behind, found, content⟩
  rw [holds] at content
  have returns := decodeUvarintChecked_returns behind
  rw [content] at returns
  exact ⟨behind, found, returns.mapFailure _⟩

theorem contentChecked_returns (holds : buf.bytes = layerType :: data)
    (fits :
      ∀ length consumed, decodeUvarint data = .ok (length, consumed) →
        1 + consumed + length.toNat < 2 ^ 64) :
    (contentChecked truncated buf).Returns (readContent truncated data) := by
  rcases behind_typeByte holds with ⟨behind, found, returns⟩
  refine .step found ?_
  refine .bind returns ?_
  rintro ⟨length, consumed⟩ converted
  have decoded := ok_of_mapError converted
  have bound := fits length consumed decoded
  have sized : buf.length = data.length + 1 := by
    unfold Slice.length
    rw [holds, List.length_cons]
  refine .step (Checked.add_of_lt (by omega)) ?_
  refine .step (Checked.add_of_lt bound) ?_
  simp only [Nat.mod_eq_of_lt bound]
  refine .branch (by rw [sized]) (fun _ => Checked.returns_failure _) ?_
  intro enough
  rw [if_neg (Nat.not_lt.mpr (Nat.le_add_right ..))]
  rcases @Slice.between_of_le OnionError buf (1 + consumed)
      (1 + consumed + length.toNat) (Nat.le_add_right ..)
      (Nat.not_lt.mp enough) with
    ⟨content, taken, bytes⟩
  rw [holds, Nat.add_comm 1, List.drop_succ_cons] at bytes
  refine .step taken ?_
  rw [bytes, Nat.add_comm consumed]
  exact Checked.returns_value _

theorem contentChecked_stops (holds : buf.bytes = layerType :: data)
    {length : UInt64} {consumed : Nat}
    (decoded : decodeUvarint data = .ok (length, consumed))
    (overflow : 2 ^ 64 ≤ 1 + consumed + length.toNat) :
    contentChecked truncated buf = .stop .overflow := by
  rcases behind_typeByte holds with ⟨behind, found, returns⟩
  rw [decoded] at returns
  change _ = Checked.value (length, consumed) at returns
  have bounded := buf.bounded
  rw [holds, List.length_cons] at bounded
  have inside := consumed_le_of_decodeUvarint decoded
  have first :
      (Checked.add 64 1 consumed :
        Checked OnionError Nat) = .value (1 + consumed) :=
    Checked.add_of_lt (by omega)
  have second :
      (Checked.add 64 (1 + consumed) length.toNat : Checked OnionError Nat) =
        .stop .overflow :=
    if_neg (Nat.not_lt.mpr overflow)
  unfold contentChecked
  rw [Checked.bind_of_value found, Checked.bind_of_value returns]
  simp only [first, Checked.value_bind, second]
  rfl

end Content

section Peeling

variable {packet : OnionPacket} {keys : OnionKeyChain P}

theorem alloc_opened {layerType : UInt8} {data : List UInt8}
    (short : (layerType :: data).length < 2 ^ 63) :
    ∃ buf : Slice,
      Slice.alloc (layerType :: data) =
          (.value buf : Checked OnionError Slice) ∧
        buf.bytes = layerType :: data ∧
        buf.bytes ≠ [] ∧
        buf.index 0 = (.value layerType : Checked OnionError UInt8) := by
  rcases @Slice.alloc_of_lt OnionError _ short with ⟨buf, allocated, holds⟩
  refine ⟨buf, allocated, holds, ?_, ?_⟩
  · rw [holds]
    exact List.cons_ne_nil _ _
  · exact Slice.index_of_getElem? (by rw [holds]; rfl)

/-- Without an overflow the checked reading of a layer is the plain one. -/
theorem peelChecked_returns
    (vector :
      ∀ opened,
        keys.tryDecrypt packet.epk packet.aeadPayload = .ok opened →
          opened.length < 2 ^ 63)
    (fits : LengthFits packet keys) :
    (peelChecked packet keys).Returns (peel packet keys) := by
  unfold peelChecked peel
  cases opens : keys.tryDecrypt packet.epk packet.aeadPayload with
  | error failure =>
    exact Checked.returns_failure _
  | ok opened =>
    cases opened with
    | nil =>
      exact Checked.returns_failure _
    | cons layerType data =>
      rcases alloc_opened (vector _ opens) with
        ⟨buf, allocated, holds, some, first⟩
      refine .step allocated ?_
      rw [if_neg some]
      refine .step first ?_
      refine .branch Iff.rfl ?_ ?_
      · intro forward
        refine
          .bind (contentChecked_returns holds ?_)
            (fun _ _ => Checked.returns_value _)
        intro length consumed decoded
        exact fits data length consumed
          ⟨layerType, opens, .inl forward, decoded⟩
      · intro _
        refine .branch Iff.rfl ?_ (fun _ => Checked.returns_failure _)
        intro deliver
        refine
          .bind (contentChecked_returns holds ?_)
            (fun _ _ => Checked.returns_value _)
        intro length consumed decoded
        exact fits data length consumed
          ⟨layerType, opens, .inr deliver, decoded⟩

theorem peelChecked_stops
    (vector :
      ∀ opened,
        keys.tryDecrypt packet.epk packet.aeadPayload = .ok opened →
          opened.length < 2 ^ 63)
    {data : List UInt8} {length : UInt64} {consumed : Nat}
    (declares : Declares packet keys data length consumed)
    (overflow : 2 ^ 64 ≤ 1 + consumed + length.toNat) :
    peelChecked packet keys = .stop .overflow := by
  rcases declares with ⟨layerType, opens, kind, decoded⟩
  rcases alloc_opened (vector _ opens) with ⟨buf, allocated, holds, some, first⟩
  unfold peelChecked
  rw [opens]
  refine (Checked.bind_of_value allocated _).trans ?_
  rw [if_neg some]
  refine (Checked.bind_of_value first _).trans ?_
  rcases kind with rfl | rfl
  · rw [if_pos rfl, contentChecked_stops holds decoded overflow]
    rfl
  · rw [if_neg (by decide), if_pos rfl,
      contentChecked_stops holds decoded overflow]
    rfl

theorem declared_of_readContent {truncated : OnionError}
    {data content : List UInt8}
    (reads : readContent truncated data = .ok content) :
    ∃ length consumed,
      decodeUvarint data = .ok (length, consumed) ∧
        content = (data.drop consumed).take length.toNat ∧
        content.length = length.toNat := by
  unfold readContent at reads
  cases decoded : decodeUvarint data with
  | error failure =>
    rw [decoded] at reads
    cases reads
  | ok result =>
    rcases result with ⟨length, consumed⟩
    rw [decoded] at reads
    simp only [Except.mapError, ok_bind] at reads
    refine ⟨length, consumed, rfl, ?_⟩
    split_ifs at reads with truncates wraps
    have whole :
        (1 + consumed + length.toNat) % 2 ^ 64 =
          1 + consumed + length.toNat := by
      have small := length.toNat_lt
      omega
    rw [whole] at truncates reads
    rw [Nat.add_sub_cancel_left] at reads
    cases reads
    refine ⟨rfl, ?_⟩
    rw [List.length_take, List.length_drop]
    omega

theorem isDeclared_of_peel {peeled : PeeledOnion}
    (peels : peel packet keys = .ok peeled) :
    IsDeclared packet keys peeled.content := by
  unfold peel at peels
  cases opens : keys.tryDecrypt packet.epk packet.aeadPayload with
  | error failure =>
    rw [opens] at peels
    cases peels
  | ok opened =>
    rw [opens] at peels
    cases opened with
    | nil =>
      cases peels
    | cons layerType data =>
      simp only [ok_bind] at peels
      split_ifs at peels with forward deliver
      · rcases (bind_eq_ok_iff _ _ _).mp peels with ⟨inner, reads, returned⟩
        cases returned
        rcases declared_of_readContent reads with
          ⟨length, consumed, decoded, exactly⟩
        exact
          ⟨data, length, consumed, ⟨layerType, opens, .inl forward, decoded⟩,
            exactly⟩
      · rcases (bind_eq_ok_iff _ _ _).mp peels with ⟨traffic, reads, returned⟩
        cases returned
        rcases declared_of_readContent reads with
          ⟨length, consumed, decoded, exactly⟩
        exact
          ⟨data, length, consumed, ⟨layerType, opens, .inr deliver, decoded⟩,
            exactly⟩

/--
Peeling passes all its checks and, if it succeeds, returns exactly the
declared bytes, if and only if the declared length does not overflow.
-/
theorem peel_safe_iff (packet : OnionPacket) (keys : OnionKeyChain P)
    (vector :
      ∀ opened,
        keys.tryDecrypt packet.epk packet.aeadPayload = .ok opened →
          opened.length < 2 ^ 63) :
    (∃ outcome,
      (peelChecked packet keys).Returns outcome ∧
        ∀ peeled, outcome = .ok peeled →
          IsDeclared packet keys peeled.content) ↔
      LengthFits packet keys := by
  constructor
  · rintro ⟨outcome, returns, _⟩ data length consumed declares
    by_contra large
    rw [peelChecked_stops vector declares (Nat.not_lt.mp large)] at returns
    cases outcome with
    | error failure =>
      cases returns
    | ok peeled =>
      cases returns
  · intro fits
    refine ⟨peel packet keys, peelChecked_returns vector fits, ?_⟩
    intro peeled peels
    exact isDeclared_of_peel peels

end Peeling

/-- The keys of a node. -/
def peelingKeys : OnionKeyChain Primitives.transparent :=
  OnionKeyChain.new (P := Primitives.transparent) (Bytes.replicate 32 7) 0

/-- A layer that the node opens, with a plaintext of the builder's choice. -/
def layerOf (plaintext : List UInt8) : OnionPacket where
  routingTag := Bytes.replicate 16 0
  epk := Bytes.replicate 32 1
  aeadPayload :=
    List.replicate 32 8 ++ (List.replicate 12 0 ++
      (List.replicate 32 1 ++ plaintext))

/-- An exit layer with three bytes of traffic and some padding. -/
def exitPlaintext : List UInt8 := [onionDeliver, 3, 10, 11, 12, 0]

/-- An exit layer that declares `2 ^ 64 - 1` bytes of traffic. -/
def hostilePlaintext : List UInt8 :=
  onionDeliver :: (List.replicate 9 0xff ++ [0x01])

theorem exitPlaintext_opens :
    peelingKeys.tryDecrypt (layerOf exitPlaintext).epk
      (layerOf exitPlaintext).aeadPayload =
      .ok exitPlaintext := by
  decide +kernel

/-- The exit layer is peeled, and its traffic is as long as it says. -/
theorem exitPlaintext_safe :
    (∃ outcome,
      (peelChecked (layerOf exitPlaintext) peelingKeys).Returns outcome ∧
        ∀ peeled, outcome = .ok peeled →
          IsDeclared (layerOf exitPlaintext) peelingKeys peeled.content) := by
  apply (peel_safe_iff (layerOf exitPlaintext) peelingKeys ?_).mpr
  · rintro data length consumed ⟨layerType, opens, _, decoded⟩
    rw [exitPlaintext_opens] at opens
    cases opens
    have three : decodeUvarint [3, 10, 11, 12, 0] = .ok (3, 1) := by
      decide +kernel
    rw [three] at decoded
    cases decoded
    decide
  · intro opened opens
    rw [exitPlaintext_opens] at opens
    cases opens
    decide

/-- The hostile layer stops a node, with overflow checks and without. -/
theorem hostilePlaintext_stops :
    peelChecked (layerOf hostilePlaintext) peelingKeys = .stop .overflow ∧
      peel (layerOf hostilePlaintext) peelingKeys =
        .error (.frame (.panicked .sliceOutOfRange)) ∧
      ¬ LengthFits (layerOf hostilePlaintext) peelingKeys := by
  have opens :
      peelingKeys.tryDecrypt (layerOf hostilePlaintext).epk
          (layerOf hostilePlaintext).aeadPayload =
        .ok hostilePlaintext := by
    decide +kernel
  have decoded :
      decodeUvarint (List.replicate 9 0xff ++ [0x01]) =
        .ok (0xffffffffffffffff, 10) := by
    decide +kernel
  have declares :
      Declares (layerOf hostilePlaintext) peelingKeys
        (List.replicate 9 0xff ++ [0x01]) 0xffffffffffffffff 10 :=
    ⟨onionDeliver, opens, .inr rfl, decoded⟩
  refine ⟨?_, by decide +kernel, ?_⟩
  · apply peelChecked_stops _ declares (by decide)
    intro opened found
    rw [opens] at found
    cases found
    decide
  · intro fits
    exact absurd (fits _ _ _ declares) (by decide)

end Norn.Onion
