import Norn.Foundation.Checked
import Norn.Router.HopBound

/-!
# Freshness of timestamps

A handshake message and a hole punch carry the wall clock of their sender.
The receiver reinterprets its own clock and the timestamp as signed words and
subtracts them before it compares.  The timestamp is any word: in its upper
half the difference overflows, or it is the one to a timestamp before the
origin of the clock.
-/

namespace Norn.Router

open Foundation Packet Session

/-- The skew of two wall-clock readings, with the overflow check. -/
def clockSkewChecked {Failure : Type} (now timestamp : UInt64) :
    Checked Failure UInt64 := do
  let difference ← Checked.subSigned now.toInt64 timestamp.toInt64
  return UInt64.ofNat difference.toInt.natAbs

/-- `SessionInit::verify` and `SessionAck::verify`. -/
def verifyChecked (P : Primitives) {kind : HandshakeKind}
    (message : HandshakeMessage kind) (expectedRecipient : Bytes 32)
    (nowMs : UInt64) : Checked HandshakeError Unit :=
  if message.recipientEdPub ≠ expectedRecipient then
    .failure (.notAddressedToUs kind)
  else do
    let skew ← clockSkewChecked nowMs message.timestampMs
    if handshakeTimeWindowMs < skew then
      .failure (.timestampOutside kind skew)
    else if !P.isVerifyingKey message.edPub then
      .failure .invalidVerifyingKey
    else if !P.verifyStrict message.edPub message.signedBytes
        message.signature then
      .failure .invalidSignature
    else
      .value ()

/-- Why a hole punch is dropped. -/
inductive HolePunchDrop where
  | invalidVerifyingKey
  | invalidSignature
  | outsideWindow
  deriving DecidableEq

section Checks

variable {P : Primitives} {F : Floats}

/-- `handle_hole_punch`, with the reason of a drop. -/
def handleHolePunchChecked (self : Node P F) (env : RelayEnv P F)
    (punch : HolePunch) : Checked HolePunchDrop (Node P F × Outgoing) :=
  if !P.isVerifyingKey punch.initiator then
    .failure .invalidVerifyingKey
  else if !P.verifyStrict punch.initiator punch.signBytes punch.sig then
    .failure .invalidSignature
  else do
    let skew ← clockSkewChecked env.frame.call.nowMs punch.validFromMs
    if Node.holePunchWindowMs < skew then
      .failure .outsideWindow
    else if punch.target = self.pubKey then
      .value (self, [])
    else
      .value (self, self.sendTowards punch.target punch.encode)

/-- Two readings differ by at most the window, as integers. -/
def Within (window now timestamp : UInt64) : Prop :=
  |(now.toNat : Int) - timestamp.toNat| ≤ window.toNat

/--
The timestamp is in the lower half of the words, or so far in the upper half
that the difference neither overflows nor looks like a small one.
-/
def Comparable (window now timestamp : UInt64) : Prop :=
  timestamp.toNat < 2 ^ 63 ∨
    now.toNat + 2 ^ 63 < timestamp.toNat ∧
      window.toNat + timestamp.toNat < now.toNat + 2 ^ 64

/--
A function that checks the freshness of a timestamp gets through the
arithmetic, and it ends with one of the errors for a stale timestamp exactly
if the readings differ by more than the window.
-/
def ChecksExactly {Failure Value : Type}
    (outcome : Checked Failure Value) (stale : Set Failure)
    (window now timestamp : UInt64) : Prop :=
  outcome ≠ .stop .overflow ∧
    ((∃ failure ∈ stale, outcome = .failure failure) ↔
      ¬ Within window now timestamp)

section Skew

variable {now timestamp window : UInt64}

theorem toInt_toInt64_of_lt {word : UInt64} (low : word.toNat < 2 ^ 63) :
    word.toInt64.toInt = word.toNat := by
  change word.toBitVec.toInt = (word.toBitVec.toNat : Int)
  apply BitVec.toInt_eq_toNat_of_lt
  change 2 * word.toNat < _
  omega

theorem toInt_toInt64_of_le {word : UInt64} (high : 2 ^ 63 ≤ word.toNat) :
    word.toInt64.toInt = (word.toNat : Int) - 2 ^ 64 := by
  change word.toBitVec.toInt = (word.toBitVec.toNat : Int) - 2 ^ 64
  rw [BitVec.toInt_eq_toNat_cond, if_neg]
  · rfl
  · change ¬ 2 * word.toNat < _
    omega

theorem clockSkewChecked_of_bounds {Failure : Type} {difference : Int}
    (exactly : now.toInt64.toInt - timestamp.toInt64.toInt = difference)
    (low : -2 ^ 63 ≤ difference) (high : difference < 2 ^ 63) :
    (clockSkewChecked now timestamp :
      Checked Failure UInt64) = .value (clockSkew now timestamp) ∧
      (clockSkew now timestamp).toNat = difference.natAbs := by
  have passes :
      (Checked.subSigned now.toInt64 timestamp.toInt64 :
        Checked Failure Int64) =
        .value (now.toInt64 - timestamp.toInt64) :=
    if_pos (by rw [exactly]; exact ⟨low, high⟩)
  refine ⟨Checked.bind_of_value passes _, ?_⟩
  unfold clockSkew
  rw [Int64.toInt_sub, exactly, Int.bmod_eq_of_le (by omega) (by omega)]
  exact Nat.mod_eq_of_lt (by omega)

theorem clockSkewChecked_of_low {Failure : Type}
    (below : now.toNat < 2 ^ 63) (low : timestamp.toNat < 2 ^ 63) :
    (clockSkewChecked now timestamp :
      Checked Failure UInt64) = .value (clockSkew now timestamp) ∧
      (clockSkew now timestamp).toNat =
        ((now.toNat : Int) - timestamp.toNat).natAbs := by
  apply clockSkewChecked_of_bounds
  · rw [toInt_toInt64_of_lt below, toInt_toInt64_of_lt low]
  · omega
  · omega

theorem clockSkewChecked_of_high {Failure : Type} (below : now.toNat < 2 ^ 63)
    (high : now.toNat + 2 ^ 63 < timestamp.toNat) :
    (clockSkewChecked now timestamp :
      Checked Failure UInt64) = .value (clockSkew now timestamp) ∧
      (clockSkew now timestamp).toNat =
        now.toNat + 2 ^ 64 - timestamp.toNat := by
  have small := timestamp.toNat_lt
  have skew :=
    @clockSkewChecked_of_bounds now timestamp Failure
      ((now.toNat : Int) - (timestamp.toNat - 2 ^ 64))
      (by
        rw [toInt_toInt64_of_lt below,
          @toInt_toInt64_of_le timestamp (by omega)])
      (by omega) (by omega)
  refine ⟨skew.1, ?_⟩
  rw [skew.2]
  omega

theorem clockSkewChecked_stops {Failure : Type}
    (below : now.toNat < 2 ^ 63) (upper : 2 ^ 63 ≤ timestamp.toNat)
    (near : timestamp.toNat ≤ now.toNat + 2 ^ 63) :
    (clockSkewChecked now timestamp :
      Checked Failure UInt64) = .stop .overflow := by
  have fails :
      (Checked.subSigned now.toInt64 timestamp.toInt64 :
        Checked Failure Int64) =
        .stop .overflow := by
    apply if_neg
    rw [toInt_toInt64_of_lt below, toInt_toInt64_of_le upper]
    omega
  unfold clockSkewChecked
  rw [fails]
  rfl

theorem clockSkewChecked_exact_iff {Failure : Type}
    (below : now.toNat < 2 ^ 63) (narrow : window.toNat < 2 ^ 63) :
    (∃ skew,
      (clockSkewChecked now timestamp : Checked Failure UInt64) = .value skew ∧
        (window < skew ↔ ¬ Within window now timestamp)) ↔
      Comparable window now timestamp := by
  have small := timestamp.toNat_lt
  by_cases low : timestamp.toNat < 2 ^ 63
  · rcases @clockSkewChecked_of_low _ _ Failure below low with ⟨passes, skew⟩
    refine iff_of_true ⟨_, passes, ?_⟩ (.inl low)
    rw [UInt64.lt_iff_toNat_lt, skew, Within, Int.abs_eq_natAbs]
    omega
  · by_cases high : now.toNat + 2 ^ 63 < timestamp.toNat
    · rcases @clockSkewChecked_of_high _ _ Failure below high with
        ⟨passes, skew⟩
      have outside : ¬ Within window now timestamp := by
        rw [Within, Int.abs_eq_natAbs]
        omega
      rw [passes]
      constructor
      · rintro ⟨other, same, exactly⟩
        cases same
        have late := exactly.mpr outside
        rw [UInt64.lt_iff_toNat_lt, skew] at late
        exact .inr ⟨high, by omega⟩
      · rintro (lower | ⟨_, far⟩)
        · exact absurd lower low
        · refine ⟨_, rfl, iff_of_true ?_ outside⟩
          rw [UInt64.lt_iff_toNat_lt, skew]
          omega
    · have stops :=
        @clockSkewChecked_stops _ _ Failure below (by omega)
          (Nat.not_lt.mp high)
      apply iff_of_false
      · rintro ⟨skew, passes, _⟩
        rw [stops] at passes
        cases passes
      · rintro (lower | ⟨upper, _⟩)
        · exact low lower
        · exact high upper

theorem clockSkewChecked_cases (Failure : Type) (now timestamp : UInt64) :
    (clockSkewChecked now timestamp :
      Checked Failure UInt64) = .value (clockSkew now timestamp) ∨
      (clockSkewChecked now timestamp :
        Checked Failure UInt64) = .stop .overflow := by
  unfold clockSkewChecked Checked.subSigned
  split_ifs with fits
  · exact .inl rfl
  · exact .inr rfl

end Skew

/-- Without an overflow the check is the `verify` of the other modules. -/
theorem verifyChecked_eq {kind : HandshakeKind}
    (message : HandshakeMessage kind) (recipient : Bytes 32)
    (nowMs : UInt64) :
    verifyChecked P message recipient nowMs = .stop .overflow ∨
      (verifyChecked P message recipient nowMs).Returns
        (message.verify P recipient nowMs) := by
  unfold verifyChecked HandshakeMessage.verify
  rcases clockSkewChecked_cases HandshakeError nowMs message.timestampMs with
    passes | stops
  · right
    rw [passes]
    simp only [Checked.value_bind]
    split_ifs <;> rfl
  · rw [stops]
    by_cases other : message.recipientEdPub ≠ recipient
    · rw [if_pos other, if_pos other]
      exact Or.inr rfl
    · rw [if_neg other]
      exact Or.inl rfl

/-- Without an overflow a hole punch is dropped or handled as elsewhere. -/
theorem handleHolePunchChecked_eq (node : Node P F) (env : RelayEnv P F)
    (punch : HolePunch) :
    handleHolePunchChecked node env punch = .stop .overflow ∨
      handleHolePunchChecked node env punch =
        .value (node.handleHolePunch env punch) ∨
      ∃ drop, handleHolePunchChecked node env punch = .failure drop ∧
        node.handleHolePunch env punch = (node, []) := by
  unfold handleHolePunchChecked Node.handleHolePunch
  rcases clockSkewChecked_cases HolePunchDrop env.frame.call.nowMs
      punch.validFromMs with passes | stops
  · right
    rw [passes]
    simp only [Checked.value_bind]
    split_ifs
    all_goals first | exact Or.inr ⟨_, rfl, rfl⟩ | exact Or.inl rfl
  · rw [stops]
    split_ifs
    all_goals first | exact Or.inr (Or.inr ⟨_, rfl, rfl⟩) | exact Or.inl rfl

theorem checksExactly_iff_of_bind {Failure Value : Type}
    {next : UInt64 → Checked Failure Value} {stale : Set Failure}
    {window now timestamp : UInt64} (below : now.toNat < 2 ^ 63)
    (narrow : window.toNat < 2 ^ 63)
    (goesOn : ∀ skew, next skew ≠ .stop .overflow)
    (compares :
      ∀ skew, (∃ failure ∈ stale, next skew = .failure failure) ↔
        window < skew) :
    ChecksExactly (clockSkewChecked now timestamp >>= next) stale window now
      timestamp ↔
      Comparable window now timestamp := by
  rw [← @clockSkewChecked_exact_iff _ _ _ Failure below narrow]
  rcases clockSkewChecked_cases Failure now timestamp with passes | stops
  · rw [passes, ChecksExactly, Checked.value_bind, compares]
    constructor
    · rintro ⟨_, exactly⟩
      exact ⟨_, rfl, exactly⟩
    · rintro ⟨skew, same, exactly⟩
      cases same
      exact ⟨goesOn _, exactly⟩
  · rw [stops]
    apply iff_of_false
    · rintro ⟨goes, _⟩
      exact goes rfl
    · rintro ⟨skew, same, _⟩
      cases same

section Handshake

variable {kind : HandshakeKind} {message : HandshakeMessage kind}
variable {recipient : Bytes 32} {nowMs : UInt64}

theorem verifyChecked_exact_iff (below : nowMs.toNat < 2 ^ 63)
    (addressed : message.recipientEdPub = recipient) :
    ChecksExactly (verifyChecked P message recipient nowMs)
        (Set.range (HandshakeError.timestampOutside kind))
        handshakeTimeWindowMs nowMs message.timestampMs ↔
      Comparable handshakeTimeWindowMs nowMs message.timestampMs := by
  unfold verifyChecked
  rw [if_neg (not_not.mpr addressed)]
  apply checksExactly_iff_of_bind below (by decide)
  · intro skew
    split_ifs <;> exact nofun
  · intro skew
    split_ifs with late
    · exact iff_of_true ⟨_, ⟨skew, rfl⟩, rfl⟩ late
    all_goals
      apply iff_of_false _ late
      rintro ⟨_, ⟨other, rfl⟩, same⟩
      cases same

end Handshake

section HolePunching

variable {node : Node P F} {env : RelayEnv P F} {punch : HolePunch}

theorem handleHolePunchChecked_exact_iff
    (below : env.frame.call.nowMs.toNat < 2 ^ 63)
    (valid : P.isVerifyingKey punch.initiator = true)
    (signed : P.verifyStrict punch.initiator punch.signBytes punch.sig = true) :
    ChecksExactly (handleHolePunchChecked node env punch)
        {.outsideWindow} Node.holePunchWindowMs env.frame.call.nowMs
        punch.validFromMs ↔
      Comparable Node.holePunchWindowMs env.frame.call.nowMs
        punch.validFromMs := by
  unfold handleHolePunchChecked
  rw [valid, signed]
  apply checksExactly_iff_of_bind below (by decide)
  · intro skew
    split_ifs <;> exact nofun
  · intro skew
    split_ifs with late
    · exact iff_of_true ⟨_, rfl, rfl⟩ late
    all_goals
      apply iff_of_false _ late
      rintro ⟨_, _, same⟩
      cases same

end HolePunching

/--
A node whose clock is below `2 ^ 63` checks the freshness of a SessionInit, a
SessionAck or a hole punch without an overflow and exactly, if and only if the
timestamp is comparable with its clock.
-/
theorem freshness_exact_iff (P : Primitives) (F : Floats) (nowMs : UInt64)
    (below : nowMs.toNat < 2 ^ 63) :
    (∀ (kind : HandshakeKind) (message : HandshakeMessage kind)
        (recipient : Bytes 32),
      message.recipientEdPub = recipient →
        (ChecksExactly (verifyChecked P message recipient nowMs)
            (Set.range (HandshakeError.timestampOutside kind))
            handshakeTimeWindowMs nowMs message.timestampMs ↔
          Comparable handshakeTimeWindowMs nowMs message.timestampMs)) ∧
      ∀ (node : Node P F) (env : RelayEnv P F) (punch : HolePunch),
        env.frame.call.nowMs = nowMs →
        P.isVerifyingKey punch.initiator = true →
        P.verifyStrict punch.initiator punch.signBytes punch.sig = true →
          (ChecksExactly (handleHolePunchChecked node env punch)
              {.outsideWindow} Node.holePunchWindowMs nowMs
              punch.validFromMs ↔
            Comparable Node.holePunchWindowMs nowMs punch.validFromMs) := by
  constructor
  · intro kind message recipient addressed
    exact verifyChecked_exact_iff below addressed
  · rintro node env punch rfl valid signed
    exact handleHolePunchChecked_exact_iff below valid signed

end Checks

/-- A signed message with a timestamp of the sender's choice. -/
def stampedInit (timestampMs : UInt64) : SessionInit :=
  (sampleManager 1).initFor (Bytes.replicate 32 2) (Bytes.replicate 32 10)
    timestampMs

/-- A message that is a second too old is rejected for that. -/
theorem stampedInit_rejected :
    ∃ failure ∈ Set.range (HandshakeError.timestampOutside .init),
      verifyChecked Primitives.transparent (stampedInit 699000)
          (Bytes.replicate 32 2) 1000000 =
        .failure failure := by
  have exactly :=
    ((freshness_exact_iff Primitives.transparent sampleFloats 1000000
        (by decide)).1 .init (stampedInit 699000) (Bytes.replicate 32 2)
          rfl).mpr
      (.inl (by decide))
  apply exactly.2.mpr
  unfold Within
  decide

/--
A timestamp in the upper half overflows, before any signature is looked at;
close to the end of the words it counts as fresh on a young clock.
-/
theorem stampedInit_misjudged :
    verifyChecked Primitives.transparent (stampedInit 0x8000000000000000)
          (Bytes.replicate 32 2) 1700000000000 =
        .stop .overflow ∧
      (stampedInit 0xffffffffffffffff).verify Primitives.transparent
          (Bytes.replicate 32 2) 1000 = .ok () ∧
      ¬ Within handshakeTimeWindowMs 1000
          (stampedInit 0xffffffffffffffff).timestampMs := by
  refine ⟨?_, ?_, ?_⟩
  · have overflows :
        (clockSkewChecked 1700000000000 0x8000000000000000 :
            Checked HandshakeError UInt64) =
          .stop .overflow :=
      clockSkewChecked_stops (by decide) (by decide) (by decide)
    refine (if_neg (not_not.mpr rfl)).trans ?_
    change (clockSkewChecked 1700000000000 0x8000000000000000 >>= _) = _
    rw [overflows]
    rfl
  · exact
      HandshakeMessage.verify_create
        Primitives.transparent_signaturesVerify _ _ _ _ _ _
        (by decide +kernel)
  · change ¬ Within handshakeTimeWindowMs 1000 0xffffffffffffffff
    unfold Within
    decide +kernel

end Norn.Router
