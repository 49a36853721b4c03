import Norn.Session.Info
import Norn.Foundation.Run

/-!
# Exactness of the anti-replay window

The window of `SessionInfo::decrypt` is a pair of machine words.  This module
reads them as the mask representation of a history of accepted sequence
numbers, proves that no arithmetic of the check or the update can abort, and
lifts the single-packet facts to every sequence of packets presented to a
fresh session.
-/

namespace Norn.Session

open Foundation Foundation.Run Foundation.SlidingWindow

variable {high seq : UInt64}

/-- Bit `index` of the window word. -/
def windowBits (window : UInt64) : Nat → Bool :=
  fun index => window.toBitVec.getLsbD index

@[simp]
theorem windowBits_zero (index : Nat) : windowBits 0 index = false := by
  simp [windowBits]

theorem windowBits_one (index : Nat) :
    windowBits 1 index = decide (index = 0) := by
  simp [windowBits, BitVec.getLsbD_one]

theorem windowBits_or (left right : UInt64) (index : Nat) :
    windowBits (left ||| right) index =
      (windowBits left index || windowBits right index) := by
  simp [windowBits]

theorem windowBits_shiftLeft {amount : UInt64} (bounded : amount < 64)
    (window : UInt64) {index : Nat} (inside : index < 64) :
    windowBits (window <<< amount) index =
      (decide (amount.toNat ≤ index) &&
        windowBits window (index - amount.toNat)) := by
  have small : amount.toNat < 64 := UInt64.lt_iff_toNat_lt.mp bounded
  have wrapped : (amount.toBitVec % 64).toNat = amount.toNat := by
    rw [BitVec.toNat_umod]
    exact Nat.mod_eq_of_lt small
  unfold windowBits
  rw [UInt64.toBitVec_shiftLeft, BitVec.shiftLeft_eq', wrapped,
    BitVec.getLsbD_shiftLeft]
  by_cases below : index < amount.toNat
  · simp [inside, below, Nat.not_le.mpr below]
  · simp [inside, below, Nat.not_lt.mp below]

theorem and_shiftLeft_ne_zero_iff {offset : UInt64} (bounded : offset < 64)
    (window : UInt64) :
    window &&& (1 <<< offset) ≠ 0 ↔ windowBits window offset.toNat = true := by
  have small : offset.toNat < 64 := UInt64.lt_iff_toNat_lt.mp bounded
  have bit :
      ∀ index < 64, windowBits (1 <<< offset) index =
        decide (index = offset.toNat) := by
    intro index inside
    rw [windowBits_shiftLeft bounded 1 inside, windowBits_one]
    by_cases same : index = offset.toNat
    · simp [same]
    · rcases Nat.lt_or_ge index offset.toNat with below | above
      · simp [same, Nat.not_le.mpr below]
      · have later : index - offset.toNat ≠ 0 := by omega
        simp [same, later]
  have meet :
      ∀ index < 64,
        (window &&& (1 <<< offset)).toBitVec.getLsbD index =
          (windowBits window index && decide (index = offset.toNat)) := by
    intro index inside
    rw [UInt64.toBitVec_and, BitVec.getLsbD_and]
    have bitAt := bit index inside
    unfold windowBits at bitAt ⊢
    rw [bitAt]
  constructor
  · intro nonzero
    by_contra unset
    apply nonzero
    apply UInt64.toBitVec_inj.mp
    apply BitVec.eq_of_getLsbD_eq
    intro index inside
    rw [meet index inside]
    by_cases same : index = offset.toNat
    · subst index
      simpa using unset
    · simp [same]
  · intro set zero
    have found := meet offset.toNat small
    rw [zero, set] at found
    simp at found

theorem offset_facts (inside : seq ≤ high)
    (near : high.toNat - seq.toNat < 64) :
    high - seq < 64 ∧ (high - seq).toNat = high.toNat - seq.toNat := by
  have difference := UInt64.toNat_sub_of_le high seq inside
  refine ⟨?_, difference⟩
  rw [UInt64.lt_iff_toNat_lt, difference]
  exact near

theorem tooOld_iff (high seq : UInt64) :
    SessionInfo.replayWindow ≤ saturatingSub high seq ↔
      64 ≤ high.toNat - seq.toNat := by
  rw [UInt64.le_iff_toNat_le, toNat_saturatingSub]
  rfl

/-- The check passes numbers within the window that are not marked. -/
theorem checkReplay_ok_iff (high window seq : UInt64) :
    SessionInfo.checkReplay high window seq = .ok () ↔
      high.toNat - seq.toNat < 64 ∧
        (seq.toNat ≤ high.toNat →
          windowBits window (high.toNat - seq.toNat) = false) := by
  unfold SessionInfo.checkReplay
  by_cases old : SessionInfo.replayWindow ≤ saturatingSub high seq
  · have far := (tooOld_iff high seq).mp old
    simp [old, Nat.not_lt.mpr far]
  · have near : high.toNat - seq.toNat < 64 := by
      rw [tooOld_iff] at old
      omega
    by_cases inside : seq ≤ high
    · obtain ⟨bounded, difference⟩ := offset_facts inside near
      have insideNat := UInt64.le_iff_toNat_le.mp inside
      have test := and_shiftLeft_ne_zero_iff bounded window
      rw [difference] at test
      by_cases seen : window &&& (1 <<< (high - seq)) ≠ 0
      · have marked := test.mp seen
        simp [old, inside, checkedSub_of_le inside,
          checkedShl_of_lt bounded, seen, marked, insideNat]
      · have unmarked : windowBits window (high.toNat - seq.toNat) = false := by
          by_contra marked
          exact seen (test.mpr (by simpa using marked))
        simp [old, inside, checkedSub_of_le inside,
          checkedShl_of_lt bounded, not_not.mp seen, unmarked, near]
    · have above : ¬ seq.toNat ≤ high.toNat := by
        rwa [← UInt64.le_iff_toNat_le]
      simp [old, inside, above, near]

theorem checkReplay_ne_panicked (high window seq : UInt64) (reason : Panic) :
    SessionInfo.checkReplay high window seq ≠ .error (.panicked reason) := by
  unfold SessionInfo.checkReplay
  by_cases old : SessionInfo.replayWindow ≤ saturatingSub high seq
  · simp [old]
  · have near : high.toNat - seq.toNat < 64 := by
      rw [tooOld_iff] at old
      omega
    by_cases inside : seq ≤ high
    · obtain ⟨bounded, _⟩ := offset_facts inside near
      by_cases seen : window &&& (1 <<< (high - seq)) = 0 <;>
        simp [old, inside, checkedSub_of_le inside, checkedShl_of_lt bounded,
          seen]
    · simp [old, inside]

theorem advanceWindow_of_lt (window : UInt64) (above : high < seq) :
    ∃ shifted,
      SessionInfo.advanceWindow high window seq = .ok (seq, shifted) ∧
        ∀ index < 64,
          windowBits shifted index =
            advanceMask 64 (seq.toNat - high.toNat) (windowBits window)
              index := by
  have ordered : high ≤ seq := UInt64.le_of_lt above
  have difference := UInt64.toNat_sub_of_le seq high ordered
  by_cases far : SessionInfo.replayWindow ≤ seq - high
  · have farNat : 64 ≤ seq.toNat - high.toNat := by
      have words := UInt64.le_iff_toNat_le.mp far
      rw [difference] at words
      exact words
    refine ⟨1, ?_, ?_⟩
    · simp [SessionInfo.advanceWindow, above, checkedSub_of_le ordered, far]
    · intro index inside
      simp [windowBits_one, advanceMask, Nat.not_lt.mpr farNat]
  · have bounded : seq - high < 64 := UInt64.not_le.mp far
    have nearNat : seq.toNat - high.toNat < 64 := by
      have words := UInt64.lt_iff_toNat_lt.mp bounded
      rw [difference] at words
      exact words
    refine ⟨(window <<< (seq - high)) ||| 1, ?_, ?_⟩
    · simp [SessionInfo.advanceWindow, above, checkedSub_of_le ordered,
        far, checkedShl_of_lt bounded]
    · intro index inside
      rw [windowBits_or, windowBits_shiftLeft bounded window inside,
        windowBits_one, difference]
      simp [advanceMask, nearNat, Bool.or_comm]

theorem advanceWindow_of_le (window : UInt64) (inside : seq ≤ high)
    (near : high.toNat - seq.toNat < 64) :
    ∃ marked,
      SessionInfo.advanceWindow high window seq = .ok (high, marked) ∧
        ∀ index < 64,
          windowBits marked index =
            markMask (high.toNat - seq.toNat) (windowBits window)
              index := by
  obtain ⟨bounded, difference⟩ := offset_facts inside near
  have notAbove : ¬ high < seq := UInt64.not_lt.mpr inside
  refine ⟨window ||| (1 <<< (high - seq)), ?_, ?_⟩
  · simp [SessionInfo.advanceWindow, notAbove, checkedSub_of_le inside,
      checkedShl_of_lt bounded]
  · intro index indexInside
    rw [windowBits_or, windowBits_shiftLeft bounded 1 indexInside,
      windowBits_one, difference]
    by_cases same : index = high.toNat - seq.toNat
    · simp [markMask, same]
    · rcases Nat.lt_or_ge index (high.toNat - seq.toNat) with below | above
      · simp [markMask, same, Nat.not_le.mpr below]
      · have later : index - (high.toNat - seq.toNat) ≠ 0 := by omega
        simp [markMask, same, later]

theorem advanceWindow_represents {accepted : List Nat} {window : UInt64}
    (represents : Represents 64 accepted high.toNat (windowBits window))
    (near : high.toNat - seq.toNat < 64) :
    ∃ newHigh newWindow,
      SessionInfo.advanceWindow high window seq = .ok (newHigh, newWindow) ∧
        Represents 64 (seq.toNat :: accepted) newHigh.toNat
          (windowBits newWindow) := by
  by_cases above : high < seq
  · obtain ⟨shifted, advanced, bits⟩ := advanceWindow_of_lt window above
    have aboveNat := UInt64.lt_iff_toNat_lt.mp above
    exact ⟨seq, shifted, advanced, (represents.advance aboveNat).congr bits⟩
  · have inside : seq ≤ high := UInt64.not_lt.mp above
    have insideNat := UInt64.le_iff_toNat_le.mp inside
    obtain ⟨marked, recorded, bits⟩ := advanceWindow_of_le window inside near
    exact ⟨high, marked, recorded, (represents.mark insideNat).congr bits⟩

theorem advanceWindow_of_checkReplay {window : UInt64}
    (passed : SessionInfo.checkReplay high window seq = .ok ()) :
    ∃ newHigh newWindow, SessionInfo.advanceWindow high window seq =
      .ok (newHigh, newWindow) := by
  have near := ((checkReplay_ok_iff high window seq).mp passed).1
  by_cases above : high < seq
  · obtain ⟨shifted, advanced, _⟩ := advanceWindow_of_lt window above
    exact ⟨seq, shifted, advanced⟩
  · obtain ⟨marked, recorded, _⟩ :=
      advanceWindow_of_le window (UInt64.not_lt.mp above) near
    exact ⟨high, marked, recorded⟩

/-! ## Decryption -/

namespace SessionInfo

variable {P : Primitives}

variable {pqShared : Option (Bytes 32)} {packet : Packet}
  {buf ciphertext : List UInt8} {self : SessionInfo P}

theorem parsePacket_ne_panicked (ciphertext : List UInt8) (reason : Panic) :
    parsePacket ciphertext ≠ .error (.panicked reason) := by
  by_cases short : ciphertext.length < 32 + 8 + 16
  · simp [parsePacket, short]
  · obtain ⟨packet, parsed⟩ := parsePacket_of_length (Nat.not_lt.mp short)
    simp [parsed]

theorem openPayload_ne_panicked (pqShared fallback : Option (Bytes 32))
    (shared : Bytes 32)
    (packet : Packet) (reason : Panic) :
    openPayload P pqShared fallback shared packet ≠
      .error (.panicked reason) := by
  simp only [openPayload]
  split
  · simp
  · cases fallback with
    | none => simp
    | some secret =>
      simp only
      split <;> simp

theorem openPayload_cases {fallback : Option (Bytes 32)} {shared : Bytes 32}
    {adopted : Option (Bytes 32)}
    (opened :
      openPayload P pqShared fallback shared packet = .ok (buf, adopted)) :
    (adopted = pqShared ∨ (adopted = fallback ∧ fallback ≠ none)) ∧
      P.aeadOpen (derivePacketKey P shared adopted)
        (packetNonce packet.seq) packet.senderXPub packet.rawCt =
          some buf := by
  simp only [openPayload] at opened
  split at opened
  · rename_i plaintext success
    cases opened
    exact ⟨Or.inl rfl, success⟩
  · cases fallback with
    | none => cases opened
    | some secret =>
      simp only at opened
      split at opened
      · rename_i plaintext success
        cases opened
        exact ⟨Or.inr ⟨rfl, by simp⟩, success⟩
      · cases opened

theorem openPayload_of_primary {fallback : Option (Bytes 32)}
    {shared : Bytes 32}
    (opened :
      P.aeadOpen (derivePacketKey P shared pqShared)
        (packetNonce packet.seq) packet.senderXPub packet.rawCt = some buf) :
    openPayload P pqShared fallback shared packet = .ok (buf, pqShared) := by
  simp only [openPayload, opened]

theorem decrypt_of_opened (self : SessionInfo P) (now : Instant)
    (parsed : parsePacket ciphertext = .ok packet)
    (passed :
      checkReplay self.remoteSeqHigh self.remoteSeqWindow packet.seq = .ok ())
    (opened :
      openPayload P self.pqShared self.pqSharedFallback
        (self.dhShared packet.senderXPub).1 packet = .ok (buf, pqShared)) :
    ∃ cache high window,
      advanceWindow self.remoteSeqHigh self.remoteSeqWindow packet.seq =
          .ok (high, window) ∧
        self.decrypt now ciphertext =
          (.ok buf,
            { self with cachedDh := cache }.acceptPacket now pqShared
              packet.senderXPub high window) := by
  obtain ⟨cache, frame⟩ := self.dhShared_snd packet.senderXPub
  obtain ⟨high, window, advanced⟩ := advanceWindow_of_checkReplay passed
  refine ⟨cache, high, window, advanced, ?_⟩
  simp only [decrypt, parsed, frame, passed, opened, advanced]

theorem decrypt_of_refused (self : SessionInfo P) (now : Instant)
    {failure : SessionError} (parsed : parsePacket ciphertext = .ok packet)
    (refused :
      checkReplay self.remoteSeqHigh self.remoteSeqWindow packet.seq =
        .error failure) :
    ∃ cache,
      self.decrypt now ciphertext =
        (.error failure, { self with cachedDh := cache }) := by
  obtain ⟨cache, frame⟩ := self.dhShared_snd packet.senderXPub
  refine ⟨cache, ?_⟩
  simp only [decrypt, parsed, frame, refused]

theorem decrypt_of_unopened (self : SessionInfo P) (now : Instant)
    {failure : SessionError} (parsed : parsePacket ciphertext = .ok packet)
    (passed :
      checkReplay self.remoteSeqHigh self.remoteSeqWindow packet.seq = .ok ())
    (unopened :
      openPayload P self.pqShared self.pqSharedFallback
        (self.dhShared packet.senderXPub).1 packet = .error failure) :
    ∃ cache,
      self.decrypt now ciphertext =
        (.error failure, { self with cachedDh := cache }) := by
  obtain ⟨cache, frame⟩ := self.dhShared_snd packet.senderXPub
  refine ⟨cache, ?_⟩
  simp only [decrypt, parsed, frame, passed, unopened]

/-- The packet was accepted: it parsed, passed the check and opened. -/
structure Accepts (session : SessionInfo P) (now : Instant)
    (ciphertext buf : List UInt8) (packet : Packet)
    (pqShared : Option (Bytes 32)) (high window : UInt64) : Prop where
  parsed : parsePacket ciphertext = .ok packet
  passed :
    checkReplay session.remoteSeqHigh session.remoteSeqWindow packet.seq =
      .ok ()
  opened :
    openPayload P session.pqShared session.pqSharedFallback
      (session.dhShared packet.senderXPub).1 packet = .ok (buf, pqShared)
  advanced :
    advanceWindow session.remoteSeqHigh session.remoteSeqWindow packet.seq =
      .ok (high, window)
  result :
    ∃ cache,
      session.decrypt now ciphertext =
        (.ok buf,
          { session with cachedDh := cache }.acceptPacket now pqShared
            packet.senderXPub high window)

/--
Everything a decryption can do: refuse, touching only the cache and without
aborting, or accept.
-/
theorem decrypt_cases (self : SessionInfo P) (now : Instant)
    (ciphertext : List UInt8) :
    (∃ failure cache,
        self.decrypt now ciphertext =
            (.error failure, { self with cachedDh := cache }) ∧
          ∀ reason, failure ≠ .panicked reason) ∨
      ∃ buf packet pqShared high window,
        self.Accepts now ciphertext buf packet pqShared high window := by
  cases parsed : parsePacket ciphertext with
  | error failure =>
    left
    refine ⟨failure, self.cachedDh, ?_, ?_⟩
    · simp only [decrypt, parsed]
    · intro reason same
      subst failure
      exact parsePacket_ne_panicked ciphertext reason parsed
  | ok packet =>
    cases passed : checkReplay self.remoteSeqHigh self.remoteSeqWindow
      packet.seq with
    | error failure =>
      left
      obtain ⟨cache, refused⟩ := self.decrypt_of_refused now parsed passed
      refine ⟨failure, cache, refused, ?_⟩
      intro reason same
      subst failure
      exact checkReplay_ne_panicked _ _ _ reason passed
    | ok _ =>
      cases opened :
          openPayload P self.pqShared self.pqSharedFallback
            (self.dhShared packet.senderXPub).1 packet with
      | error failure =>
        left
        obtain ⟨cache, refused⟩ :=
          self.decrypt_of_unopened now parsed passed opened
        refine ⟨failure, cache, refused, ?_⟩
        intro reason same
        subst failure
        exact openPayload_ne_panicked _ _ _ packet reason opened
      | ok content =>
        right
        obtain ⟨buf, pqShared⟩ := content
        obtain ⟨cache, high, window, advanced, accepted⟩ :=
          self.decrypt_of_opened now parsed passed opened
        exact ⟨buf, packet, pqShared, high, window,
          ⟨parsed, passed, opened, advanced, cache, accepted⟩⟩

/-- The window words of the session describe the accepted numbers. -/
def Remembers (self : SessionInfo P) (accepted : List Nat) : Prop :=
  Represents 64 accepted self.remoteSeqHigh.toNat
    (windowBits self.remoteSeqWindow)

theorem remembers_nil (unusedHigh : self.remoteSeqHigh = 0)
    (unusedWindow : self.remoteSeqWindow = 0) :
    self.Remembers [] := by
  unfold Remembers
  rw [unusedHigh, unusedWindow]
  exact (represents_nil 64).congr (by simp)

theorem Remembers.checkReplay_iff {accepted : List Nat}
    (remembers : self.Remembers accepted) (seq : UInt64) :
    checkReplay self.remoteSeqHigh self.remoteSeqWindow seq = .ok () ↔
      Admits 64 accepted seq.toNat := by
  rw [checkReplay_ok_iff, remembers.admits_iff (by omega)]

theorem Accepts.remembers {now : Instant} {high window : UInt64}
    {accepted : List Nat}
    (accepts : self.Accepts now ciphertext buf packet pqShared high window)
    (remembers : self.Remembers accepted) :
    (self.decrypt now ciphertext).2.Remembers
      (packet.seq.toNat :: accepted) := by
  have near := ((checkReplay_ok_iff _ _ _).mp accepts.passed).1
  obtain ⟨newHigh, newWindow, advanced, represents⟩ :=
    advanceWindow_represents remembers near
  rw [accepts.advanced] at advanced
  cases advanced
  obtain ⟨cache, result⟩ := accepts.result
  rw [result]
  exact represents

end SessionInfo

/-! ## Sequences of packets -/

/-- A session together with the sequence numbers it has accepted. -/
structure Presented (P : Primitives) where
  session : SessionInfo P
  accepted : List Nat

/-- Present one packet to a session and record what it accepted. -/
def present {P : Primitives} (state : Presented P)
    (input : Instant × List UInt8) : Presented P :=
  let (result, session) := state.session.decrypt input.1 input.2
  match result, SessionInfo.parsePacket input.2 with
  | .ok _, .ok packet =>
    ⟨session, packet.seq.toNat :: state.accepted⟩
  | _, _ => ⟨session, state.accepted⟩

/-- Every ciphertext passes AEAD verification. -/
def AeadAlwaysOpens (P : Primitives) : Prop :=
  ∀ key nonce aad sealed, ∃ plaintext,
    P.aeadOpen key nonce aad sealed = some plaintext

/-- The window describes the history, which has no repetitions. -/
structure WindowExact {P : Primitives} (state : Presented P) : Prop where
  remembers : state.session.Remembers state.accepted
  nodup : state.accepted.Nodup

theorem windowExact_present {P : Primitives} (state : Presented P)
    (input : Instant × List UInt8) (exact : WindowExact state) :
    WindowExact (present state input) := by
  rcases state.session.decrypt_cases input.1 input.2 with
    ⟨failure, cache, refused, _⟩ |
      ⟨buf, packet, pqShared, high, window, accepts⟩
  · simp only [present, refused]
    exact ⟨exact.remembers, exact.nodup⟩
  · have remembers := accepts.remembers exact.remembers
    have admitted :=
      (exact.remembers.checkReplay_iff packet.seq).mp accepts.passed
    have unseen : packet.seq.toNat ∉ state.accepted := by
      intro member
      rcases admitted with exceeds | ⟨fresh, _⟩
      · exact absurd (exceeds _ member) (lt_irrefl _)
      · exact fresh member
    obtain ⟨cache, result⟩ := accepts.result
    rw [result] at remembers
    simp only [present, result, accepts.parsed]
    exact ⟨remembers, List.nodup_cons.mpr ⟨unseen, exact.nodup⟩⟩

theorem windowExact_run {P : Primitives} {session : SessionInfo P}
    (unusedHigh : session.remoteSeqHigh = 0)
    (unusedWindow : session.remoteSeqWindow = 0)
    (inputs : List (Instant × List UInt8)) :
    WindowExact (run present ⟨session, []⟩ inputs) := by
  apply invariant_run_of_forall windowExact_present
  exact ⟨SessionInfo.remembers_nil unusedHigh unusedWindow, List.nodup_nil⟩

/--
Replay window exactness.  After any sequence of packets presented to a fresh
session, a packet is accepted exactly when its number exceeds all accepted
ones, or lies less than 64 below the highest and was not accepted before; no
number has been accepted twice, the window bits say which of the last 64
numbers were accepted, and no arithmetic aborts.
-/
theorem replayWindow_exact {P : Primitives}
    (opens : AeadAlwaysOpens P) (session : SessionInfo P)
    (unusedHigh : session.remoteSeqHigh = 0)
    (unusedWindow : session.remoteSeqWindow = 0)
    (inputs : List (Instant × List UInt8)) :
    let state := run present ⟨session, []⟩ inputs
    (∀ now ciphertext packet,
        SessionInfo.parsePacket ciphertext = .ok packet →
          ((∃ buf, (state.session.decrypt now ciphertext).1 = .ok buf) ↔
            Admits 64 state.accepted packet.seq.toNat)) ∧
      state.accepted.Nodup ∧
      (state.accepted ≠ [] →
        state.session.remoteSeqHigh.toNat ∈ state.accepted ∧
          (∀ earlier ∈ state.accepted,
            earlier ≤ state.session.remoteSeqHigh.toNat) ∧
          ∀ index < 64,
            windowBits state.session.remoteSeqWindow index = true ↔
              index ≤ state.session.remoteSeqHigh.toNat ∧
                state.session.remoteSeqHigh.toNat - index ∈ state.accepted) ∧
      ∀ now ciphertext reason,
        (state.session.decrypt now ciphertext).1 ≠
          .error (.panicked reason) := by
  intro state
  have exact : WindowExact state :=
    windowExact_run unusedHigh unusedWindow inputs
  refine ⟨?_, exact.nodup, ?_, ?_⟩
  · intro now ciphertext packet parsed
    rw [← exact.remembers.checkReplay_iff packet.seq]
    constructor
    · rintro ⟨buf, accepted⟩
      cases checked :
          SessionInfo.checkReplay state.session.remoteSeqHigh
            state.session.remoteSeqWindow packet.seq with
      | ok _ => rfl
      | error failure =>
        obtain ⟨cache, refused⟩ :=
          state.session.decrypt_of_refused now parsed checked
        rw [refused] at accepted
        cases accepted
    · intro passed
      obtain ⟨buf, opened⟩ :=
        opens
          (derivePacketKey P (state.session.dhShared packet.senderXPub).1
            state.session.pqShared)
          (packetNonce packet.seq) packet.senderXPub packet.rawCt
      obtain ⟨cache, high, window, _, accepted⟩ :=
        state.session.decrypt_of_opened now parsed passed
          (SessionInfo.openPayload_of_primary opened)
      exact ⟨buf, by rw [accepted]⟩
  · intro nonempty
    exact ⟨exact.remembers.attained nonempty, exact.remembers.highest,
      exact.remembers.bits⟩
  · intro now ciphertext reason panicked
    rcases state.session.decrypt_cases now ciphertext with
      ⟨failure, cache, refused, notPanic⟩ |
        ⟨buf, packet, pqShared, high, window, accepts⟩
    · rw [refused] at panicked
      cases panicked
      exact notPanic reason rfl
    · obtain ⟨cache, result⟩ := accepts.result
      rw [result] at panicked
      cases panicked

/-- `transparent` with a cipher that accepts every ciphertext. -/
def permissive : Primitives :=
  { Primitives.transparent with aeadOpen := fun _ _ _ sealed => some sealed }

/-- A packet with the given number and an empty plaintext. -/
def samplePacket (seq : UInt64) : List UInt8 :=
  SessionInfo.packetBytes (Bytes.replicate 32 7) seq (List.replicate 16 0)

/-- Numbers 3 and 1 are accepted, the repeated 3 is not; 2 is next. -/
theorem replayWindow_exact_outOfOrder :
    let session : SessionInfo permissive :=
      SessionInfo.new (Bytes.replicate 32 1) (Bytes.replicate 32 2)
        (Bytes.replicate 32 7) 0
    let state :=
      run present ⟨session, []⟩
        [(1, samplePacket 3), (2, samplePacket 1), (3, samplePacket 3)]
    state.accepted = [1, 3] ∧
      ∃ buf, (state.session.decrypt 4 (samplePacket 2)).1 = .ok buf := by
  intro session state
  have accepted : state.accepted = [1, 3] := by
    decide +kernel
  refine ⟨accepted, ?_⟩
  refine
    ((replayWindow_exact (fun _ _ _ sealed => ⟨sealed, rfl⟩) session rfl
      rfl _).1 4 (samplePacket 2) _
        (SessionInfo.parsePacket_packetBytes _ _ (by simp))).mpr ?_
  change Admits 64 state.accepted 2
  rw [accepted]
  simp [SlidingWindow.Admits]

end Norn.Session
