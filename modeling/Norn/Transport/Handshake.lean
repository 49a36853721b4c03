import Norn.Primitives

/-!
# The transport handshake

`handshake_over_stream` of `transport.rs`.  Each side sends its identity and
a fresh nonce, and then a signature over both nonces and both identities.

`handshakeOverStream` is the function as the source has it, given what its
reads and writes return.  `Instance` is the same computation taken apart into
its steps, so that many of them can be interleaved.
-/

namespace Norn.Transport

open Foundation

/-! ## Messages -/

/-- `HANDSHAKE_MAGIC`. -/
def handshakeMagic : List UInt8 := asciiBytes "NRN1"

/-- `HANDSHAKE_SIG_TAG`. -/
def handshakeSigTag : List UInt8 := asciiBytes "norn:handshake:v1"

/-- The ways in which the handshake fails. -/
inductive StreamError where
  | helloSend
  | helloRecv
  | badMagic
  | selfLoop
  | malformedKey
  | sigSend
  | sigRecv
  | invalidKey
  | verificationFailed
  deriving DecidableEq, Repr

/-- The hello one side sends. -/
def helloBytes (ourPub ourNonce : Bytes 32) : Bytes 68 :=
  ⟨handshakeMagic ++ (ourPub.toList ++ ourNonce.toList), by
    rw [List.length_append, List.length_append, Bytes.length_toList,
      Bytes.length_toList]
    rfl⟩

/-- The bytes one side signs. -/
def handshakeSigBytes (ourNonce theirNonce ourPub theirPub : Bytes 32) :
    List UInt8 :=
  handshakeSigTag ++
    (ourNonce.toList ++
      (theirNonce.toList ++ (ourPub.toList ++ theirPub.toList)))

/-- `build_handshake_sig`. -/
def buildHandshakeSig (P : Primitives) (signingKey : P.SigningKey)
    (ourNonce theirNonce ourPub theirPub : Bytes 32) : Bytes 64 :=
  P.edSign signingKey (handshakeSigBytes ourNonce theirNonce ourPub theirPub)

/-- `verify_handshake_sig`. -/
def verifyHandshakeSig (P : Primitives) (theirPub : Bytes 32) (sig : Bytes 64)
    (theirNonce ourNonce theirPubForMsg ourPubForMsg : Bytes 32) :
    Except StreamError Unit :=
  if !P.isVerifyingKey theirPub then
    .error .invalidKey
  else if !P.verifyStrict theirPub
      (handshakeSigBytes theirNonce ourNonce theirPubForMsg ourPubForMsg)
      sig then
    .error .verificationFailed
  else
    .ok ()

/-- What the first phase makes of the hello it reads. -/
def acceptHello (P : Primitives) (ourPub : Bytes 32)
    (helloIn : Bytes 68) : Except StreamError (Bytes 32 × Bytes 32) :=
  if (helloIn.field 0 4 (by omega)).toList ≠ handshakeMagic then
    .error .badMagic
  else
    let theirPub := helloIn.field 4 32 (by omega)
    let theirNonce := helloIn.field 36 32 (by omega)
    if theirPub = ourPub then
      .error .selfLoop
    else if !P.isVerifyingKey theirPub then
      .error .malformedKey
    else
      .ok (theirPub, theirNonce)

theorem handshakeSigBytes_injective
    {ourNonce theirNonce ourPub theirPub : Bytes 32}
    {otherNonce otherTheirNonce otherPub otherTheirPub : Bytes 32}
    (same :
      handshakeSigBytes ourNonce theirNonce ourPub theirPub =
        handshakeSigBytes otherNonce otherTheirNonce otherPub otherTheirPub) :
    ourNonce = otherNonce ∧ theirNonce = otherTheirNonce ∧
      ourPub = otherPub ∧ theirPub = otherTheirPub := by
  have untagged := List.append_cancel_left same
  rcases Bytes.append_inj untagged with ⟨first, rest⟩
  rcases Bytes.append_inj rest with ⟨second, rest⟩
  rcases Bytes.append_inj rest with ⟨third, fourth⟩
  exact ⟨first, second, third, Bytes.ext fourth⟩

/-- What the reads and writes of one handshake return. -/
structure StreamIo where
  helloSent : Bool
  helloIn : Option (Bytes 68)
  sigSent : Bool
  sigIn : Option (Bytes 64)

/-- `handshake_over_stream`, having drawn `ourNonce`. -/
def handshakeOverStream (P : Primitives) (signingKey : P.SigningKey)
    (ourNonce : Bytes 32) (io : StreamIo) :
    Except StreamError (Bytes 32) :=
  let ourPub := P.verifyingKey signingKey
  if !io.helloSent then
    .error .helloSend
  else
    match io.helloIn with
    | none => .error .helloRecv
    | some helloIn =>
      match acceptHello P ourPub helloIn with
      | .error failure => .error failure
      | .ok (theirPub, theirNonce) =>
        if !io.sigSent then
          .error .sigSend
        else
          match io.sigIn with
          | none => .error .sigRecv
          | some sigIn =>
            match verifyHandshakeSig P theirPub sigIn theirNonce
                ourNonce theirPub ourPub with
            | .error failure => .error failure
            | .ok () => .ok theirPub

/-! ## The function in steps -/

/--
Where a handshake stands.  From the second phase on it remembers the identity
and the nonce of the hello it has accepted.
-/
inductive Phase where
  | greeting
  | signing (theirPub theirNonce : Bytes 32)
  | finished (theirPub theirNonce : Bytes 32)
  | failed (heard : Option (Bytes 32 × Bytes 32)) (failure : StreamError)

/-- The hello the handshake has accepted. -/
def Phase.heard : Phase → Option (Bytes 32 × Bytes 32)
  | .greeting => none
  | .signing theirPub theirNonce => some (theirPub, theirNonce)
  | .finished theirPub theirNonce => some (theirPub, theirNonce)
  | .failed heard _ => heard

/-- What the function has returned. -/
def Phase.result : Phase → Option (Except StreamError (Bytes 32))
  | .greeting => none
  | .signing _ _ => none
  | .finished theirPub _ => some (.ok theirPub)
  | .failed _ failure => some (.error failure)

/-- One call of the function. -/
structure Instance (P : Primitives) where
  signingKey : P.SigningKey
  ourNonce : Bytes 32
  phase : Phase

namespace Instance

variable {P : Primitives}

/-- The identity of the node that runs the handshake. -/
def ourPub (self : Instance P) : Bytes 32 := P.verifyingKey self.signingKey

/-- A handshake that has drawn its nonce. -/
def start (signingKey : P.SigningKey) (ourNonce : Bytes 32) : Instance P where
  signingKey := signingKey
  ourNonce := ourNonce
  phase := .greeting

/-- The bytes it signs once it has accepted a hello. -/
def signedBytes (self : Instance P) (theirPub theirNonce : Bytes 32) :
    List UInt8 :=
  handshakeSigBytes self.ourNonce theirNonce self.ourPub theirPub

/-- The first phase, up to the signature. -/
def greet (self : Instance P) (sent : Bool)
    (input : Option (Bytes 68)) : Phase :=
  if !sent then
    .failed none .helloSend
  else
    match input with
    | none => .failed none .helloRecv
    | some helloIn =>
      match acceptHello P self.ourPub helloIn with
      | .error failure => .failed none failure
      | .ok (theirPub, theirNonce) => .signing theirPub theirNonce

/-- The second phase. -/
def conclude (self : Instance P) (theirPub theirNonce : Bytes 32)
    (sent : Bool) (input : Option (Bytes 64)) : Phase :=
  if !sent then
    .failed (some (theirPub, theirNonce)) .sigSend
  else
    match input with
    | none => .failed (some (theirPub, theirNonce)) .sigRecv
    | some sigIn =>
      match verifyHandshakeSig P theirPub sigIn theirNonce self.ourNonce
          theirPub self.ourPub with
      | .error failure =>
        .failed (some (theirPub, theirNonce)) failure
      | .ok () => .finished theirPub theirNonce

/-- The hello exchange has ended. -/
def receiveHello (self : Instance P) (sent : Bool)
    (input : Option (Bytes 68)) : Instance P :=
  match self.phase with
  | .greeting => { self with phase := self.greet sent input }
  | _ => self

/-- The signature exchange has ended. -/
def receiveSignature (self : Instance P) (sent : Bool)
    (input : Option (Bytes 64)) : Instance P :=
  match self.phase with
  | .signing theirPub theirNonce =>
    { self with phase := self.conclude theirPub theirNonce sent input }
  | _ => self

theorem result_eq_handshakeOverStream (signingKey : P.SigningKey)
    (ourNonce : Bytes 32) (io : StreamIo) :
    (((start signingKey ourNonce).receiveHello io.helloSent
        io.helloIn).receiveSignature io.sigSent io.sigIn).phase.result =
      some (handshakeOverStream P signingKey ourNonce io) := by
  rcases io with ⟨helloSent, helloIn, sigSent, sigIn⟩
  simp only [receiveHello, start, greet, handshakeOverStream, ourPub]
  cases helloSent with
  | false => rfl
  | true =>
    cases helloIn with
    | none => rfl
    | some helloIn =>
      simp only [Bool.not_true, Bool.false_eq_true, if_false]
      rcases acceptHello P (P.verifyingKey signingKey) helloIn with
        failure | ⟨theirPub, theirNonce⟩
      · rfl
      · simp only [receiveSignature, conclude, ourPub]
        cases sigSent with
        | false => rfl
        | true =>
          cases sigIn with
          | none => rfl
          | some sigIn =>
            simp only [Bool.not_true, Bool.false_eq_true, if_false]
            cases verifyHandshakeSig P theirPub sigIn theirNonce
                ourNonce theirPub (P.verifyingKey signingKey) <;>
              rfl

theorem greet_cases (self : Instance P) (sent : Bool)
    (input : Option (Bytes 68)) :
    (∃ failure, self.greet sent input = .failed none failure) ∨
      ∃ theirPub theirNonce, self.greet sent input =
        .signing theirPub theirNonce := by
  unfold greet
  cases sent with
  | false => exact Or.inl ⟨_, rfl⟩
  | true =>
    cases input with
    | none => exact Or.inl ⟨_, rfl⟩
    | some helloIn =>
      simp only [Bool.not_true, Bool.false_eq_true, if_false]
      rcases acceptHello P self.ourPub helloIn with
        failure | ⟨theirPub, theirNonce⟩
      · exact Or.inl ⟨_, rfl⟩
      · exact Or.inr ⟨_, _, rfl⟩

theorem conclude_cases (self : Instance P) (theirPub theirNonce : Bytes 32)
    (sent : Bool)
    (input : Option (Bytes 64)) :
    (∃ failure,
        self.conclude theirPub theirNonce sent input =
          .failed (some (theirPub, theirNonce)) failure) ∨
      ∃ sig, input = some sig ∧
        P.verifyStrict theirPub
          (handshakeSigBytes theirNonce self.ourNonce theirPub self.ourPub)
            sig = true ∧
        self.conclude theirPub theirNonce sent input =
          .finished theirPub theirNonce := by
  unfold conclude
  cases sent with
  | false => exact Or.inl ⟨_, rfl⟩
  | true =>
    cases input with
    | none => exact Or.inl ⟨_, rfl⟩
    | some sig =>
      simp only [Bool.not_true, Bool.false_eq_true, if_false]
      cases valid : P.isVerifyingKey theirPub with
      | false =>
        left
        simp [verifyHandshakeSig, valid]
      | true =>
        cases verified :
            P.verifyStrict theirPub
              (handshakeSigBytes theirNonce self.ourNonce theirPub self.ourPub)
                sig with
        | false =>
          left
          simp [verifyHandshakeSig, valid, verified]
        | true =>
          right
          simp [verifyHandshakeSig, valid, verified]

end Instance

end Norn.Transport
