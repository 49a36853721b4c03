import Norn.Foundation.Run
import Norn.Transport.Handshake

/-!
# Agreement of transport handshakes

Any number of handshakes of honest nodes run at the same time.  Between them
stands an adversary who decides which bytes each of them reads, who may relay,
reflect, replay or invent, and who runs every other node.

Three things are assumed of a run: a signature that verifies under the key of
an honest node is over a message that node has signed, nonces do not repeat,
and an honest node signs nothing else that starts with the handshake tag.
Then a completed handshake with an honest peer has exactly one counterpart at
that peer, and the two agree on both nonces.
-/

namespace Norn.Transport

open Foundation Foundation.Run

section Agreement

variable {P : Primitives}

variable {before after self : Instance P} {index : Nat}
  {honest : Bytes 32 → Prop}

/-- All handshakes of honest nodes, and what honest nodes have signed. -/
structure World (P : Primitives) where
  instances : List (Instance P)
  signed : List (Bytes 32 × List UInt8)

/-- A world in which nothing has happened. -/
def World.empty : World P := ⟨[], []⟩

/-- What the nodes and the adversary can do. -/
inductive Action (P : Primitives) where
  | start (signingKey : P.SigningKey) (nonce : Bytes 32)
  | hello (index : Nat) (sent : Bool) (input : Option (Bytes 68))
  | signature (index : Nat) (sent : Bool) (input : Option (Bytes 64))
  | signOther (signingKey : P.SigningKey) (message : List UInt8)

/-- The message a handshake signs when its hello exchange ends. -/
def Instance.signs (before after : Instance P) : List (Bytes 32 × List UInt8) :=
  match before.phase, after.phase with
  | .greeting, .signing theirPub theirNonce =>
    [(after.ourPub, after.signedBytes theirPub theirNonce)]
  | _, _ => []

/-- One step of the world. -/
def worldStep (world : World P) : Action P → World P
  | .start signingKey nonce =>
    { world with
      instances := world.instances ++ [Instance.start signingKey nonce] }
  | .hello index sent input =>
    match world.instances[index]? with
    | none => world
    | some before =>
      let after := before.receiveHello sent input
      { instances := world.instances.set index after
        signed := before.signs after ++ world.signed }
  | .signature index sent input =>
    match world.instances[index]? with
    | none => world
    | some before =>
      { world with
        instances :=
          world.instances.set index (before.receiveSignature sent input) }
  | .signOther signingKey message =>
    { world with
      signed := (P.verifyingKey signingKey, message) :: world.signed }

/-- The bytes start with the handshake tag. -/
def Tagged (message : List UInt8) : Prop := handshakeSigTag <+: message

/--
What is assumed of a step: fresh nonces, no other signature of a tagged
message, and no forged signature of an honest node.
-/
def Assumed (honest : Bytes 32 → Prop) (world : World P) : Action P → Prop
  | .start _ nonce =>
    ∀ other ∈ world.instances, other.ourNonce ≠ nonce
  | .hello _ _ _ => True
  | .signature index _ input =>
    ∀ self theirPub theirNonce sig,
      world.instances[index]? = some self →
        self.phase = .signing theirPub theirNonce →
          input = some sig →
            honest theirPub →
              P.verifyStrict theirPub
                  (handshakeSigBytes theirNonce self.ourNonce theirPub
                    self.ourPub) sig = true →
                (theirPub,
                    handshakeSigBytes theirNonce self.ourNonce theirPub
                      self.ourPub) ∈ world.signed
  | .signOther _ message => ¬ Tagged message

/-! ## Invariants -/

/-- What a handshake signed under the tag. -/
structure SignedBy (party : Instance P) (identity : Bytes 32)
    (message : List UInt8) : Prop where
  owner : party.ourPub = identity
  content :
    ∃ theirPub theirNonce,
      party.phase.heard = some (theirPub, theirNonce) ∧
        message = party.signedBytes theirPub theirNonce

/-- The invariant of the world. -/
structure Coherent (honest : Bytes 32 → Prop) (world : World P) : Prop where
  tagged :
    ∀ identity message, (identity, message) ∈ world.signed →
      Tagged message → ∃ self ∈ world.instances, SignedBy self identity message
  finished :
    ∀ self ∈ world.instances, ∀ theirPub theirNonce,
      self.phase = .finished theirPub theirNonce → honest theirPub →
        (theirPub,
            handshakeSigBytes theirNonce self.ourNonce theirPub
              self.ourPub) ∈ world.signed
  nonces : (world.instances.map Instance.ourNonce).Nodup

/-- A step keeps the identity and nonce, and the hello once accepted. -/
structure Continues (before after : Instance P) : Prop where
  signingKey : after.signingKey = before.signingKey
  ourNonce : after.ourNonce = before.ourNonce
  heard :
    ∀ hello, before.phase.heard = some hello → after.phase.heard = some hello

theorem Continues.signedBy (continues : Continues before after)
    {identity : Bytes 32} {message : List UInt8}
    (signed : SignedBy before identity message) :
    SignedBy after identity message := by
  have same : after.ourPub = before.ourPub := by
    unfold Instance.ourPub
    rw [continues.signingKey]
  rcases signed.content with ⟨theirPub, theirNonce, heard, content⟩
  refine ⟨same.trans signed.owner, theirPub, theirNonce, continues.heard _
    heard, ?_⟩
  rw [content]
  unfold Instance.signedBytes
  rw [same, continues.ourNonce]

theorem continues_receiveHello (self : Instance P) (sent : Bool)
    (input : Option (Bytes 68)) :
    Continues self (self.receiveHello sent input) := by
  unfold Instance.receiveHello
  cases phase : self.phase with
  | greeting =>
    refine ⟨rfl, rfl, ?_⟩
    intro hello heard
    rw [phase] at heard
    cases heard
  | signing theirPub theirNonce => exact ⟨rfl, rfl, fun _ heard => heard⟩
  | finished theirPub theirNonce => exact ⟨rfl, rfl, fun _ heard => heard⟩
  | failed heard failure => exact ⟨rfl, rfl, fun _ heard => heard⟩

theorem continues_receiveSignature (self : Instance P) (sent : Bool)
    (input : Option (Bytes 64)) :
    Continues self (self.receiveSignature sent input) := by
  unfold Instance.receiveSignature
  cases phase : self.phase with
  | greeting => exact ⟨rfl, rfl, fun _ heard => heard⟩
  | signing theirPub theirNonce =>
    refine ⟨rfl, rfl, ?_⟩
    intro hello heard
    rw [phase] at heard
    rcases self.conclude_cases theirPub theirNonce sent input with
      ⟨failure, failed⟩ | ⟨sig, _, _, finished⟩
    · simp only [failed]
      exact heard
    · simp only [finished]
      exact heard
  | finished theirPub theirNonce => exact ⟨rfl, rfl, fun _ heard => heard⟩
  | failed heard failure => exact ⟨rfl, rfl, fun _ heard => heard⟩

theorem Continues.refl (self : Instance P) :
    Continues self self := ⟨rfl, rfl, fun _ heard => heard⟩

theorem exists_continues_of_mem {instances : List (Instance P)}
    (found : instances[index]? = some before)
    (continues : Continues before after) (member : self ∈ instances) :
    ∃ next ∈ instances.set index after, Continues self next := by
  rcases List.getElem?_of_mem member with ⟨position, present⟩
  have inside : index < instances.length :=
    (List.getElem?_eq_some_iff.mp found).1
  by_cases same : index = position
  · subst same
    rw [found] at present
    cases present
    exact ⟨after, List.mem_set inside after, continues⟩
  · refine ⟨self, ?_, Continues.refl self⟩
    apply List.mem_of_getElem?
    rw [List.getElem?_set_ne same]
    exact present

theorem map_ourNonce_set {instances : List (Instance P)}
    (found : instances[index]? = some before)
    (same : after.ourNonce = before.ourNonce) :
    (instances.set index after).map Instance.ourNonce =
      instances.map Instance.ourNonce := by
  apply List.ext_getElem?
  intro position
  rw [List.getElem?_map, List.getElem?_map, List.getElem?_set]
  split_ifs with here inside
  · subst here
    rw [found, Option.map_some, Option.map_some, same]
  · subst here
    exact absurd (List.getElem?_eq_some_iff.mp found).1 inside
  · rfl

theorem Coherent.update {world : World P} (coherent : Coherent honest world)
    {extra : List (Bytes 32 × List UInt8)}
    (found : world.instances[index]? = some before)
    (continues : Continues before after)
    (signs : ∀ entry ∈ extra, SignedBy after entry.1 entry.2)
    (finishes :
      ∀ theirPub theirNonce,
        after.phase = .finished theirPub theirNonce → honest theirPub →
          before.phase = .finished theirPub theirNonce ∨
            (theirPub,
                handshakeSigBytes theirNonce before.ourNonce theirPub
                  before.ourPub) ∈ world.signed) :
    Coherent honest
      { instances := world.instances.set index after
        signed := extra ++ world.signed } where
  tagged := by
    intro identity message member tag
    rcases List.mem_append.mp member with new | old
    · have inside : index < world.instances.length :=
        (List.getElem?_eq_some_iff.mp found).1
      exact ⟨after, List.mem_set inside after, signs _ new⟩
    · rcases coherent.tagged identity message old tag with
        ⟨self, present, signed⟩
      rcases exists_continues_of_mem found continues present with
        ⟨next, listed, later⟩
      exact ⟨next, listed, later.signedBy signed⟩
  finished := by
    intro self member theirPub theirNonce phase trusted
    apply List.mem_append_right
    rcases List.mem_or_eq_of_mem_set member with present | rfl
    · exact coherent.finished self present theirPub theirNonce phase trusted
    · have same : self.ourPub = before.ourPub := by
        unfold Instance.ourPub
        rw [continues.signingKey]
      rw [continues.ourNonce, same]
      rcases finishes theirPub theirNonce phase trusted with already | verified
      · exact coherent.finished before (List.mem_of_getElem? found)
          theirPub theirNonce already trusted
      · exact verified
  nonces := by
    rw [map_ourNonce_set found continues.ourNonce]
    exact coherent.nonces

theorem signedBy_of_signs (sent : Bool) (input : Option (Bytes 68)) :
    ∀ entry ∈ before.signs (before.receiveHello sent input),
      SignedBy (before.receiveHello sent input) entry.1 entry.2 := by
  intro entry member
  unfold Instance.signs at member
  cases phase : before.phase with
  | greeting =>
    cases later : (before.receiveHello sent input).phase with
    | signing theirPub theirNonce =>
      simp only [phase, later, List.mem_singleton] at member
      subst member
      exact ⟨rfl, theirPub, theirNonce, by rw [later]; rfl, rfl⟩
    | greeting => simp [phase, later] at member
    | finished _ _ => simp [phase, later] at member
    | failed _ _ => simp [phase, later] at member
  | signing _ _ => simp [phase] at member
  | finished _ _ => simp [phase] at member
  | failed _ _ => simp [phase] at member

theorem finished_of_receiveHello {sent : Bool} {input : Option (Bytes 68)}
    {theirPub theirNonce : Bytes 32}
    (phase :
      (before.receiveHello sent input).phase = .finished theirPub theirNonce) :
    before.phase = .finished theirPub theirNonce := by
  unfold Instance.receiveHello at phase
  cases start : before.phase with
  | greeting =>
    simp only [start] at phase
    rcases before.greet_cases sent input with
      ⟨failure, failed⟩ | ⟨pub, nonce, signing⟩
    · rw [failed] at phase
      cases phase
    · rw [signing] at phase
      cases phase
  | signing _ _ => simp [start] at phase
  | finished _ _ => simpa [start] using phase
  | failed _ _ => simp [start] at phase

theorem finished_of_receiveSignature {sent : Bool} {input : Option (Bytes 64)}
    {theirPub theirNonce : Bytes 32}
    (phase :
      (before.receiveSignature sent input).phase =
        .finished theirPub theirNonce) :
    before.phase = .finished theirPub theirNonce ∨
      before.phase = .signing theirPub theirNonce ∧
        ∃ sig, input = some sig ∧
          P.verifyStrict theirPub
            (handshakeSigBytes theirNonce before.ourNonce theirPub
              before.ourPub) sig = true := by
  unfold Instance.receiveSignature at phase
  cases start : before.phase with
  | signing pub nonce =>
    right
    simp only [start] at phase
    rcases before.conclude_cases pub nonce sent input with
      ⟨failure, failed⟩ | ⟨sig, given, verified, finished⟩
    · rw [failed] at phase
      cases phase
    · rw [finished] at phase
      cases phase
      exact ⟨rfl, sig, given, verified⟩
  | greeting => simp [start] at phase
  | finished _ _ =>
    left
    simpa [start] using phase
  | failed _ _ => simp [start] at phase

/-- Every step that meets the assumptions keeps the world coherent. -/
theorem coherent_step (honest : Bytes 32 → Prop) (world : World P)
    (action : Action P) (coherent : Coherent honest world)
    (assumed : Assumed honest world action) :
    Coherent honest (worldStep world action) := by
  cases action with
  | start signingKey nonce =>
    refine ⟨?_, ?_, ?_⟩
    · intro identity message member tag
      rcases coherent.tagged identity message member tag with
        ⟨self, present, signed⟩
      exact ⟨self, List.mem_append_left _ present, signed⟩
    · intro self member theirPub theirNonce phase trusted
      rcases List.mem_append.mp member with present | new
      · exact coherent.finished self present theirPub theirNonce phase trusted
      · rw [List.mem_singleton.mp new] at phase
        cases phase
    · simp only [worldStep, List.map_append, List.map_cons, List.map_nil]
      rw [List.nodup_append]
      refine ⟨coherent.nonces, by simp, ?_⟩
      intro used member drawn new
      rcases List.mem_map.mp member with ⟨other, present, rfl⟩
      rw [List.mem_singleton.mp new]
      exact assumed other present
  | hello index sent input =>
    simp only [worldStep]
    cases found : world.instances[index]? with
    | none => exact coherent
    | some before =>
      refine coherent.update found (continues_receiveHello before sent input)
        (signedBy_of_signs sent input) ?_
      intro theirPub theirNonce phase _
      exact Or.inl (finished_of_receiveHello phase)
  | signature index sent input =>
    simp only [worldStep]
    cases found : world.instances[index]? with
    | none => exact coherent
    | some before =>
      have quiet :
          ∀ entry ∈ ([] : List (Bytes 32 × List UInt8)),
            SignedBy (before.receiveSignature sent input) entry.1
              entry.2 := by
        intro entry member
        cases member
      refine coherent.update found
        (continues_receiveSignature before sent input) quiet ?_
      intro theirPub theirNonce phase trusted
      rcases finished_of_receiveSignature phase with
        already | ⟨signing, sig, given, verified⟩
      · exact Or.inl already
      · exact Or.inr
          (assumed before theirPub theirNonce sig found signing given trusted
            verified)
  | signOther signingKey message =>
    refine ⟨?_, ?_, coherent.nonces⟩
    · intro identity other member tag
      rcases List.mem_cons.mp member with same | old
      · cases same
        exact absurd tag assumed
      · exact coherent.tagged identity other old tag
    · intro self member theirPub theirNonce phase trusted
      exact List.mem_cons_of_mem _
        (coherent.finished self member theirPub theirNonce phase trusted)

theorem coherent_empty (honest : Bytes 32 → Prop) :
    Coherent honest (World.empty : World P) where
  tagged := by
    intro identity message member
    cases member
  finished := by
    intro self member
    cases member
  nonces := List.nodup_nil

/--
The second handshake is a counterpart of the first: its nonce is the one the
first has received, and it has received a hello with the identity and the
nonce of the first.
-/
structure Corresponds (one other : Instance P) : Prop where
  received : one.phase.heard = some (other.ourPub, other.ourNonce)
  answered : other.phase.heard = some (one.ourPub, one.ourNonce)

/-- The handshake has returned the identity of a peer. -/
def Instance.Returns (self : Instance P) (peer : Bytes 32) : Prop :=
  self.phase.result = some (.ok peer)

theorem Instance.Returns.finished {peer : Bytes 32}
    (returned : self.Returns peer) :
    ∃ nonce, self.phase = .finished peer nonce := by
  unfold Instance.Returns at returned
  cases phase : self.phase with
  | greeting => simp [phase, Phase.result] at returned
  | signing _ _ => simp [phase, Phase.result] at returned
  | finished theirPub theirNonce =>
    simp only [phase, Phase.result, Option.some.injEq, Except.ok.injEq]
      at returned
    subst returned
    exact ⟨theirNonce, rfl⟩
  | failed _ _ => simp [phase, Phase.result] at returned

theorem tagged_handshakeSigBytes
    (ourNonce theirNonce ourPub theirPub : Bytes 32) :
    Tagged (handshakeSigBytes ourNonce theirNonce ourPub theirPub) :=
  List.prefix_append _ _

theorem Coherent.exists_corresponds {world : World P}
    (coherent : Coherent honest world) (member : self ∈ world.instances)
    {peer : Bytes 32} (trusted : honest peer) (returned : self.Returns peer) :
    ∃ other ∈ world.instances, other.ourPub = peer ∧
      Corresponds self other := by
  rcases returned.finished with ⟨nonce, phase⟩
  have verified := coherent.finished self member peer nonce phase trusted
  rcases coherent.tagged _ _ verified (tagged_handshakeSigBytes _ _ _ _) with
    ⟨other, present, signed⟩
  rcases signed.content with ⟨theirPub, theirNonce, heard, content⟩
  rcases handshakeSigBytes_injective content with ⟨nonces, ours, _, named⟩
  refine ⟨other, present, signed.owner, ?_, ?_⟩
  · rw [phase, signed.owner, ← nonces]
    rfl
  · rw [heard, named, ours]

theorem Coherent.corresponds_injective {world : World P}
    (coherent : Coherent honest world) {left right : Nat}
    {one two other : Instance P} (first : world.instances[left]? = some one)
    (second : world.instances[right]? = some two)
    (matchesOne : Corresponds one other) (matchesTwo : Corresponds two other) :
    left = right := by
  have same : one.ourNonce = two.ourNonce := by
    have heard := matchesOne.answered.symm.trans matchesTwo.answered
    simp only [Option.some.injEq, Prod.mk.injEq] at heard
    exact heard.2
  have inside : left < (world.instances.map Instance.ourNonce).length := by
    rw [List.length_map]
    exact (List.getElem?_eq_some_iff.mp first).1
  apply (List.getElem?_inj inside coherent.nonces).mp
  rw [List.getElem?_map, List.getElem?_map, first, second, Option.map_some,
    Option.map_some, same]

/--
Injective agreement: in every run of any number of handshakes under the
assumptions, a handshake that returns the identity of an honest peer has a
counterpart at that peer, and no two handshakes have the same counterpart.
-/
theorem handshake_agreement (honest : Bytes 32 → Prop)
    (actions : List (Action P))
    (assumed : Along worldStep (Assumed honest) World.empty actions) :
    let world := run worldStep World.empty actions
    (∀ (index : Nat) (self : Instance P) (peer : Bytes 32),
      world.instances[index]? = some self →
        honest peer → self.Returns peer →
          ∃ other ∈ world.instances,
            other.ourPub = peer ∧ Corresponds self other) ∧
      ∀ (left right : Nat) (one two other : Instance P),
        world.instances[left]? = some one →
          world.instances[right]? = some two →
            Corresponds one other → Corresponds two other → left = right := by
  have coherent :=
    invariant_run (coherent_step honest) (coherent_empty honest) assumed
  refine ⟨?_, ?_⟩
  · intro index self peer found trusted returned
    exact coherent.exists_corresponds (List.mem_of_getElem? found) trusted
      returned
  · intro left right one two other first second
    exact coherent.corresponds_injective first second

end Agreement

/--
A run of two sample nodes: both start, each receives the hello of the other,
and then its signature.
-/
def sampleActions : List (Action Primitives.transparent) :=
  let left : Bytes 32 := Bytes.replicate 32 1
  let right : Bytes 32 := Bytes.replicate 32 2
  let leftNonce : Bytes 32 := Bytes.replicate 32 5
  let rightNonce : Bytes 32 := Bytes.replicate 32 6
  [.start left leftNonce, .start right rightNonce,
    .hello 0 true (some (helloBytes right rightNonce)),
    .hello 1 true (some (helloBytes left leftNonce)),
    .signature 0 true
      (some (buildHandshakeSig .transparent right rightNonce leftNonce
        right left)),
    .signature 1 true
      (some (buildHandshakeSig .transparent left leftNonce rightNonce
        left right))]

theorem sampleActions_assumed :
    Along worldStep (Assumed fun _ => True) World.empty sampleActions := by
  refine ⟨nofun, ?_, trivial, trivial, ?_, ?_, trivial⟩
  · intro other member
    rw [List.mem_singleton.mp member]
    decide
  · intro self theirPub theirNonce sig found phase _ _ _
    cases found
    cases phase
    decide +kernel
  · intro self theirPub theirNonce sig found phase _ _ _
    cases found
    cases phase
    decide +kernel

/-- The left node's handshake returns the right node, which agrees. -/
theorem handshake_agreement_sample :
    Along worldStep (Assumed fun _ => True) World.empty sampleActions ∧
      ∃ self,
        (run worldStep World.empty sampleActions).instances[0]? = some self ∧
          self.Returns (Bytes.replicate 32 2) ∧
          ∃ other ∈ (run worldStep World.empty sampleActions).instances,
            other.ourPub = Bytes.replicate 32 2 ∧
              Corresponds self other := by
  have returned :
      ∃ self,
        (run worldStep World.empty sampleActions).instances[0]? = some self ∧
          self.Returns (Bytes.replicate 32 2) := by
    refine ⟨_, rfl, ?_⟩
    unfold Instance.Returns
    decide +kernel
  rcases returned with ⟨self, found, returned⟩
  exact ⟨sampleActions_assumed, self, found, returned,
    (handshake_agreement (fun _ => True) sampleActions sampleActions_assumed).1
      0
      self _ found trivial returned⟩

end Norn.Transport
