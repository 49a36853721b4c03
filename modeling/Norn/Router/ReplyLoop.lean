import Norn.Router.HopBound

/-!
# Path replies between routers that have lost the way

`handle_path_notify`, `handle_path_broken` and `handle_hole_punch` send a
frame on to whatever `lookup` answers for its addressee.  The frame has no
hop counter, and the router it came from is not excluded.

As long as the tables stay as they are, the frame follows a trail from router
to router.  The number of times it is sent is bounded exactly if the trail
never comes to a router twice.  The last resort of `lookup` answers with a
peer whenever there is one, so two routers that know nothing of the addressee
send the frame to and fro.
-/

namespace Norn.Router

open Foundation Foundation.Run Packet
open Session (clockSkew)

variable {P : Primitives} {F : Floats}

variable {frame encoded : List UInt8} {dst : Bytes 32} {node : Node P F}

/-- The addressee of a path reply or a hole punch, and what is sent on. -/
def replyTo (frame : List UInt8) : Option (Bytes 32 × List UInt8) :=
  match parseFrame frame with
  | some (.pathNotify notify) => some (notify.source, notify.encode)
  | some (.pathBroken broken) => some (broken.source, broken.encode)
  | some (.holePunch punch) => some (punch.target, punch.encode)
  | _ => none

/-- A hole punch carries a signature of its initiator. -/
def Signed (P : Primitives) (frame : List UInt8) : Prop :=
  ∀ punch, parseFrame frame = some (.holePunch punch) →
    P.isVerifyingKey punch.initiator = true ∧
      P.verifyStrict punch.initiator punch.signBytes punch.sig = true

/-- A hole punch is fresh by the clock of a router. -/
def Fresh (frame : List UInt8) (env : RelayEnv P F) : Prop :=
  ∀ punch, parseFrame frame = some (.holePunch punch) →
    clockSkew env.frame.call.nowMs punch.validFromMs ≤ Node.holePunchWindowMs

theorem signed_of_notPunch
    (notPunch : ∀ punch, parseFrame frame ≠ some (.holePunch punch)) :
    Signed P frame :=
  fun punch isPunch => absurd isPunch (notPunch punch)

theorem fresh_of_notPunch
    (notPunch : ∀ punch, parseFrame frame ≠ some (.holePunch punch))
    (env : RelayEnv P F) : Fresh frame env :=
  fun punch isPunch => absurd isPunch (notPunch punch)

theorem replyTo_cases (reply : replyTo frame = some (dst, encoded)) :
    (∃ notify, parseFrame frame = some (.pathNotify notify) ∧
        notify.source = dst ∧ notify.encode = encoded) ∨
      (∃ broken, parseFrame frame = some (.pathBroken broken) ∧
        broken.source = dst ∧ broken.encode = encoded) ∨
      ∃ punch, parseFrame frame = some (.holePunch punch) ∧
        punch.target = dst ∧ punch.encode = encoded := by
  unfold replyTo at reply
  cases parsed : parseFrame frame with
  | none =>
    rw [parsed] at reply
    cases reply
  | some content =>
    rw [parsed] at reply
    cases content with
    | pathNotify notify =>
      cases reply
      exact Or.inl ⟨notify, rfl, rfl, rfl⟩
    | pathBroken broken =>
      cases reply
      exact Or.inr (Or.inl ⟨broken, rfl, rfl, rfl⟩)
    | holePunch punch =>
      cases reply
      exact Or.inr (Or.inr ⟨punch, rfl, rfl, rfl⟩)
    | _ => cases reply

/-- A frame that carries the same reply as another one. -/
structure SameReply (P : Primitives) (F : Floats) (dst : Bytes 32)
    (encoded frame other : List UInt8) : Prop where
  short : other.length ≤ maxFrameLength
  reply : replyTo other = some (dst, encoded)
  signed : Signed P frame → Signed P other
  fresh : ∀ env : RelayEnv P F, Fresh frame env → Fresh other env

theorem sameReply_encoded (short : frame.length ≤ maxFrameLength)
    (reply : replyTo frame = some (dst, encoded)) :
    SameReply P F dst encoded frame encoded := by
  rcases replyTo_cases reply with
    ⟨notify, parsed, rfl, rfl⟩ | ⟨broken, parsed, rfl, rfl⟩ |
      ⟨punch, parsed, rfl, rfl⟩
  · have fits : PathFits notify.path := fits_of_parseFrame short parsed
    have again := parseFrame_pathNotify fits
    have pathLength := Traffic.length_encodePath_le fits.1
    have idLength := length_encodeUvarint_le notify.id
    have notPunch :
        ∀ punch, parseFrame notify.encode ≠ some (.holePunch punch) := by
      simp [again]
    constructor
    · simp only [PathNotify.encode, List.length_cons, List.length_append,
        Bytes.length_toList]
      unfold maxPathHops at pathLength
      unfold maxFrameLength
      omega
    · simp only [replyTo, again]
    · exact fun _ => signed_of_notPunch notPunch
    · exact fun env _ => fresh_of_notPunch notPunch env
  · have again := parseFrame_pathBroken broken
    have idLength := length_encodeUvarint_le broken.id
    have notPunch :
        ∀ punch, parseFrame broken.encode ≠ some (.holePunch punch) := by
      simp [again]
    constructor
    · simp only [PathBroken.encode, List.length_cons, List.length_append,
        Bytes.length_toList]
      unfold maxFrameLength
      omega
    · simp only [replyTo, again]
    · exact fun _ => signed_of_notPunch notPunch
    · exact fun env _ => fresh_of_notPunch notPunch env
  · have fits : (utf8 punch.endpoint).length ≤ 255 :=
      fits_of_parseFrame short parsed
    have again := parseFrame_holePunch fits
    constructor
    · simp only [HolePunch.encode, List.length_cons, List.length_append,
        Bytes.length_toList, length_clampedEndpoint]
      unfold maxFrameLength
      omega
    · simp only [replyTo, again]
    · intro signed other isPunch
      rw [again] at isPunch
      cases isPunch
      exact signed punch parsed
    · intro env fresh other isPunch
      rw [again] at isPunch
      cases isPunch
      exact fresh punch parsed

/-- What decides where a router sends a reply. -/
def observe (dst : Bytes 32) (node : Node P F) : Bytes 32 × Option (Bytes 32) :=
  (node.pubKey, node.lookup dst)

/-- The next hop of a reply, by the tables of a router. -/
def onwards (dst : Bytes 32) (node : Node P F) : Option (Bytes 32) :=
  if node.pubKey = dst then none else node.lookup dst

theorem onwards_eq_of_observe {other : Node P F}
    (same : observe dst node = observe dst other) :
    onwards dst node = onwards dst other := by
  rcases Prod.mk.inj same with ⟨keys, lookups⟩
  simp only [onwards, keys, lookups]

theorem observe_touchPeer (dst : Bytes 32) (node : Node P F)
    (fromPeer : Bytes 32) (now : Norn.Session.Instant) (bytes : Nat) :
    observe dst
        { node with
          router := node.router.touchPeer fromPeer now bytes } =
      observe dst node := by
  have table :
      (node.router.touchPeer fromPeer now bytes).coordTable =
        node.router.coordTable := by
    unfold RouterState.touchPeer
    cases node.router.peers.lookup fromPeer <;> rfl
  simp only [observe, Node.pubKey, Node.lookup, pubKey_touchPeer, table]

theorem sendTowards_eq (node : Node P F) (dst : Bytes 32)
    (encoded : List UInt8) :
    node.sendTowards dst encoded =
      ((node.lookup dst).map fun next => (next, encoded)).toList := by
  unfold Node.sendTowards
  cases node.lookup dst <;> rfl

theorem onwards_of_addressee (addressee : node.pubKey = dst) :
    onwards dst node = none :=
  if_pos addressee

theorem onwards_of_other (other : node.pubKey ≠ dst) :
    onwards dst node = node.lookup dst :=
  if_neg other

/--
A router that is not the addressee sends a reply on and its tables stay as
they are; the addressee sends nothing.
-/
theorem receive_reply (short : frame.length ≤ maxFrameLength)
    (reply : replyTo frame = some (dst, encoded)) (signed : Signed P frame)
    {env : RelayEnv P F} (fresh : Fresh frame env) (node : Node P F)
    (fromPeer : Bytes 32) :
    (Node.receive env node fromPeer frame).2 =
        ((onwards dst node).map fun next => (next, encoded)).toList ∧
      (onwards dst node ≠ none →
        observe dst (Node.receive env node fromPeer frame).1 =
          observe dst node) := by
  have notLong := Nat.not_lt.mpr short
  rcases replyTo_cases reply with
    ⟨notify, parsed, rfl, rfl⟩ | ⟨broken, parsed, rfl, rfl⟩ |
      ⟨punch, parsed, rfl, rfl⟩
  · have touched :=
      observe_touchPeer notify.source node fromPeer env.frame.call.now 0
    rcases Prod.mk.inj touched with ⟨key, lookups⟩
    simp only [Node.receive, if_neg notLong, parsed, Node.handlePathNotify, key]
    by_cases addressee : notify.source = node.pubKey
    · rw [if_pos addressee, onwards_of_addressee addressee.symm]
      exact ⟨rfl, fun goes => absurd rfl goes⟩
    · rw [if_neg addressee, onwards_of_other (Ne.symm addressee),
        sendTowards_eq, lookups]
      exact ⟨rfl, fun _ => touched⟩
  · have touched :=
      observe_touchPeer broken.source node fromPeer env.frame.call.now 0
    rcases Prod.mk.inj touched with ⟨key, lookups⟩
    simp only [Node.receive, if_neg notLong, parsed, Node.handlePathBroken, key]
    by_cases addressee : broken.source = node.pubKey
    · rw [if_pos addressee, onwards_of_addressee addressee.symm]
      exact ⟨rfl, fun goes => absurd rfl goes⟩
    · rw [if_neg addressee, onwards_of_other (Ne.symm addressee),
        sendTowards_eq, lookups]
      exact ⟨rfl, fun _ => touched⟩
  · rcases signed punch parsed with ⟨validKey, verified⟩
    have young := UInt64.not_lt.mpr (fresh punch parsed)
    simp only [Node.receive, if_neg notLong, parsed, Node.handleHolePunch,
      validKey, verified, Bool.not_true, Bool.false_eq_true, if_false,
      if_neg young]
    by_cases addressee : punch.target = node.pubKey
    · rw [if_pos addressee, onwards_of_addressee addressee.symm]
      exact ⟨rfl, fun goes => absurd rfl goes⟩
    · rw [if_neg addressee, onwards_of_other (Ne.symm addressee),
        sendTowards_eq]
      exact ⟨rfl, fun _ => rfl⟩

/-! ## The trail of a reply -/

/-- The next hop of a reply from the router with a given key. -/
def replyHop (nodes : AList fun _ : Bytes 32 => Node P F)
    (dst key : Bytes 32) : Option (Bytes 32) :=
  (nodes.lookup key).bind (onwards dst)

/-- The frame that follows a reply. -/
def replyFollow (nodes : AList fun _ : Bytes 32 => Node P F)
    (dst : Bytes 32) (encoded : List UInt8) (letter : RouterLetter) :
    Option RouterLetter :=
  (replyHop nodes dst letter.target).map fun next =>
    ⟨letter.target, next, encoded⟩

/-- All routers send replies to one addressee as they did at the start. -/
def SameWays (dst : Bytes 32)
    (nodes current : AList fun _ : Bytes 32 => Node P F) : Prop :=
  ∀ key,
    (current.lookup key).map (observe dst) =
      (nodes.lookup key).map (observe dst)

section Trail

variable {nodes current : AList fun _ : Bytes 32 => Node P F}
variable {dst : Bytes 32} {frame encoded : List UInt8}

theorem SameWays.replyHop_eq (same : SameWays dst nodes current)
    (key : Bytes 32) :
    replyHop nodes dst key = (current.lookup key).bind (onwards dst) := by
  have seen := same key
  unfold replyHop
  cases now : current.lookup key with
  | none =>
    rw [now, Option.map_none] at seen
    rw [Option.map_eq_none_iff.mp seen.symm]
  | some node =>
    rw [now, Option.map_some] at seen
    rcases Option.map_eq_some_iff.mp seen.symm with ⟨original, before, alike⟩
    rw [before]
    exact onwards_eq_of_observe alike

theorem SameWays.insert (same : SameWays dst nodes current) {key : Bytes 32}
    {node next : Node P F}
    (present : current.lookup key = some node)
    (alike : observe dst next = observe dst node) :
    SameWays dst nodes (current.insert key next) := by
  intro other
  by_cases equal : other = key
  · rw [equal, AList.lookup_insert, ← same key, present]
    simp only [Option.map_some, alike]
  · rw [AList.lookup_insert_ne equal, same other]

/-- A signed reply is passed on as it is, along ways the tables fix. -/
theorem reply_relays (short : frame.length ≤ maxFrameLength)
    (reply : replyTo frame = some (dst, encoded))
    (signed : Signed P frame) :
    Mesh.Relays (Node.receive : React _ (Node P F) _ (RelayEnv P F))
      (fun env _ letter => Fresh letter.frame env)
      (fun letter => SameReply P F dst encoded frame letter.frame)
      (SameWays dst nodes) (replyFollow nodes dst encoded) where
  closed := by
    intro letter next _ followed
    rcases Option.map_eq_some_iff.mp followed with ⟨peer, _, rfl⟩
    exact sameReply_encoded short reply
  absent := by
    intro current letter same missing
    simp only [replyFollow, same.replyHop_eq, missing, Option.bind_none,
      Option.map_none]
  answers := by
    intro current letter node env same carried present fresh
    have received :=
      (receive_reply carried.short carried.reply (carried.signed signed) fresh
        node letter.source).1
    simp only [Mesh.replies, received, replyFollow, same.replyHop_eq, present,
      Option.bind_some]
    cases onwards dst node <;> rfl
  keeps := by
    intro current letter node env same carried present fresh moving
    have goesOn : onwards dst node ≠ none := by
      intro stops
      apply moving
      simp only [replyFollow, same.replyHop_eq, present, Option.bind_some,
        stops, Option.map_none]
    exact same.insert present
      ((receive_reply carried.short carried.reply (carried.signed signed)
        fresh node letter.source).2 goesOn)

theorem trail_replyFollow (first : RouterLetter) (steps : Nat) :
    (trail (replyFollow nodes dst encoded) first steps).map Letter.target =
      trail (replyHop nodes dst) first.target steps := by
  apply map_trail
  intro letter
  unfold replyFollow
  cases replyHop nodes dst letter.target <;> rfl

theorem trail_replyFollow_ne_none (first : RouterLetter) (steps : Nat) :
    trail (replyFollow nodes dst encoded) first steps ≠ none ↔
      trail (replyHop nodes dst) first.target steps ≠ none := by
  rw [← trail_replyFollow, ne_eq, ne_eq, Option.map_eq_none_iff]

theorem mem_keys_of_replyHop {key : Bytes 32}
    (goesOn : replyHop nodes dst key ≠ none) :
    key ∈ nodes.keys.toFinset := by
  rw [List.mem_toFinset, ← AList.mem_keys, ← AList.lookup_isSome]
  cases present : nodes.lookup key with
  | none =>
    simp only [replyHop, present, Option.bind_none] at goesOn
    exact absurd rfl goesOn
  | some node => rfl

end Trail

/-- Nobody replaces a router, and hole punches are fresh on arrival. -/
def FixedTables (mesh : RouterMesh P F) (action : RelayAction P F) :
    Prop :=
  Mesh.Untouched action ∧
    Mesh.Meets (fun env _ letter => Fresh letter.frame env) mesh action

/-- The frames sent with fixed tables are bounded in number. -/
def TransmissionsBounded (start : RouterMesh P F) : Prop :=
  ∃ bound, ∀ actions,
    Along meshStep FixedTables start actions →
      (run meshStep start actions).sent.length ≤ bound

section Bound

variable {start : RouterMesh P F} {letter : RouterLetter}
variable {dst : Bytes 32} {encoded : List UInt8}

theorem reply_underway (short : letter.frame.length ≤ maxFrameLength)
    (reply : replyTo letter.frame = some (dst, encoded))
    (alone : start.flight = [letter]) (unhandled : start.handled = []) :
    Mesh.Underway
      (fun other : RouterLetter =>
        SameReply P F dst encoded letter.frame other.frame)
      (SameWays dst start.nodes) (replyFollow start.nodes dst encoded)
      letter letter start := by
  have begins : Mesh.Begins letter start := ⟨alone, unhandled⟩
  exact begins.underway ⟨short, reply, id, fun _ => id⟩ fun _ => rfl

theorem reply_endless (short : letter.frame.length ≤ maxFrameLength)
    (reply : replyTo letter.frame = some (dst, encoded))
    (signed : Signed P letter.frame) (alone : start.flight = [letter])
    (unhandled : start.handled = []) {env : RelayEnv P F}
    (fresh : Fresh letter.frame env)
    (returns : ¬ NeverReturns (replyHop start.nodes dst) letter.target) :
    ¬ TransmissionsBounded start := by
  rintro ⟨bound, limited⟩
  have endless :
      ∀ steps,
        trail (replyFollow start.nodes dst encoded) letter steps ≠
          none := by
    intro steps
    rw [trail_replyFollow_ne_none]
    exact trail_ne_none_of_return returns steps
  rcases (reply_relays short reply signed).run_deliveries
      (reply_underway short reply alone unhandled) endless
      (fun _ other (carried : SameReply P F dst encoded letter.frame
          other.frame) => carried.fresh env fresh) (bound + 1) with
    ⟨along, _, count⟩
  have few := limited _ along
  change (run (Mesh.step Node.receive) _ _).sent.length ≤ bound at few
  omega

/--
With fixed tables, a path reply or a signed and fresh hole punch is sent on a
bounded number of times exactly if following the answers of `lookup` for its
addressee never leads to a router twice.
-/
theorem reply_transmissions_finite_iff
    (short : letter.frame.length ≤ maxFrameLength)
    (reply : replyTo letter.frame = some (dst, encoded))
    (signed : Signed P letter.frame) (alone : start.flight = [letter])
    (unhandled : start.handled = []) {env : RelayEnv P F}
    (fresh : Fresh letter.frame env) :
    TransmissionsBounded start ↔
      NeverReturns (replyHop start.nodes dst) letter.target := by
  constructor
  · intro bounded
    by_contra returns
    exact reply_endless short reply signed alone unhandled fresh returns bounded
  · intro never
    refine ⟨start.nodes.keys.toFinset.card, ?_⟩
    intro actions along
    have onTrail :=
      (reply_relays short reply signed).onTrail_run
        (.underway letter (reply_underway short reply alone unhandled))
        along
    have reached := (trail_replyFollow_ne_none letter _).mp onTrail.reached
    exact steps_le_card_of_neverReturns (fun _ => mem_keys_of_replyHop)
      never reached

end Bound

/-! ## Two routers -/

/-- Two routers that have only each other, with a frame at the first. -/
def samplePair (frame : List UInt8) :
    RouterMesh Primitives.transparent sampleFloats where
  nodes :=
    ((∅ : AList fun _ : Bytes 32 =>
        Node Primitives.transparent sampleFloats).insert (sampleKey 1)
      (sampleLeaf 1 2 false)).insert (sampleKey 2) (sampleLeaf 2 1 false)
  flight := [⟨sampleKey 5, sampleKey 1, frame⟩]
  handled := []

/-- A path reply for a given router. -/
def sampleNotify (byte : UInt8) : PathNotify where
  target := sampleKey 7
  source := sampleKey byte
  id := 0
  path := []

/-- A notice of a broken path for a given router. -/
def sampleBroken (byte : UInt8) : PathBroken where
  target := sampleKey 7
  source := sampleKey byte
  id := 0

theorem notPunch_of_head {frame : List UInt8}
    (other : frame.head? ≠ some holePunchType) (punch : HolePunch) :
    parseFrame frame ≠ some (.holePunch punch) :=
  fun parsed => other (head_of_parseFrame parsed)

theorem samplePair_returns (frame : List UInt8) :
    ¬ NeverReturns (replyHop (samplePair frame).nodes (sampleKey 9))
      (sampleKey 1) := by
  intro never
  have back :
      trail (replyHop (samplePair []).nodes (sampleKey 9)) (sampleKey 1) 2 =
        some (sampleKey 1) := by
    decide +kernel
  exact never 0 2 (by decide) (Option.some_ne_none _) back.symm

/--
Path replies for a router that neither of the two knows go to and fro without
end.
-/
theorem path_replies_circulate :
    ¬ TransmissionsBounded (samplePair (sampleNotify 9).encode) ∧
      ¬ TransmissionsBounded (samplePair (sampleBroken 9).encode) := by
  have circulates (frame encoded : List UInt8)
      (short : frame.length ≤ maxFrameLength)
      (reply : replyTo frame = some (sampleKey 9, encoded))
      (other : frame.head? ≠ some holePunchType) :
      ¬ TransmissionsBounded (samplePair frame) :=
    @reply_endless _ _ (samplePair frame)
      ⟨sampleKey 5, sampleKey 1, frame⟩ (sampleKey 9) encoded short reply
      (signed_of_notPunch (notPunch_of_head other)) rfl rfl sampleRelayEnv
      (fresh_of_notPunch (notPunch_of_head other) _) (samplePair_returns frame)
  exact
    ⟨circulates _ (sampleNotify 9).encode (by decide +kernel)
      (by decide +kernel) (by decide),
    circulates _ (sampleBroken 9).encode (by decide +kernel)
      (by decide +kernel) (by decide)⟩

/-- A path reply for the second router ends there. -/
theorem reply_transmissions_finite_addressee :
    TransmissionsBounded (samplePair (sampleNotify 2).encode) := by
  have notPunch :=
    @notPunch_of_head (sampleNotify 2).encode (by decide)
  apply (@reply_transmissions_finite_iff _ _
    (samplePair (sampleNotify 2).encode)
    ⟨sampleKey 5, sampleKey 1, (sampleNotify 2).encode⟩ (sampleKey 2)
    (sampleNotify 2).encode (by decide +kernel) (by decide +kernel)
    (signed_of_notPunch notPunch) rfl rfl sampleRelayEnv
    (fresh_of_notPunch notPunch _)).mpr
  by_contra returns
  apply trail_ne_none_of_return returns 2
  decide +kernel

end Norn.Router
