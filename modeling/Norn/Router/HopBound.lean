import Norn.Foundation.Mesh
import Norn.Router.Relay

/-!
# Traffic does not circulate

A mesh of routers that exchange frames as `Node.receive` handles them.  What
the tables of a router hold, and how they change between two frames, is
unrestricted, so routers may disagree in every way and send a frame round in
circles.

A data frame carries a counter of its hops, and a router that drops it for
want of a route tells the previous hop, with a counter of its own.  The two
counters pay for everything the frame gives rise to.
-/

namespace Norn.Router

open Foundation Foundation.Run Packet

variable {P : Primitives} {F : Floats}

variable {letter reply : RouterLetter}

/-- Routers and the frames between them. -/
abbrev RouterMesh (P : Primitives) (F : Floats) :=
  Mesh (Bytes 32) (Node P F) (List UInt8)

/-- A frame between two routers. -/
abbrev RouterLetter := Letter (Bytes 32) (List UInt8)

/-- What can happen between routers. -/
abbrev RelayAction (P : Primitives) (F : Floats) :=
  MeshAction (Bytes 32) (Node P F) (RelayEnv P F)

/-- One step of a mesh of routers. -/
abbrev meshStep : RouterMesh P F → RelayAction P F → RouterMesh P F :=
  Mesh.step Node.receive

/-- The responses to a data frame. -/
inductive TrafficResponse (self : Node P F) (fromPeer : Bytes 32)
    (traffic : Traffic) : Outgoing → Prop
  /-- The frame was for us, or it was dropped silently. -/
  | nothing : TrafficResponse self fromPeer traffic []
  /-- The frame was dropped, and the previous hop is told. -/
  | negative :
      TrafficResponse self fromPeer traffic
        [(fromPeer,
          PathNegative.encode
            { routingTag := traffic.routingTag
              ttl := pathNegInitialTtl })]
  /-- The frame goes on, one hop older. -/
  | forward (nextHop : Bytes 32) (young : traffic.watermark < maxForwardHops) :
      TrafficResponse self fromPeer traffic
        [(nextHop,
          Traffic.encode
            { traffic with
              watermark := traffic.watermark + 1
              fromPeer := self.pubKey })]

theorem outgoing_push (self : RouterState P) (cell : Nat)
    (packet : InboundPacket) :
    (self.push cell packet).2.filterMap Event.outgoing = [] := by
  unfold RouterState.push
  split_ifs <;> rfl

theorem outgoing_handleData (self : RouterState P) (env : FrameEnv P)
    (traffic : Traffic) :
    (self.handleData env traffic).2.filterMap Event.outgoing = [] := by
  unfold RouterState.handleData
  split
  · rfl
  · split
    · rfl
    · split
      · rfl
      · split
        split
        · rfl
        · split
          · rfl
          · exact outgoing_push _ _ _

theorem saturatingSucc_of_lt {word : UInt64}
    (young : word < maxForwardHops) : saturatingSucc word = word + 1 := by
  apply if_neg
  rintro rfl
  exact absurd young (by decide)

@[simp]
theorem pubKey_touchPeer (self : RouterState P) (fromPeer : Bytes 32)
    (now : Norn.Session.Instant) (bytes : Nat) :
    (self.touchPeer fromPeer now bytes).pubKey = self.pubKey := by
  simp only [RouterState.pubKey, RouterState.sessions_touchPeer]

theorem trafficResponse_handleTraffic (self : Node P F)
    (env : RelayEnv P F) (fromPeer : Bytes 32) {traffic : Traffic}
    (data : traffic.pktType = pktData) :
    TrafficResponse self fromPeer traffic
      (self.handleTraffic env fromPeer traffic).2 := by
  simp only [Node.handleTraffic, RouterState.handleTraffic]
  split_ifs with ours control
  · rw [data] at control
    exact absurd control (by decide)
  · rw [outgoing_handleData]
    exact .nothing
  · simp only [RouterState.forward]
    by_cases old : maxForwardHops ≤ traffic.watermark
    · rw [if_pos old]
      exact .negative
    · have young := UInt64.not_le.mp old
      rw [if_neg old]
      split
      · rw [saturatingSucc_of_lt young, pubKey_touchPeer]
        exact .forward _ young
      · split_ifs
        · exact .nothing
        · exact .negative

theorem handlePathNegative_cases (self : Node P F) (env : RelayEnv P F)
    (fromPeer : Bytes 32) (negative : PathNegative) :
    (self.handlePathNegative env fromPeer negative).2 = [] ∨
      1 < negative.ttl ∧
        ∃ next,
          (self.handlePathNegative env fromPeer negative).2 =
            [(next,
              PathNegative.encode
                { routingTag := negative.routingTag
                  ttl := negative.ttl - 1 })] := by
  simp only [Node.handlePathNegative]
  generalize RoutingState.lookupByTagExcluding _ _ _ _ = next
  by_cases alive : 1 < negative.ttl
  · have positive : negative.ttl - 1 ≠ 0 := by
      intro spent
      have value := congrArg UInt8.toNat spent
      have bound := UInt8.lt_iff_toNat_lt.mp alive
      rw [UInt8.toNat_sub_of_le _ _ (UInt8.le_of_lt alive)] at value
      simp only [UInt8.toNat_ofNat] at value bound
      omega
    rw [if_pos alive]
    cases next with
    | none => exact Or.inl rfl
    | some next =>
      refine Or.inr ⟨alive, next, ?_⟩
      simp only [RouterState.sendPathNegative, if_neg positive]
      rfl
  · rw [if_neg alive]
    exact Or.inl rfl

/-- Data frames and negative hints. -/
def DataFamily (letter : RouterLetter) : Prop :=
  match parseFrame letter.frame with
  | some (.traffic traffic) => traffic.pktType = pktData
  | some (.pathNegative _) => True
  | _ => False

/-- How a response of the family relates to the frame it responds to. -/
inductive DataReply (letter reply : RouterLetter) : Prop
  | forwarded (traffic again : Traffic)
      (parsed : parseFrame letter.frame = some (.traffic traffic))
      (young : traffic.watermark < maxForwardHops)
      (parsedAgain : parseFrame reply.frame = some (.traffic again))
      (older : again.watermark = traffic.watermark + 1)
      (data : again.pktType = pktData)
  | refused (traffic : Traffic) (negative : PathNegative)
      (parsed : parseFrame letter.frame = some (.traffic traffic))
      (hint : parseFrame reply.frame = some (.pathNegative negative))
      (initial : negative.ttl = pathNegInitialTtl)
  | passedOn (negative again : PathNegative)
      (parsed : parseFrame letter.frame = some (.pathNegative negative))
      (alive : 1 < negative.ttl)
      (hint : parseFrame reply.frame = some (.pathNegative again))
      (older : again.ttl = negative.ttl - 1)

/-- A data frame or hint is answered by at most one frame of the kind. -/
theorem replies_cases (env : RelayEnv P F) (node : Node P F)
    (family : DataFamily letter) :
    Mesh.replies Node.receive env node letter = [] ∨
      ∃ reply,
        Mesh.replies Node.receive env node letter = [reply] ∧
          DataReply letter reply := by
  unfold Mesh.replies Node.receive
  by_cases long : maxFrameLength < letter.frame.length
  · rw [if_pos long]
    exact Or.inl rfl
  · rw [if_neg long]
    have short := Nat.not_lt.mp long
    unfold DataFamily at family
    cases parsed : parseFrame letter.frame with
    | none =>
      rw [parsed] at family
      exact family.elim
    | some content =>
      rw [parsed] at family
      cases content with
      | traffic traffic =>
        have fits : traffic.Fits := fits_of_parseFrame short parsed
        have response :=
          trafficResponse_handleTraffic node env letter.source family
        simp only
        generalize (node.handleTraffic env letter.source traffic).2 =
          out at response
        cases response with
        | nothing => exact Or.inl rfl
        | negative =>
          exact Or.inr
            ⟨_, rfl, .refused traffic _ parsed (parseFrame_pathNegative _) rfl⟩
        | forward nextHop young =>
          have fitsAgain :
              ({ traffic with
                  watermark := traffic.watermark + 1
                  fromPeer := node.pubKey } : Traffic).Fits := fits
          exact Or.inr ⟨_, rfl,
            .forwarded traffic _ parsed young (parseFrame_traffic fitsAgain) rfl
              family⟩
      | pathNegative negative =>
        cases handlePathNegative_cases node env letter.source negative with
        | inl nothing =>
          simp only [nothing]
          exact Or.inl rfl
        | inr passed =>
          rcases passed with ⟨alive, next, out⟩
          simp only [out]
          exact Or.inr
            ⟨_, rfl, .passedOn negative _ parsed alive
            (parseFrame_pathNegative _) rfl⟩
      | _ => exact family.elim

/-! ## What pays for them -/

/-- One for each traffic frame. -/
def trafficFrames (letter : RouterLetter) : Nat :=
  if letter.frame.head? = some trafficType then 1 else 0

/-- One for each negative hint. -/
def negativeFrames (letter : RouterLetter) : Nat :=
  if letter.frame.head? = some pathNegativeType then 1 else 0

/-- How often a frame can still be sent on. -/
def hopsLeft (letter : RouterLetter) : Nat := match parseFrame letter.frame with
  | some (.traffic traffic) =>
    maxForwardHops.toNat - traffic.watermark.toNat
  | _ => 0

/-- How many negative hints a frame can still give rise to. -/
def hintsLeft (letter : RouterLetter) : Nat :=
  match parseFrame letter.frame with
  | some (.traffic _) => pathNegInitialTtl.toNat
  | some (.pathNegative negative) => negative.ttl.toNat - 1
  | _ => 0

/-- The frame itself, as one token that its copies carry. -/
def trafficToken (letter : RouterLetter) : Nat :=
  match parseFrame letter.frame with
  | some (.traffic _) => 1
  | _ => 0

theorem DataReply.family (response : DataReply letter reply) :
    DataFamily reply := by
  cases response with
  | forwarded traffic again parsed young parsedAgain older data =>
    simpa only [DataFamily, parsedAgain] using data
  | refused traffic negative parsed hint initial =>
    simp only [DataFamily, hint]
  | passedOn negative again parsed alive hint older =>
    simp only [DataFamily, hint]

theorem drains_of_reply {cost weight : RouterLetter → Nat}
    (pays :
      ∀ letter reply, DataReply letter reply →
        cost reply + weight reply ≤ weight letter) :
    Mesh.Drains (Node.receive : React _ (Node P F) _ (RelayEnv P F))
      (fun _ _ _ => True) DataFamily cost weight := by
  apply Mesh.Drains.of_reply
  intro env node letter family _
  rcases replies_cases env node family with none | ⟨reply, all, response⟩
  · exact Or.inl none
  · exact Or.inr ⟨reply, all, response.family, pays letter reply response⟩

theorem toNat_succ_of_lt {word : UInt64} (young : word < maxForwardHops) :
    (word + 1).toNat = word.toNat + 1 := by
  have bound : word.toNat < 32 := UInt64.lt_iff_toNat_lt.mp young
  rw [UInt64.toNat_add]
  simp only [UInt64.toNat_ofNat]
  omega

theorem frames_of_traffic {traffic : Traffic}
    (parsed : parseFrame letter.frame = some (.traffic traffic)) :
    trafficFrames letter = 1 ∧ negativeFrames letter = 0 := by
  have head := head_of_parseFrame parsed
  have other : ¬ some trafficType = some pathNegativeType := by
    decide
  simp only [trafficFrames, negativeFrames, head, RelayFrame.typeByte,
    if_true, if_neg other, and_self]

theorem frames_of_pathNegative {negative : PathNegative}
    (parsed : parseFrame letter.frame = some (.pathNegative negative)) :
    trafficFrames letter = 0 ∧ negativeFrames letter = 1 := by
  have head := head_of_parseFrame parsed
  have other : ¬ some pathNegativeType = some trafficType := by
    decide
  simp only [trafficFrames, negativeFrames, head, RelayFrame.typeByte,
    if_true, if_neg other, and_self]

theorem hopsLeft_pays (response : DataReply letter reply) :
    trafficFrames reply + hopsLeft reply ≤ hopsLeft letter := by
  cases response with
  | forwarded traffic again parsed young parsedAgain older data =>
    have bound := UInt64.lt_iff_toNat_lt.mp young
    simp only [(frames_of_traffic parsedAgain).1, hopsLeft, parsed,
      parsedAgain, older, toNat_succ_of_lt young]
    omega
  | refused traffic negative parsed hint initial =>
    simp only [(frames_of_pathNegative hint).1, hopsLeft, hint]
    omega
  | passedOn negative again parsed alive hint older =>
    simp only [(frames_of_pathNegative hint).1, hopsLeft, hint]
    omega

theorem hintsLeft_pays (response : DataReply letter reply) :
    negativeFrames reply + hintsLeft reply ≤ hintsLeft letter := by
  cases response with
  | forwarded traffic again parsed young parsedAgain older data =>
    simp only [(frames_of_traffic parsedAgain).2, hintsLeft, parsed,
      parsedAgain]
    omega
  | refused traffic negative parsed hint initial =>
    simp only [(frames_of_pathNegative hint).2, hintsLeft, parsed, hint,
      initial]
    decide
  | passedOn negative again parsed alive hint older =>
    have bound := UInt8.lt_iff_toNat_lt.mp alive
    simp only [(frames_of_pathNegative hint).2, hintsLeft, parsed, hint,
      older, UInt8.toNat_sub_of_le _ _ (UInt8.le_of_lt alive)]
    simp only [UInt8.toNat_ofNat] at bound ⊢
    omega

theorem trafficToken_pays (response : DataReply letter reply) :
    0 + trafficToken reply ≤ trafficToken letter := by
  cases response with
  | forwarded traffic again parsed young parsedAgain older data =>
    simp only [trafficToken, parsed, parsedAgain, Nat.zero_add, Nat.le_refl]
  | refused traffic negative parsed hint initial =>
    simp only [trafficToken, hint]
    exact Nat.zero_le _
  | passedOn negative again parsed alive hint older =>
    simp only [trafficToken, hint]
    exact Nat.zero_le _

theorem DataFamily.counted (family : DataFamily letter) :
    trafficFrames letter + negativeFrames letter = 1 := by
  unfold DataFamily at family
  cases parsed : parseFrame letter.frame with
  | none =>
    rw [parsed] at family
    exact family.elim
  | some content =>
    rw [parsed] at family
    cases content with
    | traffic traffic =>
      rw [(frames_of_traffic parsed).1, (frames_of_traffic parsed).2]
    | pathNegative negative =>
      rw [(frames_of_pathNegative parsed).1, (frames_of_pathNegative parsed).2]
    | _ => exact family.elim

theorem total_frames {letters : List RouterLetter}
    (family : ∀ letter ∈ letters, DataFamily letter) :
    Mesh.total trafficFrames letters + Mesh.total negativeFrames letters =
      letters.length := by
  rw [← Mesh.total_add]
  exact Mesh.total_eq_length fun letter member =>
    (family letter member).counted

theorem unrestricted_run (start : RouterMesh P F)
    (actions : List (RelayAction P F)) :
    Along meshStep (Mesh.Meets fun _ _ _ => True) start actions :=
  along_of_forall_mem fun action _ mesh => Mesh.meets_true mesh action

/-- What the frames that one frame causes can amount to. -/
theorem spent_run {start : RouterMesh P F} (begins : Mesh.Begins letter start)
    (family : DataFamily letter) (actions : List (RelayAction P F)) :
    Mesh.total trafficFrames (run meshStep start actions).sent ≤
        hopsLeft letter ∧
      Mesh.total negativeFrames (run meshStep start actions).sent ≤
        hintsLeft letter ∧
      (run meshStep start actions).handled.length +
          (run meshStep start actions).flight.length ≤
        1 + hopsLeft letter + hintsLeft letter := by
  have unrestricted := unrestricted_run start actions
  have drains := drains_of_reply (P := P) (F := F) fun _ _ => hopsLeft_pays
  have hops := drains.cost_le begins family unrestricted
  have hints :=
    (drains_of_reply (P := P) (F := F)
      fun _ _ => hintsLeft_pays).cost_le begins family unrestricted
  have count :=
    @Mesh.Begins.length_run _ _ _ _ _ (Node.receive (P := P) (F := F)) _ _
      begins actions
  have frames :=
    total_frames (drains.total_run (begins.within family) unrestricted).1.2
  unfold meshStep
  omega

/-- What a data frame has caused by the time a mesh has come this far. -/
structure Settles (traffic : Traffic) (mesh : RouterMesh P F) : Prop where
  /-- Routers have sent it on no more often than its counter allows. -/
  forwards :
    Mesh.total trafficFrames mesh.sent ≤
      maxForwardHops.toNat - traffic.watermark.toNat
  /-- Routers have sent few negative hints. -/
  hints : Mesh.total negativeFrames mesh.sent ≤ pathNegInitialTtl.toNat
  /-- It is on its way once, or it was delivered or dropped once. -/
  once :
    Mesh.total trafficToken mesh.flight +
      Mesh.ended trafficToken mesh.handled = 1
  /-- So many frames have been taken off a link or are on one. -/
  letters :
    mesh.handled.length + mesh.flight.length ≤
      1 + (maxForwardHops.toNat - traffic.watermark.toNat) +
        pathNegInitialTtl.toNat
  /-- Nothing is on its way, or the next delivery takes a frame. -/
  progress :
    mesh.flight = [] ∨
      ∀ env : RelayEnv P F,
        (meshStep mesh (.deliver 0 env)).handled.length =
          mesh.handled.length + 1

/--
A data frame that enters a mesh of routers, whatever their tables hold and
however they change, is sent on at most as often as its hop counter allows
and causes at most four negative hints.  Each delivery takes one of finitely
many frames, so the mesh is quiet in the end, and the frame has been
delivered or dropped.
-/
theorem traffic_forwarding_bounded (start : RouterMesh P F)
    {letter : RouterLetter} {traffic : Traffic}
    (parsed : parseFrame letter.frame = some (.traffic traffic))
    (data : traffic.pktType = pktData)
    (alone : start.flight = [letter]) (unhandled : start.handled = [])
    (actions : List (RelayAction P F)) :
    Settles traffic (run meshStep start actions) := by
  have begins : Mesh.Begins letter start := ⟨alone, unhandled⟩
  have family : DataFamily letter := by
    simpa only [DataFamily, parsed] using data
  have spent := spent_run begins family actions
  have token :=
    (drains_of_reply (P := P) (F := F)
      fun _ _ => trafficToken_pays).token_eq begins family
      (unrestricted_run start actions)
  simp only [hopsLeft, hintsLeft, parsed] at spent
  simp only [trafficToken, parsed] at token
  constructor
  · exact spent.1
  · exact spent.2.1
  · exact token
  · exact spent.2.2
  · by_cases quiet : (run meshStep start actions).flight = []
    · exact Or.inl quiet
    · exact Or.inr (Mesh.handled_step_deliver Node.receive quiet)

/-! ## A sample mesh -/

/-- Arithmetic in which all coordinates coincide. -/
def sampleFloats : Floats where
  F64 := Nat
  F32 := Nat
  canonicalCoord := id
  distance := fun _ _ => 0
  less := fun left right => decide (left < right)
  infinity := 1
  score := fun distance _ => distance
  blend := fun localTrust consensus => (localTrust + consensus) / 2
  adjust := fun cost _ => cost
  boostTrust := fun trust => trust

/-- The key of a sample router. -/
def sampleKey (byte : UInt8) : Bytes 32 := Bytes.replicate 32 byte

/-- A peer that claims every tag, or none. -/
def samplePeer (claim : Bool) : PeerData sampleFloats where
  cuckoo := fun _ _ => claim
  effectiveCost := 1
  trust := (1 : Nat)

/--
A router with the given peers, each of which claims every tag or none.
-/
def sampleRouterNode (byte : UInt8) (neighbours : List UInt8) (claim : Bool)
    (distinct : (neighbours.map sampleKey).Nodup) :
    Node Primitives.transparent sampleFloats where
  router :=
    { sessions := Norn.Session.sampleManager byte
      peers := ∅
      coordTable := ∅
      trafficTx := [] }
  routing :=
    { ownCoord := Bytes.replicate 16 0
      peers :=
        { entries :=
            neighbours.map fun neighbour =>
              (sampleKey neighbour, samplePeer claim)
          distinct := by
            rwa [List.map_map] }
      consensusTrust := fun _ => none
      pathNegativeCache := ∅
      pendingProbes := ∅
      tick := 100
      lastTopologyChangeTick := 0 }

/-- A router with a single peer. -/
def sampleLeaf (byte neighbour : UInt8) (claim : Bool) :
    Node Primitives.transparent sampleFloats :=
  sampleRouterNode byte [neighbour] claim (List.nodup_singleton _)

/-- Three routers that each take the other two for the way everywhere. -/
def sampleRing : AList fun _ : Bytes 32 =>
    Node Primitives.transparent sampleFloats :=
  (((∅ : AList fun _ : Bytes 32 =>
          Node Primitives.transparent sampleFloats).insert (sampleKey 1)
        (sampleRouterNode 1 [2, 3] true (by decide))).insert (sampleKey 2)
      (sampleRouterNode 2 [3, 1] true (by decide))).insert (sampleKey 3)
    (sampleRouterNode 3 [1, 2] true (by decide))

/-- Surroundings of a sample router. -/
def sampleRelayEnv : RelayEnv Primitives.transparent sampleFloats where
  frame :=
    { call := Norn.Session.sampleSurroundings 1 2
      epkPriv := Bytes.replicate 32 3
      routing :=
        { canonicalCoord := id
          greedyNextHop := fun _ _ => none
          lookupByTagExcluding := fun _ _ => none
          lookup := fun _ => none
          convergenceActive := false } }
  cacheOrder := ⟨id, List.Perm.refl⟩
  atHop := fun node _ _ => (node, [])

/-- A data frame for nobody in the ring that has come a long way. -/
def sampleTraffic : Traffic where
  path := []
  fromPeer := sampleKey 3
  encHeader := EncHeader.zero
  routingTag := Bytes.replicate 16 9
  pktType := pktData
  destCoord := none
  watermark := 30
  payload := [1, 2, 3]

theorem sampleTraffic_fits : sampleTraffic.Fits := by
  constructor
  · constructor
    · decide
    · simp [sampleTraffic]
  · decide

/-- The ring with one frame on its way from the third to the first router. -/
def sampleMesh (frame : List UInt8) :
    RouterMesh Primitives.transparent sampleFloats where
  nodes := sampleRing
  flight := [⟨sampleKey 3, sampleKey 1, frame⟩]
  handled := []

/-- The frame goes round and stops. -/
theorem traffic_forwarding_bounded_ring :
    Settles sampleTraffic
      (run meshStep (sampleMesh sampleTraffic.encode)
        (List.replicate 8 (.deliver 0 sampleRelayEnv))) :=
  @traffic_forwarding_bounded _ _ (sampleMesh sampleTraffic.encode)
    ⟨sampleKey 3, sampleKey 1, sampleTraffic.encode⟩ sampleTraffic
    (parseFrame_traffic sampleTraffic_fits) rfl rfl rfl _

end Norn.Router
