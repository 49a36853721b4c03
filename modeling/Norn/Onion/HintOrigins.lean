import Norn.Onion.Suppression

/-!
# Where negative hints go

A router that cannot forward a frame tells the peer it has the frame from
that it has no way to the tag.  A hint that arrives is passed on, and the
router picks the receiver from its tables: any peer that claims the tag,
whoever has sent frames for it before.

One router takes frames from its peers while everything else about it may
change at any time.  Two records accompany it: the tags towards which its
peers gave it frames to forward, and the hints that it sent.
-/

namespace Norn.Onion

open Foundation Foundation.Run Packet Router Sphinx RouterState

variable {P : Primitives} {F : Floats}

/-- The peer and the tag of a PathNegative. -/
def hintOf (sent : Bytes 32 × List UInt8) : Option (Bytes 32 × Bytes 16) :=
  match parseFrame sent.2 with
  | some (.pathNegative negative) => some (sent.1, negative.routingTag)
  | _ => none

/-- The hints among the frames that are sent. -/
def hintsIn (outgoing : Outgoing) : List (Bytes 32 × Bytes 16) :=
  outgoing.filterMap hintOf

/-- The hint that an event of the traffic handler is. -/
def hintOfEvent : Event → Option (Bytes 32 × Bytes 16)
  | .pathNegative peer routingTag _ => some (peer, routingTag)
  | .handshake _ _ _ => none
  | .delivered _ _ => none
  | .sent _ _ => none

theorem hintOf_of_head {frame : List UInt8}
    (other : frame.head? ≠ some pathNegativeType) (peer : Bytes 32) :
    hintOf (peer, frame) = none := by
  unfold hintOf
  split
  · case h_1 negative parsed =>
      exact absurd (head_of_parseFrame parsed) other
  · rfl

theorem hintOf_outgoing (event : Event) :
    event.outgoing.bind hintOf = hintOfEvent event := by
  cases event with
  | handshake remote cell signed => rfl
  | delivered cell packet => rfl
  | sent peer traffic =>
    apply hintOf_of_head
    simp only [Traffic.encode, List.head?_cons]
    decide
  | pathNegative peer routingTag ttl =>
    simp only [Event.outgoing, Option.bind_some, hintOf,
      parseFrame_pathNegative, hintOfEvent]

theorem hintsIn_outgoing (events : List Event) :
    hintsIn (events.filterMap Event.outgoing) =
      events.filterMap hintOfEvent := by
  unfold hintsIn
  rw [List.filterMap_filterMap]
  exact List.filterMap_congr fun event _ => hintOf_outgoing event

theorem hints_sendPathNegative {toPeer : Bytes 32} {tag : Bytes 16}
    {ttl : UInt8} {hint : Bytes 32 × Bytes 16}
    (sent :
      hint ∈ hintsIn
        ((sendPathNegative toPeer tag ttl).filterMap Event.outgoing)) :
    hint = (toPeer, tag) := by
  rw [hintsIn_outgoing] at sent
  unfold sendPathNegative at sent
  split_ifs at sent
  · cases sent
  · exact List.mem_singleton.mp sent

/-! ## Hints of the handlers -/

section Handlers

variable {fromPeer : Bytes 32} {hint : Bytes 32 × Bytes 16} {self : Node P F}
  {env : RelayEnv P F}

theorem hints_handshakeEvent (sessions : Norn.Session.SessionManager P)
    (remote : Bytes 32) (signed : List UInt8) :
    (handshakeEvent sessions remote signed).filterMap hintOfEvent = [] := by
  unfold handshakeEvent
  cases sessions.getSession remote with
  | none => rfl
  | some cell => rfl

theorem hints_sendTrafficTo (self : RouterState P) (env : FrameEnv P)
    (dst : Bytes 32) (payload : List UInt8) :
    (self.sendTrafficTo env dst payload).filterMap hintOfEvent = [] := by
  unfold sendTrafficTo
  simp only
  cases env.routing.lookup dst with
  | none => rfl
  | some nextHop => rfl

theorem hints_handleInitFrame (self : RouterState P) (env : FrameEnv P)
    (raw : List UInt8) :
    (self.handleInitFrame env raw).2.filterMap hintOfEvent = [] := by
  unfold handleInitFrame
  split
  · rfl
  · simp only
    split
    · rfl
    · rw [List.filterMap_append, hints_handshakeEvent, List.nil_append]
      split
      · exact hints_sendTrafficTo _ env _ _
      · rfl

theorem hints_handleAckFrame (self : RouterState P) (env : FrameEnv P)
    (raw : List UInt8) :
    (self.handleAckFrame env raw).2.filterMap hintOfEvent = [] := by
  unfold handleAckFrame
  split
  · rfl
  · simp only
    split
    · rfl
    · exact hints_handshakeEvent _ _ _

theorem hints_handleControl (self : RouterState P) (env : FrameEnv P)
    (payload : List UInt8) :
    (self.handleControl env payload).2.filterMap hintOfEvent = [] := by
  unfold handleControl
  split
  · rfl
  · split_ifs
    · exact hints_handleInitFrame self env _
    · exact hints_handleAckFrame self env _
    · rfl

theorem hints_forward {self : RouterState P} {env : FrameEnv P}
    {traffic : Traffic}
    (sent :
      hint ∈
        hintsIn
          ((self.forward env fromPeer traffic).filterMap Event.outgoing)) :
    hint = (fromPeer, traffic.routingTag) := by
  unfold RouterState.forward at sent
  split at sent
  · exact hints_sendPathNegative sent
  · simp only at sent
    split at sent
    · rw [hintsIn_outgoing] at sent
      cases sent
    · split at sent
      · cases sent
      · exact hints_sendPathNegative sent

theorem hints_handleTraffic {traffic : Traffic}
    (sent : hint ∈ hintsIn (self.handleTraffic env fromPeer traffic).2) :
    traffic.routingTag ≠ routingTag P self.pubKey ∧
      hint = (fromPeer, traffic.routingTag) := by
  simp only [Node.handleTraffic, handleTraffic, pubKey_touchPeer] at sent
  split_ifs at sent with ours control data
  · rw [hintsIn_outgoing, hints_handleControl] at sent
    cases sent
  · rw [outgoing_handleData] at sent
    cases sent
  · cases sent
  · exact ⟨ours, hints_forward sent⟩

theorem hints_handlePathNegative {negative : PathNegative}
    (sent : hint ∈ hintsIn (self.handlePathNegative env fromPeer negative).2) :
    1 < negative.ttl ∧
      self.routing.Claimer negative.routingTag (some fromPeer) hint.1 ∧
        hint.2 = negative.routingTag := by
  simp only [Node.handlePathNegative] at sent
  split_ifs at sent with alive
  · split at sent
    · case h_1 next found =>
        have claimer := RoutingState.claimer_of_lookupByTagExcluding found
        cases hints_sendPathNegative sent
        exact ⟨alive, claimer, rfl⟩
    · cases sent
  · cases sent

theorem hints_sendTowards {dst : Bytes 32} {encoded : List UInt8}
    (other : encoded.head? ≠ some pathNegativeType) :
    hintsIn (self.sendTowards dst encoded) = [] := by
  unfold Node.sendTowards
  split
  · simp only [hintsIn, List.filterMap_cons, hintOf_of_head other,
      List.filterMap_nil]
  · rfl

theorem hints_handlePathNotify (self : Node P F) (env : RelayEnv P F)
    (fromPeer : Bytes 32) (notify : PathNotify) :
    hintsIn (self.handlePathNotify env fromPeer notify).2 = [] := by
  simp only [Node.handlePathNotify]
  split
  · rfl
  · apply hints_sendTowards
    simp only [PathNotify.encode, List.head?_cons]
    decide

theorem hints_handlePathBroken (self : Node P F) (env : RelayEnv P F)
    (fromPeer : Bytes 32) (broken : PathBroken) :
    hintsIn (self.handlePathBroken env fromPeer broken).2 = [] := by
  simp only [Node.handlePathBroken]
  split
  · rfl
  · apply hints_sendTowards
    simp only [PathBroken.encode, List.head?_cons]
    decide

theorem hints_handleHolePunch (self : Node P F) (env : RelayEnv P F)
    (punch : HolePunch) :
    hintsIn (self.handleHolePunch env punch).2 = [] := by
  unfold Node.handleHolePunch
  split_ifs
  · rfl
  · rfl
  · rfl
  · rfl
  · apply hints_sendTowards
    simp only [HolePunch.encode, List.head?_cons]
    decide

theorem hints_forwardCell {tag : Bytes 16} {encoded : List UInt8}
    (other : encoded.head? ≠ some pathNegativeType)
    (sent : hint ∈ hintsIn (self.forwardCell env fromPeer tag encoded)) :
    hint = (fromPeer, tag) := by
  unfold Node.forwardCell at sent
  split at sent
  · simp only [hintsIn, List.filterMap_cons, hintOf_of_head other,
      List.filterMap_nil] at sent
    cases sent
  · exact hints_sendPathNegative sent

end Handlers

/-- The frame that `dispatch` gets from `read_frame`. -/
def readFrame (frame : List UInt8) : Option RelayFrame :=
  if maxFrameLength < frame.length then none else parseFrame frame

namespace HopNode

variable {self : HopNode P F} {env : RelayEnv P F} {fromPeer : Bytes 32}
  {hint : Bytes 32 × Bytes 16} {S : SphinxCrypto} {frame : List UInt8}

/-- An onion cell that is addressed to this hop. -/
def ownCell (self : HopNode P F) (frame : List UInt8) : Option Cell :=
  match readFrame frame with
  | some (.onion packet) =>
    if packet.routingTag = routingTag P self.node.pubKey then
      some (.onion packet)
    else
      none
  | some (.sphinx tag) =>
    if tag = routingTag P self.node.pubKey then
      some (.sphinx frame)
    else
      none
  | _ => none

/--
`dispatch`, for the frames that are handed on: the cells addressed to this
hop go to `handle_onion` and `handle_sphinx`.
-/
def dispatch (S : SphinxCrypto) (self : HopNode P F)
    (env : RelayEnv P F) (fromPeer : Bytes 32) (frame : List UInt8) :
    HopNode P F × Outgoing :=
  match self.ownCell frame with
  | some cell =>
    let handled := self.handle S env fromPeer cell
    (handled.1, handled.2.2)
  | none =>
    let received := self.node.receive env fromPeer frame
    ({ self with node := received.1 }, received.2)

/-- The tag of a traffic frame that is not for us. -/
def trafficHeading (self : HopNode P F) (traffic : Traffic) :
    Option (Bytes 16) :=
  if traffic.routingTag = routingTag P self.node.pubKey then
    none
  else
    some traffic.routingTag

/-- The tag of the traffic frame in the last layer of a cell. -/
def contentHeading (self : HopNode P F) (content : List UInt8) :
    Option (Bytes 16) :=
  match parseFrame content with
  | some (.traffic traffic) => self.trafficHeading traffic
  | _ => none

/-- The next tag after peeling. -/
def peeledHeading (S : SphinxCrypto) (self : HopNode P F) :
    Cell → Option (Bytes 16)
  | .onion packet =>
    match Onion.peel packet self.onionKeys with
    | .ok (.forward innerBytes) =>
      (OnionPacket.decode innerBytes).toOption.map OnionPacket.routingTag
    | .ok (.deliver trafficBytes) => self.contentHeading trafficBytes
    | .error _ => none
  | .sphinx cell =>
    match processSphinx S cell self.onionKeys.sphinxPrivs with
    | .ok (.forward nextTag _) => some nextTag
    | .ok (.deliver trafficBytes) => self.contentHeading trafficBytes
    | .error _ => none

/--
The tag towards which a frame has to be forwarded: its own, or the next one
after peeling.  Cells that were seen before need not be forwarded.
-/
def heading (S : SphinxCrypto) (self : HopNode P F)
    (frame : List UInt8) : Option (Bytes 16) :=
  match self.ownCell frame with
  | some cell =>
    if self.replays S cell then none else self.peeledHeading S cell
  | none =>
    match readFrame frame with
    | some (.traffic traffic) => self.trafficHeading traffic
    | some (.onion packet) => some packet.routingTag
    | some (.sphinx tag) => some tag
    | _ => none

/-! ## Hints of a router with its onion keys -/

theorem hints_deliver {content : List UInt8}
    (sent : hint ∈ hintsIn (self.deliver env fromPeer content).2.2) :
    ∃ tag, self.contentHeading content = some tag ∧ hint = (fromPeer, tag) := by
  cases content with
  | nil => cases sent
  | cons ptype data =>
    simp only [deliver] at sent
    split_ifs at sent with typed
    · cases decoded : Traffic.decode data with
      | error failure =>
        simp only [decoded] at sent
        cases sent
      | ok traffic =>
        simp only [decoded] at sent
        rcases hints_handleTraffic sent with ⟨transit, same⟩
        refine ⟨traffic.routingTag, ?_, same⟩
        simp only [contentHeading, parseFrame, if_pos typed, decoded,
          Except.toOption, Option.map_some, trafficHeading,
          if_neg transit]
    · cases sent

theorem head_encode_onion (packet : OnionPacket) :
    packet.encode.head? ≠ some pathNegativeType := by
  simp only [OnionPacket.encode, OnionPacket.encodeUnpadded, List.cons_append,
    List.head?_cons]
  decide

theorem head_of_sphinx_peel {secret : Bytes 32} {beta : Bytes betaLen}
    {payload : Bytes payloadLen} {nextTag : Bytes 16} {next : List UInt8}
    (peeled : Sphinx.peel S secret beta payload = .ok (.forward nextTag next)) :
    next.head? ≠ some pathNegativeType := by
  simp only [Sphinx.peel, Sphinx.deliver] at peeled
  split_ifs at peeled
  · cases peeled
  · cases peeled
    simp only [encodeCell, List.head?_cons]
    decide

theorem head_of_processSphinx {cell : List UInt8}
    {onionPrivs : List P.StaticSecret} {nextTag : Bytes 16} {next : List UInt8}
    (peeled : processSphinx S cell onionPrivs = .ok (.forward nextTag next)) :
    next.head? ≠ some pathNegativeType := by
  simp only [processSphinx] at peeled
  split_ifs at peeled
  · split at peeled
    · cases peeled
    · exact head_of_sphinx_peel peeled

theorem hints_process {cell : Cell}
    (sent : hint ∈ hintsIn (self.process S env fromPeer cell).2.2) :
    ∃ tag, self.peeledHeading S cell = some tag ∧ hint = (fromPeer, tag) := by
  cases cell with
  | onion packet =>
    simp only [process, processOnion] at sent
    simp only [peeledHeading]
    cases peeled : Onion.peel packet self.onionKeys with
    | error failure =>
      simp only [peeled] at sent
      cases sent
    | ok content =>
      cases content with
      | forward innerBytes =>
        simp only [peeled] at sent
        cases decoded : OnionPacket.decode innerBytes with
        | error failure =>
          simp only [decoded] at sent
          cases sent
        | ok inner =>
          simp only [decoded] at sent
          refine ⟨inner.routingTag, ?_, hints_forwardCell
            (head_encode_onion inner) sent⟩
          simp only [decoded, Except.toOption, Option.map_some]
      | deliver trafficBytes =>
        simp only [peeled] at sent
        exact hints_deliver sent
  | sphinx cell =>
    simp only [process, processCell] at sent
    simp only [peeledHeading]
    cases peeled : processSphinx S cell self.onionKeys.sphinxPrivs with
    | error failure =>
      simp only [peeled] at sent
      cases sent
    | ok content =>
      cases content with
      | forward nextTag next =>
        simp only [peeled] at sent
        exact ⟨nextTag, rfl, hints_forwardCell (head_of_processSphinx peeled)
          sent⟩
      | deliver trafficBytes =>
        simp only [peeled] at sent
        exact hints_deliver sent

theorem peeledHeading_checked (S : SphinxCrypto) (self : HopNode P F)
    (env : RelayEnv P F) (fromPeer : Bytes 32) (cell : Cell) :
    (self.checked S env fromPeer cell).peeledHeading S cell =
      self.peeledHeading S cell := by
  have same : (self.checked S env fromPeer cell).node.pubKey =
      self.node.pubKey :=
    pubKey_touchPeer self.node.router fromPeer env.frame.call.now 0
  cases cell with
  | onion packet =>
    simp only [peeledHeading, contentHeading, trafficHeading, same]
    rfl
  | sphinx cell =>
    simp only [peeledHeading, contentHeading, trafficHeading, same]
    rfl

theorem hints_handle {cell : Cell}
    (sent : hint ∈ hintsIn (self.handle S env fromPeer cell).2.2) :
    self.replays S cell = false ∧
      ∃ tag, self.peeledHeading S cell = some tag ∧ hint = (fromPeer, tag) := by
  rw [handle_eq] at sent
  split at sent
  · cases sent
  · case isFalse fresh =>
      have peeled := hints_process sent
      rw [peeledHeading_checked] at peeled
      exact ⟨Bool.eq_false_iff.mpr fresh, peeled⟩

theorem hints_handleCell {self : Node P F} {tag : Bytes 16}
    {received encoded : List UInt8} (transit : tag ≠ routingTag P self.pubKey)
    (other : encoded.head? ≠ some pathNegativeType)
    (sent :
      hint ∈ hintsIn (self.handleCell env fromPeer tag received encoded).2) :
    hint = (fromPeer, tag) := by
  simp only [Node.handleCell, if_neg transit] at sent
  exact hints_forwardCell other sent

/-- A hint that is sent in response to a frame. -/
inductive HintOrigin (S : SphinxCrypto) (self : HopNode P F)
    (fromPeer : Bytes 32) (frame : List UInt8) :
    Bytes 32 × Bytes 16 → Prop
  /-- The frame had to be forwarded, and its sender is told. -/
  | answer (tag : Bytes 16) (heading : self.heading S frame = some tag) :
      HintOrigin S self fromPeer frame (fromPeer, tag)
  /-- The frame is a hint, and a peer that claims the tag is told. -/
  | passedOn (negative : PathNegative) (next : Bytes 32)
      (parsed : parseFrame frame = some (.pathNegative negative))
      (alive : 1 < negative.ttl)
      (claimer :
        self.node.routing.Claimer negative.routingTag (some fromPeer) next) :
      HintOrigin S self fromPeer frame (next, negative.routingTag)

theorem transit_of_ownCell (own : self.ownCell frame = none) :
    (∀ packet, readFrame frame = some (.onion packet) →
        packet.routingTag ≠ routingTag P self.node.pubKey) ∧
      ∀ tag, readFrame frame = some (.sphinx tag) →
        tag ≠ routingTag P self.node.pubKey := by
  constructor
  · intro packet found ours
    simp only [ownCell, found, if_pos ours] at own
    cases own
  · intro tag found ours
    simp only [ownCell, found, if_pos ours] at own
    cases own

/-- Every hint of a hop answers the frame it received. -/
theorem hintOrigin_receive (own : self.ownCell frame = none)
    (sent : hint ∈ hintsIn (self.node.receive env fromPeer frame).2) :
    HintOrigin S self fromPeer frame hint := by
  unfold Node.receive at sent
  by_cases long : maxFrameLength < frame.length
  · rw [if_pos long] at sent
    cases sent
  · rw [if_neg long] at sent
    cases parsed : parseFrame frame with
    | none =>
      simp only [parsed] at sent
      cases sent
    | some relayed =>
      have found : readFrame frame = some relayed := (if_neg long).trans parsed
      cases relayed with
      | traffic traffic =>
        simp only [parsed] at sent
        rcases hints_handleTraffic sent with ⟨transit, rfl⟩
        apply HintOrigin.answer
        simp only [heading, own, found, trafficHeading, if_neg transit]
      | pathNegative negative =>
        simp only [parsed] at sent
        rcases hint with ⟨next, tag⟩
        rcases hints_handlePathNegative sent with ⟨alive, claimer, rfl⟩
        exact .passedOn negative next parsed alive claimer
      | pathNotify notify =>
        simp only [parsed, hints_handlePathNotify] at sent
        cases sent
      | pathBroken broken =>
        simp only [parsed, hints_handlePathBroken] at sent
        cases sent
      | holePunch punch =>
        simp only [parsed, hints_handleHolePunch] at sent
        cases sent
      | onion packet =>
        simp only [parsed] at sent
        have transit := (transit_of_ownCell own).1 packet found
        cases hints_handleCell transit (head_encode_onion packet) sent
        apply HintOrigin.answer
        simp only [heading, own, found]
      | sphinx tag =>
        simp only [parsed] at sent
        have transit := (transit_of_ownCell own).2 tag found
        have other : frame.head? ≠ some pathNegativeType := by
          rw [head_of_parseFrame parsed, RelayFrame.typeByte]
          decide
        cases hints_handleCell transit other sent
        apply HintOrigin.answer
        simp only [heading, own, found]

theorem hintOrigin_dispatch
    (sent : hint ∈ hintsIn (self.dispatch S env fromPeer frame).2) :
    HintOrigin S self fromPeer frame hint := by
  unfold dispatch at sent
  cases own : self.ownCell frame with
  | some cell =>
    simp only [own] at sent
    rcases hints_handle sent with ⟨fresh, tag, peeled, rfl⟩
    apply HintOrigin.answer
    simp only [heading, own, fresh]
    exact peeled
  | none =>
    simp only [own] at sent
    exact hintOrigin_receive own sent

end HopNode

/-- What happens at a router. -/
inductive HopAction (P : Primitives) (F : Floats) where
  /-- A peer hands it a frame. -/
  | receive (env : RelayEnv P F) (fromPeer : Bytes 32) (frame : List UInt8)
  /-- Anything else changes its state. -/
  | change (hop : HopNode P F)

/-- A router with the records of what it was given and what it sent. -/
structure HintingHop (P : Primitives) (F : Floats) where
  hop : HopNode P F
  /-- Who handed it a frame that had to be forwarded towards which tag. -/
  handed : List (Bytes 32 × Bytes 16)
  /-- Whom it sent a PathNegative about which tag. -/
  hints : List (Bytes 32 × Bytes 16)

namespace HintingHop

/-- A router that has been given nothing and has sent nothing. -/
def start (hop : HopNode P F) : HintingHop P F where
  hop
  handed := []
  hints := []

/-- One step. -/
def step (S : SphinxCrypto) (state : HintingHop P F) :
    HopAction P F → HintingHop P F
  | .receive env fromPeer frame =>
    let dispatched := state.hop.dispatch S env fromPeer frame
    { hop := dispatched.1
      handed :=
        state.handed ++
          ((state.hop.heading S frame).map (Prod.mk fromPeer)).toList
      hints := state.hints ++ hintsIn dispatched.2 }
  | .change hop => { state with hop }

/--
A hint that is passed on finds no peer which claims its tag, except those
that have handed the router a frame for the tag.
-/
def Upstream (state : HintingHop P F) : HopAction P F → Prop
  | .receive _ fromPeer frame =>
    ∀ negative, parseFrame frame = some (.pathNegative negative) →
      1 < negative.ttl →
        ∀ peer,
          state.hop.node.routing.Claimer negative.routingTag
              (some fromPeer) peer →
            (peer, negative.routingTag) ∈ state.handed
  | .change _ => True

/-- Every hint went to a peer that was owed one. -/
def Answers (state : HintingHop P F) : Prop :=
  ∀ hint ∈ state.hints, hint ∈ state.handed

variable {S : SphinxCrypto}

/-- Every hint of a step goes to a peer that was owed one. -/
theorem answers_step {state : HintingHop P F} {action : HopAction P F}
    (upstream : state.Upstream action) (answers : state.Answers) :
    (state.step S action).Answers := by
  cases action with
  | change hop => exact answers
  | receive env fromPeer frame =>
    intro hint sent
    simp only [step, List.mem_append] at sent
    simp only [step, List.mem_append]
    rcases sent with before | now
    · exact Or.inl (answers hint before)
    · cases HopNode.hintOrigin_dispatch now with
      | answer tag heading =>
        right
        simp only [heading, Option.map_some, Option.toList_some,
          List.mem_singleton]
      | passedOn negative next parsed alive claimer =>
        exact Or.inl (upstream negative parsed alive next claimer)

end HintingHop

/--
In every run in which the hints that arrive find no peer to be passed on to
but those that handed the router a frame for their tag, every hint goes to a
peer that has handed the router a frame for the tag of the hint.
-/
theorem hints_go_upstream (S : SphinxCrypto) (hop : HopNode P F)
    (actions : List (HopAction P F))
    (upstream :
      Along (HintingHop.step S) HintingHop.Upstream
        (HintingHop.start hop) actions) :
    ∀ hint ∈ (run (HintingHop.step S) (HintingHop.start hop) actions).hints,
      hint ∈ (run (HintingHop.step S) (HintingHop.start hop)
        actions).handed := by
  have preserves :
      ∀ (state : HintingHop P F) (action : HopAction P F),
        state.Answers → state.Upstream action →
          (state.step S action).Answers := by
    intro state action answers allowed
    exact HintingHop.answers_step allowed answers
  have initial : (HintingHop.start hop).Answers := by
    intro hint sent
    cases sent
  exact invariant_run preserves initial upstream

theorem peersBetween_nodup : ([2, 3].map sampleKey).Nodup := by
  decide

/-- A router with two peers that both claim every tag. -/
def betweenPeers : HopNode Primitives.transparent sampleFloats :=
  { sampleHop (RecentKeys.empty onionReplayCacheSize_pos) with
    node := sampleRouterNode 1 [2, 3] true peersBetween_nodup }

/-- One of the peers hands the router a frame that is too old. -/
def oldTraffic : HopAction Primitives.transparent sampleFloats :=
  .receive sampleRelayEnv (sampleKey 3)
    (Traffic.encode { sampleTraffic with watermark := 64 })

/-- The other peer sends a hint about the tag of that frame. -/
def hintFromPeer : HopAction Primitives.transparent sampleFloats :=
  .receive sampleRelayEnv (sampleKey 2)
    (PathNegative.encode
      { routingTag := sampleTraffic.routingTag, ttl := 4 })

/-- The hint goes to the peer that had handed the router the frame. -/
theorem hint_after_traffic_goes_upstream :
    (run (HintingHop.step sampleSphinxCrypto)
        (HintingHop.start betweenPeers) [oldTraffic, hintFromPeer]).hints =
        [(sampleKey 3, sampleTraffic.routingTag),
          (sampleKey 3, sampleTraffic.routingTag)] ∧
      ∀ hint ∈ (run (HintingHop.step sampleSphinxCrypto)
          (HintingHop.start betweenPeers)
          [oldTraffic, hintFromPeer]).hints,
        hint ∈ (run (HintingHop.step sampleSphinxCrypto)
          (HintingHop.start betweenPeers)
          [oldTraffic, hintFromPeer]).handed := by
  constructor
  · decide +kernel
  · apply hints_go_upstream
    refine ⟨?_, ?_, trivial⟩
    · intro negative parsed
      have typed := head_of_parseFrame parsed
      simp only [Traffic.encode, List.head?_cons, RelayFrame.typeByte] at typed
      exact absurd typed (by decide)
    · intro negative parsed alive peer claimer
      rw [parseFrame_pathNegative] at parsed
      cases parsed
      rcases claimer with ⟨content, member, different, _⟩
      have keys :
          ((HintingHop.start betweenPeers).step sampleSphinxCrypto
            oldTraffic).hop.node.routing.peers.entries.map Prod.fst =
            [sampleKey 2, sampleKey 3] := by
        decide +kernel
      have found := List.mem_map_of_mem (f := Prod.fst) member
      rw [keys] at found
      simp only [List.mem_cons, List.not_mem_nil, or_false] at found
      rcases found with rfl | rfl
      · exact absurd rfl different
      · decide +kernel

/-- Without it the hint goes to a peer that had handed over nothing. -/
theorem hint_goes_downstream :
    (run (HintingHop.step sampleSphinxCrypto)
        (HintingHop.start betweenPeers) [hintFromPeer]).hints =
        [(sampleKey 3, sampleTraffic.routingTag)] ∧
      (run (HintingHop.step sampleSphinxCrypto)
        (HintingHop.start betweenPeers) [hintFromPeer]).handed = [] := by
  constructor
  · decide +kernel
  · decide +kernel

end Norn.Onion
