import Norn.Router.HopBound

/-!
# Onion cells circulate

The forwarding tasks of `dispatch` for onion packets and Sphinx cells ask
`lookup_by_tag_excluding` for a next hop and send the cell there.  The cell
has no hop counter, and a router does not remember the cells it has sent on,
so nothing but the tables ends its way.

Routers whose tables bring a cell strictly nearer, in any measure of
distance, send it on no more often than the distance at which it starts.
In a ring of routers that each know two peers claiming the tag it goes round.
-/

namespace Norn.Router

open Foundation Foundation.Run Packet

variable {P : Primitives} {F : Floats}

variable {frame : List UInt8} {tag : Bytes 16} {letter : RouterLetter}
  {distance : Bytes 32 → Nat}

/-- The tag of an onion packet or a Sphinx cell. -/
def cellTag (frame : List UInt8) : Option (Bytes 16) :=
  match parseFrame frame with
  | some (.onion packet) => some packet.routingTag
  | some (.sphinx tag) => some tag
  | _ => none

/-- What a router sends on: the packet encoded again, or the cell. -/
def reencoded (frame : List UInt8) : List UInt8 := match parseFrame frame with
  | some (.onion packet) => packet.encode
  | _ => frame

/-- One for each cell. -/
def cellFrames (letter : RouterLetter) : Nat :=
  if letter.frame.head? = some onionType ∨
      letter.frame.head? = some onionSphinxType then
    1
  else
    0

theorem cellTag_cases (cell : cellTag frame = some tag) :
    (∃ packet, parseFrame frame = some (.onion packet) ∧
      packet.routingTag = tag) ∨
      parseFrame frame = some (.sphinx tag) := by
  unfold cellTag at cell
  cases parsed : parseFrame frame with
  | none =>
    rw [parsed] at cell
    cases cell
  | some content =>
    rw [parsed] at cell
    cases content with
    | onion packet => exact Or.inl ⟨packet, rfl, Option.some.inj cell⟩
    | sphinx other =>
      cases cell
      exact Or.inr rfl
    | _ => cases cell

theorem cellTag_reencoded (short : frame.length ≤ maxFrameLength)
    (cell : cellTag frame = some tag) :
    cellTag (reencoded frame) = some tag := by
  rcases cellTag_cases cell with ⟨packet, parsed, rfl⟩ | parsed
  · have fits : packet.aeadPayload.length ≤ onionCellSize :=
      fits_of_parseFrame short parsed
    simp only [reencoded, parsed, cellTag, parseFrame_onion fits]
  · simp only [reencoded, parsed, cell]

theorem cellFrames_of_cellTag (cell : cellTag letter.frame = some tag) :
    cellFrames letter = 1 := by
  rcases cellTag_cases cell with ⟨packet, parsed, rfl⟩ | parsed
  · exact if_pos (Or.inl (head_of_parseFrame parsed))
  · exact if_pos (Or.inr (head_of_parseFrame parsed))

theorem cellFrames_of_pathNegative {negative : PathNegative}
    (parsed : parseFrame letter.frame = some (.pathNegative negative)) :
    cellFrames letter = 0 := by
  have head := head_of_parseFrame parsed
  have other :
      ¬ (some pathNegativeType = some onionType ∨
        some pathNegativeType = some onionSphinxType) := by
    decide
  simp only [cellFrames, head, RelayFrame.typeByte, if_neg other]

theorem receive_cell (short : frame.length ≤ maxFrameLength)
    (cell : cellTag frame = some tag) {node : Node P F}
    (passing : tag ≠ routingTag P node.pubKey) (env : RelayEnv P F)
    (fromPeer : Bytes 32) :
    Node.receive env node fromPeer frame =
      (node, node.forwardCell env fromPeer tag (reencoded frame)) := by
  unfold Node.receive
  rw [if_neg (Nat.not_lt.mpr short)]
  rcases cellTag_cases cell with ⟨packet, parsed, rfl⟩ | parsed
  · simp only [parsed, Node.handleCell, if_neg passing, reencoded]
  · simp only [parsed, Node.handleCell, if_neg passing, reencoded]

/-! ## Tables that bring a cell nearer -/

/-- The router a cell has come to is not the one it is addressed to. -/
def Passing (tag : Bytes 16) (_ : RelayEnv P F) (node : Node P F)
    (letter : RouterLetter) : Prop :=
  cellTag letter.frame = some tag → tag ≠ routingTag P node.pubKey

/-- The next hop of a cell is at a smaller distance. -/
def Closer (distance : Bytes 32 → Nat) (tag : Bytes 16)
    (env : RelayEnv P F) (node : Node P F) (letter : RouterLetter) :
    Prop :=
  cellTag letter.frame = some tag →
    ∀ next,
      node.routing.lookupByTagExcluding env.frame.call.now tag
          (some letter.source) = some next →
        distance next < distance letter.target

/-- Cells with one tag, and negative hints. -/
def CellFamily (tag : Bytes 16) (letter : RouterLetter) : Prop :=
  cellTag letter.frame = some tag ∨
    ∃ negative, parseFrame letter.frame = some (.pathNegative negative)

/-- The distance a cell has still to go. -/
def distanceLeft (distance : Bytes 32 → Nat) (letter : RouterLetter) :
    Nat :=
  if (cellTag letter.frame).isSome then distance letter.target else 0

theorem distanceLeft_of_pathNegative {negative : PathNegative}
    (parsed : parseFrame letter.frame = some (.pathNegative negative)) :
    distanceLeft distance letter = 0 := by
  simp [distanceLeft, cellTag, parsed]

theorem distanceLeft_of_cellTag (cell : cellTag letter.frame = some tag) :
    distanceLeft distance letter = distance letter.target := by
  simp [distanceLeft, cell]

/-- A router that passes a cell on brings it closer. -/
theorem cell_replies_cases {env : RelayEnv P F} {node : Node P F}
    (family : CellFamily tag letter) (passing : Passing tag env node letter)
    (closer : Closer distance tag env node letter) :
    Mesh.replies Node.receive env node letter = [] ∨
      ∃ reply,
        Mesh.replies Node.receive env node letter = [reply] ∧
          CellFamily tag reply ∧
          cellFrames reply + distanceLeft distance reply ≤
            distanceLeft distance letter := by
  by_cases long : maxFrameLength < letter.frame.length
  · left
    simp only [Mesh.replies, Node.receive, if_pos long, List.map_nil]
  · have short := Nat.not_lt.mp long
    rcases family with cell | ⟨negative, parsed⟩
    · have received := receive_cell short cell (passing cell) env letter.source
      have again := cellTag_reencoded short cell
      simp only [Mesh.replies, received, Node.forwardCell]
      cases answer :
          node.routing.lookupByTagExcluding env.frame.call.now tag
            (some letter.source) with
      | some next =>
        have nearer := closer cell next answer
        refine Or.inr ⟨_, rfl, Or.inl again, ?_⟩
        rw [cellFrames_of_cellTag again, distanceLeft_of_cellTag again,
          distanceLeft_of_cellTag cell]
        simp only
        omega
      | none =>
        have hint :=
          parseFrame_pathNegative
            { routingTag := tag, ttl := pathNegInitialTtl }
        refine Or.inr ⟨_, rfl, Or.inr ⟨_, hint⟩, ?_⟩
        rw [cellFrames_of_pathNegative hint, distanceLeft_of_pathNegative hint]
        exact Nat.zero_le _
    · have received :
          (Node.receive env node letter.source letter.frame).2 =
            (node.handlePathNegative env letter.source negative).2 := by
        simp only [Node.receive, if_neg long, parsed]
      simp only [Mesh.replies, received]
      rcases handlePathNegative_cases node env letter.source negative with
        nothing | ⟨_, next, passed⟩
      · rw [nothing]
        exact Or.inl rfl
      · have hint :=
          parseFrame_pathNegative
            { routingTag := negative.routingTag
              ttl := negative.ttl - 1 }
        rw [passed]
        refine Or.inr ⟨_, rfl, Or.inr ⟨_, hint⟩, ?_⟩
        rw [cellFrames_of_pathNegative hint, distanceLeft_of_pathNegative hint]
        exact Nat.zero_le _

theorem cell_drains (distance : Bytes 32 → Nat) (tag : Bytes 16) :
    Mesh.Drains (Node.receive : React _ (Node P F) _ (RelayEnv P F))
      (fun env node letter =>
        Passing tag env node letter ∧ Closer distance tag env node letter)
      (CellFamily tag) cellFrames (distanceLeft distance) := by
  apply Mesh.Drains.of_reply
  rintro env node letter family ⟨passing, closer⟩
  exact cell_replies_cases family passing closer

/--
A cell whose way starts within the hop limit and comes nearer with every
hop, in some measure of distance, is sent on no more often than the limit.
-/
theorem cell_transmissions_bounded {start : RouterMesh P F}
    {letter : RouterLetter} {tag : Bytes 16}
    (cell : cellTag letter.frame = some tag)
    (alone : start.flight = [letter]) (unhandled : start.handled = [])
    (distance : Bytes 32 → Nat)
    (within : distance letter.target ≤ maxForwardHops.toNat)
    {actions : List (RelayAction P F)}
    (nearer :
      Along meshStep
        (Mesh.Meets fun env node other =>
          Passing tag env node other ∧ Closer distance tag env node other)
        start actions) :
    Mesh.total cellFrames (run meshStep start actions).sent ≤
      maxForwardHops.toNat := by
  have begins : Mesh.Begins letter start := ⟨alone, unhandled⟩
  have paid := (cell_drains distance tag).cost_le begins (Or.inl cell) nearer
  rw [distanceLeft_of_cellTag cell] at paid
  exact paid.trans within

/-! ## A ring -/

/-- The tag of a destination that has left the ring. -/
def sampleTag : Bytes 16 := Bytes.replicate 16 9

/-- An onion packet for it. -/
def sampleOnionPacket : OnionPacket where
  routingTag := sampleTag
  epk := Bytes.replicate 32 5
  aeadPayload := [1, 2, 3]

/-- A Sphinx cell for it. -/
def sampleSphinxCell : List UInt8 :=
  onionSphinxType :: (sampleTag.toList ++ List.replicate 1263 0)

/-- Both kinds of cell go round the ring for longer than the hop limit. -/
theorem onion_cell_circulates :
    (∀ key node, sampleRing.lookup key = some node →
        sampleTag ≠ routingTag Primitives.transparent node.pubKey) ∧
      ∀ frame ∈ [sampleOnionPacket.encode, sampleSphinxCell],
        cellTag frame = some sampleTag ∧
          maxForwardHops.toNat <
            Mesh.total cellFrames
              (run meshStep (sampleMesh frame)
                (List.replicate 33 (.deliver 0 sampleRelayEnv))).sent := by
  have passing :
      ∀ entry ∈ sampleRing.entries,
        sampleTag ≠ routingTag Primitives.transparent entry.2.pubKey := by
    decide +kernel
  refine ⟨fun key node present => ?_, by decide +kernel⟩
  exact passing ⟨key, node⟩ (AList.mem_lookup_iff.mp present)

/-- The distance to the second router of a chain. -/
def sampleDistance (key : Bytes 32) : Nat := if key = sampleKey 2 then 0 else 1

/-- A chain of two routers, with an onion packet at its first one. -/
def sampleChain : RouterMesh Primitives.transparent sampleFloats where
  nodes :=
    ((∅ : AList fun _ : Bytes 32 =>
        Node Primitives.transparent sampleFloats).insert (sampleKey 1)
      (sampleLeaf 1 2 true)).insert (sampleKey 2) (sampleLeaf 2 1 true)
  flight := [⟨sampleKey 5, sampleKey 1, sampleOnionPacket.encode⟩]
  handled := []

/-- A cell on its way along a chain of two routers. -/
theorem cell_transmissions_bounded_chain :
    Mesh.total cellFrames
        (run meshStep sampleChain [.deliver 0 sampleRelayEnv]).sent ≤
      maxForwardHops.toNat := by
  have parsed := @parseFrame_onion sampleOnionPacket (by decide)
  have cell : cellTag sampleOnionPacket.encode = some sampleTag := by
    simp only [cellTag, parsed]
    rfl
  apply @cell_transmissions_bounded _ _ sampleChain
    ⟨sampleKey 5, sampleKey 1, sampleOnionPacket.encode⟩ sampleTag cell rfl
    rfl sampleDistance (by decide)
  refine ⟨?_, trivial⟩
  intro letter node found present
  cases found
  unfold sampleChain at present
  rw [AList.lookup_insert_ne (by decide), AList.lookup_insert] at present
  cases present
  constructor
  · have other :
        sampleTag ≠ routingTag Primitives.transparent (sampleKey 1) := by
      decide
    exact fun _ => other
  · intro _ next answer
    rcases RoutingState.claimer_of_lookupByTagExcluding answer with
      ⟨data, member, _⟩
    cases List.mem_singleton.mp member
    decide

end Norn.Router
