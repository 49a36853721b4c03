import Norn.Router.HopBound

/-!
# The reach of a forged hint

A PathNegative is not signed, and its counter is the sender's to choose.
Whoever takes one stores that the sender has no way to the tag, and hands the
hint on with the counter one lower.  The counter of a frame, not the constant
that honest routers start with, bounds the routers that are reached.

One hint enters a mesh of honest routers, whose tables may hold anything and
may change between any two deliveries.  A router counts as reached when it
has stored the entry.
-/

namespace Norn.Router

open Foundation Foundation.Run Packet

section Reach

variable {P : Primitives} {F : Floats}

/-- Taking the letter leaves the entry of a hint in the negative cache. -/
def records (env : RelayEnv P F) (node : Node P F)
    (letter : RouterLetter) : Bool :=
  match parseFrame letter.frame with
  | some (.pathNegative negative) =>
    decide
      ((node.receive env letter.source
          letter.frame).1.routing.pathNegativeCache.lookup
          (letter.source, negative.routingTag) =
        some env.frame.call.now)
  | _ => false

/-- The router that stores an entry in a step. -/
def recordersOf (mesh : RouterMesh P F) : RelayAction P F → List (Bytes 32)
  | .deliver index env =>
    match mesh.flight[index]? with
    | none => []
    | some letter =>
      match mesh.nodes.lookup letter.target with
      | none => []
      | some node =>
        if records env node letter then [letter.target] else []
  | .lose _ => []
  | .change _ _ => []

/-- A mesh, and the routers that have stored an entry of a hint so far. -/
structure HintedMesh (P : Primitives) (F : Floats) where
  mesh : RouterMesh P F
  recorders : List (Bytes 32)

/-- One step. -/
def hintStep (state : HintedMesh P F) (action : RelayAction P F) :
    HintedMesh P F where
  mesh := meshStep state.mesh action
  recorders := state.recorders ++ recordersOf state.mesh action

theorem mesh_run (state : HintedMesh P F) (actions : List (RelayAction P F)) :
    (run hintStep state actions).mesh = run meshStep state.mesh actions := by
  induction actions generalizing state with
  | nil => rfl
  | cons action rest inductionHypothesis =>
    exact inductionHypothesis (hintStep state action)

theorem length_recordersOf_le (mesh : RouterMesh P F)
    (action : RelayAction P F) :
    mesh.handled.length + (recordersOf mesh action).length ≤
      (meshStep mesh action).handled.length := by
  cases action with
  | deliver index env =>
    cases found : mesh.flight[index]? with
    | none =>
      simp [recordersOf, Mesh.step, found]
    | some letter =>
      cases present : mesh.nodes.lookup letter.target with
      | none =>
        simp [recordersOf, Mesh.step, found, present, Mesh.consume]
      | some node =>
        simp only [recordersOf, Mesh.step, found, present,
          Mesh.consume, List.length_append, List.length_singleton]
        split_ifs <;> simp
  | lose index =>
    cases found : mesh.flight[index]? with
    | none =>
      simp [recordersOf, Mesh.step, found]
    | some letter =>
      simp [recordersOf, Mesh.step, found, Mesh.consume]
  | change address node =>
    simp only [recordersOf, Mesh.step]
    split_ifs <;> simp

theorem length_recorders_run (start : RouterMesh P F)
    (actions : List (RelayAction P F)) :
    (run hintStep ⟨start, []⟩ actions).recorders.length ≤
      (run meshStep start actions).handled.length := by
  have each :
      ∀ (state : HintedMesh P F) (action : RelayAction P F),
        state.recorders.length ≤ state.mesh.handled.length →
          (hintStep state action).recorders.length ≤
            (hintStep state action).mesh.handled.length := by
    intro state action bounded
    have step := length_recordersOf_le state.mesh action
    change
      (state.recorders ++ recordersOf state.mesh action).length ≤
        (meshStep state.mesh action).handled.length
    rw [List.length_append]
    omega
  rw [← mesh_run ⟨start, []⟩ actions]
  exact
    @invariant_run_of_forall _ _ hintStep
      (fun state =>
        state.recorders.length ≤ state.mesh.handled.length)
      each ⟨start, []⟩ actions (Nat.zero_le _)

theorem handled_of_hint {start : RouterMesh P F} {letter : RouterLetter}
    {negative : PathNegative}
    (parsed : parseFrame letter.frame = some (.pathNegative negative))
    (begins : Mesh.Begins letter start)
    (actions : List (RelayAction P F)) :
    (run meshStep start actions).handled.length ≤
      1 + (negative.ttl.toNat - 1) := by
  have family : DataFamily letter := by
    simp only [DataFamily, parsed]
  have spent := (spent_run begins family actions).2.2
  simp only [hopsLeft, hintsLeft, parsed] at spent
  omega

/--
A hint whose counter is at most `PATH_NEG_INITIAL_TTL` makes at most so many
honest routers store an entry, whatever their tables hold, whatever is lost
and however the tables change in between.
-/
theorem forged_hint_reach (start : RouterMesh P F) {letter : RouterLetter}
    {negative : PathNegative}
    (parsed : parseFrame letter.frame = some (.pathNegative negative))
    (alone : start.flight = [letter]) (unhandled : start.handled = [])
    (capped : negative.ttl ≤ pathNegInitialTtl)
    (actions : List (RelayAction P F)) :
    (run hintStep ⟨start, []⟩ actions).recorders.length ≤
      pathNegInitialTtl.toNat := by
  have recorded := length_recorders_run start actions
  have handled := handled_of_hint parsed ⟨alone, unhandled⟩ actions
  have small : negative.ttl.toNat ≤ 4 := UInt8.le_iff_toNat_le.mp capped
  change _ ≤ 4
  omega

end Reach

/-- A router between two others that takes both for the way everywhere. -/
def lineNode (byte before after : UInt8)
    (distinct : ([before, after].map sampleKey).Nodup) :
    Node Primitives.transparent sampleFloats :=
  sampleRouterNode byte [before, after] true distinct

/-- Five routers in a line, with strangers at both ends. -/
def sampleLine : AList fun _ : Bytes 32 =>
    Node Primitives.transparent sampleFloats :=
  (((((∅ : AList fun _ : Bytes 32 =>
              Node Primitives.transparent sampleFloats).insert
            (sampleKey 1) (lineNode 1 9 2 (by decide))).insert
          (sampleKey 2) (lineNode 2 1 3 (by decide))).insert
        (sampleKey 3) (lineNode 3 2 4 (by decide))).insert
      (sampleKey 4) (lineNode 4 3 5 (by decide))).insert
    (sampleKey 5) (lineNode 5 4 6 (by decide))

/-- A hint about a tag with a counter of the forger's choice. -/
def forgedHint (ttl : UInt8) : RouterLetter where
  source := sampleKey 9
  target := sampleKey 1
  frame := PathNegative.encode { routingTag := Bytes.replicate 16 7, ttl }

/-- The stranger at the front sends the hint. -/
def hintedLine (ttl : UInt8) :
    RouterMesh Primitives.transparent sampleFloats where
  nodes := sampleLine
  flight := [forgedHint ttl]
  handled := []

/-- With the counter of an honest router it stays within bounds. -/
theorem honest_hint_reach :
    (run hintStep ⟨hintedLine 4, []⟩
        (List.replicate 6 (.deliver 0 sampleRelayEnv))).recorders.length ≤
      pathNegInitialTtl.toNat :=
  @forged_hint_reach _ _ (hintedLine 4) (forgedHint 4) _
    (parseFrame_pathNegative _) rfl rfl (by decide) _

/-- With a higher one it reaches all five routers. -/
theorem forged_hint_reaches_five :
    (run hintStep ⟨hintedLine 5, []⟩
        (List.replicate 5 (.deliver 0 sampleRelayEnv))).recorders =
        [sampleKey 1, sampleKey 2, sampleKey 3, sampleKey 4, sampleKey 5] ∧
      pathNegInitialTtl.toNat < 5 := by
  constructor
  · decide +kernel
  · decide

end Norn.Router
