import Mathlib.Algebra.BigOperators.Group.List.Basic
import Mathlib.Algebra.GroupWithZero.Nat
import Mathlib.Data.List.AList
import Norn.Foundation.Run
import Norn.Foundation.Trail

/-!
# Meshes of message-passing nodes

A mesh is a finite set of nodes with addresses and the letters on their way
between them.  Letters are delivered in any order and may be lost; a node
that gets a letter moves to a new state and answers with letters of its own.
Between letters the state of a node may change for reasons of its own.

Every letter taken off a link is recorded with the letters it gave rise to,
so the traffic that one letter causes can be read off the record.  The rules
below bound that traffic: if every reaction pays for its letters out of the
weight of the letter it reacts to, the total cost of all letters ever sent
is bounded by the weight of the letters at the start.
-/

namespace Norn.Foundation

open Foundation.Run

/-- A frame on its way from one node to another. -/
structure Letter (Address Frame : Type) where
  source : Address
  target : Address
  frame : Frame
  deriving DecidableEq

/-- Nodes, letters on their way, and what became of the letters taken. -/
structure Mesh (Address Node Frame : Type) where
  nodes : AList fun _ : Address => Node
  flight : List (Letter Address Frame)
  handled : List (Letter Address Frame × List (Letter Address Frame))

/-- What can happen in a mesh. -/
inductive MeshAction (Address Node Environment : Type) where
  | deliver (index : Nat) (environment : Environment)
  | lose (index : Nat)
  | change (address : Address) (node : Node)

variable {Address Node Frame Environment : Type}

/-- How a node reacts to a frame: its next state and what it sends. -/
abbrev React (Address Node Frame Environment : Type) :=
  Environment → Node → Address → Frame → Node × List (Address × Frame)

namespace Mesh

/-- The letters sent so far. -/
def sent (mesh : Mesh Address Node Frame) : List (Letter Address Frame) :=
  mesh.handled.flatMap Prod.snd

/-- Take a letter off its link and put the responses on theirs. -/
def consume (mesh : Mesh Address Node Frame) (index : Nat)
    (letter : Letter Address Frame)
    (responses : List (Letter Address Frame)) : Mesh Address Node Frame :=
  { mesh with
    flight := mesh.flight.eraseIdx index ++ responses
    handled := mesh.handled ++ [(letter, responses)] }

@[simp]
theorem sent_consume (mesh : Mesh Address Node Frame) (index : Nat)
    (letter : Letter Address Frame)
    (responses : List (Letter Address Frame)) :
    (mesh.consume index letter responses).sent = mesh.sent ++ responses := by
  simp [sent, consume]

/-- The letters with which a node answers a letter. -/
def replies (react : React Address Node Frame Environment)
    (environment : Environment) (node : Node)
    (letter : Letter Address Frame) : List (Letter Address Frame) :=
  (react environment node letter.source letter.frame).2.map fun out =>
    ⟨letter.target, out.1, out.2⟩

/-- The sum of a measure over a list of letters. -/
def total (measure : Letter Address Frame → Nat)
    (letters : List (Letter Address Frame)) : Nat :=
  (letters.map measure).sum

variable (measure : Letter Address Frame → Nat)

@[simp]
theorem total_nil : total measure [] = 0 := rfl

@[simp]
theorem total_cons (letter : Letter Address Frame)
    (letters : List (Letter Address Frame)) :
    total measure (letter :: letters) =
      measure letter + total measure letters := by
  simp [total]

@[simp]
theorem total_append (first second : List (Letter Address Frame)) :
    total measure (first ++ second) =
      total measure first + total measure second := by
  simp [total]

theorem total_add (first second : Letter Address Frame → Nat)
    (letters : List (Letter Address Frame)) :
    total (fun letter => first letter + second letter) letters =
      total first letters + total second letters := by
  induction letters with
  | nil => rfl
  | cons letter letters induction =>
    simp only [total_cons, induction]
    omega

theorem total_eq_length {measure : Letter Address Frame → Nat}
    {letters : List (Letter Address Frame)}
    (each : ∀ letter ∈ letters, measure letter = 1) :
    total measure letters = letters.length := by
  induction letters with
  | nil => rfl
  | cons letter letters induction =>
    have first := each letter (by simp)
    have later := induction fun other member => each other (by simp [member])
    simp only [total_cons, List.length_cons]
    omega

/-- A letter taken out leaves the measure of the others. -/
theorem total_eraseIdx {letters : List (Letter Address Frame)} {index : Nat}
    {letter : Letter Address Frame} (found : letters[index]? = some letter) :
    measure letter + total measure (letters.eraseIdx index) =
      total measure letters := by
  rcases List.getElem?_eq_some_iff.mp found with ⟨inside, rfl⟩
  have permuted := List.getElem_cons_eraseIdx_perm inside
  have sums := (permuted.map measure).sum_eq
  simpa [total] using sums

/-! ## Trails

A letter that every node answers by at most one letter, in a way that its
tables determine, follows a trail through the mesh for as long as the tables
stay as they are.
-/

section Trails

variable {family : Letter Address Frame → Prop}
variable {fixed : AList (fun _ : Address => Node) → Prop}
variable {follow : Letter Address Frame → Option (Letter Address Frame)}

variable {first letter : Letter Address Frame} {mesh : Mesh Address Node Frame}

/-- Nodes only change in response to letters. -/
def Untouched : MeshAction Address Node Environment → Prop
  | .deliver _ _ => True
  | .lose _ => True
  | .change _ _ => False

/-- One letter is on its way and has gone so far along its trail. -/
structure Underway (family : Letter Address Frame → Prop)
    (fixed : AList (fun _ : Address => Node) → Prop)
    (follow : Letter Address Frame → Option (Letter Address Frame))
    (first letter : Letter Address Frame)
    (mesh : Mesh Address Node Frame) : Prop where
  flight : mesh.flight = [letter]
  reached : trail follow first mesh.sent.length = some letter
  member : family letter
  kept : fixed mesh.nodes
  passed : ∀ other ∈ mesh.sent, family other

/-- One letter has gone so far along its trail and may have stopped. -/
inductive OnTrail (family : Letter Address Frame → Prop)
    (fixed : AList (fun _ : Address => Node) → Prop)
    (follow : Letter Address Frame → Option (Letter Address Frame))
    (first : Letter Address Frame) (mesh : Mesh Address Node Frame) : Prop
  | underway (letter : Letter Address Frame)
      (current : Underway family fixed follow first letter mesh)
  | ended (flight : mesh.flight = [])
      (reached : trail follow first mesh.sent.length ≠ none)

theorem OnTrail.reached (onTrail : OnTrail family fixed follow first mesh) :
    trail follow first mesh.sent.length ≠ none := by
  cases onTrail with
  | underway letter current =>
    rw [current.reached]
    exact Option.some_ne_none letter
  | ended flight reached => exact reached

theorem Underway.found
    (current : Underway family fixed follow first letter mesh) :
    mesh.flight[0]? = some letter := by
  rw [current.flight]
  rfl

theorem Underway.notFound
    (current : Underway family fixed follow first letter mesh) (index : Nat) :
    mesh.flight[index + 1]? = none := by
  rw [current.flight]
  rfl

/-- The letter underway is taken and not answered. -/
theorem Underway.stop (current : Underway family fixed follow first letter mesh)
    (nodes : AList fun _ : Address => Node) :
    OnTrail family fixed follow first
      ({ mesh with nodes }.consume 0 letter []) := by
  refine .ended ?_ ?_
  · simp [consume, current.flight]
  · rw [sent_consume, List.append_nil]
    change trail follow first mesh.sent.length ≠ none
    rw [current.reached]
    exact Option.some_ne_none letter

/-- One letter is on its way, and nothing has happened yet. -/
structure Begins (letter : Letter Address Frame)
    (mesh : Mesh Address Node Frame) : Prop where
  flight : mesh.flight = [letter]
  handled : mesh.handled = []

theorem Begins.sent_eq_nil (begins : Begins letter mesh) :
    mesh.sent = [] := by
  rw [sent, begins.handled]
  rfl

theorem Begins.underway (begins : Begins letter mesh) (member : family letter)
    (kept : fixed mesh.nodes) :
    Underway family fixed follow letter letter mesh := by
  constructor
  · exact begins.flight
  · rw [begins.sent_eq_nil]
    rfl
  · exact member
  · exact kept
  · simp [begins.sent_eq_nil]

/-- All letters on their way and all letters sent belong to a family. -/
def Within (family : Letter Address Frame → Prop)
    (mesh : Mesh Address Node Frame) : Prop :=
  (∀ letter ∈ mesh.flight, family letter) ∧ ∀ letter ∈ mesh.sent, family letter

theorem Begins.within (begins : Begins letter mesh) (member : family letter) :
    Within family mesh := by
  constructor
  · intro other present
    rw [begins.flight, List.mem_singleton] at present
    rw [present]
    exact member
  · simp [begins.sent_eq_nil]

end Trails

section Weights

variable {react : React Address Node Frame Environment}
variable {condition : Environment → Node → Letter Address Frame → Prop}
variable {family : Letter Address Frame → Prop}
variable {cost weight : Letter Address Frame → Nat}

/--
Letters of a family are answered by letters of the family, and the weight of
a letter pays for the cost and the weight of the answers.
-/
structure Drains (react : React Address Node Frame Environment)
    (condition : Environment → Node → Letter Address Frame → Prop)
    (family : Letter Address Frame → Prop)
    (cost weight : Letter Address Frame → Nat) : Prop where
  closed :
    ∀ environment node letter,
      family letter → condition environment node letter →
        ∀ reply ∈ replies react environment node letter, family reply
  pays :
    ∀ environment node letter,
      family letter → condition environment node letter →
        total cost (replies react environment node letter) +
            total weight (replies react environment node letter) ≤
          weight letter

/-- A weight that pays for every single answer pays for all. -/
theorem Drains.of_reply
    (single :
      ∀ environment node letter,
        family letter → condition environment node letter →
          replies react environment node letter = [] ∨
            ∃ reply,
              replies react environment node letter = [reply] ∧ family reply ∧
                cost reply + weight reply ≤ weight letter) :
    Drains react condition family cost weight where
  closed := by
    intro environment node letter member met reply answered
    rcases single environment node letter member met with
      none | ⟨only, all, inside, _⟩
    · rw [none] at answered
      cases answered
    · rw [all, List.mem_singleton] at answered
      rw [answered]
      exact inside
  pays := by
    intro environment node letter member met
    rcases single environment node letter member met with
      none | ⟨only, all, _, paid⟩
    · rw [none]
      exact Nat.zero_le _
    · rw [all]
      simpa using paid

/-- The letter taken pays for its answers, which are of its family. -/
theorem Drains.answers (drains : Drains react condition family cost weight)
    {letter : Letter Address Frame} (member : family letter)
    {responses : List (Letter Address Frame)}
    (answered :
      responses = [] ∨
        ∃ environment node,
          condition environment node letter ∧
            responses = replies react environment node letter) :
    (∀ reply ∈ responses, family reply) ∧
      total cost responses + total weight responses ≤ weight letter := by
  rcases answered with rfl | ⟨environment, node, met, rfl⟩
  · simp
  · exact ⟨drains.closed environment node letter member met,
      drains.pays environment node letter member met⟩

end Weights

/-! ## Steps -/

section Step

variable [DecidableEq Address]

/-- One step of a mesh. -/
def step (react : React Address Node Frame Environment)
    (mesh : Mesh Address Node Frame) :
    MeshAction Address Node Environment → Mesh Address Node Frame
  | .deliver index environment =>
    match mesh.flight[index]? with
    | none => mesh
    | some letter =>
      match mesh.nodes.lookup letter.target with
      | none => mesh.consume index letter []
      | some node =>
        let next := (react environment node letter.source letter.frame).1
        { mesh with
          nodes := mesh.nodes.insert letter.target next }.consume
          index letter (replies react environment node letter)
  | .lose index =>
    match mesh.flight[index]? with
    | none => mesh
    | some letter => mesh.consume index letter []
  | .change address node =>
    if (mesh.nodes.lookup address).isSome then
      { mesh with nodes := mesh.nodes.insert address node }
    else
      mesh

/-- Every reaction in a step meets a condition. -/
def Meets (condition : Environment → Node → Letter Address Frame → Prop)
    (mesh : Mesh Address Node Frame) :
    MeshAction Address Node Environment → Prop
  | .deliver index environment =>
    ∀ letter node,
      mesh.flight[index]? = some letter →
        mesh.nodes.lookup letter.target = some node →
          condition environment node letter
  | .lose _ => True
  | .change _ _ => True

theorem meets_true (mesh : Mesh Address Node Frame)
    (action : MeshAction Address Node Environment) :
    Meets (fun _ _ _ => True) mesh action := by
  cases action <;> simp [Meets]

/-- What a step does to the letters. -/
inductive Outcome (react : React Address Node Frame Environment)
    (condition : Environment → Node → Letter Address Frame → Prop)
    (before after : Mesh Address Node Frame) : Prop
  | idle (flight : after.flight = before.flight)
      (handled : after.handled = before.handled)
  | took (index : Nat) (letter : Letter Address Frame)
      (responses : List (Letter Address Frame))
      (found : before.flight[index]? = some letter)
      (answered :
        responses = [] ∨
          ∃ environment node,
            condition environment node letter ∧
              responses = replies react environment node letter)
      (flight : after.flight = before.flight.eraseIdx index ++ responses)
      (handled : after.handled = before.handled ++ [(letter, responses)])

/-- A step leaves the letters alone or takes one of them. -/
theorem outcome_step (react : React Address Node Frame Environment)
    {condition : Environment → Node → Letter Address Frame → Prop}
    (mesh : Mesh Address Node Frame)
    (action : MeshAction Address Node Environment)
    (meets : Meets condition mesh action) :
    Outcome react condition mesh (step react mesh action) := by
  cases action with
  | deliver index environment =>
    cases found : mesh.flight[index]? with
    | none =>
      simp only [step, found]
      exact .idle rfl rfl
    | some letter =>
      cases present : mesh.nodes.lookup letter.target with
      | none =>
        simp only [step, found, present]
        exact .took index letter [] found (Or.inl rfl) rfl rfl
      | some node =>
        have met := meets letter node found present
        simp only [step, found, present]
        exact .took index letter _ found (Or.inr ⟨environment, node, met, rfl⟩)
          rfl rfl
  | lose index =>
    cases found : mesh.flight[index]? with
    | none =>
      simp only [step, found]
      exact .idle rfl rfl
    | some letter =>
      simp only [step, found]
      exact .took index letter [] found (Or.inl rfl) rfl rfl
  | change address node =>
    simp only [step]
    split_ifs
    · exact .idle rfl rfl
    · exact .idle rfl rfl

/-- As long as a letter is on its way, a delivery takes one. -/
theorem handled_step_deliver (react : React Address Node Frame Environment)
    {mesh : Mesh Address Node Frame} (busy : mesh.flight ≠ [])
    (environment : Environment) :
    (step react mesh (.deliver 0 environment)).handled.length =
      mesh.handled.length + 1 := by
  cases flight : mesh.flight with
  | nil => exact absurd flight busy
  | cons letter rest =>
    have found : mesh.flight[0]? = some letter := by
      rw [flight]
      rfl
    cases present : mesh.nodes.lookup letter.target with
    | none => simp [step, found, present, consume]
    | some node => simp [step, found, present, consume]

section Rules

variable {react : React Address Node Frame Environment}
variable {condition : Environment → Node → Letter Address Frame → Prop}
variable {family : Letter Address Frame → Prop}
variable {cost weight : Letter Address Frame → Nat}

variable {start : Mesh Address Node Frame}
  {actions : List (MeshAction Address Node Environment)}
  {first : Letter Address Frame}

theorem Drains.within_step (drains : Drains react condition family cost weight)
    (mesh : Mesh Address Node Frame)
    (action : MeshAction Address Node Environment)
    (within : Within family mesh) (meets : Meets condition mesh action) :
    Within family (step react mesh action) := by
  cases outcome_step react mesh action meets with
  | idle flight handled =>
    simpa only [Within, sent, flight, handled] using within
  | took index letter responses found answered flight handled =>
    have responsesFit :=
      (drains.answers (within.1 letter (List.mem_of_getElem? found)) answered).1
    constructor
    · intro other member
      rw [flight, List.mem_append] at member
      cases member with
      | inl old => exact within.1 other (List.mem_of_mem_eraseIdx old)
      | inr new => exact responsesFit other new
    · intro other member
      simp only [sent, handled, List.flatMap_append,
        List.mem_append, List.flatMap_singleton] at member
      cases member with
      | inl old => exact within.2 other old
      | inr new => exact responsesFit other new

/-- No step makes sent costs and weights in flight more in total. -/
theorem Drains.total_step (drains : Drains react condition family cost weight)
    (mesh : Mesh Address Node Frame)
    (action : MeshAction Address Node Environment)
    (within : Within family mesh) (meets : Meets condition mesh action) :
    total cost (step react mesh action).sent +
        total weight (step react mesh action).flight ≤
      total cost mesh.sent + total weight mesh.flight := by
  cases outcome_step react mesh action meets with
  | idle flight handled =>
    simp only [sent, flight, handled, Nat.le_refl]
  | took index letter responses found answered flight handled =>
    have paid :=
      (drains.answers (within.1 letter (List.mem_of_getElem? found)) answered).2
    have rest := total_eraseIdx weight found
    simp only [sent, flight, handled, List.flatMap_append,
      List.flatMap_singleton, total_append]
    omega

/-- What every step of a family keeps holds after a run. -/
theorem Drains.invariant_run
    (drains : Drains react condition family cost weight)
    {good : Mesh Address Node Frame → Prop}
    (kept :
      ∀ mesh action, Within family mesh → Meets condition mesh action →
        good mesh → good (step react mesh action))
    (within : Within family start) (initial : good start)
    (along : Along (step react) (Meets condition) start actions) :
    Within family (run (step react) start actions) ∧
      good (run (step react) start actions) := by
  refine @Run.invariant_run _ _ _ _ (fun mesh => Within family mesh ∧ good mesh)
    ?_ _ _ ⟨within, initial⟩ along
  rintro mesh action ⟨inside, holds⟩ meets
  exact ⟨drains.within_step mesh action inside meets,
    kept mesh action inside meets holds⟩

/-- The traffic of a whole run is paid for by the letters at its start. -/
theorem Drains.total_run (drains : Drains react condition family cost weight)
    (within : Within family start)
    (along : Along (step react) (Meets condition) start actions) :
    Within family (run (step react) start actions) ∧
      total cost (run (step react) start actions).sent +
          total weight (run (step react) start actions).flight ≤
        total cost start.sent + total weight start.flight :=
  drains.invariant_run
    (fun mesh action inside meets bounded =>
      (drains.total_step mesh action inside meets).trans bounded)
    within (Nat.le_refl _) along

/-- Every letter ever sent is on its way or has been taken. -/
theorem length_step (mesh : Mesh Address Node Frame)
    (action : MeshAction Address Node Environment) :
    (step react mesh action).handled.length +
          (step react mesh action).flight.length + mesh.sent.length =
      mesh.handled.length + mesh.flight.length +
        (step react mesh action).sent.length := by
  cases outcome_step react mesh action (meets_true mesh action) with
  | idle flight handled =>
    simp only [sent, flight, handled]
  | took index letter responses found answered flight handled =>
    rcases List.getElem?_eq_some_iff.mp found with ⟨inside, _⟩
    simp only [sent, flight, handled, List.flatMap_append,
      List.flatMap_singleton, List.length_append, List.length_singleton,
      List.length_eraseIdx_of_lt inside]
    omega

theorem length_run (start : Mesh Address Node Frame)
    (actions : List (MeshAction Address Node Environment)) :
    (run (step react) start actions).handled.length +
          (run (step react) start actions).flight.length +
          start.sent.length =
      start.handled.length + start.flight.length +
        (run (step react) start actions).sent.length := by
  induction actions generalizing start with
  | nil => rfl
  | cons action rest induction =>
    have first := @length_step _ _ _ _ _ react start action
    have later := induction (step react start action)
    simp only [run_cons]
    omega

/-! ## Tokens

A token is carried by at most one letter at a time: the letter that carries
it is answered by one letter that carries it or by none, and then the token
has come to its end.
-/

/-- The letters taken whose token was not passed on. -/
def ended (token : Letter Address Frame → Nat)
    (handled : List (Letter Address Frame × List (Letter Address Frame))) :
    Nat :=
  (handled.map fun entry => token entry.1 - total token entry.2).sum

theorem Drains.ended_step {token : Letter Address Frame → Nat}
    (drains : Drains react condition family (fun _ => 0) token)
    (mesh : Mesh Address Node Frame)
    (action : MeshAction Address Node Environment)
    (within : Within family mesh) (meets : Meets condition mesh action) :
    total token (step react mesh action).flight +
        ended token (step react mesh action).handled =
      total token mesh.flight + ended token mesh.handled := by
  cases outcome_step react mesh action meets with
  | idle flight handled =>
    simp only [flight, handled]
  | took index letter responses found answered flight handled =>
    have paid :=
      (drains.answers (within.1 letter (List.mem_of_getElem? found)) answered).2
    have rest := total_eraseIdx token found
    simp only [flight, handled, total_append, ended, List.map_append,
      List.map_cons, List.map_nil, List.sum_append, List.sum_cons,
      List.sum_nil]
    omega

/-- Tokens are on their way or have come to their end. -/
theorem Drains.ended_run {token : Letter Address Frame → Nat}
    (drains : Drains react condition family (fun _ => 0) token)
    (within : Within family start)
    (along : Along (step react) (Meets condition) start actions) :
    total token (run (step react) start actions).flight +
        ended token (run (step react) start actions).handled =
      total token start.flight + ended token start.handled :=
  (drains.invariant_run
    (fun mesh action inside meets balanced =>
      (drains.ended_step mesh action inside meets).trans balanced)
    within rfl along).2

section Begins

variable {letter : Letter Address Frame}
variable {start : Mesh Address Node Frame}
variable {actions : List (MeshAction Address Node Environment)}

/-- All letters that one letter causes are paid for by its weight. -/
theorem Drains.cost_le (drains : Drains react condition family cost weight)
    (begins : Begins letter start) (member : family letter)
    (along : Along (step react) (Meets condition) start actions) :
    total cost (run (step react) start actions).sent ≤ weight letter := by
  have paid := (drains.total_run (begins.within member) along).2
  rw [begins.sent_eq_nil, begins.flight] at paid
  simp only [total_nil, total_cons, Nat.zero_add, Nat.add_zero] at paid
  omega

/-- The token of one letter is on its way or has come to its end. -/
theorem Drains.token_eq {token : Letter Address Frame → Nat}
    (drains : Drains react condition family (fun _ => 0) token)
    (begins : Begins letter start) (member : family letter)
    (along : Along (step react) (Meets condition) start actions) :
    total token (run (step react) start actions).flight +
        ended token (run (step react) start actions).handled =
      token letter := by
  rw [drains.ended_run (begins.within member) along, begins.flight,
    begins.handled]
  simp [ended]

theorem Begins.length_run (begins : Begins letter start)
    (actions : List (MeshAction Address Node Environment)) :
    (run (step react) start actions).handled.length +
        (run (step react) start actions).flight.length =
      1 + (run (step react) start actions).sent.length := by
  have count := @Mesh.length_run _ _ _ _ _ react start actions
  rw [begins.sent_eq_nil, begins.flight, begins.handled] at count
  simp only [List.length_nil, List.length_singleton] at count
  omega

end Begins

/-- Every letter of a family is answered by the letter that follows it. -/
structure Relays (react : React Address Node Frame Environment)
    (condition : Environment → Node → Letter Address Frame → Prop)
    (family : Letter Address Frame → Prop)
    (fixed : AList (fun _ : Address => Node) → Prop)
    (follow : Letter Address Frame → Option (Letter Address Frame)) :
    Prop where
  closed :
    ∀ letter next, family letter → follow letter = some next → family next
  absent :
    ∀ nodes letter, fixed nodes → nodes.lookup letter.target = none →
      follow letter = none
  answers :
    ∀ nodes letter node environment,
      fixed nodes → family letter →
        nodes.lookup letter.target = some node →
          condition environment node letter →
            replies react environment node letter = (follow letter).toList
  keeps :
    ∀ nodes letter node environment,
      fixed nodes → family letter →
        nodes.lookup letter.target = some node →
          condition environment node letter → follow letter ≠ none →
            fixed
              (nodes.insert letter.target
                (react environment node letter.source letter.frame).1)

variable {fixed : AList (fun _ : Address => Node) → Prop}
variable {follow : Letter Address Frame → Option (Letter Address Frame)}

/-- Delivering the letter underway moves it on. -/
theorem Relays.deliver (relays : Relays react condition family fixed follow)
    {letter next : Letter Address Frame} {mesh : Mesh Address Node Frame}
    (current : Underway family fixed follow first letter mesh)
    {environment : Environment}
    (meets : Meets condition mesh (.deliver 0 environment))
    (onwards : follow letter = some next) :
    Underway family fixed follow first next
      (step react mesh (.deliver 0 environment)) ∧
      (step react mesh (.deliver 0 environment)).sent.length =
        mesh.sent.length + 1 := by
  cases present : mesh.nodes.lookup letter.target with
  | none =>
    have nowhere := relays.absent mesh.nodes letter current.kept present
    rw [onwards] at nowhere
    cases nowhere
  | some node =>
    have met := meets letter node current.found present
    have answer :=
      relays.answers mesh.nodes letter node environment current.kept
        current.member present met
    have moving : follow letter ≠ none := by
      rw [onwards]
      exact Option.some_ne_none next
    have kept :=
      relays.keeps mesh.nodes letter node environment current.kept
        current.member present met moving
    have member := relays.closed letter next current.member onwards
    rw [onwards] at answer
    simp only [step, current.found, present, answer, Option.toList_some]
    generalize
      mesh.nodes.insert letter.target
        (react environment node letter.source letter.frame).1 = nodes
      at kept
    have sentAfter :
        ({ mesh with nodes }.consume 0 letter [next]).sent =
          mesh.sent ++ [next] := by
      rw [sent_consume]
      rfl
    constructor
    · constructor
      · simp [consume, current.flight]
      · rw [sentAfter, List.length_append, List.length_singleton, trail_succ,
          current.reached]
        exact onwards
      · exact member
      · exact kept
      · intro other sentOther
        rw [sentAfter, List.mem_append, List.mem_singleton] at sentOther
        cases sentOther with
        | inl old => exact current.passed other old
        | inr new =>
          rw [new]
          exact member
    · rw [sentAfter, List.length_append, List.length_singleton]

/-- A step keeps the letter on its trail or ends it there. -/
theorem Relays.onTrail_step
    (relays : Relays react condition family fixed follow)
    (first : Letter Address Frame) (mesh : Mesh Address Node Frame)
    (action : MeshAction Address Node Environment)
    (onTrail : OnTrail family fixed follow first mesh)
    (allowed : Untouched action ∧ Meets condition mesh action) :
    OnTrail family fixed follow first (step react mesh action) := by
  cases onTrail with
  | ended flight reached =>
    have found (index : Nat) : mesh.flight[index]? = none := by
      rw [flight]
      rfl
    cases action with
    | deliver index environment =>
      simp only [step, found]
      exact .ended flight reached
    | lose index =>
      simp only [step, found]
      exact .ended flight reached
    | change address node => exact allowed.1.elim
  | underway letter current =>
    cases action with
    | deliver index environment =>
      cases index with
      | succ index =>
        simp only [step, current.notFound]
        exact .underway letter current
      | zero =>
        cases onwards : follow letter with
        | some next =>
          exact .underway next (relays.deliver current allowed.2 onwards).1
        | none =>
          cases present : mesh.nodes.lookup letter.target with
          | none =>
            simp only [step, current.found, present]
            exact current.stop mesh.nodes
          | some node =>
            have answer :=
              relays.answers mesh.nodes letter node environment current.kept
                current.member present
                (allowed.2 letter node current.found present)
            rw [onwards] at answer
            simp only [step, current.found, present, answer, Option.toList_none]
            exact current.stop _
    | lose index =>
      cases index with
      | succ index =>
        simp only [step, current.notFound]
        exact .underway letter current
      | zero =>
        simp only [step, current.found]
        exact current.stop mesh.nodes
    | change address node => exact allowed.1.elim

theorem Relays.onTrail_run (relays : Relays react condition family fixed follow)
    (initial : OnTrail family fixed follow first start)
    (along :
      Along (step react)
        (fun mesh action => Untouched action ∧ Meets condition mesh action)
        start actions) :
    OnTrail family fixed follow first (run (step react) start actions) :=
  invariant_run (relays.onTrail_step first) initial along

/--
If the trail goes on for ever, so does the letter: after so many deliveries
it has been sent so many times more.
-/
theorem Relays.run_deliveries
    (relays : Relays react condition family fixed follow)
    {letter : Letter Address Frame} {mesh : Mesh Address Node Frame}
    (current : Underway family fixed follow first letter mesh)
    (endless : ∀ steps, trail follow first steps ≠ none)
    {environment : Environment}
    (meets : ∀ node other, family other → condition environment node other)
    (rounds : Nat) :
    Along (step react)
      (fun mesh action => Untouched action ∧ Meets condition mesh action)
        mesh (List.replicate rounds (.deliver 0 environment)) ∧
      (∃ last,
        Underway family fixed follow first last
          (run (step react) mesh
            (List.replicate rounds (.deliver 0 environment)))) ∧
      (run (step react) mesh
        (List.replicate rounds (.deliver 0 environment))).sent.length =
        mesh.sent.length + rounds := by
  induction rounds generalizing mesh letter with
  | zero => exact ⟨trivial, ⟨letter, current⟩, rfl⟩
  | succ rounds induction =>
    have met : Meets condition mesh (.deliver 0 environment) := by
      intro other node found _
      rw [current.found] at found
      cases found
      exact meets node letter current.member
    cases onwards : follow letter with
    | none =>
      have goesOn := endless (mesh.sent.length + 1)
      rw [trail_succ, current.reached] at goesOn
      exact absurd onwards goesOn
    | some next =>
      rcases relays.deliver current met onwards with ⟨moved, sentMore⟩
      rcases induction moved with ⟨along, underway, sentAll⟩
      rw [List.replicate_succ, run_cons]
      refine ⟨⟨⟨trivial, met⟩, along⟩, underway, ?_⟩
      rw [sentAll, sentMore]
      omega

end Rules

end Step

end Mesh

end Norn.Foundation
