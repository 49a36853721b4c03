import Mathlib.Data.Finset.Card
import Norn.Session.Exits

/-!
# Pinned post-quantum identities

`pq_verify_and_pin` binds the ML-DSA key of the first handshake message of an
identity to that identity.  Here the pins are followed over whole runs: as
long as the table never overflows, an identity keeps the key it was first
seen with, and every pin was put there by a message that carried a signature
under each of the two keys.
-/

namespace Norn.Session

open Foundation Foundation.Run

section Pinning

variable {P : Primitives}

variable {kind : HandshakeKind} {manager : SessionManager P}
  {env : Surroundings P} {message : HandshakeMessage kind} {pins : PinTable}
  {id : Bytes 32} {key : Bytes mlDsaPubBytes}

/-! ## Vouching and acceptance -/

/-- The message carries the identity, the key, and a signature of each. -/
structure HandshakeMessage.Vouches (P : Primitives)
    {kind : HandshakeKind} (message : HandshakeMessage kind)
    (id : Bytes 32) (key : Bytes mlDsaPubBytes) : Prop where
  identity : message.edPub = id
  carried : message.mlDsaPub = key
  ed25519 : P.verifyStrict id message.signedBytes message.signature = true
  mlDsa : pqVerify P key message.signedBytes message.mlDsaSig = true

/-- The operation handles a message that vouches for the binding. -/
def ManagerOp.Vouches (op : ManagerOp P) (id : Bytes 32)
    (key : Bytes mlDsaPubBytes) : Prop :=
  match op with
  | .handleInit _ data =>
    ∃ init, HandshakeMessage.decode .init data = .ok init ∧
      HandshakeMessage.Vouches P init id key
  | .handleAck _ data =>
    ∃ ack, HandshakeMessage.decode .ack data = .ok ack ∧
      HandshakeMessage.Vouches P ack id key
  | _ => False

/-- The operation handles a message of the identity with success. -/
def ManagerOp.Accepts (op : ManagerOp P) (manager : SessionManager P)
    (id : Bytes 32) (key : Bytes mlDsaPubBytes) : Prop :=
  match op with
  | .handleInit env data =>
    ∃ init reply, HandshakeMessage.decode .init data = .ok init ∧
      init.edPub = id ∧ init.mlDsaPub = key ∧
      (manager.handleInit env data).1 = .ok reply
  | .handleAck env data =>
    ∃ ack, HandshakeMessage.decode .ack data = .ok ack ∧
      ack.edPub = id ∧ ack.mlDsaPub = key ∧
      (manager.handleAck env data).1 = .ok ()
  | _ => False

theorem SessionManager.Passes.vouches
    (passes : manager.Passes env message pins) :
    HandshakeMessage.Vouches P message message.edPub message.mlDsaPub where
  identity := rfl
  carried := rfl
  ed25519 :=
    ((HandshakeMessage.verify_eq_ok_iff P message _ _).mp passes.verified).2.2.2
  mlDsa := passes.pins.1

theorem SessionManager.Passes.lookup
    (passes : manager.Passes env message pins) :
    pins.lookup message.edPub = some message.mlDsaPub := by
  rcases passes.pins.2 with ⟨known, rfl⟩ | ⟨_, adds⟩
  · exact known
  · exact adds.lookup_self

/-- The pins are as before, or hold one more that a message vouched for. -/
def PinsAdvance (vouched : Bytes 32 → Bytes mlDsaPubBytes → Prop)
    (before after : PinTable) : Prop :=
  after = before ∨
    ∃ id key,
      vouched id key ∧ before.lookup id = none ∧ AddsPin before id key after

theorem SessionManager.Passes.advance
    (passes : manager.Passes env message pins) :
    PinsAdvance (HandshakeMessage.Vouches P message) manager.pqPins
      pins := by
  rcases passes.pins.2 with ⟨_, same⟩ | ⟨unknown, adds⟩
  · exact Or.inl same
  · exact Or.inr ⟨_, _, passes.vouches, unknown, adds⟩

theorem PinsAdvance.imp {vouched other : Bytes 32 → Bytes mlDsaPubBytes → Prop}
    {before after : PinTable} (advance : PinsAdvance vouched before after)
    (weaken : ∀ id key, vouched id key → other id key) :
    PinsAdvance other before after := by
  rcases advance with same | ⟨id, key, voucher, unknown, adds⟩
  · exact Or.inl same
  · exact Or.inr ⟨id, key, weaken id key voucher, unknown, adds⟩

/-- An operation changes the pins only by a key that a message vouches for. -/
theorem pinsAdvance_apply (manager : SessionManager P) (op : ManagerOp P) :
    PinsAdvance op.Vouches manager.pqPins (op.apply manager).pqPins := by
  by_cases quiet : op.Local
  · rcases rest_apply manager quiet with ⟨sessions, pqKeys, after⟩
    rw [after]
    exact Or.inl rfl
  cases op with
  | handleInit env data =>
    simp only [ManagerOp.apply]
    generalize manager.handleInit env data =
      result, manager.initExit_handleInit env data = exits
    cases exits with
    | refused failure log early => exact Or.inl rfl
    | unanswerable init log pins decoded unlimited passes invalid =>
      exact passes.advance.imp fun id key voucher =>
        ⟨init, decoded, voucher⟩
    | accepted init log pins decoded admits =>
      exact admits.passes.advance.imp fun id key voucher =>
        ⟨init, decoded, voucher⟩
  | handleAck env data =>
    simp only [ManagerOp.apply]
    generalize manager.handleAck env data =
      result, manager.ackExit_handleAck env data = exits
    cases exits with
    | refused failure early => exact Or.inl rfl
    | unsolicited ack pins decoded passes unknown =>
      exact passes.advance.imp fun id key voucher =>
        ⟨ack, decoded, voucher⟩
    | accepted ack pins existing decoded admits =>
      exact admits.passes.advance.imp fun id key voucher =>
        ⟨ack, decoded, voucher⟩
  | _ => exact absurd trivial quiet

theorem accepts_of_admitsInit {data : List UInt8} {init : SessionInit}
    {log : RateLog} (decoded : HandshakeMessage.decode .init data = .ok init)
    (admits : manager.AdmitsInit env init log pins) :
    (ManagerOp.handleInit env data).Accepts manager init.edPub
      init.mlDsaPub := by
  refine ⟨init, (manager.ackFor env init).encode, decoded, rfl, rfl, ?_⟩
  rw [SessionManager.handleInit_of_admits decoded admits]

theorem ManagerOp.Accepts.lookup {op : ManagerOp P}
    (accepts : op.Accepts manager id key) :
    (op.apply manager).pqPins.lookup id = some key := by
  cases op with
  | handleInit env data =>
    rcases accepts with ⟨init, reply, decoded, rfl, rfl, succeeded⟩
    simp only [ManagerOp.apply]
    have exits := manager.initExit_handleInit env data
    generalize manager.handleInit env data = result at exits succeeded
    cases exits with
    | refused failure log early => cases succeeded
    | unanswerable _ _ _ _ _ _ _ => cases succeeded
    | accepted other log pins same admits =>
      rw [decoded] at same
      cases same
      exact admits.passes.lookup
  | handleAck env data =>
    rcases accepts with ⟨ack, decoded, rfl, rfl, succeeded⟩
    simp only [ManagerOp.apply]
    have exits := manager.ackExit_handleAck env data
    generalize manager.handleAck env data = result at exits succeeded
    cases exits with
    | refused failure early => cases succeeded
    | unsolicited _ _ _ _ _ => cases succeeded
    | accepted other pins existing same admits =>
      rw [decoded] at same
      cases same
      exact admits.passes.lookup
  | _ => exact accepts.elim

/-! ## Pins over whole runs -/

/-- The identities that are pinned at some point of a run. -/
def pinnedIdentities (manager : SessionManager P) :
    List (ManagerOp P) → Finset (Bytes 32)
  | [] => manager.pqPins.keys.toFinset
  | op :: rest =>
    manager.pqPins.keys.toFinset ∪ pinnedIdentities (op.apply manager) rest

theorem keys_subset_pinnedIdentities (manager : SessionManager P)
    (ops : List (ManagerOp P)) :
    manager.pqPins.keys.toFinset ⊆ pinnedIdentities manager ops := by
  cases ops with
  | nil => exact Finset.Subset.refl _
  | cons op rest => exact Finset.subset_union_left

theorem pinnedIdentities_suffix_subset (manager : SessionManager P)
    (earlier later : List (ManagerOp P)) :
    pinnedIdentities (run ManagerOp.apply manager earlier) later ⊆
      pinnedIdentities manager (earlier ++ later) := by
  induction earlier generalizing manager with
  | nil => exact Finset.Subset.refl _
  | cons op rest induction =>
    exact (induction (op.apply manager)).trans Finset.subset_union_right

theorem PinsAdvance.keeps {vouched : Bytes 32 → Bytes mlDsaPubBytes → Prop}
    {before after : PinTable} (advance : PinsAdvance vouched before after)
    (few : (before.keys.toFinset ∪ after.keys.toFinset).card ≤ maxPqPins)
    (pinned : before.lookup id = some key) :
    after.lookup id = some key := by
  rcases advance with rfl | ⟨added, addedKey, _, unknown, adds⟩
  · exact pinned
  · have distinct : id ≠ added := by
      rintro rfl
      rw [unknown] at pinned
      cases pinned
    have absent : added ∉ before.keys.toFinset := by
      rw [List.mem_toFinset]
      exact AList.lookup_eq_none.mp unknown
    have present : added ∈ after.keys.toFinset := by
      rw [List.mem_toFinset]
      apply AList.lookup_isSome.mp
      rw [adds.lookup_self]
      rfl
    have larger :
        insert added before.keys.toFinset ⊆ before.keys.toFinset ∪
          after.keys.toFinset :=
      Finset.insert_subset (Finset.mem_union_right _ present)
        Finset.subset_union_left
    have counted := Finset.card_le_card larger
    rw [Finset.card_insert_of_notMem absent,
      List.toFinset_card_of_nodup before.keys_nodup] at counted
    rw [adds.lookup_of_room (by omega) distinct]
    exact pinned

theorem lookup_run_of_few {ops later : List (ManagerOp P)}
    (few : (pinnedIdentities manager (ops ++ later)).card ≤ maxPqPins)
    (pinned : manager.pqPins.lookup id = some key) :
    (run ManagerOp.apply manager ops).pqPins.lookup id = some key := by
  induction ops generalizing manager with
  | nil => exact pinned
  | cons op rest induction =>
    have fewAfter :
        (pinnedIdentities (op.apply manager) (rest ++ later)).card ≤
          maxPqPins :=
      (Finset.card_le_card Finset.subset_union_right).trans few
    have fewHere :
        (manager.pqPins.keys.toFinset ∪
          (op.apply manager).pqPins.keys.toFinset).card ≤ maxPqPins :=
      (Finset.card_le_card
        (Finset.union_subset_union_right
          (keys_subset_pinnedIdentities (op.apply manager)
            (rest ++ later)))).trans few
    exact induction fewAfter
      ((pinsAdvance_apply manager op).keeps fewHere pinned)

/-- Every pin was there at the start or comes from a signed message. -/
theorem pin_origin_run (manager : SessionManager P) (ops : List (ManagerOp P))
    (pinned : (run ManagerOp.apply manager ops).pqPins.lookup id = some key) :
    manager.pqPins.lookup id = some key ∨ ∃ op ∈ ops, op.Vouches id key := by
  induction ops generalizing manager with
  | nil => exact Or.inl pinned
  | cons op rest induction =>
    rcases induction (op.apply manager) pinned with
      held | ⟨later, member, voucher⟩
    · rcases pinsAdvance_apply manager op with
        same | ⟨added, addedKey, voucher, _, adds⟩
      · rw [same] at held
        exact Or.inl held
      · rcases adds.origin held with ⟨rfl, rfl⟩ | before
        · exact Or.inr ⟨op, by simp, voucher⟩
        · exact Or.inl before
    · exact Or.inr ⟨later, by simp [member], voucher⟩

/--
Trust on first use: in every run in which at most `MAX_PQ_PINS` identities
are ever pinned, the accepted messages of one identity all carry one ML-DSA
key, and from an empty table every pin was vouched for by a message.
-/
theorem trust_on_first_use (start : SessionManager P) (ops : List (ManagerOp P))
    (few : (pinnedIdentities start ops).card ≤ maxPqPins) :
    (∀ (earlier middle later : List (ManagerOp P))
        (first second : ManagerOp P) (id : Bytes 32)
        (key other : Bytes mlDsaPubBytes),
      ops = earlier ++ first :: (middle ++ second :: later) →
        first.Accepts (run ManagerOp.apply start earlier) id key →
          second.Accepts
              (run ManagerOp.apply start (earlier ++ first :: middle))
              id other →
            key = other) ∧
      (start.pqPins = ∅ →
        ∀ (earlier later : List (ManagerOp P)) (id : Bytes 32)
          (key : Bytes mlDsaPubBytes),
        ops = earlier ++ later →
          (run ManagerOp.apply start earlier).pqPins.lookup id = some key →
            ∃ op ∈ earlier, op.Vouches id key) := by
  constructor
  · intro earlier middle later first second id key other split accepted
      acceptedLater
    subst split
    have fewLater :
        (pinnedIdentities (first.apply (run ManagerOp.apply start earlier))
          ((middle ++ [second]) ++ later)).card ≤ maxPqPins := by
      refine (Finset.card_le_card ?_).trans few
      rw [List.append_assoc]
      exact Finset.subset_union_right.trans
        (pinnedIdentities_suffix_subset start earlier
          (first :: (middle ++ second :: later)))
    have kept := lookup_run_of_few fewLater accepted.lookup
    have pinned := acceptedLater.lookup
    rw [run_append, run_cons] at pinned
    rw [run_append, run_cons, run_nil, pinned] at kept
    exact (Option.some.inj kept).symm
  · intro fresh earlier later id key _ pinned
    rcases pin_origin_run start earlier pinned with held | vouched
    · rw [fresh] at held
      cases held
    · exact vouched

end Pinning

theorem sampleHandling_accepts :
    sampleHandling.Accepts (sampleManager 2) (sampleInit 1 2).edPub
      (sampleInit 1 2).mlDsaPub := by
  rcases (sampleManager_expectsInit 1 2 (sampleSurroundings 20 21) rfl).admits
      Primitives.transparent_signaturesVerify
      Primitives.transparent_kemCorrect (Bytes.replicate 32 10) with
    ⟨_, _, admits, _⟩
  exact accepts_of_admitsInit (HandshakeMessage.decode_encode _) admits

/-- A node that handles one Init twice accepts one key for its sender. -/
theorem trust_on_first_use_twice :
    (pinnedIdentities (sampleManager 2)
        [sampleHandling, sampleHandling]).card ≤ maxPqPins ∧
      (∃ key,
        sampleHandling.Accepts (sampleManager 2) (sampleInit 1 2).edPub key ∧
          ∀ other,
            sampleHandling.Accepts
                (run ManagerOp.apply (sampleManager 2) [sampleHandling])
                (sampleInit 1 2).edPub other →
              key = other) ∧
      ∀ key,
        (run ManagerOp.apply (sampleManager 2)
            [sampleHandling, sampleHandling]).pqPins.lookup
              (sampleInit 1 2).edPub = some key →
          ∃ op ∈ [sampleHandling, sampleHandling],
            op.Vouches (sampleInit 1 2).edPub key := by
  have few :
      (pinnedIdentities (sampleManager 2)
        [sampleHandling, sampleHandling]).card ≤ maxPqPins := by
    decide +kernel
  have holds :=
    trust_on_first_use (sampleManager 2) [sampleHandling, sampleHandling] few
  refine ⟨few, ⟨_, sampleHandling_accepts, ?_⟩, ?_⟩
  · intro other accepted
    exact holds.1 [] [] [] sampleHandling sampleHandling _ _ other rfl
      sampleHandling_accepts accepted
  · intro key pinned
    exact holds.2 rfl [sampleHandling, sampleHandling] [] _ key rfl pinned

end Norn.Session
