import Norn.Control.Tables
import Norn.Control.Topology
import Norn.Foundation.Flood

/-!
# Floods of path lookups

A router without a peer that claims the target hands a `PathLookup` to all
its landmarks or to all its peers, so one lookup becomes many.  What ends the
flood is `pending_lookups`: a router acts on the first copy of a lookup and
on no other, so it pays for the copies that it sends with the one entry that
it has not made yet.
-/

namespace Norn.Control

open Foundation Foundation.Run Packet Router Session

variable {P : Primitives} {C : Crates} {L : FilterOps}

/-- A copy of the lookup with the given id. -/
def ControlFrame.seeks (id : UInt64) : ControlFrame L → Bool
  | .pathLookup lookup => lookup.id = id
  | _ => false

/-- A reply to the lookup with the given id. -/
def ControlFrame.notifies (id : UInt64) : ControlFrame L → Bool
  | .pathNotify notify => notify.id = id
  | _ => false

namespace ControlState

variable {id : UInt64} {sends : Sent L} {self : ControlState P C L}

/-- The lookup is among the pending ones. -/
def Knows (self : ControlState P C L) (id : UInt64) : Prop :=
  (self.pendingLookups.lookup id).isSome = true

instance (self : ControlState P C L) (id : UInt64) :
    Decidable (self.Knows id) :=
  inferInstanceAs (Decidable (_ = true))

/-- Lookups and landmarks stay in order, and no lookup is sent. -/
structure Aside (before : ControlState P C L)
    (result : ControlState P C L × Sent L) : Prop where
  pendingLookups : result.1.pendingLookups = before.pendingLookups
  landmarks : before.landmarks.Nodup → result.1.landmarks.Nodup
  sends : ∀ out ∈ result.2, ∀ id, out.2.seeks id = false

variable (env : ControlEnv L) (self : ControlState P C L)

theorem eq_of_mem_sendToOthers {fromPeer : Bytes 32} {content frame}
    (member : frame ∈ self.sendToOthers env fromPeer content) :
    frame.2 = content := by
  rcases List.mem_map.mp member with ⟨_, _, rfl⟩
  rfl

theorem seeks_of_mem_dispatch {fromPeer : Bytes 32}
    {frame : ControlFrame L} (other : frame.kind ≠ .pathLookup)
    {out : Bytes 32 × ControlFrame L}
    (member : out ∈ (dispatch env fromPeer frame self).2) (id : UInt64) :
    out.2.seeks id = false := by
  cases frame with
  | sigReq req =>
    rw [eq_of_mem_sendToPeer member]
    rfl
  | pathLookup lookup => exact (other rfl).elim
  | pathNotify notify =>
    simp only [dispatch, handlePathNotify] at member
    split_ifs at member
    · cases member
    · cases hop : env.nextHop notify.source with
      | none =>
        rw [hop] at member
        cases member
      | some next =>
        rw [hop] at member
        rw [eq_of_mem_sendToPeer member]
        rfl
  | onionKeyAnnounce ann =>
    simp only [dispatch, handleOnionKeyAnnounce] at member
    split_ifs at member
    · rw [eq_of_mem_sendToOthers env self member]
      rfl
    · cases member
  | reputationReport report =>
    simp only [dispatch, handleReputationReport] at member
    split_ifs at member
    · rw [eq_of_mem_sendToOthers env self member]
      rfl
    · cases member
  | _ => cases member

theorem nodup_handleAnnounce (distinct : self.landmarks.Nodup)
    (fromPeer : Bytes 32) (ann : Announce) :
    (self.handleAnnounce env fromPeer ann).landmarks.Nodup := by
  unfold handleAnnounce
  split_ifs
  · exact distinct
  · cases treeIndex ann.treeId with
    | none => exact distinct
    | some tree => exact List.nodup_dedup _

theorem aside_dispatch (fromPeer : Bytes 32) {frame : ControlFrame L}
    (other : frame.kind ≠ .pathLookup) :
    Aside self (dispatch env fromPeer frame self) := by
  have reaches := reaches_dispatch env self fromPeer frame
  refine ⟨reaches.lookups other, fun distinct => ?_, fun out member =>
    seeks_of_mem_dispatch env self other member⟩
  by_cases announces : frame.kind = .announce
  · cases frame with
    | announce ann =>
      exact nodup_handleAnnounce env self distinct fromPeer ann
    | _ => cases announces
  · rw [reaches.landmarks announces]
    exact distinct

/-- Frames for distinct peers, all about one lookup, and one reply at most. -/
structure Forwards (router : ControlState P C L) (id : UInt64)
    (sends : Sent L) : Prop where
  distinct : (sends.map Prod.fst).Nodup
  peers : ∀ out ∈ sends, out.1 ∈ router.peers.keys
  about :
    ∀ out ∈ sends, ∀ other,
      out.2.seeks other = true ∨ out.2.notifies other = true → id = other
  reply : sends.countP (fun out => out.2.notifies id) ≤ 1

variable {self}

theorem forwards_sendToPeer {peer : Bytes 32} {content : ControlFrame L}
    (about :
      ∀ other, content.seeks other = true ∨ content.notifies other = true →
        id = other) :
    self.Forwards id (self.sendToPeer peer content) where
  distinct := by
    unfold sendToPeer
    split_ifs
    · exact List.nodup_singleton peer
    · exact List.nodup_nil
  peers _ member := mem_keys_of_mem_sendToPeer member
  about out member := by
    rw [eq_of_mem_sendToPeer member]
    exact about
  reply := by
    apply List.countP_le_length.trans
    unfold sendToPeer
    split_ifs
    · exact Nat.le_refl 1
    · exact Nat.zero_le 1

/-- Copies of a lookup for distinct peers. -/
theorem forwards_lookup {lookup : PathLookup}
    (distinct : (sends.map Prod.fst).Nodup)
    (copies :
      ∀ out ∈ sends, out.1 ∈ self.peers.keys ∧ out.2 = .pathLookup lookup) :
    self.Forwards lookup.id sends where
  distinct := distinct
  peers out member := (copies out member).1
  about out member other := by
    rw [(copies out member).2]
    simp [ControlFrame.seeks, ControlFrame.notifies]
  reply := by
    have none : sends.countP (fun out => out.2.notifies lookup.id) = 0 := by
      rw [List.countP_eq_zero]
      intro out member
      rw [(copies out member).2]
      simp [ControlFrame.notifies]
    omega

theorem targets_flatMap (content : ControlFrame L) (peers : List (Bytes 32)) :
    (peers.flatMap fun peer => self.sendToPeer peer content).map Prod.fst =
      peers.filter fun peer => (self.peers.lookup peer).isSome := by
  induction peers with
  | nil => rfl
  | cons peer peers induction =>
    rw [List.flatMap_cons, List.map_append, induction, List.filter_cons]
    unfold sendToPeer
    split_ifs <;> rfl

theorem forwards_forwardLookup (distinct : self.landmarks.Nodup)
    (fromPeer : Bytes 32) (lookup : PathLookup) :
    self.Forwards lookup.id (self.forwardLookup env fromPeer lookup) := by
  unfold forwardLookup
  cases self.bestClaimant env (routingTag P lookup.target) with
  | some best =>
    apply forwards_sendToPeer
    simp [ControlFrame.seeks, ControlFrame.notifies]
  | none =>
    dsimp only
    split_ifs
    · apply forwards_lookup
      · rw [sendToOthers, List.map_map]
        change (List.map id _).Nodup
        rw [List.map_id]
        exact ((env.order.perm _).nodup_iff.mpr self.peers.distinct).filter _
      · intro out member
        rcases List.mem_map.mp member with ⟨peer, chosen, rfl⟩
        exact ⟨(env.order.perm _).mem_iff.mp (List.mem_of_mem_filter chosen),
          rfl⟩
    · apply forwards_lookup
      · rw [targets_flatMap]
        exact (distinct.filter _).filter _
      · intro out member
        rcases List.mem_flatMap.mp member with ⟨landmark, _, sent⟩
        refine ⟨mem_keys_of_mem_sendToPeer sent, ?_⟩
        rw [eq_of_mem_sendToPeer sent]

/-- A router that knows a lookup is silent; one that does not may act. -/
theorem handlePathLookup_cases (distinct : self.landmarks.Nodup)
    (fromPeer : Bytes 32) (lookup : PathLookup) :
    self.handlePathLookup env fromPeer lookup = (self, []) ∨
      ¬self.Knows lookup.id ∧
        (self.handlePathLookup env fromPeer lookup).1 =
            { self with
              pendingLookups := self.pendingLookups.insert lookup.id env.now } ∧
          self.Forwards lookup.id
            (self.handlePathLookup env fromPeer lookup).2 := by
  unfold handlePathLookup
  split_ifs with refused own
  · exact Or.inl rfl
  · refine Or.inr ⟨?_, rfl, ?_⟩
    · intro knows
      exact refused (Bool.or_eq_true_iff.mpr (Or.inl knows))
    · exact forwards_sendToPeer
        (by simp [ControlFrame.seeks, ControlFrame.notifies])
  · refine Or.inr ⟨?_, rfl, ?_⟩
    · intro knows
      exact refused (Bool.or_eq_true_iff.mpr (Or.inl knows))
    · exact forwards_forwardLookup env distinct fromPeer lookup

/-- A router forwards a lookup at most once, when it first hears of it. -/
theorem dispatch_cases (id : UInt64) (distinct : self.landmarks.Nodup)
    (fromPeer : Bytes 32) (frame : ControlFrame L) :
    (∀ out ∈ (dispatch env fromPeer frame self).2,
        out.2.seeks id = false ∧
          (frame.seeks id = true → out.2.notifies id = false)) ∧
        (self.Knows id → (dispatch env fromPeer frame self).1.Knows id) ∨
      ¬self.Knows id ∧ (dispatch env fromPeer frame self).1.Knows id ∧
        self.Forwards id (dispatch env fromPeer frame self).2 := by
  by_cases other : frame.kind ≠ .pathLookup
  · have aside := aside_dispatch env self fromPeer other
    refine Or.inl ⟨?_, ?_⟩
    · intro out member
      refine ⟨aside.sends out member id, ?_⟩
      intro copy
      cases frame with
      | pathLookup lookup => exact (other rfl).elim
      | _ => cases copy
    · unfold Knows
      rw [aside.pendingLookups]
      exact fun knows => knows
  · cases frame with
    | pathLookup lookup =>
      change
        (∀ out ∈ (self.handlePathLookup env fromPeer lookup).2, _) ∧
            (_ → (self.handlePathLookup env fromPeer lookup).1.Knows _) ∨
          _ ∧ (self.handlePathLookup env fromPeer lookup).1.Knows _ ∧
            self.Forwards _ (self.handlePathLookup env fromPeer lookup).2
      rcases handlePathLookup_cases env distinct fromPeer lookup with
        silent | ⟨unknown, noted, forwards⟩
      · rw [silent]
        exact Or.inl ⟨nofun, fun knows => knows⟩
      · rw [noted]
        unfold Knows
        by_cases same : lookup.id = id
        · rw [same] at unknown forwards
          refine Or.inr ⟨unknown, ?_, forwards⟩
          rw [same, KeyedMap.lookup_insert_self]
          rfl
        · refine Or.inl ⟨?_, ?_⟩
          · intro out member
            have about := forwards.about out member id
            refine ⟨?_, ?_⟩
            · exact Bool.eq_false_iff.mpr fun seeks =>
                same (about (Or.inl seeks))
            · exact fun _ => Bool.eq_false_iff.mpr fun notifies =>
                same (about (Or.inr notifies))
          · intro knows
            rw [KeyedMap.lookup_insert_ne (Ne.symm same)]
            exact knows
    | _ => exact (other nofun).elim

theorem nodup_landmarks_dispatch (distinct : self.landmarks.Nodup)
    (fromPeer : Bytes 32) (frame : ControlFrame L) :
    (dispatch env fromPeer frame self).1.landmarks.Nodup := by
  by_cases other : frame.kind ≠ .pathLookup
  · exact (aside_dispatch env self fromPeer other).landmarks distinct
  · cases frame with
    | pathLookup lookup =>
      change (self.handlePathLookup env fromPeer lookup).1.landmarks.Nodup
      rcases handlePathLookup_cases env distinct fromPeer lookup with
        silent | ⟨_, noted, _⟩
      · rw [silent]
        exact distinct
      · rw [noted]
        exact distinct
    | _ => exact (other nofun).elim

/-- A router answers the frames of others by `dispatch`. -/
def react :
    React (Bytes 32) (ControlState P C L) (ControlFrame L) (ControlEnv L) :=
  fun env self fromPeer frame => dispatch env fromPeer frame self

/-- Landmarks are a set, and peers are no more than they were. -/
def WithinDegree (degree : Bytes 32 → Nat) (address : Bytes 32)
    (self : ControlState P C L) : Prop :=
  self.landmarks.Nodup ∧ self.peers.keys.length ≤ degree address

/-- What a router has left for a lookup. -/
def lookupBudget (id : UInt64) (bound : Bytes 32 → Nat)
    (address : Bytes 32) (self : ControlState P C L) : Nat :=
  if self.Knows id then 0 else bound address

theorem pays_of_forwards {id : UInt64} {degree bound : Bytes 32 → Nat}
    {tally :
      Letter (Bytes 32) (ControlFrame L) →
        List (Letter (Bytes 32) (ControlFrame L)) → Nat}
    (quiet :
      ∀ (letter : Letter (Bytes 32) (ControlFrame L))
        (answers : List (Letter (Bytes 32) (ControlFrame L))),
        (∀ reply ∈ answers,
          reply.frame.seeks id = false ∧
            (letter.frame.seeks id = true → reply.frame.notifies id = false)) →
          tally letter answers = 0)
    (busy :
      ∀ (self : ControlState P C L) (sends : Sent L)
        (letter : Letter (Bytes 32) (ControlFrame L)),
        WithinDegree degree letter.target self → self.Forwards id sends →
          tally letter (sends.map fun out => ⟨letter.target, out.1, out.2⟩) ≤
            bound letter.target) :
    Mesh.Pays (react : React _ (ControlState P C L) _ _)
      (WithinDegree degree) tally (lookupBudget id bound) where
  unanswered letter := quiet letter [] nofun
  keeps := by
    rintro environment self letter ⟨distinct, few⟩
    refine ⟨nodup_landmarks_dispatch environment distinct _ _, ?_⟩
    change (dispatch environment _ _ self).1.peers.keys.length ≤ _
    rw [keys_dispatch]
    exact few
  pays := by
    intro environment self letter within
    rcases dispatch_cases environment id within.1 letter.source
        letter.frame with ⟨aside, kept⟩ | ⟨unknown, known, forwards⟩
    · have none :=
        quiet letter (Mesh.replies react environment self letter) (by
          intro reply member
          rcases List.mem_map.mp member with ⟨out, sent, rfl⟩
          exact aside out sent)
      rw [none, Nat.zero_add]
      unfold lookupBudget
      split_ifs with after before
      · exact Nat.zero_le _
      · exact Nat.zero_le _
      · exact (after (kept ‹_›)).elim
      · exact Nat.le_refl _
    · have few := busy self _ letter within forwards
      change (react environment self letter.source letter.frame).1.Knows id
        at known
      unfold lookupBudget
      rw [if_neg unknown, if_pos known]
      exact few

/--
Between frames a router may change in any way that does not clean up the
lookup and gives it no new peers.
-/
def KeepsLookup (id : UInt64)
    (mesh : Mesh (Bytes 32) (ControlState P C L) (ControlFrame L)) :
    MeshAction (Bytes 32) (ControlState P C L) (ControlEnv L) → Prop
  | .deliver _ _ => True
  | .lose _ => True
  | .change address router =>
    ∀ old, mesh.nodes.lookup address = some old →
      (old.Knows id → router.Knows id) ∧ router.landmarks.Nodup ∧
        router.peers.keys.length ≤ old.peers.keys.length

theorem saves_of_keepsLookup {degree bound : Bytes 32 → Nat}
    {mesh : Mesh (Bytes 32) (ControlState P C L) (ControlFrame L)}
    {action : MeshAction (Bytes 32) (ControlState P C L) (ControlEnv L)}
    (keeps : KeepsLookup id mesh action) :
    Mesh.Saves (WithinDegree degree) (lookupBudget id bound) mesh
      action := by
  cases action with
  | deliver index environment => trivial
  | lose index => trivial
  | change address router =>
    intro old present within
    rcases keeps old present with ⟨knows, distinct, fewer⟩
    refine ⟨⟨distinct, fewer.trans within.2⟩, ?_⟩
    unfold lookupBudget
    split_ifs with after before
    · exact Nat.le_refl 0
    · exact Nat.zero_le _
    · exact (after (knows ‹_›)).elim
    · exact Nat.le_refl _

/-- A letter by which a router hands a lookup on. -/
def lookupFrom (id : UInt64) (source target : Bytes 32)
    (letter : Letter (Bytes 32) (ControlFrame L)) : Bool :=
  letter.source = source && letter.target = target && letter.frame.seeks id

/-- A letter by which a router replies to a lookup. -/
def notifyFrom (id : UInt64) (source : Bytes 32)
    (letter : Letter (Bytes 32) (ControlFrame L)) : Bool :=
  letter.source = source && letter.frame.notifies id

/-- A letter that a router answers by lookups. -/
def forwardedBy (id : UInt64) (address : Bytes 32)
    (letter : Letter (Bytes 32) (ControlFrame L))
    (answers : List (Letter (Bytes 32) (ControlFrame L))) : Bool :=
  letter.target = address && answers.any fun reply => reply.frame.seeks id

theorem countP_forwards_le (forwards : self.Forwards id sends)
    (letter : Letter (Bytes 32) (ControlFrame L)) (source target : Bytes 32) :
    (sends.map fun out =>
        (⟨letter.target, out.1, out.2⟩ : Letter _ _)).countP
        (lookupFrom id source target) ≤
      if letter.target = source then 1 else 0 := by
  rw [List.countP_map]
  split_ifs with mine
  · calc
      sends.countP (lookupFrom id source target ∘ fun out =>
          ⟨letter.target, out.1, out.2⟩) ≤
          sends.countP ((· == target) ∘ Prod.fst) :=
        List.countP_mono_left (by
          intro out _ accepted
          simp only [Function.comp_apply, lookupFrom, Bool.and_eq_true,
            decide_eq_true_eq] at accepted
          exact beq_iff_eq.mpr accepted.1.2)
      _ = (sends.map Prod.fst).count target := (List.countP_map).symm
      _ ≤ 1 := List.nodup_iff_count_le_one.mp forwards.distinct target
  · rw [Nat.le_zero, List.countP_eq_zero]
    intro out _ accepted
    simp only [Function.comp_apply, lookupFrom, Bool.and_eq_true,
      decide_eq_true_eq] at accepted
    exact mine accepted.1.1

theorem countP_reply_le (forwards : self.Forwards id sends)
    (letter : Letter (Bytes 32) (ControlFrame L)) (source : Bytes 32) :
    (sends.map fun out =>
        (⟨letter.target, out.1, out.2⟩ : Letter _ _)).countP
        (notifyFrom id source) ≤
      if letter.target = source then 1 else 0 := by
  rw [List.countP_map]
  split_ifs with mine
  · refine le_trans (List.countP_mono_left ?_) forwards.reply
    intro out _ accepted
    exact (Bool.and_eq_true_iff.mp accepted).2
  · rw [Nat.le_zero, List.countP_eq_zero]
    intro out _ accepted
    exact mine (of_decide_eq_true (Bool.and_eq_true_iff.mp accepted).1)

theorem length_forwards_le (forwards : self.Forwards id sends) :
    sends.length ≤ self.peers.keys.length := by
  have within : sends.map Prod.fst ⊆ self.peers.keys := by
    intro peer member
    rcases List.mem_map.mp member with ⟨out, sent, rfl⟩
    exact forwards.peers out sent
  simpa using (List.subperm_of_subset forwards.distinct within).length_le

section Runs

variable {id : UInt64}
  {start : Mesh (Bytes 32) (ControlState P C L) (ControlFrame L)}
  {actions :
    List (MeshAction (Bytes 32) (ControlState P C L) (ControlEnv L))}
  {tally :
    Letter (Bytes 32) (ControlFrame L) →
      List (Letter (Bytes 32) (ControlFrame L)) → Nat}

/-- The peers that routers have at the start. -/
def startDegree (start : Mesh (Bytes 32) (ControlState P C L) (ControlFrame L))
    (address : Bytes 32) : Nat :=
  match start.nodes.lookup address with
  | none => 0
  | some router => router.peers.keys.length

theorem startDegree_eq {entry} (member : entry ∈ start.nodes.entries) :
    startDegree start entry.1 = entry.2.peers.keys.length := by
  unfold startDegree
  rw [AList.mem_lookup_iff.mpr member]

theorem allHold_start
    (distinct : ∀ entry ∈ start.nodes.entries, entry.2.landmarks.Nodup) :
    Mesh.AllHold (WithinDegree (startDegree start)) start.nodes :=
  fun entry member =>
    ⟨distinct entry member, (startDegree_eq member).ge⟩

/-- What a router does for a lookup it does only once. -/
theorem tallied_le_one (address : Bytes 32)
    (pays :
      Mesh.Pays (react : React _ (ControlState P C L) _ _)
        (WithinDegree (startDegree start)) tally
        (lookupBudget id fun other => if other = address then 1 else 0))
    (unused : start.handled = [])
    (distinct : ∀ entry ∈ start.nodes.entries, entry.2.landmarks.Nodup)
    (along : Along (Mesh.step react) (KeepsLookup id) start actions) :
    Mesh.tallied tally (run (Mesh.step react) start actions).handled ≤
      1 := by
  refine (pays.run (fun _ _ => saves_of_keepsLookup) unused
    (allHold_start distinct) along).trans ?_
  apply Mesh.budgets_single_le address
  intro other router
  unfold lookupBudget
  by_cases known : router.Knows id
  · rw [if_pos known]
    exact Nat.zero_le _
  · rw [if_neg known]

end Runs

end ControlState

open ControlState

/--
A flood of lookups ends: every router hands a lookup on in answer to one copy
at most, to every peer once at most, and replies to it once at most, so
besides the copies at the start there are no more than the routers have peers.
-/
theorem path_lookup_floods_end (id : UInt64)
    (start : Mesh (Bytes 32) (ControlState P C L) (ControlFrame L))
    (unused : start.handled = [])
    (distinct : ∀ entry ∈ start.nodes.entries, entry.2.landmarks.Nodup)
    (actions : List (MeshAction (Bytes 32) (ControlState P C L) (ControlEnv L)))
    (along : Along (Mesh.step react) (KeepsLookup id) start actions) :
    (∀ address,
      (run (Mesh.step react) start actions).handled.countP
        (fun entry => forwardedBy id address entry.1 entry.2) ≤ 1) ∧
      (∀ source target,
        (run (Mesh.step react) start actions).sent.countP
          (lookupFrom id source target) ≤ 1) ∧
      (∀ target,
        (((run (Mesh.step react) start actions).handled.filter fun entry =>
            entry.1.frame.seeks id).flatMap Prod.snd).countP
          (notifyFrom id target) ≤ 1) ∧
      (run (Mesh.step react) start actions).sent.countP
          (fun letter => letter.frame.seeks id) ≤
        (start.nodes.entries.map fun entry =>
          entry.2.peers.keys.length).sum := by
  refine ⟨?_, ?_, ?_, ?_⟩
  · intro address
    rw [Mesh.countP_handled (forwardedBy id address)]
    refine tallied_le_one address (pays_of_forwards ?_ ?_) unused distinct along
    · intro letter answers aside
      rw [Bool.toNat_eq_zero, Bool.eq_false_iff]
      intro forwarded
      rcases List.any_eq_true.mp (Bool.and_eq_true_iff.mp forwarded).2 with
        ⟨reply, member, seeks⟩
      rw [(aside reply member).1] at seeks
      cases seeks
    · intro self sends letter within forwards
      split_ifs with mine
      · exact Bool.toNat_le _
      · simp [forwardedBy, mine]
  · intro source target
    rw [Mesh.countP_sent]
    refine tallied_le_one source (pays_of_forwards ?_ ?_) unused distinct along
    · intro letter answers aside
      rw [List.countP_eq_zero]
      intro reply member accepted
      have seeks := (Bool.and_eq_true_iff.mp accepted).2
      rw [(aside reply member).1] at seeks
      cases seeks
    · intro self sends letter within forwards
      exact countP_forwards_le forwards letter source target
  · intro target
    rw [Mesh.countP_answers
      fun letter : Letter (Bytes 32) (ControlFrame L) =>
        letter.frame.seeks id]
    refine tallied_le_one target (pays_of_forwards ?_ ?_) unused distinct along
    · intro letter answers aside
      split_ifs with copy
      · rw [List.countP_eq_zero]
        intro reply member accepted
        have notifies := (Bool.and_eq_true_iff.mp accepted).2
        rw [(aside reply member).2 copy] at notifies
        cases notifies
      · rfl
    · intro self sends letter within forwards
      have few := countP_reply_le forwards letter target
      split_ifs at few ⊢ <;> omega
  · rw [Mesh.countP_sent]
    change
      _ ≤ Mesh.budgets (fun _ router => router.peers.keys.length) start.nodes
    refine
      ((@pays_of_forwards _ _ _ id (startDegree start) (startDegree start)
        _ ?_ ?_).run (fun _ _ => saves_of_keepsLookup) unused
        (allHold_start distinct) along).trans (Mesh.budgets_mono ?_)
    · intro letter answers aside
      rw [List.countP_eq_zero]
      intro reply member seeks
      rw [(aside reply member).1] at seeks
      cases seeks
    · intro self sends letter within forwards
      exact List.countP_le_length.trans
        ((List.length_map _).le.trans
          ((length_forwards_le forwards).trans within.2))
    · intro entry member
      unfold lookupBudget
      rw [startDegree_eq member]
      split_ifs
      · exact Nat.zero_le _
      · exact Nat.le_refl _

/-- A sample router with two peers and one with the first of them. -/
def floodedRouters : AList fun _ : Bytes 32 => SampleRouter :=
  (AList.singleton nearKey
    (((newRouter nearKey).addPeer (sampleAt 0 0) rootKey).addPeer
      (sampleAt 0 0) farKey)).insert farKey
    ((newRouter farKey).addPeer (sampleAt 0 0) nearKey)

/-- The root has sent a lookup for a router that nobody knows. -/
def floodedMesh :
    Mesh (Bytes 32) SampleRouter (ControlFrame sampleFilters) where
  nodes := floodedRouters
  flight :=
    [⟨rootKey, nearKey,
      .pathLookup
        { target := Bytes.replicate 32 9
          source := rootKey
          id := 7
          path := [] }⟩]
  handled := []

/-- The lookup takes one of the three links. -/
theorem small_flood_ends :
    (run (Mesh.step react) floodedMesh
        [.deliver 0 (sampleAt 0 0), .deliver 0 (sampleAt 0 0)]).sent.countP
          (fun letter => letter.frame.seeks 7) = 1 ∧
      (run (Mesh.step react) floodedMesh
        [.deliver 0 (sampleAt 0 0), .deliver 0 (sampleAt 0 0)]).sent.countP
          (fun letter => letter.frame.seeks 7) ≤ 3 := by
  constructor
  · decide +kernel
  · exact (path_lookup_floods_end 7 floodedMesh rfl (by decide +kernel)
      [.deliver 0 (sampleAt 0 0), .deliver 0 (sampleAt 0 0)]
      ⟨trivial, trivial, trivial⟩).2.2.2

end Norn.Control
