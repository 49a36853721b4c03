import Norn.Sphinx.Cell

/-!
# A cell reaches the end of its path

The header that is left when a hop has taken its layer off is the header that
was built for the next hop, byte for byte: each header ends with the filler of
the hops before it.  The payload loses one layer at every hop.  So every hop
but the last forwards the cell that was built for the next hop, and the last
one delivers the traffic.
-/

namespace Norn.Sphinx

open Foundation Packet LayeredHeader

section Payload

variable (S : SphinxCrypto)

variable {n : Nat}

theorem lionessLeft_lionessLeft (key : Bytes 32) (l : Bytes lionessL)
    (r : Bytes n) :
    lionessLeft S key (lionessLeft S key l r) r = l :=
  Bytes.xor_xor l _

theorem lionessRight_lionessRight (key : Bytes 32) (l : Bytes lionessL)
    (r : Bytes n) :
    lionessRight S key l (lionessRight S key l r) = r :=
  Bytes.xor_xor r _

theorem lionessDecrypt_lionessEncrypt (s : Bytes 32)
    (buf : Bytes (lionessL + n)) :
    lionessDecrypt S s (lionessEncrypt S s buf) = buf := by
  simp only [lionessDecrypt, lionessEncrypt, Bytes.front_append,
    Bytes.back_append, lionessLeft_lionessLeft,
    lionessRight_lionessRight]
  exact Bytes.append_front_back buf

theorem lionessEncrypt_lionessDecrypt (s : Bytes 32)
    (buf : Bytes (lionessL + n)) :
    lionessEncrypt S s (lionessDecrypt S s buf) = buf := by
  simp only [lionessDecrypt, lionessEncrypt, Bytes.front_append,
    Bytes.back_append, lionessLeft_lionessLeft,
    lionessRight_lionessRight]
  exact Bytes.append_front_back buf

/--
The wide-block cipher permutes the buffers of every length, whatever the key
stream and the MAC are.
-/
theorem lioness_is_permutation (s : Bytes 32) (n : Nat)
    (buf : Bytes (lionessL + n)) :
    lionessDecrypt S s (lionessEncrypt S s buf) = buf ∧
      lionessEncrypt S s (lionessDecrypt S s buf) = buf ∧
      (lionessEncrypt S s buf).toList.length = buf.toList.length ∧
      (lionessDecrypt S s buf).toList.length = buf.toList.length :=
  ⟨lionessDecrypt_lionessEncrypt S s buf, lionessEncrypt_lionessDecrypt S s buf,
    by rw [Bytes.length_toList, Bytes.length_toList],
    by rw [Bytes.length_toList, Bytes.length_toList]⟩

theorem deliver_innerPayload {P : Primitives} (draws : SphinxDraws P)
    {traffic : List UInt8} (fits : traffic.length ≤ maxTrafficLen) :
    deliver (innerPayload draws traffic fits) = .ok (.deliver traffic) := by
  have layout :
      (innerPayload draws traffic fits).toList =
        (u16ToLe (UInt16.ofNat traffic.length)).toList ++
          (traffic ++
            (List.range (maxTrafficLen - traffic.length)).map draws.pad) :=
    rfl
  have length :
      (innerPayload draws traffic fits).field 0 2 (by decide) =
        u16ToLe (UInt16.ofNat traffic.length) :=
    @Bytes.field_eq _ _ _ [] _ _ layout _ _ rfl
  have small : (UInt16.ofNat traffic.length).toNat = traffic.length := by
    rw [UInt16.toNat_ofNat']
    simp only [maxTrafficLen, payloadLen, lionessL, lionessR] at fits
    omega
  have room : ¬ payloadLen < 2 + traffic.length := by
    simp only [maxTrafficLen, payloadLen, lionessL, lionessR] at fits ⊢
    omega
  simp only [deliver, length, u16FromLe_u16ToLe, small, if_neg room]
  rw [layout, List.drop_left' (by simp), List.take_left' rfl]

end Payload

/-! ## The header -/

section Header

variable {P : Primitives} (S : SphinxCrypto) (draws : SphinxDraws P)

variable {filler : List UInt8}

theorem length_headerStream (secret : Bytes 32) :
    (headerStream S secret).length = betaLen + perHop :=
  Bytes.length_toList _

theorem take_headerStream (secret : Bytes 32) :
    (headerStream S secret).take betaLen =
      (chachaKeystream S (rhoKey S secret) betaLen).toList :=
  take_chachaKeystream S (rhoKey S secret) (Nat.le_add_right _ _)

theorem length_hopPayload (later : List Leg) :
    (hopPayload draws later).length = hopPayloadLen := by
  cases later with
  | nil =>
    rw [hopPayload, List.length_cons, Bytes.length_toList]
    rfl
  | cons next rest =>
    rw [hopPayload, List.length_cons, List.length_append, Bytes.length_toList,
      Bytes.length_toList]
    rfl

/-- What a hop takes off its header. -/
def slotFor (filler : List UInt8) (later : List Leg) : List UInt8 :=
  hopPayload draws later ++ (headerLoop S draws filler later).gamma.toList

theorem length_slotFor (filler : List UInt8) (later : List Leg) :
    (slotFor S draws filler later).length = perHop := by
  rw [slotFor, List.length_append, length_hopPayload, Bytes.length_toList]

theorem beta_headerLoop_cons (filler : List UInt8) (leg : Leg)
    (later : List Leg) :
    (headerLoop S draws filler (leg :: later)).beta =
      putFiller filler
        (LayeredHeader.wrap perHop betaLen (headerStream S leg.secret)
          (slotFor S draws filler later)
          (headerLoop S draws filler later).beta)
        later := by
  rw [LayeredHeader.wrap, take_headerStream]
  rfl

theorem gamma_headerLoop_cons (filler : List UInt8) (leg : Leg)
    (later : List Leg) :
    (headerLoop S draws filler (leg :: later)).gamma =
      S.mac16 (muKey S leg.secret)
        (headerLoop S draws filler (leg :: later)).beta :=
  rfl

theorem putFiller_nil {newbeta : List UInt8}
    (sized : newbeta.length = betaLen) :
    putFiller filler newbeta [] =
      newbeta.take (betaLen - filler.length) ++ filler := by
  cases filler with
  | nil =>
    simp only [putFiller, List.isEmpty_nil, if_true, List.length_nil,
      Nat.sub_zero, List.append_nil]
    rw [List.take_of_length_le (Nat.le_of_eq sized)]
  | cons byte rest => rfl

theorem length_wrap_slotFor (filler : List UInt8) (leg : Leg)
    (later : List Leg) {inner : List UInt8}
    (sized : inner.length = betaLen) :
    (LayeredHeader.wrap perHop betaLen (headerStream S leg.secret)
      (slotFor S draws filler later) inner).length = betaLen := by
  rw [LayeredHeader.wrap, length_xorInto, List.length_append,
    length_slotFor, List.length_take, sized]
  rfl

theorem fillerLoop_cons (filler : List UInt8) (leg : Leg) (legs : List Leg) :
    fillerLoop S filler (leg :: legs) =
      fillerLoop S (extendFiller perHop (headerStream S leg.secret) filler)
        legs :=
  rfl

/-- Enough room for the filler of the earlier hops and the slots to come. -/
def Room (filler : List UInt8) (legs : List Leg) : Prop :=
  filler.length + perHop * legs.length ≤ betaLen

theorem Room.extend {leg : Leg} {legs : List Leg}
    (room : Room filler (leg :: legs)) :
    Room (extendFiller perHop (headerStream S leg.secret) filler)
      legs := by
  unfold Room at *
  rw [length_extendFiller]
  rw [List.length_cons, Nat.mul_succ] at room
  omega

theorem Room.slot {leg : Leg} {legs : List Leg}
    (room : Room filler (leg :: legs)) :
    filler.length + perHop ≤ betaLen := by
  unfold Room at room
  rw [List.length_cons, Nat.mul_succ] at room
  omega

theorem beta_headerLoop_single (filler : List UInt8) (leg : Leg) :
    (headerLoop S draws filler [leg]).beta =
      (LayeredHeader.wrap perHop betaLen (headerStream S leg.secret)
            (slotFor S draws filler []) draws.beta.toList).take
          (betaLen - filler.length) ++
        filler := by
  rw [beta_headerLoop_cons]
  exact
    putFiller_nil
      (length_wrap_slotFor S draws filler leg [] (Bytes.length_toList _))

/--
Each header ends with the filler of the hops before it, and what a hop makes
of its header is its slot and the header of the next hop.
-/
theorem headerLoop_spec (leg : Leg) (later : List Leg)
    (room : Room filler (leg :: later)) :
    ∃ front,
      front.length = betaLen - filler.length ∧
        (headerLoop S draws (fillerLoop S filler (leg :: later).dropLast)
          (leg :: later)).beta =
          front ++ filler := by
  induction later generalizing leg filler with
  | nil =>
    refine ⟨_, ?_, beta_headerLoop_single S draws filler leg⟩
    rw [List.length_take,
      length_wrap_slotFor S draws filler leg [] (Bytes.length_toList _),
      Nat.min_eq_left (Nat.sub_le _ _)]
  | cons next rest induction =>
    rcases induction next (room.extend S) with ⟨front, sized, inner⟩
    rw [List.dropLast_cons_cons, fillerLoop_cons, beta_headerLoop_cons,
      putFiller, inner]
    rw [length_extendFiller] at sized
    have slot := room.slot
    exact
      (wrap_unwrap (length_headerStream S leg.secret)
        (length_slotFor S draws _ _) slot (by omega)).1

theorem unwrap_headerLoop (leg next : Leg) (rest : List Leg)
    (room : Room filler (leg :: next :: rest)) :
    let total := fillerLoop S filler (leg :: next :: rest).dropLast
    LayeredHeader.unwrap perHop (headerStream S leg.secret)
        (headerLoop S draws total (leg :: next :: rest)).beta =
      slotFor S draws total (next :: rest) ++
        (headerLoop S draws total (next :: rest)).beta := by
  rcases headerLoop_spec S draws next rest (room.extend S) with
    ⟨front, sized, inner⟩
  rw [List.dropLast_cons_cons, fillerLoop_cons]
  intro total
  rw [beta_headerLoop_cons, putFiller, inner]
  rw [length_extendFiller] at sized
  have slot := room.slot
  exact
    (wrap_unwrap (length_headerStream S leg.secret)
      (length_slotFor S draws _ _) slot (by omega)).2

theorem unwrap_headerLoop_single (leg : Leg) (room : Room filler [leg]) :
    (LayeredHeader.unwrap perHop (headerStream S leg.secret)
        (headerLoop S draws filler [leg]).beta).take perHop =
      slotFor S draws filler [] := by
  rw [beta_headerLoop_single]
  exact
    unwrap_front (length_headerStream S leg.secret)
      (length_slotFor S draws filler []) room.slot _

theorem length_beta_headerLoop (leg : Leg) (later : List Leg)
    (room : Room filler (leg :: later)) :
    (headerLoop S draws (fillerLoop S filler (leg :: later).dropLast)
      (leg :: later)).beta.length = betaLen := by
  rcases headerLoop_spec S draws leg later room with ⟨front, sized, layout⟩
  have slot := room.slot
  rw [layout, List.length_append, sized]
  omega

end Header

section Hop

variable {P : Primitives} (S : SphinxCrypto)

variable {s : Bytes 32}

theorem length_encodeCell (tag : Bytes 16) (epk : Bytes 32)
    (gamma : Bytes 16) (beta : Bytes betaLen)
    (payload : Bytes payloadLen) :
    (encodeCell tag epk gamma beta.toList payload).length = cellSize := by
  simp only [encodeCell, List.length_cons, List.length_append,
    Bytes.length_toList]
  rfl

theorem tag_encodeCell (tag : Bytes 16) (epk : Bytes 32)
    (gamma : Bytes 16) (beta : List UInt8) (payload : Bytes payloadLen) :
    ((encodeCell tag epk gamma beta payload).drop offTag).take tagLen =
      tag.toList :=
  List.take_left' tag.length_toList

theorem fields_encodeCell (tag : Bytes 16) (epk : Bytes 32)
    (gamma : Bytes 16) (beta : Bytes betaLen) (payload : Bytes payloadLen)
    (sized : (encodeCell tag epk gamma beta.toList payload).length = cellSize) :
    let fields : Bytes cellSize :=
      ⟨encodeCell tag epk gamma beta.toList payload, sized⟩
    fields.field offEpk epkLen (by decide) = epk ∧
      fields.field offGamma macLen (by decide) = gamma ∧
      fields.field offBeta betaLen (by decide) = beta ∧
      fields.field offPayload payloadLen (by decide) = payload := by
  intro fields
  have layout :
      fields.toList =
        onionSphinxType ::
          (tag.toList ++
            (epk.toList ++
              (gamma.toList ++ (beta.toList ++ payload.toList)))) :=
    rfl
  refine ⟨?_, ?_, ?_, ?_⟩
  · apply @Bytes.field_eq _ _ _ (onionSphinxType :: tag.toList) _ epk
    · rw [layout, List.cons_append]
    · simp only [List.length_cons, Bytes.length_toList]
      rfl
  · apply @Bytes.field_eq _ _ _ (onionSphinxType :: (tag.toList ++ epk.toList))
      _ gamma
    · rw [layout]
      simp only [List.cons_append, List.append_assoc]
      rfl
    · simp only [List.length_cons, List.length_append, Bytes.length_toList]
      rfl
  · apply @Bytes.field_eq _ _ _
      (onionSphinxType :: (tag.toList ++ (epk.toList ++ gamma.toList))) _
      beta
    · rw [layout]
      simp only [List.cons_append, List.append_assoc]
      rfl
    · simp only [List.length_cons, List.length_append, Bytes.length_toList]
      rfl
  · apply @Bytes.field_eq _ _ _
      (onionSphinxType ::
        (tag.toList ++ (epk.toList ++ (gamma.toList ++ beta.toList))))
      [] payload
    · rw [layout]
      simp only [List.cons_append, List.append_assoc, List.append_nil]
    · simp only [List.length_cons, List.length_append, Bytes.length_toList]
      rfl

theorem processSphinx_encodeCell (tag : Bytes 16) (epk : Bytes 32)
    (gamma : Bytes 16) (beta : Bytes betaLen) (payload : Bytes payloadLen)
    {onionPrivs : List P.StaticSecret}
    (found :
      onionPrivs.findSome? (matchingSecret S epk gamma beta.toList) = some s) :
    processSphinx S (encodeCell tag epk gamma beta.toList payload) onionPrivs =
      peel S s beta payload := by
  have sized := length_encodeCell tag epk gamma beta payload
  rcases fields_encodeCell tag epk gamma beta payload sized with
    ⟨epkRead, gammaRead, betaRead, payloadRead⟩
  have typed :
      (encodeCell tag epk gamma beta.toList payload).headD 0 =
        onionSphinxType :=
    rfl
  unfold processSphinx
  rw [dif_pos sized]
  simp only [epkRead, gammaRead, betaRead, payloadRead, typed, found,
    ne_eq, not_true_eq_false, if_false]

theorem macMatches_encodeCell (tag : Bytes 16) (epk : Bytes 32)
    (gamma : Bytes 16) (beta : Bytes betaLen) (payload : Bytes payloadLen)
    (priv : P.StaticSecret) :
    macMatches S (encodeCell tag epk gamma beta.toList payload) priv =
      (matchingSecret S epk gamma beta.toList priv).isSome := by
  have sized := length_encodeCell tag epk gamma beta payload
  rcases fields_encodeCell tag epk gamma beta payload sized with
    ⟨epkRead, gammaRead, betaRead, _⟩
  unfold macMatches
  rw [dif_pos sized]
  simp only [epkRead, gammaRead, betaRead]

theorem peel_forward {beta beta2 : Bytes betaLen} {payload : Bytes payloadLen}
    {nextTag : Bytes 16} {nextEpk : Bytes 32} {nextMac : Bytes 16}
    (unwrapped :
      LayeredHeader.unwrap perHop (headerStream S s) beta.toList =
        (flagForward :: (nextTag.toList ++ nextEpk.toList)) ++ nextMac.toList ++
          beta2.toList) :
    peel S s beta payload =
      .ok
        (.forward nextTag
          (encodeCell nextTag nextEpk nextMac beta2.toList
            (lionessDecrypt S s payload))) := by
  have layout :
      (unwrapHeader S s beta).toList =
        flagForward ::
          (nextTag.toList ++
            (nextEpk.toList ++ (nextMac.toList ++ beta2.toList))) := by
    change LayeredHeader.unwrap perHop _ _ = _
    rw [unwrapped]
    simp only [List.cons_append, List.append_assoc]
  have flag : (unwrapHeader S s beta).toList.headD 0 = flagForward := by
    rw [layout]
    rfl
  have tagRead :
      (unwrapHeader S s beta).field flagsLen tagLen (by decide) =
        nextTag := by
    apply @Bytes.field_eq _ _ _ [flagForward] _ nextTag
    · rw [layout]
      rfl
    · simp
  have epkRead :
      (unwrapHeader S s beta).field (flagsLen + tagLen) epkLen (by decide) =
        nextEpk := by
    apply @Bytes.field_eq _ _ _ (flagForward :: nextTag.toList) _ nextEpk
    · rw [layout, List.cons_append]
    · simp only [List.length_cons, Bytes.length_toList]
      rfl
  have macRead :
      (unwrapHeader S s beta).field hopPayloadLen macLen (by decide) =
        nextMac := by
    apply @Bytes.field_eq _ _ _
      (flagForward :: (nextTag.toList ++ nextEpk.toList)) _ nextMac
    · rw [layout]
      simp only [List.cons_append, List.append_assoc]
      rfl
    · simp only [List.length_cons, List.length_append, Bytes.length_toList]
      rfl
  have betaRead :
      (unwrapHeader S s beta).field perHop betaLen (by decide) =
        beta2 := by
    apply @Bytes.field_eq _ _ _
      (flagForward :: (nextTag.toList ++ (nextEpk.toList ++ nextMac.toList)))
      [] beta2
    · rw [layout]
      simp only [List.cons_append, List.append_assoc, List.append_nil]
    · simp only [List.length_cons, List.length_append, Bytes.length_toList]
      rfl
  have other : flagForward ≠ flagExit := by decide
  unfold peel
  simp only [flag, if_neg other, if_true, forward, tagRead, epkRead, macRead,
    betaRead]

theorem peel_exit {beta : Bytes betaLen} {payload : Bytes payloadLen}
    {slot : List UInt8}
    (unwrapped :
      (LayeredHeader.unwrap perHop (headerStream S s) beta.toList).take perHop =
        flagExit :: slot) :
    peel S s beta payload = deliver (lionessDecrypt S s payload) := by
  have flag : (unwrapHeader S s beta).toList.headD 0 = flagExit := by
    change
      (LayeredHeader.unwrap perHop (headerStream S s) beta.toList).headD 0 =
        flagExit
    cases header : LayeredHeader.unwrap perHop (headerStream S s)
      beta.toList with
    | nil =>
      rw [header] at unwrapped
      cases unwrapped
    | cons first rest =>
      have width : perHop = 64 + 1 := rfl
      rw [header, width, List.take_succ_cons] at unwrapped
      exact (List.cons.inj unwrapped).1
  unfold peel
  simp only [flag, if_true]

end Hop

/-! ## The path -/

section Path

variable {P : Primitives} (S : SphinxCrypto)

/-- A hop, its onion key, and the other keys it tries. -/
structure HopKeys (P : Primitives) where
  tag : Bytes 16
  key : P.StaticSecret
  earlier : List P.StaticSecret
  later : List P.StaticSecret

/-- The hop as the sender knows it. -/
def HopKeys.hop (keys : HopKeys P) : SphinxHop where
  routingTag := keys.tag
  onionPub := P.x25519Public keys.key

/-- The list of keys that the hop tries. -/
def HopKeys.onionPrivs (keys : HopKeys P) : List P.StaticSecret :=
  keys.earlier ++ keys.key :: keys.later

/-- No key that is tried before the hop's own one matches the cell. -/
def HopKeys.First (keys : HopKeys P) (cell : List UInt8) : Prop :=
  ∀ priv ∈ keys.earlier, macMatches S cell priv = false

/--
A cell is processed in turn by the hops of a path: every hop but the last
forwards a cell of full size to the next hop, which carries its tag, and the
last one delivers the traffic.
-/
def CellTravels (traffic : List UInt8) : List (HopKeys P) → List UInt8 → Prop
  | [], _ => False
  | [exit], cell =>
    exit.First S cell →
      processSphinx S cell exit.onionPrivs = .ok (.deliver traffic)
  | hop :: next :: rest, cell =>
    hop.First S cell →
      ∃ nextCell,
        processSphinx S cell hop.onionPrivs = .ok (.forward next.tag nextCell) ∧
          nextCell.length = cellSize ∧
          (nextCell.drop offTag).take tagLen = next.tag.toList ∧
          CellTravels traffic (next :: rest) nextCell

/-- The legs of a path, each with the secret its hop can compute. -/
inductive Legs : List (HopKeys P) → List Leg → Prop
  | nil : Legs [] []
  | cons {keys : HopKeys P} {leg : Leg} {path : List (HopKeys P)}
      {legs : List Leg} (tagged : leg.hop.routingTag = keys.tag)
      (shared : P.diffieHellman keys.key leg.epk = leg.secret)
      (rest : Legs path legs) : Legs (keys :: path) (leg :: legs)

theorem legs_legsFrom (commutes : P.DhCommutes) (draws : SphinxDraws P)
    (path : List (HopKeys P)) (index : Nat) :
    Legs path (legsFrom draws index (path.map HopKeys.hop)) := by
  induction path generalizing index with
  | nil => exact Legs.nil
  | cons keys path induction =>
    exact Legs.cons rfl (commutes _ _) (induction (index + 1))

theorem length_legsFrom (draws : SphinxDraws P) (hops : List SphinxHop)
    (index : Nat) : (legsFrom draws index hops).length = hops.length := by
  induction hops generalizing index with
  | nil => rfl
  | cons hop hops induction =>
    simp only [legsFrom, List.length_cons, induction]

variable (draws : SphinxDraws P)

theorem exists_beta (leg : Leg) (later : List Leg) {filler : List UInt8}
    (room : Room filler (leg :: later)) :
    ∃ beta : Bytes betaLen,
      (headerLoop S draws (fillerLoop S filler (leg :: later).dropLast)
        (leg :: later)).beta =
        beta.toList :=
  ⟨⟨_, length_beta_headerLoop S draws leg later room⟩, rfl⟩

theorem findSome_matchingSecret {keys : HopKeys P} {leg : Leg}
    (shared : P.diffieHellman keys.key leg.epk = leg.secret)
    {tag : Bytes 16} {beta : Bytes betaLen} {payload : Bytes payloadLen}
    (first :
      keys.First S
        (encodeCell tag leg.epk (S.mac16 (muKey S leg.secret) beta.toList)
          beta.toList payload)) :
    keys.onionPrivs.findSome?
        (matchingSecret S leg.epk (S.mac16 (muKey S leg.secret) beta.toList)
          beta.toList) =
      some leg.secret := by
  have own :
      matchingSecret S leg.epk (S.mac16 (muKey S leg.secret) beta.toList)
        beta.toList keys.key =
        some leg.secret := by
    simp only [matchingSecret, shared, if_true]
  have none :
      keys.earlier.findSome?
          (matchingSecret S leg.epk (S.mac16 (muKey S leg.secret) beta.toList)
            beta.toList) =
        none := by
    rw [List.findSome?_eq_none_iff]
    intro priv member
    have silent := first priv member
    rw [macMatches_encodeCell, Option.isSome_eq_false_iff,
      Option.isNone_iff_eq_none] at silent
    exact silent
  rw [HopKeys.onionPrivs, List.findSome?_append, none, Option.none_or,
    List.findSome?_cons, own]

/-- A cell travels hop by hop along its legs to the traffic. -/
theorem travels_cellFor {traffic : List UInt8}
    (fits : traffic.length ≤ maxTrafficLen) {keys : HopKeys P}
    {path : List (HopKeys P)} {leg : Leg} {later : List Leg}
    (legs : Legs (keys :: path) (leg :: later)) {filler : List UInt8}
    (room : Room filler (leg :: later)) :
    CellTravels S traffic (keys :: path)
      (cellFor S draws (fillerLoop S filler (leg :: later).dropLast)
        (innerPayload draws traffic fits) leg later) := by
  induction later generalizing keys path leg filler with
  | nil =>
    cases legs with
    | cons tagged shared rest =>
      cases rest
      rcases exists_beta S draws leg [] room with ⟨beta, content⟩
      intro first
      simp only [cellFor, gamma_headerLoop_cons, content] at first ⊢
      rw [processSphinx_encodeCell S _ _ _ _ _
        (findSome_matchingSecret S shared first)]
      have unwrapped := unwrap_headerLoop_single S draws leg room
      have same : fillerLoop S filler [leg].dropLast = filler := rfl
      rw [same] at content
      rw [content] at unwrapped
      rw [peel_exit S unwrapped]
      simp only [payloadLoop, List.foldr_cons, List.foldr_nil,
        lionessDecrypt_lionessEncrypt]
      exact deliver_innerPayload draws fits
  | cons next rest induction =>
    cases legs with
    | cons tagged shared others =>
      cases others with
      | cons nextTagged nextShared remaining =>
        rcases exists_beta S draws leg (next :: rest) room with ⟨beta, content⟩
        rcases exists_beta S draws next rest (room.extend S) with
          ⟨beta2, nextContent⟩
        have unwrapped := unwrap_headerLoop S draws leg next rest room
        have onward :=
          induction (Legs.cons nextTagged nextShared remaining) (room.extend S)
        rw [List.dropLast_cons_cons, fillerLoop_cons] at content
        rw [List.dropLast_cons_cons, fillerLoop_cons] at unwrapped
        rw [List.dropLast_cons_cons, fillerLoop_cons]
        simp only [content, nextContent] at unwrapped
        intro first
        refine ⟨_, ?_, ?_, ?_, onward⟩
        · simp only [cellFor, gamma_headerLoop_cons, content, nextContent]
            at first ⊢
          rw [processSphinx_encodeCell S _ _ _ _ _
            (findSome_matchingSecret S shared first),
            peel_forward S unwrapped]
          simp only [payloadLoop, List.foldr_cons,
            lionessDecrypt_lionessEncrypt, nextTagged,
            gamma_headerLoop_cons, nextContent]
        · simp only [cellFor, nextContent, length_encodeCell]
        · simp only [cellFor, tag_encodeCell, nextTagged]

end Path

/--
For every path of one to five hops and all random choices, `build_sphinx`
succeeds on traffic that fits, and the cell travels along the path: every hop
but the last forwards a cell of full size with the tag of the next hop, and
the last one delivers the traffic.
-/
theorem buildSphinx_travels {P : Primitives} (commutes : P.DhCommutes)
    (S : SphinxCrypto) (draws : SphinxDraws P) (path : List (HopKeys P))
    (nonempty : path ≠ []) (short : path.length ≤ maxHops)
    (traffic : List UInt8) (fits : traffic.length ≤ maxTrafficLen) :
    ∃ cell,
      buildSphinx S draws (path.map HopKeys.hop) traffic = .ok cell ∧
        cell.length = cellSize ∧
        CellTravels S traffic path cell := by
  have legs := legs_legsFrom commutes draws path 0
  have count := length_legsFrom draws (path.map HopKeys.hop) 0
  have bounded : ¬ maxHops < (path.map HopKeys.hop).length := by
    rw [List.length_map]
    exact Nat.not_lt.mpr short
  cases path with
  | nil => exact (nonempty rfl).elim
  | cons keys path =>
    cases built : legsFrom draws 0 ((keys :: path).map HopKeys.hop) with
    | nil =>
      rw [built] at count
      cases count
    | cons leg later =>
      rw [built] at legs count
      have room : Room [] (leg :: later) := by
        rw [List.length_map] at count
        unfold Room
        rw [count, List.length_nil, Nat.zero_add]
        exact Nat.mul_le_mul_left perHop short
      rcases exists_beta S draws leg later room with ⟨beta, content⟩
      refine ⟨_, ?_, ?_, travels_cellFor S draws fits legs room⟩
      · simp only [buildSphinx, built, if_neg bounded, dif_pos fits]
      · simp only [cellFor, content, length_encodeCell]

/-- Stand-ins for the symmetric primitives. -/
def sampleSphinxCrypto : SphinxCrypto where
  blake2b256 input := Primitives.fit 32 input.reverse
  chacha20 key position := key.toList.getD (position % 32) 0
  mac16 key input := Primitives.fit 16 (key.toList.take 8 ++ input)
  mac32 key input := Primitives.fit 32 (key.toList.take 8 ++ input)

/-- The choices of a sender that draws small numbers. -/
def sampleSphinxDraws : SphinxDraws Primitives.transparent where
  ephemeral index := Bytes.replicate 32 (UInt8.ofNat (index + 1))
  beta := Bytes.replicate betaLen 9
  exitSlot := Bytes.replicate (tagLen + epkLen) 8
  pad _ := 7

/-- A hop that tries its key first. -/
def sampleSphinxHop (byte : UInt8) : HopKeys Primitives.transparent where
  tag := Bytes.replicate 16 byte
  key := Bytes.replicate 32 byte
  earlier := []
  later := []

/-- Two hops, and a message of three bytes. -/
theorem sample_cell_travels :
    ∃ cell,
      buildSphinx sampleSphinxCrypto sampleSphinxDraws
            ([sampleSphinxHop 20, sampleSphinxHop 30].map HopKeys.hop)
            [1, 2, 3] =
          .ok cell ∧
        cell.length = cellSize ∧
        CellTravels sampleSphinxCrypto [1, 2, 3]
          [sampleSphinxHop 20, sampleSphinxHop 30] cell :=
  buildSphinx_travels Primitives.transparent_dhCommutes
    sampleSphinxCrypto sampleSphinxDraws
    [sampleSphinxHop 20, sampleSphinxHop 30] (by simp) (by decide)
    [1, 2, 3] (by decide)

end Norn.Sphinx
