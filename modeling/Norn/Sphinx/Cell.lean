import Norn.Foundation.LayeredHeader
import Norn.Packet.Frames
import Norn.Primitives

/-!
# Onion cells of constant size

`build_sphinx` wraps traffic for a path of hops in a cell of 1280 bytes, and
`process_sphinx` takes one layer off.  A cell has a routing tag in the clear,
an ephemeral key, a MAC, a routing header with one layer for every hop, and a
payload under one layer of a wide-block cipher for every hop.

ChaCha20 is a stream of bytes for every key; the keyed and the plain BLAKE2b
are functions.  The random choices of the sender are arguments.
-/

namespace Norn.Sphinx

open Foundation Packet

/-! ## Layout -/

/-- `MAX_HOPS`. -/
abbrev maxHops : Nat := 5

/-- `EPK_LEN`. -/
abbrev epkLen : Nat := 32

/-- `TAG_LEN`. -/
abbrev tagLen : Nat := 16

/-- `MAC_LEN`. -/
abbrev macLen : Nat := 16

/-- `FLAGS_LEN`. -/
abbrev flagsLen : Nat := 1

/-- `HOP_PAYLOAD`. -/
abbrev hopPayloadLen : Nat := flagsLen + tagLen + epkLen

/-- `PER_HOP`. -/
abbrev perHop : Nat := hopPayloadLen + macLen

/-- `BETA_LEN`. -/
abbrev betaLen : Nat := perHop * maxHops

/-- `CELL_SIZE`. -/
abbrev cellSize : Nat := 1280

/-- `LIONESS_L`. -/
abbrev lionessL : Nat := 32

/-- The part of the payload behind the left half of the cipher. -/
abbrev lionessR : Nat := 858

/-- `PAYLOAD_LEN`. -/
abbrev payloadLen : Nat := lionessL + lionessR

/-- `FLAG_FORWARD`. -/
def flagForward : UInt8 := 0

/-- `FLAG_EXIT`. -/
def flagExit : UInt8 := 1

/-- `OFF_TAG`. -/
abbrev offTag : Nat := 1

/-- `OFF_EPK`. -/
abbrev offEpk : Nat := offTag + tagLen

/-- `OFF_GAMMA`. -/
abbrev offGamma : Nat := offEpk + epkLen

/-- `OFF_BETA`. -/
abbrev offBeta : Nat := offGamma + macLen

/-- `OFF_PAYLOAD`. -/
abbrev offPayload : Nat := offBeta + betaLen

/-- `MAX_TRAFFIC_LEN`. -/
abbrev maxTrafficLen : Nat := payloadLen - 2

/-- `SphinxHop`. -/
structure SphinxHop where
  routingTag : Bytes 16
  onionPub : Bytes 32
  deriving DecidableEq

/-- `SphinxPeeled`. -/
inductive SphinxPeeled where
  | forward (nextTag : Bytes 16) (cell : List UInt8)
  | deliver (traffic : List UInt8)
  deriving DecidableEq

/-- What goes wrong when a cell is built or processed. -/
inductive SphinxError where
  | hopCount (count : Nat)
  | trafficTooLong (length : Nat)
  | cellLength (length : Nat)
  | wrongType (byte : UInt8)
  | macMismatch
  | badInnerLength (length : Nat)
  | unknownFlags (byte : UInt8)
  deriving DecidableEq, Repr

/-! ## Keys and streams -/

/-- The symmetric primitives of the format. -/
structure SphinxCrypto where
  /-- `Blake2b` with a digest of 32 bytes. -/
  blake2b256 : List UInt8 → Bytes 32
  /-- The key stream of `ChaCha20` under the zero nonce. -/
  chacha20 : Bytes 32 → Nat → UInt8
  /-- `Blake2bMac` with 16 bytes. -/
  mac16 : Bytes 32 → List UInt8 → Bytes 16
  /-- `Blake2bMac` with 32 bytes. -/
  mac32 : Bytes 32 → List UInt8 → Bytes 32

section Ciphers

variable (S : SphinxCrypto)

/-- `kdf`. -/
def kdf (label : String) (s : Bytes 32) : Bytes 32 :=
  S.blake2b256 (asciiBytes label ++ s.toList)

/-- `rho_key`. -/
def rhoKey (s : Bytes 32) : Bytes 32 := kdf S "norn-sphinx:rho:v1" s

/-- `mu_key`. -/
def muKey (s : Bytes 32) : Bytes 32 := kdf S "norn-sphinx:mu:v1" s

/-- `chacha_keystream`. -/
def chachaKeystream (key : Bytes 32) (count : Nat) : Bytes count :=
  ⟨(List.range count).map (S.chacha20 key), by simp⟩

theorem toList_chachaKeystream (key : Bytes 32) (count : Nat) :
    (chachaKeystream S key count).toList =
      (List.range count).map (S.chacha20 key) :=
  rfl

theorem take_chachaKeystream (key : Bytes 32) {short long : Nat}
    (shorter : short ≤ long) :
    (chachaKeystream S key long).toList.take short =
      (chachaKeystream S key short).toList := by
  rw [toList_chachaKeystream, toList_chachaKeystream, ← List.map_take,
    List.take_range, Nat.min_eq_left shorter]

/-- `R ^= S(L ^ k)`, a round of the wide-block cipher. -/
def lionessRight {n : Nat} (key : Bytes 32) (l : Bytes lionessL)
    (r : Bytes n) : Bytes n :=
  r.xor (chachaKeystream S (l.xor key) n)

/-- `L ^= H(k, R)`, a round of the wide-block cipher. -/
def lionessLeft {n : Nat} (key : Bytes 32) (l : Bytes lionessL)
    (r : Bytes n) : Bytes lionessL :=
  l.xor (S.mac32 key r.toList)

/-- The four keys of the wide-block cipher. -/
structure LionessKeys where
  first : Bytes 32
  second : Bytes 32
  third : Bytes 32
  fourth : Bytes 32

/-- `lioness_keys`. -/
def lionessKeys (s : Bytes 32) : LionessKeys where
  first := kdf S "norn-sphinx:lion1:v1" s
  second := kdf S "norn-sphinx:lion2:v1" s
  third := kdf S "norn-sphinx:lion3:v1" s
  fourth := kdf S "norn-sphinx:lion4:v1" s

/-- `lioness_encrypt`. -/
def lionessEncrypt {n : Nat} (s : Bytes 32)
    (buf : Bytes (lionessL + n)) : Bytes (lionessL + n) :=
  let k := lionessKeys S s
  let l : Bytes lionessL := buf.front
  let r : Bytes n := buf.back
  let r := lionessRight S k.first l r
  let l := lionessLeft S k.second l r
  let r := lionessRight S k.third l r
  let l := lionessLeft S k.fourth l r
  l.append r

/-- `lioness_decrypt`. -/
def lionessDecrypt {n : Nat} (s : Bytes 32)
    (buf : Bytes (lionessL + n)) : Bytes (lionessL + n) :=
  let k := lionessKeys S s
  let l : Bytes lionessL := buf.front
  let r : Bytes n := buf.back
  let l := lionessLeft S k.fourth l r
  let r := lionessRight S k.third l r
  let l := lionessLeft S k.second l r
  let r := lionessRight S k.first l r
  l.append r

end Ciphers

/-! ## Building a cell -/

section Build

variable (P : Primitives) (S : SphinxCrypto)

/-- The random choices of `build_sphinx`. -/
structure SphinxDraws where
  ephemeral : Nat → P.StaticSecret
  /-- What the header starts from. -/
  beta : Bytes betaLen
  /-- What stands behind the flag in the slot of the exit. -/
  exitSlot : Bytes (tagLen + epkLen)
  /-- What follows the traffic in the payload. -/
  pad : Nat → UInt8

/-- A hop of the path, with its ephemeral key and its shared secret. -/
structure Leg where
  hop : SphinxHop
  epk : Bytes 32
  secret : Bytes 32

variable {P}

/-- The loop over the hops that draws the ephemeral keys. -/
def legsFrom (draws : SphinxDraws P) : Nat → List SphinxHop → List Leg
  | _, [] => []
  | index, hop :: hops =>
    { hop := hop
      epk := P.x25519Public (draws.ephemeral index)
      secret := P.diffieHellman (draws.ephemeral index) hop.onionPub } ::
      legsFrom draws (index + 1) hops

/-- The key stream of a routing header, with a slot behind its end. -/
def headerStream (secret : Bytes 32) : List UInt8 :=
  (chachaKeystream S (rhoKey S secret) (betaLen + perHop)).toList

/-- The loop that computes the filler. -/
def fillerLoop (filler : List UInt8) (legs : List Leg) : List UInt8 :=
  legs.foldl
    (fun filler leg =>
      LayeredHeader.extendFiller perHop (headerStream S leg.secret) filler)
    filler

/-- The routing header of a cell and its MAC. -/
structure RoutingHeader where
  gamma : Bytes macLen
  beta : List UInt8

/-- What a hop reads off its header, given the hops after it. -/
def hopPayload (draws : SphinxDraws P) : List Leg → List UInt8
  | [] => flagExit :: draws.exitSlot.toList
  | next :: _ =>
    flagForward :: (next.hop.routingTag.toList ++ next.epk.toList)

/-- The innermost header ends with the filler. -/
def putFiller (filler newbeta : List UInt8) : List Leg → List UInt8
  | [] =>
    if filler.isEmpty then
      newbeta
    else
      newbeta.take (betaLen - filler.length) ++ filler
  | _ :: _ => newbeta

/-- The loop that builds the header, from the last hop to the first. -/
def headerLoop (draws : SphinxDraws P) (filler : List UInt8) :
    List Leg → RoutingHeader
  | [] =>
    { gamma := Bytes.replicate macLen 0
      beta := draws.beta.toList }
  | leg :: later =>
    let inner := headerLoop draws filler later
    let slot := hopPayload draws later ++ inner.gamma.toList
    let newbeta :=
      xorInto (slot ++ inner.beta.take (betaLen - perHop))
        (chachaKeystream S (rhoKey S leg.secret) betaLen).toList
    let beta := putFiller filler newbeta later
    { gamma := S.mac16 (muKey S leg.secret) beta
      beta := beta }

/-- `[len:2 LE][traffic][random pad]`. -/
def innerPayload (draws : SphinxDraws P) (traffic : List UInt8)
    (fits : traffic.length ≤ maxTrafficLen) : Bytes payloadLen :=
  ⟨(u16ToLe (UInt16.ofNat traffic.length)).toList ++
      (traffic ++
        (List.range (maxTrafficLen - traffic.length)).map draws.pad), by
    simp only [List.length_append, Bytes.length_toList, List.length_map,
      List.length_range, maxTrafficLen, payloadLen, lionessL,
      lionessR] at fits ⊢
    omega⟩

/-- The loop that wraps the payload, from the last hop to the first. -/
def payloadLoop (inner : Bytes payloadLen) (legs : List Leg) :
    Bytes payloadLen :=
  legs.foldr (fun leg payload => lionessEncrypt S leg.secret payload) inner

/-- The fields of a cell on the wire. -/
def encodeCell (tag : Bytes 16) (epk : Bytes 32) (gamma : Bytes 16)
    (beta : List UInt8) (payload : Bytes payloadLen) : List UInt8 :=
  onionSphinxType ::
    (tag.toList ++ (epk.toList ++ (gamma.toList ++ (beta ++ payload.toList))))

/-- The cell for the first of the remaining hops. -/
def cellFor (draws : SphinxDraws P) (filler : List UInt8)
    (inner : Bytes payloadLen) (leg : Leg) (later : List Leg) :
    List UInt8 :=
  let header := headerLoop S draws filler (leg :: later)
  encodeCell leg.hop.routingTag leg.epk header.gamma header.beta
    (payloadLoop S inner (leg :: later))

/-- `build_sphinx`. -/
def buildSphinx (draws : SphinxDraws P) (hops : List SphinxHop)
    (traffic : List UInt8) : Except SphinxError (List UInt8) :=
  match legsFrom draws 0 hops with
  | [] => .error (.hopCount 0)
  | leg :: later =>
    if maxHops < hops.length then
      .error (.hopCount hops.length)
    else if fits : traffic.length ≤ maxTrafficLen then
      let filler := fillerLoop S [] (leg :: later).dropLast
      .ok
        (cellFor S draws filler (innerPayload draws traffic fits) leg later)
    else
      .error (.trafficTooLong traffic.length)

end Build

section Process

variable {P : Primitives} (S : SphinxCrypto)

/-- The secret that a private key shares with a cell, if its MAC matches. -/
def matchingSecret (epk : Bytes 32) (gamma : Bytes 16)
    (beta : List UInt8) (priv : P.StaticSecret) : Option (Bytes 32) :=
  let s := P.diffieHellman priv epk
  if S.mac16 (muKey S s) beta = gamma then some s else none

/-- One layer off the routing header. -/
def unwrapHeader (s : Bytes 32) (beta : Bytes betaLen) :
    Bytes (betaLen + perHop) :=
  ⟨LayeredHeader.unwrap perHop (headerStream S s) beta.toList, by
    simp [LayeredHeader.unwrap]⟩

/-- The exit reads the length and the traffic. -/
def deliver (pl : Bytes payloadLen) : Except SphinxError SphinxPeeled :=
  let origLen := (u16FromLe (pl.field 0 2 (by decide))).toNat
  if payloadLen < 2 + origLen then
    .error (.badInnerLength origLen)
  else
    .ok (.deliver ((pl.toList.drop 2).take origLen))

/-- A relay rewrites the tag and passes the rest on. -/
def forward (b : Bytes (betaLen + perHop)) (pl : Bytes payloadLen) :
    SphinxPeeled :=
  let nextTag : Bytes tagLen := b.field flagsLen tagLen (by decide)
  let nextEpk : Bytes epkLen := b.field (flagsLen + tagLen) epkLen (by decide)
  let nextMac : Bytes macLen := b.field hopPayloadLen macLen (by decide)
  let beta2 : Bytes betaLen := b.field perHop betaLen (by decide)
  .forward nextTag (encodeCell nextTag nextEpk nextMac beta2.toList pl)

/-- The hop takes a layer off the header and the payload, and obeys it. -/
def peel (s : Bytes 32) (beta : Bytes betaLen)
    (payload : Bytes payloadLen) : Except SphinxError SphinxPeeled :=
  let b := unwrapHeader S s beta
  let flags := b.toList.headD 0
  let pl := lionessDecrypt S s payload
  if flags = flagExit then
    deliver pl
  else if flags = flagForward then
    .ok (forward b pl)
  else
    .error (.unknownFlags flags)

/-- `process_sphinx`. -/
def processSphinx (cell : List UInt8) (onionPrivs : List P.StaticSecret) :
    Except SphinxError SphinxPeeled :=
  if sized : cell.length = cellSize then
    let fields : Bytes cellSize := ⟨cell, sized⟩
    let typeByte := cell.headD 0
    if typeByte ≠ onionSphinxType then
      .error (.wrongType typeByte)
    else
      let epk := fields.field offEpk epkLen (by decide)
      let gamma := fields.field offGamma macLen (by decide)
      let beta := fields.field offBeta betaLen (by decide)
      let payload := fields.field offPayload payloadLen (by decide)
      match onionPrivs.findSome? (matchingSecret S epk gamma beta.toList) with
      | none => .error .macMismatch
      | some s => peel S s beta payload
  else
    .error (.cellLength cell.length)

/-- The MAC of a cell matches the secret shared with a private key. -/
def macMatches (cell : List UInt8) (priv : P.StaticSecret) : Bool :=
  if sized : cell.length = cellSize then
    let fields : Bytes cellSize := ⟨cell, sized⟩
    (matchingSecret S (fields.field offEpk epkLen (by decide))
      (fields.field offGamma macLen (by decide))
      (fields.field offBeta betaLen (by decide)).toList priv).isSome
  else
    false

end Process

end Norn.Sphinx
