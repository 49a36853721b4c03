import Norn.Foundation.Bytes

/-!
# The cryptographic crates the node is built on

Everything the node takes from third-party crates is collected in
`Primitives`: X25519 (`x25519_dalek`), HKDF-SHA256, SHA-512 and BLAKE2b,
ChaCha20-Poly1305, Ed25519, ML-DSA-65 and ML-KEM-768.  Private keys and
random seeds are opaque; everything that goes on the wire is bytes.

What the node relies on is stated as separate predicates, so that every
result names exactly the assumptions it uses.  `transparent` is an executable
instance that satisfies all of them.
-/

namespace Norn

open Foundation

/-- The operations provided by the cryptographic crates. -/
structure Primitives where
  StaticSecret : Type
  x25519Public : StaticSecret → Bytes 32
  diffieHellman : StaticSecret → Bytes 32 → Bytes 32
  secretFromBytes : Bytes 32 → StaticSecret
  hkdfSha256 : Option (List UInt8) → List UInt8 → List UInt8 → Bytes 32
  sha512 : List UInt8 → Bytes 64
  blake2b128 : List UInt8 → Bytes 16
  aeadSeal : Bytes 32 → Bytes 12 → Bytes 32 → List UInt8 → Option (List UInt8)
  aeadOpen : Bytes 32 → Bytes 12 → Bytes 32 → List UInt8 → Option (List UInt8)
  SigningKey : Type
  signingKeyBytes : SigningKey → Bytes 32
  verifyingKey : SigningKey → Bytes 32
  edSign : SigningKey → List UInt8 → Bytes 64
  isVerifyingKey : Bytes 32 → Bool
  verifyStrict : Bytes 32 → List UInt8 → Bytes 64 → Bool
  edwardsToMontgomery : Bytes 32 → Option (Bytes 32)
  MlDsaKey : Type
  MlDsaSignature : Type
  mlDsaPublic : MlDsaKey → Bytes 1952
  mlDsaSign : MlDsaKey → List UInt8 → Bytes 3309
  mlDsaDecodeSignature : Bytes 3309 → Option MlDsaSignature
  mlDsaVerifies : Bytes 1952 → List UInt8 → MlDsaSignature → Bool
  DecapsulationKey : Type
  EncapsulationSeed : Type
  encapsulationKey : DecapsulationKey → Bytes 1184
  isEncapsulationKey : Bytes 1184 → Bool
  encapsulate : Bytes 1184 → EncapsulationSeed → Bytes 1088 × Bytes 32
  decapsulate : DecapsulationKey → Bytes 1088 → Bytes 32

namespace Primitives

/-! ## What the node relies on -/

/-- Both ends of an X25519 exchange compute the same shared secret. -/
def DhCommutes (P : Primitives) : Prop :=
  ∀ left right : P.StaticSecret,
    P.diffieHellman left (P.x25519Public right) =
      P.diffieHellman right (P.x25519Public left)

theorem length_clearHighBit (key : Bytes 32) :
    (key.toList.modify 31 (· &&& 0x7f)).length = 32 := by
  rw [List.length_modify, Bytes.length_toList]

/-- A public key without its most significant bit. -/
def clearHighBit (key : Bytes 32) : Bytes 32 :=
  ⟨key.toList.modify 31 (· &&& 0x7f), length_clearHighBit key⟩

/-- X25519 does not read the most significant bit of a public key. -/
def IgnoresHighBit (P : Primitives) : Prop :=
  ∀ priv key, P.diffieHellman priv (clearHighBit key) = P.diffieHellman priv key

/-- Private keys with one public key make the same shared secrets. -/
def DhFixed (P : Primitives) : Prop :=
  ∀ {one other}, P.x25519Public one = P.x25519Public other →
    P.diffieHellman one = P.diffieHellman other

/-- A sealed message opens under its own key, nonce and associated data. -/
structure AeadCorrect (P : Primitives) : Prop where
  opens :
    ∀ {key nonce aad plaintext sealed},
      P.aeadSeal key nonce aad plaintext = some sealed →
        P.aeadOpen key nonce aad sealed = some plaintext
  tagged :
    ∀ {key nonce aad plaintext sealed},
      P.aeadSeal key nonce aad plaintext = some sealed → 16 ≤ sealed.length

/-- A sealed message opens only under the key, nonce and data that made it. -/
def AeadIdeal (P : Primitives) : Prop :=
  ∀ {key nonce aad plaintext sealed otherKey otherNonce otherAad opened},
    P.aeadSeal key nonce aad plaintext = some sealed →
      P.aeadOpen otherKey otherNonce otherAad sealed = some opened →
        otherKey = key ∧ otherNonce = nonce ∧ otherAad = aad

theorem AeadIdeal.closed {P : Primitives} (ideal : P.AeadIdeal)
    {key otherKey : Bytes 32} {nonce otherNonce : Bytes 12}
    {aad otherAad : Bytes 32} {plaintext sealed : List UInt8}
    (wrapped : P.aeadSeal key nonce aad plaintext = some sealed)
    (different : otherKey ≠ key) :
    P.aeadOpen otherKey otherNonce otherAad sealed = none := by
  cases opened : P.aeadOpen otherKey otherNonce otherAad sealed with
  | none => rfl
  | some buf => exact (different (ideal wrapped opened).1).elim

/-- A sealed message is the message and a tag of 16 bytes. -/
def AeadTags (P : Primitives) : Prop :=
  ∀ {key nonce aad plaintext sealed},
    P.aeadSeal key nonce aad plaintext = some sealed →
      sealed.length = plaintext.length + 16

/-- Messages within the cipher's length limit can be sealed. -/
def AeadSealsShort (P : Primitives) : Prop :=
  ∀ key nonce aad plaintext,
    plaintext.length < 2 ^ 32 → (P.aeadSeal key nonce aad plaintext).isSome

/-- Both signature schemes accept what their own keys have signed. -/
structure SignaturesVerify (P : Primitives) : Prop where
  validKey : ∀ key, P.isVerifyingKey (P.verifyingKey key) = true
  ed25519 :
    ∀ key message,
      P.verifyStrict (P.verifyingKey key) message (P.edSign key message) = true
  mlDsa :
    ∀ key message,
      ∃ signature,
        P.mlDsaDecodeSignature (P.mlDsaSign key message) = some signature ∧
          P.mlDsaVerifies (P.mlDsaPublic key) message signature = true

/-- Decapsulating under the matching key returns the encapsulated secret. -/
structure KemCorrect (P : Primitives) : Prop where
  validKey : ∀ key, P.isEncapsulationKey (P.encapsulationKey key) = true
  decapsulates :
    ∀ key seed,
      P.decapsulate key (P.encapsulate (P.encapsulationKey key) seed).1 =
        (P.encapsulate (P.encapsulationKey key) seed).2

/-! ## A transparent instance -/

/-- Cut or zero-pad a byte string to a given length. -/
def fit (count : Nat) (bytes : List UInt8) : Bytes count :=
  ⟨(bytes ++ List.replicate count 0).take count, by
    simp [List.length_take, List.length_append]⟩

theorem toList_fit_append {count : Nat} (bytes : Bytes count)
    (rest : List UInt8) :
    fit count (bytes.toList ++ rest) = bytes := by
  apply Bytes.ext
  change ((bytes.toList ++ rest) ++ List.replicate count 0).take count =
    bytes.toList
  rw [List.append_assoc, List.take_left' bytes.length_toList]

/-- Bytewise sum. -/
def add {count : Nat} (left right : Bytes count) : Bytes count :=
  ⟨List.zipWith (· + ·) left.toList right.toList, by
    simp [List.length_zipWith]⟩

theorem add_comm {count : Nat} (left right : Bytes count) :
    add left right = add right left := by
  apply Bytes.ext
  change List.zipWith _ _ _ = List.zipWith _ _ _
  rw [List.zipWith_comm]
  congr
  funext first second
  exact UInt8.add_comm second first

/--
An instance in which keys are their own public halves, shared secrets are
bytewise sums and a sealed message spells out what it was sealed under.
-/
def transparent : Primitives where
  StaticSecret := Bytes 32
  x25519Public := id
  diffieHellman := add
  secretFromBytes := id
  hkdfSha256 := fun salt ikm _ =>
    add (fit 32 ikm) (fit 32 (salt.getD []))
  sha512 := fit 64
  blake2b128 := fun message => fit 16 (message.drop 10)
  aeadSeal := fun key nonce aad plaintext =>
    some (key.toList ++ (nonce.toList ++ (aad.toList ++ plaintext)))
  aeadOpen := fun key nonce aad sealed =>
    if sealed.take 76 = key.toList ++ (nonce.toList ++ aad.toList) then
      some (sealed.drop 76)
    else
      none
  SigningKey := Bytes 32
  signingKeyBytes := id
  verifyingKey := id
  edSign := fun key message =>
    fit 64 (key.toList ++ (fit 32 message).toList)
  isVerifyingKey := fun _ => true
  verifyStrict := fun key message signature =>
    decide (signature = fit 64 (key.toList ++ (fit 32 message).toList))
  edwardsToMontgomery := some
  MlDsaKey := Bytes 32
  MlDsaSignature := Bytes 3309
  mlDsaPublic := fun key => fit 1952 key.toList
  mlDsaSign := fun key message =>
    fit 3309 (key.toList ++ (fit 32 message).toList)
  mlDsaDecodeSignature := some
  mlDsaVerifies := fun key message signature =>
    decide (signature =
      fit 3309 (key.toList.take 32 ++ (fit 32 message).toList))
  DecapsulationKey := Bytes 32
  EncapsulationSeed := Bytes 32
  encapsulationKey := fun key => fit 1184 key.toList
  isEncapsulationKey := fun _ => true
  encapsulate := fun key seed =>
    (fit 1088 (key.toList.take 32 ++ seed.toList), seed)
  decapsulate := fun key ciphertext =>
    if ciphertext.toList.take 32 = key.toList then
      fit 32 (ciphertext.toList.drop 32)
    else
      add (fit 32 (ciphertext.toList.drop 32)) (Bytes.replicate 32 255)

theorem transparent_dhCommutes : transparent.DhCommutes := add_comm

theorem transparent_dhFixed : transparent.DhFixed := congrArg _

theorem transparent_aeadCorrect : transparent.AeadCorrect where
  opens := by
    intro key nonce aad plaintext sealed wrapped
    cases wrapped
    have front :
        key.toList ++ (nonce.toList ++ (aad.toList ++ plaintext)) =
          (key.toList ++ (nonce.toList ++ aad.toList)) ++ plaintext := by
      simp
    have width : (key.toList ++ (nonce.toList ++ aad.toList)).length = 76 := by
      simp
    simp only [transparent, front]
    rw [List.take_left' width, List.drop_left' width, if_pos rfl]
  tagged := by
    intro key nonce aad plaintext sealed wrapped
    cases wrapped
    simp
    omega

theorem transparent_aeadIdeal : transparent.AeadIdeal := by
  intro key nonce aad plaintext sealed otherKey otherNonce otherAad opened
    wrapped unwrapped
  cases wrapped
  have front :
      key.toList ++ (nonce.toList ++ (aad.toList ++ plaintext)) =
        (key.toList ++ (nonce.toList ++ aad.toList)) ++ plaintext := by
    simp
  have width : (key.toList ++ (nonce.toList ++ aad.toList)).length = 76 := by
    simp
  simp only [transparent, front] at unwrapped
  rw [List.take_left' width] at unwrapped
  split_ifs at unwrapped with same
  have keyEqual := List.append_inj same (by simp)
  have nonceEqual := List.append_inj keyEqual.2 (by simp)
  exact ⟨(Bytes.ext keyEqual.1).symm, (Bytes.ext nonceEqual.1).symm,
    (Bytes.ext nonceEqual.2).symm⟩

theorem transparent_aeadSealsShort : transparent.AeadSealsShort := by
  intro key nonce aad plaintext _
  rfl

theorem toList_fit_of_le {count : Nat} {bytes : List UInt8}
    (bounded : bytes.length ≤ count) :
    ∃ padding, (fit count bytes).toList = bytes ++ padding := by
  refine ⟨(List.replicate count 0).take (count - bytes.length), ?_⟩
  change (bytes ++ List.replicate count 0).take count = _
  rw [List.take_append, List.take_of_length_le bounded]

theorem take_fit_toList {count width : Nat} (bounded : width ≤ count)
    (bytes : Bytes width) :
    (fit count bytes.toList).toList.take width = bytes.toList := by
  obtain ⟨padding, content⟩ :=
    toList_fit_of_le (show bytes.toList.length ≤ count by simpa using bounded)
  rw [content, List.take_left' bytes.length_toList]

theorem transparent_signaturesVerify : transparent.SignaturesVerify where
  validKey := by
    intro key
    rfl
  ed25519 := by
    intro key message
    exact decide_eq_true rfl
  mlDsa := by
    intro key message
    refine ⟨transparent.mlDsaSign key message, rfl, ?_⟩
    apply decide_eq_true
    have front := take_fit_toList (show 32 ≤ 1952 by omega) (id key : Bytes 32)
    change
      fit 3309 (_ ++ _) =
        fit 3309 ((fit 1952 (id key : Bytes 32).toList).toList.take 32 ++ _)
    rw [front]
    rfl

theorem transparent_decapsulate (key seed : Bytes 32) :
    transparent.decapsulate key
      (fit 1088 ((fit 1184 key.toList).toList.take 32 ++ seed.toList)) =
      seed := by
  rw [take_fit_toList (show 32 ≤ 1184 by omega) key]
  obtain ⟨padding, content⟩ :=
    toList_fit_of_le (show (key.toList ++ seed.toList).length ≤ 1088 by simp)
  change
    (if (fit 1088 (key.toList ++ seed.toList)).toList.take 32 = key.toList then
      fit 32 ((fit 1088 (key.toList ++ seed.toList)).toList.drop 32)
    else _) = seed
  rw [content, List.append_assoc, List.take_left' key.length_toList,
    List.drop_left' key.length_toList, if_pos rfl, toList_fit_append]

theorem transparent_kemCorrect : transparent.KemCorrect where
  validKey := by
    intro key
    rfl
  decapsulates := by
    intro key seed
    exact transparent_decapsulate key seed

/-! ## An instance with short tags -/

/-- A key or associated data made of one byte, as that byte. -/
def uniformByte (bytes : Bytes 32) : Option UInt8 :=
  bytes.toList.head?.filter fun byte => bytes = Bytes.replicate 32 byte

theorem uniformByte_eq_some_iff (bytes : Bytes 32) (byte : UInt8) :
    uniformByte bytes = some byte ↔ bytes = Bytes.replicate 32 byte := by
  unfold uniformByte
  rw [Option.filter_eq_some_iff]
  simp only [decide_eq_true_eq]
  constructor
  · rintro ⟨_, same⟩
    exact same
  · intro same
    refine ⟨?_, same⟩
    rw [same]
    rfl

/-- The 16-byte tag that spells out a uniform key, a nonce and data. -/
def compactTag (key : Bytes 32) (nonce : Bytes 12) (aad : Bytes 32) :
    Option (List UInt8) :=
  match uniformByte key, uniformByte aad with
  | some keyByte, some aadByte =>
    some (keyByte :: aadByte :: 0 :: 0 :: nonce.toList)
  | _, _ => none

/--
The transparent instance with a cipher whose tag has the 16 bytes of
ChaCha20-Poly1305.  It seals under keys and data made of one byte only, so
that so short a tag can still tell them apart.
-/
def compact : Primitives :=
  { transparent with
    aeadSeal := fun key nonce aad plaintext =>
      (compactTag key nonce aad).map fun tag => tag ++ plaintext
    aeadOpen := fun key nonce aad sealed =>
      match compactTag key nonce aad with
      | none => none
      | some tag =>
        if sealed.take 16 = tag then some (sealed.drop 16) else none }

theorem compact_dhCommutes : compact.DhCommutes := add_comm

theorem compact_dhFixed : compact.DhFixed := congrArg _

theorem length_compactTag {key : Bytes 32} {nonce : Bytes 12} {aad : Bytes 32}
    {tag : List UInt8}
    (built : compactTag key nonce aad = some tag) : tag.length = 16 := by
  unfold compactTag at built
  split at built
  · cases built
    simp
  · cases built

theorem compactTag_injective {key otherKey : Bytes 32}
    {nonce otherNonce : Bytes 12} {aad otherAad : Bytes 32}
    {tag : List UInt8} (built : compactTag key nonce aad = some tag)
    (other : compactTag otherKey otherNonce otherAad = some tag) :
    otherKey = key ∧ otherNonce = nonce ∧ otherAad = aad := by
  unfold compactTag at built other
  split at built
  case h_2 => cases built
  case h_1 keyByte aadByte keyUniform aadUniform =>
    split at other
    case h_2 => cases other
    case h_1 otherKeyByte otherAadByte otherKeyUniform otherAadUniform =>
      rw [uniformByte_eq_some_iff] at keyUniform aadUniform
      rw [uniformByte_eq_some_iff] at otherKeyUniform otherAadUniform
      cases built
      simp only [Option.some.injEq, List.cons.injEq, true_and] at other
      rcases other with ⟨keys, aads, nonces⟩
      rw [keyUniform, aadUniform, otherKeyUniform, otherAadUniform, keys, aads]
      exact ⟨rfl, Bytes.ext nonces, rfl⟩

theorem compact_aeadCorrect : compact.AeadCorrect where
  opens := by
    intro key nonce aad plaintext sealed wrapped
    rcases Option.map_eq_some_iff.mp wrapped with ⟨tag, built, shape⟩
    have width := length_compactTag built
    simp only [compact, built]
    rw [← shape, List.take_left' width, List.drop_left' width, if_pos rfl]
  tagged := by
    intro key nonce aad plaintext sealed wrapped
    rcases Option.map_eq_some_iff.mp wrapped with ⟨tag, built, shape⟩
    rw [← shape, List.length_append, length_compactTag built]
    omega

theorem compact_aeadTags : compact.AeadTags := by
  intro key nonce aad plaintext sealed wrapped
  rcases Option.map_eq_some_iff.mp wrapped with ⟨tag, built, shape⟩
  rw [← shape, List.length_append, length_compactTag built, Nat.add_comm]

theorem compact_aeadIdeal : compact.AeadIdeal := by
  intro key nonce aad plaintext sealed otherKey otherNonce otherAad opened
    wrapped unwrapped
  rcases Option.map_eq_some_iff.mp wrapped with ⟨tag, built, shape⟩
  simp only [compact] at unwrapped
  split at unwrapped
  · cases unwrapped
  · case h_2 otherTag other =>
    split_ifs at unwrapped with same
    rw [← shape, List.take_left' (length_compactTag built)] at same
    subst otherTag
    exact compactTag_injective built other

theorem compact_seals (keyByte aadByte : UInt8) (nonce : Bytes 12)
    (plaintext : List UInt8) :
    ∃ tag, tag.length = 16 ∧
      compact.aeadSeal (Bytes.replicate 32 keyByte) nonce
        (Bytes.replicate 32 aadByte) plaintext =
        some (tag ++ plaintext) := by
  have built :
      compactTag (Bytes.replicate 32 keyByte) nonce
        (Bytes.replicate 32 aadByte) =
        some (keyByte :: aadByte :: 0 :: 0 :: nonce.toList) := by
    have keyUniform :=
      (uniformByte_eq_some_iff (Bytes.replicate 32 keyByte) keyByte).mpr rfl
    have aadUniform :=
      (uniformByte_eq_some_iff (Bytes.replicate 32 aadByte) aadByte).mpr rfl
    simp only [compactTag, keyUniform, aadUniform]
  refine ⟨_, length_compactTag built, ?_⟩
  simp only [compact, built, Option.map_some]

/-- The transparent instance, with the high bits of keys left out. -/
def masked : Primitives :=
  { transparent with
    diffieHellman := fun priv key =>
      add (clearHighBit priv) (clearHighBit key) }

theorem masked_dhCommutes : masked.DhCommutes :=
  fun left right => add_comm (clearHighBit left) (clearHighBit right)

theorem clearHighBit_clearHighBit (key : Bytes 32) :
    clearHighBit (clearHighBit key) = clearHighBit key := by
  apply Bytes.ext
  change
    (key.toList.modify 31 (· &&& 0x7f)).modify 31 (· &&& 0x7f) =
      key.toList.modify 31 (· &&& 0x7f)
  rw [List.modify_modify_eq]
  congr 1
  funext byte
  change byte &&& 0x7f &&& 0x7f = byte &&& 0x7f
  rw [UInt8.and_assoc, UInt8.and_self]

theorem masked_ignoresHighBit : masked.IgnoresHighBit := by
  intro priv key
  change add (clearHighBit priv) _ = add (clearHighBit priv) _
  rw [clearHighBit_clearHighBit]

end Primitives

end Norn
