import Mathlib.Data.List.TakeDrop

/-!
# `RedTeaming.Conversations.ContentCrypto`: sealed message text

`core/conversations/content_crypto.py`. A sealed value is
`<kid>:v2:<base64(nonce ++ ciphertext)>`. The key id names the key that opens it, so a value stays
readable while its key is the active or the retired one.

SHA-256, AES-GCM and base64 are parameters (`Primitives`), with the laws that the code relies on:
what is encoded or encrypted comes back, and the tag has its size.
-/

set_option autoImplicit false

namespace RedTeaming.Conversations

abbrev Bytes := List UInt8

/-- The libraries that the code calls. `decrypt` is `none` where the library raises `InvalidTag`,
and `b64decode` where it raises for text that is not base64. -/
structure Primitives where
  sha256 : Bytes → Bytes
  encrypt : (key nonce plaintext aad : Bytes) → Bytes
  decrypt : (key nonce ciphertext aad : Bytes) → Option Bytes
  b64encode : Bytes → String
  b64decode : String → Option Bytes
  length_sha256 : ∀ b, (sha256 b).length = 32
  decrypt_encrypt : ∀ key nonce plaintext aad,
    decrypt key nonce (encrypt key nonce plaintext aad) aad = some plaintext
  length_encrypt : ∀ key nonce plaintext aad,
    (encrypt key nonce plaintext aad).length = plaintext.length + 16
  b64decode_b64encode : ∀ raw, b64decode (b64encode raw) = some raw

/-- What `os.urandom(12)` draws. -/
structure Nonce where
  bytes : Bytes
  length_eq : bytes.length = 12

/-- Twelve zero bytes. -/
def zeroNonce : Nonce := ⟨List.replicate 12 0, rfl⟩

/-- The two secrets of the configuration that seal message text. -/
structure Settings where
  secretsKey : String
  secretsKeyRetired : Option String

/-- What the module raises. -/
inductive CryptoError
  | valueError (msg : String)
  | contentDecrypt (msg : String)
  | unicodeDecode
deriving DecidableEq

/-- The text of an exception. -/
def CryptoError.detail : CryptoError → String
  | .valueError msg => msg
  | .contentDecrypt msg => msg
  | .unicodeDecode => "'utf-8' codec can't decode bytes"

/-- `str.encode`. -/
def encodeText (s : String) : Bytes := s.toUTF8.data.toList

/-- `bytes.decode`. -/
def decodeText (b : Bytes) : Option String := String.fromUTF8? ⟨b.toArray⟩

/-- What is encoded is decoded. -/
theorem decodeText_encodeText (s : String) : decodeText (encodeText s) = some s := by
  have hvalid : (ByteArray.mk s.toUTF8.data.toList.toArray).IsValidUTF8 := s.isValidUTF8
  rw [decodeText, encodeText, String.fromUTF8?, dif_pos hvalid]
  rfl

/-- One hex digit. -/
def hexDigit (n : Nat) : Char := Nat.digitChar (n % 16)

/-- `bytes[:1].hex()`. -/
def firstByteHex : Bytes → List Char
  | [] => []
  | b :: _ => [hexDigit (b.toNat / 16), hexDigit b.toNat]

/-- `_HEX`. -/
def isHex (c : Char) : Bool := "0123456789abcdef".toList.contains c

/-- Derive the key id and the cipher key from a secret. The id is a hash of the key. -/
def resolve (P : Primitives) (secret : String) : String × Bytes :=
  let material := P.sha256 (encodeText secret)
  (String.ofList (firstByteHex (P.sha256 material)), material)

/-- The active key id, and the keys by id. -/
def keyring (P : Primitives) (settings : Settings) :
    Except CryptoError (String × List (String × Bytes)) :=
  let active := resolve P settings.secretsKey
  match settings.secretsKeyRetired with
  | none => .ok (active.1, [active])
  | some secret =>
    let retired := resolve P secret
    if retired.1 = active.1 then
      .error (.valueError ("Active and retired conversation keys collide on key-id; "
        ++ "choose a different retired key."))
    else .ok (active.1, [active, retired])

/-- `ENVELOPE`: the format version. -/
def envelope : String := "v2:"

/-- Split a stored value into its key id and its payload. Without two hex digits and a colon there
is no key id. -/
def split (stored : String) : Option String × String :=
  match stored.toList.span (· != ':') with
  | (kid, _ :: payload) =>
    if kid.length = 2 ∧ kid.all isHex then (some (String.ofList kid), String.ofList payload)
    else (none, stored)
  | (_, []) => (none, stored)

/-- `CONTENT_AAD`: binds a ciphertext to its column. -/
def contentAad : Bytes := encodeText "messages.content"

/-- `seal_content`: the stored value, and whether it is sealed. Empty text is stored as it is. -/
def sealContent (P : Primitives) (settings : Settings) (nonce : Nonce) (plaintext : String)
    (isProtected : Bool) : Except CryptoError (String × Bool) :=
  if !isProtected || plaintext.isEmpty then .ok (plaintext, false)
  else do
    let (kid, ring) ← keyring P settings
    let key := (ring.lookup kid).getD []
    let raw := nonce.bytes ++ P.encrypt key nonce.bytes (encodeText plaintext) contentAad
    return (kid ++ ":" ++ envelope ++ P.b64encode raw, true)

/-- The text under the first of the keys that opens the value. -/
def openWith (P : Primitives) (nonce ciphertext : Bytes) :
    List Bytes → Except CryptoError String
  | [] =>
    .error (.contentDecrypt "Message text failed authentication under every configured key.")
  | key :: keys =>
    match P.decrypt key nonce ciphertext contentAad with
    | some b =>
      match decodeText b with
      | some s => .ok s
      | none => .error .unicodeDecode
    | none => openWith P nonce ciphertext keys

/-- The text of a sealed value, split into key id and payload. -/
def openEnvelope (P : Primitives) (ring : List (String × Bytes)) (kid : Option String)
    (payload : String) : Except CryptoError String :=
  if !envelope.toList.isPrefixOf payload.toList then
    .error (.contentDecrypt "Stored message text is not in the expected envelope format.")
  else
    let candidates := match kid with
      | some kid => (ring.lookup kid).toList
      | none => ring.map Prod.snd
    if candidates.isEmpty then
      .error (.contentDecrypt
        "Message text is sealed under a key-id that matches no configured key.")
    else
      match P.b64decode (String.ofList (payload.toList.drop envelope.length)) with
      | none => .error (.contentDecrypt "Stored message text is not valid base64.")
      | some raw =>
        if raw.length < 12 + 16 then
          .error (.contentDecrypt "Stored message text is too short to be a sealed value.")
        else openWith P (raw.take 12) (raw.drop 12) candidates

/-- `unseal_content`: the text of a stored value, by its own flag. -/
def unsealContent (P : Primitives) (settings : Settings) (stored : String) (encrypted : Bool) :
    Except CryptoError String :=
  if !encrypted then .ok stored
  else do
    let (_, ring) ← keyring P settings
    openEnvelope P ring (split stored).1 (split stored).2

/-! ### Round trip -/

section
variable {P : Primitives} {settings : Settings}

theorem isHex_hexDigit (n : Nat) : isHex (hexDigit n) = true := by
  have h : ∀ k < 16, isHex (Nat.digitChar k) = true := by decide
  exact h _ (Nat.mod_lt _ (by decide))

/-- A key id is two hex digits. -/
theorem resolve_kid (P : Primitives) (secret : String) :
    ∃ c d : Char, isHex c = true ∧ isHex d = true ∧ (resolve P secret).1.toList = [c, d] := by
  have hlength := P.length_sha256 (P.sha256 (encodeText secret))
  cases hbytes : P.sha256 (P.sha256 (encodeText secret)) with
  | nil =>
    rw [hbytes] at hlength
    cases hlength
  | cons b rest =>
    refine ⟨hexDigit (b.toNat / 16), hexDigit b.toNat, isHex_hexDigit _, isHex_hexDigit _, ?_⟩
    rw [resolve, hbytes]
    exact String.toList_ofList

/-- A hex digit is not the colon. -/
theorem ne_colon_of_isHex {c : Char} (h : isHex c = true) : (c != ':') = true := by
  rw [bne_iff_ne]
  rintro rfl
  exact absurd h (by decide)

/-- A value that starts with a key id and a colon is split there. -/
theorem split_kid {c d : Char} {kid payload : String} (hkid : kid.toList = [c, d])
    (hc : isHex c = true) (hd : isHex d = true) :
    split (kid ++ ":" ++ payload) = (some kid, payload) := by
  have hspan : (kid ++ ":" ++ payload).toList.span (· != ':') =
      ([c, d], ':' :: payload.toList) := by
    rw [List.span_eq_takeWhile_dropWhile]
    simp [String.toList_append, hkid, ne_colon_of_isHex hc, ne_colon_of_isHex hd]
  have hof : String.ofList [c, d] = kid := by
    rw [← hkid, String.ofList_toList]
  simp only [split, hspan]
  rw [hof]
  simp [hc, hd]

/-- The active key is in the ring under its id. -/
theorem lookup_active {kid : String} {ring : List (String × Bytes)}
    (h : keyring P settings = .ok (kid, ring)) :
    kid = (resolve P settings.secretsKey).1 ∧
      ring.lookup kid = some (resolve P settings.secretsKey).2 := by
  unfold keyring at h
  split at h
  · cases h
    exact ⟨rfl, List.lookup_cons_self⟩
  · dsimp only at h
    split at h
    · cases h
    · cases h
      exact ⟨rfl, List.lookup_cons_self⟩

/-- A value sealed under the key of its id is opened. -/
theorem openEnvelope_seal {ring : List (String × Bytes)} {kid payload plaintext : String}
    {key : Bytes} {nonce : Nonce} (hlookup : ring.lookup kid = some key)
    (hpayload : payload = envelope ++ P.b64encode
      (nonce.bytes ++ P.encrypt key nonce.bytes (encodeText plaintext) contentAad)) :
    openEnvelope P ring (some kid) payload = .ok plaintext := by
  have hstarts : envelope.toList.isPrefixOf payload.toList = true := by
    rw [hpayload, String.toList_append, List.isPrefixOf_iff_prefix]
    exact List.prefix_append _ _
  have hdrop : String.ofList (payload.toList.drop envelope.length) = P.b64encode
      (nonce.bytes ++ P.encrypt key nonce.bytes (encodeText plaintext) contentAad) := by
    rw [hpayload, String.toList_append, ← String.length_toList, List.drop_left,
      String.ofList_toList]
  have hlong : ¬ (nonce.bytes ++
      P.encrypt key nonce.bytes (encodeText plaintext) contentAad).length < 12 + 16 := by
    rw [List.length_append, nonce.length_eq, P.length_encrypt]
    omega
  rw [openEnvelope, hstarts, hlookup, hdrop]
  simp only [P.b64decode_b64encode, if_neg hlong]
  -- The first twelve bytes are the nonce.
  rw [List.take_left' nonce.length_eq, List.drop_left' nonce.length_eq]
  simp only [Option.toList, openWith, P.decrypt_encrypt, decodeText_encodeText]
  rfl

/-- With a key ring that was checked, a sealed value is opened by its key id. -/
theorem unsealContent_of_keyring {x : String × List (String × Bytes)}
    (h : keyring P settings = .ok x) (stored : String) :
    unsealContent P settings stored true =
      openEnvelope P x.2 (split stored).1 (split stored).2 := by
  obtain ⟨kid, ring⟩ := x
  simp only [unsealContent, Bool.not_true, Bool.false_eq_true, if_false]
  rw [h]
  rfl

/-- What was sealed is opened again, under the same settings. -/
theorem unsealContent_sealContent {nonce : Nonce} {plaintext stored : String}
    {isProtected encrypted : Bool}
    (h : sealContent P settings nonce plaintext isProtected = .ok (stored, encrypted)) :
    unsealContent P settings stored encrypted = .ok plaintext := by
  unfold sealContent at h
  split at h
  · cases h
    rfl
  · cases hring : keyring P settings with
    | error e =>
      rw [hring] at h
      cases h
    | ok x =>
      obtain ⟨kid, ring⟩ := x
      obtain ⟨hkid, hlookup⟩ := lookup_active hring
      obtain ⟨c, d, hc, hd, htwo⟩ := resolve_kid P settings.secretsKey
      rw [hring] at h
      cases h
      rw [unsealContent_of_keyring hring, String.append_assoc]
      rw [split_kid (hkid ▸ htwo) hc hd]
      apply openEnvelope_seal hlookup
      rw [hlookup]
      rfl

/-- With a key ring that was checked, every text can be sealed. -/
theorem exists_seal {ring : String × List (String × Bytes)} (h : keyring P settings = .ok ring)
    (nonce : Nonce) (plaintext : String) (isProtected : Bool) :
    ∃ stored encrypted,
      sealContent P settings nonce plaintext isProtected = .ok (stored, encrypted) := by
  unfold sealContent
  split
  · exact ⟨plaintext, false, rfl⟩
  · rw [h]
    exact ⟨_, true, rfl⟩

/-- Protected text is sealed, unless it is empty. -/
theorem sealed_or_empty {nonce : Nonce} {plaintext stored : String} {encrypted : Bool}
    (h : sealContent P settings nonce plaintext true = .ok (stored, encrypted)) :
    encrypted = true ∨ stored = "" := by
  unfold sealContent at h
  split at h
  · rename_i hempty
    cases h
    right
    simpa using hempty
  · cases hring : keyring P settings with
    | error e =>
      rw [hring] at h
      cases h
    | ok x =>
      rw [hring] at h
      cases h
      exact Or.inl rfl

/-- A sealed value that can be opened is not empty. -/
theorem ne_empty_of_unsealContent {stored plaintext : String}
    (h : unsealContent P settings stored true = .ok plaintext) : stored ≠ "" := by
  rintro rfl
  unfold unsealContent at h
  cases hring : keyring P settings with
  | error e =>
    rw [hring] at h
    cases h
  | ok x =>
    rw [hring] at h
    cases h

end

/-- Libraries that meet the laws, with a cipher that appends an empty tag. -/
def plainPrimitives : Primitives where
  sha256 _ := List.replicate 32 0
  encrypt _ _ plaintext _ := plaintext ++ List.replicate 16 0
  decrypt _ _ ciphertext _ := some (ciphertext.take (ciphertext.length - 16))
  b64encode raw := String.ofList (raw.map fun b => Char.ofNat b.toNat)
  b64decode s := some (s.toList.map fun c => UInt8.ofNat c.toNat)
  length_sha256 _ := List.length_replicate
  decrypt_encrypt _ _ plaintext _ := by simp
  length_encrypt _ _ plaintext _ := by simp
  b64decode_b64encode raw := by
    have hbyte : ∀ b : UInt8, UInt8.ofNat (Char.ofNat b.toNat).toNat = b := by
      intro b
      have hlt := b.toNat_lt
      have hvalid : b.toNat.isValidChar := by
        left
        omega
      have hchar : (Char.ofNat b.toNat).toNat = b.toNat := by
        rw [Char.ofNat, dif_pos hvalid]
        rfl
      rw [hchar, UInt8.ofNat_toNat]
    simp [Function.comp_def, hbyte]

end RedTeaming.Conversations
