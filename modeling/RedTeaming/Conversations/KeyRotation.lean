import RedTeaming.Conversations.ContentCrypto

/-!
# `RedTeaming.Conversations.KeyRotation`: sealed text while the keys change

A value that was sealed under a secret is opened under every settings that hold the secret, as the
active or as the retired one. What does not carry a ciphertext under a key that its tag selects is
refused with a `ContentDecryptError`.

A value without a key id selects every key. So a value that `seal_content` never wrote can be
opened: the payload of a sealed value, without its tag.
-/

set_option autoImplicit false

namespace RedTeaming.Conversations

/-- AES-GCM is authentic: what is decrypted under a key was encrypted under it. -/
structure Primitives.Authentic (P : Primitives) : Prop where
  encrypt_of_decrypt : ∀ key nonce ciphertext aad plaintext,
    P.decrypt key nonce ciphertext aad = some plaintext →
      P.encrypt key nonce plaintext aad = ciphertext

/-- The settings have the secret, as the active or the retired one. -/
def Settings.Holds (settings : Settings) (secret : String) : Prop :=
  settings.secretsKey = secret ∨ settings.secretsKeyRetired = some secret

/-- The keys that a tag selects: the key of the id, or every key. -/
def candidates (ring : List (String × Bytes)) : Option String → List Bytes
  | some kid => (ring.lookup kid).toList
  | none => ring.map Prod.snd

/-- The value carries, behind the envelope, a ciphertext under a key that its tag selects. -/
def Carries (P : Primitives) (ring : List (String × Bytes)) (stored : String) : Prop :=
  envelope.toList.isPrefixOf (split stored).2.toList = true ∧
    ∃ key ∈ candidates ring (split stored).1, ∃ (nonce : Nonce) (plaintext : Bytes),
      P.b64decode (String.ofList ((split stored).2.toList.drop envelope.length)) =
        some (nonce.bytes ++ P.encrypt key nonce.bytes plaintext contentAad)

section
variable {P : Primitives} {settings settings' : Settings} {ring : String × List (String × Bytes)}

/-! ### A held secret -/

/-- The key of a held secret is in the ring under its id. -/
theorem lookup_of_holds {secret : String} (hring : keyring P settings = .ok ring)
    (hholds : settings.Holds secret) :
    ring.2.lookup (resolve P secret).1 = some (resolve P secret).2 := by
  unfold keyring at hring
  rcases hholds with hactive | hretired
  · rw [hactive] at hring
    split at hring
    · cases hring
      exact List.lookup_cons_self
    · dsimp only at hring
      split at hring
      · cases hring
      · cases hring
        exact List.lookup_cons_self
  · rw [hretired] at hring
    dsimp only at hring
    split at hring
    · cases hring
    · rename_i hne
      cases hring
      have hkey : ((resolve P secret).1 == (resolve P settings.secretsKey).1) = false :=
        beq_eq_false_iff_ne.mpr hne
      rw [List.lookup_cons, hkey]
      exact List.lookup_cons_self

/-- What `seal_content` writes for sealed text. -/
theorem sealContent_true {nonce : Nonce} {plaintext stored : String} {isProtected : Bool}
    (h : sealContent P settings nonce plaintext isProtected = .ok (stored, true)) :
    stored = (resolve P settings.secretsKey).1 ++ ":" ++ (envelope ++ P.b64encode (nonce.bytes ++
      P.encrypt (resolve P settings.secretsKey).2 nonce.bytes (encodeText plaintext)
        contentAad)) := by
  unfold sealContent at h
  split at h
  · cases h
  · cases hring : keyring P settings with
    | error e =>
      rw [hring] at h
      cases h
    | ok ring =>
      obtain ⟨kid, ring⟩ := ring
      obtain ⟨hkid, hlookup⟩ := lookup_active hring
      rw [hring] at h
      have hstored : kid ++ ":" ++ envelope ++ P.b64encode (nonce.bytes ++ P.encrypt
          ((ring.lookup kid).getD []) nonce.bytes (encodeText plaintext) contentAad) =
            stored := by
        cases h
        rfl
      rw [← hstored, hlookup, hkid, String.append_assoc]
      rfl

/-- What is not sealed is returned as it is. -/
theorem unsealContent_false (settings : Settings) (stored : String) :
    unsealContent P settings stored false = .ok stored := rfl

/-- What was sealed is opened under other settings that hold the secret. -/
theorem unsealContent_of_holds {nonce : Nonce} {plaintext stored : String}
    {isProtected encrypted : Bool}
    (h : sealContent P settings nonce plaintext isProtected = .ok (stored, encrypted))
    (hring : keyring P settings' = .ok ring) (hholds : settings'.Holds settings.secretsKey) :
    unsealContent P settings' stored encrypted = .ok plaintext := by
  cases encrypted with
  | false =>
    have hsame := unsealContent_sealContent h
    rw [unsealContent_false] at hsame ⊢
    exact hsame
  | true =>
    obtain ⟨c, d, hc, hd, htwo⟩ := resolve_kid P settings.secretsKey
    have hopen : unsealContent P settings' stored true =
        openEnvelope P ring.2 (split stored).1 (split stored).2 := by
      rw [unsealContent, hring]
      rfl
    rw [hopen, sealContent_true h, split_kid htwo hc hd]
    exact openEnvelope_seal (lookup_of_holds hring hholds) rfl

/-! ### What is refused -/

/-- Without a key that opens it, a value is refused. -/
theorem openWith_of_none {nonce ciphertext : Bytes} {keys : List Bytes}
    (h : ∀ key ∈ keys, P.decrypt key nonce ciphertext contentAad = none) :
    openWith P nonce ciphertext keys = .error
      (.contentDecrypt "Message text failed authentication under every configured key.") := by
  induction keys with
  | nil => rfl
  | cons key keys ih =>
    rw [openWith, h key List.mem_cons_self]
    exact ih fun key' hkey' => h key' (List.mem_cons_of_mem _ hkey')

/-- What carries no ciphertext under a selected key is refused. -/
theorem unsealContent_of_not_carries (hP : P.Authentic) (hring : keyring P settings = .ok ring)
    {stored : String} (h : ¬ Carries P ring.2 stored) :
    ∃ msg, unsealContent P settings stored true = .error (.contentDecrypt msg) := by
  rw [unsealContent, hring]
  show ∃ msg, openEnvelope P ring.2 (split stored).1 (split stored).2 =
    .error (.contentDecrypt msg)
  unfold openEnvelope
  split
  · exact ⟨_, rfl⟩
  · rename_i hstarts
    simp only [Bool.not_eq_true, Bool.not_eq_false'] at hstarts
    show ∃ msg, (if (candidates ring.2 (split stored).1).isEmpty then _ else _) = _
    split
    · exact ⟨_, rfl⟩
    · split
      · exact ⟨_, rfl⟩
      · rename_i raw hraw
        split
        · exact ⟨_, rfl⟩
        · rename_i hlong
          have htwelve : (raw.take 12).length = 12 := by
            rw [List.length_take]
            omega
          refine ⟨_, openWith_of_none ?_⟩
          intro key hkey
          cases hdecrypt : P.decrypt key (raw.take 12) (raw.drop 12) contentAad with
          | none => rfl
          | some plaintext =>
            -- It was encrypted under the key, so the value carries it.
            have hencrypt := hP.encrypt_of_decrypt _ _ _ _ _ hdecrypt
            refine absurd ⟨hstarts, key, hkey, ⟨raw.take 12, htwelve⟩, plaintext, ?_⟩ h
            rw [hraw, hencrypt, List.take_append_drop]

end

/-- **Sealed text survives a rotation.** Under settings with a key ring, what was sealed under a
held secret is opened, what is not sealed is returned as it is, and a sealed value that carries no
ciphertext under a key that its tag selects is refused with a `ContentDecryptError`. -/
theorem sealed_text_rotates (P : Primitives) (hP : P.Authentic) (settings : Settings)
    {ring : String × List (String × Bytes)} (hring : keyring P settings = .ok ring) :
    (∀ (sealing : Settings) nonce plaintext isProtected stored encrypted,
      sealContent P sealing nonce plaintext isProtected = .ok (stored, encrypted) →
      settings.Holds sealing.secretsKey →
      unsealContent P settings stored encrypted = .ok plaintext) ∧
    (∀ (other : Settings) stored, unsealContent P other stored false = .ok stored) ∧
    ∀ stored, ¬ Carries P ring.2 stored →
      ∃ msg, unsealContent P settings stored true = .error (.contentDecrypt msg) := by
  refine ⟨?_, unsealContent_false, fun stored => unsealContent_of_not_carries hP hring⟩
  intro sealing nonce plaintext isProtected stored encrypted hseal hholds
  exact unsealContent_of_holds hseal hring hholds

/-! ### Recorded values -/

/-- `sha256` of `old` and of `new`, the bytes that `sha256` makes of those, and a sealed `hi`. -/
def recordedOld : Bytes :=
  [203, 160, 107, 87, 54, 250, 246, 126, 84, 176, 123, 86, 30, 174, 148, 57, 94, 119, 76, 81, 122,
    125, 145, 10, 84, 54, 158, 18, 99, 204, 251, 212]

def recordedOldId : Bytes :=
  [181, 250, 113, 127, 196, 247, 178, 107, 96, 208, 57, 150, 33, 207, 231, 118, 99,
    141, 49, 160, 84, 253, 164, 2, 70, 183, 135, 42, 27, 18, 248, 151]

def recordedNew : Bytes :=
  [17, 80, 122, 14, 47, 94, 105, 213, 223, 164, 10, 98, 161, 189, 123, 110, 229, 126,
    107, 205, 133, 198, 124, 155, 132, 49, 179, 111, 255, 33, 196, 55]

def recordedNewId : Bytes :=
  [169, 84, 187, 64, 114, 45, 32, 234, 96, 251, 29, 53, 129, 225, 151, 101, 137, 38,
    95, 56, 100, 47, 67, 17, 239, 35, 72, 37, 145, 251, 255, 61]

def recordedNonce : Nonce := zeroNonce

def recordedCiphertext : Bytes :=
  [77, 166, 32, 147, 45, 146, 183, 207, 70, 113, 50, 208, 185, 57, 209, 127, 10, 207]

def recordedText : String := "AAAAAAAAAAAAAAAATaYgky2St89GcTLQuTnRfwrP"

/-- The arguments of the recorded call of the cipher, without the plaintext. -/
def isRecorded (key nonce aad : Bytes) : Bool :=
  key == recordedOld && nonce == recordedNonce.bytes && aad == contentAad

/-- A byte as a character that base64 does not use. -/
def foreignChar (b : UInt8) : Char := Char.ofNat (b.toNat + 256)

/-- Libraries that give the recorded values, and meet the laws elsewhere. -/
def recordedEncrypt (key nonce plaintext aad : Bytes) : Bytes :=
  if isRecorded key nonce aad && plaintext == encodeText "hi" then recordedCiphertext
  else plaintext ++ List.replicate 16 0

def recordedDecrypt (key nonce ciphertext aad : Bytes) : Option Bytes :=
  if isRecorded key nonce aad && ciphertext == recordedCiphertext then some (encodeText "hi")
  else
    let plaintext := ciphertext.take (ciphertext.length - 16)
    if recordedEncrypt key nonce plaintext aad = ciphertext then some plaintext else none

def recordedEncode (raw : Bytes) : String :=
  if raw = recordedNonce.bytes ++ recordedCiphertext then recordedText
  else String.ofList (raw.map foreignChar)

def recordedDecode (s : String) : Option Bytes :=
  if s = recordedText then some (recordedNonce.bytes ++ recordedCiphertext)
  else if s.toList.all fun c => 256 ≤ c.toNat ∧ c.toNat < 512 then
    some (s.toList.map fun c => UInt8.ofNat (c.toNat - 256))
  else none

theorem recordedDecrypt_encrypt (key nonce plaintext aad : Bytes) :
    recordedDecrypt key nonce (recordedEncrypt key nonce plaintext aad) aad = some plaintext := by
  by_cases hcall : (isRecorded key nonce aad && plaintext == encodeText "hi") = true
  · have hboth := (Bool.and_eq_true _ _).mp hcall
    have hsame :
        (isRecorded key nonce aad && recordedCiphertext == recordedCiphertext) = true := by
      rw [hboth.1]
      rfl
    rw [recordedEncrypt, if_pos hcall, recordedDecrypt, if_pos hsame, beq_iff_eq.mp hboth.2]
  · -- The last byte of the recorded ciphertext is no zero.
    have hne : (plaintext ++ List.replicate 16 0 == recordedCiphertext) = false := by
      rw [beq_eq_false_iff_ne]
      intro heq
      have hlast := congrArg List.getLast? heq
      rw [List.getLast?_append] at hlast
      cases hlast
    have htake : (plaintext ++ List.replicate 16 0).take
        ((plaintext ++ List.replicate 16 (0 : UInt8)).length - 16) = plaintext := by simp
    have hencrypt : recordedEncrypt key nonce plaintext aad = plaintext ++
        List.replicate 16 0 := by
      rw [recordedEncrypt, if_neg hcall]
    rw [hencrypt, recordedDecrypt, hne, Bool.and_false]
    dsimp only
    rw [htake, hencrypt]
    simp

theorem length_recordedEncrypt (key nonce plaintext aad : Bytes) :
    (recordedEncrypt key nonce plaintext aad).length = plaintext.length + 16 := by
  unfold recordedEncrypt
  split
  · rename_i hcall
    rw [beq_iff_eq.mp ((Bool.and_eq_true _ _).mp hcall).2]
    rfl
  · rw [List.length_append, List.length_replicate]

theorem toNat_foreignChar (b : UInt8) : (foreignChar b).toNat = b.toNat + 256 := by
  have hlt := b.toNat_lt
  have hvalid : (b.toNat + 256).isValidChar := by
    left
    omega
  rw [foreignChar, Char.ofNat, dif_pos hvalid]
  rfl

theorem recordedDecode_encode (raw : Bytes) : recordedDecode (recordedEncode raw) = some raw := by
  by_cases hraw : raw = recordedNonce.bytes ++ recordedCiphertext
  · rw [recordedEncode, if_pos hraw, recordedDecode, if_pos rfl, hraw]
  · have hall : (raw.map foreignChar).all (fun c => 256 ≤ c.toNat ∧ c.toNat < 512) = true := by
      rw [List.all_eq_true]
      intro c hc
      obtain ⟨b, -, rfl⟩ := List.mem_map.mp hc
      have hlt := b.toNat_lt
      rw [toNat_foreignChar]
      simp only [decide_eq_true_eq]
      omega
    have hne : String.ofList (raw.map foreignChar) ≠ recordedText := by
      intro heq
      have hlist : raw.map foreignChar = recordedText.toList := by
        rw [← heq, String.toList_ofList]
      rw [hlist] at hall
      exact absurd hall (by decide)
    have hmap : (raw.map foreignChar).map (fun c => UInt8.ofNat (c.toNat - 256)) = raw := by
      rw [List.map_map]
      refine (List.map_congr_left ?_).trans (List.map_id _)
      intro b _
      simp [toNat_foreignChar]
    rw [recordedEncode, if_neg hraw, recordedDecode, if_neg hne, String.toList_ofList,
      if_pos hall, hmap]

def recordedPrimitives : Primitives where
  sha256 b :=
    if b = encodeText "old" then recordedOld
    else if b = recordedOld then recordedOldId
    else if b = encodeText "new" then recordedNew
    else if b = recordedNew then recordedNewId
    else List.replicate 32 0
  encrypt := recordedEncrypt
  decrypt := recordedDecrypt
  b64encode := recordedEncode
  b64decode := recordedDecode
  length_sha256 b := by
    split_ifs <;> rfl
  decrypt_encrypt := recordedDecrypt_encrypt
  length_encrypt := length_recordedEncrypt
  b64decode_b64encode := recordedDecode_encode

theorem authentic_recorded : recordedPrimitives.Authentic where
  encrypt_of_decrypt key nonce ciphertext aad plaintext h := by
    have hdecrypt : recordedDecrypt key nonce ciphertext aad = some plaintext := h
    show recordedEncrypt key nonce plaintext aad = ciphertext
    unfold recordedDecrypt at hdecrypt
    split at hdecrypt
    · rename_i hcall
      cases hdecrypt
      have hboth := (Bool.and_eq_true _ _).mp hcall
      rw [recordedEncrypt, hboth.1, beq_iff_eq.mp hboth.2]
      rfl
    · dsimp only at hdecrypt
      split at hdecrypt
      · rename_i hsame
        cases hdecrypt
        exact hsame
      · cases hdecrypt

/-- Before a rotation, and while it lasts. -/
def beforeRotation : Settings := { secretsKey := "old", secretsKeyRetired := none }

def duringRotation : Settings := { secretsKey := "new", secretsKeyRetired := some "old" }

/-- The key ring of a rotation. -/
def rotationRing : String × List (String × Bytes) :=
  ("a9", [("a9", recordedNew), ("b5", recordedOld)])

theorem keyring_duringRotation :
    keyring recordedPrimitives duringRotation = .ok rotationRing := by
  decide +kernel

theorem seal_beforeRotation :
    sealContent recordedPrimitives beforeRotation recordedNonce "hi" true =
    .ok ("b5:v2:AAAAAAAAAAAAAAAATaYgky2St89GcTLQuTnRfwrP", true) := by
  decide +kernel

theorem sealed_text_rotates_old :
    unsealContent recordedPrimitives duringRotation
      "b5:v2:AAAAAAAAAAAAAAAATaYgky2St89GcTLQuTnRfwrP" true = .ok "hi" ∧
    ∃ msg, unsealContent recordedPrimitives duringRotation "b5:AAAA" true =
      .error (.contentDecrypt msg) := by
  obtain ⟨hopens, -, hrefuses⟩ := sealed_text_rotates recordedPrimitives authentic_recorded
    duringRotation keyring_duringRotation
  refine ⟨hopens beforeRotation recordedNonce "hi" true _ true seal_beforeRotation
    (Or.inr rfl), ?_⟩
  apply hrefuses
  intro hcarries
  exact absurd hcarries.1 (by decide +kernel)

/-- A value without its tag was not written by `seal_content`, and is opened. -/
theorem untagged_is_opened : ¬ ((∀ (sealing : Settings) nonce plaintext,
      duringRotation.Holds sealing.secretsKey →
      sealContent recordedPrimitives sealing nonce plaintext true ≠
        .ok ("v2:AAAAAAAAAAAAAAAATaYgky2St89GcTLQuTnRfwrP", true)) →
    ∃ msg, unsealContent recordedPrimitives duringRotation
      "v2:AAAAAAAAAAAAAAAATaYgky2St89GcTLQuTnRfwrP" true = .error (.contentDecrypt msg)) := by
  intro hclaim
  have hforeign : ∀ (sealing : Settings) nonce plaintext,
      sealContent recordedPrimitives sealing nonce plaintext true ≠
        .ok ("v2:AAAAAAAAAAAAAAAATaYgky2St89GcTLQuTnRfwrP", true) := by
    intro sealing nonce plaintext hseal
    obtain ⟨c, d, hc, -, htwo⟩ := resolve_kid recordedPrimitives sealing.secretsKey
    have hlist := congrArg String.toList (sealContent_true hseal)
    rw [String.toList_append, String.toList_append, htwo] at hlist
    -- A sealed value starts with a hex digit.
    have hfirst : c = 'v' := (List.cons.inj hlist).1.symm
    rw [hfirst] at hc
    exact absurd hc (by decide)
  obtain ⟨msg, hmsg⟩ := hclaim fun sealing nonce plaintext _ => hforeign sealing nonce plaintext
  have hopened : unsealContent recordedPrimitives duringRotation
      "v2:AAAAAAAAAAAAAAAATaYgky2St89GcTLQuTnRfwrP" true = .ok "hi" := by decide +kernel
  rw [hopened] at hmsg
  cases hmsg

end RedTeaming.Conversations
