import RedTeaming.Auth.Roles
import RedTeaming.Conversations.Messages
import RedTeaming.Exports.Rendering
import RedTeaming.Library.Hex
import RedTeaming.Library.JsonWriter
import RedTeaming.Library.Table
import RedTeaming.Library.Text
import RedTeaming.Media.DataUrlCache

/-!
# `RedTeaming.Media.Images`: uploads, storage keys and signed tokens

`core/media/services/images.py`, `core/media/models.py` and `core/media/signing.py`. An upload is
read up to a cap, validated and encoded again. Its key in the storage has the id of its row, so no
two uploads share one (`eq_of_buildKey_eq`), and the extension, from which a data URL gets its
content type (`readDataUrl_buildKey`). A token has the key, its expiry and the user that it is
bound to, and is read back as these (`verifyToken_dumps`).

Pillow and the serializer of the tokens are parameters, with what they document.
-/

set_option autoImplicit false

namespace RedTeaming.Images

open RedTeaming.Auth (UserId)
open RedTeaming.Exports.Rendering (DateTime padded uuidText)
open RedTeaming.Library
open RedTeaming.Library.Hex
open RedTeaming.Media (DataUrlCache Instant)

abbrev Bytes := List UInt8

/-! ### Validation -/

/-- What is called of Pillow. A `none` is an exception. -/
structure Pillow where
  Image : Type
  openImage : Bytes → Option Image
  format : Image → Option String
  exifTranspose : Image → Option Image
  thumbnail : (size : Nat × Nat) → Image → Option Image
  save : (format : String) → Image → Option Bytes
  size : Image → Nat × Nat

/-- `thumbnail` shrinks to the size, and to one pixel at least. -/
def Pillow.Documented (pillow : Pillow) : Prop :=
  ∀ {size image image'}, 0 < size.1 → 0 < size.2 → pillow.thumbnail size image = some image' →
    (pillow.size image').1 ≤ size.1 ∧ (pillow.size image').2 ≤ size.2

/-- `MAX_UPLOAD_BYTES`. -/
def maxUploadBytes : Nat := 20 * 1024 * 1024

/-- `_MAX_DIMENSION`. -/
def maxDimension : Nat := 1200

/-- `_ALLOWED_FORMATS`: the extension and the content type of a format. -/
def allowedFormats : List (String × String × String) :=
  [("JPEG", "jpg", "image/jpeg"), ("PNG", "png", "image/png"), ("WEBP", "webp", "image/webp")]

/-- `_FORMAT_ALIASES`. -/
def formatAliases : List (String × String) := [("MPO", "JPEG")]

/-- `_EXT_CONTENT_TYPE`. -/
def extContentType : List (String × String) := allowedFormats.map Prod.snd

/-- `ProcessedImage`. -/
structure ProcessedImage where
  data : Bytes
  ext : String
  contentType : String
  width : Nat
  height : Nat
deriving DecidableEq

/-- `_read_capped`, after `total` bytes. An empty chunk is the end of the file. -/
def readCapped (total : Nat) : List Bytes → Except ApiError Bytes
  | [] => .ok []
  | [] :: _ => .ok []
  | (byte :: bytes) :: chunks => do
    let total := total + (bytes.length + 1)
    check (total ≤ maxUploadBytes) (.badRequest "Image exceeds the 20 MB limit.")
    return byte :: bytes ++ (← readCapped total chunks)

/-- The format of an image, without its alias. -/
def imageFormat (format : Option String) : Option String :=
  (format.filter fun f => f != "").map fun f => (formatAliases.lookup f).getD f

/-- `process_image`. -/
def processImage (pillow : Pillow) (raw : Bytes) : Except ApiError ProcessedImage := do
  let image ← found (pillow.openImage raw) (.badRequest "Uploaded file is not a readable image.")
  let format := imageFormat (pillow.format image)
  let allowed := ", ".intercalate (allowedFormats.map Prod.fst).mergeSort
  let (ext, contentType) ← found (format.bind fun f => allowedFormats.lookup f)
    (.badRequest ("Unsupported image format " ++ quoted (format.getD "unknown") ++ "; allowed: "
      ++ allowed ++ "."))
  let corrupt := ApiError.badRequest "Uploaded image is corrupt or truncated."
  let image ← found (pillow.exifTranspose image) corrupt
  let image ← found (pillow.thumbnail (maxDimension, maxDimension) image) corrupt
  let data ← found (pillow.save (format.getD "") image) corrupt
  return { data, ext, contentType, width := (pillow.size image).1,
           height := (pillow.size image).2 }

/-! ### Uploads and rows -/

/-- A call of `upload_image`: who calls, the chunks of the file, and the day. -/
structure Upload where
  caller : UserId
  chunks : List Bytes
  isPrivate : Bool
  today : DateTime

/-- The image that an upload stores. -/
def Upload.image (pillow : Pillow) (upload : Upload) : Except ApiError ProcessedImage := do
  processImage pillow (← readCapped 0 upload.chunks)

/-- `UUID.hex`. -/
def hex (id : UUID) : List Char := padded 32 (Nat.toDigits 16 id)

/-- `_build_key`. -/
def buildKey (today : DateTime) (id : UUID) (ext : String) : String :=
  let day := padded 4 (Nat.toDigits 10 today.year) ++
      '/' :: padded 2 (Nat.toDigits 10 today.month) ++
    '/' :: padded 2 (Nat.toDigits 10 today.day)
  String.ofList (day ++ '/' :: (hex id ++ '.' :: ext.toList))

/-- A row of `media_assets`. -/
structure MediaAsset where
  id : UUID
  key : String
  contentType : String
  sizeBytes : Nat
  width : Nat
  height : Nat
  isPrivate : Bool
  createdById : UserId
  createdAt : Instant
  deletedAt : Option Instant := none
  deletedById : Option UserId := none
deriving DecidableEq

/-- The unique index on the key. -/
instance : Keyed MediaAsset String := ⟨MediaAsset.key⟩

namespace MediaAsset
variable (asset : MediaAsset)

/-- The row carries no tombstone. -/
def live : Bool := asset.deletedAt.isNone

/-- The row of `create_image`. -/
def ofUpload (upload : Upload) (image : ProcessedImage) (id : UUID)
    (createdAt : Instant) : MediaAsset where
  id := id
  key := buildKey upload.today id image.ext
  contentType := image.contentType
  sizeBytes := image.data.length
  width := image.width
  height := image.height
  isPrivate := upload.isPrivate
  createdById := upload.caller
  createdAt := createdAt

@[simp] theorem id_ofUpload (upload : Upload) (image : ProcessedImage) (id : UUID)
    (createdAt : Instant) :
    (ofUpload upload image id createdAt).id = id := rfl

@[simp] theorem key_ofUpload (upload : Upload) (image : ProcessedImage) (id : UUID)
    (createdAt : Instant) :
    (ofUpload upload image id createdAt).key = buildKey upload.today id image.ext := by
  simp only [ofUpload]

/-- `soft_delete` of a loaded live row. Without a user, the `UPDATE` leaves that column alone. -/
def softDelete (now : Instant) (byId : Option UserId) : MediaAsset :=
  { asset with deletedAt := some now, deletedById := byId <|> asset.deletedById }

theorem key_softDelete (now : Instant) (byId : Option UserId) (asset : MediaAsset) :
    Library.key (asset.softDelete now byId) = Library.key asset := rfl

/-- What `_validate_attachments` reads of a row. -/
def attachable : Conversations.MediaAsset where
  key := asset.key
  createdBy := asset.createdById
  isPrivate := asset.isPrivate

end MediaAsset

/-! ### Tokens -/

/-- The serializer of the tokens: `dumps` at an instant, and `loads` without an age. -/
structure Serializer where
  dumps : Instant → JsonObject → String
  loads : String → Option Json

/-- A dumped payload is loaded. -/
def Serializer.Documented (T : Serializer) : Prop :=
  ∀ now payload, (payload.map Prod.fst).Nodup → JsonText.Integral (.obj payload) →
    T.loads (T.dumps now payload) = some (.obj payload)

/-- Why a token is refused. -/
inductive TokenError
  | badSignature
  | signatureExpired
deriving DecidableEq

/-- What a token says: a key, the second of its expiry, and its user. -/
structure Grant where
  key : String
  expiresAt : Int
  userId : Option UserId
deriving DecidableEq

/-- The instant of a whole second. -/
def ofSeconds (seconds : Int) : Instant := seconds * 1000000

/-- The payload of `sign_key`. -/
def Grant.payload (grant : Grant) : JsonObject :=
  [("k", .str grant.key), ("exp", .num grant.expiresAt)] ++
    (grant.userId.map fun u => ("u", Json.str (String.ofList (uuidText u)))).toList

/-- `sign_key`. -/
def signKey (T : Serializer) (now : Instant) (ttl : Int) (key : String) (userId : Option UserId) :
    String × Grant :=
  let grant : Grant := { key, expiresAt := now.tdiv 1000000 + ttl, userId }
  (T.dumps now grant.payload, grant)

/-- `isinstance(value, int)` holds of the booleans, too. -/
def intOf : Json → Option Int
  | .num r => if r.den = 1 then some r.num else none
  | .bool b => some (if b then 1 else 0)
  | _ => none

/-- `UUID(text)`. -/
def uuidOf (text : List Char) : Option UUID :=
  let digits := text.filter fun c => c != '-'
  if digits.length = 32 then readHex digits else none

/-- The grant of a payload. -/
def grantOf (payload : JsonObject) : Except TokenError Grant :=
  match payload.lookup "k", payload.lookup "exp" with
  | some (.str key), some exp =>
    match intOf exp with
    | none => .error .badSignature
    | some expiresAt =>
      match payload.lookup "u" with
      | none => .ok { key, expiresAt, userId := none }
      | some (.str text) =>
        match uuidOf text.toList with
        | some userId => .ok { key, expiresAt, userId := some userId }
        | none => .error .badSignature
      | some _ => .error .badSignature
  | _, _ => .error .badSignature

/-- `verify_token`. -/
def verifyToken (T : Serializer) (now : Instant) (token : String) : Except TokenError Grant :=
  match T.loads token with
  | some (.obj payload) => do
    let grant ← grantOf payload
    if ofSeconds grant.expiresAt < now then .error .signatureExpired else .ok grant
  | _ => .error .badSignature

/-! ### Data URLs -/

/-- The digit of six bits. -/
def base64Digit (n : Nat) : Char :=
  "ABCDEFGHIJKLMNOPQRSTUVWXYZabcdefghijklmnopqrstuvwxyz0123456789+/".toList.getD (n % 64) '='

/-- `base64.b64encode`. -/
def b64encode : Bytes → List Char
  | [] => []
  | [a] => [base64Digit (a.toNat / 4), base64Digit (a.toNat * 16), '=', '=']
  | [a, b] =>
    [base64Digit (a.toNat / 4), base64Digit (a.toNat * 16 + b.toNat / 16),
      base64Digit (b.toNat * 4), '=']
  | a :: b :: c :: rest =>
    base64Digit (a.toNat / 4) :: base64Digit (a.toNat * 16 + b.toNat / 16) ::
      base64Digit (b.toNat * 4 + c.toNat / 64) :: base64Digit c.toNat :: b64encode rest

/-- The content type of a key, by its extension. -/
def contentTypeOf (key : String) : String :=
  let ext := String.ofList ((Text.afterLast '.' key.toList).map Char.toLower)
  (extContentType.lookup ext).getD "application/octet-stream"

/-- The data URL of some bytes. -/
def dataUrl (contentType : String) (data : Bytes) : String :=
  "data:" ++ contentType ++ ";base64," ++ String.ofList (b64encode data)

/-- `read_data_url`. Without the blob it raises. -/
def readDataUrl (blobs : String → Option Bytes) (key : String) : Option String :=
  (blobs key).map (dataUrl (contentTypeOf key))

section
variable {pillow : Pillow} {upload : Upload} {image image' : ProcessedImage} {raw : Bytes}
  {id id' : UUID} {today today' : DateTime} {T : Serializer} {now now' : Instant}
  {grant grant' : Grant} {c : Char}

/-! ### What is stored -/

/-- A capped read is not longer than the cap. -/
theorem length_readCapped {total : Nat} {chunks : List Bytes}
    (h : readCapped total chunks = .ok raw) (htotal : total ≤ maxUploadBytes) :
    total + raw.length ≤ maxUploadBytes := by
  induction chunks generalizing total raw with
  | nil =>
    cases h
    exact htotal
  | cons chunk chunks ih =>
    cases chunk with
    | nil =>
      cases h
      exact htotal
    | cons byte bytes =>
      obtain ⟨⟨⟩, hcap, h⟩ := bind_eq_ok.mp h
      obtain ⟨rest, hrest, h⟩ := bind_eq_ok.mp h
      cases h
      rw [check_eq_ok, decide_eq_true_eq] at hcap
      have hle := ih hrest hcap
      show total + (byte :: bytes ++ rest).length ≤ maxUploadBytes
      rw [List.length_append, List.length_cons]
      omega

/-- A processed image has an allowed format, and fits the maximal size. -/
theorem processImage_spec (h : processImage pillow raw = .ok image) :
    (image.ext, image.contentType) ∈ extContentType ∧
      (pillow.Documented → image.width ≤ maxDimension ∧ image.height ≤ maxDimension) := by
  obtain ⟨opened, -, h⟩ := bind_eq_ok.mp h
  obtain ⟨⟨ext, contentType⟩, hentry, h⟩ := bind_eq_ok.mp h
  obtain ⟨turned, -, h⟩ := bind_eq_ok.mp h
  obtain ⟨shrunk, hshrunk, h⟩ := bind_eq_ok.mp h
  obtain ⟨data, -, h⟩ := bind_eq_ok.mp h
  cases h
  rw [found_eq_ok] at hentry hshrunk
  obtain ⟨format, -, hentry⟩ := Option.bind_eq_some_iff.mp hentry
  obtain ⟨before, after, hsplit, -⟩ := List.lookup_eq_some_iff.mp hentry
  have hmem : (format, ext, contentType) ∈ allowedFormats := by
    rw [hsplit]
    exact List.mem_append_right _ List.mem_cons_self
  exact ⟨List.mem_map.mpr ⟨_, hmem, rfl⟩, fun hp => hp (by decide) (by decide) hshrunk⟩

/-- The image of an upload has an allowed format. -/
theorem image_spec (h : upload.image pillow = .ok image) :
    (image.ext, image.contentType) ∈ extContentType := by
  obtain ⟨raw, -, h⟩ := bind_eq_ok.mp h
  exact (processImage_spec h).1

/-! ### Keys -/

/-- A character that is no digit is not in a `UUID`. -/
theorem not_mem_hex (hc : JsonText.hexValue c = none) : c ∉ hex id := by
  intro hmem
  have hdigit := isSome_hexValue_of_mem hmem
  rw [hc] at hdigit
  cases hdigit

/-- A `UUID` ends at the dot behind it. -/
theorem takeWhile_hex (text : List Char) :
    (hex id ++ '.' :: text).takeWhile (fun c => c != '.') = hex id := by
  have hall : ∀ c ∈ hex id, (c != '.') = true := by
    intro c hc
    rw [bne_iff_ne]
    rintro rfl
    exact not_mem_hex (by decide) hc
  rw [List.takeWhile_append_of_pos hall, List.takeWhile_cons_of_neg (by decide), List.append_nil]

/-- The extensions have neither a slash nor a dot, and no capitals. -/
theorem ext_spec (h : (image.ext, image.contentType) ∈ extContentType) :
    '/' ∉ image.ext.toList ∧ '.' ∉ image.ext.toList ∧
      (extContentType.lookup (String.ofList (image.ext.toList.map Char.toLower))) =
        some image.contentType := by
  have hall : ∀ entry ∈ extContentType, '/' ∉ entry.1.toList ∧ '.' ∉ entry.1.toList ∧
      (extContentType.lookup (String.ofList (entry.1.toList.map Char.toLower))) =
        some entry.2 := by
    decide
  exact hall _ h

/-- The last part of a key. -/
theorem afterLast_slash_buildKey (h : (image.ext, image.contentType) ∈ extContentType) :
    Text.afterLast '/' (buildKey today id image.ext).toList = hex id ++
      '.' :: image.ext.toList := by
  rw [buildKey, String.toList_ofList]
  refine Text.afterLast_append ?_ _
  rw [List.mem_append, List.mem_cons, not_or, not_or]
  exact ⟨not_mem_hex (by decide), by decide, (ext_spec h).1⟩

/-- Two uploads with one key have one id. -/
theorem eq_of_buildKey_eq (h : (image.ext, image.contentType) ∈ extContentType)
    (h' : (image'.ext, image'.contentType) ∈ extContentType)
    (hkey : buildKey today id image.ext = buildKey today' id' image'.ext) : id = id' := by
  have hlast : Text.afterLast '/' (buildKey today id image.ext).toList = hex id ++
      '.' :: image.ext.toList :=
    afterLast_slash_buildKey h
  rw [hkey, afterLast_slash_buildKey h'] at hlast
  -- the digits end at the first dot
  have hdigits := congrArg (List.takeWhile fun c => c != '.') hlast
  rw [takeWhile_hex, takeWhile_hex] at hdigits
  exact (eq_of_zeros_eq hdigits).symm

/-- The extension of a key. -/
theorem afterLast_dot_buildKey (h : (image.ext, image.contentType) ∈ extContentType) :
    Text.afterLast '.' (buildKey today id image.ext).toList = image.ext.toList := by
  rw [buildKey, String.toList_ofList, ← List.cons_append, ← List.append_assoc]
  exact Text.afterLast_append (ext_spec h).2.1 _

/-- The content type of a key is that of its upload. -/
theorem contentTypeOf_buildKey (h : (image.ext, image.contentType) ∈ extContentType) :
    contentTypeOf (buildKey today id image.ext) = image.contentType := by
  rw [contentTypeOf, afterLast_dot_buildKey h, (ext_spec h).2.2, Option.getD_some]

/-! ### Tokens -/

/-- The digits of a written `UUID`. -/
theorem filter_uuidText : (uuidText id).filter (fun c => c != '-') = hex id := by
  have hdash : ∀ part : List Char, (∀ c ∈ part, c ∈ hex id) →
      part.filter (fun c => c != '-') = part := by
    intro part hpart
    refine List.filter_eq_self.mpr fun c hc => bne_iff_ne.mpr ?_
    rintro rfl
    exact not_mem_hex (by decide) (hpart _ hc)
  have hpart (n k : Nat) : ∀ c ∈ ((hex id).drop n).take k, c ∈ hex id := fun c hc =>
    List.mem_of_mem_drop (List.mem_of_mem_take hc)
  have hjoin (n k : Nat) : ((hex id).drop n).take k ++ (hex id).drop (n + k) =
      (hex id).drop n := by
    rw [← List.drop_drop, List.take_append_drop]
  have hsingle : ['-'].filter (fun c => c != '-') = [] := by decide
  show (((hex id).drop 0).take 8 ++ ['-'] ++ ((hex id).drop 8).take 4 ++ ['-'] ++
    ((hex id).drop 12).take 4 ++ ['-'] ++ ((hex id).drop 16).take 4 ++ ['-'] ++
    (hex id).drop 20).filter (fun c => c != '-') = hex id
  simp only [List.filter_append, hsingle, List.nil_append, List.append_assoc]
  rw [hdash _ (hpart 0 8), hdash _ (hpart 8 4), hdash _ (hpart 12 4), hdash _ (hpart 16 4),
    hdash _ fun c hc => List.mem_of_mem_drop hc, hjoin 16 4, hjoin 12 4, hjoin 8 4]
  exact hjoin 0 8

/-- A written `UUID` is read as itself. -/
theorem uuidOf_uuidText (h : uuidOf (uuidText id) = some id') : id' = id := by
  unfold uuidOf at h
  rw [filter_uuidText] at h
  dsimp only at h
  split at h
  · have hread : readHex (hex id) = some id := (readHex_zeros _ _).trans (readHex_toDigits id)
    rw [hread] at h
    exact (Option.some.inj h).symm
  · cases h

/-- The fields of a payload. -/
theorem lookup_payload (grant : Grant) : grant.payload.lookup "k" = some (.str grant.key) ∧
    grant.payload.lookup "exp" = some (.num grant.expiresAt) ∧
    grant.payload.lookup "u" = grant.userId.map fun u => .str (String.ofList (uuidText u)) := by
  obtain ⟨key, expiresAt, userId⟩ := grant
  cases userId with
  | none => exact ⟨rfl, rfl, rfl⟩
  | some userId => exact ⟨rfl, rfl, rfl⟩

/-- A payload is read as its grant. -/
theorem grantOf_payload (h : grantOf grant.payload = .ok grant') : grant' = grant := by
  obtain ⟨hkey, hexp, huser⟩ := lookup_payload grant
  have hint : intOf (.num grant.expiresAt) = some grant.expiresAt := by simp [intOf]
  simp only [grantOf, hkey, hexp, hint, huser] at h
  cases hbound : grant.userId with
  | none =>
    rw [hbound] at h
    rw [← Except.ok.inj h, ← hbound]
  | some userId =>
    simp only [hbound, Option.map_some, String.toList_ofList] at h
    split at h
    · rename_i userId' hread
      rw [← Except.ok.inj h, uuidOf_uuidText hread, ← hbound]
    · cases h

/-- The serializer takes a payload. -/
theorem payload_spec (grant : Grant) : (grant.payload.map Prod.fst).Nodup ∧
    JsonText.Integral (.obj grant.payload) := by
  obtain ⟨key, expiresAt, userId⟩ := grant
  cases userId with
  | none =>
    have hkeys : ["k", "exp"].Nodup := by decide
    exact ⟨hkeys, trivial, rfl, trivial⟩
  | some userId =>
    have hkeys : ["k", "exp", "u"].Nodup := by decide
    exact ⟨hkeys, trivial, rfl, trivial, trivial⟩

/-- A token is verified as its grant, until it expires. -/
theorem verifyToken_dumps (hT : T.Documented)
    (h : verifyToken T now' (T.dumps now grant.payload) = .ok grant') :
    grant' = grant ∧ now' ≤ ofSeconds grant.expiresAt := by
  unfold verifyToken at h
  rw [hT now grant.payload (payload_spec grant).1 (payload_spec grant).2] at h
  obtain ⟨read, hread, h⟩ := bind_eq_ok.mp h
  split at h
  · cases h
  · rename_i hfresh
    cases h
    have hsame := grantOf_payload hread
    rw [hsame] at hfresh
    exact ⟨hsame, Int.not_lt.mp hfresh⟩

/-! ### Data URLs -/

/-- The data URL of a stored upload. -/
theorem readDataUrl_buildKey {blobs : String → Option Bytes} {data : Bytes}
    (h : (image.ext, image.contentType) ∈ extContentType)
    (hblob : blobs (buildKey today id image.ext) = some data) :
    readDataUrl blobs (buildKey today id image.ext) = some (dataUrl image.contentType data) := by
  rw [readDataUrl, hblob, contentTypeOf_buildKey h, Option.map_some]

end

end RedTeaming.Images
