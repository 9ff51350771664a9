import RedTeaming.SoftDelete

/-!
# `RedTeaming.Licenses.Catalog`: the catalogue of data licences

`core/licenses/catalog.py`. A curated licence is an entry of a catalogue that ships with the code.
Its row has the id `curatedLicenseId`, a UUID of version 5 of its SPDX id, so that every
deployment derives the same one. `NONE` stands for data without a licence.

A `Catalog` is a list of entries with distinct row ids, `NONE` among them. `shipped` is the one in
the code. The results are about any catalogue.
-/

set_option autoImplicit false

namespace RedTeaming.Licenses

/-! ### `uuid.uuid5` -/

/-- Rotate a word of 32 bits to the left. -/
def rotateLeft (n x : Nat) : Nat := ((x <<< n) ||| (x >>> (32 - n))) % 0x100000000

/-- The number of the bytes, the first one highest. -/
def bytesToNat (bytes : List Nat) : Nat := bytes.foldl (fun n b => n * 256 + b) 0

/-- The bytes of a number, the highest first. -/
def natToBytes (n width : Nat) : List Nat :=
  (List.range width).map fun i => (n >>> (8 * (width - 1 - i))) % 256

/-- The words of the message schedule of SHA-1. The list holds the last word first. -/
def schedule : Nat → List Nat → List Nat
  | 0, ws => ws.reverse
  | n + 1, ws =>
    schedule n
      (rotateLeft 1 (ws.getD 2 0 ^^^ ws.getD 7 0 ^^^ ws.getD 13 0 ^^^ ws.getD 15 0) :: ws)

/-- The five words of the state of SHA-1. -/
structure Sha1 where
  a : Nat
  b : Nat
  c : Nat
  d : Nat
  e : Nat

namespace Sha1

/-- The function and the constant of a round. -/
def mix (t : Nat) (s : Sha1) : Nat :=
  if t < 20 then ((s.b &&& s.c) ||| ((s.b ^^^ 0xFFFFFFFF) &&& s.d)) + 0x5A827999
  else if t < 40 then (s.b ^^^ s.c ^^^ s.d) + 0x6ED9EBA1
  else if t < 60 then ((s.b &&& s.c) ||| (s.b &&& s.d) ||| (s.c &&& s.d)) + 0x8F1BBCDC
  else (s.b ^^^ s.c ^^^ s.d) + 0xCA62C1D6

/-- The rounds from `t` on, a word each. -/
def rounds : Nat → List Nat → Sha1 → Sha1
  | _, [], s => s
  | t, w :: ws, s =>
    rounds (t + 1) ws
      ⟨(rotateLeft 5 s.a + mix t s + s.e + w) % 0x100000000, s.a, rotateLeft 30 s.b, s.c, s.d⟩

/-- The state after a block of 64 bytes. -/
def block (s : Sha1) (bytes : List Nat) : Sha1 :=
  let words := (List.range 16).map fun i => bytesToNat ((bytes.drop (4 * i)).take 4)
  let r := rounds 0 (schedule 64 words.reverse) s
  ⟨(s.a + r.a) % 0x100000000, (s.b + r.b) % 0x100000000, (s.c + r.c) % 0x100000000,
    (s.d + r.d) % 0x100000000, (s.e + r.e) % 0x100000000⟩

/-- The message with its padding, a multiple of 64 bytes. -/
def padded (bytes : List Nat) : List Nat :=
  bytes ++ 0x80 :: List.replicate ((119 - bytes.length % 64) % 64) 0 ++
    natToBytes (8 * bytes.length) 8

/-- The SHA-1 digest. -/
def digest (bytes : List Nat) : Sha1 :=
  (List.range ((padded bytes).length / 64)).foldl
    (fun s i => s.block (((padded bytes).drop (64 * i)).take 64))
    ⟨0x67452301, 0xEFCDAB89, 0x98BADCFE, 0x10325476, 0xC3D2E1F0⟩

end Sha1

/-- `uuid.uuid5`: the first sixteen bytes of the digest, with the version and the variant set. -/
def uuid5 (ns : UUID) (name : String) : UUID :=
  let utf8 := name.toList.flatMap fun c => (String.utf8EncodeChar c).map UInt8.toNat
  let s := Sha1.digest (natToBytes ns 16 ++ utf8)
  (((s.a <<< 96) ||| (s.b <<< 64) ||| (s.c <<< 32) ||| s.d) &&&
    0xFFFFFFFFFFFF0FFF3FFFFFFFFFFFFFFF) ||| 0x50008000000000000000

/-! ### The catalogue -/

/-- `_CURATED_NAMESPACE`. -/
def curatedNamespace : UUID := 0xb1e7c0de010441048104000000000104

/-- `curated_license_id`: the id of the row of a curated licence. The digest is for evaluation
only, no proof looks into it. -/
@[irreducible] def curatedLicenseId (spdxId : String) : UUID := uuid5 curatedNamespace spdxId

/-- `DEFAULT_DATA_LICENSE_SPDX_ID`. -/
def defaultDataLicenseSpdxId : String := "CC-BY-4.0"

/-- `NO_LICENSE_SPDX_ID`: the entry that stands for no licence. -/
def noLicenseSpdxId : String := "NONE"

/-- `CuratedLicense`. `published` is the check of `__post_init__`: an entry that publishes its
SPDX id names where its text lives. -/
structure CuratedLicense where
  spdxId : String
  name : String
  shortDescription : String
  version : Option String := none
  referenceUrl : Option String := none
  content : String := ""
  publishesSpdx : Bool := true
  protectsConversationData : Bool := false
  published : publishesSpdx = true → referenceUrl.getD "" ≠ "" := by decide

namespace CuratedLicense

/-- The id of the row of the entry. -/
def rowId (e : CuratedLicense) : UUID := curatedLicenseId e.spdxId

/-- The entry ships a text. -/
def shipsContent (e : CuratedLicense) : Bool := e.content != ""

end CuratedLicense

/-- A catalogue. No two entries share a row. -/
structure Catalog where
  entries : List CuratedLicense
  nodup : (entries.map CuratedLicense.rowId).Nodup
  noLicense : entries.any (fun e => e.spdxId == noLicenseSpdxId) = true

/-- The id of the row of the entry `NONE`. -/
def noLicenseId : UUID := curatedLicenseId noLicenseSpdxId

namespace Catalog
variable (catalog : Catalog)

/-- `CURATED_BY_ID.get`. -/
def curatedById (licenseId : UUID) : Option CuratedLicense :=
  catalog.entries.find? fun e => e.rowId == licenseId

/-- `is_curated_spdx`. -/
def isCuratedSpdx (spdxId : String) : Bool := catalog.entries.any fun e => e.spdxId == spdxId

/-- `curated_ships_content`: a sync rewrites the text of this row. -/
def curatedShipsContent (licenseId : UUID) : Bool :=
  (catalog.curatedById licenseId).any CuratedLicense.shipsContent

/-- `is_selectable_platform_default`: a curated entry other than `NONE`. -/
def isSelectablePlatformDefault (spdxId : String) : Bool :=
  catalog.isCuratedSpdx spdxId && spdxId != noLicenseSpdxId

variable {catalog}

/-- An entry is found under the id of its row. -/
theorem curatedById_rowId {e : CuratedLicense} (he : e ∈ catalog.entries) :
    catalog.curatedById e.rowId = some e := by
  cases hfind : catalog.curatedById e.rowId with
  | none =>
    have hnone := List.find?_eq_none.mp hfind e he
    simp at hnone
  | some e' =>
    have hmem := List.mem_of_find?_eq_some hfind
    have hkey : e'.rowId = e.rowId := by simpa using List.find?_some hfind
    rw [List.inj_on_of_nodup_map catalog.nodup hmem he hkey]

/-- Whether the row of an entry has its text in code. -/
theorem curatedShipsContent_rowId {e : CuratedLicense} (he : e ∈ catalog.entries) :
    catalog.curatedShipsContent e.rowId = e.shipsContent := by
  rw [curatedShipsContent, curatedById_rowId he, Option.any_some]

/-- A selectable default is an entry, and its row is not the one of `NONE`. -/
theorem exists_of_selectable {spdxId : String}
    (h : catalog.isSelectablePlatformDefault spdxId = true) :
    ∃ e ∈ catalog.entries, e.rowId = curatedLicenseId spdxId ∧ e.rowId ≠ noLicenseId := by
  simp only [isSelectablePlatformDefault, isCuratedSpdx, Bool.and_eq_true, List.any_eq_true,
    beq_iff_eq, bne_iff_ne] at h
  obtain ⟨⟨e, he, hspdx⟩, hne⟩ := h
  obtain ⟨none', hnone, hnoneSpdx⟩ := List.any_eq_true.mp catalog.noLicense
  refine ⟨e, he, by rw [CuratedLicense.rowId, hspdx], fun hsame => hne ?_⟩
  -- two entries with one row are one entry
  have hrow : e.rowId = none'.rowId := by
    rw [hsame, CuratedLicense.rowId, beq_iff_eq.mp hnoneSpdx, noLicenseId]
  rw [← hspdx, List.inj_on_of_nodup_map catalog.nodup he hnone hrow, beq_iff_eq.mp hnoneSpdx]

end Catalog

/-! ### The shipped catalogue -/

/-- `CURATED_LICENSES`. -/
def curatedLicenses : List CuratedLicense := [
  { spdxId := "CC-BY-4.0"
    name := "Creative Commons Attribution 4.0 International"
    version := some "4.0"
    shortDescription :=
      "Share and adapt for any purpose, including commercially, with attribution."
    referenceUrl := some "https://creativecommons.org/licenses/by/4.0/legalcode" },
  { spdxId := "CC-BY-SA-4.0"
    name := "Creative Commons Attribution-ShareAlike 4.0 International"
    version := some "4.0"
    shortDescription :=
      "Attribution required; derivatives must use the same license."
    referenceUrl := some "https://creativecommons.org/licenses/by-sa/4.0/legalcode" },
  { spdxId := "CC-BY-NC-4.0"
    name := "Creative Commons Attribution-NonCommercial 4.0 International"
    version := some "4.0"
    shortDescription :=
      "Attribution required; non-commercial use only."
    referenceUrl := some "https://creativecommons.org/licenses/by-nc/4.0/legalcode" },
  { spdxId := "CC-BY-ND-4.0"
    name := "Creative Commons Attribution-NoDerivatives 4.0 International"
    version := some "4.0"
    shortDescription :=
      "Share for any purpose with attribution; no derivatives may be distributed."
    referenceUrl := some "https://creativecommons.org/licenses/by-nd/4.0/legalcode" },
  { spdxId := "CC-BY-NC-SA-4.0"
    name := "Creative Commons Attribution-NonCommercial-ShareAlike 4.0 International"
    version := some "4.0"
    shortDescription :=
      "Attribution required; non-commercial only; derivatives must use the same " ++
        "license."
    referenceUrl := some "https://creativecommons.org/licenses/by-nc-sa/4.0/legalcode" },
  { spdxId := "CC-BY-NC-ND-4.0"
    name := "Creative Commons Attribution-NonCommercial-NoDerivatives 4.0 International"
    version := some "4.0"
    shortDescription :=
      "Attribution required; non-commercial only; no derivatives may be distributed."
    referenceUrl := some "https://creativecommons.org/licenses/by-nc-nd/4.0/legalcode" },
  { spdxId := "CC0-1.0"
    name := "Creative Commons Zero v1.0 Universal"
    version := some "1.0"
    shortDescription :=
      "Public-domain dedication — no rights reserved, no attribution required."
    referenceUrl := some "https://creativecommons.org/publicdomain/zero/1.0/legalcode" },
  { spdxId := "ODbL-1.0"
    name := "Open Database License v1.0"
    version := some "1.0"
    shortDescription :=
      "Share and adapt databases with attribution and share-alike."
    referenceUrl := some "https://opendatacommons.org/licenses/odbl/1-0/" },
  { spdxId := "ODC-By-1.0"
    name := "Open Data Commons Attribution License v1.0"
    version := some "1.0"
    shortDescription :=
      "Share and adapt databases with attribution."
    referenceUrl := some "https://opendatacommons.org/licenses/by/1-0/" },
  { spdxId := "PDDL-1.0"
    name := "Open Data Commons Public Domain Dedication and License v1.0"
    version := some "1.0"
    shortDescription :=
      "Public-domain dedication for databases — no rights reserved."
    referenceUrl := some "https://opendatacommons.org/licenses/pddl/1-0/" },
  { spdxId := "CDLA-Permissive-2.0"
    name := "Community Data License Agreement Permissive 2.0"
    version := some "2.0"
    shortDescription :=
      "Dataset license: use and share data and derivatives freely, attribution-light."
    referenceUrl := some "https://cdla.dev/permissive-2-0/" },
  { spdxId := "CDLA-Sharing-1.0"
    name := "Community Data License Agreement Sharing 1.0"
    version := some "1.0"
    shortDescription :=
      "Dataset license with copyleft: derived data must be shared under the same " ++
        "terms."
    referenceUrl := some "https://cdla.dev/sharing-1-0/" },
  { spdxId := "NONE"
    name := "No license"
    shortDescription :=
      "Closed data — no sharing, publication, or reuse outside this engagement."
    content :=
      "NO LICENSE — CLOSED DATA\n" ++
        "\n" ++
        "1. No data license applies to this engagement's data.\n" ++
        "2. No rights to use, copy, publish, redistribute, adapt or otherwise reuse the " ++
        "data are granted.\n" ++
        "3. Access is limited to those authorised on the engagement — its members, " ++
        "assigned reviewers and platform administrators — and only through this " ++
        "platform. Viewing grants no right to share.\n" ++
        "4. Exports carry \"No license\" and remain the property of the engagement's " ++
        "owner, governed by the agreement between the parties rather than by this " ++
        "entry.\n" ++
        "5. To make the data shareable, select an explicit data license on the " ++
        "evaluation group or on an individual evaluation.\n"
    publishesSpdx := false
    protectsConversationData := true }]

/-- The catalogue that the code ships. -/
def shipped : Catalog where
  entries := curatedLicenses
  nodup := by decide +kernel
  noLicense := by decide +kernel

/-- The shipped default may be the platform default. -/
example : shipped.isSelectablePlatformDefault defaultDataLicenseSpdxId = true := by decide +kernel

/-- `effective_license`: the most specific override that is set, else the default. -/
def effectiveLicense {α : Type} (overrides : List (Option α)) (default : α) : α :=
  (overrides.findSome? id).getD default

end RedTeaming.Licenses
