import RedTeaming.Media.System

/-!
# `RedTeaming.Media.Storage`: an image stays until its uploader or the sweep removes it

The blob of an upload is stored before its row, and dropped after the tombstone of its row.
`Stored` is the invariant behind this: a live row has its blob, and each blob has the bytes of the
upload with its key. No two uploads share a key, so no upload touches the blob of another.

`Caused` ties each tombstone to what has happened before. Either its uploader has asked for it, or
the sweep has selected the row when it was older than the grace period and no cover or attachment
had its key. A cover or an attachment that is committed between the `SELECT` and the commit of the
sweep comes too late. `images_survive` is the result for runs.
-/

set_option autoImplicit false

namespace RedTeaming.Images

open RedTeaming.Auth (UserId)
open RedTeaming.Library
open RedTeaming.Media (DataUrlCache Instant)

/-- The row as it was inserted. -/
def MediaAsset.written (asset : MediaAsset) : MediaAsset :=
  { asset with deletedAt := none, deletedById := none }

/-- The upload with the id stores the image under the key. -/
structure UploadOf (env : Env) (calls : Records UUID Upload) (id : UUID) (upload : Upload)
    (image : ProcessedImage) (key : String) : Prop where
  call : calls id = some upload
  stores : upload.image env.pillow = .ok image
  keyed : buildKey upload.today id image.ext = key

/-- Rows and blobs come from uploads, and a live row has its blob. -/
structure Stored (env : Env) (s : State) : Prop where
  rows : ∀ a ∈ s.assets, ∃ upload image, UploadOf env s.calls a.id upload image a.key ∧
    a.written = .ofUpload upload image a.id a.createdAt
  pending : ∀ tx p, s.uploads tx = some p →
    (∃ key, UploadOf env s.calls p.id p.upload p.image key ∧ s.blobs key = some p.image.data) ∧
      ∀ a ∈ s.assets, a.id ≠ p.id
  once : ∀ tx tx' p p', s.uploads tx = some p → s.uploads tx' = some p' → p.id = p'.id → tx = tx'
  blobs : ∀ key data, s.blobs key = some data →
    ∃ id upload image, UploadOf env s.calls id upload image key ∧ image.data = data
  live : ∀ a ∈ s.assets, a.live = true → (s.blobs a.key).isSome
  doomed : ∀ tx keys, s.doomed tx = some keys → ∀ k ∈ keys, ∃ a ∈ s.assets,
    a.key = k ∧ a.live = false
  deletions : ∀ tx d, s.deletions tx = some d → ∃ a ∈ s.assets, a.key = d.key
  sweeps : ∀ tx keys, s.sweeps tx = some keys → ∀ k ∈ keys, ∃ a ∈ s.assets, a.key = k

/-- A live row with the key is older than the grace period, and no cover or attachment has the
key. -/
def State.Orphan (env : Env) (s : State) (now : Instant) (key : String) : Prop :=
  (∃ a ∈ s.assets, a.key = key ∧ a.live = true ∧
    a.createdAt < now - env.mediaOrphanGraceHours * 3600 * 1000000) ∧
    (∀ cover ∈ s.covers, cover.2 ≠ key) ∧ ∀ attachment ∈ s.attachments,
      attachment.image.imageKey ≠ key

/-- Why the image of the key was removed, in a run of `ls`. -/
inductive Removed (env : Env) (ls : List Label) (key : String) (uploader : UserId) : Prop
  | deleted (tx : Tx) (h : .delete tx key uploader ∈ ls)
  | swept
      (h : Once (step env) (fun s l => ∃ tx now, l = .selectOrphans tx now ∧ s.Orphan env now key)
      .initial ls)

/-- The row is that of an upload within the cap, which stores the image. -/
structure RowOf (env : Env) (calls : Records UUID Upload) (a : MediaAsset)
    (image : ProcessedImage) : Prop where
  upload : ∃ upload raw, calls a.id = some upload ∧ readCapped 0 upload.chunks = .ok raw ∧
    raw.length ≤ maxUploadBytes ∧ processImage env.pillow raw = .ok image ∧
    a.written = .ofUpload upload image a.id a.createdAt
  width : a.width ≤ maxDimension
  height : a.height ≤ maxDimension

/-- The history behind the tombstones, and behind the deletions and sweeps in flight. -/
structure Caused (env : Env) (ls : List Label) (s : State) : Prop where
  rows : ∀ a ∈ s.assets, a.live = false → Removed env ls a.key a.createdById
  deletions : ∀ tx d, s.deletions tx = some d → .delete tx d.key d.caller ∈ ls ∧
    ∃ a ∈ s.assets, a.key = d.key ∧ a.createdById = d.caller
  sweeps : ∀ tx keys, s.sweeps tx = some keys → ∀ k ∈ keys,
    Once (step env) (fun s l => ∃ tx now, l = .selectOrphans tx now ∧ s.Orphan env now k) .initial
      ls

section
variable {env : Env} {s s' : State} {l : Label} {ls : List Label} {tx : Tx} {now : Instant}
  {key : String} {keys : List String} {id id' : UUID} {upload upload' : Upload}
  {image image' : ProcessedImage} {calls calls' : Records UUID Upload} {a a' : MediaAsset}

/-! ### Uploads -/

/-- Two uploads with one key are one upload. -/
theorem UploadOf.unique (h : UploadOf env calls id upload image key)
    (h' : UploadOf env calls id' upload' image' key) :
    id = id' ∧ upload = upload' ∧ image = image' := by
  have hid : id = id' := by
    apply eq_of_buildKey_eq (image_spec h.stores) (image_spec h'.stores)
    rw [h.keyed, h'.keyed]
  subst hid
  have hupload : upload = upload' := Option.some.inj (h.call.symm.trans h'.call)
  subst hupload
  exact ⟨rfl, rfl, Except.ok.inj (h.stores.symm.trans h'.stores)⟩

/-- An upload stays on record while others are added. -/
theorem UploadOf.mono (h : UploadOf env calls id upload image key)
    (hcalls : calls id = some upload → calls' id = some upload) :
    UploadOf env calls' id upload image key := { h with call := hcalls h.call }

/-- The key of a new upload is that of no other. -/
theorem UploadOf.ne_buildKey (h : UploadOf env calls id upload image key)
    (hnew : calls id' = none) (himage : upload'.image env.pillow = .ok image') :
    buildKey upload'.today id' image'.ext ≠ key := by
  intro hkey
  have hid : id' = id := by
    apply eq_of_buildKey_eq (image_spec himage) (image_spec h.stores)
    rw [hkey, h.keyed]
  have hcall := h.call
  rw [← hid, hnew] at hcall
  cases hcall

/-- The key of a row is that of its upload. -/
theorem key_written (h : a'.written = a.written) : a'.key = a.key := by
  show a'.written.key = a.written.key
  rw [h]

/-- The id of a row is that of its upload. -/
theorem id_written (h : a'.written = a.written) : a'.id = a.id := by
  show a'.written.id = a.written.id
  rw [h]

/-- A found live row is a row. -/
theorem liveAsset_spec (h : s.liveAsset key = some a) :
    a ∈ s.assets ∧ a.key = key ∧ a.live = true := by
  obtain ⟨hfind, hlive⟩ := Option.filter_eq_some_iff.mp h
  obtain ⟨hmem, hkey⟩ := Table.find?_eq_some.mp hfind
  exact ⟨hmem, hkey, hlive⟩

/-! ### Parts of a step -/

/-- The rows after some tombstones. -/
theorem mem_tombstone {byId : Option UserId} : a' ∈ s.tombstone now byId keys ↔
    ∃ a ∈ s.assets, (if a.key ∈ keys then a.softDelete now byId else a) = a' := Table.mem_mapRows

/-- A tombstone leaves the other columns. -/
theorem tombstone_spec {byId : Option UserId} (h : a' ∈ s.tombstone now byId keys) :
    ∃ a ∈ s.assets, a'.written = a.written ∧ (a' = a ∨ a'.live = false ∧ a.key ∈ keys) := by
  obtain ⟨a, ha, rfl⟩ := mem_tombstone.mp h
  refine ⟨a, ha, ?_⟩
  split
  · rename_i hkey
    exact ⟨rfl, Or.inr ⟨rfl, hkey⟩⟩
  · exact ⟨rfl, Or.inl rfl⟩

/-- The rows with the keys carry a tombstone. -/
theorem exists_tombstone {byId : Option UserId} (ha : a ∈ s.assets) :
    ∃ a' ∈ s.tombstone now byId keys, a'.written = a.written ∧
      (a.live = false ∨ a.key ∈ keys → a'.live = false) := by
  refine ⟨_, mem_tombstone.mpr ⟨a, ha, rfl⟩, ?_⟩
  split
  · exact ⟨rfl, fun _ => rfl⟩
  · rename_i hkey
    exact ⟨rfl, fun h => h.elim (fun hdead => hdead) fun hmem => absurd hmem hkey⟩

/-- An upload of a step is new. The others stay. -/
theorem calls_step (h : step env s l = some s') (hcall : s.calls id = some upload) :
    s'.calls id = some upload := by
  cases step_spec h with
  | uploaded tx id' upload' image hnew himage =>
    have hne : id ≠ id' := by
      rintro rfl
      rw [hnew] at hcall
      cases hcall
    show s.calls.set id' upload' id = some upload
    rw [Records.set_of_ne hne]
    exact hcall
  | _ => exact hcall

/-- The rows after a step: a row of before, maybe with a tombstone, or the row of an upload. -/
theorem assets_step (h : step env s l = some s') : ∀ a' ∈ s'.assets,
    (∃ a ∈ s.assets, a'.written = a.written ∧ (a'.live = true → a' = a)) ∨
      ∃ tx now p, l = .commitUpload tx now ∧ s.uploads tx = some p ∧
        a' = .ofUpload p.upload p.image p.id now := by
  intro a' ha'
  have htombstone {byId : Option UserId} {now : Instant} {keys : List String}
      (ha' : a' ∈ s.tombstone now byId keys) :
      ∃ a ∈ s.assets, a'.written = a.written ∧ (a'.live = true → a' = a) := by
    obtain ⟨a, ha, hwritten, hsame | ⟨hdead, -⟩⟩ := tombstone_spec ha'
    · exact ⟨a, ha, hwritten, fun _ => hsame⟩
    · refine ⟨a, ha, hwritten, fun hlive => ?_⟩
      rw [hdead] at hlive
      cases hlive
  cases step_spec h with
  | committed tx now p assets hpending hinsert =>
    rcases (Table.mem_insertAll hinsert).mp ha' with hold | hnew
    · exact Or.inl ⟨a', hold, rfl, fun _ => rfl⟩
    · exact Or.inr ⟨tx, now, p, rfl, hpending, List.mem_singleton.mp hnew⟩
  | deleted tx now d hdeletion => exact Or.inl (htombstone ha')
  | swept tx now keys hkeys => exact Or.inl (htombstone ha')
  | _ => exact Or.inl ⟨a', ha', rfl, fun _ => rfl⟩

/-- A row stays, and so does its tombstone. -/
theorem exists_assets_step (h : step env s l = some s') (ha : a ∈ s.assets) :
    ∃ a' ∈ s'.assets, a'.written = a.written ∧ (a.live = false → a'.live = false) := by
  cases step_spec h with
  | committed tx now p assets hpending hinsert =>
    exact ⟨a, (Table.mem_insertAll hinsert).mpr (Or.inl ha), rfl, fun hdead => hdead⟩
  | deleted tx now d hdeletion =>
    obtain ⟨a', ha', hwritten, hdead⟩ := exists_tombstone ha
    exact ⟨a', ha', hwritten, fun h => hdead (Or.inl h)⟩
  | swept tx now keys hkeys =>
    obtain ⟨a', ha', hwritten, hdead⟩ := exists_tombstone ha
    exact ⟨a', ha', hwritten, fun h => hdead (Or.inl h)⟩
  | _ => exact ⟨a, ha, rfl, fun hdead => hdead⟩

/-- A row with the key stays. -/
theorem exists_key_step (h : step env s l = some s') (ha : ∃ a ∈ s.assets, a.key = key) :
    ∃ a ∈ s'.assets, a.key = key := by
  obtain ⟨a, ha, hkey⟩ := ha
  obtain ⟨a', ha', hwritten, -⟩ := exists_assets_step h ha
  exact ⟨a', ha', (key_written hwritten).trans hkey⟩

/-- The uploads in flight after a step: one of before, or a new one. -/
theorem uploads_step (h : step env s l = some s') {p : Pending} (hp : s'.uploads tx = some p) :
    (s.uploads tx = some p ∧ ∀ now, l ≠ .commitUpload tx now) ∨
      l = .upload tx p.id p.upload ∧ s.calls p.id = none ∧
        p.upload.image env.pillow = .ok p.image := by
  cases step_spec h with
  | uploaded tx' id upload image hnew himage =>
    rcases Records.of_set hp with ⟨rfl, rfl⟩ | ⟨-, hp⟩
    · exact Or.inr ⟨rfl, hnew, himage⟩
    · exact Or.inl ⟨hp, fun _ => Label.noConfusion⟩
  | committed tx' now p' assets hpending hinsert =>
    obtain ⟨hne, hp⟩ := Records.of_drop hp
    refine Or.inl ⟨hp, fun now' hl => hne ?_⟩
    cases hl
    rfl
  | aborted tx' => exact Or.inl ⟨(Records.of_drop hp).2, fun _ => Label.noConfusion⟩
  | _ => exact Or.inl ⟨hp, fun _ => Label.noConfusion⟩

/-- The blobs after a step: one of before, or the one of an upload. -/
theorem blobs_step (h : step env s l = some s') {data : Bytes}
    (hblob : s'.blobs key = some data) :
    s.blobs key = some data ∨ ∃ tx id upload image, l = .upload tx id upload ∧ s.calls id = none ∧
      upload.image env.pillow = .ok image ∧ buildKey upload.today id image.ext = key ∧
      image.data = data := by
  cases step_spec h with
  | uploaded tx id upload image hnew himage =>
    dsimp only at hblob
    rcases Records.of_set hblob with ⟨rfl, rfl⟩ | ⟨-, hblob⟩
    · exact Or.inr ⟨tx, id, upload, image, rfl, hnew, himage, rfl, rfl⟩
    · exact Or.inl hblob
  | dropped tx dropped k keys hdoomed =>
    dsimp only at hblob
    split at hblob
    · exact Or.inl (Records.of_drop hblob).2
    · exact Or.inl hblob
  | _ => exact Or.inl hblob

/-- A blob stays, unless an upload has its key, or its row is doomed. -/
theorem exists_blobs_step (h : step env s l = some s') {data : Bytes}
    (hblob : s.blobs key = some data) :
    s'.blobs key = some data ∨
      (∃ tx id upload image, l = .upload tx id upload ∧ s.calls id = none ∧
        upload.image env.pillow = .ok image ∧ buildKey upload.today id image.ext = key) ∨
      ∃ tx keys, s.doomed tx = some (key :: keys) := by
  cases step_spec h with
  | uploaded tx id upload image hnew himage =>
    by_cases hkey : key = buildKey upload.today id image.ext
    · exact Or.inr (Or.inl ⟨tx, id, upload, image, rfl, hnew, himage, hkey.symm⟩)
    · refine Or.inl ?_
      dsimp only
      rw [Records.set_of_ne hkey]
      exact hblob
  | dropped tx dropped k keys hdoomed =>
    by_cases hkey : key = k
    · rw [← hkey] at hdoomed
      exact Or.inr (Or.inr ⟨tx, keys, hdoomed⟩)
    · refine Or.inl ?_
      dsimp only
      split
      · rw [Records.drop_of_ne hkey]
        exact hblob
      · exact hblob
  | _ => exact Or.inl hblob

/-- The doomed keys after a step: one of before, or one of a commit. -/
theorem doomed_step (h : step env s l = some s') (hkeys : s'.doomed tx = some keys)
    (hk : key ∈ keys) :
    (∃ keys', s.doomed tx = some keys' ∧ key ∈ keys') ∨
    (∃ now d, l = .commitDelete tx now ∧ s.deletions tx = some d ∧ key = d.key ∧
      s'.assets = s.tombstone now (some d.caller) [key]) ∨
    ∃ now keys', l = .commitSweep tx now ∧ s.sweeps tx = some keys' ∧ key ∈ keys' ∧
      s'.assets = s.tombstone now none keys' := by
  cases step_spec h with
  | deleted tx' now d hdeletion =>
    rcases Records.of_set hkeys with ⟨rfl, rfl⟩ | ⟨-, hold⟩
    · rw [List.mem_singleton.mp hk]
      exact Or.inr (Or.inl ⟨now, d, rfl, hdeletion, rfl, rfl⟩)
    · exact Or.inl ⟨keys, hold, hk⟩
  | swept tx' now keys' hkeys' =>
    rcases Records.of_set hkeys with ⟨rfl, rfl⟩ | ⟨-, hold⟩
    · exact Or.inr (Or.inr ⟨now, keys, rfl, hkeys', hk, rfl⟩)
    · exact Or.inl ⟨keys, hold, hk⟩
  | dropped tx' dropped k keys' hdoomed =>
    rcases Records.of_set hkeys with ⟨rfl, rfl⟩ | ⟨-, hold⟩
    · exact Or.inl ⟨_, hdoomed, List.mem_cons_of_mem k hk⟩
    · exact Or.inl ⟨keys, hold, hk⟩
  | aborted tx' => exact Or.inl ⟨keys, (Records.of_drop hkeys).2, hk⟩
  | _ => exact Or.inl ⟨keys, hkeys, hk⟩

/-- The deletions in flight after a step: one of before, or one that has just passed its
checks. -/
theorem deletions_step (h : step env s l = some s') {d : Deletion}
    (hd : s'.deletions tx = some d) :
    s.deletions tx = some d ∨ l = .delete tx d.key d.caller ∧
      ∃ a ∈ s.assets, a.key = d.key ∧ a.createdById = d.caller := by
  cases step_spec h with
  | deleting tx' k caller a hasset howner =>
    rcases Records.of_set hd with ⟨rfl, rfl⟩ | ⟨-, hd⟩
    · obtain ⟨hmem, hkey, -⟩ := liveAsset_spec hasset
      rw [← hkey]
      exact Or.inr ⟨rfl, a, hmem, rfl, howner⟩
    · exact Or.inl hd
  | deleted tx' now d' hdeletion => exact Or.inl (Records.of_drop hd).2
  | aborted tx' => exact Or.inl (Records.of_drop hd).2
  | _ => exact Or.inl hd

/-- The sweeps in flight after a step: one of before, or one that has just selected its rows. -/
theorem sweeps_step (h : step env s l = some s') (hkeys : s'.sweeps tx = some keys) :
    s.sweeps tx = some keys ∨ ∃ now, l = .selectOrphans tx now ∧ keys = s.orphans env now := by
  cases step_spec h with
  | selected tx' now =>
    rcases Records.of_set hkeys with ⟨rfl, rfl⟩ | ⟨-, hkeys⟩
    · exact Or.inr ⟨now, rfl, rfl⟩
    · exact Or.inl hkeys
  | swept tx' now keys' hkeys' => exact Or.inl (Records.of_drop hkeys).2
  | aborted tx' => exact Or.inl (Records.of_drop hkeys).2
  | _ => exact Or.inl hkeys

/-- An upload is on record after its step, and its blob is stored. -/
theorem upload_step (h : step env s (.upload tx id upload) = some s')
    (himage : upload.image env.pillow = .ok image) :
    UploadOf env s'.calls id upload image (buildKey upload.today id image.ext) ∧
      s'.blobs (buildKey upload.today id image.ext) = some image.data := by
  cases step_spec h with
  | uploaded _ _ _ image' hnew himage' =>
    have hsame : image' = image := Except.ok.inj (himage'.symm.trans himage)
    dsimp only
    rw [hsame]
    exact ⟨⟨Records.set_self, himage, rfl⟩, Records.set_self⟩

/-! ### The blobs of the rows -/

/-- A blob of an upload stays, unless a row with its key carries a tombstone. -/
theorem Stored.blobs_step (hs : Stored env s) (h : step env s l = some s')
    (hup : UploadOf env s.calls id upload image key) {data : Bytes}
    (hblob : s.blobs key = some data) :
    s'.blobs key = some data ∨ ∃ a ∈ s.assets, a.key = key ∧ a.live = false := by
  rcases exists_blobs_step h hblob with hkept |
    ⟨tx, id', upload', image', -, hnew, himage, hkey⟩ |
    ⟨tx, keys, hdoomed⟩
  · exact Or.inl hkept
  · exact absurd hkey (hup.ne_buildKey hnew himage)
  · exact Or.inr (hs.doomed tx _ hdoomed key List.mem_cons_self)

/-- A step keeps the blobs behind the rows. -/
theorem stored_step (hs : Stored env s) (hstep : step env s l = some s') : Stored env s' := by
  have hmono {id : UUID} {upload : Upload} {image : ProcessedImage} {key : String}
      (h : UploadOf env s.calls id upload image key) :
        UploadOf env s'.calls id upload image key :=
    h.mono (calls_step hstep)
  refine {
    rows := ?_, pending := ?_, once := ?_, blobs := ?_, live := ?_, doomed := ?_
    deletions := ?_, sweeps := ?_ }
  · intro a' ha'
    rcases assets_step hstep a' ha' with ⟨a, ha, hwritten, -⟩ | ⟨tx, now, p, -, hp, rfl⟩
    · obtain ⟨upload, image, hup, hrow⟩ := hs.rows a ha
      have hcreated : a'.createdAt = a.createdAt := by
        show a'.written.createdAt = a.written.createdAt
        rw [hwritten]
      rw [hwritten, id_written hwritten, key_written hwritten, hcreated]
      exact ⟨upload, image, hmono hup, hrow⟩
    · obtain ⟨⟨key, hup, -⟩, -⟩ := hs.pending tx p hp
      refine ⟨p.upload, p.image, ?_, rfl⟩
      rw [MediaAsset.id_ofUpload, MediaAsset.key_ofUpload, hup.keyed]
      exact hmono hup
  · intro tx p hp
    rcases uploads_step hstep hp with ⟨hp, hopen⟩ | ⟨rfl, hnew, himage⟩
    · obtain ⟨⟨key, hup, hblob⟩, hid⟩ := hs.pending tx p hp
      refine ⟨⟨key, hmono hup, ?_⟩, ?_⟩
      · rcases hs.blobs_step hstep hup hblob with hkept | ⟨a, ha, rfl, -⟩
        · exact hkept
        · -- an upload in flight has no row yet
          obtain ⟨upload, image, hrow, -⟩ := hs.rows a ha
          exact absurd (hrow.unique hup).1 (hid a ha)
      · intro a' ha'
        rcases assets_step hstep a' ha' with ⟨a, ha, hwritten, -⟩ | ⟨tx', now, p', rfl, hp', rfl⟩
        · rw [id_written hwritten]
          exact hid a ha
        · intro hsame
          exact hopen now (by rw [hs.once tx' tx p' p hp' hp hsame])
    · obtain ⟨hup, hblob⟩ := upload_step hstep himage
      refine ⟨⟨_, hup, hblob⟩, ?_⟩
      intro a' ha' hsame
      rcases assets_step hstep a' ha' with ⟨a, ha, hwritten, -⟩ | ⟨tx', now, p', hl, -, -⟩
      · obtain ⟨upload, image, hrow, -⟩ := hs.rows a ha
        have hcall := hrow.call
        rw [← id_written hwritten, hsame, hnew] at hcall
        cases hcall
      · cases hl
  · intro tx tx' p p' hp hp' hsame
    have hold {tx : Tx} {p : Pending} (hp : s.uploads tx = some p) : s.calls p.id ≠ none := by
      obtain ⟨⟨key, hup, -⟩, -⟩ := hs.pending tx p hp
      rw [hup.call]
      exact Option.some_ne_none _
    rcases uploads_step hstep hp with ⟨hp, -⟩ | ⟨hl, hnew, -⟩
    · rcases uploads_step hstep hp' with ⟨hp', -⟩ | ⟨-, hnew', -⟩
      · exact hs.once tx tx' p p' hp hp' hsame
      · rw [← hsame] at hnew'
        exact absurd hnew' (hold hp)
    · rcases uploads_step hstep hp' with ⟨hp', -⟩ | ⟨hl', -, -⟩
      · rw [hsame] at hnew
        exact absurd hnew (hold hp')
      · rw [hl] at hl'
        exact (Label.upload.inj hl').1
  · intro key data hblob
    rcases Images.blobs_step hstep hblob with hold |
      ⟨tx, id, upload, image, rfl, -, himage, rfl, rfl⟩
    · obtain ⟨id, upload, image, hup, hdata⟩ := hs.blobs key data hold
      exact ⟨id, upload, image, hmono hup, hdata⟩
    · exact ⟨id, upload, image, (upload_step hstep himage).1, rfl⟩
  · intro a' ha' hlive
    rcases assets_step hstep a' ha' with ⟨a, ha, -, hsame⟩ | ⟨tx, now, p, hl, hp, rfl⟩
    · obtain rfl := hsame hlive
      obtain ⟨data, hblob⟩ := Option.isSome_iff_exists.mp (hs.live a' ha hlive)
      obtain ⟨upload, image, hup, -⟩ := hs.rows a' ha
      rcases hs.blobs_step hstep hup hblob with hkept | ⟨a₂, ha₂, hkey, hdead⟩
      · rw [hkept]
        rfl
      · rw [Table.eq_of_key_eq ha₂ ha hkey, hlive] at hdead
        cases hdead
    · obtain ⟨⟨key, hup, hblob⟩, hid⟩ := hs.pending tx p hp
      rcases hs.blobs_step hstep hup hblob with hkept | ⟨a, ha, rfl, -⟩
      · rw [MediaAsset.key_ofUpload, hup.keyed, hkept]
        rfl
      · obtain ⟨upload, image, hrow, -⟩ := hs.rows a ha
        exact absurd (hrow.unique hup).1 (hid a ha)
  · intro tx keys hkeys k hk
    rcases doomed_step hstep hkeys hk with ⟨keys', hkeys', hk'⟩ |
      ⟨now, d, rfl, hd, rfl, hassets⟩ |
      ⟨now, keys', rfl, hkeys', hk', hassets⟩
    · obtain ⟨a, ha, rfl, hdead⟩ := hs.doomed tx keys' hkeys' k hk'
      obtain ⟨a', ha', hwritten, hstays⟩ := exists_assets_step hstep ha
      exact ⟨a', ha', key_written hwritten, hstays hdead⟩
    · obtain ⟨a, ha, hkey⟩ := hs.deletions tx d hd
      rw [hassets]
      obtain ⟨a', ha', hwritten, hdead⟩ := exists_tombstone ha
      exact ⟨a', ha', (key_written hwritten).trans hkey,
        hdead (Or.inr (List.mem_singleton.mpr hkey))⟩
    · obtain ⟨a, ha, rfl⟩ := hs.sweeps tx keys' hkeys' k hk'
      rw [hassets]
      obtain ⟨a', ha', hwritten, hdead⟩ := exists_tombstone ha
      exact ⟨a', ha', key_written hwritten, hdead (Or.inr hk')⟩
  · intro tx d hd
    rcases deletions_step hstep hd with hd | ⟨-, a, ha, hkey, -⟩
    · exact exists_key_step hstep (hs.deletions tx d hd)
    · exact exists_key_step hstep ⟨a, ha, hkey⟩
  · intro tx keys hkeys k hk
    rcases sweeps_step hstep hkeys with hkeys | ⟨now, -, rfl⟩
    · exact exists_key_step hstep (hs.sweeps tx keys hkeys k hk)
    · obtain ⟨a, ha, hkey⟩ := List.mem_map.mp hk
      exact exists_key_step hstep ⟨a, (List.mem_filter.mp ha).1, hkey⟩

/-! ### The history of the tombstones -/

/-- The reason stays. -/
theorem Removed.append {uploader : UserId} (h : Removed env ls key uploader) (ls' : List Label) :
    Removed env (ls ++ ls') key uploader := by
  cases h with
  | deleted tx h => exact .deleted tx (List.mem_append_left ls' h)
  | swept h => exact .swept (h.append ls')

/-- The rows that a sweep selects are orphans. -/
theorem orphan_of_mem (h : key ∈ s.orphans env now) : s.Orphan env now key := by
  obtain ⟨a, ha, rfl⟩ := List.mem_map.mp h
  obtain ⟨hmem, horphan⟩ := List.mem_filter.mp ha
  simp only [State.isOrphan, Bool.and_eq_true, decide_eq_true_eq, Bool.not_eq_true',
    List.contains_eq_mem, decide_eq_false_iff_not] at horphan
  obtain ⟨⟨⟨hlive, hold⟩, hcovers⟩, hattachments⟩ := horphan
  refine ⟨⟨a, hmem, rfl, hlive, hold⟩, ?_, ?_⟩
  · intro cover hcover hkey
    exact hcovers (List.mem_map.mpr ⟨cover, hcover, hkey⟩)
  · intro attachment hattachment hkey
    exact hattachments (List.mem_map.mpr ⟨attachment, hattachment, hkey⟩)

/-- A row that carries a tombstone after a step had one before, or a commit of the step has its
key. -/
theorem dead_step (h : step env s l = some s') (ha' : a' ∈ s'.assets) (hdead : a'.live = false) :
    ∃ a ∈ s.assets, a'.written = a.written ∧ (a.live = false ∨
      (∃ tx d, s.deletions tx = some d ∧ a.key = d.key) ∨
        ∃ tx keys, s.sweeps tx = some keys ∧ a.key ∈ keys) := by
  cases step_spec h with
  | committed tx now p assets hpending hinsert =>
    rcases (Table.mem_insertAll hinsert).mp ha' with hold | hnew
    · exact ⟨a', hold, rfl, Or.inl hdead⟩
    · rw [List.mem_singleton.mp hnew] at hdead
      cases hdead
  | deleted tx now d hdeletion =>
    obtain ⟨a, ha, hwritten, rfl | ⟨-, hkey⟩⟩ := tombstone_spec ha'
    · exact ⟨a', ha, hwritten, Or.inl hdead⟩
    · exact ⟨a, ha, hwritten, Or.inr (Or.inl ⟨tx, d, hdeletion, List.mem_singleton.mp hkey⟩)⟩
  | swept tx now keys hkeys =>
    obtain ⟨a, ha, hwritten, rfl | ⟨-, hkey⟩⟩ := tombstone_spec ha'
    · exact ⟨a', ha, hwritten, Or.inl hdead⟩
    · exact ⟨a, ha, hwritten, Or.inr (Or.inr ⟨tx, keys, hkeys, hkey⟩)⟩
  | _ => exact ⟨a', ha', rfl, Or.inl hdead⟩

/-- The uploader of a row stays. -/
theorem createdById_written (h : a'.written = a.written) : a'.createdById = a.createdById := by
  show a'.written.createdById = a.written.createdById
  rw [h]

/-- A step of a run keeps the history. -/
theorem caused_step (hrun : run (step env) .initial ls = some s) (h : Caused env ls s)
    (hstep : step env s l = some s') : Caused env (ls ++ [l]) s' := by
  refine { rows := ?_, deletions := ?_, sweeps := ?_ }
  · intro a' ha' hdead
    obtain ⟨a, ha, hwritten, hcause⟩ := dead_step hstep ha' hdead
    rw [key_written hwritten, createdById_written hwritten]
    refine Removed.append ?_ [l]
    rcases hcause with hdead | ⟨tx, d, hd, hkey⟩ | ⟨tx, keys, hkeys, hmem⟩
    · exact h.rows a ha hdead
    · obtain ⟨hdelete, a₂, ha₂, hkey₂, hcaller⟩ := h.deletions tx d hd
      obtain rfl := Table.eq_of_key_eq ha ha₂ (hkey.trans hkey₂.symm)
      rw [hkey, hcaller]
      exact .deleted tx hdelete
    · exact .swept (h.sweeps tx keys hkeys a.key hmem)
  · intro tx d hd
    have hrow (ha : ∃ a ∈ s.assets, a.key = d.key ∧ a.createdById = d.caller) :
        ∃ a ∈ s'.assets, a.key = d.key ∧ a.createdById = d.caller := by
      obtain ⟨a, ha, hkey, hcaller⟩ := ha
      obtain ⟨a', ha', hwritten, -⟩ := exists_assets_step hstep ha
      exact ⟨a', ha', (key_written hwritten).trans hkey,
        (createdById_written hwritten).trans hcaller⟩
    rcases deletions_step hstep hd with hd | ⟨rfl, ha⟩
    · obtain ⟨hdelete, ha⟩ := h.deletions tx d hd
      exact ⟨List.mem_append_left _ hdelete, hrow ha⟩
    · exact ⟨List.mem_append_right _ List.mem_cons_self, hrow ha⟩
  · intro tx keys hkeys k hk
    rcases sweeps_step hstep hkeys with hkeys | ⟨now, rfl, rfl⟩
    · exact (h.sweeps tx keys hkeys k hk).append [l]
    · exact once_concat hrun ⟨tx, now, rfl, orphan_of_mem hk⟩

/-! ### Runs -/

/-- In each run, rows and blobs come from uploads. -/
theorem stored_run (hrun : run (step env) .initial ls = some s) : Stored env s := by
  have hinitial : Stored env .initial := {
    rows := fun _ h => absurd h Table.not_mem_empty
    pending := fun _ _ h => by cases h
    once := fun _ _ _ _ h => by cases h
    blobs := fun _ _ h => by cases h
    live := fun _ h => absurd h Table.not_mem_empty
    doomed := fun _ _ h => by cases h
    deletions := fun _ _ h => by cases h
    sweeps := fun _ _ h => by cases h }
  exact run_invariant (fun _ _ _ hs hstep => stored_step hs hstep) hinitial hrun

/-- In each run, the tombstones have a reason. -/
theorem caused_run (hrun : run (step env) .initial ls = some s) : Caused env ls s := by
  have hinitial : Caused env [] .initial := {
    rows := fun _ h => absurd h Table.not_mem_empty
    deletions := fun _ _ h => by cases h
    sweeps := fun _ _ h => by cases h }
  exact run_history hinitial (fun _ _ _ _ hrun h hstep => caused_step hrun h hstep) hrun

/-- A row stays in a run, and so does its tombstone. -/
theorem exists_assets_run (hrun : run (step env) s ls = some s') (ha : a ∈ s.assets) :
    ∃ a' ∈ s'.assets, a'.written = a.written := by
  refine run_invariant (I := fun s => ∃ a' ∈ s.assets, a'.written = a.written) ?_
    ⟨a, ha, rfl⟩ hrun
  rintro s l s' ⟨a', ha', hwritten⟩ hstep
  obtain ⟨a'', ha'', hsame, -⟩ := exists_assets_step hstep ha'
  exact ⟨a'', ha'', hsame.trans hwritten⟩

/-- The row of an upload is within the caps. -/
theorem rowOf_of_upload (hp : env.pillow.Documented)
    (hup : UploadOf env calls a.id upload image a.key)
    (hrow : a.written = .ofUpload upload image a.id a.createdAt) : RowOf env calls a image := by
  obtain ⟨raw, hraw, hprocessed⟩ := bind_eq_ok.mp hup.stores
  obtain ⟨hwidth, hheight⟩ := (processImage_spec hprocessed).2 hp
  refine ⟨⟨upload, raw, hup.call, hraw, ?_, hprocessed, hrow⟩, ?_, ?_⟩
  · have hle := length_readCapped hraw (Nat.zero_le _)
    rwa [Nat.zero_add] at hle
  · show a.written.width ≤ maxDimension
    rw [hrow]
    exact hwidth
  · show a.written.height ≤ maxDimension
    rw [hrow]
    exact hheight

/-- A row that is committed stays, with the columns of its upload. Its blob has the bytes of the
upload as long as the row is live. The row gets a tombstone only when its uploader asks for it, or
when the sweep has found that it was older than the grace period and without a reference. -/
theorem images_survive (hp : env.pillow.Documented) (hrun : run (step env) .initial ls = some s)
    {ls' : List Label} (hlater : run (step env) s ls' = some s') (ha : a ∈ s.assets) :
    ∃ a' ∈ s'.assets, a'.written = a.written ∧ ∃ image, RowOf env s'.calls a image ∧
      (a'.live = true ∧ s'.blobs a.key = some image.data ∨
        a'.live = false ∧ Removed env (ls ++ ls') a.key a.createdById) := by
  have hwhole : run (step env) .initial (ls ++ ls') = some s' :=
    (run_append_eq_some (step env)).mpr ⟨s, hrun, hlater⟩
  have hs := stored_run hwhole
  obtain ⟨a', ha', hwritten⟩ := exists_assets_run hlater ha
  obtain ⟨upload, image, hup, hrow⟩ := hs.rows a' ha'
  have hcreated : a'.createdAt = a.createdAt := by
    show a'.written.createdAt = a.written.createdAt
    rw [hwritten]
  rw [hwritten, id_written hwritten, hcreated] at hrow
  rw [id_written hwritten, key_written hwritten] at hup
  refine ⟨a', ha', hwritten, image, rowOf_of_upload hp hup hrow, ?_⟩
  cases hlive : a'.live with
  | true =>
    obtain ⟨data, hblob⟩ := Option.isSome_iff_exists.mp (hs.live a' ha' hlive)
    rw [key_written hwritten] at hblob
    obtain ⟨id, upload', image', hup', rfl⟩ := hs.blobs a.key data hblob
    rw [hblob, (hup'.unique hup).2.2]
    exact Or.inl ⟨rfl, rfl⟩
  | false =>
    have hcause := (caused_run hwhole).rows a' ha' hlive
    rw [key_written hwritten, createdById_written hwritten] at hcause
    exact Or.inr ⟨rfl, hcause⟩

end

/-! ### An image that nobody uses -/

/-- A Pillow for files that are images as they are. -/
def plainPillow : Pillow where
  Image := Bytes
  openImage raw := if raw.isEmpty then none else some raw
  format _ := some "PNG"
  exifTranspose := some
  thumbnail _ := some
  save _ := some
  size _ := (1, 1)

theorem plainPillow_documented : plainPillow.Documented := fun hwidth hheight _ =>
    ⟨hwidth, hheight⟩

/-- A serializer that does not sign. -/
def plainSerializer : Serializer where
  dumps _ payload := String.ofList (JsonText.write ",".toList ":".toList (.obj payload))
  loads token := JsonText.parse token.toList

/-- An environment for examples, with the default settings. -/
def plainEnv : Env where
  pillow := plainPillow
  serializer := plainSerializer
  mediaSignedUrlTtlSeconds := 900
  mediaOrphanGraceHours := 168

/-- A file of three bytes, uploaded by the first user. -/
def plainUpload (isPrivate : Bool) : Upload where
  caller := 1
  chunks := [[1, 2], [3]]
  isPrivate := isPrivate
  today := { year := 2026, month := 7, day := 9, hour := 12, minute := 0, second := 0,
             microsecond := 0 }

/-- The image of that file. -/
def plainImage : ProcessedImage where
  data := [1, 2, 3]
  ext := "png"
  contentType := "image/png"
  width := 1
  height := 1

/-- The row of that upload. -/
def plainAsset (isPrivate : Bool) : MediaAsset :=
  .ofUpload (plainUpload isPrivate) plainImage 10 0

/-- The row is committed. -/
def plainStart : List Label := [.upload 0 10 (plainUpload false), .commitUpload 0 0]

/-- A sweep after eight days. -/
def plainSweep : List Label :=
  [.selectOrphans 1 691200000000, .commitSweep 1 691200000000, .dropBlob 1 true]

/-- The sweep removes a row without a reference, and its blob. -/
theorem images_survive_swept : ∃ s s', run (step plainEnv) .initial plainStart = some s ∧
    run (step plainEnv) s plainSweep = some s' ∧ s'.blobs (plainAsset false).key = none ∧
    ∃ a' ∈ s'.assets, a'.written = (plainAsset false).written ∧ a'.live = false ∧
      Removed plainEnv (plainStart ++ plainSweep) (plainAsset false).key 1 := by
  have hany :
      (run (step plainEnv) .initial plainStart).any (fun s => plainAsset false ∈ s.assets.rows ∧
      (run (step plainEnv) s plainSweep).any fun s' => s'.blobs (plainAsset false).key = none) =
        true := by
    decide +kernel
  obtain ⟨s, hrun, hlater⟩ := exists_run_of_any hany
  rw [decide_eq_true_eq] at hlater
  obtain ⟨hmem, hany⟩ := hlater
  obtain ⟨s', hsweep, hgone⟩ := exists_run_of_any hany
  rw [decide_eq_true_eq] at hgone
  obtain ⟨a', ha', hwritten, image, -, ⟨-, hblob⟩ | ⟨hdead, hcause⟩⟩ :=
    images_survive plainPillow_documented hrun hsweep hmem
  · rw [hgone] at hblob
    cases hblob
  · exact ⟨s, s', hrun, hsweep, hgone, a', ha', hwritten, hdead, hcause⟩

end RedTeaming.Images
