import RedTeaming.Media.Storage

/-!
# `RedTeaming.Media.Attachments`: what a provider gets of an attached image

A message may attach the private uploads of its author only. They are checked before the message
is committed, and not again. So the row or the blob can be gone when a later turn builds its
history, but the key never belongs to another upload. The history gets the image from the storage
or from the cache of its process, where it stays for 900 seconds.

`Attached` is the invariant about the checked keys, the caches and the reads in flight.
`shown_as_uploaded` is the result for runs: a provider gets the image that the author has
uploaded, and from the cache of a process no later than 900 seconds after it was put there
(`Puts`).
-/

set_option autoImplicit false

namespace RedTeaming.Images

open RedTeaming.Auth (UserId)
open RedTeaming.Library
open RedTeaming.Media (Books DataUrlCache Instant)

/-- The key is that of a private upload of the user. -/
def OwnImage (env : Env) (s : State) (author : UserId) (key : String) : Prop :=
  ∃ id upload image, UploadOf env s.calls id upload image key ∧ upload.isPrivate = true ∧
    upload.caller = author

/-- The value is the data URL of the upload with the key. -/
def UrlOf (env : Env) (s : State) (key url : String) : Prop :=
  ∃ id upload image, UploadOf env s.calls id upload image key ∧
    url = dataUrl image.contentType image.data

/-- The step puts the value under the key into the cache of the process. -/
def Puts (process : Process) (key url : String) (putAt : Instant) (s : State)
    (l : Label) : Prop :=
  ∃ tx reading, l = .putUrl tx putAt ∧ s.readings tx = some reading ∧ reading.process = process ∧
    reading.attachment.image.imageKey = key ∧ reading.dataUrl = some url

/-- The run has put the value under the key into the cache of the process, to be kept until the
expiry. -/
def Cached (env : Env) (ls : List Label) (process : Process) (key url : String)
    (expiresAt : Instant) : Prop :=
  ∃ putAt, Once (step env) (Puts process key url putAt) .initial ls ∧
    expiresAt = DataUrlCache.expiresAt 900 putAt

/-- Attachments are private uploads of their author. A cached, read or shown data URL is that of
the upload. -/
structure Attached (env : Env) (ls : List Label) (s : State) : Prop where
  attaching : ∀ tx message, s.attaching tx = some message →
    ∀ k ∈ message.imageKeys, OwnImage env s message.caller k
  attachments : ∀ t ∈ s.attachments, OwnImage env s t.author t.image.imageKey
  caches : ∀ p, (Books (s.caches p) ∧ (s.caches p).ttlSeconds = 900) ∧
    ∀ entry ∈ (s.caches p).entries.entries, UrlOf env s entry.1 entry.2.1 ∧
      Cached env ls p entry.1 entry.2.1 entry.2.2
  readings : ∀ tx reading, s.readings tx = some reading → reading.attachment ∈ s.attachments ∧
    ∀ url, reading.dataUrl = some url → UrlOf env s reading.attachment.image.imageKey url
  shown : ∀ x ∈ s.shown, x.attachment ∈ s.attachments ∧
    UrlOf env s x.attachment.image.imageKey x.dataUrl ∧
    ∃ expiresAt, Cached env ls x.process x.attachment.image.imageKey x.dataUrl expiresAt ∧
      x.shownAt < expiresAt

section
variable {env : Env} {s s' : State} {l : Label} {ls : List Label} {tx : Tx} {now : Instant}
  {key url : String} {keys : List String} {author : UserId} {t : Attachment}

/-! ### Checks -/

/-- Keys that pass the check have private rows of the caller. -/
theorem of_validateAttachments {assets : List Conversations.MediaAsset}
    (h : Conversations.validateAttachments assets author keys = .ok ()) : ∀ k ∈ keys,
    ∃ asset ∈ assets, asset.key = k ∧ asset.createdBy = author ∧ asset.isPrivate = true := by
  induction keys with
  | nil => exact fun k hk => absurd hk List.not_mem_nil
  | cons key keys ih =>
    unfold Conversations.validateAttachments at h
    split at h
    · cases h
    · rename_i asset hfind
      split at h
      · cases h
      · rename_i howner
        split at h
        · cases h
        · rename_i hprivate
          intro k hk
          rcases List.mem_cons.mp hk with rfl | hk
          · have hkey := List.find?_some hfind
            exact ⟨asset, List.mem_of_find?_eq_some hfind, beq_iff_eq.mp hkey,
              not_ne_iff.mp howner, by simpa using hprivate⟩
          · exact ih h k hk

/-- An upload of the author stays one. -/
theorem OwnImage.mono (h : OwnImage env s author key) (hstep : step env s l = some s') :
    OwnImage env s' author key := by
  obtain ⟨id, upload, image, hup, hrest⟩ := h
  exact ⟨id, upload, image, hup.mono (calls_step hstep), hrest⟩

/-- A data URL of an upload stays one. -/
theorem UrlOf.mono (h : UrlOf env s key url) (hstep : step env s l = some s') :
    UrlOf env s' key url := by
  obtain ⟨id, upload, image, hup, hurl⟩ := h
  exact ⟨id, upload, image, hup.mono (calls_step hstep), hurl⟩

theorem Cached.append {process : Process} {expiresAt : Instant}
    (h : Cached env ls process key url expiresAt) (ls' : List Label) :
    Cached env (ls ++ ls') process key url expiresAt := by
  obtain ⟨putAt, hput, hexpires⟩ := h
  exact ⟨putAt, hput.append ls', hexpires⟩

/-- The keys that pass the check are private uploads of the caller. -/
theorem own_of_validate (hs : Stored env s)
    (h : Conversations.validateAttachments s.attachable author keys = .ok ()) :
    ∀ k ∈ keys, OwnImage env s author k := by
  intro k hk
  obtain ⟨asset, hasset, rfl, rfl, hprivate⟩ := of_validateAttachments h k hk
  obtain ⟨a, ha, rfl⟩ := List.mem_map.mp hasset
  obtain ⟨upload, image, hup, hrow⟩ := hs.rows a (List.mem_filter.mp ha).1
  refine ⟨a.id, upload, image, hup, ?_, ?_⟩
  · have hcolumn := congrArg MediaAsset.isPrivate hrow
    exact hcolumn.symm.trans hprivate
  · exact (congrArg MediaAsset.createdById hrow).symm

/-- What is read from the storage is the data URL of the upload. -/
theorem urlOf_of_read (hs : Stored env s) (h : readDataUrl s.blobs key = some url) :
    UrlOf env s key url := by
  obtain ⟨data, hblob, -⟩ := Option.map_eq_some_iff.mp h
  obtain ⟨id, upload, image, hup, rfl⟩ := hs.blobs key data hblob
  rw [← hup.keyed] at h hblob
  rw [readDataUrl_buildKey (image_spec hup.stores) hblob] at h
  exact ⟨id, upload, image, hup, (Option.some.inj h).symm⟩

/-! ### Parts of a step -/

/-- The checked messages after a step: one of before, or one that has just passed. -/
theorem attaching_step (h : step env s l = some s') {message : Attaching}
    (hm : s'.attaching tx = some message) : s.attaching tx = some message ∨
      Conversations.validateAttachments s.attachable message.caller message.imageKeys =
        .ok () := by
  cases step_spec h with
  | validated tx' caller imageKeys hvalid =>
    rcases Records.of_set hm with ⟨rfl, rfl⟩ | ⟨-, hm⟩
    · exact Or.inr hvalid
    · exact Or.inl hm
  | attached tx' message' attaching rows hattaching hrows => exact Or.inl (Records.of_drop hm).2
  | aborted tx' => exact Or.inl (Records.of_drop hm).2
  | _ => exact Or.inl hm

/-- The attachments after a step: one of before, or one of a checked message. -/
theorem attachments_step (h : step env s l = some s') (ht : t ∈ s'.attachments) :
    t ∈ s.attachments ∨ ∃ tx message, s.attaching tx = some message ∧ t.author = message.caller ∧
      t.image.imageKey ∈ message.imageKeys := by
  cases step_spec h with
  | attached tx message attaching rows hattaching hrows =>
    rcases List.mem_append.mp ht with hold | hnew
    · exact Or.inl hold
    · exact Or.inr ⟨tx, attaching, hattaching, hrows t hnew⟩
  | _ => exact Or.inl ht

/-- An attachment stays. -/
theorem mem_attachments_step (h : step env s l = some s') (ht : t ∈ s.attachments) :
    t ∈ s'.attachments := by
  cases step_spec h with
  | attached tx message attaching rows hattaching hrows => exact List.mem_append_left _ ht
  | _ => exact ht

/-- The cache of a process after a step: that of before, or that after one call. -/
theorem caches_step (h : step env s l = some s') (p : Process) : s'.caches p = s.caches p ∨
    (∃ now key, s'.caches p = Media.step (s.caches p) (.get now key)) ∨
    ∃ tx now reading url, l = .putUrl tx now ∧ s.readings tx = some reading ∧
      reading.process = p ∧ reading.dataUrl = some url ∧
      s'.caches p = Media.step (s.caches p) (.put now reading.attachment.image.imageKey url) := by
  have hupdate (process : Process) (cache : DataUrlCache) :
      Function.update s.caches process cache p = s.caches p ∨
        p = process ∧ Function.update s.caches process cache p = cache := by
    by_cases hp : p = process
    · subst hp
      exact Or.inr ⟨rfl, Function.update_self _ _ _⟩
    · exact Or.inl (Function.update_of_ne hp _ _)
  cases step_spec h with
  | hit tx process attachment now dataUrl hattached hcached =>
    rcases hupdate process _ with hsame | ⟨rfl, hnew⟩
    · exact Or.inl hsame
    · exact Or.inr (Or.inl ⟨now, attachment.image.imageKey, hnew⟩)
  | missed tx process attachment now hattached =>
    rcases hupdate process _ with hsame | ⟨rfl, hnew⟩
    · exact Or.inl hsame
    · exact Or.inr (Or.inl ⟨now, attachment.image.imageKey, hnew⟩)
  | put tx now reading dataUrl hreading hread =>
    rcases hupdate reading.process _ with hsame | ⟨rfl, hnew⟩
    · exact Or.inl hsame
    · exact Or.inr (Or.inr ⟨tx, now, reading, dataUrl, rfl, hreading, rfl, hread, hnew⟩)
  | _ => exact Or.inl rfl

/-- The reads in flight after a step: one of before, one that has missed the cache, or one that
has read the storage. -/
theorem readings_step (h : step env s l = some s') {reading : Reading}
    (hr : s'.readings tx = some reading) : s.readings tx = some reading ∨
    reading.attachment ∈ s.attachments ∧ reading.dataUrl = none ∨
    ∃ reading₀ url, s.readings tx = some reading₀ ∧
      reading = { reading₀ with dataUrl := some url } ∧
      readDataUrl s.blobs reading₀.attachment.image.imageKey = some url := by
  cases step_spec h with
  | missed tx' process attachment now hattached =>
    rcases Records.of_set hr with ⟨rfl, rfl⟩ | ⟨-, hr⟩
    · exact Or.inr (Or.inl ⟨hattached, rfl⟩)
    · exact Or.inl hr
  | read tx' reading₀ dataUrl hreading hread =>
    rcases Records.of_set hr with ⟨rfl, rfl⟩ | ⟨-, hr⟩
    · exact Or.inr (Or.inr ⟨reading₀, dataUrl, hreading, rfl, hread⟩)
    · exact Or.inl hr
  | put tx' now reading₀ dataUrl hreading hread => exact Or.inl (Records.of_drop hr).2
  | aborted tx' => exact Or.inl (Records.of_drop hr).2
  | _ => exact Or.inl hr

/-- What is shown after a step: something of before, a value of a cache, or a value that is put
there. -/
theorem shown_step (h : step env s l = some s') {x : Shown} (hx : x ∈ s'.shown) : x ∈ s.shown ∨
    (x.attachment ∈ s.attachments ∧
      ((s.caches x.process).get x.shownAt x.attachment.image.imageKey).1 = some x.dataUrl) ∨
    ∃ tx reading, l = .putUrl tx x.shownAt ∧ s.readings tx = some reading ∧
      reading.process = x.process ∧ reading.attachment = x.attachment ∧
      reading.dataUrl = some x.dataUrl := by
  cases step_spec h with
  | hit tx process attachment now dataUrl hattached hcached =>
    rcases List.mem_append.mp hx with hold | hnew
    · exact Or.inl hold
    · rw [List.mem_singleton.mp hnew]
      exact Or.inr (Or.inl ⟨hattached, hcached⟩)
  | put tx now reading dataUrl hreading hread =>
    rcases List.mem_append.mp hx with hold | hnew
    · exact Or.inl hold
    · rw [List.mem_singleton.mp hnew]
      exact Or.inr (Or.inr ⟨tx, reading, rfl, hreading, rfl, rfl, hread⟩)
  | _ => exact Or.inl hx

/-- A step keeps what attachments and data URLs are. -/
theorem attached_step (hrun : run (step env) .initial ls = some s) (h : Attached env ls s)
    (hstep : step env s l = some s') : Attached env (ls ++ [l]) s' := by
  have hs : Stored env s := stored_run hrun
  refine { attaching := ?_, attachments := ?_, caches := ?_, readings := ?_, shown := ?_ }
  · intro tx message hm k hk
    rcases attaching_step hstep hm with hold | hvalid
    · exact (h.attaching tx message hold k hk).mono hstep
    · exact (own_of_validate hs hvalid k hk).mono hstep
  · intro t ht
    rcases attachments_step hstep ht with hold | ⟨tx, message, hm, hauthor, hkey⟩
    · exact (h.attachments t hold).mono hstep
    · rw [hauthor]
      exact (h.attaching tx message hm _ hkey).mono hstep
  · intro p
    obtain ⟨⟨hbooks, httl⟩, hentries⟩ := h.caches p
    have hold {entry : Media.Entry} (hentry : entry ∈ (s.caches p).entries.entries) :
        UrlOf env s' entry.1 entry.2.1 ∧
          Cached env (ls ++ [l]) p entry.1 entry.2.1 entry.2.2 := by
      obtain ⟨hurl, hcached⟩ := hentries entry hentry
      exact ⟨hurl.mono hstep, hcached.append [l]⟩
    have hcall (call : Media.Call) : Books (Media.step (s.caches p) call) ∧
        (Media.step (s.caches p) call).ttlSeconds = 900 :=
      ⟨Media.step_books hbooks call, (Media.step_settings hbooks call).2.trans httl⟩
    rcases caches_step hstep p with hsame | ⟨now, key, hget⟩ |
      ⟨tx, now, reading, url, rfl, hr, hprocess, hread, hput⟩
    · rw [hsame]
      exact ⟨⟨hbooks, httl⟩, fun entry hentry => hold hentry⟩
    · rw [hget]
      refine ⟨hcall _, fun entry hentry => ?_⟩
      rcases Media.mem_step_entries hbooks hentry with ⟨_, hcall, -⟩ | ⟨hmem, -⟩
      · cases hcall
      · exact hold hmem
    · rw [hput]
      refine ⟨hcall _, fun entry hentry => ?_⟩
      rcases Media.mem_step_entries hbooks hentry with ⟨putAt, hcall, -, hexpires⟩ | ⟨hmem, -⟩
      · injection hcall with hnow hkey hvalue
        subst hnow
        rw [httl] at hexpires
        rw [← hkey, ← hvalue]
        exact ⟨((h.readings tx reading hr).2 url hread).mono hstep,
          now, once_concat hrun ⟨tx, reading, rfl, hr, hprocess, rfl, hread⟩, hexpires⟩
      · exact hold hmem
  · intro tx reading hr
    rcases readings_step hstep hr with hold | ⟨hattached, hnone⟩ |
      ⟨reading₀, url, hr₀, rfl, hread⟩
    · obtain ⟨hattached, hurl⟩ := h.readings tx reading hold
      exact ⟨mem_attachments_step hstep hattached, fun url hsome => (hurl url hsome).mono hstep⟩
    · refine ⟨mem_attachments_step hstep hattached, fun url hsome => ?_⟩
      rw [hnone] at hsome
      cases hsome
    · refine ⟨mem_attachments_step hstep (h.readings tx reading₀ hr₀).1, fun url' hsome => ?_⟩
      cases hsome
      exact (urlOf_of_read hs hread).mono hstep
  · intro x hx
    rcases shown_step hstep hx with hold | ⟨hattached, hhit⟩ |
      ⟨tx, reading, rfl, hr, hprocess, hsame, hread⟩
    · obtain ⟨hattached, hurl, expiresAt, hcached, hlt⟩ := h.shown x hold
      exact ⟨mem_attachments_step hstep hattached, hurl.mono hstep, expiresAt,
        hcached.append [l], hlt⟩
    · obtain ⟨expiresAt, hentry, hlt⟩ := Media.get_eq_some hhit
      have hmem : (x.attachment.image.imageKey, x.dataUrl, expiresAt) ∈
          (s.caches x.process).entries.entries := Dict.get?_eq_some.mp hentry
      obtain ⟨hurl, hcached⟩ := (h.caches x.process).2 _ hmem
      exact ⟨mem_attachments_step hstep hattached, hurl.mono hstep, expiresAt,
        hcached.append [l], hlt⟩
    · have hput : Puts x.process x.attachment.image.imageKey x.dataUrl x.shownAt s
          (.putUrl tx x.shownAt) :=
        ⟨tx, reading, rfl, hr, hprocess, by rw [hsame], hread⟩
      obtain ⟨hattached, hurl⟩ := h.readings tx reading hr
      rw [hsame] at hattached hurl
      refine ⟨mem_attachments_step hstep hattached, (hurl _ hread).mono hstep,
        DataUrlCache.expiresAt 900 x.shownAt, ⟨x.shownAt, once_concat hrun hput, rfl⟩, ?_⟩
      exact Int.lt_add_of_pos_right _ (by decide)

/-! ### Runs -/

/-- What holds of attachments and data URLs in each run. -/
theorem attached_run (hrun : run (step env) .initial ls = some s) : Attached env ls s := by
  have hinitial : Attached env [] .initial := {
    attaching := fun _ _ h => by cases h
    attachments := fun _ h => absurd h List.not_mem_nil
    caches := fun _ => ⟨⟨⟨rfl, Int.natCast_nonneg _⟩, rfl⟩, fun _ h => absurd h List.not_mem_nil⟩
    readings := fun _ _ h => by cases h
    shown := fun _ h => absurd h List.not_mem_nil }
  exact run_history hinitial
    (fun _ _ _ _ hrun h hstep => attached_step hrun h hstep) hrun

/-- What a provider gets of an attachment is the data URL of a private upload of the author of the
message. It was put under the key of the image into the cache of the process that shows it, less
than 900 seconds before. -/
theorem shown_as_uploaded (hrun : run (step env) .initial ls = some s) {x : Shown}
    (hx : x ∈ s.shown) :
    x.attachment ∈ s.attachments ∧
    (∃ id upload image, UploadOf env s.calls id upload image x.attachment.image.imageKey ∧
      upload.isPrivate = true ∧ upload.caller = x.attachment.author ∧
      x.dataUrl = dataUrl image.contentType image.data) ∧
    ∃ putAt, Once (step env)
      (Puts x.process x.attachment.image.imageKey x.dataUrl putAt) .initial ls ∧
      x.shownAt < putAt + 900 * 1000000 := by
  obtain ⟨hattached, ⟨id, upload, image, hup, hurl⟩, expiresAt, ⟨putAt, hput, hexpires⟩, hlt⟩ :=
    (attached_run hrun).shown x hx
  obtain ⟨id', upload', image', hup', hprivate, hcaller⟩ :=
    (attached_run hrun).attachments x.attachment hattached
  obtain ⟨-, rfl, rfl⟩ := hup.unique hup'
  rw [hexpires] at hlt
  exact ⟨hattached, ⟨id, upload, image, hup, hprivate, hcaller, hurl⟩, putAt, hput, hlt⟩

end

/-! ### An image that is gone -/

/-- The attachment of a private upload to a message. -/
def sentAttachment : Attachment where
  author := 1
  image := { message := 7, position := 0, imageKey := (plainAsset true).key }

/-- The image is attached, shown, deleted by its uploader, and shown again in the next turn. -/
def sentAndDeleted : List Label :=
  [.upload 0 10 (plainUpload true), .commitUpload 0 0,
    .validate 0 1 [(plainAsset true).key], .attach 0 7,
    .getUrl 0 0 sentAttachment 1000000, .readUrl 0, .putUrl 0 2000000,
    .delete 1 (plainAsset true).key 1, .commitDelete 1 3000000, .dropBlob 1 true,
    .getUrl 0 0 sentAttachment 900000000]

/-- The second time it comes from the cache. -/
theorem shown_as_uploaded_deleted : ∃ s, run (step plainEnv) .initial sentAndDeleted = some s ∧
    s.blobs (plainAsset true).key = none ∧
    ∃ x ∈ s.shown, x.shownAt = 900000000 ∧ x.attachment ∈ s.attachments ∧
    (∃ id upload image, UploadOf plainEnv s.calls id upload image x.attachment.image.imageKey ∧
      upload.isPrivate = true ∧ upload.caller = x.attachment.author ∧
      x.dataUrl = dataUrl image.contentType image.data) ∧
    ∃ putAt, Once (step plainEnv)
      (Puts x.process x.attachment.image.imageKey x.dataUrl putAt) .initial
        sentAndDeleted ∧
      x.shownAt < putAt + 900 * 1000000 := by
  have hany : (run (step plainEnv) .initial sentAndDeleted).any (fun s =>
      (s.blobs (plainAsset true).key).isNone && s.shown.any fun x => x.shownAt == 900000000) =
        true := by
    decide +kernel
  obtain ⟨s, hrun, hboth⟩ := exists_run_of_any hany
  rw [Bool.and_eq_true, Option.isNone_iff_eq_none] at hboth
  obtain ⟨x, hx, htime⟩ := List.any_eq_true.mp hboth.2
  exact ⟨s, hrun, hboth.1, x, hx, beq_iff_eq.mp htime, shown_as_uploaded hrun hx⟩

end RedTeaming.Images
