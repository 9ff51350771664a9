import RedTeaming.Library.Records
import RedTeaming.Library.Transition
import RedTeaming.Media.Images

/-!
# `RedTeaming.Media.System`: rows, blobs and requests in flight

The endpoints of `api/v1/images.py`, the sweep of `core/media/tasks.py`, the attachments of
`api/v1/messages.py` and `cached_data_url`. None of them is one step. An upload stores its blob
before its row is committed. A deletion and the sweep commit their tombstones before they drop the
blobs. A response opens its blob after the row was read, and a data URL is put into the cache of
its process after the blob was read.

`calls` is the list of the uploads by the id of their row. No step reads it, but it says that a
UUID does not come twice. `minted`, `responses` and `shown` are what clients and providers have
got.
-/

set_option autoImplicit false

namespace RedTeaming.Images

open RedTeaming.Auth (UserId)
open RedTeaming.Library
open RedTeaming.Media (DataUrlCache Instant)

/-- The packages and the settings. -/
structure Env where
  pillow : Pillow
  serializer : Serializer
  mediaSignedUrlTtlSeconds : Int
  mediaOrphanGraceHours : Int

/-- A request, or a run of the sweep. -/
abbrev Tx := Nat

/-- A process with a cache. -/
abbrev Process := Nat

/-- An upload whose blob is stored. -/
structure Pending where
  id : UUID
  upload : Upload
  image : ProcessedImage

/-- A deletion that has passed its checks. -/
structure Deletion where
  key : String
  caller : UserId
deriving DecidableEq

/-- A request for the bytes of an image. A signed one has its caller, and whether the caller owes
a consent. -/
inductive Request
  | bare (key : String)
  | signed (token : String) (caller : Option UserId) (owes : Bool)
deriving DecidableEq

/-- A request that has found its row. A signed one has the second of its expiry. The clock is read
twice: before the lookup, and after it for the lifetime of a copy. -/
structure Fetch where
  request : Request
  lookedUp : Instant
  agedAt : Instant
  asset : MediaAsset
  expiresAt : Option Int

/-- A response whose blob is open. -/
structure Response where
  request : Request
  lookedUp : Instant
  agedAt : Instant
  body : Bytes
  contentType : String
  cacheControl : String
deriving DecidableEq

/-- A token that was handed out. -/
structure Minted where
  token : String
  grant : Grant
deriving DecidableEq

/-- An attached image, with the user who sent the message. -/
structure Attachment where
  author : UserId
  image : Conversations.MessageImage
deriving DecidableEq

/-- A message whose attachments have passed their checks. -/
structure Attaching where
  caller : UserId
  imageKeys : List String

/-- A call of `cached_data_url` that has missed the cache. -/
structure Reading where
  process : Process
  attachment : Attachment
  dataUrl : Option String

/-- An image that a provider has got inline, from a process. -/
structure Shown where
  process : Process
  attachment : Attachment
  dataUrl : String
  shownAt : Instant
deriving DecidableEq

/-- The rows, the blobs, the caches, the requests in flight, and what has been handed out. -/
structure State where
  assets : Table MediaAsset
  blobs : Records String Bytes
  calls : Records UUID Upload
  uploads : Records Tx Pending
  deletions : Records Tx Deletion
  sweeps : Records Tx (List String)
  doomed : Records Tx (List String)
  fetches : Records Tx Fetch
  attaching : Records Tx Attaching
  readings : Records Tx Reading
  covers : List (UUID × String)
  attachments : List Attachment
  caches : Process → DataUrlCache
  minted : List Minted
  responses : List Response
  shown : List Shown

/-- A step. -/
inductive Label
  | upload (tx : Tx) (id : UUID) (upload : Upload)
  | commitUpload (tx : Tx) (now : Instant)
  | mint (key : String) (caller : Option UserId) (owes : Bool) (now : Instant)
  | lookup (tx : Tx) (request : Request) (now agedAt : Instant)
  | respond (tx : Tx)
  | delete (tx : Tx) (key : String) (caller : UserId)
  | commitDelete (tx : Tx) (now : Instant)
  | selectOrphans (tx : Tx) (now : Instant)
  | commitSweep (tx : Tx) (now : Instant)
  | dropBlob (tx : Tx) (dropped : Bool)
  | setCover (evaluationId : UUID) (coverImage : Option String)
  | validate (tx : Tx) (caller : UserId) (imageKeys : List String)
  | attach (tx : Tx) (message : Conversations.MessageId)
  | getUrl (tx : Tx) (process : Process) (attachment : Attachment) (now : Instant)
  | readUrl (tx : Tx)
  | putUrl (tx : Tx) (now : Instant)
  | abort (tx : Tx)

/-- No live row, or none that the request may see. -/
def imageNotFound : ApiError := .notFound "Image not found."

/-- `TermsAcceptanceRequiredError`. -/
def termsAcceptanceRequired : ApiError :=
  .forbidden "Accept the current terms of service to continue."

/-- The seconds that a copy may be kept. -/
def maxAge (expiresAt now : Instant) : Int := max 0 ((expiresAt - now).tdiv 1000000)

/-- `_CACHE_ONE_YEAR`. -/
def cacheOneYear : String := "public, max-age=31536000, immutable"

/-- The header of a response whose lifetime is computed at `now`. -/
def cacheControl (expiresAt : Option Int) (now : Instant) : String :=
  match expiresAt with
  | none => cacheOneYear
  | some seconds => "private, max-age=" ++ toString (maxAge (ofSeconds seconds) now)

/-- `_stream_asset`. -/
def Fetch.response (fetch : Fetch) (body : Bytes) : Response where
  request := fetch.request
  lookedUp := fetch.lookedUp
  agedAt := fetch.agedAt
  body := body
  contentType := fetch.asset.contentType
  cacheControl := cacheControl fetch.expiresAt fetch.agedAt

/-- The user that a token is bound to. -/
def boundTo (asset : MediaAsset) (caller : Option UserId) (owes : Bool) :
    Except ApiError (Option UserId) :=
  if asset.isPrivate then do
    let userId ← found caller
      (.unauthorized "Authentication required to mint a signed URL for a private image.")
    check (!owes) termsAcceptanceRequired
    return some userId
  else return none

/-- The checks of `fetch_signed_image` on the caller. -/
def authorize (grant : Grant) (caller : Option UserId) (owes : Bool) : Except ApiError Unit :=
  match grant.userId with
  | none => return ()
  | some userId => do
    let callerId ← found caller (.unauthorized "This signed URL requires authentication.")
    check (callerId == userId) (.forbidden "This signed URL is bound to another user.")
    check (!owes) termsAcceptanceRequired

namespace State
variable (env : Env) (s : State)

/-- `_get_live_asset`. -/
def liveAsset (key : String) : Option MediaAsset := (s.assets.find? key).filter fun a => a.live

/-- `upload_image` before its commit. -/
def upload (tx : Tx) (id : UUID) (upload : Upload) : Except ApiError State := do
  let image ← upload.image env.pillow
  return { s with
    calls := s.calls.set id upload
    blobs := s.blobs.set (buildKey upload.today id image.ext) image.data
    uploads := s.uploads.set tx { id, upload, image } }

/-- `mint_signed_url`. -/
def mint (key : String) (caller : Option UserId) (owes : Bool) (now : Instant) :
    Except ApiError State := do
  let asset ← found (s.liveAsset key) imageNotFound
  let userId ← boundTo asset caller owes
  let (token, grant) := signKey env.serializer now env.mediaSignedUrlTtlSeconds asset.key userId
  return { s with minted := s.minted ++ [{ token, grant }] }

/-- The row of a request: `get_image`, and `fetch_signed_image` with its checks. -/
def fetched (request : Request) (now agedAt : Instant) : Except ApiError Fetch :=
  match request with
  | .bare key => do
    let asset ← found (s.liveAsset key) imageNotFound
    check (!asset.isPrivate) imageNotFound
    return { request, lookedUp := now, agedAt, asset, expiresAt := none }
  | .signed token caller owes => do
    let grant ← found (verifyToken env.serializer now token).toOption
      (.forbidden "The signed URL is expired or invalid.")
    authorize grant caller owes
    let asset ← found (s.liveAsset grant.key) imageNotFound
    return { request, lookedUp := now, agedAt, asset, expiresAt := some grant.expiresAt }

/-- `delete_image` before its commit. -/
def delete (tx : Tx) (key : String) (caller : UserId) : Except ApiError State := do
  let asset ← found (s.liveAsset key) imageNotFound
  check (asset.createdById == caller) (.forbidden "Only the uploader may delete this image.")
  return { s with deletions := s.deletions.set tx { key := asset.key, caller } }

/-- The row is live, older than the grace period, and no cover or attachment has its key. -/
def isOrphan (now : Instant) (asset : MediaAsset) : Bool :=
  asset.live && decide (asset.createdAt < now - env.mediaOrphanGraceHours * 3600 * 1000000) &&
    !(s.covers.map Prod.snd).contains asset.key &&
    !(s.attachments.map fun a => a.image.imageKey).contains asset.key

/-- The keys that `reap_orphaned_media` selects. -/
def orphans (now : Instant) : List String := (s.assets.rows.filter (s.isOrphan env now)).map key

/-- The tombstones of some rows. -/
def tombstone (now : Instant) (byId : Option UserId) (keys : List String) : Table MediaAsset :=
  s.assets.mapRows (fun a => if a.key ∈ keys then a.softDelete now byId else a) fun a => by
    split <;> rfl

/-- The rows that a message is checked against. -/
def attachable : List Conversations.MediaAsset :=
  (s.assets.rows.filter MediaAsset.live).map MediaAsset.attachable

/-- `cached_data_url` up to the read of the blob. -/
def getUrl (tx : Tx) (process : Process) (attachment : Attachment) (now : Instant) : State :=
  let got := (s.caches process).get now attachment.image.imageKey
  let caches := Function.update s.caches process got.2
  match got.1 with
  | some dataUrl =>
    { s with caches, shown := s.shown ++ [{ process, attachment, dataUrl, shownAt := now }] }
  | none =>
    { s with caches, readings := s.readings.set tx { process, attachment, dataUrl := none } }

end State

/-- A step of the system. A refusal and a wait are no step. -/
def step (env : Env) (s : State) : Label → Option State
  | .upload tx id upload =>
    if (s.calls id).isSome || (s.uploads tx).isSome then none
      else (s.upload env tx id upload).toOption
  | .commitUpload tx now => do
    let pending ← s.uploads tx
    let asset := MediaAsset.ofUpload pending.upload pending.image pending.id now
    guard (s.assets.rows.all fun a => a.id != asset.id)
    let assets ← s.assets.insertAll [asset]
    return { s with assets, uploads := s.uploads.drop tx }
  | .mint key caller owes now => (s.mint env key caller owes now).toOption
  | .lookup tx request now agedAt =>
    if (s.fetches tx).isSome then none else do
      let fetch ← (s.fetched env request now agedAt).toOption
      return { s with fetches := s.fetches.set tx fetch }
  | .respond tx => do
    let fetch ← s.fetches tx
    let body ← s.blobs fetch.asset.key
    return { s with
      responses := s.responses ++ [fetch.response body], fetches := s.fetches.drop tx }
  | .delete tx key caller =>
    if (s.deletions tx).isSome then none else (s.delete tx key caller).toOption
  | .commitDelete tx now => do
    let deletion ← s.deletions tx
    guard (s.doomed tx).isNone
    return { s with
      assets := s.tombstone now (some deletion.caller) [deletion.key]
      deletions := s.deletions.drop tx, doomed := s.doomed.set tx [deletion.key] }
  | .selectOrphans tx now =>
    if (s.sweeps tx).isSome then none else
      some { s with sweeps := s.sweeps.set tx (s.orphans env now) }
  | .commitSweep tx now => do
    let keys ← s.sweeps tx
    guard (s.doomed tx).isNone
    return { s with
      assets := s.tombstone now none keys
      sweeps := s.sweeps.drop tx, doomed := s.doomed.set tx keys }
  | .dropBlob tx dropped =>
    match s.doomed tx with
    | some (key :: keys) => some { s with
        blobs := if dropped then s.blobs.drop key else s.blobs, doomed := s.doomed.set tx keys }
    | _ => none
  | .setCover evaluationId coverImage =>
    let others := s.covers.filter fun cover => cover.1 != evaluationId
    some { s with covers := others ++ (coverImage.map fun key => (evaluationId, key)).toList }
  | .validate tx caller imageKeys =>
    if (s.attaching tx).isSome then none else do
      (Conversations.validateAttachments s.attachable caller imageKeys).toOption
      return { s with attaching := s.attaching.set tx { caller, imageKeys } }
  | .attach tx message => do
    let attaching ← s.attaching tx
    let rows := attaching.imageKeys.mapIdx fun position imageKey =>
      ({ author := attaching.caller, image := { message, position, imageKey } } : Attachment)
    return { s with attachments := s.attachments ++ rows, attaching := s.attaching.drop tx }
  | .getUrl tx process attachment now => do
    guard (attachment ∈ s.attachments ∧ (s.readings tx).isNone)
    return s.getUrl tx process attachment now
  | .readUrl tx => do
    let reading ← s.readings tx
    let dataUrl ← readDataUrl s.blobs reading.attachment.image.imageKey
    return { s with readings := s.readings.set tx { reading with dataUrl := some dataUrl } }
  | .putUrl tx now => do
    let reading ← s.readings tx
    let dataUrl ← reading.dataUrl
    let cache := (s.caches reading.process).put now reading.attachment.image.imageKey dataUrl
    return { s with
      caches := Function.update s.caches reading.process cache
      shown := s.shown ++ [{
        process := reading.process, attachment := reading.attachment, dataUrl, shownAt := now }]
      readings := s.readings.drop tx }
  | .abort tx =>
    some { s with
      uploads := s.uploads.drop tx
      deletions := s.deletions.drop tx
      sweeps := s.sweeps.drop tx
      doomed := s.doomed.drop tx
      fetches := s.fetches.drop tx
      attaching := s.attaching.drop tx
      readings := s.readings.drop tx }

/-- `_DATA_URL_CACHE` of a new process. -/
def newCache : DataUrlCache := { budgetBytes := 32 * 1024 * 1024, ttlSeconds := 900 }

/-- A new deployment. -/
def State.initial : State where
  assets := .empty
  blobs _ := none
  calls _ := none
  uploads _ := none
  deletions _ := none
  sweeps _ := none
  doomed _ := none
  fetches _ := none
  attaching _ := none
  readings _ := none
  covers := []
  attachments := []
  caches _ := newCache
  minted := []
  responses := []
  shown := []

/-! ### What a step can do -/

/-- What a step can do, with the checks that the proofs need. -/
inductive StepSpec (env : Env) (s : State) : Label → State → Prop
  | uploaded (tx : Tx) (id : UUID) (upload : Upload) (image : ProcessedImage)
      (hnew : s.calls id = none) (himage : upload.image env.pillow = .ok image) :
      StepSpec env s (.upload tx id upload)
        { s with
          calls := s.calls.set id upload
          blobs := s.blobs.set (buildKey upload.today id image.ext) image.data
          uploads := s.uploads.set tx { id, upload, image } }
  | committed (tx : Tx) (now : Instant) (pending : Pending) (assets : Table MediaAsset)
      (hpending : s.uploads tx = some pending)
      (hinsert : s.assets.insertAll
        [MediaAsset.ofUpload pending.upload pending.image pending.id now] = some assets) :
      StepSpec env s (.commitUpload tx now) { s with assets, uploads := s.uploads.drop tx }
  | minted (key : String) (caller : Option UserId) (owes : Bool) (now : Instant)
      (asset : MediaAsset)
      (userId : Option UserId) (hasset : s.liveAsset key = some asset)
      (hbound : boundTo asset caller owes = .ok userId) :
      StepSpec env s (.mint key caller owes now)
        { s with minted := s.minted ++
          [{ token := (signKey env.serializer now env.mediaSignedUrlTtlSeconds asset.key userId).1
             grant := (signKey env.serializer now env.mediaSignedUrlTtlSeconds asset.key userId).2
               }] }
  | lookedUp (tx : Tx) (request : Request) (now agedAt : Instant) (fetch : Fetch)
      (hfetch : s.fetched env request now agedAt = .ok fetch) :
      StepSpec env s (.lookup tx request now agedAt) { s with fetches := s.fetches.set tx fetch }
  | responded (tx : Tx) (fetch : Fetch) (body : Bytes)
      (hfetch : s.fetches tx = some fetch) (hbody : s.blobs fetch.asset.key = some body) :
      StepSpec env s (.respond tx)
        { s with
          responses := s.responses ++ [fetch.response body], fetches := s.fetches.drop tx }
  | deleting (tx : Tx) (key : String) (caller : UserId) (asset : MediaAsset)
      (hasset : s.liveAsset key = some asset) (howner : asset.createdById = caller) :
      StepSpec env s (.delete tx key caller)
        { s with deletions := s.deletions.set tx { key := asset.key, caller } }
  | deleted (tx : Tx) (now : Instant) (deletion : Deletion)
      (hdeletion : s.deletions tx = some deletion) :
      StepSpec env s (.commitDelete tx now)
        { s with
          assets := s.tombstone now (some deletion.caller) [deletion.key]
          deletions := s.deletions.drop tx, doomed := s.doomed.set tx [deletion.key] }
  | selected (tx : Tx) (now : Instant) :
      StepSpec env s (.selectOrphans tx now)
        { s with sweeps := s.sweeps.set tx (s.orphans env now) }
  | swept (tx : Tx) (now : Instant) (keys : List String) (hkeys : s.sweeps tx = some keys) :
      StepSpec env s (.commitSweep tx now)
        { s with
          assets := s.tombstone now none keys
          sweeps := s.sweeps.drop tx, doomed := s.doomed.set tx keys }
  | dropped (tx : Tx) (dropped : Bool) (key : String) (keys : List String)
      (hdoomed : s.doomed tx = some (key :: keys)) :
      StepSpec env s (.dropBlob tx dropped)
        { s with
          blobs := if dropped then s.blobs.drop key else s.blobs, doomed := s.doomed.set tx keys }
  | covered (evaluationId : UUID) (coverImage : Option String) (covers : List (UUID × String)) :
      StepSpec env s (.setCover evaluationId coverImage) { s with covers }
  | validated (tx : Tx) (caller : UserId) (imageKeys : List String)
      (hvalid : Conversations.validateAttachments s.attachable caller imageKeys = .ok ()) :
      StepSpec env s (.validate tx caller imageKeys)
        { s with attaching := s.attaching.set tx { caller, imageKeys } }
  | attached (tx : Tx) (message : Conversations.MessageId) (attaching : Attaching)
      (rows : List Attachment) (hattaching : s.attaching tx = some attaching)
      (hrows : ∀ row ∈ rows, row.author = attaching.caller ∧
        row.image.imageKey ∈ attaching.imageKeys) :
      StepSpec env s (.attach tx message)
        { s with attachments := s.attachments ++ rows, attaching := s.attaching.drop tx }
  | hit (tx : Tx) (process : Process) (attachment : Attachment) (now : Instant) (dataUrl : String)
      (hattached : attachment ∈ s.attachments)
      (hcached : ((s.caches process).get now attachment.image.imageKey).1 = some dataUrl) :
      StepSpec env s (.getUrl tx process attachment now)
        { s with
          caches := Function.update s.caches process
            ((s.caches process).get now attachment.image.imageKey).2
          shown := s.shown ++ [{ process, attachment, dataUrl, shownAt := now }] }
  | missed (tx : Tx) (process : Process) (attachment : Attachment) (now : Instant)
      (hattached : attachment ∈ s.attachments) :
      StepSpec env s (.getUrl tx process attachment now)
        { s with
          caches := Function.update s.caches process
            ((s.caches process).get now attachment.image.imageKey).2
          readings := s.readings.set tx { process, attachment, dataUrl := none } }
  | read (tx : Tx) (reading : Reading) (dataUrl : String)
      (hreading : s.readings tx = some reading)
      (hread : readDataUrl s.blobs reading.attachment.image.imageKey = some dataUrl) :
      StepSpec env s (.readUrl tx)
        { s with readings := s.readings.set tx { reading with dataUrl := some dataUrl } }
  | put (tx : Tx) (now : Instant) (reading : Reading) (dataUrl : String)
      (hreading : s.readings tx = some reading) (hread : reading.dataUrl = some dataUrl) :
      StepSpec env s (.putUrl tx now)
        { s with
          caches := Function.update s.caches reading.process
            ((s.caches reading.process).put now reading.attachment.image.imageKey dataUrl)
          shown := s.shown ++ [{
            process := reading.process, attachment := reading.attachment, dataUrl,
            shownAt := now }]
          readings := s.readings.drop tx }
  | aborted (tx : Tx) :
      StepSpec env s (.abort tx)
        { s with
          uploads := s.uploads.drop tx
          deletions := s.deletions.drop tx
          sweeps := s.sweeps.drop tx
          doomed := s.doomed.drop tx
          fetches := s.fetches.drop tx
          attaching := s.attaching.drop tx
          readings := s.readings.drop tx }

/-- The rows of the attachments of a message. -/
theorem mem_attachRows {author : UserId} {message : Conversations.MessageId}
    {imageKeys : List String} {row : Attachment}
    (h : row ∈ imageKeys.mapIdx fun position imageKey =>
      ({ author, image := { message, position, imageKey } } : Attachment)) :
    row.author = author ∧ row.image.imageKey ∈ imageKeys := by
  obtain ⟨position, hposition, rfl⟩ := List.mem_mapIdx.mp h
  exact ⟨rfl, List.getElem_mem hposition⟩

/-- A step does one of these. -/
theorem step_spec {env : Env} {s s' : State} {l : Label} (h : step env s l = some s') :
    StepSpec env s l s' := by
  cases l with
  | upload tx id upload =>
    simp only [step] at h
    split at h
    · cases h
    · rename_i hopen
      rw [Bool.or_eq_true, not_or] at hopen
      obtain ⟨image, himage, h⟩ := bind_eq_ok.mp (toOption_eq_some.mp h)
      cases h
      exact .uploaded tx id upload image (by simpa using hopen.1) himage
  | commitUpload tx now =>
    obtain ⟨pending, hpending, h⟩ := Option.bind_eq_some_iff.mp h
    obtain ⟨-, -, h⟩ := Option.bind_eq_some_iff.mp h
    obtain ⟨assets, hinsert, h⟩ := Option.bind_eq_some_iff.mp h
    cases h
    exact .committed tx now pending assets hpending hinsert
  | mint key caller owes now =>
    obtain ⟨asset, hasset, h⟩ := bind_eq_ok.mp (toOption_eq_some.mp h)
    obtain ⟨userId, hbound, h⟩ := bind_eq_ok.mp h
    cases h
    exact .minted key caller owes now asset userId (found_eq_ok.mp hasset) hbound
  | lookup tx request now agedAt =>
    simp only [step] at h
    split at h
    · cases h
    · obtain ⟨fetch, hfetch, h⟩ := Option.bind_eq_some_iff.mp h
      cases h
      exact .lookedUp tx request now agedAt fetch (toOption_eq_some.mp hfetch)
  | respond tx =>
    obtain ⟨fetch, hfetch, h⟩ := Option.bind_eq_some_iff.mp h
    obtain ⟨body, hbody, h⟩ := Option.bind_eq_some_iff.mp h
    cases h
    exact .responded tx fetch body hfetch hbody
  | delete tx key caller =>
    simp only [step] at h
    split at h
    · cases h
    · obtain ⟨asset, hasset, h⟩ := bind_eq_ok.mp (toOption_eq_some.mp h)
      obtain ⟨⟨⟩, howner, h⟩ := bind_eq_ok.mp h
      rw [check_eq_ok, beq_iff_eq] at howner
      cases h
      exact .deleting tx key caller asset (found_eq_ok.mp hasset) howner
  | commitDelete tx now =>
    obtain ⟨deletion, hdeletion, h⟩ := Option.bind_eq_some_iff.mp h
    obtain ⟨-, -, h⟩ := Option.bind_eq_some_iff.mp h
    cases h
    exact .deleted tx now deletion hdeletion
  | selectOrphans tx now =>
    simp only [step] at h
    split at h
    · cases h
    · cases h
      exact .selected tx now
  | commitSweep tx now =>
    obtain ⟨keys, hkeys, h⟩ := Option.bind_eq_some_iff.mp h
    obtain ⟨-, -, h⟩ := Option.bind_eq_some_iff.mp h
    cases h
    exact .swept tx now keys hkeys
  | dropBlob tx dropped =>
    simp only [step] at h
    split at h
    · rename_i key keys hdoomed
      cases h
      exact .dropped tx dropped key keys hdoomed
    · cases h
  | setCover evaluationId coverImage =>
    cases h
    exact .covered evaluationId coverImage _
  | validate tx caller imageKeys =>
    simp only [step] at h
    split at h
    · cases h
    · obtain ⟨⟨⟩, hvalid, h⟩ := Option.bind_eq_some_iff.mp h
      cases h
      exact .validated tx caller imageKeys (toOption_eq_some.mp hvalid)
  | attach tx message =>
    obtain ⟨attaching, hattaching, h⟩ := Option.bind_eq_some_iff.mp h
    cases h
    exact .attached tx message attaching _ hattaching fun row hrow => mem_attachRows hrow
  | getUrl tx process attachment now =>
    obtain ⟨⟨⟩, hattached, h⟩ := Option.bind_eq_some_iff.mp h
    have hattached : attachment ∈ s.attachments ∧ (s.readings tx).isNone := by
      simpa using hattached
    cases h
    cases hcached : ((s.caches process).get now attachment.image.imageKey).1 with
    | none =>
      simp only [State.getUrl, hcached]
      exact .missed tx process attachment now hattached.1
    | some dataUrl =>
      simp only [State.getUrl, hcached]
      exact .hit tx process attachment now dataUrl hattached.1 hcached
  | readUrl tx =>
    obtain ⟨reading, hreading, h⟩ := Option.bind_eq_some_iff.mp h
    obtain ⟨dataUrl, hread, h⟩ := Option.bind_eq_some_iff.mp h
    cases h
    exact .read tx reading dataUrl hreading hread
  | putUrl tx now =>
    obtain ⟨reading, hreading, h⟩ := Option.bind_eq_some_iff.mp h
    obtain ⟨dataUrl, hread, h⟩ := Option.bind_eq_some_iff.mp h
    cases h
    exact .put tx now reading dataUrl hreading hread
  | abort tx =>
    cases h
    exact .aborted tx

end RedTeaming.Images
