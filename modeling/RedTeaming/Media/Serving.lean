import RedTeaming.Media.Storage

/-!
# `RedTeaming.Media.Serving`: who gets the bytes of an image

A bare key serves public images only. A signed token serves any image until it expires, and that
of a private image only to the user who has asked for it. A row can go between the lookup and the
opening of the blob, and a token can expire, but `is_private` never changes and a key never gets
other bytes.

`Served` is the invariant about the tokens, the requests in flight and the responses.
`served_as_uploaded` is the result for runs in which nobody forges a token (`Authentic`). The
lifetime of a copy of a signed response, from when it is computed, ends with the token at the
latest (`maxAge_le`). The blob is opened after that, and the clock is not read again.
-/

set_option autoImplicit false

namespace RedTeaming.Images

open RedTeaming.Auth (UserId)
open RedTeaming.Library
open RedTeaming.Media (Instant)

/-- Nobody forges a token: one that is loaded was handed out. -/
def Authentic (env : Env) (s : State) : Label → Prop
  | .lookup _ (.signed token _ _) _ _ =>
    (env.serializer.loads token).isNone = true ∨ token ∈ s.minted.map Minted.token
  | _ => True

instance (env : Env) (s : State) (l : Label) : Decidable (Authentic env s l) := by
  unfold Authentic
  split <;> infer_instance

/-- The request may see the upload of the key, with that expiry. -/
def Allowed (s : State) (upload : Upload) (key : String) (lookedUp : Instant)
    (expiresAt : Option Int) :
    Request → Prop
  | .bare key' => key' = key ∧ upload.isPrivate = false ∧ expiresAt = none
  | .signed token caller owes => ∃ m ∈ s.minted, m.token = token ∧ m.grant.key = key ∧
      expiresAt = some m.grant.expiresAt ∧ lookedUp ≤ ofSeconds m.grant.expiresAt ∧
      (upload.isPrivate = true → caller.isSome ∧ owes = false ∧ m.grant.userId = caller)

/-- Tokens, requests and responses are about uploads. -/
structure Served (env : Env) (s : State) : Prop where
  minted : ∀ m ∈ s.minted, (∃ now, m.token = env.serializer.dumps now m.grant.payload) ∧
    ∃ id upload image, UploadOf env s.calls id upload image m.grant.key ∧
      (upload.isPrivate = true → m.grant.userId.isSome)
  fetches : ∀ tx f, s.fetches tx = some f → ∃ upload image,
    UploadOf env s.calls f.asset.id upload image f.asset.key ∧
      f.asset.contentType = image.contentType ∧
      Allowed s upload f.asset.key f.lookedUp f.expiresAt f.request
  responses : ∀ r ∈ s.responses, ∃ id upload image key expiresAt,
    UploadOf env s.calls id upload image key ∧ r.body = image.data ∧
      r.contentType = image.contentType ∧ Allowed s upload key r.lookedUp expiresAt r.request ∧
      r.cacheControl = cacheControl expiresAt r.agedAt

section
variable {env : Env} {s s' : State} {l : Label} {ls : List Label} {tx : Tx}
  {now agedAt lookedUp : Instant} {key : String} {upload : Upload} {expiresAt : Option Int}
  {request : Request} {a : MediaAsset} {m : Minted} {f : Fetch}

/-! ### Checks -/

/-- A copy is kept until the expiry at most. -/
theorem maxAge_le (expiresAt now : Int) :
    now + maxAge expiresAt now * 1000000 ≤ max now expiresAt := by
  unfold maxAge
  cases Int.le_total now expiresAt with
  | inl hearly =>
    have hpos : 0 ≤ expiresAt - now := by omega
    show now + max 0 ((expiresAt - now).tdiv 1000000) * 1000000 ≤ max now expiresAt
    rw [Int.tdiv_eq_ediv_of_nonneg hpos]
    omega
  | inr hlate =>
    have hpos : 0 ≤ now - expiresAt := by omega
    have hquotient : (expiresAt - now).tdiv 1000000 = -((now - expiresAt) / 1000000) := by
      rw [← Int.tdiv_eq_ediv_of_nonneg hpos, ← Int.neg_tdiv, Int.neg_sub]
    show now + max 0 ((expiresAt - now).tdiv 1000000) * 1000000 ≤ max now expiresAt
    rw [hquotient]
    omega

/-- A token of a private image is bound to the user who asks for it, and who owes no consent. -/
theorem boundTo_spec {caller userId : Option UserId} {owes : Bool}
    (h : boundTo a caller owes = .ok userId) :
    userId = (if a.isPrivate then caller else none) ∧
      (a.isPrivate = true → caller.isSome ∧ owes = false) := by
  unfold boundTo at h
  split at h
  · rename_i hprivate
    obtain ⟨u, hcaller, h⟩ := bind_eq_ok.mp h
    obtain ⟨⟨⟩, howes, h⟩ := bind_eq_ok.mp h
    rw [found_eq_ok] at hcaller
    rw [check_eq_ok, Bool.not_eq_true'] at howes
    cases h
    rw [if_pos hprivate, hcaller]
    exact ⟨rfl, fun _ => ⟨rfl, howes⟩⟩
  · rename_i hpublic
    cases h
    rw [if_neg hpublic]
    exact ⟨rfl, fun hprivate => absurd hprivate hpublic⟩

/-- A bound token passes for its user only. -/
theorem authorize_spec {grant : Grant} {caller : Option UserId} {owes : Bool}
    (h : authorize grant caller owes = .ok ()) (hbound : grant.userId.isSome) :
    caller.isSome ∧ owes = false ∧ grant.userId = caller := by
  obtain ⟨userId, huser⟩ := Option.isSome_iff_exists.mp hbound
  unfold authorize at h
  rw [huser] at h
  obtain ⟨callerId, hcaller, h⟩ := bind_eq_ok.mp h
  obtain ⟨⟨⟩, hsame, h⟩ := bind_eq_ok.mp h
  rw [found_eq_ok] at hcaller
  rw [check_eq_ok, beq_iff_eq] at hsame
  rw [check_eq_ok, Bool.not_eq_true'] at h
  rw [hcaller, huser, hsame]
  exact ⟨rfl, h, rfl⟩

/-! ### Parts of a step -/

/-- A permission stays. -/
theorem Allowed.mono (h : Allowed s upload key lookedUp expiresAt request)
    (hminted : ∀ m ∈ s.minted, m ∈ s'.minted) :
    Allowed s' upload key lookedUp expiresAt request := by
  cases request with
  | bare key' => exact h
  | signed token caller owes =>
    obtain ⟨m, hm, hrest⟩ := h
    exact ⟨m, hminted m hm, hrest⟩

/-- The tokens after a step: one of before, or a new one for a live row. -/
theorem minted_step (h : step env s l = some s') (hm : m ∈ s'.minted) :
    m ∈ s.minted ∨ ∃ caller owes now userId, ∃ a ∈ s.assets, l = .mint a.key caller owes now ∧
      boundTo a caller owes = .ok userId ∧
      m.token = env.serializer.dumps now m.grant.payload ∧
      m.grant = ⟨a.key, now.tdiv 1000000 + env.mediaSignedUrlTtlSeconds, userId⟩ := by
  cases step_spec h with
  | minted k caller owes now a userId hasset hbound =>
    obtain ⟨hmem, rfl, -⟩ := liveAsset_spec hasset
    rcases List.mem_append.mp hm with hold | hnew
    · exact Or.inl hold
    · rw [List.mem_singleton.mp hnew]
      exact Or.inr ⟨caller, owes, now, userId, a, hmem, rfl, hbound, rfl, rfl⟩
  | _ => exact Or.inl hm

/-- A token stays handed out. -/
theorem mem_minted_step (h : step env s l = some s') (hm : m ∈ s.minted) : m ∈ s'.minted := by
  cases step_spec h with
  | minted k caller owes now a userId hasset hbound => exact List.mem_append_left _ hm
  | _ => exact hm

/-- The requests in flight after a step: one of before, or one that has just found its row. -/
theorem fetches_step (h : step env s l = some s') (hf : s'.fetches tx = some f) :
    s.fetches tx = some f ∨ ∃ request now agedAt, l = .lookup tx request now agedAt ∧
      s.fetched env request now agedAt = .ok f := by
  cases step_spec h with
  | lookedUp tx' request now agedAt fetch hfetch =>
    rcases Records.of_set hf with ⟨rfl, rfl⟩ | ⟨-, hf⟩
    · exact Or.inr ⟨request, now, agedAt, rfl, hfetch⟩
    · exact Or.inl hf
  | responded tx' fetch body hfetch hbody => exact Or.inl (Records.of_drop hf).2
  | aborted tx' => exact Or.inl (Records.of_drop hf).2
  | _ => exact Or.inl hf

/-- The responses after a step: one of before, or one whose blob has just been opened. -/
theorem responses_step (h : step env s l = some s') {r : Response} (hr : r ∈ s'.responses) :
    r ∈ s.responses ∨ ∃ tx f body, s.fetches tx = some f ∧ s.blobs f.asset.key = some body ∧
      r = f.response body := by
  cases step_spec h with
  | responded tx fetch body hfetch hbody =>
    rcases List.mem_append.mp hr with hold | hnew
    · exact Or.inl hold
    · exact Or.inr ⟨tx, fetch, body, hfetch, hbody, List.mem_singleton.mp hnew⟩
  | _ => exact Or.inl hr

/-- The row that a request finds is one that it may see. -/
theorem fetched_spec (hT : env.serializer.Documented) (hs : Stored env s) (h : Served env s)
    (hfetched : s.fetched env request now agedAt = .ok f)
    (hauthentic : Authentic env s (.lookup tx request now agedAt)) :
    ∃ upload image, UploadOf env s.calls f.asset.id upload image f.asset.key ∧
      f.asset.contentType = image.contentType ∧
      Allowed s upload f.asset.key f.lookedUp f.expiresAt f.request := by
  have hrow {a : MediaAsset} (ha : a ∈ s.assets) : ∃ upload image,
      UploadOf env s.calls a.id upload image a.key ∧ a.contentType = image.contentType ∧
        a.isPrivate = upload.isPrivate := by
    obtain ⟨upload, image, hup, hwritten⟩ := hs.rows a ha
    refine ⟨upload, image, hup, ?_, ?_⟩
    · show a.written.contentType = image.contentType
      rw [hwritten]
      rfl
    · show a.written.isPrivate = upload.isPrivate
      rw [hwritten]
      rfl
  cases request with
  | bare key =>
    obtain ⟨a, hasset, hfetched⟩ := bind_eq_ok.mp hfetched
    obtain ⟨⟨⟩, hpublic, hfetched⟩ := bind_eq_ok.mp hfetched
    rw [found_eq_ok] at hasset
    rw [check_eq_ok, Bool.not_eq_true'] at hpublic
    cases hfetched
    obtain ⟨hmem, hkey, -⟩ := liveAsset_spec hasset
    obtain ⟨upload, image, hup, htype, hprivate⟩ := hrow hmem
    exact ⟨upload, image, hup, htype, hkey.symm, hprivate ▸ hpublic, rfl⟩
  | signed token caller owes =>
    obtain ⟨grant, hverified, hfetched⟩ := bind_eq_ok.mp hfetched
    obtain ⟨⟨⟩, hcaller, hfetched⟩ := bind_eq_ok.mp hfetched
    obtain ⟨a, hasset, hfetched⟩ := bind_eq_ok.mp hfetched
    rw [found_eq_ok] at hverified hasset
    cases hfetched
    obtain ⟨hmem, hkey, -⟩ := liveAsset_spec hasset
    obtain ⟨upload, image, hup, htype, hprivate⟩ := hrow hmem
    have hverified := toOption_eq_some.mp hverified
    rcases hauthentic with hforged | hminted
    · -- a token that cannot be loaded has no grant
      rw [verifyToken, Option.isNone_iff_eq_none.mp hforged] at hverified
      cases hverified
    · obtain ⟨m, hm, rfl⟩ := List.mem_map.mp hminted
      obtain ⟨⟨mintedAt, htoken⟩, id', upload', image', hup', hbound⟩ := h.minted m hm
      rw [htoken] at hverified
      obtain ⟨rfl, hfresh⟩ := verifyToken_dumps hT hverified
      refine ⟨upload, image, hup, htype, m, hm, rfl, hkey.symm, rfl, hfresh, ?_⟩
      intro hpriv
      rw [← hkey] at hup'
      obtain ⟨-, rfl, -⟩ := hup.unique hup'
      exact authorize_spec hcaller (hbound hpriv)

/-- A step keeps what tokens, requests and responses are about. -/
theorem served_step (hT : env.serializer.Documented) (hs : Stored env s) (h : Served env s)
    (hauthentic : Authentic env s l) (hstep : step env s l = some s') : Served env s' := by
  have hmono {id : UUID} {upload : Upload} {image : ProcessedImage} {key : String}
      (h : UploadOf env s.calls id upload image key) :
        UploadOf env s'.calls id upload image key :=
    h.mono (calls_step hstep)
  have hminted : ∀ m ∈ s.minted, m ∈ s'.minted := fun m hm => mem_minted_step hstep hm
  refine { minted := ?_, fetches := ?_, responses := ?_ }
  · intro m hm
    rcases minted_step hstep hm with hold |
      ⟨caller, owes, now, userId, a, ha, -, hbound, htoken, hgrant⟩
    · obtain ⟨htoken, id, upload, image, hup, hbound⟩ := h.minted m hold
      exact ⟨htoken, id, upload, image, hmono hup, hbound⟩
    · obtain ⟨upload, image, hup, hwritten⟩ := hs.rows a ha
      have hprivate : a.isPrivate = upload.isPrivate := by
        show a.written.isPrivate = upload.isPrivate
        rw [hwritten]
        rfl
      refine ⟨⟨now, htoken⟩, a.id, upload, image, ?_, ?_⟩
      · rw [hgrant]
        exact hmono hup
      · intro hpriv
        obtain ⟨huser, hneeds⟩ := boundTo_spec hbound
        rw [← hprivate] at hpriv
        rw [hgrant, huser, if_pos hpriv]
        exact (hneeds hpriv).1
  · intro tx f hf
    have hlooked
        (hfetch : ∃ upload image, UploadOf env s.calls f.asset.id upload image f.asset.key ∧
        f.asset.contentType = image.contentType ∧
        Allowed s upload f.asset.key f.lookedUp f.expiresAt f.request) : ∃ upload image,
        UploadOf env s'.calls f.asset.id upload image f.asset.key ∧
          f.asset.contentType = image.contentType ∧
          Allowed s' upload f.asset.key f.lookedUp f.expiresAt f.request := by
      obtain ⟨upload, image, hup, htype, hallowed⟩ := hfetch
      exact ⟨upload, image, hmono hup, htype, hallowed.mono hminted⟩
    rcases fetches_step hstep hf with hold | ⟨request, now, agedAt, rfl, hfetched⟩
    · exact hlooked (h.fetches tx f hold)
    · exact hlooked (fetched_spec hT hs h hfetched hauthentic)
  · intro r hr
    rcases responses_step hstep hr with hold | ⟨tx, f, body, hf, hbody, rfl⟩
    · obtain ⟨id, upload, image, key, expiresAt, hup, hdata, htype, hallowed, hcache⟩ :=
        h.responses r hold
      exact ⟨id, upload, image, key, expiresAt, hmono hup, hdata, htype,
        hallowed.mono hminted, hcache⟩
    · obtain ⟨upload, image, hup, htype, hallowed⟩ := h.fetches tx f hf
      -- the blob under the key is that of its upload
      obtain ⟨id', upload', image', hup', rfl⟩ := hs.blobs f.asset.key body hbody
      obtain ⟨-, -, rfl⟩ := hup.unique hup'
      exact ⟨f.asset.id, upload, image, f.asset.key, f.expiresAt, hmono hup, rfl, htype,
        hallowed.mono hminted, rfl⟩

/-! ### Runs -/

/-- The token for the upload of a key. That of a private upload is bound to who asks for it. -/
def tokenFor (env : Env) (upload : Upload) (key : String) (minter : Option UserId)
    (mintedAt : Instant) : String × Grant :=
  signKey env.serializer mintedAt env.mediaSignedUrlTtlSeconds key
    (if upload.isPrivate then minter else none)

/-- A token was asked for by a request of the run, with the upload of its key. -/
def MintedBy (env : Env) (ls : List Label) (s : State) (m : Minted) : Prop :=
  ∃ minter owed mintedAt id upload image, .mint m.grant.key minter owed mintedAt ∈ ls ∧
    UploadOf env s.calls id upload image m.grant.key ∧
    (m.token, m.grant) = tokenFor env upload m.grant.key minter mintedAt ∧
    (upload.isPrivate = true → minter.isSome ∧ owed = false)

/-- Every token comes from a request for it. -/
theorem mintedBy_of_run (hrun : run (step env) .initial ls = some s) :
    ∀ m ∈ s.minted, MintedBy env ls s m := by
  refine run_history (I := fun ls s => ∀ m ∈ s.minted, MintedBy env ls s m) ?_ ?_ hrun
  · intro m hm
    exact absurd hm List.not_mem_nil
  · intro ls s l s' hrun ih hstep m hm
    rcases minted_step hstep hm with hold |
      ⟨caller, owes, now, userId, a, ha, rfl, hbound, htoken, hgrant⟩
    · obtain ⟨minter, owed, mintedAt, id, upload, image, hmint, hup, hrest⟩ := ih m hold
      exact ⟨minter, owed, mintedAt, id, upload, image, List.mem_append_left _ hmint,
        hup.mono (calls_step hstep), hrest⟩
    · obtain ⟨upload, image, hup, hwritten⟩ := (stored_run hrun).rows a ha
      have hprivate : a.isPrivate = upload.isPrivate := by
        show a.written.isPrivate = upload.isPrivate
        rw [hwritten]
        rfl
      obtain ⟨huser, hneeds⟩ := boundTo_spec hbound
      have hkey : m.grant.key = a.key := by rw [hgrant]
      rw [hprivate] at huser hneeds
      rw [MintedBy, hkey]
      refine ⟨caller, owes, now, a.id, upload, image, List.mem_append_right _ List.mem_cons_self,
        hup.mono (calls_step hstep), ?_, hneeds⟩
      rw [htoken, hgrant, huser]
      rfl

/-- What holds of the responses in each run without forged tokens. -/
theorem served_run (hT : env.serializer.Documented) (hrun : run (step env) .initial ls = some s)
    (htokens : Along (step env) (Authentic env) .initial ls) : Served env s := by
  have hinitial : Served env .initial := {
    minted := fun _ h => absurd h List.not_mem_nil
    fetches := fun _ _ h => by cases h
    responses := fun _ h => absurd h List.not_mem_nil }
  have hboth :=
    run_invariant_along (I := fun s => (∃ ls, run (step env) .initial ls = some s) ∧ Served env s)
    ?_ ⟨⟨[], rfl⟩, hinitial⟩ htokens hrun
  · exact hboth.2
  · rintro s l s' ⟨⟨ls, hrun⟩, h⟩ hauthentic hstep
    refine ⟨⟨ls ++ [l], ?_⟩, served_step hT (stored_run hrun) h hauthentic hstep⟩
    exact (run_append_eq_some (step env)).mpr
      ⟨s, hrun, (run_cons_eq_some (step env)).mpr ⟨s', hstep, rfl⟩⟩

/-- When a token stops working that is minted at an instant. -/
def expiry (env : Env) (mintedAt : Instant) : Instant :=
  ofSeconds (mintedAt.tdiv 1000000 + env.mediaSignedUrlTtlSeconds)

/-- How a response came about, in a run of `ls`. The token of a signed one was handed out for the
key, and the copy of the response is kept until the token stops working at most. That of a private
image goes to a user who owes nothing, and who has asked for the token. -/
def Entitled (env : Env) (ls : List Label) (upload : Upload) (key : String)
    (r : Response) : Prop :=
  match r.request with
  | .bare key' => key' = key ∧ upload.isPrivate = false ∧ r.cacheControl = cacheOneYear
  | .signed token caller owes => ∃ minter owed mintedAt, .mint key minter owed mintedAt ∈ ls ∧
      token = (tokenFor env upload key minter mintedAt).1 ∧ r.lookedUp ≤ expiry env mintedAt ∧
      (∃ age : Int, r.cacheControl = "private, max-age=" ++ toString age ∧
        r.agedAt + age * 1000000 ≤ max r.agedAt (expiry env mintedAt)) ∧
      (upload.isPrivate = true → caller.isSome ∧ minter = caller ∧ owes = false ∧ owed = false)

/-- In each run without forged tokens, a response has the bytes and the content type of the upload
with its key, and the request was entitled to them. -/
theorem served_as_uploaded (hT : env.serializer.Documented)
    (hrun : run (step env) .initial ls = some s)
    (htokens : Along (step env) (Authentic env) .initial ls) {r : Response}
    (hr : r ∈ s.responses) :
    ∃ id upload image key, UploadOf env s.calls id upload image key ∧ r.body = image.data ∧
      r.contentType = image.contentType ∧ Entitled env ls upload key r := by
  obtain ⟨id, upload, image, key, expiresAt, hup, hdata, htype, hallowed, hcache⟩ :=
    (served_run hT hrun htokens).responses r hr
  refine ⟨id, upload, image, key, hup, hdata, htype, ?_⟩
  unfold Entitled
  cases hrequest : r.request with
  | bare key' =>
    rw [hrequest] at hallowed
    obtain ⟨hkey, hpublic, rfl⟩ := hallowed
    exact ⟨hkey, hpublic, hcache⟩
  | signed token caller owes =>
    rw [hrequest] at hallowed
    obtain ⟨m, hm, rfl, rfl, rfl, hfresh, hprivate⟩ := hallowed
    obtain ⟨minter, owed, mintedAt, id', upload', image', hmint, hup', hsigned, hneeds⟩ :=
      mintedBy_of_run hrun m hm
    -- the token was handed out for the upload that is served
    obtain ⟨-, rfl, -⟩ := hup.unique hup'
    obtain ⟨htoken, hgrant⟩ := Prod.ext_iff.mp hsigned
    have hexpires : m.grant.expiresAt = mintedAt.tdiv 1000000 + env.mediaSignedUrlTtlSeconds :=
      congrArg Grant.expiresAt hgrant
    have huser : m.grant.userId = if upload.isPrivate then minter else none :=
      congrArg Grant.userId hgrant
    rw [hexpires] at hfresh hcache
    refine ⟨minter, owed, mintedAt, hmint, htoken, hfresh, ⟨_, hcache, maxAge_le _ _⟩, ?_⟩
    intro hpriv
    obtain ⟨hcaller, howes, hsame⟩ := hprivate hpriv
    rw [huser, if_pos hpriv] at hsame
    exact ⟨hcaller, hsame, howes, (hneeds hpriv).2⟩

end

/-! ### A private image -/

theorem plainSerializer_documented : plainSerializer.Documented := by
  intro now payload _ hintegral
  have hblank : ∀ b ∈ ([] : List Char), JsonText.isBlank b = true := fun _ hb =>
      absurd hb List.not_mem_nil
  show JsonText.parse (String.ofList _).toList = some (.obj payload)
  rw [String.toList_ofList]
  exact JsonText.parse_of_reads
    (JsonText.reads_write ⟨[], rfl, hblank⟩ ⟨[], rfl, hblank⟩ _ hintegral)

/-- The token of its uploader. -/
def privateToken : String :=
  (signKey plainSerializer 2500000 900 (plainAsset true).key (some 1)).1

/-- The uploader asks for a token, and fetches the image. -/
def privateFetch : List Label :=
  [.upload 0 10 (plainUpload true), .commitUpload 0 0,
    .mint (plainAsset true).key (some 1) false 2500000,
    .lookup 1 (.signed privateToken (some 1) false) 3000000 4000000, .respond 1]

/-- The uploader gets the bytes. -/
theorem served_as_uploaded_private : ∃ s, run (step plainEnv) .initial privateFetch = some s ∧
    ∃ r ∈ s.responses, ∃ id upload image key, UploadOf plainEnv s.calls id upload image key ∧
      r.body = image.data ∧ r.contentType = image.contentType ∧
      Entitled plainEnv privateFetch upload key r := by
  have hany : (run (step plainEnv) .initial privateFetch).any (fun s => s.responses.any fun r =>
      r.cacheControl == "private, max-age=898") = true := by decide +kernel
  have htokens : Along (step plainEnv) (Authentic plainEnv) .initial privateFetch := by
    decide +kernel
  obtain ⟨s, hrun, hresponse⟩ := exists_run_of_any hany
  obtain ⟨r, hr, -⟩ := List.any_eq_true.mp hresponse
  exact ⟨s, hrun, r, hr, served_as_uploaded plainSerializer_documented hrun htokens hr⟩

end RedTeaming.Images
