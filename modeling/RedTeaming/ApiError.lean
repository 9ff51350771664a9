/-!
# `RedTeaming.ApiError`: the errors a handler can end in

The exceptions of `core/exceptions.py` that the modelled services raise. Each carries its `detail`
text. Three are outside that hierarchy. `RuntimeError` is a broken deployment that surfaces as a
500. `loginRefused` stands for the exceptions that refuse a login through an identity provider,
which the callback turns into an error code of its redirect. `validationError` is what the schema
of a payload raises, a 422.

A handler is a function to `Except ApiError`. `check` raises when its condition does not hold, and
`found` when a lookup found nothing. `check_eq_ok` and `found_eq_ok` read a success back.
-/

set_option autoImplicit false

namespace RedTeaming

/-- An exception of a service, with its detail text. -/
inductive ApiError
  | badRequest (detail : String)
  | unauthorized (detail : String)
  | forbidden (detail : String)
  | notFound (detail : String)
  | conflict (detail : String)
  | gone (detail : String)
  | serviceUnavailable (detail : String)
  | runtimeError (detail : String)
  | loginRefused (code : String) (detail : String)
  | validationError (detail : String)
deriving DecidableEq, Repr

/-- A name in quotes, as `!r` prints it. -/
def quoted (s : String) : String := "'" ++ s ++ "'"

/-- `raise e` unless `b` holds. -/
def check (b : Bool) (e : ApiError) : Except ApiError Unit := if b then .ok () else .error e

/-- A check passes when its condition holds. -/
@[simp] theorem check_eq_ok {b : Bool} {e : ApiError} {u : Unit} :
    check b e = .ok u ↔ b = true := by
  cases b <;> simp [check]

/-- What a lookup found. `raise e` when it found nothing. -/
def found {α : Type} (o : Option α) (e : ApiError) : Except ApiError α :=
  match o with
  | some a => .ok a
  | none => .error e

/-- A lookup succeeds with what it found. -/
@[simp] theorem found_eq_ok {α : Type} {o : Option α} {e : ApiError} {a : α} :
    found o e = .ok a ↔ o = some a := by
  cases o <;> simp [found]

/-- After a success, the rest runs. -/
theorem ok_bind {ε α β : Type} {a : α} {f : α → Except ε β} :
    (.ok a : Except ε α) >>= f = f a := rfl

/-- A successful sequence is two successful parts. -/
theorem bind_eq_ok {ε α β : Type} {x : Except ε α} {f : α → Except ε β} {b : β} :
    x >>= f = .ok b ↔ ∃ a, x = .ok a ∧ f a = .ok b := by
  rcases x with e | a
  · exact ⟨fun h => (nomatch h), fun ⟨_, h, _⟩ => (nomatch h)⟩
  · exact ⟨fun h => ⟨a, rfl, h⟩, fun ⟨_, h, hf⟩ => by cases h; exact hf⟩

/-- A mapped success is the image of a success. -/
theorem map_eq_ok {α β : Type} {x : Except ApiError α} {f : α → β} {b : β} :
    f <$> x = .ok b ↔ ∃ a, x = .ok a ∧ f a = b := by
  rcases x with e | a
  · exact ⟨fun h => (nomatch h), fun ⟨_, h, _⟩ => (nomatch h)⟩
  · exact ⟨fun h => ⟨a, rfl, by cases h; rfl⟩, fun ⟨_, h, hf⟩ => by cases h; rw [← hf]; rfl⟩

/-- A check that passes has one result. -/
theorem exists_unit {p : Unit → Prop} : (∃ u, p u) ↔ p () :=
  ⟨fun ⟨(), h⟩ => h, fun h => ⟨(), h⟩⟩

/-- A result that is kept is a success. -/
theorem toOption_eq_some {ε α : Type} {x : Except ε α} {a : α} :
    x.toOption = some a ↔ x = .ok a := by
  cases x <;> simp [Except.toOption]

/-- Each result of a pass over a list is the result of an entry. -/
theorem exists_of_mem_mapM {α β : Type} {f : α → Except ApiError β} {l : List α} {bs : List β}
    (hl : l.mapM f = .ok bs) {b : β} (hb : b ∈ bs) : ∃ a ∈ l, f a = .ok b := by
  induction l generalizing bs with
  | nil =>
    cases hl
    exact absurd hb List.not_mem_nil
  | cons a l ih =>
    rw [List.mapM_cons, bind_eq_ok] at hl
    obtain ⟨b', hb', hl⟩ := hl
    obtain ⟨rest, hrest, hbs⟩ := bind_eq_ok.mp hl
    cases hbs
    rcases List.mem_cons.mp hb with rfl | hb
    · exact ⟨a, List.mem_cons_self, hb'⟩
    · obtain ⟨a', ha', hfa'⟩ := ih hrest hb
      exact ⟨a', List.mem_cons_of_mem _ ha', hfa'⟩

/-- A pass over a list succeeds when it succeeds on every entry. -/
theorem mapM_isOk {α β : Type} {f : α → Except ApiError β} {l : List α} :
    (∃ bs, l.mapM f = .ok bs) ↔ ∀ a ∈ l, ∃ b, f a = .ok b := by
  induction l with
  | nil => exact ⟨fun _ a ha => absurd ha List.not_mem_nil, fun _ => ⟨[], rfl⟩⟩
  | cons a l ih =>
    constructor
    · rintro ⟨bs, hbs⟩
      rw [List.mapM_cons, bind_eq_ok] at hbs
      obtain ⟨b, hb, hbs⟩ := hbs
      obtain ⟨rest, hrest, _⟩ := bind_eq_ok.mp hbs
      have htail := ih.mp ⟨rest, hrest⟩
      intro a' ha'
      rcases List.mem_cons.mp ha' with rfl | ha'
      · exact ⟨b, hb⟩
      · exact htail a' ha'
    · intro h
      obtain ⟨b, hb⟩ := h a List.mem_cons_self
      obtain ⟨rest, hrest⟩ := ih.mpr fun a' ha' => h a' (List.mem_cons_of_mem _ ha')
      refine ⟨b :: rest, ?_⟩
      rw [List.mapM_cons, hb]
      show l.mapM f >>= (fun rest => pure (b :: rest)) = _
      rw [hrest]
      rfl

/-- A loop of checks passes when every check does. -/
theorem forM_eq_ok {α : Type} {f : α → Except ApiError Unit} {l : List α} {u : Unit} :
    l.forM f = .ok u ↔ ∀ a ∈ l, f a = .ok () := by
  induction l with
  | nil => exact ⟨fun _ a ha => absurd ha List.not_mem_nil, fun _ => rfl⟩
  | cons a l ih =>
    show (f a >>= fun _ => l.forM f) = .ok u ↔ _
    rw [bind_eq_ok, exists_unit, ih]
    simp only [List.mem_cons, forall_eq_or_imp]

/-- Dropping entries before or after a pass over a list is the same, as long as the results tell
the entries apart. -/
theorem mapM_filter {α β : Type} {f : α → Except ApiError β} {p : α → Bool} {q : β → Bool}
    (h : ∀ a b, f a = .ok b → q b = p a) {l : List α} {bs : List β} (hl : l.mapM f = .ok bs) :
    (l.filter p).mapM f = .ok (bs.filter q) := by
  induction l generalizing bs with
  | nil =>
    cases hl
    rfl
  | cons a l ih =>
    rw [List.mapM_cons, bind_eq_ok] at hl
    obtain ⟨b, hb, hl⟩ := hl
    obtain ⟨rest, hrest, hbs⟩ := bind_eq_ok.mp hl
    cases hbs
    have hq := h a b hb
    by_cases hp : p a = true
    · rw [List.filter_cons_of_pos hp, List.filter_cons_of_pos (hq.trans hp), List.mapM_cons, hb]
      show (l.filter p).mapM f >>= (fun rest => pure (b :: rest)) = _
      rw [ih hrest]
      rfl
    · have hpf : p a = false := by simpa using hp
      rw [List.filter_cons_of_neg hp, List.filter_cons_of_neg (by simp [hq, hpf])]
      exact ih hrest

end RedTeaming
