import RedTeaming.Library.Json

/-!
# `RedTeaming.AiGateway.InferenceParams`: the cascade of inference parameters

`core/ai_gateway/inference_params.py`. A model, an assignment, and a scenario each carry an object
of parameters, and `mergeInferenceParams` collapses them, the most specific one last. Under
masking only the numeric knobs of `maskableParamKeys` are shown. What is shown of a merge does not
depend on the other parameters of its first level (`maskInferenceParams_merge`).

`mostSpecific` is what the cascade is for: the value of the last level that has the knob. A merge
reads so (`lookup_mergeInferenceParams`), since the keys of each level are distinct.
-/

set_option autoImplicit false

namespace RedTeaming.AiGateway

open RedTeaming.Library

/-- `merge_inference_params`: a level without an object overrides nothing. -/
def mergeInferenceParams (levels : List (Option JsonObject)) : JsonObject :=
  levels.foldl (fun merged level => mergeFields merged (level.getD [])) []

/-- `MASKABLE_PARAM_KEYS`. -/
def maskableParamKeys : List String :=
  ["temperature", "top_p", "top_k", "max_tokens", "frequency_penalty", "presence_penalty",
    "repetition_penalty", "seed"]

/-- `mask_inference_params`. -/
def maskInferenceParams (params : JsonObject) : JsonObject :=
  keepFields (fun key => maskableParamKeys.contains key) params

/-- What is shown of a merge comes from what is shown of its first level. -/
theorem maskInferenceParams_merge (baseline overrides : JsonObject) :
    maskInferenceParams (mergeInferenceParams [some baseline, some overrides]) =
      maskInferenceParams
        (mergeInferenceParams [some (maskInferenceParams baseline), some overrides]) := by
  show keepFields _ (mergeFields (mergeFields [] baseline) overrides) =
    keepFields _ (mergeFields (mergeFields [] (maskInferenceParams baseline)) overrides)
  rw [keepFields_mergeFields, keepFields_mergeFields, keepFields_mergeFields,
    keepFields_mergeFields, maskInferenceParams, keepFields_keepFields]

/-- The value of a knob at the most specific level that sets it. The levels go from the least
specific to the most specific. -/
def mostSpecific : List JsonObject → String → Option Json
  | [], _ => none
  | level :: levels, k => (mostSpecific levels k).or (level.lookup k)

/-- The levels of a second list are more specific. -/
theorem mostSpecific_append (levels levels' : List JsonObject) (k : String) :
    mostSpecific (levels ++ levels') k = (mostSpecific levels' k).or (mostSpecific levels k) := by
  induction levels with
  | nil => simp [mostSpecific]
  | cons level levels ih =>
    rw [List.cons_append, mostSpecific, mostSpecific, ih, Option.or_assoc]

/-- Levels that do not set a knob have no value of it. -/
theorem mostSpecific_eq_none {levels : List JsonObject} {k : String}
    (h : ∀ level ∈ levels, level.lookup k = none) : mostSpecific levels k = none := by
  induction levels with
  | nil => rfl
  | cons level levels ih =>
    rw [mostSpecific, ih fun l hl => h l (List.mem_cons_of_mem _ hl), h level List.mem_cons_self]
    rfl

/-- A knob that a level sets has a value. -/
theorem isSome_mostSpecific {levels : List JsonObject} {k : String} {level : JsonObject}
    (hlevel : level ∈ levels) (hset : (level.lookup k).isSome = true) :
    (mostSpecific levels k).isSome = true := by
  induction levels with
  | nil => cases hlevel
  | cons first levels ih =>
    rw [mostSpecific, Option.isSome_or, Bool.or_eq_true]
    rcases List.mem_cons.mp hlevel with rfl | hlevel
    · exact .inr hset
    · exact .inl (ih hlevel)

/-- A merge of levels has the value of the most specific level. The induction is on the levels,
with those that are merged already in the accumulator. -/
theorem lookup_mergeInferenceParams {levels : List JsonObject}
    (hdict : ∀ level ∈ levels, (level.map Prod.fst).Nodup) (k : String) :
    (mergeInferenceParams (levels.map some)).lookup k = mostSpecific levels k := by
  have hfold : ∀ merged : JsonObject,
      ((levels.map some).foldl (fun merged level => mergeFields merged (level.getD []))
        merged).lookup k = (mostSpecific levels k).or (merged.lookup k) := by
    induction levels with
    | nil => simp [mostSpecific]
    | cons level levels ih =>
      intro merged
      have hrest :=
        ih (fun l hl => hdict l (List.mem_cons_of_mem _ hl)) (mergeFields merged level)
      rw [List.map_cons, List.foldl_cons, Option.getD_some, hrest,
        lookup_mergeFields (hdict level List.mem_cons_self), mostSpecific, Option.or_assoc]
  rw [mergeInferenceParams, hfold, List.lookup_nil, Option.or_none]

/-- The keys of a merge are distinct. -/
theorem nodup_keys_mergeInferenceParams (levels : List (Option JsonObject)) :
    ((mergeInferenceParams levels).map Prod.fst).Nodup := by
  have hfold : ∀ merged : JsonObject, (merged.map Prod.fst).Nodup →
      ((levels.foldl (fun merged level => mergeFields merged (level.getD [])) merged).map
        Prod.fst).Nodup := by
    induction levels with
    | nil => exact fun _ h => h
    | cons level levels ih => exact fun _ h => ih _ (nodup_keys_mergeFields h _)
  exact hfold [] List.nodup_nil

end RedTeaming.AiGateway
