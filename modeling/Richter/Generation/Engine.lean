import Richter.Lib.Json
import Richter.Lessons.Generation

/-! The engine that answers prompts, and its errors: which of them a stage tries again after, and
what users are told.  The packages `ai` (`internal/svc/ai/ai.go`) and `generation`
(`internal/svc/ai/generation/helpers.go`) have a copy of the two functions each. -/

namespace Richter.Lessons

theorem contains_iff {s sub : String} : contains s sub = true ↔ sub.toList <:+: s.toList := by
  rw [contains, decide_eq_true_eq]

/-- A text that is put together contains its parts. -/
theorem contains_append (pre sub post : String) : contains (pre ++ sub ++ post) sub = true := by
  rw [contains_iff, String.toList_append, String.toList_append]
  exact ⟨pre.toList, post.toList, rfl⟩

/-- The status code is one of those looked for, or the words that stand for none. -/
theorem extractStatusCode_mem (msg : String) :
    extractStatusCode msg ∈ ["503", "429", "500", "502", "504", "rate limit"] := by
  unfold extractStatusCode
  cases hFind : ["503", "429", "500", "502", "504"].find? (contains msg) with
  | none => decide
  | some code =>
    have hMem := List.mem_of_find?_eq_some hFind
    exact List.mem_append_left ["rate limit"] hMem

end Richter.Lessons

namespace Richter

open Lessons (contains extractStatusCode)

namespace Generation

open Lib

/-- The text of an answer: a JSON document, or what is none. -/
inductive Raw
  | json (document : Json)
  | text (raw : String)

/-- `json.Unmarshal` into a variable, by its decoder; the text of its error is `syntaxError`. -/
def unmarshal {α : Type} (decode : Decoder α) (syntaxError : Raw → String) (zero : α) (raw : Raw) :
    Except String α :=
  match raw with
  | .json document =>
    match decode zero document with
    | some a => .ok a
    | none => .error (syntaxError raw)
  | .text _ => .error (syntaxError raw)

/-- What a stage that calls the engine meets, by the number of the attempt. -/
structure EngineEnv where
  /-- `engine.Generate`. -/
  generate : Nat → Except String Raw
  /-- `ctx.Err()`, when the context ends before the wait that follows an attempt does. -/
  ctxErr : Nat → Option String
  syntaxError : Raw → String

def transientMarkers : List String :=
  ["429", "quota", "rate limit", "ratelimit", "RESOURCE_EXHAUSTED", "503", "overloaded", "500",
    "502", "504", "UNAVAILABLE", "empty gemini response", "no candidates", "no content parts",
    "stopped unexpectedly"]

def isTransientGeminiError (msg : String) : Bool := transientMarkers.any (contains msg)

def rateLimitMarkers : List String :=
  ["429", "quota", "rate limit", "ratelimit", "RATE_LIMIT_EXCEEDED", "RESOURCE_EXHAUSTED", "503",
    "overloaded"]

def friendlyGeminiError (msg : String) : String :=
  if rateLimitMarkers.any (contains msg) then
    "Vượt hạn mức Gemini API (" ++ extractStatusCode msg ++ "). Vui lòng thử lại sau vài phút."
  else msg

/-- The progress messages of the generation stage show the same text. -/
theorem friendlyGeminiError_text (e : Lessons.Fail) :
    Lessons.friendlyGeminiError e = friendlyGeminiError e.text := rfl

theorem isTransient_of_contains {msg marker : String} (hMarker : marker ∈ transientMarkers)
    (h : contains msg marker = true) : isTransientGeminiError msg = true :=
  List.any_eq_true.mpr ⟨marker, hMarker, h⟩

/-- The text that users see counts as transient, whichever marker has led to it. -/
theorem isTransient_friendly_of_rateLimit {msg : String}
    (h : rateLimitMarkers.any (contains msg) = true) :
    isTransientGeminiError (friendlyGeminiError msg) = true := by
  have hCode : extractStatusCode msg ∈ transientMarkers := by
    have hAll : ∀ code ∈ ["503", "429", "500", "502", "504", "rate limit"],
        code ∈ transientMarkers := by decide
    exact hAll _ (Lessons.extractStatusCode_mem msg)
  rw [friendlyGeminiError, if_pos h]
  exact isTransient_of_contains hCode (Lessons.contains_append _ _ _)

/-- One marker is looked for only where the text is made. -/
theorem isTransient_friendly (msg : String) :
    isTransientGeminiError (friendlyGeminiError msg) = true ↔
      isTransientGeminiError msg = true ∨ contains msg "RATE_LIMIT_EXCEEDED" = true := by
  by_cases hRate : rateLimitMarkers.any (contains msg) = true
  · refine iff_of_true (isTransient_friendly_of_rateLimit hRate) ?_
    obtain ⟨marker, hMarker, hContains⟩ := List.any_eq_true.mp hRate
    have hAll : ∀ marker ∈ rateLimitMarkers,
        marker ∈ transientMarkers ∨ marker = "RATE_LIMIT_EXCEEDED" := by decide
    rcases hAll marker hMarker with hTransient | rfl
    · exact .inl (isTransient_of_contains hTransient hContains)
    · exact .inr hContains
  · rw [friendlyGeminiError, if_neg hRate]
    refine ⟨.inl, fun h => h.elim id fun hContains => absurd ?_ hRate⟩
    exact List.any_eq_true.mpr ⟨_, by decide, hContains⟩

end Generation

namespace Ai

def isTransientGeminiError (msg : String) : Bool :=
  ["429", "quota", "rate limit", "ratelimit", "RESOURCE_EXHAUSTED", "503", "overloaded", "500",
    "502", "504", "UNAVAILABLE", "empty gemini response", "no candidates", "no content parts",
    "stopped unexpectedly"].any (contains msg)

def friendlyGeminiError (msg : String) : String :=
  if ["429", "quota", "rate limit", "ratelimit", "RATE_LIMIT_EXCEEDED", "RESOURCE_EXHAUSTED",
      "503", "overloaded"].any (contains msg) then
    "Vượt hạn mức Gemini API (" ++ extractStatusCode msg ++ "). Vui lòng thử lại sau vài phút."
  else msg

/-- The two copies are the same. -/
theorem isTransientGeminiError_eq :
    isTransientGeminiError = Generation.isTransientGeminiError := rfl

end Ai

end Richter
