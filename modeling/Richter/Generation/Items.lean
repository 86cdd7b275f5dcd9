import Richter.Generation.Checkpoint
import Richter.Generation.Chunking
import Richter.Generation.Plan

/-! The generation of the questions of one chunk: `GenerateItems` and `GenerateItemsAIChoose`
(`internal/svc/ai/generation/items.go`), and `generateForChunk`
(`internal/svc/ai/generation/service.go`), up to the prompts. -/

namespace Richter.Generation

open Lib
open Courses (LessonTranscriptChunk)
open Interactions (InteractionKind kindToDBString)
open Lessons (GeneratedItem contains trimSpace)

/-- What `ParseGeminiItem` returns, without the start that nothing uses. -/
structure ParsedItem where
  prompt : String
  explanation : String
  configJSON : String

/-- The interface `GeminiGenerator`, and `AudioSourceText` of a handler that is a `TTSProvider`. -/
structure GeminiGenerator where
  parseGeminiItem : Json → Except String ParsedItem
  audioSourceText : Option (String → String)

/-- What a call that generates questions meets.  The sound of an item is made by the number of the
attempt and the item's place in the answer. -/
structure ItemsEnv extends EngineEnv where
  embedAudio : Nat → Nat → String → Except String String

/-- The struct that an answer is decoded into. -/
structure ItemsJSON where
  items : Slice Json := .nil

/-- `json.RawMessage` takes every value as it is. -/
def rawMessage : Decoder Json := fun _ j => some j

def itemsJSON : Decoder ItemsJSON :=
  .struct [.of "items" (rawMessage.slice .null) (·.items) fun r x => { r with items := x }]

structure KindHolder where
  kind : String := ""

def kindHolder : Decoder KindHolder :=
  .struct [.of "kind" .string (·.kind) fun h x => { h with kind := x }]

/-- An item of an answer, unless it is skipped. -/
def buildItem (env : ItemsEnv) (generator : GeminiGenerator) (chunk : LessonTranscriptChunk)
    (kindStr : String) (attempt i : Nat) (rawItem : Json) : Option GeneratedItem :=
  match generator.parseGeminiItem rawItem with
  | .error _ => none
  | .ok parsed =>
    let item : GeneratedItem :=
      ⟨kindStr, checkpointSecondsForChunk chunk, parsed.prompt, parsed.explanation,
        parsed.configJSON⟩
    match generator.audioSourceText with
    | none => some item
    | some audioSourceText =>
      if audioSourceText parsed.configJSON = "" then some item
      else
        match env.embedAudio attempt i parsed.configJSON with
        | .error _ => none
        | .ok configJSON => some { item with configJSON := configJSON }

/-- The loop over the items of an answer, which ends when there are as many as are asked for. -/
def buildItems (count : Int) (build : Nat → Json → Option GeneratedItem) :
    Nat → List GeneratedItem → List Json → List GeneratedItem
  | _, items, [] => items
  | i, items, rawItem :: rawItems =>
    if 0 < count ∧ count ≤ items.length then items
    else
      match build i rawItem with
      | some item => buildItems count build (i + 1) (items ++ [item]) rawItems
      | none => buildItems count build (i + 1) items rawItems

/-- An attempt: the engine is asked, and the items of its answer are built. -/
def genOnce (env : ItemsEnv) (count : Int) (build : Nat → Json → Option GeneratedItem)
    (attempt : Nat) : Except String (List GeneratedItem) :=
  match env.generate attempt with
  | .error e => .error (friendlyGeminiError e)
  | .ok raw =>
    match unmarshal itemsJSON env.syntaxError {} raw with
    | .error e => .error ("parse gemini response: " ++ e)
    | .ok result => .ok (buildItems count build 0 [] result.items.elems)

def zeroQuestions (attempts : Nat) : String :=
  "Gemini API trả về 0 câu hỏi sau " ++ toString attempts ++
    " lần thử (có thể do vượt quota / quá tải). Vui lòng thử lại sau."

/-- The outcome of an attempt ends the loop, instead of one more attempt. -/
def itemsFail (attempt attempts : Nat) (outcome : Except String (List GeneratedItem)) : Bool :=
  let retryable := match outcome with
    | .ok _ => true
    | .error e => isTransientGeminiError e
  !retryable || attempt == attempts

/-- What a loop over attempts returns, and the number of attempts that it has made. -/
structure Attempted where
  result : Except String (List GeneratedItem)
  made : Nat

/-- The larger of the best attempt so far and a new one. -/
def better (best : List GeneratedItem) : Except String (List GeneratedItem) → List GeneratedItem
  | .ok items => if best.length < items.length then items else best
  | .error _ => best

/-- The error of a loop that ends without an item. -/
def failure (attempts : Nat) : Except String (List GeneratedItem) → String
  | .ok _ => zeroQuestions attempts
  | .error e => e

/-- The loop of `GenerateItems` over its attempts, with `left` of them to go. -/
def retryItems (once : Nat → Except String (List GeneratedItem)) (ctxErr : Nat → Option String)
    (transcriptEmpty : Bool) (target : Int) (attempts : Nat) :
    Nat → Nat → List GeneratedItem → Attempted
  | attempt, 0, best => ⟨.ok best, attempt - 1⟩
  | attempt, left + 1, best =>
    let outcome := once attempt
    let best := better best outcome
    if outcome.isOk ∧ (transcriptEmpty ∨ target ≤ 0 ∨ target ≤ best.length) then
      ⟨.ok best, attempt⟩
    else if itemsFail attempt attempts outcome then
      ⟨if best ≠ [] then .ok best else .error (failure attempts outcome), attempt⟩
    else
      match ctxErr attempt with
      | some e => ⟨if best ≠ [] then .ok best else .error e, attempt⟩
      | none => retryItems once ctxErr transcriptEmpty target attempts (attempt + 1) left best

/-- `GenerateItems`. -/
def generateItems (env : ItemsEnv) (geminiMaxAttempts : Int) (chunk : LessonTranscriptChunk)
    (transcript : String) (generator : GeminiGenerator) (kindStr : String) : Attempted :=
  let attempts := (max geminiMaxAttempts 1).toNat
  let count := chunk.questionCountConfig
  retryItems
    (fun attempt => genOnce env count (buildItem env generator chunk kindStr attempt) attempt)
    env.ctxErr (trimSpace transcript = "") count attempts 1 attempts []

/-- A kind that the model may choose. -/
structure AIChooseKindSpec where
  kindStr : String
  generator : GeminiGenerator

/-- An item of an answer that chooses the kinds, unless it is skipped.  The last one of the
specifications of a kind is taken. -/
def buildChosen (env : ItemsEnv) (specs : List AIChooseKindSpec) (chunk : LessonTranscriptChunk)
    (attempt i : Nat) (rawItem : Json) : Option GeneratedItem := do
  let holder ← kindHolder {} rawItem
  if holder.kind = "" then none
  else
    let spec ← specs.reverse.find? fun sp => sp.kindStr = holder.kind
    buildItem env spec.generator chunk spec.kindStr attempt i rawItem

/-- The loop of `GenerateItemsAIChoose` over its attempts, with `left` of them to go. -/
def retryChoose (once : Nat → Except String (List GeneratedItem)) (ctxErr : Nat → Option String)
    (transcriptEmpty : Bool) (attempts : Nat) :
    Nat → Nat → List GeneratedItem → Attempted
  | attempt, 0, items => ⟨.ok items, attempt - 1⟩
  | attempt, left + 1, _ =>
    match once attempt with
    | .ok items =>
      if items ≠ [] ∨ transcriptEmpty then ⟨.ok items, attempt⟩
      else if itemsFail attempt attempts (.ok items) then
        ⟨.error (zeroQuestions attempts), attempt⟩
      else
        match ctxErr attempt with
        | some e => ⟨.error e, attempt⟩
        | none => retryChoose once ctxErr transcriptEmpty attempts (attempt + 1) left items
    | .error e =>
      if itemsFail attempt attempts (.error e) then ⟨.error e, attempt⟩
      else
        match ctxErr attempt with
        | some e => ⟨.error e, attempt⟩
        | none => retryChoose once ctxErr transcriptEmpty attempts (attempt + 1) left []

/-- `GenerateItemsAIChoose`, with the generators that the handlers of the kinds have. -/
def generateItemsAIChoose (env : ItemsEnv) (geminiMaxAttempts : Int)
    (generatorOf : InteractionKind → Option GeminiGenerator) (chunk : LessonTranscriptChunk)
    (transcript : String) (allowedKinds : List InteractionKind) (totalCount : Int) : Attempted :=
  let specs := allowedKinds.filterMap fun k =>
    (generatorOf k).map fun g => (⟨kindToDBString k, g⟩ : AIChooseKindSpec)
  let attempts := (max geminiMaxAttempts 1).toNat
  match specs with
  | [] => ⟨.error "no supported kinds in allowedKinds", 0⟩
  | [spec] =>
    generateItems env geminiMaxAttempts { chunk with questionCountConfig := totalCount } transcript
      spec.generator spec.kindStr
  | specs =>
    retryChoose
      (fun attempt => genOnce env totalCount (buildChosen env specs chunk attempt) attempt)
      env.ctxErr (trimSpace transcript = "") attempts 1 attempts []

def interactionGenerationBatchSize : InteractionKind → Nat
  | .listening => 1
  | .reading => 1
  | _ => 4

/-- What the loops of `generateForChunk` have collected: `results` has the result of every batch so
far, and numbers the batches. -/
structure Collected where
  allItems : List GeneratedItem := []
  lastErr : Option String := none
  results : List (Except String (List GeneratedItem)) := []

/-- The result of a batch is taken in. -/
def Collected.add (c : Collected) (result : Except String (List GeneratedItem)) : Collected :=
  { allItems := match result with
      | .ok items => c.allItems ++ items
      | .error _ => c.allItems
    lastErr := match result with
      | .ok _ => c.lastErr
      | .error e => some e
    results := c.results ++ [result] }

/-- The loop over the batches of a kind, where `generate` makes the batch with a number and a
count. -/
def generateBatches (generate : Nat → Nat → Except String (List GeneratedItem)) (batchSize : Nat)
    (remaining : Nat) (c : Collected) : Collected :=
  if 0 < remaining ∧ 0 < batchSize then
    let batchCount := min remaining batchSize
    generateBatches generate batchSize (remaining - batchCount)
      (c.add (generate c.results.length batchCount))
  else c
termination_by remaining
decreasing_by omega

/-- The batches of one kind of a plan, when batch `n` meets `envs n`. -/
def generateKind (envs : Nat → ItemsEnv) (geminiMaxAttempts : Int)
    (generatorOf : InteractionKind → Option GeminiGenerator) (chunk : LessonTranscriptChunk)
    (transcript : String) (c : Collected) (kc : KindCount) : Collected :=
  match generatorOf kc.kind with
  | none => c
  | some generator =>
    generateBatches
      (fun n batchCount => (generateItems (envs n) geminiMaxAttempts
        { chunk with questionCountConfig := batchCount } transcript generator
        (kindToDBString kc.kind)).result)
      (interactionGenerationBatchSize kc.kind) kc.count c

/-- The loops over a plan that deals the questions out evenly. -/
def generateEven (envs : Nat → ItemsEnv) (geminiMaxAttempts : Int)
    (generatorOf : InteractionKind → Option GeminiGenerator) (chunk : LessonTranscriptChunk)
    (transcript : String) (counts : List KindCount) : Collected :=
  counts.foldl (generateKind envs geminiMaxAttempts generatorOf chunk transcript) {}

/-- `generateForChunk`. -/
def generateForChunk (envs : Nat → ItemsEnv) (geminiMaxAttempts : Int)
    (generatorOf : InteractionKind → Option GeminiGenerator) (chunk : LessonTranscriptChunk)
    (transcript : String) (plan : GenerationPlan) : Except String (List GeneratedItem) :=
  if plan.useAIChoose then
    (generateItemsAIChoose (envs 0) geminiMaxAttempts generatorOf chunk transcript plan.aiKinds
      plan.aiCount).result
  else
    let c := generateEven envs geminiMaxAttempts generatorOf chunk transcript plan.evenCounts
    match c.allItems, c.lastErr with
    | [], some e => .error e
    | items, _ => .ok items

/-- What the attempts before `attempt` leave in `best`. -/
structure BestSoFar (once : Nat → Except String (List GeneratedItem)) (attempt : Nat)
    (best : List GeneratedItem) : Prop where
  bound : ∀ k, 1 ≤ k → k < attempt → ∀ items, once k = .ok items → items.length ≤ best.length
  source : best = [] ∨ ∃ k, 1 ≤ k ∧ k < attempt ∧ once k = .ok best

/-- A best list that is as long as the old one and as what the last attempt has made, and is one of
the two. -/
theorem BestSoFar.extend {once : Nat → Except String (List GeneratedItem)} {attempt : Nat}
    {best best' : List GeneratedItem} (h : BestSoFar once attempt best) (hOne : 1 ≤ attempt)
    (hOld : best.length ≤ best'.length)
    (hLast : ∀ items, once attempt = .ok items → items.length ≤ best'.length)
    (hSource : best' = best ∨ once attempt = .ok best') : BestSoFar once (attempt + 1) best' where
  bound k hLow hHigh items hk := by
    rcases Nat.lt_succ_iff_lt_or_eq.mp hHigh with hBefore | rfl
    · exact (h.bound k hLow hBefore items hk).trans hOld
    · exact hLast items hk
  source := by
    rcases hSource with rfl | hMade
    · exact h.source.imp_right fun ⟨k, hLow, hHigh, hk⟩ => ⟨k, hLow, Nat.lt_succ_of_lt hHigh, hk⟩
    · exact .inr ⟨attempt, hOne, Nat.lt_succ_self attempt, hMade⟩

theorem BestSoFar.next {once : Nat → Except String (List GeneratedItem)} {attempt : Nat}
    {best : List GeneratedItem} (h : BestSoFar once attempt best) (hOne : 1 ≤ attempt) :
    BestSoFar once (attempt + 1) (better best (once attempt)) := by
  cases hOutcome : once attempt with
  | error e => exact h.extend hOne (Nat.le_refl _) (by simp [hOutcome]) (.inl rfl)
  | ok items =>
    rw [better]
    split
    · next hLonger =>
      exact h.extend hOne (Nat.le_of_lt hLonger) (by simp [hOutcome]) (.inr hOutcome)
    · next hShorter =>
      have hLe : items.length ≤ best.length := Nat.not_lt.mp hShorter
      exact h.extend hOne (Nat.le_refl _) (by simpa [hOutcome] using hLe) (.inl rfl)

/-- What a loop that keeps the best attempt returns of its attempts. -/
structure KeepsBest (once : Nat → Except String (List GeneratedItem)) (ctxErr : Nat → Option String)
    (transcriptEmpty : Bool) (target : Int) (attempts : Nat) (out : Attempted) : Prop where
  once_made : 1 ≤ out.made
  made_le : out.made ≤ attempts
  best : ∀ items, out.result = .ok items → BestSoFar once (out.made + 1) items
  none_made : ∀ e, out.result = .error e → BestSoFar once (out.made + 1) []
  early : out.made < attempts →
    (∃ items, out.result = .ok items ∧ target ≤ items.length) ∨ transcriptEmpty = true ∨
      (∃ e, ctxErr out.made = some e) ∨
      ∃ e, once out.made = .error e ∧ isTransientGeminiError e = false

/-- A loop that ends with the best attempt so far, or with an error when there is none. -/
theorem KeepsBest.ended {once : Nat → Except String (List GeneratedItem)}
    {ctxErr : Nat → Option String} {transcriptEmpty : Bool} {target : Int} {attempts attempt : Nat}
    {best : List GeneratedItem} {e : String} (hOne : 1 ≤ attempt) (hLe : attempt ≤ attempts)
    (hBest : BestSoFar once (attempt + 1) best)
    (hEarly : attempt < attempts → (∃ e, ctxErr attempt = some e) ∨
      ∃ e, once attempt = .error e ∧ isTransientGeminiError e = false) :
    KeepsBest once ctxErr transcriptEmpty target attempts
      ⟨if best ≠ [] then .ok best else .error e, attempt⟩ where
  once_made := hOne
  made_le := hLe
  best := by
    intro items hItems
    dsimp only at hItems
    split at hItems
    · cases hItems
      exact hBest
    · cases hItems
  none_made := by
    intro e hError
    dsimp only at hError
    split at hError
    · cases hError
    · next hNone =>
      rw [not_not] at hNone
      exact hNone ▸ hBest
  early := fun hBefore => .inr (.inr (hEarly hBefore))

section GenerateItems

variable (env : ItemsEnv) (geminiMaxAttempts : Int) (chunk : LessonTranscriptChunk)
  (transcript : String) (generator : GeminiGenerator) (kindStr : String)

end GenerateItems

/-- What has been collected from the results of the batches, of at most `total` items. -/
structure Collects (c : Collected) (total : Nat) : Prop where
  length_le : c.allItems.length ≤ total
  nothing : c.allItems = [] ↔ ∀ items, .ok items ∈ c.results → items = []
  failed : c.lastErr.isSome = true ↔ ∃ e, .error e ∈ c.results

theorem Collects.mono {c : Collected} {total total' : Nat} (h : Collects c total)
    (hLe : total ≤ total') : Collects c total' :=
  { h with length_le := h.length_le.trans hLe }

theorem Collects.add {c : Collected} {total batchCount : Nat} (h : Collects c total)
    {result : Except String (List GeneratedItem)}
    (hLength : ∀ items, result = .ok items → items.length ≤ batchCount) :
    Collects (c.add result) (total + batchCount) := by
  have hTotal := h.length_le
  cases result with
  | error e =>
    refine ⟨hTotal.trans (Nat.le_add_right _ _), h.nothing.trans ?_, ?_⟩
    · show _ ↔ ∀ items, .ok items ∈ c.results ++ [.error e] → items = []
      simp
    · show (some e).isSome = true ↔ ∃ e', .error e' ∈ c.results ++ [.error e]
      exact iff_of_true rfl ⟨e, List.mem_append_right _ (List.mem_singleton_self _)⟩
  | ok items =>
    have hItems := hLength items rfl
    refine ⟨?_, ?_, h.failed.trans ?_⟩
    · show (c.allItems ++ items).length ≤ _
      rw [List.length_append]
      omega
    · show c.allItems ++ items = [] ↔ ∀ items', .ok items' ∈ c.results ++ [.ok items] → items' = []
      rw [List.append_eq_nil_iff, h.nothing]
      simp only [List.mem_append, List.mem_singleton, Except.ok.injEq]
      constructor
      · rintro ⟨hOld, rfl⟩ items' (hMem | rfl)
        · exact hOld items' hMem
        · rfl
      · exact fun hAll => ⟨fun items' hMem => hAll items' (.inl hMem), hAll items (.inr rfl)⟩
    · show _ ↔ ∃ e, .error e ∈ c.results ++ [.ok items]
      simp

theorem Collects.batches {generate : Nat → Nat → Except String (List GeneratedItem)}
    (hGenerate : ∀ n count items, 0 < count → generate n count = .ok items →
      items.length ≤ count) (batchSize remaining : Nat) {c : Collected} {total : Nat}
    (h : Collects c total) :
    Collects (generateBatches generate batchSize remaining c) (total + remaining) := by
  induction remaining using Nat.strong_induction_on generalizing c total with
  | _ remaining ih =>
    rw [generateBatches]
    split
    · next hMore =>
      have hBatch : Collects (c.add (generate c.results.length (min remaining batchSize)))
          (total + min remaining batchSize) :=
        h.add fun items hItems => hGenerate _ _ items (by omega) hItems
      exact (ih (remaining - min remaining batchSize) (by omega) hBatch).mono (by omega)
    · exact h.mono (Nat.le_add_right _ _)

section Even

variable (envs : Nat → ItemsEnv) (geminiMaxAttempts : Int)
  (generatorOf : InteractionKind → Option GeminiGenerator) (chunk : LessonTranscriptChunk)
  (transcript : String)

end Even

/-- The stages decide alike on an error of the engine, one on its text and one on what users are
told of it, except where the text has the one marker that only the friendly text knows. -/
theorem same_retry_decision_iff (msg : String) :
    ((∀ (env : ItemsEnv) (count : Int) (build : Nat → Json → Option GeneratedItem)
        (attempt attempts : Nat), env.generate attempt = .error msg →
        itemsFail attempt attempts (genOnce env count build attempt) =
          Ai.chunkFails attempt attempts msg) ∧
      isTransientGeminiError (friendlyGeminiError msg) = isTransientGeminiError msg) ↔
    (contains msg "RATE_LIMIT_EXCEEDED" = true →
      ∃ marker ∈ transientMarkers, contains msg marker = true) := by
  have hFriendly := isTransient_friendly msg
  have hMarkers : isTransientGeminiError msg = true ↔
      ∃ marker ∈ transientMarkers, contains msg marker = true := List.any_eq_true
  constructor
  · rintro ⟨-, hSame⟩ hRate
    rw [← hMarkers, ← hSame]
    exact hFriendly.mpr (.inr hRate)
  · intro hCondition
    have hSame : isTransientGeminiError (friendlyGeminiError msg) = isTransientGeminiError msg := by
      rw [Bool.eq_iff_iff, hFriendly]
      exact ⟨fun h => h.elim id fun hRate => hMarkers.mpr (hCondition hRate), .inl⟩
    refine ⟨fun env count build attempt attempts hError => ?_, hSame⟩
    have hOutcome : genOnce env count build attempt = .error (friendlyGeminiError msg) := by
      rw [genOnce, hError]
    rw [hOutcome, Ai.chunkFails, Ai.isTransientGeminiError_eq, ← hSame]
    rfl

/-- On a rate limit that comes without a status code the chunk stage fails, and the generation of
items tries again. -/
theorem different_retry_decision :
    let msg := "generate content: googleapi: Error 403: RATE_LIMIT_EXCEEDED"
    Ai.chunkFails 1 4 msg = true ∧ itemsFail 1 4 (.error (friendlyGeminiError msg)) = false ∧
      isTransientGeminiError (friendlyGeminiError msg) ≠ isTransientGeminiError msg := by
  intro msg
  have hNot : isTransientGeminiError msg = false := by
    show transientMarkers.any (fun marker => decide (marker.toList <:+: msg.toList)) = false
    -- the message is taken apart once, not for each marker
    generalize hText : msg.toList = text
    simp only [msg, String.reduceToList] at hText
    subst hText
    decide +kernel
  have hRate : contains msg "RATE_LIMIT_EXCEEDED" = true :=
    Lessons.contains_append "generate content: googleapi: Error 403: " "RATE_LIMIT_EXCEEDED" ""
  have hFriendly := (isTransient_friendly msg).mpr (.inr hRate)
  refine ⟨?_, ?_, ?_⟩
  · simp [Ai.chunkFails, Ai.isTransientGeminiError_eq, hNot]
  · simp [itemsFail, hFriendly]
  · simp [hNot, hFriendly]

end Richter.Generation
