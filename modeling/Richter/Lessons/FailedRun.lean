import Mathlib.Algebra.GroupWithZero.Nat
import Richter.Lessons.Reset

/-! A generation run that saves nothing: when it ends with an error. -/

namespace Richter.Lessons

open Lib

/-- The interactions that an event has saved. -/
def savedRows : Prog.Event Op Op.Resp → Nat
  | ⟨.pg (.saveInteractionsForChunk ..), .ok rows⟩ => rows.length
  | _ => 0

/-- A call of the model has failed. -/
def modelFails : Prog.Event Op Op.Resp → Bool
  | ⟨.generateForChunk .., .error _⟩ => true
  | _ => false

def saveFails : Prog.Event Op Op.Resp → Bool
  | ⟨.pg (.saveInteractionsForChunk ..), .error _⟩ => true
  | _ => false

/-- The context was found done. -/
def foundDone : Prog.Event Op Op.Resp → Bool
  | ⟨.ctxErr, true⟩ => true
  | _ => false

/-- What the events of a run tell of its losses. -/
structure Losses where
  saved : Nat := 0
  modelFailed : Bool := false
  saveFailed : Bool := false
  aborted : Bool := false
  deriving DecidableEq

def Losses.after (t : Losses) (e : Prog.Event Op Op.Resp) : Losses where
  saved := t.saved + savedRows e
  modelFailed := t.modelFailed || modelFails e
  saveFailed := t.saveFailed || saveFails e
  aborted := t.aborted || foundDone e

theorem Losses.foldl_after (h : History) (t : Losses) : h.foldl Losses.after t =
    ⟨t.saved + (h.map savedRows).sum, t.modelFailed || h.any modelFails,
      t.saveFailed || h.any saveFails, t.aborted || h.any foundDone⟩ := by
  induction h generalizing t with
  | nil => simp
  | cons e h ih =>
    rw [List.foldl_cons, ih]
    simp [after, Nat.add_assoc, Bool.or_assoc]

/-- An event that is none of those counted. -/
theorem Losses.after_other {t : Losses} {e : Prog.Event Op Op.Resp} (hSaved : savedRows e = 0)
    (hModel : modelFails e = false) (hSave : saveFails e = false) (hDone : foundDone e = false) :
    t.after e = t := by
  obtain ⟨saved, modelFailed, saveFailed, aborted⟩ := t
  simp [after, hSaved, hModel, hSave, hDone]

/-- The program ends with `ok` or `err` of what its events tell. -/
abbrev Tells {α : Type} (x : Exec α) (ok : α → Losses → Prop) (err : Losses → Prop) (t : Losses) :
    Prop :=
  Prog.Meets (fun o t r t' => t' = t.after ⟨o, r⟩) (fun _ _ => True) x ok err t

section Rules

variable {β : Type} {ok : β → Losses → Prop} {err : Losses → Prop} {t : Losses}

theorem tells_perform_bind {o : Op} {f : o.Resp → Exec β}
    (hf : ∀ r, Tells (f r) ok err (t.after ⟨o, r⟩)) : Tells (perform o >>= f) ok err t :=
  (Prog.meets_perform_bind o).mpr ⟨trivial, fun r _ hNext => hNext ▸ hf r⟩

/-- An operation that tells nothing. -/
theorem tells_silent_bind {o : Op} {f : o.Resp → Exec β}
    (ho : ∀ r, Losses.after t ⟨o, r⟩ = t) (hf : ∀ r, Tells (f r) ok err t) :
    Tells (perform o >>= f) ok err t :=
  tells_perform_bind fun r => (ho r).symm ▸ hf r

end Rules

/-- The counters of the loop agree with what the events tell. -/
structure Tallied (t : Losses) (tally : Tally) : Prop where
  saved : tally.savedThisRun = t.saved
  failed : 0 < tally.failedChunks ↔ t.modelFailed = true

section Run

variable {g : Generation} {lessonID : UUID} {t : Losses} {tally : Tally}

theorem tells_send {err : Losses → Prop} (step msg : String) (i : Nat) {ok : Unit → Losses → Prop}
    (hOk : ok () t) : Tells (g.send step msg i) ok err t := by
  refine tells_silent_bind (fun r => Losses.after_other rfl rfl rfl rfl) fun r => ?_
  exact hOk

/-- What a round leaves: the counters, unless the context was found done. -/
def RoundTallied (r : Option Tally) (t : Losses) : Prop :=
  match r with
  | none => t.aborted = true
  | some tally => Tallied t tally

theorem tells_ctxErr {x : Exec (Option Tally)}
    (hx : Tells x RoundTallied (fun _ => False) t) :
    Tells (do if ← perform .ctxErr then return none else x) RoundTallied (fun _ => False) t := by
  refine tells_perform_bind fun done => ?_
  cases done with
  | true =>
    show (t.aborted || true) = true
    exact Bool.or_true _
  | false =>
    have hSame : t.after ⟨.ctxErr, false⟩ = t := Losses.after_other rfl rfl rfl rfl
    rw [hSame]
    exact hx

theorem tells_saveItems (hTallied : Tallied t tally) (i : Nat) (chunk : LessonTranscriptChunk)
    (items : List GeneratedItem) :
    Tells (saveItems g lessonID tally i chunk items) RoundTallied (fun _ => False) t := by
  unfold saveItems
  refine tells_perform_bind fun r => ?_
  cases r with
  | error e =>
    -- A failing save changes no counter.
    refine tells_ctxErr ((Prog.meets_bind _).mpr
      (tells_send _ _ _ ⟨hTallied.saved, hTallied.failed.trans ?_⟩))
    show _ ↔ (t.modelFailed || false) = true
    rw [Bool.or_false]
  | ok rows =>
    refine (Prog.meets_bind _).mpr (tells_send _ _ _ ⟨?_, hTallied.failed.trans ?_⟩)
    · show tally.savedThisRun + rows.length = t.saved + rows.length
      rw [hTallied.saved]
    · show _ ↔ (t.modelFailed || false) = true
      rw [Bool.or_false]

theorem tells_fillChunk (hTallied : Tallied t tally) (i : Nat) (chunk : LessonTranscriptChunk) :
    Tells (fillChunk g lessonID tally i chunk) RoundTallied (fun _ => False) t := by
  unfold fillChunk
  refine tells_silent_bind (fun r => Losses.after_other rfl rfl rfl rfl) fun text => ?_
  split
  · exact (Prog.meets_bind _).mpr (tells_send _ _ _ hTallied)
  · refine tells_perform_bind fun r => ?_
    rcases r with e | _ | ⟨item, items⟩
    · refine tells_ctxErr ((Prog.meets_bind _).mpr (tells_send _ _ _ ⟨hTallied.saved, ?_⟩))
      show 0 < tally.failedChunks + 1 ↔ (t.modelFailed || true) = true
      simp
    · have hSame : t.after ⟨.generateForChunk chunk text g.lesson.language g.req.options, .ok []⟩ =
          t := Losses.after_other rfl rfl rfl rfl
      rw [hSame]
      exact hTallied
    · have hSame : t.after ⟨.generateForChunk chunk text g.lesson.language g.req.options,
          .ok (item :: items)⟩ = t := Losses.after_other rfl rfl rfl rfl
      rw [hSame]
      exact tells_saveItems hTallied i chunk (item :: items)

theorem tells_generateChunks (hTallied : Tallied t tally) (i : Nat)
    (chunks : List LessonTranscriptChunk) :
    Tells (generateChunks g lessonID i tally chunks) RoundTallied (fun _ => False) t := by
  induction chunks generalizing i tally t with
  | nil => exact hTallied
  | cons chunk chunks ih =>
    have hRound : Tells (generateChunk g lessonID tally i chunk) RoundTallied
        (fun _ => False) t := by
      unfold generateChunk
      refine tells_ctxErr ?_
      split
      · exact (Prog.meets_bind _).mpr (tells_send _ _ _ hTallied)
      · exact tells_fillChunk hTallied i chunk
    unfold generateChunks
    refine Prog.Meets.bind hRound ?_
    rintro (_ | tally') t' hNext
    · exact hNext
    · exact ih hNext (i + 1)

theorem tells_hasExistingInteractions {err : Losses → Prop} (req : GenerateInteractionsRequest) :
    Tells (hasExistingInteractions lessonID req) (fun _ t' => t' = t) err t := by
  unfold hasExistingInteractions
  split
  · refine tells_silent_bind (fun r => Losses.after_other rfl rfl rfl rfl) fun r => ?_
    cases r <;> rfl
  · rfl

/-- Nothing was saved, and a call of the model has failed. -/
def Losses.Reported (t : Losses) : Prop := t.saved = 0 ∧ t.modelFailed = true

/-- What follows the loop is an error just when the losses are reported. -/
theorem tells_concludeGeneration (hTallied : Tallied t tally) :
    Tells (concludeGeneration g lessonID tally) (fun _ t => ¬ t.Reported) Losses.Reported t := by
  unfold concludeGeneration
  split
  · next hNone =>
    rw [hTallied.saved] at hNone
    split
    · next hFailed => exact ⟨hNone, hTallied.failed.mp hFailed⟩
    · next hFine =>
      have hNot : ¬ t.Reported := fun h => hFine (hTallied.failed.mpr h.2)
      have hSend : ∀ step msg, Tells (g.send step msg 0) (fun _ t => ¬ t.Reported)
          Losses.Reported t := fun step msg => tells_send _ _ _ hNot
      refine Prog.Meets.bind (tells_hasExistingInteractions g.req) ?_
      rintro existing t' rfl
      split
      · exact hSend _ _
      · exact hSend _ _
  · next hSome =>
    rw [hTallied.saved] at hSome
    exact tells_send _ _ _ fun h => hSome h.1

theorem tells_chunksWithInteractions {err : Losses → Prop} (cfg : AiCfg)
    (req : GenerateInteractionsRequest) :
    Tells (chunksWithInteractions cfg lessonID req) (fun _ t' => t' = t) err t := by
  unfold chunksWithInteractions
  split
  · refine tells_silent_bind (fun r => Losses.after_other rfl rfl rfl rfl) fun r => ?_
    cases r <;> rfl
  · rfl

theorem tells_loadTargetChunks (cfg : AiCfg) (chunkID : Option UUID) :
    Tells (loadTargetChunks cfg lessonID chunkID) (fun _ t' => t' = t) (fun t' => t' = t) t := by
  unfold loadTargetChunks
  cases chunkID with
  | some chunkID =>
    refine tells_silent_bind (fun r => Losses.after_other rfl rfl rfl rfl) fun r => ?_
    cases r with
    | error e => rfl
    | ok c =>
      dsimp only
      split <;> rfl
  | none =>
    refine tells_silent_bind (fun r => Losses.after_other rfl rfl rfl rfl) fun r => ?_
    cases r <;> rfl

/-- A run that has not found its context done ends with an error before its loop, or just when its
losses are reported. -/
theorem tells_generationRun (cfg : AiCfg) (env : TaskEnv) (req : GenerateInteractionsRequest) :
    Tells (generationRun cfg env lessonID req) (fun _ t => t.aborted = true ∨ ¬ t.Reported)
      (fun t => t = {} ∨ t.Reported) {} := by
  unfold generationRun
  refine (Prog.meets_bind _).mpr (Prog.Meets.mono (tells_loadTargetChunks cfg req.chunkId) ?_
    fun _ => .inl)
  rintro chunks _ rfl
  split
  · exact .inl rfl
  · refine tells_silent_bind (fun r => Losses.after_other rfl rfl rfl rfl) fun r => ?_
    cases r with
    | error e => exact .inl rfl
    | ok lesson =>
      refine (Prog.meets_bind _).mpr (Prog.Meets.mono (tells_chunksWithInteractions cfg req) ?_
        fun _ => .inl)
      rintro has _ rfl
      have hStart : Tallied {} {} := ⟨rfl, by decide⟩
      refine (Prog.meets_bind _).mpr (Prog.Meets.mono (tells_generateChunks hStart 0 chunks.val) ?_
        fun _ => False.elim)
      rintro (_ | tally) t hLoop
      · exact .inl hLoop
      · exact Prog.Meets.mono (tells_concludeGeneration hLoop) (fun _ _ => .inr) fun _ => .inr

end Run

section Result

variable {σ ω : Type} {exec : ω → (o : Op) → σ → Option (o.Resp × σ)} {cfg : AiCfg} {env : TaskEnv}
  {lessonID : UUID} {req : GenerateInteractionsRequest} {ws : List ω} {s t : σ}
  {out : Except Fail Unit} {h : History}

theorem reported_iff : (h.foldl Losses.after {}).Reported ↔
    (∀ e ∈ h, savedRows e = 0) ∧ ∃ e ∈ h, modelFails e = true := by
  have hSum : (h.map savedRows).sum = 0 ↔ ∀ e ∈ h, savedRows e = 0 := by
    rw [List.sum_eq_zero_iff_forall_eq_nat, List.forall_mem_map]
  rw [Losses.Reported, Losses.foldl_after, ← hSum, ← List.any_eq_true]
  simp

theorem no_losses (hNone : h.foldl Losses.after {} = {}) :
    ∀ e ∈ h, modelFails e = false ∧ saveFails e = false := by
  rw [Losses.foldl_after] at hNone
  intro e he
  have hModel : h.any modelFails = false := by simpa using congrArg Losses.modelFailed hNone
  have hSave : h.any saveFails = false := by simpa using congrArg Losses.saveFailed hNone
  exact ⟨by simpa using List.any_eq_false.mp hModel e he,
    by simpa using List.any_eq_false.mp hSave e he⟩

theorem not_aborted (hLive : ∀ e ∈ h, foundDone e = false) :
    (h.foldl Losses.after {}).aborted = false := by
  rw [Losses.foldl_after]
  show (false || h.any foundDone) = false
  rw [Bool.false_or, List.any_eq_false]
  exact fun e he => by simp [hLive e he]

/-- What the events of a whole run tell of its result. -/
theorem result_of_losses
    (hLog : (generationRun cfg env lessonID req).run.log exec ws s = some (out, t, h)) :
    match out with
    | .ok _ => (h.foldl Losses.after {}).aborted = true ∨ ¬ (h.foldl Losses.after {}).Reported
    | .error _ => h.foldl Losses.after {} = {} ∨ (h.foldl Losses.after {}).Reported := by
  have hTells := @tells_generationRun lessonID cfg env req
  have hAlong := Prog.Ensures.along (f := Losses.after) (h := []) hTells
  have hResult := (hAlong.of_log hLog).2
  cases out with
  | ok => exact hResult
  | error e => exact hResult

/-- A run that goes on to its end and saves nothing though something failed ends with an error, just
when a call of the model is among what failed. -/
theorem failed_run_reported_iff
    (hLog : (generationRun cfg env lessonID req).run.log exec ws s = some (out, t, h))
    (hLive : ∀ e ∈ h, foundDone e = false) :
    ((∀ e ∈ h, savedRows e = 0) ∧ (∃ e ∈ h, modelFails e = true ∨ saveFails e = true) →
      ∃ err, out = .error err) ↔
    (∃ e ∈ h, savedRows e ≠ 0) ∨ (∃ e ∈ h, modelFails e = true) ∨
      ∀ e ∈ h, saveFails e = false := by
  have hResult := result_of_losses hLog
  constructor
  · intro hReports
    by_contra hNot
    push Not at hNot
    obtain ⟨hUnsaved, hNoModel, e, he, hSave⟩ := hNot
    have hSave : saveFails e = true := by simpa using hSave
    obtain ⟨err, rfl⟩ := hReports ⟨hUnsaved, e, he, .inr hSave⟩
    rcases hResult with hNone | hReported
    · rw [(no_losses hNone e he).2] at hSave
      cases hSave
    · obtain ⟨e', he', hModel⟩ := (reported_iff.mp hReported).2
      exact hNoModel e' he' hModel
  · rintro hCondition ⟨hUnsaved, e, he, hFails⟩
    cases out with
    | error err => exact ⟨err, rfl⟩
    | ok =>
      rcases hResult with hAborted | hNot
      · rw [not_aborted hLive] at hAborted
        cases hAborted
      · have hNoModel : ¬ ∃ e ∈ h, modelFails e = true := fun hModel =>
          hNot (reported_iff.mpr ⟨hUnsaved, hModel⟩)
        rcases hCondition with ⟨e', he', hSaved⟩ | hModel | hNoSave
        · exact absurd (hUnsaved e' he') hSaved
        · exact absurd hModel hNoModel
        · rcases hFails with hModel | hSave
          · exact absurd ⟨e, he, hModel⟩ hNoModel
          · rw [hNoSave e he] at hSave
            cases hSave

end Result

/-- A run for the whole lesson. -/
def fillLecture : Exec Unit :=
  generationRun demoSvc.toAiCfg ⟨100, "quiz_gen", 7, none, none, ""⟩ 10
    ⟨none, false, ⟨[], 0, 0, "", ""⟩⟩

/-- The model answers with a question. -/
def oneQuestion : Env := { items := .ok [⟨"quiz", 5, "?", "", "{}"⟩] }

theorem fillLecture_reports_model : ∃ out t h,
    fillLecture.run.log (exec 0) (List.replicate 8 calm) chunkedLecture = some (out, t, h) ∧
      ∃ err, out = .error err := by
  have hRun : (fillLecture.run.log (exec 0) (List.replicate 8 calm) chunkedLecture).any
      (fun (_, _, h) => h.all (fun e => !foundDone e) && h.all (fun e => savedRows e = 0) &&
        h.any modelFails) = true := by
    decide +kernel
  obtain ⟨⟨out, t, h⟩, hLog, hEvents⟩ := (Option.any_eq_true _ _).mp hRun
  simp only [Bool.and_eq_true, List.all_eq_true, List.any_eq_true, Bool.not_eq_true',
    decide_eq_true_eq] at hEvents
  obtain ⟨⟨hLive, hUnsaved⟩, e, he, hModel⟩ := hEvents
  exact ⟨out, t, h, hLog,
    (failed_run_reported_iff hLog hLive).mpr (.inr (.inl ⟨e, he, hModel⟩)) ⟨hUnsaved, e, he,
      .inl hModel⟩⟩

/-- The only save of the run fails, and the run ends without an error. -/
def saveFailing : List Env :=
  List.replicate 6 oneQuestion ++ [{ failure := some (.other "conn closed") }] ++
    List.replicate 4 calm

theorem fillLecture_hides_save : ∃ t h,
    fillLecture.run.log (exec 0) saveFailing chunkedLecture = some (.ok (), t, h) ∧
      (∀ e ∈ h, foundDone e = false) ∧ (∀ e ∈ h, savedRows e = 0) ∧
      ∃ e ∈ h, saveFails e = true := by
  have hRun : (fillLecture.run.log (exec 0) saveFailing chunkedLecture).any
      (fun (out, _, h) => out.isOk && (h.all (fun e => !foundDone e) &&
        h.all (fun e => savedRows e = 0) && h.any saveFails)) = true := by
    decide +kernel
  obtain ⟨⟨out, t, h⟩, hLog, hEvents⟩ := (Option.any_eq_true _ _).mp hRun
  simp only [Bool.and_eq_true, List.all_eq_true, List.any_eq_true, Bool.not_eq_true',
    decide_eq_true_eq] at hEvents
  obtain ⟨hOk, ⟨hLive, hUnsaved⟩, e, he, hSave⟩ := hEvents
  cases out with
  | error err => cases hOk
  | ok => exact ⟨t, h, hLog, hLive, hUnsaved, e, he, hSave⟩

end Richter.Lessons
