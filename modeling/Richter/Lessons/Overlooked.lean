import Mathlib.Algebra.GroupWithZero.Nat
import Mathlib.Algebra.Order.BigOperators.Group.List
import Mathlib.Algebra.Order.Group.Nat
import Richter.Lessons.Accept
import Richter.Lessons.FillEmpty

/-! A chunk that is overlooked gets another batch in a run in which the environment is obliging, so
that the runs fill the empty chunks only exactly when they overlook no chunk. -/

namespace Richter.Lessons

open Lib

/-- The operations that wait for the row of a lesson. -/
def Op.waits : Op → Bool
  | .pg (.lockLesson _) | .pg (.updateLessonVideo ..) | .pg (.replaceVideo ..) => true
  | _ => false

/-- An id that no interaction has. -/
def freshId (c : Content) : UUID := (c.children.rows.map LessonInteraction.id).sum + 1

def someItem : GeneratedItem := ⟨"quiz", 5, "?", "", "{}"⟩

/-- Nothing fails, except for the skip check when it is to, and the model has an item for every
chunk. -/
def obliging (fails : Bool) (s : Store) : Op → Env
  | .pg (.listLessonInteractions ..) =>
      { failure := if fails then some (.other "conn closed") else none }
  | _ => { newId := fun k => freshId s.content + k, items := .ok [someItem] }

section Oblige

variable {i : Nat} {w : Env} {s t : Store} {fails : Bool} {lessonID chunkID target : UUID}
  {x y : Store × History}

theorem exec_isSome {o : Op} (ho : o.waits = false) : (exec i w o s).isSome = true := by
  cases o with
  | pg q =>
    unfold exec
    dsimp only
    split
    · rfl
    · split
      · rfl
      · cases q with
        | lockLesson | updateLessonVideo | replaceVideo => cases ho
        | commit | rollback | saveChunks | saveInteractionsForChunk | getActiveTask
        | countActiveTasksByUser | insertTask | claimNextInqueuedTask =>
          unfold Query.exec
          dsimp only
          repeat' split
          all_goals rfl
        | _ => rfl
  | tryAcquire =>
    unfold exec
    dsimp only
    split <;> rfl
  | _ => rfl

@[simp] theorem obliging_cancel (o : Op) : (obliging fails s o).cancel = false := by
  unfold obliging
  split <;> rfl

theorem touch_live (hLive : s.cancelled i = false) (hCancel : w.cancel = false) :
    (s.touch i w).cancelled i = false := by
  rw [Store.touch_cancelled_self, hLive, hCancel]
  rfl

theorem exec_pg_failing {q : Query} {e : DbError} (hLive : s.cancelled i = false)
    (hCancel : w.cancel = false) (hFailure : w.failure = some e) :
    exec i w (.pg q) s = some (.error e, (s.touch i w).failed i q.inTransaction) := by
  unfold exec
  dsimp only
  rw [if_neg (by rw [touch_live hLive hCancel]; decide), hFailure]

/-- Where nothing fails, a query has its effect. -/
theorem exec_of_chosen {q : Query} {r : Except DbError q.Result} (hLive : x.1.cancelled i = false)
    (hCalm : (obliging fails x.1 (.pg q)).failure = none)
    (hStep : Prog.Chosen (exec i) (obliging fails) (.pg q) x r y) :
    q.exec i (obliging fails x.1 (.pg q)) (x.1.touch i (obliging fails x.1 (.pg q))) =
      some (r, y.1) := by
  have hExec := hStep.1
  unfold exec at hExec
  dsimp only at hExec
  rw [if_neg (by rw [touch_live hLive (obliging_cancel _)]; decide), hCalm] at hExec
  exact hExec

theorem freshId_notMem (c : Content) :
    freshId c ∉ c.children.rows.map LessonInteraction.id :=
  fun hOld => Nat.not_succ_le_self _ (List.le_sum_of_mem hOld)

/-- Under a new id any chunk can be given an item. -/
theorem saveInteractionsForChunk_fresh (lessonID : UUID) {c : Content}
    (hChunk : chunkID ∈ c.parents.rows.map LessonTranscriptChunk.id) :
    ∃ saved, saveInteractionsForChunk lessonID chunkID [someItem] false (fun k => freshId c + k) c =
      .ok saved := by
  obtain ⟨row, hRow, hId, hRef⟩ : ∃ row, newInteractions lessonID chunkID
      (getLessonInteractionNextOrderIndex lessonID c) (fun k => freshId c + k) [someItem] = [row] ∧
        row.id = freshId c ∧ row.chunkId = some chunkID := ⟨_, rfl, rfl, rfl⟩
  obtain ⟨c', hInsert⟩ := ForeignKey.exists_insertChildren (t := c) (r := row)
    (hId ▸ freshId_notMem c) (by simpa [hRef] using hChunk)
  refine ⟨([row], c'), ?_⟩
  unfold saveInteractionsForChunk
  dsimp only
  rw [if_neg (by decide), hRow, hInsert]

theorem saved_of_chosen {r : Except DbError (List LessonInteraction)}
    (hLive : x.1.cancelled i = false)
    (hChunk : chunkID ∈ x.1.content.parents.rows.map LessonTranscriptChunk.id)
    (hStep : Prog.Chosen (exec i) (obliging fails)
      (.pg (.saveInteractionsForChunk lessonID chunkID [someItem] false)) x r y) :
    ∃ rows, r = .ok rows := by
  obtain ⟨saved, hSave⟩ := saveInteractionsForChunk_fresh lessonID hChunk
  let w := obliging fails x.1 (.pg (.saveInteractionsForChunk lessonID chunkID [someItem] false))
  have hSaved : saveInteractionsForChunk lessonID chunkID [someItem] false w.newId
      (x.1.touch i w).content = .ok saved := hSave
  have hExec := exec_of_chosen hLive rfl hStep
  unfold Query.exec at hExec
  dsimp only at hExec
  rw [hSaved] at hExec
  exact ⟨saved.1, (congrArg Prod.fst (Option.some.inj hExec)).symm⟩

/-- In a run that is obliged, with the outcome `fails` of its skip check, the chunk `target` has
`n` interactions or more. -/
structure Serving (i : Nat) (s : Store) (fails : Bool) (target : UUID) (n : Nat)
    (x : Store × History) : Prop where
  checked : x.2.findSome? listingFails = some fails
  live : x.1.cancelled i = false
  parents : x.1.content.parents = s.content.parents
  chunkTranscripts : x.1.chunkTranscripts = s.chunkTranscripts
  grown : n ≤ (interactionsOf target x.1.content).length

variable {n : Nat}

theorem Serving.mono {m : Nat} (hS : Serving i s fails target n x) (hLe : m ≤ n) :
    Serving i s fails target m x :=
  ⟨hS.checked, hS.live, hS.parents, hS.chunkTranscripts, hLe.trans hS.grown⟩

theorem Serving.observes {o : Op} {r : o.Resp} (hS : Serving i s fails target n x)
    (ho : o.observes = true) (hStep : Prog.Chosen (exec i) (obliging fails) o x r y) :
    Serving i s fails target n y := by
  obtain ⟨hSame, hCancelled⟩ := exec_observes ho hStep.1
  refine ⟨hStep.2 ▸ findSome_concat hS.checked _, ?_, hSame.content ▸ hS.parents,
    hSame.chunkTranscripts.trans hS.chunkTranscripts, hSame.content ▸ hS.grown⟩
  rw [hCancelled]
  exact touch_live hS.live (obliging_cancel _)

/-- A save, which succeeds. -/
theorem Serving.save {r : Except DbError (List LessonInteraction)}
    (hS : Serving i s fails target n x)
    (hChunk : chunkID ∈ s.content.parents.rows.map LessonTranscriptChunk.id)
    (hStep : Prog.Chosen (exec i) (obliging fails)
      (.pg (.saveInteractionsForChunk lessonID chunkID [someItem] false)) x r y) :
    (∃ rows, r = .ok rows) ∧
      Serving i s fails target (if chunkID = target then n + 1 else n) y := by
  rw [← hS.parents] at hChunk
  obtain ⟨saved, rfl⟩ := saved_of_chosen hS.live hChunk hStep
  obtain ⟨hCancelled, ⟨e, hError, _⟩ | ⟨rows, _, hLength, hNew⟩⟩ := exec_save hStep.1
  · cases hError
  · refine ⟨⟨saved, rfl⟩, hStep.2 ▸ findSome_concat hS.checked _, ?_,
      hNew.parents.trans hS.parents, hNew.chunkTranscripts.trans hS.chunkTranscripts, ?_⟩
    · rw [hCancelled]
      exact touch_live hS.live (obliging_cancel _)
    · have hRows : interactionsOf target y.1.content = interactionsOf target x.1.content ++
          rows.filter fun r => r.chunkId = some target := by
        unfold interactionsOf
        rw [hNew.children, List.filter_append]
      rw [hRows, List.length_append]
      split
      · next hTarget =>
        have hAll : (rows.filter fun r => r.chunkId = some target) = rows :=
          List.filter_eq_self.mpr fun r hr => by simp [hNew.chunk r hr, hTarget]
        rw [hAll, hLength]
        exact Nat.succ_le_succ hS.grown
      · exact Nat.le_add_right_of_le hS.grown

/-- The program goes on to `ok` or `err` in the runs that are obliged. -/
abbrev Serves {α : Type} (i : Nat) (fails : Bool) (e : Exec α) (ok : α → Store × History → Prop)
    (err : Store × History → Prop) (x : Store × History) : Prop :=
  Prog.Meets (Prog.Chosen (exec i) (obliging fails)) (fun _ o => o.waits = false) e ok err x

variable {β : Type}

theorem waits_of_observes {o : Op} (ho : o.observes = true) : o.waits = false := by
  cases o with
  | pg q => cases q <;> first | rfl | cases ho
  | _ => rfl

theorem serves_perform_bind {o : Op} {f : o.Resp → Exec β} {ok : β → Store × History → Prop}
    {err : Store × History → Prop} (ho : o.waits = false)
    (hf : ∀ r y, Prog.Chosen (exec i) (obliging fails) o x r y → Serves i fails (f r) ok err y) :
    Serves i fails (perform o >>= f) ok err x := (Prog.meets_perform_bind o).mpr ⟨ho, hf⟩

variable {g : Generation} {options : GenerateOptions} {chunk : LessonTranscriptChunk}

/-- A round that goes on, and leaves `target` with `n` interactions or more. -/
def Served (i : Nat) (s : Store) (fails : Bool) (target : UUID) (n : Nat) (r : Option Tally)
    (y : Store × History) : Prop := r.isSome = true ∧ Serving i s fails target n y

theorem send_serves (hS : Serving i s fails target n x) (step msg : String) (k : Nat)
    (tally : Tally) :
    Serves i fails (do g.send step msg k; return some tally) (Served i s fails target n)
      (fun _ => False) x :=
  (Prog.meets_bind _).mpr (serves_perform_bind rfl fun _ _ hStep => ⟨rfl, hS.observes rfl hStep⟩)

theorem ctxErr_serves {e : Exec (Option Tally)} {ok : Option Tally → Store × History → Prop}
    {err : Store × History → Prop} (hS : Serving i s fails target n x)
    (he : ∀ y, Serving i s fails target n y → Serves i fails e ok err y) :
    Serves i fails (do if ← perform .ctxErr then return none else e) ok err x := by
  refine serves_perform_bind rfl fun done y hStep => ?_
  have hDone : (x.1.touch i (obliging fails x.1 .ctxErr)).cancelled i = done :=
    congrArg Prod.fst (Option.some.inj hStep.1)
  rw [touch_live hS.live (obliging_cancel _)] at hDone
  subst hDone
  exact he y (hS.observes rfl hStep)

theorem saveItems_serves (hForce : g.req.forceRegenerate = false)
    (hChunk : chunk.id ∈ s.content.parents.rows.map LessonTranscriptChunk.id)
    (hS : Serving i s fails target n x) (tally : Tally) (k : Nat) :
    Serves i fails (saveItems g lessonID tally k chunk [someItem])
      (Served i s fails target (if chunk.id = target then n + 1 else n)) (fun _ => False) x := by
  unfold saveItems
  rw [hForce]
  refine serves_perform_bind rfl fun r y hStep => ?_
  obtain ⟨⟨rows, rfl⟩, hSaved⟩ := hS.save hChunk hStep
  exact send_serves hSaved _ _ _ _

theorem fillChunk_serves (hForce : g.req.forceRegenerate = false)
    (hChunk : chunk.id ∈ s.content.parents.rows.map LessonTranscriptChunk.id)
    (hText : trimSpace (s.chunkTranscript target) ≠ "")
    (hS : Serving i s fails target n x) (tally : Tally) (k : Nat) :
    Serves i fails (fillChunk g lessonID tally k chunk)
      (Served i s fails target (if chunk.id = target then n + 1 else n)) (fun _ => False) x := by
  unfold fillChunk
  refine serves_perform_bind rfl fun text y hStep => ?_
  have hRead := hS.observes rfl hStep
  have hFetched : s.chunkTranscript chunk.id = text := by
    rw [Store.chunkTranscript, ← hS.chunkTranscripts]
    exact congrArg Prod.fst (Option.some.inj hStep.1)
  split
  · next hBlank =>
    have hOther : chunk.id ≠ target := fun hTarget => hText (by rw [← hTarget, hFetched, hBlank])
    rw [if_neg hOther]
    exact send_serves hRead _ _ _ _
  · refine serves_perform_bind rfl fun r z hStep => ?_
    obtain rfl : Except.ok [someItem] = r := congrArg Prod.fst (Option.some.inj hStep.1)
    exact saveItems_serves hForce hChunk (hRead.observes rfl hStep) tally k

theorem generateChunk_serves (hForce : g.req.forceRegenerate = false)
    (hChunk : chunk.id ∈ s.content.parents.rows.map LessonTranscriptChunk.id)
    (hOpen : Open s g.chunkHasInteractions target)
    (hS : Serving i s fails target n x) (tally : Tally) (k : Nat) :
    Serves i fails (generateChunk g lessonID tally k chunk)
      (Served i s fails target (if chunk.id = target then n + 1 else n)) (fun _ => False) x := by
  unfold generateChunk
  refine ctxErr_serves hS fun y hy => ?_
  split
  · next hSkip =>
    have hOther : chunk.id ≠ target := by
      rintro rfl
      simp only [Bool.and_eq_true, List.contains_iff_mem] at hSkip
      exact hOpen.kept hSkip.2
    rw [if_neg hOther]
    exact send_serves hy _ _ _ _
  · exact fillChunk_serves hForce hChunk hOpen.transcript hy tally k

theorem generateChunks_serves (hForce : g.req.forceRegenerate = false)
    (hOpen : Open s g.chunkHasInteractions target) {chunks : List LessonTranscriptChunk}
    (hChunks : ∀ chunk ∈ chunks, chunk.id ∈ s.content.parents.rows.map LessonTranscriptChunk.id)
    (hS : Serving i s fails target n x) (tally : Tally) (k : Nat) :
    Serves i fails (generateChunks g lessonID k tally chunks)
      (Served i s fails target
        (if target ∈ chunks.map LessonTranscriptChunk.id then n + 1 else n))
      (fun _ => False) x := by
  induction chunks generalizing k tally n x with
  | nil => exact ⟨rfl, hS⟩
  | cons chunk chunks ih =>
    rw [List.forall_mem_cons] at hChunks
    unfold generateChunks
    refine Prog.Meets.bind
      (generateChunk_serves hForce hChunks.1 hOpen hS tally k) ?_
    rintro (_ | tally') y ⟨hSome, hRound⟩
    · cases hSome
    · refine Prog.Meets.mono (ih hChunks.2 hRound tally' (k + 1)) ?_ fun _ => id
      rintro r z ⟨hGoes, hz⟩
      refine ⟨hGoes, hz.mono ?_⟩
      rw [List.map_cons]
      by_cases hThis : chunk.id = target
      · rw [if_pos hThis, if_pos (List.mem_cons.mpr (.inl hThis.symm))]
        split <;> omega
      · rw [if_neg hThis]
        exact le_of_eq (by simp [Ne.symm hThis])

/-- Before the skip check. -/
structure Ready (i : Nat) (s : Store) (x : Store × History) : Prop where
  same : SameLessons s x.1
  live : x.1.cancelled i = false
  unchecked : x.2.findSome? listingFails = none

theorem Ready.observes {o : Op} {r : o.Resp} (hR : Ready i s x) (ho : o.observes = true)
    (hOther : listingFails ⟨o, r⟩ = none)
    (hStep : Prog.Chosen (exec i) (obliging fails) o x r y) : Ready i s y := by
  obtain ⟨hSame, hCancelled⟩ := exec_observes ho hStep.1
  refine ⟨hR.same.trans hSame, ?_, ?_⟩
  · rw [hCancelled]
    exact touch_live hR.live (obliging_cancel _)
  · rw [hStep.2, List.findSome?_append, hR.unchecked]
    simp [hOther]

theorem chunksWithInteractions_serves (cfg : AiCfg) (target : UUID) (hR : Ready i s x) :
    Serves i fails (chunksWithInteractions cfg lessonID ⟨none, false, options⟩)
      (fun has y => has = skippedChunks cfg lessonID fails s.content ∧
        Serving i s fails target (interactionsOf target s.content).length y)
      (fun _ => False) x := by
  unfold chunksWithInteractions
  rw [if_pos (by rfl)]
  refine serves_perform_bind rfl fun r y hStep => ?_
  obtain ⟨hSame, hCancelled⟩ := exec_observes rfl hStep.1
  have hAll := hR.same.trans hSame
  have hLive : y.1.cancelled i = false := by
    rw [hCancelled]
    exact touch_live hR.live (obliging_cancel _)
  have hServing : listingFails ⟨_, r⟩ = some fails →
      Serving i s fails target (interactionsOf target s.content).length y := by
    intro hThis
    refine ⟨?_, hLive, by rw [hAll.content], hAll.chunkTranscripts, by rw [hAll.content]⟩
    rw [hStep.2, List.findSome?_append, hR.unchecked]
    simp [hThis]
  cases fails with
  | true =>
    have hExec := hStep.1
    rw [exec_pg_failing hR.live rfl rfl] at hExec
    obtain rfl := congrArg Prod.fst (Option.some.inj hExec)
    exact ⟨rfl, hServing rfl⟩
  | false =>
    obtain rfl := congrArg Prod.fst (Option.some.inj (exec_of_chosen hR.live rfl hStep))
    refine ⟨?_, hServing rfl⟩
    rw [skippedChunks, if_neg (by decide), ← hR.same.content]
    rfl

theorem generationRun_serves {cfg : AiCfg} (env : TaskEnv) (options : GenerateOptions)
    (hLive : s.cancelled i = false)
    (hLesson : (s.lessons.find lessonID).isSome = true)
    (hTarget : target ∈ (listLessonTranscriptChunks lessonID cfg.chunksLimit s.content).val.map
      LessonTranscriptChunk.id)
    (hOpen : Open s (skippedChunks cfg lessonID fails s.content) target) :
    Serves i fails (generationRun cfg env lessonID ⟨none, false, options⟩)
      (fun _ => Serving i s fails target ((interactionsOf target s.content).length + 1))
      (Serving i s fails target ((interactionsOf target s.content).length + 1)) (s, []) := by
  have hStart : Ready i s (s, []) := ⟨⟨rfl, rfl, rfl, rfl⟩, hLive, rfl⟩
  unfold generationRun loadTargetChunks
  refine (Prog.meets_bind _).mpr (serves_perform_bind rfl fun r y hStep => ?_)
  obtain rfl : Except.ok (listLessonTranscriptChunks lessonID cfg.chunksLimit s.content) = r :=
    congrArg Prod.fst (Option.some.inj (exec_of_chosen hLive rfl hStep))
  have hListed := hStart.observes rfl rfl hStep
  refine (Prog.meets_pure _).mpr ?_
  have hSome : (listLessonTranscriptChunks lessonID cfg.chunksLimit s.content).val ≠ [] := by
    intro hNil
    rw [hNil] at hTarget
    cases hTarget
  rw [if_neg hSome]
  refine serves_perform_bind rfl fun r z hStep => ?_
  obtain ⟨lesson, hFind⟩ := Option.isSome_iff_exists.mp hLesson
  have hOne : one (s.lessons.find lessonID) = r := by
    rw [← hListed.same.lessons]
    exact congrArg Prod.fst (Option.some.inj (exec_of_chosen hListed.live rfl hStep))
  obtain rfl : Except.ok lesson = r := by rw [← hOne, hFind]; rfl
  refine (Prog.meets_bind _).mpr (Prog.Meets.mono
    (chunksWithInteractions_serves cfg target (hListed.observes rfl rfl hStep)) ?_
    fun _ => False.elim)
  rintro _ u ⟨rfl, hServing⟩
  have hChunks : ∀ chunk ∈ (listLessonTranscriptChunks lessonID cfg.chunksLimit s.content).val,
      chunk.id ∈ s.content.parents.rows.map LessonTranscriptChunk.id := by
    intro chunk hChunk
    have hSorted := List.mem_of_mem_take hChunk
    rw [List.mem_insertionSort] at hSorted
    exact List.mem_map_of_mem (List.mem_filter.mp hSorted).1
  refine (Prog.meets_bind _).mpr (Prog.Meets.mono
    (generateChunks_serves rfl hOpen hChunks hServing {} 0) ?_ fun _ => False.elim)
  rintro (_ | tally) v ⟨hGoes, hv⟩
  · cases hGoes
  · rw [if_pos hTarget] at hv
    exact Prog.Performs.meets (concludeGeneration_observes tally)
      (fun _ _ ho _ => waits_of_observes ho) (fun o x r y ho hI hStep => hI.observes ho hStep) hv

end Oblige

/-- Whether the skip check fails or not, all runs fill the empty chunks only, exactly when they
overlook no chunk. -/
theorem run_fillsEmpty_iff (i : Nat) (cfg : AiCfg) (env : TaskEnv) (lessonID : UUID)
    (options : GenerateOptions) (fails : Bool) (s : Store) :
    (∀ ws out t h, (generationRun cfg env lessonID ⟨none, false, options⟩).run.log (exec i) ws s =
      some (out, t, h) → skipCheckFails h = fails → FillsEmpty s t) ↔
    ¬Overlooks i cfg lessonID fails s := by
  constructor
  · rintro hAll ⟨hLive, hLesson, chunk, hChunk, hHas, hOpen⟩
    have hServes := generationRun_serves env options hLive hLesson
      (List.mem_map_of_mem hChunk) hOpen
    obtain ⟨ws, out, t, h, hLog, hEnd⟩ :=
      Prog.Ensures.exists_log (fun _ _ ho => exec_isSome ho) hServes
    have hServing : Serving i s fails chunk.id ((interactionsOf chunk.id s.content).length + 1)
        (t, h) := by cases out <;> exact hEnd
    have hFails : skipCheckFails h = fails := by
      rw [skipCheckFails, hServing.checked]
      rfl
    have hGrown := hServing.grown
    rw [(hAll ws out t h hLog hFails).keeps chunk.id hHas] at hGrown
    exact Nat.not_succ_le_self _ hGrown
  · intro hNot ws out t h hLog hFails
    have hEnd := Prog.Ensures.of_log [] (generationRun_fills cfg env) rfl hLog
    have hOutcome : Outcome i cfg lessonID s (t, h) := by cases out <;> exact hEnd
    exact hOutcome.fillsEmpty (hFails ▸ hNot)

/-- A lesson whose two chunks have a transcript and a question each. -/
def quizzedLecture : Store :=
  { lecture with
    content := {
      parents := .ofList [⟨30, 10, 0, 0, 60, "intro", 1⟩, ⟨31, 10, 1, 60, 120, "proof", 1⟩]
      children := .ofList [⟨50, 10, some 30, "quiz", 5, 0, "?", "", "{}", 1, "ai"⟩,
        ⟨51, 10, some 31, "quiz", 65, 1, "?", "", "{}", 1, "ai"⟩]
      refers := by
        rw [Table.rows_ofList (by decide), Table.rows_ofList (by decide)]
        simp }
    chunkTranscripts := fun _ => some "push" }

/-- The whole lesson, read in pages of `interactionsLimit` questions. -/
def fillQuizzed (interactionsLimit : Nat) : Exec Unit :=
  generationRun { demoSvc.toAiCfg with interactionsLimit := interactionsLimit }
    ⟨100, "quiz_gen", 7, none, none, ""⟩ 10 ⟨none, false, ⟨[], 0, 0, "", ""⟩⟩

def answeringFrom (newId : UUID) : Env := { items := .ok [someItem], newId := fun k => newId + k }

/-- The skip check fails, and both chunks get another question. -/
def skipCheckFailing : List Env :=
  [calm, calm, { failure := some (.other "conn closed") }] ++
    List.replicate 5 (answeringFrom 60) ++ List.replicate 5 (answeringFrom 70) ++ [calm]

/-- Nothing fails, but the second question is behind the page. -/
def pageFull : List Env := List.replicate 11 (answeringFrom 60)

theorem refilled_of_length {t : Store} (h : (interactionsOf 31 t.content).length = 2) :
    ¬FillsEmpty quizzedLecture t := by
  intro hFills
  have hOne : (interactionsOf 31 quizzedLecture.content).length = 1 := by decide +kernel
  rw [hFills.keeps 31 (List.ne_nil_of_length_eq_add_one hOne), hOne] at h
  cases h

theorem quizzed_chunks_refilled :
    (∃ out t h, (fillQuizzed 5).run.log (exec 0) skipCheckFailing quizzedLecture =
      some (out, t, h) ∧ skipCheckFails h = true ∧ ¬FillsEmpty quizzedLecture t) ∧
    ∃ out t h, (fillQuizzed 1).run.log (exec 0) pageFull quizzedLecture = some (out, t, h) ∧
      skipCheckFails h = false ∧ ¬FillsEmpty quizzedLecture t := by
  have hFailing : ((fillQuizzed 5).run.log (exec 0) skipCheckFailing quizzedLecture).any
      (fun (_, t, h) => skipCheckFails h && decide ((interactionsOf 31 t.content).length = 2)) =
        true := by
    decide +kernel
  have hFull : ((fillQuizzed 1).run.log (exec 0) pageFull quizzedLecture).any
      (fun (_, t, h) => !skipCheckFails h && decide ((interactionsOf 31 t.content).length = 2)) =
        true := by
    decide +kernel
  obtain ⟨⟨out, t, h⟩, hLog, hEnd⟩ := (Option.any_eq_true _ _).mp hFailing
  obtain ⟨⟨out', t', h'⟩, hLog', hEnd'⟩ := (Option.any_eq_true _ _).mp hFull
  simp only [Bool.and_eq_true, Bool.not_eq_true', decide_eq_true_eq] at hEnd hEnd'
  exact ⟨⟨out, t, h, hLog, hEnd.1, refilled_of_length hEnd.2⟩, out', t', h', hLog', hEnd'.1,
    refilled_of_length hEnd'.2⟩

end Richter.Lessons
