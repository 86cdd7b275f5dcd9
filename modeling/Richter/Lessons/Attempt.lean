import Richter.Lessons.Working

/-! An attempt at a `pipeline_run` task: what its operations and their answers tell about the stages
that are done and about the interactions of the chunks, and what it performs next. -/

namespace Richter.Lessons

open Lib
open TaskQueue (Bytes Task)

/-- What an attempt has learnt so far.  `empty` and `filled` are about the interactions of a chunk;
`passedOver` holds of a chunk for which nothing could be generated or saved. -/
structure PipelineAttempt where
  task : Option Task := none
  /-- The stage that the claimed task had reached, or the last one that the attempt has set. -/
  stage : Nat := 0
  /-- The chunk stage is done. -/
  chunked : Bool := false
  listed : Option (List LessonTranscriptChunk) := none
  empty : UUID → Bool := fun _ => false
  filled : UUID → Bool := fun _ => false
  passedOver : UUID → Bool := fun _ => false
  /-- The interactions could not be read. -/
  unread : Bool := false
  /-- The context was found done. -/
  aborted : Bool := false
  ended : Bool := false

/-- The stage of a task's output. -/
def outputStage (s : AiSvc) (output : Option Bytes) : Nat := (doneStage s output).number

namespace PipelineAttempt

/-- The start of an attempt at the task. -/
def claim (s : AiSvc) (t : Task) : PipelineAttempt where
  task := some t
  stage := outputStage s t.outputPayload
  chunked := 2 ≤ outputStage s t.outputPayload

def pass (a : PipelineAttempt) (chunkId : UUID) : PipelineAttempt :=
  { a with passedOver := fun c => a.passedOver c || c = chunkId }

def afterQuery (s : AiSvc) (a : PipelineAttempt) : (q : Query) → Except DbError q.Result →
    PipelineAttempt
  | .claimNextInqueuedTask .., .ok t => claim s t
  | .setTaskCheckpoint _ output _, _ => { a with stage := outputStage s output }
  | .markSucceeded _ output _, _ => { a with stage := outputStage s output, ended := true }
  | .markFailed .., _ => { a with ended := true }
  | .saveChunks .., .ok _ => { a with
      chunked := true
      listed := none
      empty := fun _ => false
      filled := fun _ => false }
  | .listLessonTranscriptChunks .., .ok chunks => { a with listed := some chunks.val }
  | .listLessonInteractions _ limit, .ok rows => { a with
      empty := fun c => a.empty c || (limit = s.interactionsLimit &&
        rows.all fun r => r.chunkId ≠ some c)
      filled := fun c => a.filled c || rows.any fun r => r.chunkId = some c }
  | .listLessonInteractions _ limit, .error _ =>
      { a with unread := a.unread || limit = s.interactionsLimit }
  | .saveInteractionsForChunk _ chunkId _ _, .ok _ => { a with
      empty := fun c => a.empty c && c ≠ chunkId
      filled := fun c => a.filled c || c = chunkId }
  | .saveInteractionsForChunk _ chunkId _ _, .error _ => a.pass chunkId
  | _, _ => a

def after (s : AiSvc) (a : PipelineAttempt) : Prog.Event Op Op.Resp → PipelineAttempt
  | ⟨.pg q, r⟩ => a.afterQuery s q r
  | ⟨.fetchChunkTranscript chunkId, text⟩ => if trimSpace text = "" then a.pass chunkId else a
  | ⟨.generateForChunk chunk .., .error _⟩ => a.pass chunk.id
  | ⟨.generateForChunk chunk .., .ok []⟩ => a.pass chunk.id
  | ⟨.ctxErr, true⟩ => { a with aborted := true }
  | _ => a

/-- Each listed chunk has interactions, or was passed over. -/
def Covers (a : PipelineAttempt) : Prop :=
  ∃ chunks, a.listed = some chunks ∧ ∀ c ∈ chunks, a.filled c.id = true ∨ a.passedOver c.id = true

end PipelineAttempt

/-- What a worker has learnt from its operations. -/
def attempt (s : AiSvc) (h : History) : PipelineAttempt := h.foldl (PipelineAttempt.after s) {}

@[simp] theorem attempt_concat (s : AiSvc) (h : History) (e : Prog.Event Op Op.Resp) :
    attempt s (h ++ [e]) = (attempt s h).after s e :=
  List.foldl_append

theorem after_fetchChunkTranscript (s : AiSvc) (a : PipelineAttempt) (chunkId : UUID)
    (text : String) : a.after s ⟨.fetchChunkTranscript chunkId, text⟩ =
      if trimSpace text = "" then a.pass chunkId else a := rfl

/-- The operation belongs to the transcribe or the chunk stage of a pipeline. -/
def Op.early : Op → Bool
  | .pg (.updateTaskProgress _ step _ _ _) => step = "TRANSCRIBING" || step = "CHUNKING"
  | .pg (.deleteTasksForLessonExcept ..) | .pg (.deleteLessonInteractionsByLesson _)
  | .pg (.deleteLessonTranscriptChunks _) | .pg (.saveChunks ..) => true
  | .loadTranscript _ | .saveTranscript .. | .deleteTranscript _ | .loadSegments _
  | .saveSegments .. | .deleteSegments _ | .saveChunkTranscript .. | .deleteChunkTranscript _
  | .tryAcquire .. | .release .. | .transcription .. | .chunk .. => true
  | _ => false

/-- What an attempt at the task `taskId` of the lesson may query. -/
def PipelineAttempt.Queries (s : AiSvc) (taskId lessonId : UUID) (a : PipelineAttempt) :
    Query → Prop
  | .getLessonByID _ | .getLessonTranscriptChunk _ | .updateTaskProgress .. => True
  | .deleteTasksForLessonExcept _ id | .markFailed id .. => id = taskId
  | .deleteLessonInteractionsByLesson _ | .deleteLessonTranscriptChunks _ => a.chunked = false
  | .saveChunks id .. => id = lessonId ∧ a.chunked = false
  | .listLessonTranscriptChunks id limit =>
      a.chunked = true → id = lessonId ∧ limit = s.chunksLimit
  | .listLessonInteractions id _ => id = lessonId ∧ a.chunked = true
  | .saveInteractionsForChunk id chunkId items force =>
      id = lessonId ∧ a.chunked = true ∧ items ≠ [] ∧
        (∃ chunks, a.listed = some chunks ∧ chunkId ∈ chunks.map LessonTranscriptChunk.id) ∧
        (force = false → a.empty chunkId = true ∨ a.unread = true)
  | .setTaskCheckpoint id output _ =>
      id = taskId ∧ a.stage ≤ outputStage s output ∧ (2 ≤ outputStage s output → a.chunked = true)
  | .markSucceeded id output _ =>
      id = taskId ∧ a.stage ≤ outputStage s output ∧ a.chunked = true ∧
        (a.aborted = true ∨ a.unread = true ∨ a.Covers)
  | _ => False

/-- What an attempt performs next. -/
structure PipelineAttempt.Resumes (s : AiSvc) (taskId lessonId : UUID) (a : PipelineAttempt)
    (o : Op) : Prop where
  running : a.ended = false
  early : o.early = true → a.stage < 2
  queries : ∀ q, o = .pg q → a.Queries s taskId lessonId q

theorem outputStage_none (s : AiSvc) : outputStage s none = 0 := rfl

theorem outputStage_marshalOutput (s : AiSvc) (out : PipelineRunTaskOutput) :
    outputStage s (some (s.proto.marshalOutput out)) = out.stage.number := by
  unfold outputStage doneStage
  have hRead := s.proto.unmarshal_marshal out
  rw [Option.getD_some]
  split
  · next hNil =>
    rw [hNil, s.proto.unmarshal_nil] at hRead
    cases hRead
    rfl
  · rw [hRead]
    rfl

/-- The program performs what an attempt may perform; if it ends with an error, the attempt has not
ended yet. -/
abbrev Leads {α : Type} (s : AiSvc) (taskId lessonId : UUID) (x : Exec α)
    (ok : α → PipelineAttempt → Prop) (a : PipelineAttempt) : Prop :=
  Prog.Meets (fun o a r a' => a' = a.after s ⟨o, r⟩) (PipelineAttempt.Resumes s taskId lessonId) x
    ok (fun a => a.ended = false) a

section Rules

variable {s : AiSvc} {taskId lessonId : UUID} {α β : Type} {a : PipelineAttempt} {x : Exec α}
  {ok : β → PipelineAttempt → Prop}

theorem leads_perform_bind {o : Op} {f : o.Resp → Exec β} (ho : a.Resumes s taskId lessonId o)
    (hf : ∀ r, Leads s taskId lessonId (f r) ok (a.after s ⟨o, r⟩)) :
    Leads s taskId lessonId (perform o >>= f) ok a :=
  (Prog.meets_perform_bind o).mpr ⟨ho, fun r _ hNext => hNext ▸ hf r⟩

theorem leads_ignore {o : Op} {ok : Unit → PipelineAttempt → Prop}
    (ho : a.Resumes s taskId lessonId o) (hOk : ∀ r, ok () (a.after s ⟨o, r⟩)) :
    Leads s taskId lessonId (ignore o) ok a := leads_perform_bind ho hOk

theorem leads_ignore_bind {o : Op} {f : Unit → Exec β} (ho : a.Resumes s taskId lessonId o)
    (hf : ∀ r, Leads s taskId lessonId (f ()) ok (a.after s ⟨o, r⟩)) :
    Leads s taskId lessonId (ignore o >>= f) ok a :=
  (Prog.meets_bind _).mpr (leads_ignore ho hf)

theorem leads_of_performs {A : Op → Prop} {I : PipelineAttempt → Prop} (hx : Performs A x)
    (hResumes : ∀ o a, A o → I a → a.Resumes s taskId lessonId o)
    (hAfter : ∀ o r a, A o → I a → I (a.after s ⟨o, r⟩)) (ha : I a)
    (hRunning : ∀ a, I a → a.ended = false) :
    Leads s taskId lessonId x (fun _ => I) a :=
  Prog.Meets.mono (Prog.Performs.meets hx (fun a o => hResumes o a) (fun o a r a' ho ha hNext => by
    subst hNext
    exact hAfter o r a ho ha) ha) (fun _ _ => id) hRunning

theorem resumes_query {q : Query} (hRunning : a.ended = false)
    (hEarly : (Op.pg q).early = true → a.stage < 2) (hq : a.Queries s taskId lessonId q) :
    a.Resumes s taskId lessonId (.pg q) := by
  refine ⟨hRunning, hEarly, fun q' hq' => ?_⟩
  cases hq'
  exact hq

end Rules

/-- The chunk stage is not done, and the stage is below `k`. -/
structure PipelineAttempt.Below (k : Nat) (a : PipelineAttempt) : Prop where
  running : a.ended = false
  chunked : a.chunked = false
  stage : a.stage < k

/-- The chunks are saved. -/
structure PipelineAttempt.HasChunks (a : PipelineAttempt) : Prop where
  running : a.ended = false
  chunked : a.chunked = true
  stage : a.stage ≤ 3

section EarlyStages

variable {s : AiSvc} {taskId lessonId : UUID} {a : PipelineAttempt} {env : TaskEnv}

theorem transcribing_resumes {o : Op} (ho : o.transcribing taskId) (ha : a.Below 1) :
    a.Resumes s taskId lessonId o := by
  refine ⟨ha.running, fun _ => ha.stage.trans (by decide), ?_⟩
  rintro q rfl
  cases q with
  | getLessonByID | updateTaskProgress => trivial
  | deleteLessonInteractionsByLesson | deleteLessonTranscriptChunks => exact ha.chunked
  | deleteTasksForLessonExcept _ id =>
    show id = taskId
    exact of_decide_eq_true ho
  | listLessonTranscriptChunks =>
    intro hChunked
    rw [ha.chunked] at hChunked
    cases hChunked
  | _ => cases ho

theorem transcribing_after {o : Op} {k : Nat} (ho : o.transcribing taskId) (r : o.Resp)
    (ha : a.Below k) : (a.after s ⟨o, r⟩).Below k := by
  cases o with
  | pg q =>
    cases q with
    | listLessonTranscriptChunks => cases r <;> exact ⟨ha.running, ha.chunked, ha.stage⟩
    | getLessonByID | updateTaskProgress | deleteLessonInteractionsByLesson
    | deleteLessonTranscriptChunks | deleteTasksForLessonExcept => exact ha
    | _ => cases ho
  | fetchChunkTranscript | generateForChunk | ctxErr => cases ho
  | _ => exact ha

theorem saveCheckpoint_leads {stage : PipelineStage} {ok : Unit → PipelineAttempt → Prop}
    (ha : a.ended = false) (hStage : a.stage ≤ stage.number)
    (hChunked : 2 ≤ stage.number → a.chunked = true)
    (hOk : ok () { a with stage := stage.number }) :
    Leads s env.taskID lessonId (saveCheckpoint s env stage) ok a := by
  have hOutput : outputStage s (some (s.proto.marshalOutput { stage := stage })) = stage.number :=
    outputStage_marshalOutput s _
  unfold saveCheckpoint
  refine leads_ignore (resumes_query ha nofun ⟨rfl, ?_, ?_⟩) fun _ => ?_
  · rw [hOutput]
    exact hStage
  · rw [hOutput]
    exact hChunked
  · rw [← hOutput] at hOk
    exact hOk

theorem transcribeStage_leads (ha : a.Below 1) :
    Leads s env.taskID lessonId (transcribeStage s env lessonId) (fun _ a => a.Below 2) a := by
  have hRun : Performs (·.transcribing env.taskID)
      (transcriptRun s.toAiCfg { env with stageLabel := "TRANSCRIBING" } lessonId) :=
    (transcriptRun_performs s.toAiCfg { env with stageLabel := "TRANSCRIBING" } lessonId).mono
      fun _ => stage_of_under
  have hLeads : ∀ a : PipelineAttempt, a.Below 1 → Leads s env.taskID lessonId
      (transcriptRun s.toAiCfg { env with stageLabel := "TRANSCRIBING" } lessonId)
      (fun _ a => a.Below 1) a := fun a ha =>
    leads_of_performs hRun (fun o a => transcribing_resumes)
      (fun o r a ho => transcribing_after ho r) ha fun a ha => ha.running
  unfold transcribeStage
  refine leads_ignore_bind (resumes_query ha.running (fun _ => ha.stage.trans (by decide)) trivial)
    fun _ => Prog.Meets.bind (Prog.Meets.tryCatch (hLeads _ ha) _) ?_
  intro _ a ha
  exact saveCheckpoint_leads ha.running ha.stage.le (fun hTwo => absurd hTwo (by decide))
    ⟨ha.running, ha.chunked, Nat.one_lt_two⟩

/-- The attempt is in the chunk stage, which has saved the chunks. -/
structure PipelineAttempt.Chunked (a : PipelineAttempt) : Prop where
  running : a.ended = false
  chunked : a.chunked = true
  stage : a.stage < 2

theorem leads_ignoreAll {os : List Op} (hAfter : ∀ o ∈ os, ∀ r, a.after s ⟨o, r⟩ = a)
    (hos : ∀ o ∈ os, a.Resumes s taskId lessonId o) :
    Leads s taskId lessonId (ignoreAll os) (fun _ a' => a' = a) a := by
  induction os with
  | nil => exact rfl
  | cons o os ih =>
    unfold ignoreAll
    refine leads_ignore_bind (hos o List.mem_cons_self) fun r => ?_
    rw [hAfter o List.mem_cons_self r]
    exact ih (fun o ho => hAfter o (List.mem_cons_of_mem _ ho))
      fun o ho => hos o (List.mem_cons_of_mem _ ho)

theorem saveChunkTranscripts_leads (transcriptText : String) (allSegs : List Segment)
    (saved : SavedChunks) (ha : a.Chunked) :
    Leads s taskId lessonId (saveChunkTranscripts transcriptText allSegs saved)
      (fun _ a => a.Chunked) a := by
  have hOps : ∀ (os : List Op), (∀ o ∈ os, ∃ id, o = .deleteChunkTranscript id ∨
      ∃ text, o = .saveChunkTranscript id text) →
      Leads s taskId lessonId (ignoreAll os) (fun _ a' => a' = a) a := by
    intro os hos
    refine leads_ignoreAll (fun o ho r => ?_) fun o ho => ?_
    · obtain ⟨id, rfl | ⟨text, rfl⟩⟩ := hos o ho <;> rfl
    · obtain ⟨id, rfl | ⟨text, rfl⟩⟩ := hos o ho <;>
        exact ⟨ha.running, fun _ => ha.stage, nofun⟩
  unfold saveChunkTranscripts
  refine Prog.Meets.bind (hOps _ fun o ho => ?_) ?_
  · obtain ⟨id, _, rfl⟩ := List.mem_map.mp ho
    exact ⟨id, .inl rfl⟩
  · rintro _ a' rfl
    refine Prog.Meets.mono (hOps _ fun o ho => ?_) (fun _ a' ha' => ha' ▸ ha) fun _ => id
    obtain ⟨c, _, rfl⟩ := List.mem_map.mp ho
    exact ⟨c.id, .inr ⟨_, rfl⟩⟩

theorem saveProposals_leads (transcriptText : String) (allSegs : List Segment)
    (chunks : List ChunkProposal) (ha : a.Below 2) :
    Leads s taskId lessonId (saveProposals s.toAiCfg env lessonId transcriptText allSegs chunks)
      (fun _ a => a.Chunked) a := by
  unfold saveProposals
  refine leads_ignore_bind (resumes_query ha.running (fun _ => ha.stage) trivial) fun _ =>
    leads_perform_bind (resumes_query ha.running (fun _ => ha.stage) ⟨rfl, ha.chunked⟩) ?_
  rintro (e | saved)
  · exact ha.running
  · exact saveChunkTranscripts_leads transcriptText allSegs saved ⟨ha.running, rfl, ha.stage⟩

theorem runChunk_leads (ha : a.Below 2) :
    Leads s taskId lessonId (runChunk s.toAiCfg env lessonId) (fun _ a => a.Chunked) a := by
  have hOther : ∀ o : Op, (∀ q, o ≠ .pg q) → a.Resumes s taskId lessonId o :=
    fun o ho => ⟨ha.running, fun _ => ha.stage, fun q hq => absurd hq (ho q)⟩
  unfold runChunk
  refine leads_perform_bind (hOther _ nofun) fun transcriptText => ?_
  dsimp only
  split
  · exact ha.running
  · split
    · exact ha.running
    · refine leads_perform_bind (hOther _ nofun) fun segments =>
        leads_perform_bind (hOther _ nofun) fun allSegs =>
        leads_perform_bind (resumes_query ha.running (fun _ => ha.stage) trivial) fun lesson =>
        leads_ignore_bind (resumes_query ha.running (fun _ => ha.stage) trivial) fun _ =>
        leads_perform_bind (hOther _ nofun) ?_
      rintro (e | _ | ⟨ch, chunks⟩)
      · exact ha.running
      · exact ha.running
      · exact saveProposals_leads transcriptText allSegs (ch :: chunks) ha

theorem chunkStage_leads (ha : a.Below 2) :
    Leads s env.taskID lessonId (chunkStage s env lessonId) (fun _ a => a.HasChunks) a := by
  unfold chunkStage
  refine leads_ignore_bind (resumes_query ha.running (fun _ => ha.stage) trivial) fun _ =>
    Prog.Meets.bind (Prog.Meets.tryCatch (runChunk_leads ha) _) ?_
  intro _ a ha
  exact saveCheckpoint_leads ha.running ha.stage.le (fun _ => ha.chunked)
    ⟨ha.running, ha.chunked, Nat.le_succ 2⟩

end EarlyStages

/-- What an attempt has learnt may grow while it works on a chunk, of which it is no longer known
that it is empty. -/
structure PipelineAttempt.Grows (chunkId : UUID) (a a' : PipelineAttempt) : Prop where
  ended : a'.ended = a.ended
  chunked : a'.chunked = a.chunked
  stage : a'.stage = a.stage
  listed : a'.listed = a.listed
  empty : ∀ c ≠ chunkId, a.empty c = true → a'.empty c = true
  filled : ∀ c, a.filled c = true → a'.filled c = true
  passedOver : ∀ c, a.passedOver c = true → a'.passedOver c = true
  unread : a.unread = true → a'.unread = true

namespace PipelineAttempt.Grows

variable {chunkId : UUID} {a b c : PipelineAttempt}

theorem refl (chunkId : UUID) (a : PipelineAttempt) : Grows chunkId a a :=
  ⟨rfl, rfl, rfl, rfl, fun _ _ => id, fun _ => id, fun _ => id, id⟩

theorem trans (h : Grows chunkId a b) (h' : Grows chunkId b c) : Grows chunkId a c where
  ended := h'.ended.trans h.ended
  chunked := h'.chunked.trans h.chunked
  stage := h'.stage.trans h.stage
  listed := h'.listed.trans h.listed
  empty d hd hEmpty := h'.empty d hd (h.empty d hd hEmpty)
  filled d hFilled := h'.filled d (h.filled d hFilled)
  passedOver d hPassed := h'.passedOver d (h.passedOver d hPassed)
  unread hUnread := h'.unread (h.unread hUnread)

theorem hasChunks (h : Grows chunkId a b) (ha : a.HasChunks) : b.HasChunks :=
  ⟨h.ended.trans ha.running, h.chunked.trans ha.chunked, h.stage.trans_le ha.stage⟩

theorem pass (chunkId : UUID) (a : PipelineAttempt) : Grows chunkId a (a.pass chunkId) :=
  ⟨rfl, rfl, rfl, rfl, fun _ _ => id, fun _ => id,
    fun d hd => by simp [PipelineAttempt.pass, hd], id⟩

theorem covers (h : Grows chunkId a b) (ha : a.Covers) : b.Covers := by
  obtain ⟨chunks, hListed, hCovered⟩ := ha
  refine ⟨chunks, h.listed.trans hListed, fun c hc => ?_⟩
  rcases hCovered c hc with hFilled | hPassed
  · exact .inl (h.filled c.id hFilled)
  · exact .inr (h.passedOver c.id hPassed)

end PipelineAttempt.Grows

/-- The chunk has interactions, or was passed over. -/
def PipelineAttempt.Settles (a : PipelineAttempt) (chunkId : UUID) : Prop :=
  a.filled chunkId = true ∨ a.passedOver chunkId = true

/-- A round of the loop ends because the context is done, or it has dealt with the chunk. -/
def RoundDone (chunkId : UUID) (a : PipelineAttempt) (tally : Option Tally)
    (a' : PipelineAttempt) : Prop :=
  a.Grows chunkId a' ∧ match tally with
    | none => a'.aborted = true
    | some _ => a'.Settles chunkId

section Rounds

variable {s : AiSvc} {taskId lessonId : UUID} {a : PipelineAttempt} {g : Generation}

theorem RoundDone.of_grows {chunkId : UUID} {a₀ : PipelineAttempt} {tally : Option Tally}
    {a' : PipelineAttempt} (hGrows : a₀.Grows chunkId a) (h : RoundDone chunkId a tally a') :
    RoundDone chunkId a₀ tally a' := ⟨hGrows.trans h.1, h.2⟩

theorem leads_of_grows {chunkId : UUID} {a₀ : PipelineAttempt} {x : Exec (Option Tally)}
    (hGrows : a₀.Grows chunkId a) (hx : Leads s taskId lessonId x (RoundDone chunkId a) a) :
    Leads s taskId lessonId x (RoundDone chunkId a₀) a :=
  Prog.Meets.mono hx (fun _ _ hDone => hDone.of_grows hGrows) fun _ => id

theorem send_leads (hLabel : g.env.stageLabel = "GENERATING") (ha : a.ended = false)
    (step msg : String) (i : Nat) :
    Leads s taskId lessonId (g.send step msg i) (fun _ a' => a' = a) a := by
  refine leads_ignore (resumes_query ha (fun hEarly => ?_) trivial) fun _ => rfl
  rw [hLabel] at hEarly
  cases hEarly

/-- A message, and then the end of the round. -/
theorem send_round (hLabel : g.env.stageLabel = "GENERATING") (ha : a.ended = false)
    (step msg : String) (i : Nat) {chunkId : UUID} (tally : Tally) (hDone : a.Settles chunkId) :
    Leads s taskId lessonId (do g.send step msg i; return some tally) (RoundDone chunkId a) a := by
  refine Prog.Meets.bind (send_leads hLabel ha step msg i) ?_
  rintro _ a' rfl
  exact ⟨.refl _ _, hDone⟩

/-- The context is looked at: it is done, or the round goes on. -/
theorem ctxErr_round (ha : a.ended = false) {x : Exec (Option Tally)} {chunkId : UUID}
    (hx : Leads s taskId lessonId x (RoundDone chunkId a) a) :
    Leads s taskId lessonId (do if ← perform .ctxErr then return none else x)
      (RoundDone chunkId a) a := by
  refine leads_perform_bind ⟨ha, nofun, nofun⟩ fun canceled => ?_
  cases canceled with
  | true => exact ⟨⟨rfl, rfl, rfl, rfl, fun _ _ => id, fun _ => id, fun _ => id, id⟩, rfl⟩
  | false => exact hx

/-- What a round relies on: the attempt has its list, and where the request does not force anything,
the chunk of the round is known to be empty. -/
structure AtChunk (g : Generation) (chunk : LessonTranscriptChunk) (a : PipelineAttempt) :
    Prop where
  label : g.env.stageLabel = "GENERATING"
  saved : a.HasChunks
  listed : ∃ chunks, a.listed = some chunks ∧ chunk ∈ chunks
  empty : g.req.forceRegenerate = false → a.empty chunk.id = true ∨ a.unread = true

theorem saveItems_leads (tally : Tally) (i : Nat) {chunk : LessonTranscriptChunk}
    {items : List GeneratedItem} (hItems : items ≠ []) (ha : AtChunk g chunk a) :
    Leads s taskId lessonId (saveItems g lessonId tally i chunk items)
      (RoundDone chunk.id a) a := by
  obtain ⟨chunks, hListed, hMem⟩ := ha.listed
  have hSave : a.Queries s taskId lessonId
      (.saveInteractionsForChunk lessonId chunk.id items g.req.forceRegenerate) :=
    ⟨rfl, ha.saved.chunked, hItems, ⟨chunks, hListed, List.mem_map_of_mem hMem⟩, ha.empty⟩
  unfold saveItems
  refine leads_perform_bind (resumes_query ha.saved.running nofun hSave) ?_
  rintro (e | saved)
  · have hRunning : (a.pass chunk.id).ended = false := ha.saved.running
    exact leads_of_grows (.pass chunk.id a) (ctxErr_round hRunning
      (send_round ha.label hRunning _ _ _ _ (.inr (by simp [PipelineAttempt.pass]))))
  · generalize hNext : a.after s _ = a'
    have hFill : a' = { a with
        empty := fun c => a.empty c && c ≠ chunk.id
        filled := fun c => a.filled c || c = chunk.id } := hNext.symm
    subst hFill
    refine leads_of_grows ⟨rfl, rfl, rfl, rfl, fun c hc hEmpty => ?_, fun c hFilled => ?_,
      fun _ => id, id⟩ (send_round ha.label ?_ _ _ _ _ (.inl ?_))
    · simp [hEmpty, hc]
    · simp [hFilled]
    · exact ha.saved.running
    · simp

theorem fillChunk_leads (tally : Tally) (i : Nat) {chunk : LessonTranscriptChunk}
    (ha : AtChunk g chunk a) :
    Leads s taskId lessonId (fillChunk g lessonId tally i chunk) (RoundDone chunk.id a) a := by
  have hPassed : (a.pass chunk.id).Settles chunk.id := .inr (by simp [PipelineAttempt.pass])
  have hRunning : (a.pass chunk.id).ended = false := ha.saved.running
  unfold fillChunk
  refine leads_perform_bind ⟨ha.saved.running, nofun, nofun⟩ fun text => ?_
  by_cases hText : trimSpace text = ""
  · rw [if_pos hText, after_fetchChunkTranscript, if_pos hText]
    exact leads_of_grows (.pass chunk.id a) (send_round ha.label hRunning _ _ _ _ hPassed)
  · rw [if_neg hText, after_fetchChunkTranscript, if_neg hText]
    refine leads_perform_bind ⟨ha.saved.running, nofun, nofun⟩ ?_
    rintro (e | _ | ⟨item, items⟩)
    · exact leads_of_grows (.pass chunk.id a) (ctxErr_round hRunning
        (send_round ha.label hRunning _ _ _ _ hPassed))
    · exact ⟨.pass chunk.id a, hPassed⟩
    · exact saveItems_leads tally i (List.cons_ne_nil item items) ha

/-- The invariant of the loop, before the round of the first of `rest`. -/
structure InLoop (g : Generation) (chunks rest : List LessonTranscriptChunk)
    (a : PipelineAttempt) : Prop where
  label : g.env.stageLabel = "GENERATING"
  whole : g.req.chunkId = none
  saved : a.HasChunks
  listed : a.listed = some chunks
  sub : ∀ c ∈ rest, c ∈ chunks
  nodup : (rest.map LessonTranscriptChunk.id).Nodup
  empty : g.req.forceRegenerate = false → ∀ c ∈ rest, c.id ∉ g.chunkHasInteractions →
    a.empty c.id = true ∨ a.unread = true
  filled : ∀ id ∈ g.chunkHasInteractions, a.filled id = true
  done : ∀ c ∈ chunks, c ∈ rest ∨ a.Settles c.id

theorem InLoop.grows {chunks rest : List LessonTranscriptChunk} {chunk : LessonTranscriptChunk}
    {a' : PipelineAttempt} (h : InLoop g chunks (chunk :: rest) a)
    (hGrows : a.Grows chunk.id a') (hDone : a'.Settles chunk.id) : InLoop g chunks rest a' where
  label := h.label
  whole := h.whole
  saved := hGrows.hasChunks h.saved
  listed := hGrows.listed.trans h.listed
  sub c hc := h.sub c (List.mem_cons_of_mem _ hc)
  nodup := (List.nodup_cons.mp h.nodup).2
  empty hForce c hc hNew := by
    have hOther : c.id ≠ chunk.id := by
      intro hSame
      refine (List.nodup_cons.mp h.nodup).1 ?_
      rw [← hSame]
      exact List.mem_map_of_mem hc
    exact (h.empty hForce c (List.mem_cons_of_mem _ hc) hNew).imp (hGrows.empty c.id hOther)
      hGrows.unread
  filled id hId := hGrows.filled id (h.filled id hId)
  done c hc := by
    rcases h.done c hc with hRest | hSettled
    · rcases List.mem_cons.mp hRest with rfl | hRest
      · exact .inr hDone
      · exact .inl hRest
    · exact .inr (hSettled.imp (hGrows.filled c.id) (hGrows.passedOver c.id))

/-- One round: the chunk is skipped or filled, or the context is done. -/
theorem generateChunk_leads (tally : Tally) (i : Nat) {chunks rest : List LessonTranscriptChunk}
    {chunk : LessonTranscriptChunk} (h : InLoop g chunks (chunk :: rest) a) :
    Leads s taskId lessonId (generateChunk g lessonId tally i chunk) (RoundDone chunk.id a) a := by
  unfold generateChunk
  refine ctxErr_round h.saved.running ?_
  split
  · next hSkip =>
    have hHas : chunk.id ∈ g.chunkHasInteractions := by
      simp only [Bool.and_eq_true, List.contains_iff_mem] at hSkip
      exact hSkip.2
    exact send_round h.label h.saved.running _ _ _ _ (.inl (h.filled _ hHas))
  · next hFill =>
    refine fillChunk_leads tally i ⟨h.label, h.saved,
      ⟨chunks, h.listed, h.sub _ List.mem_cons_self⟩, fun hForce => ?_⟩
    refine h.empty hForce chunk List.mem_cons_self fun hHas => hFill ?_
    simp [GenerateInteractionsRequest.fills, hForce, h.whole, hHas]

/-- The loop ends with all chunks dealt with, or because the context is done. -/
theorem generateChunks_leads {chunks rest : List LessonTranscriptChunk} (i : Nat) (tally : Tally)
    (h : InLoop g chunks rest a) :
    Leads s taskId lessonId (generateChunks g lessonId i tally rest)
      (fun tally a' => a'.HasChunks ∧ match tally with
        | none => a'.aborted = true
        | some _ => a'.Covers) a := by
  induction rest generalizing i tally a with
  | nil =>
    refine ⟨h.saved, chunks, h.listed, fun c hc => ?_⟩
    rcases h.done c hc with hRest | hSettled
    · cases hRest
    · exact hSettled
  | cons chunk rest ih =>
    unfold generateChunks
    refine Prog.Meets.bind (generateChunk_leads tally i h) ?_
    rintro (_ | tally) a' ⟨hGrows, hDone⟩
    · exact ⟨hGrows.hasChunks h.saved, hDone⟩
    · exact ih (i + 1) tally (h.grows hGrows hDone)

/-- The generation is through: the chunks are covered, unless the attempt could not see it. -/
structure PipelineAttempt.Generated (a : PipelineAttempt) : Prop where
  saved : a.HasChunks
  covers : a.aborted = true ∨ a.unread = true ∨ a.Covers

/-- What the list of interactions adds to what is known. -/
theorem grows_listLessonInteractions (limit : Nat) (chunkId : UUID)
    (r : Except DbError (List LessonInteraction)) :
    a.Grows chunkId (a.after s ⟨.pg (.listLessonInteractions lessonId limit), r⟩) := by
  cases r with
  | error e =>
    refine ⟨rfl, rfl, rfl, rfl, fun _ _ => id, fun _ => id, fun _ => id, fun hUnread => ?_⟩
    simp [PipelineAttempt.after, PipelineAttempt.afterQuery, hUnread]
  | ok rows =>
    refine ⟨rfl, rfl, rfl, rfl, fun c _ hEmpty => ?_, fun c hFilled => ?_, fun _ => id, id⟩
    · simp [PipelineAttempt.after, PipelineAttempt.afterQuery, hEmpty]
    · simp [PipelineAttempt.after, PipelineAttempt.afterQuery, hFilled]

theorem concludeGeneration_leads (hLabel : g.env.stageLabel = "GENERATING")
    (hWhole : g.req.chunkId = none) (tally : Tally) (hSaved : a.HasChunks) (hCovers : a.Covers) :
    Leads s taskId lessonId (concludeGeneration g lessonId tally) (fun _ a => a.Generated) a := by
  have hSend : ∀ (step msg : String) (i : Nat) (a : PipelineAttempt), a.HasChunks → a.Covers →
      Leads s taskId lessonId (g.send step msg i) (fun _ a => a.Generated) a := by
    intro step msg i a hSaved hCovers
    refine Prog.Meets.mono (send_leads hLabel hSaved.running step msg i) ?_ fun _ => id
    rintro _ a' rfl
    exact ⟨hSaved, .inr (.inr hCovers)⟩
  unfold concludeGeneration
  split
  · split
    · exact hSaved.running
    · unfold hasExistingInteractions
      rw [hWhole]
      refine (Prog.meets_bind _).mpr (leads_perform_bind (resumes_query hSaved.running nofun
        ⟨rfl, hSaved.chunked⟩) fun r => ?_)
      have hGrows : a.Grows 0 (a.after s ⟨.pg (.listLessonInteractions lessonId 1), r⟩) :=
        grows_listLessonInteractions 1 0 r
      cases r with
      | error e => exact hSend _ _ _ _ (hGrows.hasChunks hSaved) (hGrows.covers hCovers)
      | ok existing =>
        cases existing <;>
          exact hSend _ _ _ _ (hGrows.hasChunks hSaved) (hGrows.covers hCovers)
  · exact hSend _ _ _ _ hSaved hCovers

/-- The loop starts with the chunks that were read as empty known to be so. -/
theorem chunksWithInteractions_leads {req : GenerateInteractionsRequest}
    (hWhole : req.chunkId = none) (hSaved : a.HasChunks) :
    Leads s taskId lessonId (chunksWithInteractions s.toAiCfg lessonId req)
      (fun has a' => a.Grows 0 a' ∧ (∀ id ∈ has, a'.filled id = true) ∧
        (req.forceRegenerate = false → ∀ id, id ∉ has → a'.empty id = true ∨ a'.unread = true))
      a := by
  unfold chunksWithInteractions GenerateInteractionsRequest.fills
  rw [hWhole]
  cases hForce : req.forceRegenerate with
  | true => exact ⟨.refl 0 a, nofun, nofun⟩
  | false =>
    refine leads_perform_bind (resumes_query hSaved.running nofun ⟨rfl, hSaved.chunked⟩) fun r => ?_
    have hGrows : a.Grows 0 (a.after s ⟨.pg (.listLessonInteractions lessonId s.interactionsLimit),
        r⟩) := grows_listLessonInteractions _ 0 r
    cases r with
    | error e =>
      refine ⟨hGrows, nofun, fun _ id _ => .inr ?_⟩
      simp [PipelineAttempt.after, PipelineAttempt.afterQuery]
    | ok rows =>
      refine ⟨hGrows, fun id hId => ?_, fun _ id hId => .inl ?_⟩
      · obtain ⟨r, hr, hChunk⟩ := List.mem_filterMap.mp hId
        have hAny : (rows.any fun r => r.chunkId = some id) = true :=
          List.any_eq_true.mpr ⟨r, hr, decide_eq_true hChunk⟩
        simp only [PipelineAttempt.after, PipelineAttempt.afterQuery, hAny, Bool.or_true]
      · have hAll : (rows.all fun r => r.chunkId ≠ some id) = true :=
          List.all_eq_true.mpr fun r hr => decide_eq_true fun hChunk =>
            hId (List.mem_filterMap.mpr ⟨r, hr, hChunk⟩)
        simp only [PipelineAttempt.after, PipelineAttempt.afterQuery, hAll, decide_true,
          Bool.and_self, Bool.or_true]

theorem generationRun_leads {env : TaskEnv} {req : GenerateInteractionsRequest}
    (hLabel : env.stageLabel = "GENERATING") (hWhole : req.chunkId = none) (hSaved : a.HasChunks) :
    Leads s taskId lessonId (generationRun s.toAiCfg env lessonId req)
      (fun _ a => a.Generated) a := by
  unfold generationRun loadTargetChunks
  rw [hWhole]
  refine (Prog.meets_bind _).mpr (leads_perform_bind
    (resumes_query hSaved.running nofun fun _ => ⟨rfl, rfl⟩) ?_)
  rintro (e | chunks)
  · exact hSaved.running
  · generalize hNext : a.after s _ = b
    have hListed : b = { a with listed := some chunks.val } := hNext.symm
    have hSavedB : b.HasChunks := hListed ▸ ⟨hSaved.running, hSaved.chunked, hSaved.stage⟩
    refine (Prog.meets_pure chunks).mpr ?_
    dsimp only
    split
    · exact hSavedB.running
    · refine leads_perform_bind (resumes_query hSavedB.running nofun trivial) ?_
      rintro (e | lesson)
      · exact hSavedB.running
      · refine Prog.Meets.bind (chunksWithInteractions_leads hWhole hSavedB) ?_
        rintro has c ⟨hGrows, hFilled, hEmpty⟩
        have hLoop : InLoop ⟨env, lesson, req, has, chunks.val.length⟩ chunks.val chunks.val c :=
          ⟨hLabel, hWhole, hGrows.hasChunks hSavedB, hGrows.listed.trans (congrArg _ hListed),
            fun _ => id, chunks.property, fun hForce c _ hNew => hEmpty hForce c.id hNew, hFilled,
            fun _ hc => .inl hc⟩
        refine Prog.Meets.bind (generateChunks_leads 0 {} hLoop) ?_
        rintro (_ | tally) d ⟨hSavedD, hDone⟩
        · exact ⟨hSavedD, .inl hDone⟩
        · exact concludeGeneration_leads hLabel hWhole tally hSavedD hDone

end Rounds

section Pipeline

variable {s : AiSvc} {taskId lessonId : UUID} {a : PipelineAttempt} {env : TaskEnv}

theorem generateStage_leads (input : TaskInput) (done : PipelineStage) (hSaved : a.HasChunks) :
    Leads s taskId lessonId (generateStage s env lessonId input done)
      (fun _ a => a.Generated) a := by
  unfold generateStage
  refine leads_ignore_bind (resumes_query hSaved.running nofun trivial) fun _ => ?_
  exact Prog.Meets.tryCatch (generationRun_leads rfl rfl hSaved) _

theorem pipelineStages_leads (input : TaskInput) {done : PipelineStage} (hRunning : a.ended = false)
    (hStage : a.stage = done.number) (hChunked : a.chunked = decide (2 ≤ done.number)) :
    Leads s env.taskID lessonId (pipelineStages s env lessonId input done)
      (fun _ a => a.Generated) a := by
  have hGenerate : ∀ a : PipelineAttempt, a.HasChunks →
      Leads s env.taskID lessonId (generateStage s env lessonId input done)
        (fun _ a => a.Generated) a := fun a => generateStage_leads input done
  have hChunk : ∀ a : PipelineAttempt, a.Below 2 →
      Leads s env.taskID lessonId (do chunkStage s env lessonId
                                      generateStage s env lessonId input done)
        (fun _ a => a.Generated) a := fun a ha =>
    Prog.Meets.bind (chunkStage_leads ha) (fun _ a => hGenerate a)
  unfold pipelineStages
  cases done with
  | unspecified =>
    have hStart : a.Below 1 := ⟨hRunning, hChunked, hStage ▸ by decide⟩
    exact Prog.Meets.bind (transcribeStage_leads hStart) (fun _ a => hChunk a)
  | transcribed => exact hChunk a ⟨hRunning, hChunked, hStage ▸ by decide⟩
  | chunked => exact hGenerate a ⟨hRunning, hChunked, hStage ▸ by decide⟩
  | generated => exact hGenerate a ⟨hRunning, hChunked, hStage ▸ by decide⟩

theorem pipelineRunExecute_leads {workerID : UUID} {t : Task}
    (hLesson : taskLesson s t.taskType t.inputPayload = .ok lessonId) :
    Leads s t.id lessonId (pipelineRunExecute s (taskEnv workerID t))
      (fun output a => a.Generated ∧ outputStage s (some output) = 3)
      (PipelineAttempt.claim s t) := by
  have hWork : Leads s t.id lessonId (pipelineRunWork s (taskEnv workerID t))
      (fun _ a => a.Generated) (PipelineAttempt.claim s t) := by
    unfold taskLesson at hLesson
    unfold pipelineRunWork
    show Leads s t.id lessonId (do
      let input ← orThrow (taskInput s t.taskType t.inputPayload)
      let lessonID ← orThrow (parseUUID input.lessonId)
      pipelineStages s (taskEnv workerID t) lessonID input (doneStage s t.outputPayload)) _ _
    cases hInput : taskInput s t.taskType t.inputPayload with
    | error e =>
      rw [hInput] at hLesson
      cases hLesson
    | ok input =>
      rw [hInput] at hLesson
      replace hLesson : parseUUID input.lessonId = .ok lessonId := hLesson
      have hStages : Leads s t.id lessonId (pipelineStages s (taskEnv workerID t) lessonId input
          (doneStage s t.outputPayload)) (fun _ a => a.Generated) (PipelineAttempt.claim s t) :=
        @pipelineStages_leads s lessonId (PipelineAttempt.claim s t) (taskEnv workerID t) input _
          rfl rfl rfl
      show Leads s t.id lessonId (orThrow (parseUUID input.lessonId) >>= _) _ _
      rw [hLesson]
      exact hStages
  unfold pipelineRunExecute stamped
  refine Prog.Meets.bind hWork ?_
  intro _ a hGenerated
  refine leads_perform_bind ⟨hGenerated.saved.running, nofun, nofun⟩ fun now => ?_
  exact ⟨hGenerated, outputStage_marshalOutput s _⟩

end Pipeline

/-! What the parties do, seen through what their operations tell. -/

def Op.claims : Op → Bool
  | .pg (.claimNextInqueuedTask ..) => true
  | _ => false

/-- A claim is the first operation of its party, and one that has claimed a `pipeline_run` works as
an attempt at it. -/
structure Acts (s : AiSvc) (a : PipelineAttempt) (o : Op) : Prop where
  claims : o.claims = true → a = {}
  resumes : ∀ t, a.task = some t → t.taskType = "pipeline_run" → ∀ lessonId,
    taskLesson s t.taskType t.inputPayload = .ok lessonId → a.Resumes s t.id lessonId o

abbrev Steps (s : AiSvc) (o : Op) (a : PipelineAttempt) (r : o.Resp) (a' : PipelineAttempt) :
    Prop :=
  a' = a.after s ⟨o, r⟩

section Parties

variable {s : AiSvc} {a : PipelineAttempt} {o : Op}

theorem after_task (ho : o.claims = false) (r : o.Resp) : (a.after s ⟨o, r⟩).task = a.task := by
  cases o with
  | pg q =>
    cases q with
    | claimNextInqueuedTask => cases ho
    | saveChunks | listLessonTranscriptChunks | listLessonInteractions
    | saveInteractionsForChunk => cases r <;> rfl
    | _ => rfl
  | fetchChunkTranscript chunkId =>
    rw [after_fetchChunkTranscript]
    split <;> rfl
  | generateForChunk =>
    rcases r with e | _ | ⟨item, items⟩ <;> rfl
  | ctxErr => cases r <;> rfl
  | _ => rfl

theorem claims_eq_false (h : (∃ id, o.forTask id) ∨ o.byRequest ∨ o.byEditor) :
    o.claims = false := by
  cases o with
  | pg q => cases q <;> first | rfl | simp [Op.forTask, Op.windsUp, Op.working, Op.transcribing,
      Op.chunking, Op.generating, Query.transcribing, Query.chunking, Query.generating,
      Op.byRequest, Query.byRequest, Op.byEditor, Query.byEditor] at h
  | _ => rfl

theorem finishTask_leads {workerID lessonId : UUID} {t : Task} {result : Except Fail Bytes}
    (h : match result with
      | .error _ => a.ended = false
      | .ok output => a.Generated ∧ outputStage s (some output) = 3) :
    (finishTask workerID t result).Ensures (Steps s) (PipelineAttempt.Resumes s t.id lessonId)
      (fun _ _ => True) a := by
  unfold finishTask
  cases result with
  | error e =>
    dsimp only
    split
    · trivial
    · exact ⟨resumes_query h nofun rfl, fun _ _ _ => trivial⟩
  | ok output =>
    obtain ⟨⟨hSaved, hCovers⟩, hStage⟩ := h
    refine ⟨resumes_query hSaved.running nofun ⟨rfl, ?_, hSaved.chunked, hCovers⟩,
      fun _ _ _ => trivial⟩
    rw [hStage]
    exact hSaved.stage

/-- The run of a `pipeline_run` task from its claim on. -/
theorem runTask_leads {workerID lessonId : UUID} {t : Task} (hType : t.taskType = "pipeline_run")
    (hLesson : taskLesson s t.taskType t.inputPayload = .ok lessonId) :
    (runTask s workerID t).Ensures (Steps s) (PipelineAttempt.Resumes s t.id lessonId)
      (fun _ _ => True) (PipelineAttempt.claim s t) := by
  have hLookup : lookup s (taskEnv workerID t) =
      some (pipelineRunExecute s (taskEnv workerID t)) := by
    unfold lookup
    rw [show (taskEnv workerID t).taskType = "pipeline_run" from hType]
    rfl
  unfold runTask
  rw [hLookup]
  refine (Prog.ensures_bind _).mpr (Prog.Ensures.mono (pipelineRunExecute_leads hLesson)
    (fun _ _ => id) ?_)
  rintro (e | output) a h
  · exact finishTask_leads h
  · exact finishTask_leads h

theorem runTask_acts (workerID : UUID) (t : Task) :
    (runTask s workerID t).Ensures (Steps s) (Acts s) (fun _ _ => True)
      (PipelineAttempt.claim s t) := by
  have hTask : (runTask s workerID t).Ensures (Steps s)
      (fun a o => a.task = some t ∧ o.claims = false) (fun _ a => a.task = some t)
      (PipelineAttempt.claim s t) := by
    refine Prog.Performs.ensures (runTask_performs workerID t)
      (I := fun a : PipelineAttempt => a.task = some t) ?_ ?_ rfl
    · exact fun a o ho hTask => ⟨hTask, claims_eq_false (.inl ⟨_, ho⟩)⟩
    · rintro o a r a' ho hTask rfl
      rw [after_task (claims_eq_false (.inl ⟨_, ho⟩)), hTask]
  by_cases h : t.taskType = "pipeline_run" ∧
      ∃ lessonId, taskLesson s t.taskType t.inputPayload = .ok lessonId
  · obtain ⟨hType, lessonId, hLesson⟩ := h
    have hLeads : (runTask s workerID t).Ensures (Steps s)
        (PipelineAttempt.Resumes s t.id lessonId) (fun _ _ => True) (PipelineAttempt.claim s t) :=
      runTask_leads hType hLesson
    refine (hTask.and hLeads).mono ?_ fun _ _ _ => trivial
    rintro a o ⟨⟨hClaimed, hClaims⟩, hResumes⟩
    refine ⟨fun hNot => by simp [hClaims] at hNot, fun t' ht' _ lessonId' hLesson' => ?_⟩
    rw [hClaimed] at ht'
    cases ht'
    rw [hLesson] at hLesson'
    cases hLesson'
    exact hResumes
  · refine hTask.mono ?_ fun _ _ _ => trivial
    rintro a o ⟨hClaimed, hClaims⟩
    refine ⟨fun hNot => by simp [hClaims] at hNot, fun t' ht' hType lessonId hLesson => ?_⟩
    rw [hClaimed] at ht'
    cases ht'
    exact absurd ⟨hType, lessonId, hLesson⟩ h

/-- A party that never claims acts as required. -/
theorem acts_of_performs {p : Prog Op Op.Resp Reply} (hp : p.Performs fun o => o.claims = false) :
    p.Ensures (Steps s) (Acts s) (fun _ _ => True) {} := by
  refine (Prog.Performs.ensures hp (I := fun a : PipelineAttempt => a.task = none) ?_ ?_ rfl).mono
    (fun _ _ => id) fun _ _ _ => trivial
  · intro a o ho hTask
    refine ⟨fun hNot => by simp [ho] at hNot, fun t ht => ?_⟩
    rw [hTask] at ht
    cases ht
  · rintro o a r a' ho hTask rfl
    rw [after_task ho, hTask]

theorem Party.acts (s : AiSvc) (party : Party) :
    (party.program s).Along (fun h o => Acts s (attempt s h) o) (fun _ _ => True) [] := by
  have hActs : (party.program s).Ensures (Steps s) (Acts s) (fun _ _ => True) {} := by
    obtain ⟨workerId, allowedTypes, rfl⟩ | hRequest | ⟨_, hEdits⟩ := party.performs s
    · have hClaim : (claimAndRun s workerId allowedTypes).Ensures (Steps s) (Acts s)
          (fun _ _ => True) {} := by
        refine ⟨⟨fun _ => rfl, fun t ht => by cases ht⟩, ?_⟩
        rintro (e | t) a' rfl
        · trivial
        · exact runTask_acts workerId t
      exact (Prog.ensures_bind _).mpr (hClaim.mono (fun _ _ => id) fun _ _ _ => trivial)
    · have hClaims : (party.program s).Performs fun o => o.claims = false :=
        hRequest.mono fun o ho => claims_eq_false (.inr (.inl ho))
      exact acts_of_performs hClaims
    · have hClaims : (party.program s).Performs fun o => o.claims = false :=
        hEdits.mono fun o ho => claims_eq_false (.inr (.inr ho))
      exact acts_of_performs hClaims
  exact Prog.Ensures.along (h := []) hActs

end Parties

end Richter.Lessons
