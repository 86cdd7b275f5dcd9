import Richter.Lessons.Accept
import Richter.Lessons.Remains

/-! What a successful `RunExtract` leaves of a lesson: its accesses to FoundationDB and the
deletions in Postgres may all fail without an error, and then the old transcript, an old chunk or an
old interaction is still there. -/

namespace Richter.Lessons

open Lib

/-- What the speech recognition has answered in a run. -/
def produced (h : History) : Option (String × List Segment) :=
  h.findSome? fun
    | ⟨.transcription .., .ok out⟩ => some out
    | _ => none

/-- `LoadTranscript` and `LoadSegments` read the transcript and its segments, whenever they can
read. -/
def Loads (lessonID : UUID) (transcriptText : String) (segs : List Segment) (s : Store) : Prop :=
  ∀ i w, w.kvFails = false →
    (exec i w (.loadTranscript lessonID) s).map Prod.fst = some (trimSpace transcriptText) ∧
      (exec i w (.loadSegments lessonID) s).map Prod.fst = some segs

/-- What a transcription that succeeds is taken to mean. -/
structure Extracted (lessonID : UUID) (transcriptText : String) (segs : List Segment)
    (s : Store) : Prop where
  loads : Loads lessonID transcriptText segs s
  chunks : chunksOf lessonID s.content = []
  interactions : ¬HasInteractions lessonID s.content

/-- The old record that the clean-up leaves. -/
def leftTranscript (s : Store) (ws : List Env) (h : History) (lessonID : UUID) : Option String :=
  if kvDone ws h (.deleteTranscript lessonID) then none else s.transcripts lessonID

def leftSegments (s : Store) (ws : List Env) (h : History) (lessonID : UUID) :
    Option (List Segment) :=
  if kvDone ws h (.deleteSegments lessonID) then none else s.segments lessonID

/-- The two writes have taken effect, or what they would have replaced reads the same; both
deletions have been executed, or there was nothing to delete. -/
structure Persisted (s : Store) (ws : List Env) (h : History) (lessonID : UUID)
    (transcriptText : String) (segs : List Segment) : Prop where
  transcript : kvDone ws h (.saveTranscript lessonID transcriptText) = true ∨
    trimSpace ((leftTranscript s ws h lessonID).getD "") = trimSpace transcriptText
  segments : kvDone ws h (.saveSegments lessonID segs) = true ∨
    (leftSegments s ws h lessonID).getD [] = segs
  chunks : pgDone h (.deleteLessonTranscriptChunks lessonID) = true ∨
    chunksOf lessonID s.content = []
  interactions : pgDone h (.deleteLessonInteractionsByLesson lessonID) = true ∨
    ¬HasInteractions lessonID s.content

theorem loads_iff {lessonID : UUID} {transcriptText : String} {segs : List Segment} {s : Store} :
    Loads lessonID transcriptText segs s ↔
      trimSpace ((s.transcripts lessonID).getD "") = trimSpace transcriptText ∧
        (s.segments lessonID).getD [] = segs := by
  constructor
  · intro h
    have hNow := h 0 {} rfl
    exact ⟨Option.some.inj hNow.1, Option.some.inj hNow.2⟩
  · intro h i w hReads
    simp [exec, readKv, hReads, Store.touch, h.1, h.2]

section Steps

variable {ws : List Env} {w : Env} {i : Nat} {s t t' : Store} {h : History} {lessonID : UUID}
  {transcriptText : String} {segs : List Segment}

theorem produced_concat (h : History) (e : Prog.Event Op Op.Resp) :
    produced (h ++ [e]) = (produced h <|> produced [e]) := by
  unfold produced
  rw [List.findSome?_append]
  cases h.findSome? _ <;> rfl

/-- An operation of the run that is neither the transcription nor one of the two writes. -/
def Op.prepares (o : Op) : Bool :=
  o.removes && match o with
    | .transcription .. => false
    | _ => true

theorem produced_of_prepares {o : Op} (ho : o.prepares = true) (r : o.Resp) :
    produced [⟨o, r⟩] = none := by
  cases o with
  | transcription => cases ho
  | _ => rfl

/-- Before the two writes. -/
structure Unsaved (s : Store) (ws : List Env) (lessonID : UUID)
    (out : Option (String × List Segment)) (x : Store × History) : Prop where
  remains : Remains s ws lessonID x
  noTranscript : ∀ text, kvDone ws x.2 (.saveTranscript lessonID text) = false
  noSegments : ∀ segs, kvDone ws x.2 (.saveSegments lessonID segs) = false
  produced : produced x.2 = out

theorem Unsaved.start (s : Store) (ws : List Env) (lessonID : UUID) :
    Unsaved s ws lessonID none (s, []) :=
  ⟨.start s ws lessonID, fun _ => rfl, fun _ => rfl, rfl⟩

theorem Unsaved.step {out : Option (String × List Segment)} {o : Op} {r : o.Resp}
    {x y : Store × History} (hU : Unsaved s ws lessonID out x) (ho : o.removes = true)
    (hStep : Prog.Logged (exec i) ws o x r y) :
    Unsaved s ws lessonID (out <|> Lessons.produced [⟨o, r⟩]) y := by
  have hRemains := hU.remains.step ho hStep
  obtain ⟨⟨w, hw, _⟩, hEvents⟩ := hStep
  have hOther : ∀ o', o'.removes = false → kvDone ws x.2 o' = false → kvDone ws y.2 o' = false := by
    intro o' ho' hNot
    have hNe : o ≠ o' := fun hEq => by simp [← hEq, ho] at ho'
    rw [hEvents, kvDone_concat hw, hNot]
    simp [hNe]
  refine ⟨hRemains, fun text => hOther _ rfl (hU.noTranscript text),
    fun segs => hOther _ rfl (hU.noSegments segs), ?_⟩
  rw [hEvents, produced_concat, hU.produced]

theorem Unsaved.prepares {out : Option (String × List Segment)} {o : Op} {r : o.Resp}
    {x y : Store × History} (hU : Unsaved s ws lessonID out x) (ho : o.prepares = true)
    (hStep : Prog.Logged (exec i) ws o x r y) : Unsaved s ws lessonID out y := by
  have hNext := hU.step (Bool.and_eq_true_iff.mp ho).1 hStep
  rw [produced_of_prepares ho] at hNext
  cases out <;> exact hNext

/-- From the transcription on, when what may still follow are the two writes and the release. -/
structure Saved (s : Store) (ws : List Env) (lessonID : UUID) (transcriptText : String)
    (segs : List Segment) (x : Store × History) : Prop where
  transcript : x.1.transcripts lessonID =
    if kvDone ws x.2 (.saveTranscript lessonID transcriptText) then some transcriptText
    else leftTranscript s ws x.2 lessonID
  segments : x.1.segments lessonID =
    if kvDone ws x.2 (.saveSegments lessonID segs) then some segs
    else leftSegments s ws x.2 lessonID
  chunks : chunksOf lessonID x.1.content =
    if pgDone x.2 (.deleteLessonTranscriptChunks lessonID) then []
    else chunksOf lessonID s.content
  interactions : HasInteractions lessonID x.1.content ↔
    pgDone x.2 (.deleteLessonInteractionsByLesson lessonID) = false ∧
      HasInteractions lessonID s.content
  produced : produced x.2 = some (transcriptText, segs)

theorem Unsaved.saved {x : Store × History}
    (hU : Unsaved s ws lessonID (some (transcriptText, segs)) x) :
    Saved s ws lessonID transcriptText segs x := by
  refine ⟨?_, ?_, hU.remains.chunks, hU.remains.interactions, hU.produced⟩
  · rw [hU.noTranscript]
    exact hU.remains.transcript
  · rw [hU.noSegments]
    exact hU.remains.segments

/-- The writes and the release, of which nothing that was done is lost. -/
theorem Saved.step {o : Op} {r : o.Resp} {x y : Store × History}
    (hS : Saved s ws lessonID transcriptText segs x)
    (ho : o = .saveTranscript lessonID transcriptText ∨ o = .saveSegments lessonID segs ∨
      ∃ workerID, o = .release workerID lessonID)
    (hStep : Prog.Logged (exec i) ws o x r y) : Saved s ws lessonID transcriptText segs y := by
  obtain ⟨u, h⟩ := x
  obtain ⟨u', h'⟩ := y
  obtain ⟨⟨w, hw, hExec⟩, hEvents⟩ := hStep
  obtain rfl : h' = h ++ [⟨o, r⟩] := hEvents
  have hPg : ∀ q, pgDone (h ++ [⟨o, r⟩]) q = pgDone h q := by
    intro q
    rw [pgDone_concat]
    obtain rfl | rfl | ⟨_, rfl⟩ := ho <;> exact Bool.or_false _
  have hProduced : Lessons.produced (h ++ [⟨o, r⟩]) = some (transcriptText, segs) := by
    rw [produced_concat, hS.produced]
    rfl
  have hLeft : leftTranscript s ws (h ++ [⟨o, r⟩]) lessonID = leftTranscript s ws h lessonID ∧
      leftSegments s ws (h ++ [⟨o, r⟩]) lessonID = leftSegments s ws h lessonID := by
    unfold leftTranscript leftSegments
    rw [kvDone_concat hw, kvDone_concat hw]
    obtain rfl | rfl | ⟨_, rfl⟩ := ho <;> simp
  obtain ⟨hContent, hTranscript, hSegments⟩ : u'.content = u.content ∧
      (u'.transcripts lessonID =
        if o = .saveTranscript lessonID transcriptText && !w.kvFails then some transcriptText
        else u.transcripts lessonID) ∧
      u'.segments lessonID =
        if o = .saveSegments lessonID segs && !w.kvFails then some segs
        else u.segments lessonID := by
    obtain rfl | rfl | ⟨_, rfl⟩ := ho <;> cases hExec
    · by_cases hKv : w.kvFails = true <;> simp [writeKv, hKv, Store.touch]
    · by_cases hKv : w.kvFails = true <;> simp [writeKv, hKv, Store.touch]
    · simp [Store.touch]
  refine ⟨?_, ?_, ?_, ?_, hProduced⟩
  · rw [hLeft.1, kvDone_concat hw, hTranscript, hS.transcript]
    by_cases hThis : (o = .saveTranscript lessonID transcriptText && !w.kvFails) = true <;>
      simp [hThis]
  · rw [hLeft.2, kvDone_concat hw, hSegments, hS.segments]
    by_cases hThis : (o = .saveSegments lessonID segs && !w.kvFails) = true <;> simp [hThis]
  · rw [hPg, hContent]
    exact hS.chunks
  · rw [hPg, hContent]
    exact hS.interactions

/-- What the lesson holds in the end is what the transcription means exactly when it was
persisted. -/
theorem Saved.extracted_iff {s' : Store}
    (hS : Saved s ws lessonID transcriptText segs (s', h)) :
    Extracted lessonID transcriptText segs s' ↔
      Persisted s ws h lessonID transcriptText segs := by
  have hTranscript : trimSpace ((s'.transcripts lessonID).getD "") = trimSpace transcriptText ↔
      kvDone ws h (.saveTranscript lessonID transcriptText) = true ∨
        trimSpace ((leftTranscript s ws h lessonID).getD "") = trimSpace transcriptText := by
    rw [hS.transcript]
    by_cases hDone : kvDone ws h (.saveTranscript lessonID transcriptText) = true <;> simp [hDone]
  have hSegments : (s'.segments lessonID).getD [] = segs ↔
      kvDone ws h (.saveSegments lessonID segs) = true ∨
        (leftSegments s ws h lessonID).getD [] = segs := by
    rw [hS.segments]
    by_cases hDone : kvDone ws h (.saveSegments lessonID segs) = true <;> simp [hDone]
  have hChunks : chunksOf lessonID s'.content = [] ↔
      pgDone h (.deleteLessonTranscriptChunks lessonID) = true ∨
        chunksOf lessonID s.content = [] := by
    rw [hS.chunks]
    by_cases hDone : pgDone h (.deleteLessonTranscriptChunks lessonID) = true <;> simp [hDone]
  have hInteractions : ¬HasInteractions lessonID s'.content ↔
      pgDone h (.deleteLessonInteractionsByLesson lessonID) = true ∨
        ¬HasInteractions lessonID s.content := by
    rw [hS.interactions, not_and_or, Bool.not_eq_false]
  constructor
  · intro hE
    obtain ⟨hText, hSegs⟩ := loads_iff.mp hE.loads
    exact ⟨hTranscript.mp hText, hSegments.mp hSegs, hChunks.mp hE.chunks,
      hInteractions.mp hE.interactions⟩
  · intro hP
    exact ⟨loads_iff.mpr ⟨hTranscript.mpr hP.transcript, hSegments.mpr hP.segments⟩,
      hChunks.mpr hP.chunks, hInteractions.mpr hP.interactions⟩

end Steps

section Runs

variable {ws : List Env} {i : Nat} {s : Store} {lessonID : UUID} {x : Store × History}
  {α : Type}

theorem leaves_prepares {e : Exec α} {out : Option (String × List Segment)}
    (he : Performs (fun o => o.prepares = true) e) (hU : Unsaved s ws lessonID out x) :
    Leaves i ws e (fun _ => Unsaved s ws lessonID out) x :=
  (he.meets (fun _ _ _ _ => trivial) (fun _ _ _ _ ho hU hStep => hU.prepares ho hStep) hU).mono
    (fun _ _ => id) fun _ _ => trivial

theorem clearStale_prepares (cfg : AiCfg) (lessonID : UUID) :
    Performs (fun o => o.prepares = true) (clearStale cfg lessonID) :=
  clearStale_performs_of cfg lessonID rfl rfl rfl rfl rfl fun _ => rfl

theorem leaves_ignore {o : Op} {transcriptText : String} {segs : List Segment}
    (hS : Saved s ws lessonID transcriptText segs x)
    (ho : o = .saveTranscript lessonID transcriptText ∨ o = .saveSegments lessonID segs ∨
      ∃ workerID, o = .release workerID lessonID) :
    Leaves i ws (ignore o) (fun _ => Saved s ws lessonID transcriptText segs) x :=
  (performs_ignore (A := fun o' => o' = o) rfl).meets (fun _ _ _ _ => trivial)
    (fun _ _ _ _ hEq hS hStep => hS.step (hEq ▸ ho) hStep) hS |>.mono (fun _ _ => id)
    fun _ _ => trivial

theorem leaves_saveTranscription {transcriptText : String} {segs : List Segment}
    (hS : Saved s ws lessonID transcriptText segs x) :
    Leaves i ws (saveTranscription lessonID transcriptText segs)
      (fun _ => Saved s ws lessonID transcriptText segs) x := by
  have hSegments : ∀ y, Saved s ws lessonID transcriptText segs y →
      Leaves i ws (if segs ≠ [] then ignore (.saveSegments lessonID segs) else pure () : Exec Unit)
        (fun _ => Saved s ws lessonID transcriptText segs) y := by
    intro y hS
    split
    · exact leaves_ignore hS (.inr (.inl rfl))
    · exact hS
  unfold saveTranscription
  dsimp only
  split
  · refine (leaves_ignore hS (.inl rfl)).bind ?_
    exact fun _ y => hSegments y
  · exact hSegments x hS

theorem leaves_extract (cfg : AiCfg) (env : TaskEnv) (videoKey audioLang : String)
    (hU : Unsaved s ws lessonID none x) :
    Leaves i ws (extract cfg env lessonID videoKey audioLang)
      (fun _ y => ∃ transcriptText segs, Saved s ws lessonID transcriptText segs y) x := by
  unfold extract
  refine (leaves_prepares (clearStale_prepares cfg lessonID) hU).bind ?_
  intro _ y hCleared
  refine (Prog.meets_perform_bind _).mpr ⟨trivial, ?_⟩
  intro r z hStep
  cases r with
  | error e => exact trivial
  | ok out =>
    obtain ⟨transcriptText, segs⟩ := out
    have hHeard : Unsaved s ws lessonID (some (transcriptText, segs)) z := hCleared.step rfl hStep
    dsimp only
    split
    · exact trivial
    · refine (leaves_prepares (performs_ignore rfl) hHeard).bind ?_
      intro _ z' hReported
      exact (leaves_saveTranscription hReported.saved).mono (fun _ _ hS => ⟨_, _, hS⟩) fun _ => id

theorem leaves_runExtract (cfg : AiCfg) (env : TaskEnv) (videoKey audioLang : String)
    (hU : Unsaved s ws lessonID none x) :
    Leaves i ws (runExtract cfg env lessonID videoKey audioLang)
      (fun _ y => ∃ transcriptText segs, Saved s ws lessonID transcriptText segs y) x := by
  unfold runExtract
  refine (Prog.meets_perform_bind _).mpr ⟨trivial, ?_⟩
  intro acquired y hStep
  have hBegun : Unsaved s ws lessonID none y := hU.prepares rfl hStep
  cases acquired with
  | false => exact trivial
  | true =>
    refine (Prog.meets_bind _).mpr (Prog.meets_lift.mpr ?_)
    refine Prog.Ensures.mono (leaves_extract cfg env videoKey audioLang hBegun)
      (fun _ _ => id) ?_
    intro result z hResult
    refine (Prog.meets_bind _).mpr ?_
    cases result with
    | error e => exact ⟨trivial, fun _ _ _ => trivial⟩
    | ok _ =>
      obtain ⟨transcriptText, segs, hS⟩ := hResult
      refine (leaves_ignore hS (.inr (.inr ⟨env.workerID, rfl⟩))).mono ?_ fun _ => id
      exact fun _ _ hReleased => ⟨transcriptText, segs, hReleased⟩

/-- A transcription that succeeds has produced a transcript, and the lesson holds it, without any
old chunk or interaction, exactly when the writes and the deletions that matter took effect. -/
theorem runExtract_extracted_iff {cfg : AiCfg} {env : TaskEnv} {videoKey audioLang : String}
    {s' : Store} {h : History}
    (hRun : (runExtract cfg env lessonID videoKey audioLang).run.log (exec i) ws s =
      some (.ok (), s', h)) :
    ∃ transcriptText segs, produced h = some (transcriptText, segs) ∧
      (Extracted lessonID transcriptText segs s' ↔
        Persisted s ws h lessonID transcriptText segs) := by
  have hLeaves : Leaves i ws (runExtract cfg env lessonID videoKey audioLang) _ (s, []) :=
    leaves_runExtract cfg env videoKey audioLang (.start s ws lessonID)
  obtain ⟨transcriptText, segs, hSaved⟩ := Prog.Ensures.of_log [] hLeaves rfl hRun
  exact ⟨transcriptText, segs, hSaved.produced, hSaved.extracted_iff⟩

end Runs

/-- The settings of the transcription of a short video. -/
def greeting : Env := { transcribed := .ok ("Xin chào", [⟨0, 2, "Xin chào"⟩]) }

def demoTask : TaskEnv := ⟨100, "transcribe", 7, none, none, ""⟩

/-- The lesson with a chunk is transcribed, and all is well but perhaps the write of the
transcript. -/
def greetingEnvs (saveFails : Bool) : List Env :=
  List.replicate 7 calm ++ [greeting, calm, { kvFails := saveFails }, calm, calm]

theorem runExtract_extracted_iff_lecture : ∃ s' h,
    (runExtract demoSvc.toAiCfg demoTask 10 "lessons/10/video.mp4" "vi").run.log (exec 0)
      (greetingEnvs false) lecture = some (.ok (), s', h) ∧
    ∃ transcriptText segs, produced h = some (transcriptText, segs) ∧
      (Extracted 10 transcriptText segs s' ↔
        Persisted lecture (greetingEnvs false) h 10 transcriptText segs) := by
  have hRun : ((runExtract demoSvc.toAiCfg demoTask 10 "lessons/10/video.mp4" "vi").run.log (exec 0)
      (greetingEnvs false) lecture).any (fun (r, _, _) => r.isOk) = true := by
    decide +kernel
  obtain ⟨⟨r, s', h⟩, hLog, hEnd⟩ := (Option.any_eq_true _ _).mp hRun
  cases r with
  | error e => cases hEnd
  | ok _ => exact ⟨s', h, hLog, runExtract_extracted_iff hLog⟩

/-- The write of the transcript fails, and the task still succeeds. -/
theorem saveFails_without_transcript : ∃ s' h,
    (runExtract demoSvc.toAiCfg demoTask 10 "lessons/10/video.mp4" "vi").run.log (exec 0)
      (greetingEnvs true) lecture = some (.ok (), s', h) ∧
    produced h = some ("Xin chào", [⟨0, 2, "Xin chào"⟩]) ∧ s'.transcripts 10 = none ∧
    ¬Extracted 10 "Xin chào" [⟨0, 2, "Xin chào"⟩] s' := by
  have hRun : ((runExtract demoSvc.toAiCfg demoTask 10 "lessons/10/video.mp4" "vi").run.log (exec 0)
      (greetingEnvs true) lecture).any (fun (r, s', h) => r.isOk &&
        decide (produced h = some ("Xin chào", [⟨0, 2, "Xin chào"⟩])) &&
        decide (s'.transcripts 10 = none)) = true := by
    decide +kernel
  obtain ⟨⟨r, s', h⟩, hLog, hEnd⟩ := (Option.any_eq_true _ _).mp hRun
  simp only [Bool.and_eq_true, decide_eq_true_eq] at hEnd
  obtain ⟨⟨hOk, hProduced⟩, hNone⟩ := hEnd
  cases r with
  | error e => cases hOk
  | ok _ =>
    refine ⟨s', h, hLog, hProduced, hNone, fun hExtracted => ?_⟩
    have hText := (loads_iff.mp hExtracted.loads).1
    rw [hNone] at hText
    revert hText
    decide +kernel

end Richter.Lessons
