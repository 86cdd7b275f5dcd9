import Richter.Lessons.Accept
import Richter.Lessons.Remains

/-! What a `ResetLessonContent` that succeeds leaves of a lesson after one that was cut off.  The
removals from the object store, which are best effort, touch nothing of it. -/

namespace Richter.Lessons

open Lib
open Handler (orConnectDBError require)

/-- The chunks whose records a call deletes when it finds the tables so. -/
def resetChunkIDs (lessonID : UUID) (c : Content) : List UUID :=
  (listLessonTranscriptChunks lessonID resetChunkListLimit c).val.map (·.id)

/-- The lesson as before its first video; `ever` are the ids that its chunks have had. -/
structure Blank (lessonID : UUID) (ever : Set UUID) (s : Store) : Prop where
  video : ∀ lesson, s.lessons.find lessonID = some lesson → lesson.videoStorageKey = none
  chunks : chunksOf lessonID s.content = []
  interactions : ¬HasInteractions lessonID s.content
  attempts : ∀ a ∈ s.attempts, a.lessonId ≠ lessonID
  analyses : lessonID ∉ s.analyses
  tasks : ∀ t ∈ s.tasks.rows, t.lessonId ≠ lessonID
  transcript : s.transcripts lessonID = none
  segments : s.segments lessonID = none
  chunkTranscripts : ∀ id ∈ ever, s.chunkTranscripts id = none

/-- Every record was absent or one of the two calls has deleted it; the later call deletes only
those of chunks that the first one has left, and it finds as many as it lists. -/
structure Swept (s : Store) (ws₁ : List Env) (h₁ : History) (ws₂ : List Env) (h₂ : History)
    (lessonID : UUID) (ever : Set UUID) : Prop where
  transcript : s.transcripts lessonID = none ∨ kvDone ws₁ h₁ (.deleteTranscript lessonID) = true ∨
    kvDone ws₂ h₂ (.deleteTranscript lessonID) = true
  segments : s.segments lessonID = none ∨ kvDone ws₁ h₁ (.deleteSegments lessonID) = true ∨
    kvDone ws₂ h₂ (.deleteSegments lessonID) = true
  chunkTranscripts : ∀ id ∈ ever, s.chunkTranscripts id = none ∨
    kvDone ws₁ h₁ (.deleteChunkTranscript id) = true ∨
    (pgDone h₁ (.deleteLessonTranscriptChunks lessonID) = false ∧
      id ∈ resetChunkIDs lessonID s.content ∧
      kvDone ws₂ h₂ (.deleteChunkTranscript id) = true)

theorem resetChunkIDs_congr {lessonID : UUID} {c c' : Content}
    (h : chunksOf lessonID c = chunksOf lessonID c') :
    resetChunkIDs lessonID c = resetChunkIDs lessonID c' := by
  unfold chunksOf at h
  simp only [resetChunkIDs, listLessonTranscriptChunks, h]

theorem resetChunkIDs_nil {lessonID : UUID} {c : Content} (h : chunksOf lessonID c = []) :
    resetChunkIDs lessonID c = [] := by
  unfold chunksOf at h
  simp [resetChunkIDs, listLessonTranscriptChunks, h]

/-- The statements of a call that has got to FoundationDB. -/
def resetQueries (lessonID : UUID) : List Query :=
  [.updateLessonVideo lessonID none none, .deleteTasksForLesson lessonID,
    .deleteLessonAnalysis lessonID, .deleteLessonAttempts lessonID,
    .deleteLessonTranscriptChunks lessonID, .deleteLessonInteractionsByLesson lessonID]

section Calls

variable {ws : List Env} {i : Nat} {s : Store} {lessonID : UUID} {done : List Query}
  {x y : Store × History}

/-- A call that has executed the statements `done`, and deletes records of chunks that it has
listed. -/
structure Resetting (s : Store) (ws : List Env) (lessonID : UUID) (done : List Query)
    (x : Store × History) : Prop where
  remains : Remains s ws lessonID x
  done : ∀ q ∈ done, pgDone x.2 q = true
  records : ∀ id, kvDone ws x.2 (.deleteChunkTranscript id) = true →
    id ∈ resetChunkIDs lessonID s.content

theorem Resetting.start (s : Store) (ws : List Env) (lessonID : UUID) :
    Resetting s ws lessonID [] (s, []) :=
  ⟨.start s ws lessonID, nofun, nofun⟩

/-- What a call may perform. -/
def Sweeps (lessonID : UUID) (c : Content) (o : Op) : Prop :=
  o.removes = true ∧ ∀ id, o = .deleteChunkTranscript id → id ∈ resetChunkIDs lessonID c

theorem Resetting.step {o : Op} {r : o.Resp} (hR : Resetting s ws lessonID done x)
    (ho : Sweeps lessonID s.content o) (hStep : Prog.Logged (exec i) ws o x r y) :
    Resetting s ws lessonID done y := by
  have hRemains := hR.remains.step ho.1 hStep
  obtain ⟨⟨w, hw, _⟩, hEvents⟩ := hStep
  refine ⟨hRemains, fun q hq => ?_, fun id hDone => ?_⟩
  · rw [hEvents, pgDone_concat, hR.done q hq, Bool.true_or]
  · rw [hEvents, kvDone_concat hw, Bool.or_eq_true] at hDone
    rcases hDone with hOld | hNew
    · exact hR.records id hOld
    · exact ho.2 id (of_decide_eq_true (Bool.and_eq_true_iff.mp hNew).1)

/-- A statement that does not fail is done. -/
theorem leaves_statement {q : Query} (hq : (Op.pg q).removes = true)
    (hR : Resetting s ws lessonID done x) :
    Leaves i ws (orConnectDBError q) (fun a y => Resetting s ws lessonID (q :: done) y ∧
      y.2 = x.2 ++ [⟨.pg q, .ok a⟩] ∧ ∃ w, exec i w (.pg q) x.1 = some (.ok a, y.1)) x := by
  refine (Prog.meets_perform_bind _).mpr ⟨trivial, ?_⟩
  intro r y hStep
  have hNext : Resetting s ws lessonID done y := hR.step ⟨hq, nofun⟩ hStep
  obtain ⟨⟨w, _, hExec⟩, hEvents⟩ := hStep
  cases r with
  | error e => exact trivial
  | ok a =>
    have hThis : pgDone y.2 q = true := by
      rw [hEvents, pgDone_concat]
      simp [pgDone]
    exact ⟨⟨hNext.remains, List.forall_mem_cons.mpr ⟨hThis, hNext.done⟩, hNext.records⟩, hEvents,
      w, hExec⟩

theorem leaves_require (caller : Except Error UUID) :
    Leaves i ws (require caller) (fun _ y => y = x) x := by
  cases caller with
  | error e => exact trivial
  | ok id => exact rfl

theorem deleteRecords_sweeps {c : Content} {ids : List UUID}
    (hIds : ∀ id ∈ ids, id ∈ resetChunkIDs lessonID c) :
    Performs (Sweeps lessonID c) (deleteRecords lessonID ids) := by
  unfold deleteRecords
  refine performs_bind (Handler.performs_ignore ⟨rfl, nofun⟩) fun _ =>
    performs_bind (Handler.performs_ignore ⟨rfl, nofun⟩) fun _ => Handler.performs_ignoreAll ?_
  intro o ho
  obtain ⟨id, hId, rfl⟩ := List.mem_map.mp ho
  refine ⟨rfl, fun id' hEq => ?_⟩
  cases hEq
  exact hIds id hId

/-- A call adds nothing, wherever it gets to. -/
theorem resetLessonContent_removes (caller : Except Error UUID) (lessonID : UUID) :
    Performs (fun o => o.removes = true) (resetLessonContent caller lessonID) := by
  unfold resetLessonContent
  refine performs_bind (performs_orConnectDBError rfl) fun _ =>
    performs_bind (performs_require caller) fun _ =>
    performs_bind (performs_orConnectDBError rfl) fun _ =>
    performs_bind (performs_orConnectDBError rfl) fun chunks =>
    performs_bind (performs_orConnectDBError rfl) fun _ =>
    performs_bind (performs_orConnectDBError rfl) fun _ =>
    performs_bind (performs_orConnectDBError rfl) fun _ =>
    performs_bind (performs_orConnectDBError rfl) fun _ =>
    performs_bind (performs_orConnectDBError rfl) fun _ =>
    performs_bind (performs_orConnectDBError rfl) fun _ => ?_
  unfold deleteRecords
  refine performs_bind (Handler.performs_ignore rfl) fun _ =>
    performs_bind (Handler.performs_ignore rfl) fun _ => Handler.performs_ignoreAll ?_
  intro o ho
  obtain ⟨id, _, rfl⟩ := List.mem_map.mp ho
  rfl

/-- The list of the chunks that a call takes is that of the tables it found. -/
theorem leaves_listChunks (hR : Resetting s ws lessonID done x)
    (hKept : pgDone x.2 (.deleteLessonTranscriptChunks lessonID) = false) :
    Leaves i ws (orConnectDBError (.listLessonTranscriptChunks lessonID resetChunkListLimit))
      (fun chunks y => ∃ done, Resetting s ws lessonID done y ∧
        chunks.val.map (·.id) = resetChunkIDs lessonID s.content) x := by
  refine (leaves_statement rfl hR).mono ?_ fun _ => id
  intro chunks y ⟨hRead, _, w, hExec⟩
  have hList : chunks = listLessonTranscriptChunks lessonID resetChunkListLimit x.1.content := by
    obtain ⟨e, hError, _⟩ | ⟨_, hRows⟩ := exec_pg hExec
    · cases hError
    · exact (Except.ok.inj (Prod.ext_iff.mp (Option.some.inj hRows)).1).symm
  have hChunks : chunksOf lessonID x.1.content = chunksOf lessonID s.content := by
    rw [hR.remains.chunks, hKept]
    rfl
  refine ⟨_, hRead, ?_⟩
  rw [hList]
  exact resetChunkIDs_congr hChunks

/-- A call that succeeds has executed all of its statements. -/
theorem leaves_resetLessonContent (caller : Except Error UUID) :
    Leaves i ws (resetLessonContent caller lessonID)
      (fun _ y => Resetting s ws lessonID (resetQueries lessonID) y) (s, []) := by
  unfold resetLessonContent
  refine (leaves_statement rfl (.start s ws lessonID)).bind ?_
  rintro _ x₁ ⟨hR₁, hEvents₁, _⟩
  refine (leaves_require caller).bind ?_
  intro _ _ hSame
  subst hSame
  refine (leaves_statement rfl hR₁).bind ?_
  rintro _ x₂ ⟨hR₂, hEvents₂, _⟩
  have hKept : pgDone x₂.2 (.deleteLessonTranscriptChunks lessonID) = false := by
    rw [hEvents₂, hEvents₁, pgDone_concat, pgDone_concat]
    simp [pgDone]
  refine (leaves_listChunks hR₂ hKept).bind ?_
  rintro chunks x₃ ⟨_, hR₃, hIds⟩
  -- the statements of the wipe, each of which has to succeed
  refine (leaves_statement rfl hR₃).bind ?_
  rintro _ x₄ ⟨hR₄, _⟩
  refine (leaves_statement rfl hR₄).bind ?_
  rintro _ x₅ ⟨hR₅, _⟩
  refine (leaves_statement rfl hR₅).bind ?_
  rintro _ x₆ ⟨hR₆, _⟩
  refine (leaves_statement rfl hR₆).bind ?_
  rintro _ x₇ ⟨hR₇, _⟩
  refine (leaves_statement rfl hR₇).bind ?_
  rintro _ x₈ ⟨hR₈, _⟩
  refine (leaves_statement rfl hR₈).bind ?_
  rintro _ x₉ ⟨hR₉, _⟩
  have hWiped : Resetting s ws lessonID (resetQueries lessonID) x₉ := by
    refine ⟨hR₉.remains, fun q hq => hR₉.done q ?_, hR₉.records⟩
    exact List.mem_append_left _ hq
  have hSweeps : Performs (Sweeps lessonID s.content)
      (deleteRecords lessonID (chunks.val.map (·.id))) :=
    deleteRecords_sweeps fun id hId => by rwa [hIds] at hId
  exact (hSweeps.meets (fun _ _ _ _ => trivial)
    (fun _ _ _ _ ho hR hStep => hR.step ho hStep) hWiped).mono (fun _ _ => id) fun _ _ => trivial

end Calls

section Runs

variable {ws₁ ws₂ : List Env} {i j : Nat} {s s₁ s₂ : Store} {h₁ h₂ : History} {lessonID : UUID}
  {caller₁ caller₂ : Except Error UUID}

/-- Where a call is cut off. -/
theorem remains_of_steps
    (hSteps : (resetLessonContent caller₁ lessonID).run.steps (exec i) ws₁ s = some (s₁, h₁)) :
    Remains s ws₁ lessonID (s₁, h₁) := by
  have hEnsures : (resetLessonContent caller₁ lessonID).run.Ensures
      (Prog.Logged (exec i) ([] ++ ws₁)) (fun x _ => Remains s ws₁ lessonID x)
      (fun _ => Remains s ws₁ lessonID) (s, []) :=
    (resetLessonContent_removes caller₁ lessonID).ensures (fun _ _ _ hR => hR)
      (fun _ _ _ _ ho hR hStep => hR.step ho hStep) (.start s ws₁ lessonID)
  exact hEnsures.of_steps rfl hSteps

/-- A record that two deletions in turn have met. -/
theorem none_after_both {β : Type} {before left after : Option β} {first second : Bool}
    (hFirst : left = if first then none else before)
    (hSecond : after = if second then none else left) :
    after = none ↔ before = none ∨ first = true ∨ second = true := by
  rw [hSecond, hFirst]
  cases first <;> cases second <;> simp

/-- The second call finds no chunk to clean up after, once the first one has deleted them. -/
theorem listed_of_remains {x : Store × History} {id : UUID} (hR : Remains s ws₁ lessonID x)
    (hId : id ∈ resetChunkIDs lessonID x.1.content) :
    pgDone x.2 (.deleteLessonTranscriptChunks lessonID) = false ∧
      id ∈ resetChunkIDs lessonID s.content := by
  have hChunks := hR.chunks
  by_cases hGone : pgDone x.2 (.deleteLessonTranscriptChunks lessonID) = true
  · rw [if_pos hGone] at hChunks
    rw [resetChunkIDs_nil hChunks] at hId
    cases hId
  · rw [if_neg hGone] at hChunks
    rw [resetChunkIDs_congr hChunks] at hId
    exact ⟨Bool.eq_false_iff.mpr hGone, hId⟩

/-- However far a first call has got, one that succeeds after it leaves the lesson blank exactly
when the two have swept the records. -/
theorem resetLessonContent_blank_iff (ever : Set UUID)
    (hFirst : (resetLessonContent caller₁ lessonID).run.steps (exec i) ws₁ s = some (s₁, h₁))
    (hSecond : (resetLessonContent caller₂ lessonID).run.log (exec j) ws₂ s₁ =
      some (.ok (), s₂, h₂)) :
    Blank lessonID ever s₂ ↔ Swept s ws₁ h₁ ws₂ h₂ lessonID ever := by
  have hLeft := remains_of_steps hFirst
  have hLeaves : Leaves j ws₂ (resetLessonContent caller₂ lessonID) _ (s₁, []) :=
    leaves_resetLessonContent caller₂
  have hReset : Resetting s₁ ws₂ lessonID (resetQueries lessonID) (s₂, h₂) :=
    Prog.Ensures.of_log [] hLeaves rfl hSecond
  have hR := hReset.remains
  have hDone : ∀ q ∈ resetQueries lessonID, pgDone h₂ q = true := hReset.done
  have hTranscript := none_after_both hLeft.transcript hR.transcript
  have hSegments := none_after_both hLeft.segments hR.segments
  have hRecord := fun id => none_after_both (hLeft.chunkTranscripts id) (hR.chunkTranscripts id)
  constructor
  · intro hBlank
    refine ⟨hTranscript.mp hBlank.transcript, hSegments.mp hBlank.segments, fun id hId => ?_⟩
    rcases (hRecord id).mp (hBlank.chunkTranscripts id hId) with hNone | hFirst | hThen
    · exact .inl hNone
    · exact .inr (.inl hFirst)
    · obtain ⟨hKept, hListed⟩ := listed_of_remains hLeft (hReset.records id hThen)
      exact .inr (.inr ⟨hKept, hListed, hThen⟩)
  · intro hSwept
    refine ⟨hR.video (hDone _ (by simp [resetQueries])), ?_, ?_,
      hR.attempts (hDone _ (by simp [resetQueries])),
      hR.analyses (hDone _ (by simp [resetQueries])), hR.tasks (hDone _ (by simp [resetQueries])),
      hTranscript.mpr hSwept.transcript,
      hSegments.mpr hSwept.segments, fun id hId => (hRecord id).mpr ?_⟩
    · rw [hR.chunks, if_pos (hDone _ (by simp [resetQueries]))]
    · rw [hR.interactions, hDone _ (by simp [resetQueries])]
      exact fun hHas => Bool.noConfusion hHas.1
    · rcases hSwept.chunkTranscripts id hId with hNone | hFirst | ⟨_, _, hThen⟩
      · exact .inl hNone
      · exact .inr (.inl hFirst)
      · exact .inr (.inr hThen)

end Runs

/-- A lesson whose chunk has a transcript. -/
def chunkedLecture : Store :=
  { lecture with chunkTranscripts := fun id => if id = 30 then some "push" else none }

/-- The connection is lost before the statement that deletes the attempts. -/
def attemptsFail : List Env :=
  List.replicate 5 calm ++ [{ failure := some (.other "conn closed") }]

theorem resetLessonContent_blank_iff_lecture : ∃ s₁ h₁ s₂ h₂,
    (resetLessonContent (.ok 20) 10).run.steps (exec 0) (List.replicate 4 calm) chunkedLecture =
      some (s₁, h₁) ∧
    (resetLessonContent (.ok 20) 10).run.log (exec 1) (List.replicate 12 calm) s₁ =
      some (.ok (), s₂, h₂) ∧
    (Blank 10 {30} s₂ ↔
      Swept chunkedLecture (List.replicate 4 calm) h₁ (List.replicate 12 calm) h₂ 10 {30}) := by
  have hRun : ((resetLessonContent (.ok 20) 10).run.steps (exec 0) (List.replicate 4 calm)
      chunkedLecture).any (fun (s₁, _) => ((resetLessonContent (.ok 20) 10).run.log (exec 1)
        (List.replicate 12 calm) s₁).any fun (r, _, _) => r.isOk) = true := by
    decide +kernel
  obtain ⟨⟨s₁, h₁⟩, hFirst, hRest⟩ := (Option.any_eq_true _ _).mp hRun
  obtain ⟨⟨r, s₂, h₂⟩, hSecond, hOk⟩ := (Option.any_eq_true _ _).mp hRest
  cases r with
  | error e => cases hOk
  | ok _ =>
    exact ⟨s₁, h₁, s₂, h₂, hFirst, hSecond, resetLessonContent_blank_iff {30} hFirst hSecond⟩

/-- The chunk is gone when the first call fails, and the second one, in which nothing fails, no
longer knows whose transcript to delete. -/
theorem attemptsFail_leaves_transcript : ∃ e s₁ h₁ s₂ h₂,
    (resetLessonContent (.ok 20) 10).run.log (exec 0) attemptsFail chunkedLecture =
      some (.error e, s₁, h₁) ∧
    (resetLessonContent (.ok 20) 10).run.log (exec 1) (List.replicate 11 calm) s₁ =
      some (.ok (), s₂, h₂) ∧
    (∃ c ∈ chunksOf 10 chunkedLecture.content, s₂.chunkTranscripts c.id = some "push") ∧
    ∀ ever : Set UUID, 30 ∈ ever → ¬Blank 10 ever s₂ := by
  have hRun : ((resetLessonContent (.ok 20) 10).run.log (exec 0) attemptsFail chunkedLecture).any
      (fun (r₁, s₁, _) => !r₁.isOk && ((resetLessonContent (.ok 20) 10).run.log (exec 1)
        (List.replicate 11 calm) s₁).any fun (r₂, s₂, _) => r₂.isOk &&
          decide (s₂.chunkTranscripts 30 = some "push")) = true := by
    decide +kernel
  obtain ⟨⟨r₁, s₁, h₁⟩, hFirst, hRest⟩ := (Option.any_eq_true _ _).mp hRun
  obtain ⟨hFailed, hRest⟩ := Bool.and_eq_true_iff.mp hRest
  obtain ⟨⟨r₂, s₂, h₂⟩, hSecond, hEnd⟩ := (Option.any_eq_true _ _).mp hRest
  obtain ⟨hOk, hText⟩ := Bool.and_eq_true_iff.mp hEnd
  have hKept : s₂.chunkTranscripts 30 = some "push" := of_decide_eq_true hText
  cases r₁ with
  | ok _ => cases hFailed
  | error e =>
    cases r₂ with
    | error e' => cases hOk
    | ok _ =>
      refine ⟨e, s₁, h₁, s₂, h₂, hFirst, hSecond,
        ⟨⟨30, 10, 0, 0, 60, "intro", 1⟩, by decide +kernel, hKept⟩, ?_⟩
      intro ever hEver hBlank
      have hNone := hBlank.chunkTranscripts 30 hEver
      rw [hKept] at hNone
      cases hNone

end Richter.Lessons
