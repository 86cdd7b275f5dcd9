import Richter.Lessons.Requests

/-! What remains of a lesson after operations that add nothing to it, by which of its deletions have
taken effect: an access to FoundationDB may fail without a word, a statement says so. -/

namespace Richter.Lessons

open Lib
open TaskQueue (Task TaskTable)

/-- The access to FoundationDB was made and did not fail; `ws` are the choices of the environment in
the events `h`. -/
def kvDone (ws : List Env) (h : History) (o : Op) : Bool :=
  (h.zip ws).any fun p => p.1.op = o && !p.2.kvFails

/-- The statement was executed and did not fail. -/
def pgDone (h : History) (q : Query) : Bool :=
  h.any fun
    | ⟨.pg q', .ok _⟩ => q' = q
    | _ => false

section Done

variable {ws : List Env} {h : History} {w : Env}

@[simp] theorem kvDone_nil (o : Op) : kvDone ws [] o = false := rfl

@[simp] theorem pgDone_nil (q : Query) : pgDone [] q = false := rfl

theorem kvDone_concat (hw : ws[h.length]? = some w) (o' : Op) (r : o'.Resp) (o : Op) :
    kvDone ws (h ++ [⟨o', r⟩]) o = (kvDone ws h o || (o' = o && !w.kvFails)) := by
  induction h generalizing ws with
  | nil =>
    cases ws with
    | nil => cases hw
    | cons w' ws =>
      cases hw
      simp [kvDone]
  | cons e h ih =>
    cases ws with
    | nil => cases hw
    | cons w' ws =>
      have hNext := @ih ws (by simpa using hw)
      simp only [kvDone, List.cons_append, List.zip_cons_cons, List.any_cons] at hNext ⊢
      rw [hNext, Bool.or_assoc]

theorem pgDone_concat (e : Prog.Event Op Op.Resp) (q : Query) :
    pgDone (h ++ [e]) q = (pgDone h q || pgDone [e] q) := by
  simp [pgDone, List.any_append]

theorem pgDone_of_ne {q q' : Query} (hNe : q ≠ q') (r : Except DbError q.Result) :
    pgDone [⟨.pg q, r⟩] q' = false := by
  cases r <;> simp [pgDone, hNe]

end Done

/-- The operation adds nothing to a lesson. -/
def Op.removes : Op → Bool
  | .saveTranscript .. | .saveSegments .. | .saveChunkTranscript .. => false
  | .pg q =>
    match q with
    | .getLessonByID _ | .getOrgIDByLessonID _ | .listLessonTranscriptChunks ..
    | .deleteLessonInteractionsByLesson _ | .deleteLessonTranscriptChunks _
    | .deleteLessonAttempts _ | .deleteLessonAnalysis _ | .deleteTasksForLesson _
    | .updateLessonVideo _ none _ | .updateTaskProgress .. => true
    | _ => false
  | _ => true

/-- An interaction of the lesson is stored. -/
def HasInteractions (lessonId : UUID) (c : Content) : Prop :=
  ∃ r ∈ c.children.rows, r.lessonId = lessonId

section Removing

variable {i : Nat} {w : Env} {o : Op} {q : Query} {s s' : Store} {id : UUID}

/-- What a statement that adds nothing leaves of the content. -/
def Query.keptContent (c : Content) : Query → Content
  | .deleteLessonInteractionsByLesson id => Lessons.deleteLessonInteractionsByLesson id c
  | .deleteLessonTranscriptChunks id => Lessons.deleteLessonTranscriptChunks id c
  | _ => c

def Query.keptAttempts (attempts : List LessonAttempt) : Query → List LessonAttempt
  | .deleteLessonAttempts id => attempts.filter fun a => a.lessonId ≠ id
  | _ => attempts

def Query.keptAnalyses (analyses : List UUID) : Query → List UUID
  | .deleteLessonAnalysis id => analyses.filter fun l => l ≠ id
  | _ => analyses

def Query.keptTasks (w : Env) (tasks : TaskTable) : Query → TaskTable
  | .deleteTasksForLesson id => TaskQueue.deleteTasksForLesson id tasks
  | .updateTaskProgress id step current total message =>
      TaskQueue.updateTaskProgress id step current total message w.now tasks
  | _ => tasks

/-- A statement that adds nothing fails and leaves the tables, or it removes what it says. -/
theorem removes_pg {r : Except DbError q.Result} (ho : (Op.pg q).removes = true)
    (h : exec i w (.pg q) s = some (r, s')) :
    (s'.transcripts = s.transcripts ∧ s'.segments = s.segments ∧
      s'.chunkTranscripts = s.chunkTranscripts) ∧
    (((∀ q', pgDone [⟨.pg q, r⟩] q' = false) ∧ s'.content = s.content ∧
        s'.attempts = s.attempts ∧ s'.analyses = s.analyses ∧ s'.tasks = s.tasks) ∨
      ((∀ q', pgDone [⟨.pg q, r⟩] q' = decide (q = q')) ∧ s'.content = q.keptContent s.content ∧
        s'.attempts = q.keptAttempts s.attempts ∧ s'.analyses = q.keptAnalyses s.analyses ∧
        s'.tasks = q.keptTasks w s.tasks)) := by
  have hOk : ∀ a q', pgDone [⟨.pg q, .ok a⟩] q' = decide (q = q') := fun a q' => by simp [pgDone]
  obtain ⟨e, rfl, rfl⟩ | ⟨_, hExec⟩ := exec_pg h
  · exact ⟨⟨rfl, rfl, rfl⟩, .inl ⟨fun _ => rfl, rfl, rfl, rfl, rfl⟩⟩
  · -- A read or an update of a missing row fails with what the tables were.
    cases q with
    | updateLessonVideo id key duration =>
      unfold Query.exec at hExec
      dsimp only at hExec
      split at hExec
      · cases hExec
        refine ⟨⟨rfl, rfl, rfl⟩, ?_⟩
        cases (s.touch i w).lessons.find id with
        | none => exact .inl ⟨fun _ => rfl, rfl, rfl, rfl, rfl⟩
        | some lesson => exact .inr ⟨hOk _, rfl, rfl, rfl, rfl⟩
      · cases hExec
    | getLessonByID id =>
      cases hExec
      refine ⟨⟨rfl, rfl, rfl⟩, ?_⟩
      cases (s.touch i w).lessons.find id with
      | none => exact .inl ⟨fun _ => rfl, rfl, rfl, rfl, rfl⟩
      | some lesson => exact .inr ⟨hOk _, rfl, rfl, rfl, rfl⟩
    | getOrgIDByLessonID id =>
      cases hExec
      refine ⟨⟨rfl, rfl, rfl⟩, ?_⟩
      cases ((s.touch i w).lessons.find id).isSome with
      | false => exact .inl ⟨fun _ => rfl, rfl, rfl, rfl, rfl⟩
      | true => exact .inr ⟨hOk _, rfl, rfl, rfl, rfl⟩
    | listLessonTranscriptChunks | deleteLessonInteractionsByLesson
    | deleteLessonTranscriptChunks | deleteLessonAttempts | deleteLessonAnalysis
    | deleteTasksForLesson | updateTaskProgress =>
      cases hExec
      exact ⟨⟨rfl, rfl, rfl⟩, .inr ⟨hOk _, rfl, rfl, rfl, rfl⟩⟩
    | _ => cases ho

/-- A video pointer is only taken away. -/
theorem removes_video {r : Except DbError q.Result} (ho : (Op.pg q).removes = true)
    (h : exec i w (.pg q) s = some (r, s')) {lesson : Lesson}
    (hLesson : s'.lessons.find id = some lesson) :
    lesson.videoStorageKey = none ∨ (s.lessons.find id = some lesson ∧
      pgDone [⟨.pg q, r⟩] (.updateLessonVideo id none none) = false) := by
  obtain ⟨e, rfl, rfl⟩ | ⟨_, hExec⟩ := exec_pg h
  · exact .inr ⟨hLesson, rfl⟩
  · cases q with
    | updateLessonVideo id' key duration =>
      cases key with
      | some key => cases ho
      | none =>
        unfold Query.exec at hExec
        dsimp only at hExec
        split at hExec
        · cases hExec
          have hFind : (updateLessonVideoRow id' none duration s.lessons).find id = some lesson :=
            hLesson
          rw [updateLessonVideoRow, Table.find_update, Option.map_eq_some_iff] at hFind
          obtain ⟨old, hOld, hNew⟩ := hFind
          by_cases hId : old.id = id'
          · rw [if_pos (decide_eq_true hId)] at hNew
            exact .inl (by rw [← hNew]; rfl)
          · rw [if_neg (by simpa using hId)] at hNew
            have hKey : id' ≠ id := fun hEq => hId ((Table.find_key hOld).trans hEq.symm)
            exact .inr ⟨by rw [hOld, hNew], pgDone_of_ne (by simp [hKey]) _⟩
        · cases hExec
    | getLessonByID | getOrgIDByLessonID | listLessonTranscriptChunks
    | deleteLessonInteractionsByLesson | deleteLessonTranscriptChunks | deleteLessonAttempts
    | deleteLessonAnalysis | deleteTasksForLesson | updateTaskProgress =>
      cases hExec
      exact .inr ⟨hLesson, pgDone_of_ne (by simp) _⟩
    | _ => cases ho

variable (id) in
/-- What an operation outside of Postgres that adds nothing does. -/
theorem removes_kv {r : o.Resp} (ho : o.removes = true) (hPg : ∀ q, o ≠ .pg q)
    (h : exec i w o s = some (r, s')) :
    s'.transcripts id = (if o = .deleteTranscript id && !w.kvFails then none
      else s.transcripts id) ∧
    s'.segments id = (if o = .deleteSegments id && !w.kvFails then none else s.segments id) ∧
    s'.chunkTranscripts id = (if o = .deleteChunkTranscript id && !w.kvFails then none
      else s.chunkTranscripts id) ∧
    s'.content = s.content ∧ s'.attempts = s.attempts ∧ s'.analyses = s.analyses ∧
    s'.tasks = s.tasks ∧ s'.lessons = s.lessons := by
  have hWrite : ∀ {α : Type} (records : UUID → Option α) (id' : UUID),
      writeKv w records id' none id =
        if id' = id && !w.kvFails then none else records id := by
    intro α records id'
    by_cases hKv : w.kvFails = true
    · simp [writeKv, hKv]
    · by_cases hId : id' = id
      · simp [writeKv, hKv, hId]
      · simp [writeKv, hKv, hId, Ne.symm hId]
  cases o with
  | deleteTranscript id' =>
    cases h
    refine ⟨?_, rfl, rfl, rfl, rfl, rfl, rfl, rfl⟩
    show writeKv w s.transcripts id' none id = _
    simpa using hWrite s.transcripts id'
  | deleteSegments id' =>
    cases h
    refine ⟨rfl, ?_, rfl, rfl, rfl, rfl, rfl, rfl⟩
    show writeKv w s.segments id' none id = _
    simpa using hWrite s.segments id'
  | deleteChunkTranscript id' =>
    cases h
    refine ⟨rfl, rfl, ?_, rfl, rfl, rfl, rfl, rfl⟩
    show writeKv w s.chunkTranscripts id' none id = _
    simpa using hWrite s.chunkTranscripts id'
  | pg q => exact absurd rfl (hPg q)
  | saveTranscript | saveSegments | saveChunkTranscript => cases ho
  | tryAcquire workerId id' =>
    unfold exec at h
    dsimp only at h
    split at h <;> cases h <;> exact ⟨rfl, rfl, rfl, rfl, rfl, rfl, rfl, rfl⟩
  | _ =>
    cases h
    exact ⟨rfl, rfl, rfl, rfl, rfl, rfl, rfl, rfl⟩

end Removing

/-- The lesson after the events of `x`, which have added nothing to it: what was there in `s`, but
for the deletions that have taken effect. -/
structure Remains (s : Store) (ws : List Env) (lessonID : UUID) (x : Store × History) : Prop where
  transcript : x.1.transcripts lessonID =
    if kvDone ws x.2 (.deleteTranscript lessonID) then none else s.transcripts lessonID
  segments : x.1.segments lessonID =
    if kvDone ws x.2 (.deleteSegments lessonID) then none else s.segments lessonID
  chunkTranscripts : ∀ id, x.1.chunkTranscripts id =
    if kvDone ws x.2 (.deleteChunkTranscript id) then none else s.chunkTranscripts id
  chunks : chunksOf lessonID x.1.content =
    if pgDone x.2 (.deleteLessonTranscriptChunks lessonID) then []
    else chunksOf lessonID s.content
  interactions : HasInteractions lessonID x.1.content ↔
    pgDone x.2 (.deleteLessonInteractionsByLesson lessonID) = false ∧
      HasInteractions lessonID s.content
  attempts : pgDone x.2 (.deleteLessonAttempts lessonID) = true →
    ∀ a ∈ x.1.attempts, a.lessonId ≠ lessonID
  analyses : pgDone x.2 (.deleteLessonAnalysis lessonID) = true → lessonID ∉ x.1.analyses
  tasks : pgDone x.2 (.deleteTasksForLesson lessonID) = true →
    ∀ t ∈ x.1.tasks.rows, t.lessonId ≠ lessonID
  video : pgDone x.2 (.updateLessonVideo lessonID none none) = true →
    ∀ lesson, x.1.lessons.find lessonID = some lesson → lesson.videoStorageKey = none

section Steps

variable {i : Nat} {ws : List Env} {w : Env} {s t t' : Store} {h : History} {lessonID : UUID}

theorem Remains.start (s : Store) (ws : List Env) (lessonID : UUID) :
    Remains s ws lessonID (s, []) :=
  ⟨rfl, rfl, fun _ => rfl, rfl, by simp, nofun, nofun, nofun, nofun⟩

/-- Operations outside of Postgres. -/
theorem Remains.step_kv {o : Op} {r : o.Resp} (hR : Remains s ws lessonID (t, h))
    (hw : ws[h.length]? = some w) (ho : o.removes = true) (hPg : ∀ q, o ≠ .pg q)
    (hExec : exec i w o t = some (r, t')) : Remains s ws lessonID (t', h ++ [⟨o, r⟩]) := by
  have hEvent : ∀ q, pgDone [⟨o, r⟩] q = false := by
    intro q
    cases o with
    | pg q' => exact absurd rfl (hPg q')
    | _ => rfl
  have hDone : ∀ q, pgDone (h ++ [⟨o, r⟩]) q = pgDone h q := by
    intro q
    rw [pgDone_concat, hEvent, Bool.or_false]
  obtain ⟨hTranscript, hSegments, _, hContent, hAttempts, hAnalyses, hTasks, hLessons⟩ :=
    removes_kv lessonID ho hPg hExec
  refine ⟨?_, ?_, fun id => ?_, ?_, ?_, ?_, ?_, ?_, ?_⟩
  · rw [kvDone_concat hw, hTranscript, hR.transcript]
    by_cases hThis : (o = .deleteTranscript lessonID && !w.kvFails) = true <;> simp [hThis]
  · rw [kvDone_concat hw, hSegments, hR.segments]
    by_cases hThis : (o = .deleteSegments lessonID && !w.kvFails) = true <;> simp [hThis]
  · rw [kvDone_concat hw, (removes_kv id ho hPg hExec).2.2.1, hR.chunkTranscripts id]
    by_cases hThis : (o = .deleteChunkTranscript id && !w.kvFails) = true <;> simp [hThis]
  · rw [hDone, hContent]
    exact hR.chunks
  · rw [hDone, hContent]
    exact hR.interactions
  · rw [hDone, hAttempts]
    exact hR.attempts
  · rw [hDone, hAnalyses]
    exact hR.analyses
  · rw [hDone, hTasks]
    exact hR.tasks
  · rw [hDone, hLessons]
    exact hR.video

theorem chunksOf_keptContent (c : Content) (q : Query) :
    chunksOf lessonID (q.keptContent c) =
      if q = .deleteLessonTranscriptChunks lessonID then [] else chunksOf lessonID c := by
  cases q with
  | deleteLessonTranscriptChunks id =>
    show (c.parents.rows.filter fun p => !decide (p.lessonId = id)).filter _ = _
    rw [List.filter_filter]
    by_cases hId : id = lessonID
    · simp [hId]
    · rw [if_neg (by simpa using hId)]
      refine List.filter_congr fun p _ => ?_
      by_cases hLesson : p.lessonId = lessonID
      · simp [hLesson, Ne.symm hId]
      · simp [hLesson]
  | _ => rfl

theorem hasInteractions_keptContent (c : Content) (q : Query) :
    HasInteractions lessonID (q.keptContent c) ↔
      q ≠ .deleteLessonInteractionsByLesson lessonID ∧ HasInteractions lessonID c := by
  cases q with
  | deleteLessonInteractionsByLesson id =>
    show (∃ r ∈ c.children.rows.filter fun r => !decide (r.lessonId = id), _) ↔ _
    by_cases hId : id = lessonID
    · simp [hId]
    · simp only [List.mem_filter, HasInteractions, ne_eq,
        Query.deleteLessonInteractionsByLesson.injEq, hId, not_false_eq_true, true_and]
      refine exists_congr fun r => ⟨fun h => ⟨h.1.1, h.2⟩, fun h => ?_⟩
      exact ⟨⟨h.1, by simp [h.2, Ne.symm hId]⟩, h.2⟩
  | deleteLessonTranscriptChunks id =>
    refine Iff.trans ?_ (and_iff_right (by simp)).symm
    show (∃ r ∈ List.map _ c.children.rows, _) ↔ _
    simp only [List.mem_map, HasInteractions, exists_exists_and_eq_and]
    refine exists_congr fun r => and_congr_right fun _ => ?_
    split <;> rfl
  | _ => exact (and_iff_right (by simp)).symm

theorem keptAttempts_none {attempts : List LessonAttempt} {q : Query} {done : Bool}
    (h : done = true → ∀ a ∈ attempts, a.lessonId ≠ lessonID)
    (hAny : (done || decide (q = .deleteLessonAttempts lessonID)) = true) :
    ∀ a ∈ q.keptAttempts attempts, a.lessonId ≠ lessonID := by
  intro a ha
  have hMem : a ∈ attempts := by
    cases q with
    | deleteLessonAttempts id => exact (List.mem_filter.mp ha).1
    | _ => exact ha
  rw [Bool.or_eq_true, decide_eq_true_eq] at hAny
  rcases hAny with hDone | rfl
  · exact h hDone a hMem
  · simpa using (List.mem_filter.mp ha).2

theorem keptAnalyses_none {analyses : List UUID} {q : Query} {done : Bool}
    (h : done = true → lessonID ∉ analyses)
    (hAny : (done || decide (q = .deleteLessonAnalysis lessonID)) = true) :
    lessonID ∉ q.keptAnalyses analyses := by
  intro ha
  have hMem : lessonID ∈ analyses := by
    cases q with
    | deleteLessonAnalysis id => exact (List.mem_filter.mp ha).1
    | _ => exact ha
  rw [Bool.or_eq_true, decide_eq_true_eq] at hAny
  rcases hAny with hDone | rfl
  · exact h hDone hMem
  · simpa using (List.mem_filter.mp ha).2

theorem keptTasks_none {tasks : TaskTable} {q : Query} {done : Bool}
    (h : done = true → ∀ t ∈ tasks.rows, t.lessonId ≠ lessonID)
    (hAny : (done || decide (q = .deleteTasksForLesson lessonID)) = true) :
    ∀ t ∈ (q.keptTasks w tasks).rows, t.lessonId ≠ lessonID := by
  intro t ht
  have hMem : ∃ t' ∈ tasks.rows, t'.lessonId = t.lessonId := by
    cases q with
    | deleteTasksForLesson id => exact ⟨t, (List.mem_filter.mp ht).1, rfl⟩
    | updateTaskProgress id step current total message =>
      obtain ⟨t', ht', rfl⟩ := List.mem_map.mp ht
      refine ⟨t', ht', ?_⟩
      split <;> rfl
    | _ => exact ⟨t, ht, rfl⟩
  obtain ⟨t', ht', hSame⟩ := hMem
  rw [Bool.or_eq_true, decide_eq_true_eq] at hAny
  rcases hAny with hDone | rfl
  · rw [← hSame]
    exact h hDone t' ht'
  · simpa using (List.mem_filter.mp ht).2

/-- Statements. -/
theorem Remains.step_pg {q : Query} {r : Except DbError q.Result}
    (hR : Remains s ws lessonID (t, h)) (hw : ws[h.length]? = some w)
    (ho : (Op.pg q).removes = true) (hExec : exec i w (.pg q) t = some (r, t')) :
    Remains s ws lessonID (t', h ++ [⟨.pg q, r⟩]) := by
  have hKv : ∀ o, (∀ q, o ≠ .pg q) → kvDone ws (h ++ [⟨.pg q, r⟩]) o = kvDone ws h o := by
    intro o hNot
    rw [kvDone_concat hw]
    simp [Ne.symm (hNot q)]
  obtain ⟨⟨hTranscripts, hSegments, hChunkTranscripts⟩, hTables⟩ := removes_pg ho hExec
  have hVideo : ∀ lesson, t'.lessons.find lessonID = some lesson →
      pgDone (h ++ [⟨.pg q, r⟩]) (.updateLessonVideo lessonID none none) = true →
      lesson.videoStorageKey = none := by
    intro lesson hLesson hDone
    rcases removes_video ho hExec hLesson with hNone | ⟨hOld, hNot⟩
    · exact hNone
    · rw [pgDone_concat, hNot, Bool.or_false] at hDone
      exact hR.video hDone lesson hOld
  refine ⟨?_, ?_, fun id => ?_, ?_, ?_, ?_, ?_, ?_, fun hDone lesson hLesson =>
    hVideo lesson hLesson hDone⟩
  · rw [hKv _ (by nofun), hTranscripts]
    exact hR.transcript
  · rw [hKv _ (by nofun), hSegments]
    exact hR.segments
  · rw [hKv _ (by nofun), hChunkTranscripts]
    exact hR.chunkTranscripts id
  · rw [pgDone_concat]
    rcases hTables with ⟨hNot, hContent, _⟩ | ⟨hDone, hContent, _⟩
    · rw [hNot, Bool.or_false, hContent]
      exact hR.chunks
    · rw [hDone, hContent, chunksOf_keptContent, hR.chunks]
      by_cases hThis : q = .deleteLessonTranscriptChunks lessonID <;> simp [hThis]
  · rw [pgDone_concat]
    rcases hTables with ⟨hNot, hContent, _⟩ | ⟨hDone, hContent, _⟩
    · rw [hNot, Bool.or_false, hContent]
      exact hR.interactions
    · rw [hDone, hContent, hasInteractions_keptContent, hR.interactions]
      by_cases hThis : q = .deleteLessonInteractionsByLesson lessonID <;> simp [hThis]
  · rw [pgDone_concat]
    rcases hTables with ⟨hNot, _, hAttempts, _⟩ | ⟨hDone, _, hAttempts, _⟩
    · rw [hNot, Bool.or_false, hAttempts]
      exact hR.attempts
    · rw [hDone, hAttempts]
      exact fun hAny => keptAttempts_none (fun h => hR.attempts h) hAny
  · rw [pgDone_concat]
    rcases hTables with ⟨hNot, _, _, hAnalyses, _⟩ | ⟨hDone, _, _, hAnalyses, _⟩
    · rw [hNot, Bool.or_false, hAnalyses]
      exact hR.analyses
    · rw [hDone, hAnalyses]
      exact fun hAny => keptAnalyses_none (fun h => hR.analyses h) hAny
  · rw [pgDone_concat]
    rcases hTables with ⟨hNot, _, _, _, hTasks⟩ | ⟨hDone, _, _, _, hTasks⟩
    · rw [hNot, Bool.or_false, hTasks]
      exact hR.tasks
    · rw [hDone, hTasks]
      exact fun hAny => keptTasks_none (fun h => hR.tasks h) hAny

theorem Remains.step {o : Op} {x y : Store × History} {r : o.Resp}
    (hR : Remains s ws lessonID x) (ho : o.removes = true)
    (hStep : Prog.Logged (exec i) ws o x r y) : Remains s ws lessonID y := by
  obtain ⟨⟨w, hw, hExec⟩, hEvents⟩ := hStep
  rw [show y = (y.1, x.2 ++ [⟨o, r⟩]) from Prod.ext rfl hEvents]
  by_cases hPg : ∀ q, o ≠ .pg q
  · exact Remains.step_kv (t := x.1) hR hw ho hPg hExec
  · obtain ⟨q, rfl⟩ := not_forall_not.mp hPg
    exact Remains.step_pg (t := x.1) hR hw ho hExec

end Steps

/-- The executor or the handler ends with `ok` when it succeeds, in a run with the choices `ws`. -/
abbrev Leaves {ε α : Type} (i : Nat) (ws : List Env) (e : ExceptT ε (Prog Op Op.Resp) α)
    (ok : α → Store × History → Prop) (x : Store × History) : Prop :=
  Prog.Meets (Prog.Logged (exec i) ws) (fun _ _ => True) e ok (fun _ => True) x

end Richter.Lessons
