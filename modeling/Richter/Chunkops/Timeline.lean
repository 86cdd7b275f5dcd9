import Richter.Chunkops.Service
import Richter.Chunkops.Spans

/-! The timeline of a lesson's chunks while any number of `SplitChunk` and `AdjustChunkBoundary`
requests run side by side.  Both check the new boundary against bounds that they have read before
their transaction, and write bounds that nothing keeps as they were read. -/

namespace Richter.Chunkops

open Lib
open Lessons (Content Env LessonTranscriptChunk chunksOf)
open Handler (base inTx require)

section Trace

/-- The write that a statement has done when it answered `a`. -/
def Query.written : (q : Query) → q.Result → Option Write
  | .getLessonTranscriptChunk _, _ | .listLessonTranscriptChunks .., _ | .rankLessonChunks _, _ =>
      none
  | .updateChunkMetadata id startSeconds endSeconds summary, _ =>
      some (.updateChunkMetadata id startSeconds endSeconds summary)
  | .insertLessonTranscriptChunk p, row => some (.insertLessonTranscriptChunk (p.row row.id))
  | .deleteLessonTranscriptChunk id, _ => some (.deleteLessonTranscriptChunk id)
  | .deleteLessonInteractionsByChunk chunkId, _ => some (.deleteLessonInteractionsByChunk chunkId)
  | .setOrderIndex id orderIndex, _ => some (.setOrderIndex id orderIndex)

/-- The writes of a transaction after one more event. -/
def noteWrites (writes : Option (List Write)) : Prog.Event Op Op.Resp → Option (List Write)
  | ⟨.begin, .ok ()⟩ => some []
  | ⟨.commit, _⟩ | ⟨.rollback, _⟩ => none
  | ⟨.tx q, .ok a⟩ =>
      match q.written a with
      | none => writes
      | some w => some (writes.getD [] ++ [w])
  | _ => writes

/-- The chunk that was read, under the id that was asked for. -/
def readOf : Prog.Event Op Op.Resp → Option (UUID × LessonTranscriptChunk)
  | ⟨.base (.pg (.getLessonTranscriptChunk id)), .ok q⟩
  | ⟨.tx (.getLessonTranscriptChunk id), .ok q⟩ => some (id, q)
  | _ => none

/-- The chunks that a request has read before its transaction wrote, and the writes of the
transaction. -/
structure Trace where
  reads : List (UUID × LessonTranscriptChunk)
  writes : Option (List Write)

def Trace.note (t : Trace) (e : Prog.Event Op Op.Resp) : Trace where
  reads := if t.writes.getD [] = [] then t.reads ++ (readOf e).toList else t.reads
  writes := noteWrites t.writes e

def traceOf (h : List (Prog.Event Op Op.Resp)) : Trace := h.foldl Trace.note ⟨[], none⟩

/-- What the requests of this run do outside of their transactions. -/
def Op.plain : Op → Prop
  | .base (.pg (.getLessonTranscriptChunk _)) | .base (.loadSegments _)
  | .base (.saveChunkTranscript ..) => True
  | .base _ | .checked _ => False
  | _ => True

variable {i : Nat} {env : Env} {o : Op} {s s' : Store} {r : o.Resp} {t : Trace}

theorem written_of_answer {q : Query} {a : q.Result} {c : Lessons.Store}
    (h : q.answer env c = .ok a) : q.written a = q.write env := by
  cases q with
  | insertLessonTranscriptChunk p =>
    unfold Query.answer at h
    dsimp only at h
    split at h
    · cases h
    · split at h
      · cases h
      · cases h
        rfl
  | _ => rfl

/-- The writes that a trace holds are those of the open transaction. -/
theorem pending_of_exec (h : exec i env o s = some (r, s')) :
    s'.pending = Function.update s.pending i (noteWrites (s.pending i) ⟨o, r⟩) := by
  cases o with
  | base o =>
    obtain ⟨⟨r', c⟩, _, hEq⟩ := Option.map_eq_some_iff.mp h
    cases hEq
    exact (Function.update_eq_self i s.pending).symm
  | checked o =>
    have hSame : s'.pending = s.pending := by
      simp only [exec] at h
      split at h
      · cases h
        rfl
      · obtain ⟨⟨r', c⟩, _, hEq⟩ := Option.map_eq_some_iff.mp h
        cases hEq
        rfl
    rw [hSame]
    exact (Function.update_eq_self i s.pending).symm
  | begin =>
    cases hFailure : env.failure with
    | none =>
      simp only [exec, hFailure] at h
      cases h
      rfl
    | some e =>
      simp only [exec, hFailure] at h
      cases h
      exact (Function.update_eq_self i s.pending).symm
  | commit =>
    cases hFailure : env.failure <;> simp only [exec, hFailure] at h <;> cases h <;> rfl
  | rollback =>
    cases h
    rfl
  | tx q =>
    obtain ⟨e, rfl, rfl⟩ | ⟨a, rfl, hAnswer, _, hPending⟩ := exec_tx h
    · exact (Function.update_eq_self i _).symm
    · rw [hPending]
      unfold noteWrites
      dsimp only
      rw [written_of_answer hAnswer]
      cases q.write env with
      | none => exact (Function.update_eq_self i _).symm
      | some w => rfl

/-- What a request reads before its transaction writes is committed. -/
theorem find_of_readOf (h : exec i env o s = some (r, s')) (hClean : (s.pending i).getD [] = [])
    {id : UUID} {q : LessonTranscriptChunk} (hRead : readOf ⟨o, r⟩ = some (id, q)) :
    s.committed.content.parents.find id = some q := by
  unfold readOf at hRead
  split at hRead
  · next hEvent =>
    cases hEvent
    cases hRead
    obtain ⟨⟨r', c⟩, hExec, hEq⟩ := Option.map_eq_some_iff.mp h
    cases hEq
    obtain ⟨e, hErr, _⟩ | ⟨_, hQuery⟩ := Lessons.exec_pg hExec
    · cases hErr
    · simp only [Lessons.Query.exec, Option.some.injEq, Prod.mk.injEq] at hQuery
      exact one_eq_ok.mp hQuery.1
  · next hEvent =>
    cases hEvent
    cases hRead
    obtain ⟨e, hErr, _⟩ | ⟨a, ha, hAnswer, _⟩ := exec_tx h
    · cases hErr
    · cases ha
      have hView : s.view Write.apply i = s.committed := by
        unfold TxnStore.view
        rw [hClean]
        rfl
      rw [hView] at hAnswer
      exact one_eq_ok.mp hAnswer
  · cases hRead

/-- Only a commit changes what is committed of the chunks. -/
theorem content_of_exec (h : exec i env o s = some (r, s')) (hPlain : o.plain) :
    s'.committed.content = s.committed.content ∨
      o = .commit ∧ env.failure = none ∧ s'.committed = s.view Write.apply i := by
  cases o with
  | base o =>
    obtain ⟨⟨r', c⟩, hExec, hEq⟩ := Option.map_eq_some_iff.mp h
    cases hEq
    refine .inl ?_
    unfold Op.plain at hPlain
    split at hPlain
    · next id hOp =>
      cases hOp
      obtain ⟨e, _, rfl⟩ | ⟨_, hQuery⟩ := Lessons.exec_pg hExec
      · rfl
      · cases hQuery
        rfl
    · next hOp =>
      cases hOp
      cases hExec
      rfl
    · next hOp =>
      cases hOp
      cases hExec
      rfl
    · exact hPlain.elim
    · exact hPlain.elim
    · next hOther _ => exact absurd rfl (hOther o)
  | checked o => exact hPlain.elim
  | begin =>
    refine .inl ?_
    cases hFailure : env.failure <;> simp only [exec, hFailure] at h <;> cases h <;> rfl
  | commit =>
    cases hFailure : env.failure with
    | none =>
      simp only [exec, hFailure] at h
      cases h
      exact .inr ⟨rfl, rfl, rfl⟩
    | some e =>
      simp only [exec, hFailure] at h
      cases h
      exact .inl rfl
  | rollback =>
    cases h
    exact .inl rfl
  | tx q =>
    obtain ⟨e, _, rfl⟩ | ⟨_, _, _, hCommitted, _⟩ := exec_tx h
    · exact .inl rfl
    · exact .inl (by rw [hCommitted])

end Trace

/-- A request that moves bounds. -/
inductive Edit
  | split (chunkID : UUID) (splitAt : ℚ)
  | adjustBoundary (prevID nextID : UUID) (newBoundary : ℚ)

def Edit.handler (teacher : UUID → Except Error Unit) (chunksLimit : Nat) : Edit → Handler Unit
  | .split chunkID splitAt => do
    let _ ← Chunkops.split teacher chunksLimit chunkID splitAt
    return
  | .adjustBoundary prevID nextID newBoundary => do
    let _ ← Chunkops.adjustBoundary teacher prevID nextID newBoundary
    return

section Path

def Write.IsReorder (w : Write) : Prop := ∃ id k, w = .setOrderIndex id k

/-- What a request has read and written when it commits. -/
def Edit.Committing (t : Trace) : Edit → Prop
  | .split chunkID splitAt => ∃ chunk row rest, t.reads = [(chunkID, chunk)] ∧
      t.writes = some (.updateChunkMetadata chunk.id chunk.startSeconds splitAt chunk.summary ::
        .insertLessonTranscriptChunk row :: rest) ∧
      (row.lessonId = chunk.lessonId ∧ row.startSeconds = splitAt ∧
        row.endSeconds = chunk.endSeconds) ∧ ∀ w ∈ rest, w.IsReorder
  | .adjustBoundary prevID nextID newBoundary => ∃ prev next currentPrev currentNext,
      t.reads = [(prevID, prev), (nextID, next), (prevID, currentPrev), (nextID, currentNext)] ∧
      prev.lessonId = next.lessonId ∧
      t.writes = some
        [.updateChunkMetadata prevID currentPrev.startSeconds newBoundary currentPrev.summary,
          .updateChunkMetadata nextID newBoundary currentNext.endSeconds currentNext.summary]

/-- What a request does after the trace `t`. -/
def Edit.Does (e : Edit) (t : Trace) (o : Op) : Prop := o.plain ∧ (o = .commit → e.Committing t)

def Noted (o : Op) (t : Trace) (r : o.Resp) (t' : Trace) : Prop := t' = t.note ⟨o, r⟩

/-- The rule of the programs below: their errors need nothing. -/
abbrev Path {α : Type} (e : Edit) (x : Handler α) (ok : α → Trace → Prop) (t : Trace) : Prop :=
  Prog.Meets Noted e.Does x ok (fun _ => True) t

variable {α β : Type} {e : Edit} {t : Trace}

/-- Reading a chunk before the transaction. -/
theorem path_getChunk (missing : Error) (id : UUID)
    (reads : List (UUID × LessonTranscriptChunk)) :
    Path e (getChunk missing id) (fun q t' => t' = ⟨reads ++ [(id, q)], none⟩)
      ⟨reads, none⟩ := by
  refine (Prog.meets_perform_bind _).mpr ⟨⟨trivial, nofun⟩, ?_⟩
  rintro (_ | q) _ rfl
  · split
    · next hq => cases hq
    · trivial
    · trivial
  · rfl

theorem path_require (x : Except Error Unit) : Path e (require x) (fun _ t' => t' = t) t := by
  cases x with
  | ok => rfl
  | error e => trivial

theorem path_loadSegments (lessonID : UUID) :
    Path e (base (.loadSegments lessonID)) (fun _ t' => t' = t) t := by
  refine (Prog.meets_perform _).mpr ⟨⟨trivial, nofun⟩, ?_⟩
  rintro segs _ rfl
  simp [Trace.note, readOf, noteWrites]

theorem path_saveUnlessEmpty (id : UUID) (text : String) :
    Path e (saveUnlessEmpty id text) (fun _ _ => True) t := by
  unfold saveUnlessEmpty
  split
  · exact ⟨⟨trivial, nofun⟩, fun _ _ _ => trivial⟩
  · trivial

/-- A statement of the transaction. -/
theorem path_inTx (wrap : DbError → Error) (q : Query) :
    Path e (inTx wrap q) (fun a t' => t' = t.note ⟨.tx q, .ok a⟩) t := by
  refine (Prog.meets_perform_bind _).mpr ⟨⟨trivial, nofun⟩, ?_⟩
  rintro (_ | a) _ rfl
  · trivial
  · rfl

/-- The transaction begins, and the rollback of a failed one needs nothing. -/
theorem path_withCommitTx {f : Handler α} (reads : List (UUID × LessonTranscriptChunk))
    (hf : Path e f (fun _ t' => e.Committing t') ⟨reads, some []⟩) :
    Path e (withCommitTx f) (fun _ _ => True) ⟨reads, none⟩ := by
  refine Prog.Ensures.withCommit ⟨⟨trivial, nofun⟩, ?_⟩
  have hRollback : ∀ t', (Prog.perform Op.rollback : Prog Op Op.Resp Unit).Ensures Noted e.Does
      (fun _ _ => True) t' := fun t' => ⟨⟨trivial, nofun⟩, fun _ _ _ => trivial⟩
  rintro (_ | _) _ rfl
  · trivial
  · have hBegun : Trace.note ⟨reads, none⟩ ⟨.begin, .ok ()⟩ = ⟨reads, some []⟩ := by
      simp [Trace.note, readOf, noteWrites]
    rw [hBegun]
    refine hf.mono (fun a t' hCommitting => ⟨⟨trivial, fun _ => hCommitting⟩, ?_⟩)
      fun t' _ => hRollback t'
    rintro (_ | _) _ rfl
    · exact hRollback _
    · trivial

/-- The statements of a transaction that move no bounds. -/
def Op.reorders : Op → Prop
  | .tx (.rankLessonChunks _) | .tx (.setOrderIndex ..) | .tx (.getLessonTranscriptChunk _) => True
  | _ => False

theorem plain_of_reorders {o : Op} (h : o.reorders) : o.plain := by
  unfold Op.reorders at h
  split at h
  · trivial
  · trivial
  · trivial
  · exact h.elim

def Reordered (reads : List (UUID × LessonTranscriptChunk)) (ws : List Write) (t : Trace) : Prop :=
  t.reads = reads ∧ ∃ rest, t.writes = some (ws ++ rest) ∧ ∀ w ∈ rest, w.IsReorder

theorem reordered_of_noted {reads : List (UUID × LessonTranscriptChunk)} {ws : List Write}
    (hNe : ws ≠ []) {o : Op} {r : o.Resp} {t' : Trace} (ho : o.reorders)
    (h : Reordered reads ws t) (hNote : Noted o t r t') : Reordered reads ws t' := by
  obtain ⟨hReads, rest, hWrites, hRest⟩ := h
  have hDirty : t.writes.getD [] ≠ [] := by simp [hWrites, hNe]
  cases hNote
  refine ⟨by rw [Trace.note, if_neg hDirty, hReads], ?_⟩
  unfold Op.reorders at ho
  split at ho
  · refine ⟨rest, ?_, hRest⟩
    rcases r with _ | a <;> exact hWrites
  · next id k =>
    rcases r with _ | a
    · exact ⟨rest, hWrites, hRest⟩
    · refine ⟨rest ++ [.setOrderIndex id k], ?_, fun w hw => ?_⟩
      · simp [Trace.note, noteWrites, Query.written, hWrites]
      · rcases List.mem_append.mp hw with hOld | hNew
        · exact hRest w hOld
        · exact ⟨id, k, List.mem_singleton.mp hNew⟩
  · refine ⟨rest, ?_, hRest⟩
    rcases r with _ | a <;> exact hWrites
  · exact ho.elim

theorem performs_inTx {A : Op → Prop} (wrap : DbError → Error) (q : Query) (h : A (.tx q)) :
    (inTx wrap q).run.Performs A := by
  refine ⟨h, fun r => ?_⟩
  rcases r with _ | a <;> trivial

theorem setOrderIndexes_reorders (wrap : DbError → Error) (k : Nat) (ids : List UUID) :
    (setOrderIndexes wrap k ids).run.Performs Op.reorders := by
  induction ids generalizing k with
  | nil => trivial
  | cons id ids ih =>
    exact Prog.Performs.exceptT_bind (performs_inTx wrap _ trivial) fun _ => ih (k + 1)

theorem reorderLessonChunks_reorders (wrap : DbError → Error) (lessonID : UUID) :
    (reorderLessonChunks wrap lessonID).run.Performs Op.reorders :=
  Prog.Performs.exceptT_bind (performs_inTx wrap _ trivial) fun ids =>
    setOrderIndexes_reorders wrap 0 ids

theorem path_splitInTx (chunksLimit : Nat) (chunkID : UUID) (chunk : LessonTranscriptChunk)
    (splitAt : ℚ) :
    Path (.split chunkID splitAt) (splitInTx chunksLimit chunk splitAt)
      (fun _ t' => (Edit.split chunkID splitAt).Committing t')
      ⟨[(chunkID, chunk)], some []⟩ := by
  refine Prog.Meets.bind (path_inTx ..) ?_
  rintro updated _ rfl
  refine Prog.Meets.bind (path_inTx ..) ?_
  rintro existingChunks _ rfl
  refine Prog.Meets.bind (path_inTx ..) ?_
  rintro newChunk _ rfl
  have hRest : Prog.Performs Op.reorders (ExceptT.run do
      reorderLessonChunks (wrapped "reorder chunks after split: ") chunk.lessonId
      let first ← inTx (wrapped "re-fetch first chunk after split: ")
        (.getLessonTranscriptChunk updated.id)
      let second ← inTx (wrapped "re-fetch second chunk after split: ")
        (.getLessonTranscriptChunk newChunk.id)
      return (⟨first, second⟩ : SplitResult)) :=
    Prog.Performs.exceptT_bind (reorderLessonChunks_reorders ..) fun _ =>
      Prog.Performs.exceptT_bind (performs_inTx _ _ trivial) fun _ =>
        Prog.Performs.exceptT_bind (performs_inTx _ _ trivial) fun _ => trivial
  have hKept : ∀ row t', Reordered [(chunkID, chunk)]
      [.updateChunkMetadata chunk.id chunk.startSeconds splitAt chunk.summary,
        .insertLessonTranscriptChunk row] t' → Path (.split chunkID splitAt) _
      (fun _ => Reordered [(chunkID, chunk)]
        [.updateChunkMetadata chunk.id chunk.startSeconds splitAt chunk.summary,
          .insertLessonTranscriptChunk row]) t' := fun row t' hStart =>
    Prog.Meets.mono (hRest.meets
      (fun t o ho _ => ⟨plain_of_reorders ho, fun hCommit => by cases hCommit; exact ho.elim⟩)
      (fun o t r t' ho hI hNote => reordered_of_noted (by simp) ho hI hNote) hStart)
      (fun _ _ => id) fun _ _ => trivial
  refine (hKept _ _ ⟨rfl, [], rfl, nofun⟩).mono ?_ fun _ _ => trivial
  rintro _ t' ⟨hReads, rest, hWrites, hRest⟩
  exact ⟨chunk, _, rest, hReads, hWrites, ⟨rfl, rfl, rfl⟩, hRest⟩

theorem path_adjustInTx (prevID nextID : UUID) (prev next : LessonTranscriptChunk)
    (newBoundary : ℚ) (hLesson : prev.lessonId = next.lessonId) :
    Path (.adjustBoundary prevID nextID newBoundary) (adjustInTx prevID nextID newBoundary)
      (fun _ t' => (Edit.adjustBoundary prevID nextID newBoundary).Committing t')
      ⟨[(prevID, prev), (nextID, next)], some []⟩ := by
  refine Prog.Meets.bind (path_inTx ..) ?_
  rintro currentPrev _ rfl
  refine Prog.Meets.bind (path_inTx ..) ?_
  rintro currentNext _ rfl
  split
  · trivial
  · refine Prog.Meets.bind (path_inTx ..) ?_
    rintro updPrev _ rfl
    refine Prog.Meets.bind (path_inTx ..) ?_
    rintro updNext _ rfl
    exact ⟨prev, next, currentPrev, currentNext, rfl, hLesson, rfl⟩

/-- After the transaction a request writes transcripts. -/
theorem path_saves {β : Type} {ok : β → Trace → Prop} (id id' : β → UUID) (text text' : β → String)
    (out : β → α) : ∀ r t, ok r t → Path e
      (do saveUnlessEmpty (id r) (text r); saveUnlessEmpty (id' r) (text' r); return out r)
      (fun _ _ => True) t := by
  intro r t _
  refine Prog.Meets.bind (path_saveUnlessEmpty (id r) (text r)) fun _ t' _ => ?_
  exact Prog.Meets.bind (path_saveUnlessEmpty (id' r) (text' r)) fun _ _ _ => trivial

theorem path_split (teacher : UUID → Except Error Unit) (chunksLimit : Nat) (chunkID : UUID)
    (splitAt : ℚ) :
    Path (.split chunkID splitAt) (split teacher chunksLimit chunkID splitAt) (fun _ _ => True)
      ⟨[], none⟩ := by
  refine Prog.Meets.bind (path_getChunk ..) ?_
  rintro chunk _ rfl
  refine Prog.Meets.bind (path_require _) ?_
  rintro _ _ rfl
  split
  · trivial
  · refine Prog.Meets.bind (path_loadSegments _) ?_
    rintro allSegs _ rfl
    exact Prog.Meets.bind (path_withCommitTx [(chunkID, chunk)] (path_splitInTx ..))
      (path_saves _ _ _ _ _)

theorem path_adjustBoundary (teacher : UUID → Except Error Unit) (prevID nextID : UUID)
    (newBoundary : ℚ) :
    Path (.adjustBoundary prevID nextID newBoundary)
      (adjustBoundary teacher prevID nextID newBoundary) (fun _ _ => True) ⟨[], none⟩ := by
  refine Prog.Meets.bind (path_getChunk ..) ?_
  rintro prev _ rfl
  refine Prog.Meets.bind (path_getChunk ..) ?_
  rintro next _ rfl
  split
  · trivial
  · next hLesson =>
    split
    · trivial
    · refine Prog.Meets.bind (path_require _) ?_
      rintro _ _ rfl
      split
      · trivial
      · refine Prog.Meets.bind (path_loadSegments _) ?_
        rintro allSegs _ rfl
        exact Prog.Meets.bind (path_withCommitTx [(prevID, prev), (nextID, next)]
          (path_adjustInTx _ _ prev next _ (not_not.mp hLesson))) (path_saves _ _ _ _ _)

/-- Along its way a request commits only what the reads of its own have led to. -/
theorem path_handler (teacher : UUID → Except Error Unit) (chunksLimit : Nat) (e : Edit) :
    Path e (e.handler teacher chunksLimit) (fun _ _ => True) ⟨[], none⟩ := by
  cases e with
  | split chunkID splitAt => exact Prog.Meets.bind (path_split ..) fun _ _ _ => trivial
  | adjustBoundary prevID nextID newBoundary =>
    exact Prog.Meets.bind (path_adjustBoundary ..) fun _ _ _ => trivial

end Path

section Window

/-- What a request covers with the chunks that it writes, as it has read it. -/
structure Window where
  lessonId : UUID
  own : List UUID
  lo : ℚ
  mid : ℚ
  hi : ℚ

def Edit.window : Edit → List (UUID × LessonTranscriptChunk) → Option Window
  | .split _ splitAt, [(_, chunk)] =>
      some ⟨chunk.lessonId, [chunk.id], chunk.startSeconds, splitAt, chunk.endSeconds⟩
  | .adjustBoundary prevID nextID newBoundary, [_, _, (_, currentPrev), (_, currentNext)] =>
      some ⟨currentPrev.lessonId, [prevID, nextID], currentPrev.startSeconds, newBoundary,
        currentNext.endSeconds⟩
  | _, _ => none

/-- The boundary lies within the window, and no other chunk of the lesson reaches into it. -/
def Window.fits (w : Window) (c : Content) : Bool :=
  w.lo < w.mid && w.mid < w.hi && (chunksOf w.lessonId c).all fun q =>
    w.own.contains q.id || q.endSeconds ≤ w.lo || w.hi ≤ q.startSeconds

theorem clear_of_fits {w : Window} {c : Content} (h : w.fits c = true) :
    w.lo < w.mid ∧ w.mid < w.hi ∧ (spansOf w.lessonId c).Clear (· ∈ w.own) w.lo w.hi := by
  unfold Window.fits at h
  simp only [Bool.and_eq_true, decide_eq_true_eq, List.all_eq_true, Bool.or_eq_true,
    List.contains_iff_mem] at h
  obtain ⟨⟨hLo, hHi⟩, hOthers⟩ := h
  refine ⟨hLo, hHi, fun k a b hk hSpan => ?_⟩
  obtain ⟨q, hq, rfl, rfl, rfl⟩ := spansOf_eq_some.mp hSpan
  rcases hOthers q hq with (hOwn | hBefore) | hAfter
  · exact absurd hOwn hk
  · exact .inl hBefore
  · exact .inr hAfter

variable {lessonId : UUID} {c : Content}

theorem spansOf_reorders (ws : List Write) (hws : ∀ w ∈ ws, w.IsReorder) :
    spansOf lessonId (ws.foldl Write.applyContent c) = spansOf lessonId c := by
  induction ws generalizing c with
  | nil => rfl
  | cons w ws ih =>
    obtain ⟨id, k, rfl⟩ := hws w (List.mem_cons_self ..)
    rw [List.foldl_cons, ih fun w hw => hws w (List.mem_cons_of_mem _ hw), spansOf_setOrderIndex]

theorem lessonAt_reorders (ws : List Write) (hws : ∀ w ∈ ws, w.IsReorder) (k : UUID) :
    lessonAt (ws.foldl Write.applyContent c) k = lessonAt c k := by
  induction ws generalizing c with
  | nil => rfl
  | cons w ws ih =>
    obtain ⟨id, i, rfl⟩ := hws w (List.mem_cons_self ..)
    rw [List.foldl_cons, ih fun w hw => hws w (List.mem_cons_of_mem _ hw), lessonAt_setOrderIndex]

theorem applyAll_content (ws : List Write) (s : Lessons.Store) :
    (TxnStore.applyAll Write.apply ws s).content = ws.foldl Write.applyContent s.content := by
  induction ws generalizing s with
  | nil => rfl
  | cons w ws ih => exact ih (w.apply s)

end Window

/-- The reads of a request are chunks of their lessons still. -/
def ReadsHold (c : Content) (t : Trace) : Prop :=
  ∀ x ∈ t.reads, x.2.id = x.1 ∧ lessonAt c x.1 = some x.2.lessonId

theorem writes_of_committing {e : Edit} {t : Trace} (h : e.Committing t) :
    ∃ ws, t.writes = some ws := by
  cases e with
  | split chunkID splitAt =>
    obtain ⟨_, _, _, _, hWrites, _⟩ := h
    exact ⟨_, hWrites⟩
  | adjustBoundary prevID nextID newBoundary =>
    obtain ⟨_, _, _, _, _, _, hWrites⟩ := h
    exact ⟨_, hWrites⟩

/-- A commit whose window still fits keeps the timeline. -/
theorem timeline_of_committing {e : Edit} {t : Trace} {ws : List Write} {lessonId : UUID}
    {c : Content} (hCommitting : e.Committing t) (hws : t.writes = some ws) (hReads : ReadsHold c t)
    (hFits : ∀ w ∈ e.window t.reads, w.lessonId = lessonId → w.fits c = true)
    (h : (spansOf lessonId c).Timeline) :
    (spansOf lessonId (ws.foldl Write.applyContent c)).Timeline := by
  cases e with
  | split chunkID splitAt =>
    obtain ⟨chunk, row, rest, hTrace, hWrites, ⟨hLesson, hStart, hEnd⟩, hRest⟩ := hCommitting
    cases hws.symm.trans hWrites
    obtain ⟨hId, hAt⟩ := hReads (chunkID, chunk) (by simp [hTrace])
    have hAtId : lessonAt c chunk.id = some chunk.lessonId := by rw [hId, hAt]
    rw [List.foldl_cons, List.foldl_cons, spansOf_reorders rest hRest,
      spansOf_insertLessonTranscriptChunk, spansOf_updateChunkMetadata, hAtId]
    by_cases hOf : chunk.lessonId = lessonId
    · obtain ⟨hLo, hHi, hClear⟩ := clear_of_fits (hFits _ (by rw [hTrace]; rfl) hOf)
      rw [hOf] at hClear
      rw [if_pos (congrArg some hOf)]
      split
      · rw [hStart, hEnd]
        refine h.cut hLo hHi (hClear.mono (fun k hk => ?_) le_rfl le_rfl)
        exact .inl (List.mem_singleton.mp hk)
      · refine h.put hLo (hClear.mono (fun k hk => ?_) le_rfl hHi.le)
        exact List.mem_singleton.mp hk
    · have hNe : some chunk.lessonId ≠ some lessonId := fun hSome => hOf (Option.some.inj hSome)
      rw [if_neg hNe, if_neg fun hRow => hOf (hLesson.symm.trans hRow.1)]
      exact h
  | adjustBoundary prevID nextID newBoundary =>
    obtain ⟨prev, next, currentPrev, currentNext, hTrace, hSame, hWrites⟩ := hCommitting
    cases hws.symm.trans hWrites
    obtain ⟨_, hPrev⟩ := hReads (prevID, prev) (by simp [hTrace])
    obtain ⟨_, hNext⟩ := hReads (nextID, next) (by simp [hTrace])
    obtain ⟨_, hCurrent⟩ := hReads (prevID, currentPrev) (by simp [hTrace])
    have hLesson : currentPrev.lessonId = prev.lessonId :=
      Option.some.inj (hCurrent.symm.trans hPrev)
    rw [List.foldl_cons, List.foldl_cons, List.foldl_nil, spansOf_updateChunkMetadata,
      spansOf_updateChunkMetadata, lessonAt_updateChunkMetadata, hPrev, hNext, ← hSame]
    by_cases hOf : prev.lessonId = lessonId
    · obtain ⟨hLo, hHi, hClear⟩ :=
        clear_of_fits (hFits _ (by rw [hTrace]; rfl) (hLesson.trans hOf))
      rw [hLesson, hOf] at hClear
      rw [if_pos (congrArg some hOf), if_pos (congrArg some hOf)]
      refine h.cut hLo hHi (hClear.mono (fun k hk => ?_) le_rfl le_rfl)
      simpa using hk
    · have hNe : some prev.lessonId ≠ some lessonId := fun hSome => hOf (Option.some.inj hSome)
      rw [if_neg hNe, if_neg hNe]
      exact h

theorem lessonAt_of_committing {e : Edit} {t : Trace} {ws : List Write} {c : Content}
    (hCommitting : e.Committing t) (hws : t.writes = some ws) {k lesson : UUID}
    (h : lessonAt c k = some lesson) :
    lessonAt (ws.foldl Write.applyContent c) k = some lesson := by
  cases e with
  | split chunkID splitAt =>
    obtain ⟨chunk, row, rest, _, hWrites, _, hRest⟩ := hCommitting
    cases hws.symm.trans hWrites
    rw [List.foldl_cons, List.foldl_cons, lessonAt_reorders rest hRest]
    exact lessonAt_insertLessonTranscriptChunk ((lessonAt_updateChunkMetadata ..).trans h)
  | adjustBoundary prevID nextID newBoundary =>
    obtain ⟨prev, next, currentPrev, currentNext, _, _, hWrites⟩ := hCommitting
    cases hws.symm.trans hWrites
    exact (lessonAt_updateChunkMetadata ..).trans ((lessonAt_updateChunkMetadata ..).trans h)

section Run

/-- Requests side by side, by their numbers. -/
abbrev Edits := Pool Nat Store Op Op.Resp (Except Error Unit)

def Edits.start (teacher : Nat → UUID → Except Error Unit) (chunksLimit : Nat)
    (requests : Nat → Edit) (s : Lessons.Store) : Edits :=
  Pool.start (TxnStore.quiet s) fun i => ((requests i).handler (teacher i) chunksLimit).run

def editsMachine : Machine Edits (Nat × Env) := Pool.machine exec

/-- The step is no commit on the lesson that finds another of its chunks in the window which the
request has read. -/
def stillFits (requests : Nat → Edit) (lessonId : UUID) (p : Edits) (a : Nat × Env) : Bool :=
  p.next a.1 ≠ some .commit || a.2.failure.isSome ||
    ((requests a.1).window (traceOf (p.hist a.1)).reads).all fun w =>
      w.lessonId ≠ lessonId || w.fits p.store.committed.content

/-- What holds in every state: the traces of the requests agree with the store, and the timeline of
the lesson is valid. -/
structure Sound (lessonId : UUID) (s : Store) (hist : Nat → List (Prog.Event Op Op.Resp)) :
    Prop where
  pending : ∀ i, s.pending i = (traceOf (hist i)).writes
  reads : ∀ i, ReadsHold s.committed.content (traceOf (hist i))
  timeline : (spansOf lessonId s.committed.content).Timeline

variable {lessonId : UUID} {s s' : Store} {hist : Nat → List (Prog.Event Op Op.Resp)} {i : Nat}
  {env : Env} {o : Op} {r : o.Resp}

theorem traceOf_append (h : List (Prog.Event Op Op.Resp)) (e : Prog.Event Op Op.Resp) :
    traceOf (h ++ [e]) = (traceOf h).note e := by
  rw [traceOf, List.foldl_append]
  rfl

theorem Sound.pending_step (hSound : Sound lessonId s hist)
    (hExec : exec i env o s = some (r, s')) (j : Nat) :
    s'.pending j = (traceOf (Function.update hist i (hist i ++ [⟨o, r⟩]) j)).writes := by
  rw [pending_of_exec hExec]
  by_cases hj : j = i
  · subst hj
    rw [Function.update_self, Function.update_self, traceOf_append, hSound.pending j]
    rfl
  · rw [Function.update_of_ne hj, Function.update_of_ne hj, hSound.pending j]

/-- What has been read stays read, in every store in which the chunks keep their lessons. -/
theorem Sound.reads_step (hSound : Sound lessonId s hist)
    (hExec : exec i env o s = some (r, s')) (hKept : ∀ k lesson,
      lessonAt s.committed.content k = some lesson → lessonAt s'.committed.content k = some lesson)
    (j : Nat) :
    ReadsHold s'.committed.content (traceOf (Function.update hist i (hist i ++ [⟨o, r⟩]) j)) := by
  have hOld : ∀ x ∈ (traceOf (hist j)).reads,
      x.2.id = x.1 ∧ lessonAt s'.committed.content x.1 = some x.2.lessonId := fun x hx =>
    ⟨(hSound.reads j x hx).1, hKept _ _ (hSound.reads j x hx).2⟩
  by_cases hj : j = i
  · subst hj
    rw [Function.update_self, traceOf_append]
    intro x hx
    unfold Trace.note at hx
    dsimp only at hx
    split at hx
    · next hClean =>
      rcases List.mem_append.mp hx with hx | hx
      · exact hOld x hx
      · have hRead : readOf ⟨o, r⟩ = some (x.1, x.2) := Option.mem_toList.mp hx
        rw [← hSound.pending j] at hClean
        have hFind := find_of_readOf hExec hClean hRead
        exact ⟨Table.find_key hFind, hKept _ _ (by rw [lessonAt, hFind]; rfl)⟩
    · exact hOld x hx
  · rw [Function.update_of_ne hj]
    exact hOld

theorem Sound.step {requests : Nat → Edit} {p : Edits} (hSound : Sound lessonId p.store p.hist)
    (hFits : stillFits requests lessonId p (i, env) = true) (hNext : p.next i = some o)
    (hDoes : (requests i).Does (traceOf (p.hist i)) o)
    (hExec : exec i env o p.store = some (r, s')) :
    Sound lessonId s' (Function.update p.hist i (p.hist i ++ [⟨o, r⟩])) := by
  obtain ⟨hPlain, hCommits⟩ := hDoes
  obtain hSame | ⟨rfl, hNoFailure, hCommitted⟩ := content_of_exec hExec hPlain
  · exact ⟨hSound.pending_step hExec, hSound.reads_step hExec fun _ _ => hSame ▸ id,
      hSame ▸ hSound.timeline⟩
  · have hCommitting := hCommits rfl
    obtain ⟨ws, hws⟩ := writes_of_committing hCommitting
    have hContent : s'.committed.content =
        ws.foldl Write.applyContent p.store.committed.content := by
      rw [hCommitted, TxnStore.view, hSound.pending i, hws]
      exact applyAll_content ws _
    refine ⟨hSound.pending_step hExec, hSound.reads_step hExec fun k lesson hk => ?_, ?_⟩
    · rw [hContent]
      exact lessonAt_of_committing hCommitting hws hk
    · rw [hContent]
      refine timeline_of_committing hCommitting hws (hSound.reads i) (fun w hw hOf => ?_)
        hSound.timeline
      simp only [stillFits, hNext, hNoFailure, Option.mem_def.mp hw] at hFits
      simpa [hOf] using hFits

/-- While every commit finds the window that its request has read clear of other chunks, the
lesson's timeline stays valid. -/
theorem timeline_kept_while_fitting (teacher : Nat → UUID → Except Error Unit) (chunksLimit : Nat)
    (requests : Nat → Edit) (lessonId : UUID) (s : Lessons.Store)
    (hValid : ValidTimeline lessonId s.content) (as : List (Nat × Env)) (p : Edits)
    (hRun : editsMachine.Runs (fun p a => stillFits requests lessonId p a = true)
      (Edits.start teacher chunksLimit requests s) as p) :
    ValidTimeline lessonId p.store.committed.content := by
  have hAlong : ∀ i, ((requests i).handler (teacher i) chunksLimit).run.Along
      (fun h o => (requests i).Does (traceOf h) o) (fun _ _ => True) [] := fun i =>
    Prog.Ensures.mono (Prog.Ensures.along (f := Trace.note) (t := ⟨[], none⟩)
      (path_handler (teacher i) chunksLimit (requests i))) (fun _ _ => id) fun _ _ _ => trivial
  have hStart : Sound lessonId (TxnStore.quiet s) fun _ => [] :=
    ⟨fun _ => rfl, fun _ _ hx => absurd hx (List.not_mem_nil), validTimeline_iff.mp hValid⟩
  obtain ⟨hSound, _⟩ := Pool.runs_invariant (I := Sound lessonId)
    (fun p i env o r s' hFits hNext hDoes hSound hExec => hSound.step hFits hNext hDoes hExec)
    hRun hAlong hStart
  exact validTimeline_iff.mpr hSound.timeline

def asTeacher : Nat → UUID → Except Error Unit := fun _ _ => .ok ()

/-- The first chunk is split at 8, and its boundary to the second is moved to 5. -/
def splitAndAdjust : Nat → Edit
  | 0 => .split 30 8
  | _ => .adjustBoundary 30 31 5

/-- The split runs alone. -/
def splitOnly : List (Nat × Env) := List.replicate 13 (0, calm)

theorem timeline_kept_while_fitting_splitOnly :
    ∃ p, editsMachine.run (.start asTeacher 100 splitAndAdjust twoChunks) splitOnly = some p ∧
      ValidTimeline 10 p.store.committed.content :=
  ⟨_, rfl, @timeline_kept_while_fitting asTeacher 100 splitAndAdjust 10 twoChunks (by decide)
    splitOnly _ (Machine.Runs.of_restrict rfl)⟩

/-- The split has checked its position when the boundary moves, and then writes the old end. -/
def adjustWithinSplit : List (Nat × Env) :=
  List.replicate 2 (0, calm) ++ List.replicate 9 (1, calm) ++ List.replicate 11 (0, calm)

theorem split_and_adjust_overlap :
    ¬ ∀ (teacher : Nat → UUID → Except Error Unit) (chunksLimit : Nat) (requests : Nat → Edit)
      (lessonId : UUID) (s : Lessons.Store) (as : List (Nat × Env)) (p : Edits),
      ValidTimeline lessonId s.content →
      editsMachine.run (.start teacher chunksLimit requests s) as = some p →
      ValidTimeline lessonId p.store.committed.content := by
  intro h
  have hOverlap := h asTeacher 100 splitAndAdjust 10 twoChunks adjustWithinSplit _ (by decide) rfl
  revert hOverlap
  decide

end Run

end Richter.Chunkops
