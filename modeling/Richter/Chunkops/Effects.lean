import Mathlib.Algebra.Order.Ring.Rat
import Richter.Chunkops.Service
import Richter.Lib.Rank

/-! What a request that edits the chunks of a lesson has done when it succeeds and no other request
runs at the same time: to the tables, and, when no access to FoundationDB fails, to the transcripts
of the chunks. -/

namespace Richter.Chunkops

open Lib
open Lessons (ChunkList Content Env LessonInteraction LessonTranscriptChunk Segment
  buildChunkTranscript trimSpace)
open Handler (base checked ignore ignoreAll inTx require)

/-- The part of a store that the requests read and write. -/
structure Shown where
  content : Content
  segments : UUID → Option (List Segment)
  chunkTranscripts : UUID → Option String

def shown (s : Lessons.Store) : Shown := ⟨s.content, s.segments, s.chunkTranscripts⟩

/-- No access to a store fails, and the request's context is not cancelled. -/
structure Calm (env : Env) : Prop where
  kvFails : env.kvFails = false
  failure : env.failure = none
  cancel : env.cancel = false

/-- The chunks and interactions are those of `e`, and so are the records of FoundationDB if the
environment is calm. -/
def Reaches (G : Env → Prop) (e : Shown) (s : Store) : Prop :=
  s.committed.content = e.content ∧
    ((∀ env, G env → Calm env) → shown s.committed = e ∧ s.committed.cancelled 0 = false)

/-- In the transaction, which reads the content `v`. -/
def InTx (G : Env → Prop) (e : Shown) (v : Content) (s : Store) : Prop :=
  Reaches G e s ∧ (s.view Write.apply 0).content = v

/-- An operation of a request that runs alone, in an environment that meets `G`. -/
def Ran (G : Env → Prop) (o : Op) (s : Store) (r : o.Resp) (t : Store) : Prop :=
  ∃ env, G env ∧ exec 0 env o s = some (r, t)

/-- The request ends with `ok` when it succeeds. -/
abbrev Yields {α : Type} (G : Env → Prop) (x : Handler α) (ok : α → Store → Prop) (s : Store) :
    Prop := Prog.Meets (Ran G) (fun _ _ => True) x ok (fun _ => True) s

section Rules

variable {α β : Type} {G : Env → Prop} {e : Shown} {v : Content} {s t : Store}

theorem yields_require (x : Except Error Unit) (h : Reaches G e s) :
    Yields G (require x) (fun _ t => Reaches G e t) s := by
  cases x with
  | ok => exact h
  | error => trivial

/-- An access to FoundationDB, or a read, has the effect `f` in a calm environment. -/
theorem yields_base {o : Lessons.Op} {f : Shown → Shown} {P : Shown → o.Resp → Prop}
    (hContent : ∀ env c r c', Lessons.exec 0 env o c = some (r, c') → c'.content = c.content ∧
      (Calm env → c.cancelled 0 = false →
        shown c' = f (shown c) ∧ c'.cancelled 0 = false ∧ P (shown c) r))
    (hf : ∀ c, (f c).content = c.content) (h : Reaches G e s) :
    Yields G (base o) (fun r t => Reaches G (f e) t ∧ ((∀ env, G env → Calm env) → P e r)) s := by
  refine (Prog.meets_perform _).mpr ⟨trivial, ?_⟩
  rintro r t ⟨env, hG, hExec⟩
  obtain ⟨⟨r', c⟩, hBase, hEq⟩ := Option.map_eq_some_iff.mp hExec
  cases hEq
  obtain ⟨hSame, hEffect⟩ := hContent env _ _ _ hBase
  refine ⟨⟨?_, fun hCalm => ?_⟩, fun hCalm => ?_⟩
  · rw [hf]
    exact hSame.trans h.1
  · obtain ⟨rfl, hLive⟩ := h.2 hCalm
    obtain ⟨hShown, hLive', _⟩ := hEffect (hCalm env hG) hLive
    exact ⟨hShown, hLive'⟩
  · obtain ⟨rfl, hLive⟩ := h.2 hCalm
    exact (hEffect (hCalm env hG) hLive).2.2

theorem yields_getChunk (missing : Error) (id : UUID) (h : Reaches G e s) :
    Yields G (getChunk missing id)
      (fun q t => Reaches G e t ∧ e.content.parents.find id = some q) s := by
  refine (Prog.meets_perform_bind _).mpr ⟨trivial, ?_⟩
  rintro r t ⟨env, hG, hExec⟩
  obtain ⟨⟨r', c⟩, hBase, hEq⟩ := Option.map_eq_some_iff.mp hExec
  cases hEq
  obtain ⟨err, rfl, _⟩ | ⟨_, hQuery⟩ := Lessons.exec_pg hBase
  · split
    · next hOk => cases hOk
    · trivial
    · trivial
  · simp only [Lessons.Query.exec, Option.some.injEq, Prod.mk.injEq] at hQuery
    obtain ⟨rfl, rfl⟩ := hQuery
    split
    · next q hOk =>
      refine ⟨⟨h.1, fun hCalm => ?_⟩, h.1 ▸ one_eq_ok.mp hOk⟩
      obtain ⟨hShown, hLive⟩ := h.2 hCalm
      exact ⟨hShown, by simp [Lessons.Store.touch, hLive, (hCalm env hG).cancel]⟩
    · trivial
    · trivial

theorem yields_loadSegments (lessonID : UUID) (h : Reaches G e s) :
    Yields G (base (.loadSegments lessonID)) (fun segs t => Reaches G e t ∧
      ((∀ env, G env → Calm env) → segs = (e.segments lessonID).getD [])) s := by
  refine yields_base (o := .loadSegments lessonID) (f := fun c => c)
    (P := fun e segs => segs = (e.segments lessonID).getD []) ?_ (fun _ => rfl) h
  rintro env c r c' hExec
  cases hExec
  refine ⟨rfl, fun hCalm hLive => ⟨rfl, by simp [Lessons.Store.touch, hLive, hCalm.cancel], ?_⟩⟩
  rw [Lessons.readKv, hCalm.kvFails]
  rfl

theorem yields_fetchChunkTranscript (id : UUID) (h : Reaches G e s) :
    Yields G (base (.fetchChunkTranscript id)) (fun text t => Reaches G e t ∧
      ((∀ env, G env → Calm env) → text = trimSpace ((e.chunkTranscripts id).getD ""))) s := by
  refine yields_base (o := .fetchChunkTranscript id) (f := fun c => c)
    (P := fun e text => text = trimSpace ((e.chunkTranscripts id).getD "")) ?_ (fun _ => rfl) h
  rintro env c r c' hExec
  cases hExec
  refine ⟨rfl, fun hCalm hLive => ⟨rfl, by simp [Lessons.Store.touch, hLive, hCalm.cancel], ?_⟩⟩
  rw [Lessons.readKv, hCalm.kvFails]
  rfl

/-- The transcripts after one that is not written when it is empty. -/
@[irreducible] def saveIf (texts : UUID → Option String) (id : UUID) (text : String) :
    UUID → Option String :=
  if text ≠ "" then Function.update texts id (some text) else texts

/-- The transcripts after one for each of the chunks. -/
def saveAll (text : LessonTranscriptChunk → String) (chunks : List LessonTranscriptChunk)
    (texts : UUID → Option String) : UUID → Option String :=
  chunks.foldl (fun texts c => saveIf texts c.id (text c)) texts

theorem yields_ignore {o : Lessons.Op} {f : Shown → Shown}
    (hContent : ∀ env c r c', Lessons.exec 0 env o c = some (r, c') → c'.content = c.content ∧
      (Calm env → c.cancelled 0 = false → shown c' = f (shown c) ∧ c'.cancelled 0 = false))
    (hf : ∀ c, (f c).content = c.content) (h : Reaches G e s) :
    Yields G (ignore o) (fun _ t => Reaches G (f e) t) s := by
  refine Prog.Meets.bind (yields_base (P := fun _ _ => True) ?_ hf h) fun _ _ => And.left
  intro env c r c' hExec
  obtain ⟨hSame, hEffect⟩ := hContent env c r c' hExec
  exact ⟨hSame, fun hCalm hLive => ⟨(hEffect hCalm hLive).1, (hEffect hCalm hLive).2, trivial⟩⟩

theorem exec_saveChunkTranscript {id : UUID} {text : String} (env : Env) (c : Lessons.Store)
    (r : Unit) (c' : Lessons.Store)
    (h : Lessons.exec 0 env (.saveChunkTranscript id text) c = some (r, c')) :
    c'.content = c.content ∧ (Calm env → c.cancelled 0 = false →
      shown c' = { shown c with
        chunkTranscripts := Function.update (shown c).chunkTranscripts id (some text) } ∧
      c'.cancelled 0 = false) := by
  cases h
  refine ⟨rfl, fun hCalm hLive => ⟨?_, by simp [Lessons.Store.touch, hLive, hCalm.cancel]⟩⟩
  simp [shown, Lessons.writeKv, hCalm.kvFails, Lessons.Store.touch]

theorem yields_saveChunkTranscript (id : UUID) (text : String) (h : Reaches G e s) :
    Yields G (ignore (.saveChunkTranscript id text)) (fun _ t => Reaches G
      { e with chunkTranscripts := Function.update e.chunkTranscripts id (some text) } t) s :=
  yields_ignore (f := fun e => { e with
    chunkTranscripts := Function.update e.chunkTranscripts id (some text) })
    exec_saveChunkTranscript (fun _ => rfl) h

theorem yields_saveUnlessEmpty (id : UUID) (text : String) (h : Reaches G e s) :
    Yields G (saveUnlessEmpty id text) (fun _ t => Reaches G
      { e with chunkTranscripts := saveIf e.chunkTranscripts id text } t) s := by
  unfold saveUnlessEmpty saveIf
  split
  · exact yields_saveChunkTranscript id text h
  · exact h

theorem yields_deleteChunkTranscript (id : UUID) (h : Reaches G e s) :
    Yields G (ignore (.deleteChunkTranscript id)) (fun _ t => Reaches G
      { e with chunkTranscripts := Function.update e.chunkTranscripts id none } t) s := by
  refine yields_ignore (f := fun e => { e with
    chunkTranscripts := Function.update e.chunkTranscripts id none }) ?_ (fun _ => rfl) h
  rintro env c r c' hExec
  cases hExec
  refine ⟨rfl, fun hCalm hLive => ⟨?_, by simp [Lessons.Store.touch, hLive, hCalm.cancel]⟩⟩
  simp [shown, Lessons.writeKv, hCalm.kvFails, Lessons.Store.touch]

theorem shown_applyAll (ws : List Write) (c : Lessons.Store) :
    shown (TxnStore.applyAll Write.apply ws c) =
      { shown c with content := (TxnStore.applyAll Write.apply ws c).content } := by
  induction ws generalizing c with
  | nil => rfl
  | cons w ws ih => exact ih (w.apply c)

theorem cancelled_applyAll (ws : List Write) (c : Lessons.Store) :
    (TxnStore.applyAll Write.apply ws c).cancelled = c.cancelled := by
  induction ws generalizing c with
  | nil => rfl
  | cons w ws ih => exact ih (w.apply c)

/-- The rule of the transactions. -/
theorem yields_withCommitTx {f : Handler α} {Q : α → Content → Prop} (h : Reaches G e s)
    (hf : ∀ t, InTx G e e.content t → Yields G f (fun a t => ∃ v, Q a v ∧ InTx G e v t) t) :
    Yields G (withCommitTx f)
      (fun a t => ∃ v, Q a v ∧ Reaches G { e with content := v } t) s := by
  have hRollback : ∀ t, (Prog.perform Op.rollback : Prog Op Op.Resp Unit).Ensures (Ran G)
      (fun _ _ => True) (fun _ _ => True) t := fun t => ⟨trivial, fun _ _ _ => trivial⟩
  refine Prog.Ensures.withCommit ⟨trivial, ?_⟩
  rintro r t ⟨env, _, hExec⟩
  cases hFailure : env.failure with
  | some err =>
    simp only [exec, hFailure, Option.some.injEq, Prod.mk.injEq] at hExec
    obtain ⟨rfl, _⟩ := hExec
    trivial
  | none =>
    simp only [exec, hFailure, Option.some.injEq, Prod.mk.injEq] at hExec
    obtain ⟨rfl, rfl⟩ := hExec
    have hBegun : InTx G e e.content (s.begin 0) := by
      refine ⟨h, ?_⟩
      rw [TxnStore.view, TxnStore.begin_pending]
      exact h.1
    refine (hf _ hBegun).mono (fun a t => ?_) fun t _ => hRollback t
    rintro ⟨v, hQ, hReaches, hView⟩
    refine ⟨trivial, ?_⟩
    rintro r u ⟨env, _, hExec⟩
    cases hFailure : env.failure with
    | some err =>
      simp only [exec, hFailure, Option.some.injEq, Prod.mk.injEq] at hExec
      obtain ⟨rfl, _⟩ := hExec
      exact hRollback u
    | none =>
      simp only [exec, hFailure, Option.some.injEq, Prod.mk.injEq] at hExec
      obtain ⟨rfl, rfl⟩ := hExec
      refine ⟨v, hQ, hView, fun hCalm => ?_⟩
      obtain ⟨rfl, hLive⟩ := hReaches.2 hCalm
      rw [TxnStore.commit_committed]
      refine ⟨(shown_applyAll ((t.pending 0).getD []) t.committed).trans (by rw [← hView]; rfl), ?_⟩
      exact (congrFun (cancelled_applyAll _ _) 0).trans hLive

/-- A statement of the transaction: its answer, and what it writes. -/
theorem yields_inTx (wrap : DbError → Error) (q : Query) (h : InTx G e v s) :
    Yields G (inTx wrap q) (fun a t => ∃ env view, G env ∧ view.content = v ∧
      q.answer env view = .ok a ∧
      InTx G e ((q.write env).elim v fun w => w.applyContent v) t) s := by
  refine (Prog.meets_perform_bind _).mpr ⟨trivial, ?_⟩
  rintro r t ⟨env, hG, hExec⟩
  obtain ⟨err, rfl, _⟩ | ⟨a, rfl, hAnswer, hCommitted, hPending⟩ := exec_tx hExec
  · trivial
  · refine ⟨env, _, hG, h.2, hAnswer, ⟨?_, ?_⟩⟩
    · unfold Reaches
      rw [hCommitted]
      exact h.1
    · rw [TxnStore.view, hCommitted, hPending]
      cases q.write env with
      | none => exact h.2
      | some w =>
        simp only [Function.update_self, Option.getD_some, TxnStore.applyAll, List.foldl_append,
          List.foldl_cons, List.foldl_nil, Option.elim_some]
        exact congrArg (fun v => w.applyContent v) h.2

end Rules

section Contents

/-- The rows of `ReorderLessonChunks`, from the `k`-th on. -/
def setIndexes : Nat → List UUID → Content → Content
  | _, [], c => c
  | k, id :: ids, c => setIndexes (k + 1) ids ((Write.setOrderIndex id k).applyContent c)

def reorder (lessonId : UUID) (c : Content) : Content :=
  setIndexes 0 ((byStart lessonId c).map (·.id)) c

/-- After a split of `chunk`, with `row` for its second part. -/
def splitContent (chunk row : LessonTranscriptChunk) (splitAt : ℚ) (c : Content) : Content :=
  reorder chunk.lessonId ((Write.insertLessonTranscriptChunk row).applyContent
    ((Write.updateChunkMetadata chunk.id chunk.startSeconds splitAt chunk.summary).applyContent c))

def adjustContent (prev next : LessonTranscriptChunk) (newBoundary : ℚ) (c : Content) : Content :=
  (Write.updateChunkMetadata next.id newBoundary next.endSeconds next.summary).applyContent
    ((Write.updateChunkMetadata prev.id prev.startSeconds newBoundary prev.summary).applyContent c)

def removeContent (chunkId : UUID) (c : Content) : Content :=
  (Write.deleteLessonTranscriptChunk chunkId).applyContent
    ((Write.deleteLessonInteractionsByChunk chunkId).applyContent c)

def mergeContent (keep discard : LessonTranscriptChunk) (c : Content) : Content :=
  reorder keep.lessonId ((Write.updateChunkMetadata keep.id
    (min keep.startSeconds discard.startSeconds) (max keep.endSeconds discard.endSeconds)
    keep.summary).applyContent (removeContent discard.id c))

def deleteContent (chunk : LessonTranscriptChunk) (c : Content) : Content :=
  reorder chunk.lessonId (removeContent chunk.id c)

variable {G : Env → Prop} {e : Shown} {v : Content} {s : Store}

theorem yields_setOrderIndexes (wrap : DbError → Error) (k : Nat) (ids : List UUID)
    (h : InTx G e v s) :
    Yields G (setOrderIndexes wrap k ids) (fun _ t => InTx G e (setIndexes k ids v) t) s := by
  induction ids generalizing k v s with
  | nil => exact h
  | cons id ids ih =>
    refine Prog.Meets.bind (yields_inTx wrap _ h) ?_
    rintro _ t ⟨env, view, _, _, _, hTx⟩
    exact ih (k + 1) hTx

theorem yields_reorderLessonChunks (wrap : DbError → Error) (lessonID : UUID)
    (h : InTx G e v s) :
    Yields G (reorderLessonChunks wrap lessonID)
      (fun _ t => InTx G e (reorder lessonID v) t) s := by
  refine Prog.Meets.bind (yields_inTx wrap _ h) ?_
  rintro ids t ⟨env, view, _, rfl, hAnswer, hTx⟩
  cases hAnswer
  exact yields_setOrderIndexes wrap 0 _ hTx

end Contents

section Split

/-- The transcripts after a split of `chunk`, whose second part is `row`. -/
def splitTexts (chunk row : LessonTranscriptChunk) (splitAt : ℚ) (e : Shown) :
    UUID → Option String :=
  let segs := (e.segments chunk.lessonId).getD []
  saveIf
    (saveIf e.chunkTranscripts chunk.id (buildChunkTranscript segs chunk.startSeconds splitAt))
    row.id (buildChunkTranscript segs splitAt chunk.endSeconds)

/-- What a successful `Split` does. -/
structure IsSplit (G : Env → Prop) (chunkID : UUID) (splitAt : ℚ)
    (chunk row : LessonTranscriptChunk) (e e' : Shown) : Prop where
  found : e.content.parents.find chunkID = some chunk
  within : chunk.startSeconds < splitAt ∧ splitAt < chunk.endSeconds
  newId : ∃ env, G env ∧ row.id = env.newId 0
  fresh : e.content.parents.find row.id = none
  bounds : row.lessonId = chunk.lessonId ∧ row.startSeconds = splitAt ∧
    row.endSeconds = chunk.endSeconds
  content : e'.content = splitContent chunk row splitAt e.content
  segments : e'.segments = e.segments
  chunkTranscripts : e'.chunkTranscripts = splitTexts chunk row splitAt e

variable {G : Env → Prop} {e : Shown} {v : Content} {s : Store}

theorem find_update_eq_none {id k : UUID} {a b : ℚ} {summary : String}
    (h : ((Write.updateChunkMetadata id a b summary).applyContent v).parents.find k = none) :
    v.parents.find k = none := by
  simpa [Write.applyContent, ForeignKey.updateParents] using h

/-- An insert that succeeds has a new id. -/
theorem answer_insert {p : InsertChunkParams} {env : Env} {view : Lessons.Store}
    {row : LessonTranscriptChunk}
    (h : Query.answer env view (.insertLessonTranscriptChunk p) = .ok row) :
    row = p.row (env.newId 0) ∧ view.content.parents.find (env.newId 0) = none := by
  unfold Query.answer at h
  dsimp only at h
  split at h
  · cases h
  · split at h
    · cases h
    · next hFree =>
      cases h
      exact ⟨rfl, by simpa using hFree⟩

theorem yields_splitInTx (chunksLimit : Nat) (chunk : LessonTranscriptChunk) (splitAt : ℚ)
    (h : InTx G e e.content s) :
    Yields G (splitInTx chunksLimit chunk splitAt) (fun result t => ∃ v,
      (∃ row env, G env ∧ row.id = env.newId 0 ∧ e.content.parents.find row.id = none ∧
        (row.lessonId = chunk.lessonId ∧ row.startSeconds = splitAt ∧
          row.endSeconds = chunk.endSeconds) ∧ result.second.id = row.id ∧
        v = splitContent chunk row splitAt e.content) ∧ InTx G e v t) s := by
  refine Prog.Meets.bind (yields_inTx _ _ h) ?_
  rintro updated t ⟨_, _, _, _, _, hTx⟩
  refine Prog.Meets.bind (yields_inTx _ _ hTx) ?_
  rintro existingChunks t ⟨_, _, _, _, _, hTx⟩
  refine Prog.Meets.bind (yields_inTx _ _ hTx) ?_
  rintro newChunk t ⟨env, view, hG, hView, hAnswer, hTx⟩
  obtain ⟨rfl, hFree⟩ := answer_insert hAnswer
  rw [hView] at hFree
  refine Prog.Meets.bind (yields_reorderLessonChunks _ _ hTx) ?_
  rintro _ t hTx
  refine Prog.Meets.bind (yields_inTx _ _ hTx) ?_
  rintro first t ⟨_, _, _, _, _, hTx⟩
  refine Prog.Meets.bind (yields_inTx _ _ hTx) ?_
  rintro second t ⟨_, view', _, _, hSecond, hTx⟩
  have hFound : view'.content.parents.find (env.newId 0) = some second := one_eq_ok.mp hSecond
  have hFresh : e.content.parents.find (env.newId 0) = none := find_update_eq_none hFree
  exact ⟨_, ⟨InsertChunkParams.row _ (env.newId 0), env, hG, rfl, hFresh, ⟨rfl, rfl, rfl⟩,
    Table.find_key hFound, rfl⟩, hTx⟩

/-- The writes of the transcripts after a transaction. -/
theorem yields_saves {α : Type} {a : α} (id id' : UUID) (text text' : String)
    (h : Reaches G e s) :
    Yields G (do saveUnlessEmpty id text; saveUnlessEmpty id' text'; return a)
      (fun _ t => Reaches G { e with
        chunkTranscripts := saveIf (saveIf e.chunkTranscripts id text) id' text' } t) s := by
  refine Prog.Meets.bind (yields_saveUnlessEmpty id text h) fun _ t h => ?_
  exact Prog.Meets.bind (yields_saveUnlessEmpty id' text' h) fun _ t h => h

theorem yields_split (teacher : UUID → Except Error Unit) (chunksLimit : Nat) (chunkID : UUID)
    (splitAt : ℚ) (h : Reaches G e s) :
    Yields G (split teacher chunksLimit chunkID splitAt)
      (fun _ t => ∃ chunk row e', IsSplit G chunkID splitAt chunk row e e' ∧ Reaches G e' t) s := by
  refine Prog.Meets.bind (yields_getChunk _ _ h) ?_
  rintro chunk t ⟨h, hFound⟩
  refine Prog.Meets.bind (yields_require _ h) ?_
  rintro _ t h
  split
  · trivial
  · next hWithin =>
    refine Prog.Meets.bind (yields_loadSegments _ h) ?_
    rintro allSegs t ⟨h, hSegs⟩
    generalize hFirst : buildChunkTranscript allSegs chunk.startSeconds splitAt = first
    generalize hRest : buildChunkTranscript allSegs splitAt chunk.endSeconds = rest
    refine Prog.Meets.bind
      (yields_withCommitTx h fun t => yields_splitInTx chunksLimit chunk splitAt) ?_
    rintro result t ⟨v, ⟨row, env, hG, hNew, hFree, hBounds, hSecond, rfl⟩, h⟩
    refine (yields_saves chunk.id result.second.id first rest h).mono (fun _ t h => ?_) fun _ => id
    simp only [Bool.or_eq_true, decide_eq_true_eq, not_or, not_le] at hWithin
    refine ⟨chunk, row, ⟨splitContent chunk row splitAt e.content, e.segments,
      splitTexts chunk row splitAt e⟩, ⟨hFound, hWithin, ⟨env, hG, hNew⟩, hFree, hBounds, rfl, rfl,
      rfl⟩, h.1, fun hCalm => ?_⟩
    obtain ⟨hShown, hLive⟩ := h.2 hCalm
    refine ⟨hShown.trans ?_, hLive⟩
    rw [← hFirst, ← hRest, hSegs hCalm, hSecond, splitTexts]

end Split

section AdjustBoundary

/-- The transcripts after an adjustment. -/
def adjustTexts (prev next : LessonTranscriptChunk) (newBoundary : ℚ) (e : Shown) :
    UUID → Option String :=
  let segs := (e.segments prev.lessonId).getD []
  saveIf
    (saveIf e.chunkTranscripts prev.id (buildChunkTranscript segs prev.startSeconds newBoundary))
    next.id (buildChunkTranscript segs newBoundary next.endSeconds)

/-- What a successful `AdjustBoundary` does. -/
structure IsAdjustment (prevID nextID : UUID) (newBoundary : ℚ) (prev next : LessonTranscriptChunk)
    (e e' : Shown) : Prop where
  foundPrev : e.content.parents.find prevID = some prev
  foundNext : e.content.parents.find nextID = some next
  sameLesson : prev.lessonId = next.lessonId
  adjacent : prev.orderIndex + 1 = next.orderIndex
  within : prev.startSeconds < newBoundary ∧ newBoundary < next.endSeconds
  content : e'.content = adjustContent prev next newBoundary e.content
  segments : e'.segments = e.segments
  chunkTranscripts : e'.chunkTranscripts = adjustTexts prev next newBoundary e

variable {G : Env → Prop} {e : Shown} {s : Store}

theorem yields_adjustInTx {prevID nextID : UUID} {prev next : LessonTranscriptChunk}
    (newBoundary : ℚ) (hPrev : e.content.parents.find prevID = some prev)
    (hNext : e.content.parents.find nextID = some next) (h : InTx G e e.content s) :
    Yields G (adjustInTx prevID nextID newBoundary)
      (fun _ t => ∃ v, v = adjustContent prev next newBoundary e.content ∧ InTx G e v t) s := by
  have hPrevId : prev.id = prevID := Table.find_key hPrev
  have hNextId : next.id = nextID := Table.find_key hNext
  refine Prog.Meets.bind (yields_inTx _ _ h) ?_
  rintro currentPrev t ⟨env, view, _, hView, hAnswer, hTx⟩
  have hCurrentPrev : view.content.parents.find prevID = some currentPrev := one_eq_ok.mp hAnswer
  rw [hView, hPrev] at hCurrentPrev
  cases hCurrentPrev
  refine Prog.Meets.bind (yields_inTx _ _ hTx) ?_
  rintro currentNext t ⟨env, view, _, hView, hAnswer, hTx⟩
  have hCurrentNext : view.content.parents.find nextID = some currentNext := one_eq_ok.mp hAnswer
  have hView : view.content = e.content := hView
  rw [hView, hNext] at hCurrentNext
  cases hCurrentNext
  split
  · trivial
  · refine Prog.Meets.bind (yields_inTx _ _ hTx) ?_
    rintro updPrev t ⟨_, _, _, _, _, hTx⟩
    refine Prog.Meets.bind (yields_inTx _ _ hTx) ?_
    rintro updNext t ⟨_, _, _, _, _, hTx⟩
    refine ⟨_, rfl, ?_⟩
    rw [adjustContent, hPrevId, hNextId]
    exact hTx

theorem yields_adjustBoundary (teacher : UUID → Except Error Unit) (prevID nextID : UUID)
    (newBoundary : ℚ) (h : Reaches G e s) :
    Yields G (adjustBoundary teacher prevID nextID newBoundary) (fun _ t => ∃ prev next e',
      IsAdjustment prevID nextID newBoundary prev next e e' ∧ Reaches G e' t) s := by
  refine Prog.Meets.bind (yields_getChunk _ _ h) ?_
  rintro prev t ⟨h, hPrev⟩
  refine Prog.Meets.bind (yields_getChunk _ _ h) ?_
  rintro next t ⟨h, hNext⟩
  split
  · trivial
  · next hLesson =>
    split
    · trivial
    · next hAdjacent =>
      refine Prog.Meets.bind (yields_require _ h) ?_
      rintro _ t h
      split
      · trivial
      · next hWithin =>
        simp only [Bool.or_eq_true, decide_eq_true_eq, not_or, not_le] at hWithin
        refine Prog.Meets.bind (yields_loadSegments _ h) ?_
        rintro allSegs t ⟨h, hSegs⟩
        generalize hFirst : buildChunkTranscript allSegs prev.startSeconds newBoundary = first
        generalize hRest : buildChunkTranscript allSegs newBoundary next.endSeconds = rest
        refine Prog.Meets.bind (yields_withCommitTx h fun t =>
          yields_adjustInTx newBoundary hPrev hNext) ?_
        rintro result t ⟨v, rfl, h⟩
        refine (yields_saves prevID nextID first rest h).mono (fun _ t h => ?_) fun _ => id
        refine ⟨prev, next, ⟨adjustContent prev next newBoundary e.content, e.segments,
          adjustTexts prev next newBoundary e⟩, ⟨hPrev, hNext, not_not.mp hLesson,
          not_not.mp hAdjacent, hWithin, rfl, rfl, rfl⟩, h.1, fun hCalm => ?_⟩
        obtain ⟨hShown, hLive⟩ := h.2 hCalm
        refine ⟨hShown.trans ?_, hLive⟩
        rw [← hFirst, ← hRest, hSegs hCalm, adjustTexts, Table.find_key hPrev,
          Table.find_key hNext]

end AdjustBoundary

section Remove

variable {G : Env → Prop} {e : Shown} {v : Content} {s : Store}

/-- The transcript that `FetchChunkTranscript` returns. -/
def storedText (e : Shown) (chunkId : UUID) : String :=
  trimSpace ((e.chunkTranscripts chunkId).getD "")

def mergedText (keep discard : LessonTranscriptChunk) (e : Shown) : String :=
  if keep.orderIndex < discard.orderIndex then
    storedText e keep.id ++ "\n" ++ storedText e discard.id
  else storedText e discard.id ++ "\n" ++ storedText e keep.id

/-- What a successful `Merge` does. -/
structure IsMerge (keepID discardID : UUID) (keep discard : LessonTranscriptChunk)
    (e e' : Shown) : Prop where
  different : keepID ≠ discardID
  foundKeep : e.content.parents.find keepID = some keep
  foundDiscard : e.content.parents.find discardID = some discard
  sameLesson : keep.lessonId = discard.lessonId
  adjacent : keep.orderIndex = discard.orderIndex + 1 ∨ discard.orderIndex = keep.orderIndex + 1
  content : e'.content = mergeContent keep discard e.content
  segments : e'.segments = e.segments
  chunkTranscripts : e'.chunkTranscripts = Function.update
    (Function.update e.chunkTranscripts keep.id (some (mergedText keep discard e))) discard.id none

/-- What a successful `Delete` does. -/
structure IsDeletion (chunkID : UUID) (chunk : LessonTranscriptChunk) (e e' : Shown) : Prop where
  found : e.content.parents.find chunkID = some chunk
  content : e'.content = deleteContent chunk e.content
  segments : e'.segments = e.segments
  chunkTranscripts : e'.chunkTranscripts = Function.update e.chunkTranscripts chunk.id none

theorem yields_mergeInTx (keep discard : LessonTranscriptChunk) (h : InTx G e e.content s) :
    Yields G (mergeInTx keep discard)
      (fun _ t => ∃ v, v = mergeContent keep discard e.content ∧ InTx G e v t) s := by
  refine Prog.Meets.bind (yields_inTx _ _ h) ?_
  rintro _ t ⟨_, _, _, _, _, hTx⟩
  refine Prog.Meets.bind (yields_inTx _ _ hTx) ?_
  rintro _ t ⟨_, _, _, _, _, hTx⟩
  refine Prog.Meets.bind (yields_inTx _ _ hTx) ?_
  rintro updated t ⟨_, _, _, _, _, hTx⟩
  exact Prog.Meets.bind (yields_reorderLessonChunks _ _ hTx) fun _ t hTx => ⟨_, rfl, hTx⟩

theorem yields_deleteInTx (chunk : LessonTranscriptChunk) (h : InTx G e e.content s) :
    Yields G (deleteInTx chunk)
      (fun _ t => ∃ v, v = deleteContent chunk e.content ∧ InTx G e v t) s := by
  refine Prog.Meets.bind (yields_inTx _ _ h) ?_
  rintro _ t ⟨_, _, _, _, _, hTx⟩
  refine Prog.Meets.bind (yields_inTx _ _ hTx) ?_
  rintro _ t ⟨_, _, _, _, _, hTx⟩
  exact (yields_reorderLessonChunks _ _ hTx).mono (fun _ t hTx => ⟨_, rfl, hTx⟩) fun _ => id

theorem yields_internal {α : Type} {x : Handler α} {ok : α → Store → Prop} (text : String)
    (h : Yields G x ok s) : Yields G (internal text x) ok s := h.tryCatch _

theorem yields_delete (teacher : UUID → Except Error Unit) (chunkID : UUID)
    (h : Reaches G e s) :
    Yields G (delete teacher chunkID)
      (fun _ t => ∃ chunk e', IsDeletion chunkID chunk e e' ∧ Reaches G e' t) s := by
  refine Prog.Meets.bind (yields_getChunk _ _ h) ?_
  rintro chunk t ⟨h, hFound⟩
  refine Prog.Meets.bind (yields_require _ h) ?_
  rintro _ t h
  refine Prog.Meets.bind
    (yields_internal _ (yields_withCommitTx h fun t => yields_deleteInTx chunk)) ?_
  rintro _ t ⟨v, rfl, h⟩
  refine (yields_deleteChunkTranscript chunkID h).mono (fun _ t h => ?_) fun _ => id
  refine ⟨chunk, ⟨deleteContent chunk e.content, e.segments,
    Function.update e.chunkTranscripts chunkID none⟩, ⟨hFound, rfl, rfl, ?_⟩, h⟩
  rw [Table.find_key hFound]

/-- A write to FoundationDB whose error is looked at. -/
theorem yields_checked {o : Lessons.Op} {f : Shown → Shown}
    (hContent : ∀ env c r c', Lessons.exec 0 env o c = some (r, c') → c'.content = c.content ∧
      (Calm env → c.cancelled 0 = false → shown c' = f (shown c) ∧ c'.cancelled 0 = false))
    (hf : ∀ c, (f c).content = c.content) (h : Reaches G e s) :
    Yields G (checked o) (fun
      | .ok _, t => Reaches G (f e) t
      | .error _, _ => True) s := by
  refine (Prog.meets_perform _).mpr ⟨trivial, ?_⟩
  rintro (err | a) t ⟨env, hG, hExec⟩
  · trivial
  · simp only [exec] at hExec
    split at hExec
    · cases hExec
    · obtain ⟨⟨r', c⟩, hBase, hEq⟩ := Option.map_eq_some_iff.mp hExec
      cases hEq
      obtain ⟨hSame, hEffect⟩ := hContent env _ _ _ hBase
      refine ⟨(hSame.trans h.1).trans (hf e).symm, fun hCalm => ?_⟩
      obtain ⟨rfl, hLive⟩ := h.2 hCalm
      exact hEffect (hCalm env hG) hLive

theorem yields_merge (teacher : UUID → Except Error Unit) (keepID discardID : UUID)
    (h : Reaches G e s) :
    Yields G (merge teacher keepID discardID)
      (fun _ t => ∃ keep discard e', IsMerge keepID discardID keep discard e e' ∧ Reaches G e' t)
      s := by
  unfold merge
  split
  · trivial
  · next hNe =>
    refine Prog.Meets.bind (yields_getChunk _ _ h) ?_
    rintro keep t ⟨h, hKeep⟩
    refine Prog.Meets.bind (yields_require _ h) ?_
    rintro _ t h
    refine Prog.Meets.bind (yields_getChunk _ _ h) ?_
    rintro discard t ⟨h, hDiscard⟩
    split
    · trivial
    · next hLesson =>
      split
      · trivial
      · next hAdjacent =>
        refine Prog.Meets.bind (yields_fetchChunkTranscript _ h) ?_
        rintro keepTranscript t ⟨h, hKeepText⟩
        refine Prog.Meets.bind (yields_fetchChunkTranscript _ h) ?_
        rintro discardTranscript t ⟨h, hDiscardText⟩
        generalize hMerged : (if keep.orderIndex < discard.orderIndex then
          keepTranscript ++ "\n" ++ discardTranscript
          else discardTranscript ++ "\n" ++ keepTranscript) = merged
        refine Prog.Meets.bind (yields_checked (f := fun e => { e with
          chunkTranscripts := Function.update e.chunkTranscripts keepID (some merged) })
          exec_saveChunkTranscript (fun _ => rfl) h) ?_
        rintro (err | _) t h
        · trivial
        · refine Prog.Meets.bind (yields_internal _ (yields_withCommitTx h fun t =>
            yields_mergeInTx keep discard)) ?_
          rintro result t ⟨v, rfl, h⟩
          refine Prog.Meets.bind (yields_deleteChunkTranscript discardID h) fun _ t h => ?_
          simp only [Bool.and_eq_true, decide_eq_true_eq, not_and_or, not_not] at hAdjacent
          refine ⟨keep, discard, ⟨mergeContent keep discard e.content, e.segments,
            Function.update (Function.update e.chunkTranscripts keep.id
              (some (mergedText keep discard e))) discard.id none⟩, ⟨hNe, hKeep, hDiscard,
            not_not.mp hLesson, hAdjacent, rfl, rfl, rfl⟩, h.1, fun hCalm => ?_⟩
          obtain ⟨hShown, hLive⟩ := h.2 hCalm
          refine ⟨hShown.trans ?_, hLive⟩
          rw [← hMerged, hKeepText hCalm, hDiscardText hCalm, Table.find_key hKeep,
            Table.find_key hDiscard, mergedText, storedText, storedText, Table.find_key hKeep,
            Table.find_key hDiscard]

end Remove

section UpdateSegment

/-- The segments after an edit of one's text. -/
def editedSegments (segmentIndex : Int) (text : String) (segs : List Segment) : List Segment :=
  segs.modify segmentIndex.toNat fun seg => { seg with text := text }

/-- The transcripts after those of `chunks` have been built again. -/
def rebuiltTexts (segs : List Segment) (chunks : List LessonTranscriptChunk)
    (texts : UUID → Option String) : UUID → Option String :=
  saveAll (fun c => buildChunkTranscript segs c.startSeconds c.endSeconds) chunks texts

/-- What a successful `UpdateSegment` does. -/
structure IsSegmentUpdate (lessonOpsLimit : Nat) (lessonID : UUID) (segmentIndex : Int)
    (text : String) (segs : List Segment) (e e' : Shown) : Prop where
  loaded : segs = (e.segments lessonID).getD []
  index : 0 ≤ segmentIndex ∧ segmentIndex < segs.length
  content : e'.content = e.content
  segments : e'.segments =
    Function.update e.segments lessonID (some (editedSegments segmentIndex text segs))
  chunkTranscripts : e'.chunkTranscripts = rebuiltTexts (editedSegments segmentIndex text segs)
    (Lessons.listLessonTranscriptChunks lessonID lessonOpsLimit e.content).val e.chunkTranscripts

variable {G : Env → Prop} {e : Shown} {s : Store}

theorem yields_saveTranscript (lessonID : UUID) (text : String) (h : Reaches G e s) :
    Yields G (ignore (.saveTranscript lessonID text)) (fun _ t => Reaches G e t) s := by
  refine yields_ignore (f := fun e => e) ?_ (fun _ => rfl) h
  intro env c r c' hExec
  cases hExec
  exact ⟨rfl, fun hCalm hLive => ⟨rfl, by simp [Lessons.Store.touch, hLive, hCalm.cancel]⟩⟩

theorem exec_saveSegments {lessonID : UUID} {segs : List Segment} (env : Env) (c : Lessons.Store)
    (r : Unit) (c' : Lessons.Store)
    (h : Lessons.exec 0 env (.saveSegments lessonID segs) c = some (r, c')) :
    c'.content = c.content ∧ (Calm env → c.cancelled 0 = false →
      shown c' = { shown c with
        segments := Function.update (shown c).segments lessonID (some segs) } ∧
      c'.cancelled 0 = false) := by
  cases h
  refine ⟨rfl, fun hCalm hLive => ⟨?_, by simp [Lessons.Store.touch, hLive, hCalm.cancel]⟩⟩
  simp [shown, Lessons.writeKv, hCalm.kvFails, Lessons.Store.touch]

/-- The list of the chunks, which is only missing when the statement fails. -/
theorem yields_listChunks (lessonID : UUID) (limit : Nat) (h : Reaches G e s) :
    Yields G (base (.pg (.listLessonTranscriptChunks lessonID limit))) (fun r t => Reaches G e t ∧
      ((∀ env, G env → Calm env) →
        r = .ok (Lessons.listLessonTranscriptChunks lessonID limit e.content))) s := by
  refine yields_base (o := .pg (.listLessonTranscriptChunks lessonID limit)) (f := fun e => e)
    (P := fun e r => r = .ok (Lessons.listLessonTranscriptChunks lessonID limit e.content)) ?_
    (fun _ => rfl) h
  intro env c r c' hExec
  refine ⟨?_, fun hCalm hLive => ?_⟩
  · obtain ⟨err, _, rfl⟩ | ⟨_, hQuery⟩ := Lessons.exec_pg hExec
    · rfl
    · cases hQuery
      rfl
  · have hTouched : (c.touch 0 env).cancelled 0 = false := by
      simp [Lessons.Store.touch, hLive, hCalm.cancel]
    simp only [Lessons.exec, hTouched, hCalm.failure, Lessons.Query.exec] at hExec
    cases hExec
    exact ⟨rfl, hTouched, rfl⟩

theorem chunkTranscriptWrites_cons (segs : List Segment) (c : LessonTranscriptChunk)
    (cs : List LessonTranscriptChunk) :
    chunkTranscriptWrites segs (c :: cs) =
      (if buildChunkTranscript segs c.startSeconds c.endSeconds ≠ "" then
        [.saveChunkTranscript c.id (buildChunkTranscript segs c.startSeconds c.endSeconds)]
      else []) ++ chunkTranscriptWrites segs cs := by
  unfold chunkTranscriptWrites
  generalize hText : buildChunkTranscript segs c.startSeconds c.endSeconds = text
  rw [List.filter_cons]
  simp only [hText]
  by_cases hEmpty : text = "" <;> simp [hEmpty, hText]

theorem yields_rebuilt (segs : List Segment) (chunks : List LessonTranscriptChunk)
    (h : Reaches G e s) :
    Yields G (ignoreAll (chunkTranscriptWrites segs chunks)) (fun _ t => Reaches G
      { e with chunkTranscripts := rebuiltTexts segs chunks e.chunkTranscripts } t) s := by
  induction chunks generalizing e s with
  | nil => exact h
  | cons c cs ih =>
    rw [chunkTranscriptWrites_cons, rebuiltTexts, saveAll, List.foldl_cons]
    generalize buildChunkTranscript segs c.startSeconds c.endSeconds = text
    by_cases hEmpty : text = ""
    · have hSame : saveIf e.chunkTranscripts c.id text = e.chunkTranscripts := by
        simp [saveIf, hEmpty]
      rw [if_neg (not_not.mpr hEmpty), hSame]
      exact ih h
    · have hSaved : saveIf e.chunkTranscripts c.id text =
          Function.update e.chunkTranscripts c.id (some text) := by
        simp [saveIf, hEmpty]
      rw [if_pos hEmpty, hSaved]
      exact Prog.Meets.bind (yields_saveChunkTranscript c.id text h) fun _ t h => ih h

theorem yields_updateSegment (teacher : UUID → Except Error Unit) (lessonOpsLimit : Nat)
    (lessonID : UUID) (segmentIndex : Int) (text : String) (h : Reaches G e s) :
    Yields G (updateSegment teacher lessonOpsLimit lessonID segmentIndex text)
      (fun _ t => ∃ segs e', e'.content = e.content ∧ ((∀ env, G env → Calm env) →
        IsSegmentUpdate lessonOpsLimit lessonID segmentIndex text segs e e') ∧ Reaches G e' t)
      s := by
  refine Prog.Meets.bind (yields_require _ h) ?_
  rintro _ t h
  refine Prog.Meets.bind (yields_loadSegments _ h) ?_
  rintro loaded t ⟨h, hLoaded⟩
  split
  · trivial
  · split
    · trivial
    · next hIndex =>
      simp only [Bool.or_eq_true, decide_eq_true_eq, not_or, not_lt, not_le] at hIndex
      have hf : ∀ e : Shown, ({ e with
          segments := Function.update e.segments lessonID
            (some (editedSegments segmentIndex text loaded)) } : Shown).content = e.content :=
        fun _ => rfl
      refine Prog.Meets.bind (yields_checked exec_saveSegments hf h) ?_
      rintro (err | _) t h
      · trivial
      · refine Prog.Meets.bind (yields_saveTranscript _ _ h) ?_
        rintro _ t h
        refine Prog.Meets.bind (yields_listChunks _ _ h) ?_
        rintro (err | chunks) t ⟨h, hList⟩
        · refine ⟨loaded, _, ?_, fun hCalm => absurd (hList hCalm) nofun, h⟩
          rfl
        · refine Prog.Meets.bind (yields_rebuilt _ _ h) fun _ t h => ?_
          refine ⟨loaded, ⟨e.content, _, rebuiltTexts (editedSegments segmentIndex text loaded)
            chunks.val e.chunkTranscripts⟩, rfl, fun hCalm => ?_, h⟩
          cases hList hCalm
          exact ⟨hLoaded hCalm, hIndex, rfl, rfl, rfl⟩

end UpdateSegment

end Richter.Chunkops
