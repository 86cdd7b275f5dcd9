import Richter.Chunkops.Effects
import Richter.Lessons.Transcribe

/-! What `RunChunk` has done when it succeeds, no other request runs at the same time and no access
to a store fails. -/

namespace Richter.Chunkops

open Lib
open Lessons (AiCfg ChunkProposal Content Env Exec LessonTranscriptChunk SavedChunks Segment
  TaskEnv chunkTranscript chunksOf)

/-- The transcripts after those of the chunks have been deleted. -/
def clearAll (ids : List UUID) (texts : UUID → Option String) : UUID → Option String :=
  ids.foldl (fun texts id => Function.update texts id none) texts

/-- What a successful `RunChunk` does with the proposals. -/
structure IsChunking (limit : Nat) (lessonID : UUID) (text : String) (chunks : List ChunkProposal)
    (saved : SavedChunks) (e e' : Shown) : Prop where
  inserted : ∃ lesson newId,
    Lessons.saveChunks lesson lessonID limit chunks newId e.content = .ok (saved, e'.content)
  segments : e'.segments = e.segments
  chunkTranscripts : e'.chunkTranscripts =
    saveAll (chunkTranscript text ((e.segments lessonID).getD [])) saved.chunks
      (clearAll saved.staleChunkIDs e.chunkTranscripts)

/-- The store shows `e`, and the context is not cancelled. -/
def At (e : Shown) (s : Lessons.Store) : Prop := shown s = e ∧ s.cancelled 0 = false

/-- The program ends with `ok` when it succeeds. -/
abbrev Does {α : Type} (G : Env → Prop) (x : Exec α) (ok : α → Lessons.Store → Prop)
    (s : Lessons.Store) : Prop :=
  Prog.Meets (fun o s r t => ∃ env, G env ∧ Lessons.exec 0 env o s = some (r, t))
    (fun _ _ => True) x ok (fun _ => True) s

section Rules

variable {α β : Type} {G : Env → Prop} {e : Shown} {s : Lessons.Store}

theorem does_ignore {o : Lessons.Op} {mid : o.Resp → Lessons.Store → Prop}
    {ok : Unit → Lessons.Store → Prop} (h : Does G (Lessons.perform o) mid s)
    (hOk : ∀ r t, mid r t → ok () t) : Does G (Lessons.ignore o) ok s :=
  Prog.Meets.bind h fun r t ht => hOk r t ht

theorem At.touch {env : Env} (hCalm : Calm env) (h : At e s) : At e (s.touch 0 env) :=
  ⟨h.1, by simp [Lessons.Store.touch, h.2, hCalm.cancel]⟩

variable (hG : ∀ env, G env → Calm env)

include hG

theorem does_loadTranscript (lessonID : UUID) (h : At e s) :
    Does G (Lessons.perform (.loadTranscript lessonID)) (fun _ t => At e t) s := by
  refine (Prog.meets_perform _).mpr ⟨trivial, ?_⟩
  rintro r t ⟨env, hEnv, hExec⟩
  cases hExec
  exact h.touch (hG env hEnv)

theorem does_loadSegments (lessonID : UUID) (h : At e s) :
    Does G (Lessons.perform (.loadSegments lessonID))
      (fun segs t => segs = (e.segments lessonID).getD [] ∧ At e t) s := by
  refine (Prog.meets_perform _).mpr ⟨trivial, ?_⟩
  rintro r t ⟨env, hEnv, hExec⟩
  cases hExec
  obtain ⟨rfl, _⟩ := id h
  refine ⟨?_, h.touch (hG env hEnv)⟩
  rw [Lessons.readKv, (hG env hEnv).kvFails]
  rfl

theorem does_chunk (text : String) (segs : List Segment) (language : String) (h : At e s) :
    Does G (Lessons.perform (.chunk text segs language))
      (fun r t => (∃ env, G env ∧ env.proposals = r) ∧ At e t) s := by
  refine (Prog.meets_perform _).mpr ⟨trivial, ?_⟩
  rintro r t ⟨env, hEnv, hExec⟩
  cases hExec
  exact ⟨⟨env, hEnv, rfl⟩, h.touch (hG env hEnv)⟩

/-- A query that succeeds in a calm environment. -/
theorem does_query {q : Lessons.Query} {ok : Except DbError q.Result → Lessons.Store → Prop}
    (h : At e s) (hq : ∀ env u r t, G env → At e u → q.exec 0 env u = some (r, t) → ok r t) :
    Does G (Lessons.query q) ok s := by
  refine (Prog.meets_perform _).mpr ⟨trivial, ?_⟩
  rintro r t ⟨env, hEnv, hExec⟩
  have hTouched : At e (s.touch 0 env) := h.touch (hG env hEnv)
  simp only [Lessons.exec, hTouched.2, (hG env hEnv).failure] at hExec
  exact hq env _ r t hEnv hTouched hExec

theorem does_getLessonByID (lessonID : UUID) (h : At e s) :
    Does G (Lessons.query (.getLessonByID lessonID)) (fun _ t => At e t) s := by
  refine does_query hG h ?_
  rintro env u r t _ hu hExec
  cases hExec
  exact hu

theorem does_progress (env : TaskEnv) (step : String) (current total : Int) (msg : String)
    (h : At e s) : Does G (env.progress step current total msg) (fun _ t => At e t) s := by
  have hQuery : Does G (Lessons.query (.updateTaskProgress env.taskID
      (Lessons.effectiveProgressStep step env.stageLabel) current total msg))
        (fun _ t => At e t) s := by
    refine does_query hG h ?_
    rintro env u r t _ hu hExec
    cases hExec
    exact hu
  exact does_ignore hQuery fun _ _ => id

theorem does_saveChunks (lessonID : UUID) (limit : Nat) (chunks : List ChunkProposal)
    (h : At e s) : Does G (Lessons.query (.saveChunks lessonID limit chunks)) (fun r t =>
      ∀ saved, r = .ok saved → ∃ lesson newId content,
        Lessons.saveChunks lesson lessonID limit chunks newId e.content = .ok (saved, content) ∧
          At { e with content := content } t) s := by
  refine does_query hG h ?_
  rintro env u r t _ ⟨rfl, hLive⟩ hExec saved rfl
  unfold Lessons.Query.exec at hExec
  dsimp only at hExec
  split at hExec
  · cases hExec
  · next saved' content hSaved =>
    cases hExec
    exact ⟨_, _, content, hSaved, rfl, hLive⟩

theorem does_deleteChunkTranscripts (ids : List UUID) (h : At e s) :
    Does G (Lessons.ignoreAll (ids.map .deleteChunkTranscript)) (fun _ t =>
      At { e with chunkTranscripts := clearAll ids e.chunkTranscripts } t) s := by
  induction ids generalizing e s with
  | nil => exact h
  | cons id ids ih =>
    have hDelete : Does G (Lessons.ignore (.deleteChunkTranscript id)) (fun _ t => At { e with
        chunkTranscripts := Function.update e.chunkTranscripts id none } t) s := by
      refine (Prog.meets_perform _).mpr ⟨trivial, ?_⟩
      rintro r t ⟨env, hEnv, hExec⟩
      cases hExec
      obtain ⟨rfl, hLive⟩ := h
      refine ⟨?_, by simp [Lessons.Store.touch, hLive, (hG env hEnv).cancel]⟩
      simp [shown, Lessons.writeKv, (hG env hEnv).kvFails, Lessons.Store.touch]
    exact Prog.Meets.bind hDelete fun _ t h => ih h

theorem does_saveChunkTranscript (id : UUID) (text : String) (h : At e s) :
    Does G (Lessons.ignore (.saveChunkTranscript id text)) (fun _ t => At { e with
      chunkTranscripts := Function.update e.chunkTranscripts id (some text) } t) s := by
  refine (Prog.meets_perform _).mpr ⟨trivial, ?_⟩
  rintro r t ⟨env, hEnv, hExec⟩
  obtain ⟨_, hEffect⟩ := exec_saveChunkTranscript env s r t hExec
  obtain ⟨rfl, hLive⟩ := h
  exact hEffect (hG env hEnv) hLive

theorem does_saveAll (text : LessonTranscriptChunk → String) (chunks : List LessonTranscriptChunk)
    (h : At e s) :
    Does G (Lessons.ignoreAll ((chunks.filter fun c => text c ≠ "").map fun c =>
      .saveChunkTranscript c.id (text c))) (fun _ t =>
        At { e with chunkTranscripts := saveAll text chunks e.chunkTranscripts } t) s := by
  induction chunks generalizing e s with
  | nil => exact h
  | cons c cs ih =>
    rw [saveAll, List.foldl_cons, List.filter_cons]
    by_cases hEmpty : text c = ""
    · have hSame : saveIf e.chunkTranscripts c.id (text c) = e.chunkTranscripts := by
        simp [saveIf, hEmpty]
      rw [if_neg (by simpa using hEmpty), hSame]
      exact ih h
    · have hSaved : saveIf e.chunkTranscripts c.id (text c) =
          Function.update e.chunkTranscripts c.id (some (text c)) := by
        simp [saveIf, hEmpty]
      rw [if_pos (by simpa using hEmpty), hSaved]
      exact Prog.Meets.bind (does_saveChunkTranscript hG c.id (text c) h) fun _ t h => ih h

theorem does_saveProposals (cfg : AiCfg) (env : TaskEnv) (lessonID : UUID) (text : String)
    (chunks : List ChunkProposal) (h : At e s) :
    Does G (Lessons.saveProposals cfg env lessonID text ((e.segments lessonID).getD []) chunks)
      (fun _ t => ∃ saved e', IsChunking cfg.chunksLimit lessonID text chunks saved e e' ∧ At e' t)
      s := by
  refine Prog.Meets.bind (does_progress hG env _ _ _ _ h) fun _ t h => ?_
  refine Prog.Meets.bind (does_saveChunks hG lessonID cfg.chunksLimit chunks h) ?_
  rintro (err | saved) t hSaved
  · trivial
  · obtain ⟨lesson, newId, content, hInserted, h⟩ := hSaved saved rfl
    refine Prog.Meets.bind (does_deleteChunkTranscripts hG saved.staleChunkIDs h) fun _ t h => ?_
    refine (does_saveAll hG _ saved.chunks h).mono (fun _ t h => ?_) fun _ => id
    exact ⟨saved, ⟨content, e.segments, _⟩, ⟨⟨lesson, newId, hInserted⟩, rfl, rfl⟩, h⟩

theorem does_runChunk (cfg : AiCfg) (env : TaskEnv) (lessonID : UUID) (h : At e s) :
    Does G (Lessons.runChunk cfg env lessonID) (fun _ t => ∃ w text chunks saved e', G w ∧
      w.proposals = .ok chunks ∧ IsChunking cfg.chunksLimit lessonID text chunks saved e e' ∧
        At e' t) s := by
  refine Prog.Meets.bind (does_loadTranscript hG lessonID h) fun text t h => ?_
  split
  · trivial
  · split
    · trivial
    · refine Prog.Meets.bind (does_loadSegments hG lessonID h) ?_
      rintro _ t ⟨rfl, h⟩
      refine Prog.Meets.bind (does_loadSegments hG lessonID h) ?_
      rintro _ t ⟨rfl, h⟩
      refine Prog.Meets.bind (does_getLessonByID hG lessonID h) fun lesson t h => ?_
      refine Prog.Meets.bind (does_progress hG env _ _ _ _ h) fun _ t h => ?_
      refine Prog.Meets.bind (does_chunk hG _ _ _ h) ?_
      rintro proposals t ⟨⟨w, hw, rfl⟩, h⟩
      split
      · trivial
      · trivial
      · next chunks _ hProposals =>
        refine (does_saveProposals hG cfg env lessonID text _ h).mono ?_ fun _ => id
        rintro _ t ⟨saved, e', hChunking, h⟩
        exact ⟨w, text, chunks, saved, e', hw, hProposals, hChunking, h⟩

end Rules

end Richter.Chunkops
