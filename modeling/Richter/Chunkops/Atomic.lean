import Richter.Chunkops.Effects
import Richter.Chunkops.Spans

/-! What a merge whose transaction fails leaves behind: Postgres takes the transaction back, and
FoundationDB keeps the transcript that was written before it. -/

namespace Richter.Chunkops

open Lib
open Lessons (Env LessonTranscriptChunk trimSpace)
open Handler (base checked ignore inTx require)

abbrev Event := Prog.Event Op Op.Resp

/-- The transaction of the request has begun, or was about to. -/
def Begun (h : List Event) : Prop := ∃ e ∈ h, e.op = .begin

instance (h : List Event) : Decidable (Begun h) :=
  inferInstanceAs (Decidable (∃ e ∈ h, e.op = .begin))

/-- What `FetchChunkTranscript` answers when the environment is `env`. -/
def fetched (env : Env) (c : Lessons.Store) (id : UUID) : String :=
  trimSpace ((Lessons.readKv env (c.chunkTranscripts id)).getD "")

/-- The text that `Merge` writes. -/
def joined (keep discard : LessonTranscriptChunk) (keepText discardText : String) : String :=
  if keep.orderIndex < discard.orderIndex then keepText ++ "\n" ++ discardText
  else discardText ++ "\n" ++ keepText

/-- The record of the chunk that is kept is the text that the call writes, as it reads the two
transcripts in its third and fourth operation. -/
def AlreadyMerged (envs : List Env) (keepID discardID : UUID) (c : Lessons.Store) : Prop :=
  ∃ keep discard env env', c.content.parents.find keepID = some keep ∧
    c.content.parents.find discardID = some discard ∧ envs[2]? = some env ∧ envs[3]? = some env' ∧
    c.chunkTranscripts keepID =
      some (joined keep discard (fetched env c keepID) (fetched env' c discardID))

/-- The chunks with their interactions, and the transcripts of two chunks, are as they were. -/
structure Restored (keepID discardID : UUID) (c c' : Lessons.Store) : Prop where
  content : c'.content = c.content
  keep : c'.chunkTranscripts keepID = c.chunkTranscripts keepID
  discard : c'.chunkTranscripts discardID = c.chunkTranscripts discardID

section Rules

variable {α β : Type} {envs : List Env} {c : Lessons.Store} {texts : UUID → Option String} {n : Nat}
  {x : Store × List Event}

/-- An operation of a request with the choices `envs`. -/
abbrev Logs (envs : List Env) := Prog.Logged (exec 0) envs

/-- After `n` operations, none in a transaction, the content is that of `c` and the transcripts are
`texts`. -/
structure Before (c : Lessons.Store) (texts : UUID → Option String) (n : Nat)
    (x : Store × List Event) : Prop where
  content : x.1.committed.content = c.content
  texts : x.1.committed.chunkTranscripts = texts
  length : x.2.length = n
  notBegun : ¬Begun x.2

/-- The request ends with `ok` when it succeeds, and with `err` when it fails. -/
abbrev Attempts (envs : List Env) (x : Handler α) (ok : α → Store × List Event → Prop)
    (err : Store × List Event → Prop) (s : Store × List Event) : Prop :=
  Prog.Meets (Logs envs) (fun _ _ => True) x ok err s

theorem not_begun_append {h : List Event} {o : Op} {r : o.Resp} (hNot : ¬Begun h)
    (ho : o ≠ .begin) : ¬Begun (h ++ [⟨o, r⟩]) := by
  intro ⟨e, he, hOp⟩
  rcases List.mem_append.mp he with he | he
  · exact hNot ⟨e, he, hOp⟩
  · rw [List.mem_singleton.mp he] at hOp
    exact ho hOp

/-- A read outside of a transaction. -/
theorem attempts_base {o : Lessons.Op} {err : Store × List Event → Prop}
    (hRead : ∀ env s r s', Lessons.exec 0 env o s = some (r, s') →
      s'.content = s.content ∧ s'.chunkTranscripts = s.chunkTranscripts)
    (h : Before c texts n x) :
    Attempts envs (base o) (fun r y => Before c texts (n + 1) y ∧ ∃ env s s', envs[n]? = some env ∧
      s.content = c.content ∧ s.chunkTranscripts = texts ∧ Lessons.exec 0 env o s = some (r, s'))
      err x := by
  refine (Prog.meets_perform _).mpr ⟨trivial, ?_⟩
  intro r y ⟨⟨env, hEnv, hExec⟩, hEvents⟩
  obtain ⟨⟨r', s'⟩, hBase, hEq⟩ := Option.map_eq_some_iff.mp hExec
  rw [Prod.mk.injEq] at hEq
  obtain ⟨rfl, hStore⟩ := hEq
  obtain ⟨hContent, hTexts⟩ := hRead env _ _ _ hBase
  rw [h.length] at hEnv
  refine ⟨⟨?_, ?_, ?_, ?_⟩, env, _, s', hEnv, h.content, h.texts, hBase⟩
  · rw [← hStore]
    exact hContent.trans h.content
  · rw [← hStore]
    exact hTexts.trans h.texts
  · rw [hEvents, List.length_append, h.length]
    rfl
  · rw [hEvents]
    exact not_begun_append h.notBegun nofun

theorem attempts_getChunk (missing : Error) (id : UUID) (h : Before c texts n x) :
    Attempts envs (getChunk missing id)
      (fun q y => Before c texts (n + 1) y ∧ c.content.parents.find id = some q)
      (fun y => ¬Begun y.2) x := by
  refine (Prog.meets_bind _).mpr ((attempts_base (o := .pg (.getLessonTranscriptChunk id)) ?_
    h).mono (fun r y hRead => ?_) fun _ => fun h => h)
  · intro env s r s' hExec
    obtain ⟨err, _, rfl⟩ | ⟨_, hQuery⟩ := Lessons.exec_pg hExec
    · exact ⟨rfl, rfl⟩
    · cases hQuery
      exact ⟨rfl, rfl⟩
  · obtain ⟨hAfter, env, s, s', _, hContent, _, hExec⟩ := hRead
    split
    · next q =>
      obtain ⟨err, hErr, _⟩ | ⟨_, hQuery⟩ := Lessons.exec_pg hExec
      · cases hErr
      · simp only [Lessons.Query.exec, Option.some.injEq, Prod.mk.injEq] at hQuery
        refine ⟨hAfter, ?_⟩
        rw [← hContent]
        exact one_eq_ok.mp hQuery.1
    · exact hAfter.notBegun
    · exact hAfter.notBegun

theorem attempts_fetchChunkTranscript (id : UUID) {err : Store × List Event → Prop}
    (h : Before c texts n x) :
    Attempts envs (base (.fetchChunkTranscript id))
      (fun text y => Before c texts (n + 1) y ∧ ∃ env, envs[n]? = some env ∧
        text = trimSpace ((Lessons.readKv env (texts id)).getD "")) err x := by
  refine (attempts_base (o := .fetchChunkTranscript id) ?_ h).mono (fun r y hRead => ?_) fun _ =>
    fun h => h
  · intro env s r s' hExec
    cases hExec
    exact ⟨rfl, rfl⟩
  · obtain ⟨hAfter, env, s, s', hEnv, _, hTexts, hExec⟩ := hRead
    cases hExec
    refine ⟨hAfter, env, hEnv, ?_⟩
    rw [← hTexts]
    rfl

/-- The write before the transaction, after which the transcript is the new one. -/
theorem attempts_saveChunkTranscript (id : UUID) (text : String) {err : Store × List Event → Prop}
    (h : Before c texts n x) :
    Attempts envs (checked (.saveChunkTranscript id text)) (fun
      | .ok _, y => Before c (Function.update texts id (some text)) (n + 1) y
      | .error _, y => ¬Begun y.2) err x := by
  refine (Prog.meets_perform _).mpr ⟨trivial, ?_⟩
  intro r y ⟨⟨env, _, hExec⟩, hEvents⟩
  have hNot : ¬Begun y.2 := by
    rw [hEvents]
    exact not_begun_append h.notBegun nofun
  cases r with
  | error e => exact hNot
  | ok u =>
    simp only [exec] at hExec
    split at hExec
    · cases hExec
    · next hKv =>
      obtain ⟨⟨r', s'⟩, hBase, hEq⟩ := Option.map_eq_some_iff.mp hExec
      rw [Prod.mk.injEq] at hEq
      obtain ⟨_, hStore⟩ := hEq
      cases hBase
      refine ⟨?_, ?_, by rw [hEvents, List.length_append, h.length]; rfl, hNot⟩
      · rw [← hStore]
        exact h.content
      · rw [← hStore]
        show Lessons.writeKv env x.1.committed.chunkTranscripts id (some text) = _
        rw [Lessons.writeKv, if_neg hKv, h.texts]

/-- What the transaction leaves of a state until it commits. -/
def Unchanged (c : Lessons.Store) (texts : UUID → Option String) (x : Store × List Event) : Prop :=
  x.1.committed.content = c.content ∧ x.1.committed.chunkTranscripts = texts

theorem unchanged_rollback (h : Unchanged c texts x) :
    (Prog.perform Op.rollback : Prog Op Op.Resp Unit).Ensures (Logs envs) (fun _ _ => True)
      (fun _ y => Unchanged c texts y) x := by
  refine ⟨trivial, ?_⟩
  intro r y ⟨⟨env, _, hExec⟩, _⟩
  have hStore : y.1 = x.1.rollback 0 := by
    cases hFailure : env.failure <;> simp_all [exec]
  show y.1.committed.content = _ ∧ y.1.committed.chunkTranscripts = _
  rw [hStore]
  exact h

theorem unchanged_inTx {wrap : DbError → Error} {q : Query} (h : Unchanged c texts x) :
    Attempts envs (inTx wrap q) (fun _ y => Unchanged c texts y) (Unchanged c texts) x := by
  refine (Prog.meets_perform_bind _).mpr ⟨trivial, ?_⟩
  intro r y ⟨⟨env, _, hExec⟩, _⟩
  obtain ⟨err, rfl, hStore⟩ | ⟨a, rfl, _, hCommitted, _⟩ := exec_tx hExec
  · show y.1.committed.content = _ ∧ y.1.committed.chunkTranscripts = _
    rw [hStore]
    exact h
  · show y.1.committed.content = _ ∧ y.1.committed.chunkTranscripts = _
    rw [hCommitted]
    exact h

theorem unchanged_setOrderIndexes {wrap : DbError → Error} (k : Nat) (ids : List UUID)
    (h : Unchanged c texts x) :
    Attempts envs (setOrderIndexes wrap k ids) (fun _ y => Unchanged c texts y)
      (Unchanged c texts) x := by
  induction ids generalizing k x with
  | nil => exact h
  | cons id ids ih =>
    exact (unchanged_inTx h).bind (fun _ _ h => ih (k + 1) h)

theorem unchanged_mergeInTx (keep discard : LessonTranscriptChunk) (h : Unchanged c texts x) :
    Attempts envs (mergeInTx keep discard) (fun _ y => Unchanged c texts y)
      (Unchanged c texts) x := by
  refine (unchanged_inTx h).bind (fun _ y h => ?_)
  refine (unchanged_inTx h).bind (fun _ y h => ?_)
  refine (unchanged_inTx h).bind (fun updated y h => ?_)
  refine Prog.Meets.bind
    (?_ : Attempts envs _ (fun _ y => Unchanged c texts y) _ y)
    (fun _ _ h => h)
  refine (unchanged_inTx h).bind (fun ids y h => ?_)
  exact unchanged_setOrderIndexes 0 ids h

/-- A transaction that fails leaves the content and the transcripts as they are. -/
theorem attempts_withCommitTx {f : Handler α} (h : Unchanged c texts x)
    (hf : ∀ y, Unchanged c texts y →
      Attempts envs f (fun _ z => Unchanged c texts z) (Unchanged c texts) y) :
    Attempts envs (withCommitTx f) (fun _ _ => True) (Unchanged c texts) x := by
  refine Prog.Ensures.withCommit ⟨trivial, ?_⟩
  rintro r y ⟨⟨env, _, hExec⟩, _⟩
  have hBegun : Unchanged c texts y := by
    have hCommitted : y.1.committed = x.1.committed := by
      cases hFailure : env.failure <;> simp_all [exec]
      all_goals rw [← hExec.2]; rfl
    unfold Unchanged
    rw [hCommitted]
    exact h
  cases r with
  | error e => exact hBegun
  | ok u =>
    refine (hf y hBegun).mono (fun a z hBody => ?_) fun z hBody => unchanged_rollback hBody
    refine ⟨trivial, ?_⟩
    rintro r z' ⟨⟨env', _, hCommit⟩, _⟩
    cases r with
    | ok u => trivial
    | error e =>
      refine unchanged_rollback ?_
      have hStore : z'.1 = z.1.rollback 0 := by
        cases hFailure : env'.failure <;> simp_all [exec]
      show z'.1.committed.content = _ ∧ z'.1.committed.chunkTranscripts = _
      rw [hStore]
      exact hBody

end Rules

/-- The content is that of `c`, and so are the transcripts but for the one that a merge writes
before its transaction. -/
def Overwritten (envs : List Env) (keepID discardID : UUID) (c : Lessons.Store)
    (x : Store × List Event) : Prop :=
  keepID ≠ discardID ∧ ∃ keep discard env env', c.content.parents.find keepID = some keep ∧
    c.content.parents.find discardID = some discard ∧ envs[2]? = some env ∧ envs[3]? = some env' ∧
    Unchanged c (Function.update c.chunkTranscripts keepID
      (some (joined keep discard (fetched env c keepID) (fetched env' c discardID)))) x

/-- A merge that fails after its transaction has begun leaves only what it has written before. -/
theorem attempts_merge (envs : List Env) (teacher : UUID → Except Error Unit)
    {keepID discardID : UUID} {c : Lessons.Store} {x : Store × List Event}
    (h : Before c c.chunkTranscripts 0 x) :
    Attempts envs (merge teacher keepID discardID) (fun _ _ => True)
      (fun y => Begun y.2 → Overwritten envs keepID discardID c y) x := by
  have hEarly : ∀ y : Store × List Event, ¬Begun y.2 → Begun y.2 →
      Overwritten envs keepID discardID c y := fun y hNot hBegun => absurd hBegun hNot
  unfold merge
  split
  · exact hEarly x h.notBegun
  · next hNe =>
    refine (Prog.meets_bind _).mpr ((attempts_getChunk _ keepID h).mono
      (fun keep y ⟨h, hKeep⟩ => ?_) hEarly)
    refine (Prog.meets_bind _).mpr (Prog.Meets.mono
      (?_ : Attempts envs _ (fun _ y => Before c c.chunkTranscripts 1 y) (fun y => ¬Begun y.2) y)
      (fun _ y h => ?_) hEarly)
    · cases teacher keep.lessonId with
      | ok u => exact h
      | error e => exact h.notBegun
    refine (Prog.meets_bind _).mpr ((attempts_getChunk _ discardID h).mono
      (fun discard y ⟨h, hDiscard⟩ => ?_) hEarly)
    split
    · exact hEarly y h.notBegun
    split
    · exact hEarly y h.notBegun
    refine (attempts_fetchChunkTranscript keepID h).bind
      (fun keepText y ⟨h, env, hEnv, hKeepText⟩ => ?_)
    refine (attempts_fetchChunkTranscript discardID h).bind
      (fun discardText y ⟨h, env', hEnv', hDiscardText⟩ => ?_)
    refine (attempts_saveChunkTranscript keepID
      (joined keep discard keepText discardText) h).bind (fun saved y hSaved => ?_)
    cases saved with
    | error e => exact hEarly y hSaved
    | ok u =>
      have hStart : Unchanged c (Function.update c.chunkTranscripts keepID
          (some (joined keep discard keepText discardText))) y := ⟨hSaved.content, hSaved.texts⟩
      refine (Prog.meets_bind _).mpr (((attempts_withCommitTx hStart fun z hz =>
        unchanged_mergeInTx keep discard hz).tryCatch _).mono (fun merged z _ => ?_)
        fun z hUnchanged _ => ⟨hNe, keep, discard, env, env', hKeep, hDiscard, hEnv, hEnv', ?_⟩)
      · exact ⟨trivial, fun _ _ _ => trivial⟩
      · rw [hKeepText, hDiscardText] at hUnchanged
        exact hUnchanged

/-- After a merge whose transaction has failed, everything is as it was if and only if the
transcript that it had written before was there already. -/
theorem merge_restores_iff {teacher : UUID → Except Error Unit} {keepID discardID : UUID}
    {envs : List Env} {s s' : Store} {e : Error} {h : List Event}
    (hLog : (merge teacher keepID discardID).run.log (exec 0) envs s = some (.error e, s', h))
    (hBegun : Begun h) :
    Restored keepID discardID s.committed s'.committed ↔
      AlreadyMerged envs keepID discardID s.committed := by
  have hStart : Before s.committed s.committed.chunkTranscripts 0 (s, []) :=
    ⟨rfl, rfl, rfl, fun ⟨_, he, _⟩ => nomatch he⟩
  have hEnd := Prog.Ensures.of_log [] (attempts_merge envs teacher hStart) rfl
    hLog
  obtain ⟨hNe, keep, discard, env, env', hKeep, hDiscard, hEnv, hEnv', hContent, hTexts⟩ :=
    hEnd hBegun
  dsimp only at hContent hTexts
  constructor
  · intro hRestored
    refine ⟨keep, discard, env, env', hKeep, hDiscard, hEnv, hEnv', ?_⟩
    rw [← hRestored.keep, hTexts, Function.update_self]
  · intro ⟨keep', discard', w, w', hKeep', hDiscard', hw, hw', hText⟩
    rw [hKeep] at hKeep'
    rw [hDiscard] at hDiscard'
    rw [hEnv] at hw
    rw [hEnv'] at hw'
    cases hKeep'
    cases hDiscard'
    cases hw
    cases hw'
    refine ⟨hContent, ?_, ?_⟩
    · rw [hTexts, Function.update_self, hText]
    · rw [hTexts, Function.update_of_ne hNe.symm]

/-- Two adjacent chunks with transcripts. -/
def withTexts (keepText : String) (discardText : Option String) : Store :=
  .quiet (lectureWith (.ofList [⟨30, 10, 0, 0, 10, "intro", 1⟩, ⟨31, 10, 1, 10, 20, "proof", 1⟩])
    [] fun id => if id = 30 then some keepText else discardText)

/-- The commit of a merge fails. -/
def commitFails : List Env :=
  List.replicate 11 calm ++ [{ calm with failure := some (.other "conn closed") }, calm]

theorem merge_restores_iff_blank :
    ∃ e s' h, (merge (fun _ => .ok ()) 30 31).run.log (exec 0) commitFails
      (withTexts "push\n" none) = some (.error e, s', h) ∧
      Restored 30 31 (withTexts "push\n" none).committed s'.committed := by
  have hRun : ((merge (fun _ => .ok ()) 30 31).run.log (exec 0) commitFails
      (withTexts "push\n" none)).any (fun (r, _, h) => r.isOk = false && decide (Begun h)) =
        true := by
    decide +kernel
  obtain ⟨⟨r, s', h⟩, hLog, hEnd⟩ := (Option.any_eq_true _ _).mp hRun
  cases r with
  | ok a => cases hEnd
  | error e =>
    have hBegun : Begun h := of_decide_eq_true hEnd
    exact ⟨e, s', h, hLog, (merge_restores_iff hLog hBegun).mpr ⟨⟨30, 10, 0, 0, 10, "intro", 1⟩,
      ⟨31, 10, 1, 10, 20, "proof", 1⟩, calm, calm, rfl, rfl, rfl, rfl, by decide +kernel⟩⟩

/-- The transcript of a chunk ends up with the words of both, which are still there. -/
theorem commitFails_leaves_merged :
    ∃ e s' h, (merge (fun _ => .ok ()) 30 31).run.log (exec 0) commitFails
      (withTexts "push" (some "pop")) = some (.error e, s', h) ∧ Begun h ∧
      s'.committed.content.parents.rows.length = 2 ∧
      s'.committed.chunkTranscripts 30 = some "push\npop" ∧
      ¬Restored 30 31 (withTexts "push" (some "pop")).committed s'.committed := by
  have hRun : ((merge (fun _ => .ok ()) 30 31).run.log (exec 0) commitFails
      (withTexts "push" (some "pop"))).any (fun (r, s', h) => r.isOk = false && decide (Begun h) &&
        s'.committed.content.parents.rows.length = 2 &&
        s'.committed.chunkTranscripts 30 = some "push\npop") = true := by
    decide +kernel
  obtain ⟨⟨r, s', h⟩, hLog, hEnd⟩ := (Option.any_eq_true _ _).mp hRun
  simp only [Bool.and_eq_true, decide_eq_true_eq] at hEnd
  cases r with
  | ok a => exact absurd hEnd.1.1.1 nofun
  | error e =>
    refine ⟨e, s', h, hLog, hEnd.1.1.2, hEnd.1.2, hEnd.2, fun hRestored => ?_⟩
    have hSame := hRestored.keep
    rw [hEnd.2] at hSame
    revert hSame
    decide

end Richter.Chunkops
