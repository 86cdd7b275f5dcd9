import Richter.Lessons.Working

/-! A run of `generation.Service.Run` for the whole lesson without force, which is to fill the empty
chunks only: what it adds, and that it adds nothing else when it overlooks no chunk. -/

namespace Richter.Lessons

open Lib

/-- The transcript of a chunk, as `FetchChunkTranscript` returns it when it can read. -/
def Store.chunkTranscript (s : Store) (chunkID : UUID) : String :=
  trimSpace ((s.chunkTranscripts chunkID).getD "")

/-- The outcome of a listing of interactions. -/
def listingFails : Prog.Event Op Op.Resp → Option Bool
  | ⟨.pg (.listLessonInteractions ..), .error _⟩ => some true
  | ⟨.pg (.listLessonInteractions ..), .ok _⟩ => some false
  | _ => none

/-- The skip check, which is the first listing of a run, has failed. -/
def skipCheckFails (h : History) : Bool := (h.findSome? listingFails).getD false

/-- The chunks that the skip check finds. -/
def skippedChunks (cfg : AiCfg) (lessonID : UUID) (fails : Bool) (c : Content) : List UUID :=
  if fails then []
  else (listLessonInteractions lessonID cfg.interactionsLimit c).filterMap (·.chunkId)

/-- A chunk that is neither skipped nor without a transcript. -/
structure Open (s : Store) (skip : List UUID) (chunkID : UUID) : Prop where
  transcript : trimSpace (s.chunkTranscript chunkID) ≠ ""
  kept : chunkID ∉ skip

/-- A run comes to its loop, and there to a chunk that has interactions. -/
structure Overlooks (i : Nat) (cfg : AiCfg) (lessonID : UUID) (fails : Bool) (s : Store) :
    Prop where
  live : s.cancelled i = false
  lesson : (s.lessons.find lessonID).isSome = true
  chunk : ∃ chunk ∈ (listLessonTranscriptChunks lessonID cfg.chunksLimit s.content).val,
    interactionsOf chunk.id s.content ≠ [] ∧
      Open s (skippedChunks cfg lessonID fails s.content) chunk.id

/-- The chunks that have interactions keep them, and any other gets one batch at most. -/
structure FillsEmpty (s t : Store) : Prop where
  keeps : ∀ id, interactionsOf id s.content ≠ [] →
    interactionsOf id t.content = interactionsOf id s.content
  fills : ∃ added, t.batches = s.batches ++ added ∧ ∀ id, interactionsOf id s.content = [] →
    (added.filter fun b => b.chunkId = id).length ≤ 1 ∧
      interactionsOf id t.content = (added.filter fun b => b.chunkId = id).flatMap Batch.rows

/-- An operation of the generation that saves nothing. -/
def Op.observes : Op → Bool
  | .pg (.listLessonTranscriptChunks ..) | .pg (.getLessonByID _)
  | .pg (.listLessonInteractions ..) | .pg (.updateTaskProgress ..) | .fetchChunkTranscript _
  | .generateForChunk .. | .ctxErr => true
  | _ => false

/-- The tables and the records that a generation reads. -/
structure SameLessons (s t : Store) : Prop where
  lessons : t.lessons = s.lessons
  content : t.content = s.content
  chunkTranscripts : t.chunkTranscripts = s.chunkTranscripts
  batches : t.batches = s.batches

/-- A batch is saved for a chunk behind what there is. -/
structure AppendsBatch (chunkID : UUID) (rows : List LessonInteraction) (s t : Store) : Prop where
  chunkTranscripts : t.chunkTranscripts = s.chunkTranscripts
  batches : t.batches = s.batches ++ [⟨chunkID, rows⟩]
  parents : t.content.parents = s.content.parents
  children : t.content.children.rows = s.content.children.rows ++ rows
  chunk : ∀ r ∈ rows, r.chunkId = some chunkID

section Operations

variable {i : Nat} {w : Env} {s t : Store} {lessonID chunkID : UUID}

theorem exec_observes {o : Op} {r : o.Resp} (ho : o.observes = true)
    (h : exec i w o s = some (r, t)) :
    SameLessons s t ∧ t.cancelled = (s.touch i w).cancelled := by
  cases o with
  | pg q =>
    obtain ⟨e, rfl, rfl⟩ | ⟨_, hExec⟩ := exec_pg h
    · exact ⟨⟨rfl, rfl, rfl, rfl⟩, rfl⟩
    · cases q with
      | listLessonTranscriptChunks | getLessonByID | listLessonInteractions
      | updateTaskProgress =>
        cases hExec
        exact ⟨⟨rfl, rfl, rfl, rfl⟩, rfl⟩
      | _ => cases ho
  | fetchChunkTranscript | generateForChunk | ctxErr =>
    cases h
    exact ⟨⟨rfl, rfl, rfl, rfl⟩, rfl⟩
  | _ => cases ho

/-- A save fails, or appends a batch. -/
theorem exec_save {items : List GeneratedItem} {r : Except DbError (List LessonInteraction)}
    (h : exec i w (.pg (.saveInteractionsForChunk lessonID chunkID items false)) s =
      some (r, t)) :
    t.cancelled = (s.touch i w).cancelled ∧ ((∃ e, r = .error e ∧ SameLessons s t) ∨
      ∃ rows, r = .ok rows ∧ rows.length = items.length ∧ AppendsBatch chunkID rows s t) := by
  obtain ⟨e, rfl, rfl⟩ | ⟨_, hExec⟩ := exec_pg h
  · exact ⟨rfl, .inl ⟨e, rfl, rfl, rfl, rfl, rfl⟩⟩
  · unfold Query.exec at hExec
    dsimp only at hExec
    split at hExec
    · cases hExec
      exact ⟨rfl, .inl ⟨_, rfl, rfl, rfl, rfl, rfl⟩⟩
    · next rows content hSave =>
      cases hExec
      obtain ⟨hParents, hRows, hLength, hChunk⟩ := saveInteractionsForChunk_spec hSave
      exact ⟨rfl, .inr ⟨rows, rfl, hLength, rfl, rfl, hParents, hRows,
        fun r hr => (hChunk r hr).1⟩⟩

/-- A query of a thread whose context is not done has its effect. -/
theorem exec_pg_ok {q : Query} {a : q.Result} (h : exec i w (.pg q) s = some (.ok a, t)) :
    s.cancelled i = false ∧ q.exec i w (s.touch i w) = some (.ok a, t) := by
  obtain ⟨e, hError, _⟩ | ⟨hLive, hExec⟩ := exec_pg h
  · cases hError
  · refine ⟨?_, hExec⟩
    rw [Store.touch_cancelled_self, Bool.or_eq_false_iff] at hLive
    exact hLive.1

theorem listed_of_exec {limit : Nat} {chunks : ChunkList}
    (h : exec i w (.pg (.listLessonTranscriptChunks lessonID limit)) s = some (.ok chunks, t)) :
    s.cancelled i = false ∧ chunks = listLessonTranscriptChunks lessonID limit s.content := by
  obtain ⟨hLive, hExec⟩ := exec_pg_ok h
  cases hExec
  exact ⟨hLive, rfl⟩

theorem found_of_exec {lesson : Lesson}
    (h : exec i w (.pg (.getLessonByID lessonID)) s = some (.ok lesson, t)) :
    s.lessons.find lessonID = some lesson := by
  obtain ⟨_, hExec⟩ := exec_pg_ok h
  have hOne : one (s.lessons.find lessonID) = .ok lesson :=
    congrArg Prod.fst (Option.some.inj hExec)
  cases hFind : s.lessons.find lessonID with
  | none => rw [hFind] at hOne; cases hOne
  | some l => rw [hFind] at hOne; cases hOne; rfl

theorem interactions_of_exec {limit : Nat} {rows : List LessonInteraction}
    (h : exec i w (.pg (.listLessonInteractions lessonID limit)) s = some (.ok rows, t)) :
    rows = listLessonInteractions lessonID limit s.content := by
  obtain ⟨_, hExec⟩ := exec_pg_ok h
  cases hExec
  rfl

theorem fetched_of_exec {text : String}
    (h : exec i w (.fetchChunkTranscript chunkID) s = some (text, t)) :
    text = "" ∨ text = s.chunkTranscript chunkID := by
  cases h
  unfold readKv
  split
  · exact .inl trimSpace_empty
  · exact .inr rfl

end Operations

/-- What a run with the skip set `skip` has added when it has come to the chunks `seen`. -/
structure Filled (s : Store) (fails : Bool) (skip seen : List UUID) (x : Store × History) :
    Prop where
  checked : x.2.findSome? listingFails = some fails
  chunkTranscripts : x.1.chunkTranscripts = s.chunkTranscripts
  added : ∃ added, x.1.batches = s.batches ++ added ∧
    x.1.content.children.rows = s.content.children.rows ++ added.flatMap Batch.rows ∧
    (added.map Batch.chunkId).Sublist seen ∧
    ∀ b ∈ added, Open s skip b.chunkId ∧ ∀ r ∈ b.rows, r.chunkId = some b.chunkId

theorem findSome_concat {h : History} {fails : Bool}
    (hFound : h.findSome? listingFails = some fails) (e : Prog.Event Op Op.Resp) :
    (h ++ [e]).findSome? listingFails = some fails := by
  rw [List.findSome?_append, hFound, Option.some_or]

section Fill

variable {i : Nat} {w : Env} {ws : List Env} {s : Store} {fails : Bool} {skip seen : List UUID}
  {x y : Store × History} {lessonID : UUID}

theorem Filled.mono {seen' : List UUID} (hF : Filled s fails skip seen x)
    (hSeen : seen.Sublist seen') : Filled s fails skip seen' x := by
  obtain ⟨added, hBatches, hRows, hChunks, hAll⟩ := hF.added
  exact ⟨hF.checked, hF.chunkTranscripts, added, hBatches, hRows, hChunks.trans hSeen, hAll⟩

theorem Filled.same {o : Op} {r : o.Resp} (hF : Filled s fails skip seen x)
    (hSame : SameLessons x.1 y.1) (hEvents : y.2 = x.2 ++ [⟨o, r⟩]) :
    Filled s fails skip seen y := by
  obtain ⟨added, hBatches, hRows, hChunks, hAll⟩ := hF.added
  refine ⟨hEvents ▸ findSome_concat hF.checked _, hSame.chunkTranscripts.trans hF.chunkTranscripts,
    added, hSame.batches.trans hBatches, ?_, hChunks, hAll⟩
  rw [hSame.content]
  exact hRows

theorem Filled.observes {o : Op} {r : o.Resp} (hF : Filled s fails skip seen x)
    (ho : o.observes = true) (hStep : Prog.Logged (exec i) ws o x r y) :
    Filled s fails skip seen y := by
  obtain ⟨⟨w, _, hExec⟩, hEvents⟩ := hStep
  exact hF.same (exec_observes ho hExec).1 hEvents

/-- A text that is not blank has been read from the record of the chunk. -/
theorem Filled.transcript {chunkID : UUID} {text : String} (hF : Filled s fails skip seen x)
    (hStep : Prog.Logged (exec i) ws (.fetchChunkTranscript chunkID) x text y)
    (hText : trimSpace text ≠ "") : trimSpace (s.chunkTranscript chunkID) ≠ "" := by
  obtain ⟨⟨w, _, hExec⟩, _⟩ := hStep
  obtain rfl | rfl := fetched_of_exec hExec
  · exact absurd trimSpace_empty hText
  · rwa [Store.chunkTranscript, hF.chunkTranscripts] at hText

theorem Filled.save {chunkID : UUID} {items : List GeneratedItem}
    {r : Except DbError (List LessonInteraction)} (hF : Filled s fails skip seen x)
    (hOpen : Open s skip chunkID)
    (hStep : Prog.Logged (exec i) ws
      (.pg (.saveInteractionsForChunk lessonID chunkID items false)) x r y) :
    Filled s fails skip (seen ++ [chunkID]) y := by
  obtain ⟨⟨w, _, hExec⟩, hEvents⟩ := hStep
  obtain ⟨_, ⟨e, _, hSame⟩ | ⟨rows, _, _, hNew⟩⟩ := exec_save hExec
  · exact (hF.same hSame hEvents).mono (List.sublist_append_left ..)
  · obtain ⟨added, hBatches, hRows, hChunks, hAll⟩ := hF.added
    refine ⟨hEvents ▸ findSome_concat hF.checked _,
      hNew.chunkTranscripts.trans hF.chunkTranscripts, added ++ [⟨chunkID, rows⟩], ?_, ?_, ?_, ?_⟩
    · rw [hNew.batches, hBatches, List.append_assoc]
    · rw [hNew.children, hRows]
      simp
    · rw [List.map_append]
      exact hChunks.append (List.Sublist.refl _)
    · rw [List.forall_mem_append]
      exact ⟨hAll, fun b hb => List.mem_singleton.mp hb ▸ ⟨hOpen, hNew.chunk⟩⟩

/-- The program ends with `ok` or `err`, whatever the operations `ws` of the environment are. -/
abbrev Goes {α : Type} (i : Nat) (ws : List Env) (e : Exec α) (ok : α → Store × History → Prop)
    (err : Store × History → Prop) (x : Store × History) : Prop :=
  Prog.Meets (Prog.Logged (exec i) ws) (fun _ _ => True) e ok err x

variable {β : Type}

/-- An operation that saves nothing. -/
theorem goes_observe_bind {o : Op} {f : o.Resp → Exec β} {ok : β → Store × History → Prop}
    {err : Store × History → Prop} (ho : o.observes = true) (hF : Filled s fails skip seen x)
    (hf : ∀ r y, Filled s fails skip seen y → Goes i ws (f r) ok err y) :
    Goes i ws (perform o >>= f) ok err x :=
  (Prog.meets_perform_bind o).mpr ⟨trivial, fun r y hStep => hf r y (hF.observes ho hStep)⟩

variable {g : Generation} {options : GenerateOptions}

theorem goes_send {ok : Unit → Store × History → Prop} {err : Store × History → Prop}
    (hF : Filled s fails skip seen x) (step msg : String) (k : Nat)
    (hOk : ∀ y, Filled s fails skip seen y → ok () y) : Goes i ws (g.send step msg k) ok err x :=
  goes_observe_bind rfl hF fun _ y hy => hOk y hy

theorem saveItems_fills {chunk : LessonTranscriptChunk}
    (hForce : g.req.forceRegenerate = false) (hOpen : Open s skip chunk.id)
    (hF : Filled s fails skip seen x) (tally : Tally) (k : Nat) (items : List GeneratedItem) :
    Goes i ws (saveItems g lessonID tally k chunk items)
      (fun _ => Filled s fails skip (seen ++ [chunk.id])) (fun _ => False) x := by
  unfold saveItems
  rw [hForce]
  refine (Prog.meets_perform_bind _).mpr ⟨trivial, fun r y hStep => ?_⟩
  have hSaved := hF.save hOpen hStep
  cases r with
  | error e =>
    refine goes_observe_bind rfl hSaved fun done z hz => ?_
    cases done with
    | true => exact hz
    | false => exact (Prog.meets_bind _).mpr (goes_send hz _ _ _ fun _ => id)
  | ok rows => exact (Prog.meets_bind _).mpr (goes_send hSaved _ _ _ fun _ => id)

theorem fillChunk_fills {chunk : LessonTranscriptChunk}
    (hForce : g.req.forceRegenerate = false) (hKept : chunk.id ∉ skip)
    (hF : Filled s fails skip seen x) (tally : Tally) (k : Nat) :
    Goes i ws (fillChunk g lessonID tally k chunk)
      (fun _ => Filled s fails skip (seen ++ [chunk.id])) (fun _ => False) x := by
  have hPass : ∀ y, Filled s fails skip seen y → Filled s fails skip (seen ++ [chunk.id]) y :=
    fun y hy => hy.mono (List.sublist_append_left ..)
  unfold fillChunk
  refine (Prog.meets_perform_bind _).mpr ⟨trivial, fun text y hStep => ?_⟩
  have hRead := hF.observes rfl hStep
  split
  · exact (Prog.meets_bind _).mpr (goes_send hRead _ _ _ hPass)
  · next hText =>
    refine goes_observe_bind rfl hRead fun r z hz => ?_
    rcases r with e | _ | ⟨item, items⟩
    · refine goes_observe_bind rfl hz fun done u hu => ?_
      cases done with
      | true => exact hPass u hu
      | false => exact (Prog.meets_bind _).mpr (goes_send hu _ _ _ hPass)
    · exact hPass z hz
    · exact saveItems_fills hForce ⟨hF.transcript hStep hText, hKept⟩ hz tally k (item :: items)

theorem generateChunk_fills {chunk : LessonTranscriptChunk} (hReq : g.req = ⟨none, false, options⟩)
    (hF : Filled s fails g.chunkHasInteractions seen x) (tally : Tally) (k : Nat) :
    Goes i ws (generateChunk g lessonID tally k chunk)
      (fun _ => Filled s fails g.chunkHasInteractions (seen ++ [chunk.id])) (fun _ => False) x := by
  have hPass : ∀ y, Filled s fails g.chunkHasInteractions seen y →
      Filled s fails g.chunkHasInteractions (seen ++ [chunk.id]) y :=
    fun y hy => hy.mono (List.sublist_append_left ..)
  unfold generateChunk
  refine goes_observe_bind rfl hF fun done y hy => ?_
  cases done with
  | true => exact hPass y hy
  | false =>
    split
    · next hDone => cases hDone
    · split
      · exact (Prog.meets_bind _).mpr (goes_send hy _ _ _ hPass)
      · next hSkip =>
        have hKept : chunk.id ∉ g.chunkHasInteractions := fun hIn => hSkip (by
          simp [hReq, GenerateInteractionsRequest.fills, hIn])
        exact fillChunk_fills (by rw [hReq]) hKept hy tally k

theorem generateChunks_fills (hReq : g.req = ⟨none, false, options⟩)
    (hF : Filled s fails g.chunkHasInteractions seen x) (tally : Tally) (k : Nat)
    (chunks : List LessonTranscriptChunk) :
    Goes i ws (generateChunks g lessonID k tally chunks)
      (fun _ => Filled s fails g.chunkHasInteractions
        (seen ++ chunks.map LessonTranscriptChunk.id)) (fun _ => False) x := by
  induction chunks generalizing k tally seen x with
  | nil =>
    unfold generateChunks
    rw [List.map_nil, List.append_nil]
    exact hF
  | cons chunk chunks ih =>
    have hSeen : seen ++ (chunk :: chunks).map LessonTranscriptChunk.id =
        seen ++ [chunk.id] ++ chunks.map LessonTranscriptChunk.id := by simp
    rw [hSeen]
    unfold generateChunks
    refine Prog.Meets.bind (generateChunk_fills hReq hF tally k) ?_
    rintro (_ | tally') y hy
    · exact hy.mono (List.sublist_append_left ..)
    · exact ih hy tally' (k + 1)

theorem concludeGeneration_observes (tally : Tally) :
    Performs (fun o => o.observes = true) (concludeGeneration g lessonID tally) := by
  have hSend : ∀ step msg k, Performs (fun o => o.observes = true) (g.send step msg k) :=
    fun _ _ _ => performs_ignore rfl
  unfold concludeGeneration
  split
  · split
    · exact performs_throw _
    · unfold hasExistingInteractions
      refine performs_bind ?_ fun existing => ?_
      · split
        · refine performs_bind (performs_perform rfl) ?_
          rintro (e | existing) <;> exact performs_pure _
        · exact performs_pure _
      · split <;> exact hSend _ _ _
  · exact hSend _ _ _

/-- What a run may come to: it has not saved anything, or it has filled chunks. -/
def Outcome (i : Nat) (cfg : AiCfg) (lessonID : UUID) (s : Store) (x : Store × History) : Prop :=
  SameLessons s x.1 ∨ s.cancelled i = false ∧ (s.lessons.find lessonID).isSome = true ∧
    ∃ fails, Filled s fails (skippedChunks cfg lessonID fails s.content)
      ((listLessonTranscriptChunks lessonID cfg.chunksLimit s.content).val.map
        LessonTranscriptChunk.id) x

theorem SameLessons.trans {t u : Store} (h : SameLessons s t) (h' : SameLessons t u) :
    SameLessons s u :=
  ⟨h'.lessons.trans h.lessons, h'.content.trans h.content,
    h'.chunkTranscripts.trans h.chunkTranscripts, h'.batches.trans h.batches⟩

/-- The skip check, of a run that has saved nothing yet. -/
theorem chunksWithInteractions_fills {cfg : AiCfg} (hSame : SameLessons s x.1)
    (hEvents : x.2.findSome? listingFails = none) :
    Goes i ws (chunksWithInteractions cfg lessonID ⟨none, false, options⟩)
      (fun has y => ∃ fails, has = skippedChunks cfg lessonID fails s.content ∧
        Filled s fails has [] y) (fun _ => False) x := by
  have hStart : ∀ {fails skip y} {e : Prog.Event Op Op.Resp}, SameLessons x.1 y.1 →
      y.2 = x.2 ++ [e] → listingFails e = some fails → Filled s fails skip [] y := by
    intro fails skip y e hNext hConcat hThis
    have hAll := hSame.trans hNext
    refine ⟨?_, hAll.chunkTranscripts, [], ?_, ?_, .slnil, nofun⟩
    · rw [hConcat, List.findSome?_append, hEvents]
      simp [hThis]
    · rw [hAll.batches, List.append_nil]
    · rw [hAll.content]
      simp
  unfold chunksWithInteractions
  rw [if_pos (by rfl)]
  refine (Prog.meets_perform_bind _).mpr ⟨trivial, fun r y hStep => ?_⟩
  obtain ⟨⟨w, _, hExec⟩, hConcat⟩ := hStep
  obtain ⟨hNext, _⟩ := exec_observes rfl hExec
  cases r with
  | error e => exact ⟨true, rfl, hStart hNext hConcat rfl⟩
  | ok rows =>
    refine ⟨false, ?_, hStart hNext hConcat rfl⟩
    rw [skippedChunks, if_neg (by decide), ← hSame.content, interactions_of_exec hExec]

theorem generationRun_fills (cfg : AiCfg) (env : TaskEnv) :
    Goes i ws (generationRun cfg env lessonID ⟨none, false, options⟩)
      (fun _ => Outcome i cfg lessonID s) (Outcome i cfg lessonID s) (s, []) := by
  have hRefl : SameLessons s s := ⟨rfl, rfl, rfl, rfl⟩
  unfold generationRun loadTargetChunks
  refine (Prog.meets_bind _).mpr ((Prog.meets_perform_bind _).mpr ⟨trivial, fun r y hStep => ?_⟩)
  obtain ⟨⟨w, _, hExec⟩, hConcat⟩ := hStep
  obtain ⟨hSame, _⟩ := exec_observes rfl hExec
  cases r with
  | error e => exact .inl hSame
  | ok chunks =>
    obtain ⟨hLive, rfl⟩ := listed_of_exec hExec
    refine (Prog.meets_pure _).mpr ?_
    split
    · exact .inl hSame
    · refine (Prog.meets_perform_bind _).mpr ⟨trivial, fun r z hStep => ?_⟩
      obtain ⟨⟨w', _, hExec'⟩, hConcat'⟩ := hStep
      obtain ⟨hSame', _⟩ := exec_observes rfl hExec'
      have hBoth := hSame.trans hSame'
      cases r with
      | error e => exact .inl hBoth
      | ok lesson =>
        have hLesson : (s.lessons.find lessonID).isSome = true := by
          rw [← hSame.lessons, found_of_exec hExec']
          rfl
        have hNone : z.2.findSome? listingFails = none := by
          rw [hConcat', hConcat]
          rfl
        refine (Prog.meets_bind _).mpr (Prog.Meets.mono
          (chunksWithInteractions_fills hBoth hNone) ?_ fun _ => False.elim)
        rintro _ u ⟨fails, rfl, hStart⟩
        refine (Prog.meets_bind _).mpr (Prog.Meets.mono (generateChunks_fills rfl hStart {} 0 _) ?_
          fun _ => False.elim)
        have hEnd : ∀ v, Filled s fails (skippedChunks cfg lessonID fails s.content)
            ([] ++ (listLessonTranscriptChunks lessonID cfg.chunksLimit s.content).val.map
              LessonTranscriptChunk.id) v → Outcome i cfg lessonID s v :=
          fun v hv => .inr ⟨hLive, hLesson, fails, hv⟩
        rintro (_ | tally) v hv
        · exact hEnd v hv
        · exact Prog.Meets.mono (Prog.Performs.meets (concludeGeneration_observes tally)
            (fun _ _ _ _ => trivial) (fun o x r y ho hI hStep => hI.observes ho hStep) hv)
            (fun _ => hEnd) hEnd

theorem filter_flatMap_rows {added : List Batch}
    (hRows : ∀ b ∈ added, ∀ r ∈ b.rows, r.chunkId = some b.chunkId) (id : UUID) :
    ((added.flatMap Batch.rows).filter fun r => r.chunkId = some id) =
      (added.filter fun b => b.chunkId = id).flatMap Batch.rows := by
  induction added with
  | nil => rfl
  | cons b added ih =>
    rw [List.forall_mem_cons] at hRows
    rw [List.flatMap_cons, List.filter_append, ih hRows.2]
    by_cases hId : b.chunkId = id
    · have hAll : (b.rows.filter fun r => r.chunkId = some id) = b.rows :=
        List.filter_eq_self.mpr fun r hr => by simp [hRows.1 r hr, hId]
      rw [hAll, List.filter_cons_of_pos (by simpa using hId), List.flatMap_cons]
    · have hNone : (b.rows.filter fun r => r.chunkId = some id) = [] :=
        List.filter_eq_nil_iff.mpr fun r hr => by simp [hRows.1 r hr, hId]
      rw [hNone, List.nil_append, List.filter_cons_of_neg (by simpa using hId)]

theorem Filled.interactionsOf_eq {added : List Batch}
    (hRows : x.1.content.children.rows = s.content.children.rows ++ added.flatMap Batch.rows)
    (hAll : ∀ b ∈ added, ∀ r ∈ b.rows, r.chunkId = some b.chunkId) (id : UUID) :
    interactionsOf id x.1.content = interactionsOf id s.content ++
      (added.filter fun b => b.chunkId = id).flatMap Batch.rows := by
  unfold interactionsOf
  rw [hRows, List.filter_append, filter_flatMap_rows hAll]

/-- A run that overlooks no chunk fills the empty ones only. -/
theorem Outcome.fillsEmpty {cfg : AiCfg} (hO : Outcome i cfg lessonID s x)
    (hNot : ¬Overlooks i cfg lessonID (skipCheckFails x.2) s) : FillsEmpty s x.1 := by
  obtain hSame | ⟨hLive, hLesson, fails, hF⟩ := hO
  · refine ⟨fun id _ => by rw [hSame.content], [], ?_, fun id hEmpty => ⟨Nat.zero_le 1, ?_⟩⟩
    · rw [hSame.batches, List.append_nil]
    · rw [hSame.content, hEmpty]
      rfl
  · obtain ⟨added, hBatches, hRows, hChunks, hAll⟩ := hF.added
    have hFails : skipCheckFails x.2 = fails := by
      rw [skipCheckFails, hF.checked]
      rfl
    rw [hFails] at hNot
    have hOf := Filled.interactionsOf_eq hRows fun b hb => (hAll b hb).2
    refine ⟨fun id hHas => ?_, added, hBatches, fun id hEmpty => ⟨?_, ?_⟩⟩
    · have hNone : (added.filter fun b => b.chunkId = id) = [] := by
        refine List.filter_eq_nil_iff.mpr fun b hb hId => hNot ⟨hLive, hLesson, ?_⟩
        obtain rfl : b.chunkId = id := of_decide_eq_true hId
        obtain ⟨chunk, hListed, hChunk⟩ :=
          List.mem_map.mp (hChunks.subset (List.mem_map_of_mem hb))
        rw [← hChunk] at hHas
        exact ⟨chunk, hListed, hHas, hChunk ▸ (hAll b hb).1⟩
      rw [hOf, hNone]
      exact List.append_nil _
    · have hOnce := List.nodup_iff_count_le_one.mp
        (hChunks.nodup (listLessonTranscriptChunks lessonID cfg.chunksLimit s.content).property) id
      rw [List.count, List.countP_map, List.countP_eq_length_filter] at hOnce
      exact hOnce
    · rw [hOf, hEmpty, List.nil_append]

end Fill

end Richter.Lessons
