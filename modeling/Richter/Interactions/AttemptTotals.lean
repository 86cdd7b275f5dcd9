import Mathlib.Algebra.BigOperators.Group.List.Basic
import Mathlib.Algebra.Order.Ring.Rat
import Mathlib.Data.List.Induction
import Richter.Interactions.SubmitAttempt

/-! The totals of an attempt against its stored responses.  The totals are those of one request,
while the responses are kept from request to request. -/

namespace Richter.Interactions

open Lib

/-- The stored responses of an attempt. -/
def Db.responsesOf (db : Db) (attemptId : UUID) : List LessonAttemptResponse :=
  db.lessonAttemptResponses.rows.filter fun r => r.attemptId = attemptId

/-- Every attempt's totals are the sums over its stored responses. -/
def TotalsMatch (db : Db) : Prop :=
  ∀ a ∈ db.lessonAttempts.rows,
    a.totalScore = ((db.responsesOf a.id).map (·.score)).sum ∧
    a.maxScore = ((db.responsesOf a.id).map (·.maxScore)).sum

/-- The request answers no interaction twice, and it answers every one that the user's attempt has
a stored response to. -/
def coversStored (db : Db) (caller : Except Error UUID) (req : SubmitAttemptRequest) : Bool :=
  (req.responses.map (·.interactionId)).Nodup &&
    match caller with
    | .error _ => true
    | .ok userID =>
      (db.lessonAttempts.find (userID, req.lessonId)).all fun a =>
        (db.responsesOf a.id).all fun r => r.interactionId ∈ req.responses.map (·.interactionId)

/-- Whether a submission that is about to store its responses covers those stored, and no running
total of their scores is rounded. -/
def storesCover (s : InteractionsSvc) (request : Nat → Except Error UUID × SubmitAttemptRequest)
    (p : Submissions) (a : Nat × Env) : Bool :=
  match p.next a.1 with
  | some (.upsertAttempt _ rs) =>
      coversStored p.store (request a.1).1 (request a.1).2 &&
        s.arithmetic.addsExactly (rs.map (·.score)) &&
          s.arithmetic.addsExactly (rs.map (·.maxScore))
  | _ => true

/-- Attempts have ids of their own, and responses belong to attempts. -/
structure Consistent (db : Db) : Prop where
  ids : ∀ a ∈ db.lessonAttempts.rows, ∀ b ∈ db.lessonAttempts.rows, a.id = b.id → a = b
  owner : ∀ r ∈ db.lessonAttemptResponses.rows, ∃ a ∈ db.lessonAttempts.rows, a.id = r.attemptId
  totals : TotalsMatch db

theorem find_foldl_upsertAttemptResponse (attemptId : UUID)
    {rs : List UpsertAttemptResponseParams} (hrs : (rs.map (·.interactionId)).Nodup) (db : Db)
    (k : UUID × UUID) :
    (rs.foldl (upsertAttemptResponse attemptId) db).lessonAttemptResponses.find k =
      if k.1 = attemptId then
        ((rs.find? fun r => r.interactionId = k.2).map (·.row attemptId)).or
          (db.lessonAttemptResponses.find k)
      else db.lessonAttemptResponses.find k := by
  induction rs generalizing db with
  | nil => simp
  | cons r rs ih =>
    rw [List.map_cons, List.nodup_cons] at hrs
    have hRow : (r.row attemptId).key = (attemptId, r.interactionId) := rfl
    rw [List.foldl_cons, ih hrs.2, upsertAttemptResponse, Table.find_upsert, hRow]
    by_cases hAttempt : k.1 = attemptId
    · rw [if_pos hAttempt, if_pos hAttempt, List.find?_cons]
      by_cases hInteraction : r.interactionId = k.2
      · have hk : k = (attemptId, r.interactionId) := Prod.ext hAttempt hInteraction.symm
        have hRest : (rs.find? fun r => r.interactionId = k.2) = none := by
          rw [List.find?_eq_none]
          intro r' hr' hEq
          exact hrs.1 (hInteraction.trans (of_decide_eq_true hEq).symm ▸
            List.mem_map_of_mem hr')
        rw [hRest, if_pos hk]
        simp only [hInteraction, decide_true, Option.map_none, Option.none_or, Option.map_some,
          Option.some_or, Option.some.injEq]
        cases hFind : db.lessonAttemptResponses.find k with
        | none => rfl
        | some s =>
          have hKey := Table.find_key hFind
          rw [hk] at hKey
          simp only [LessonAttemptResponse.key, Prod.mk.injEq] at hKey
          simp [Option.elim, LessonAttemptResponse.replace, hKey.1, hKey.2,
            UpsertAttemptResponseParams.row]
      · have hk : k ≠ (attemptId, r.interactionId) := fun hk => hInteraction (by rw [hk])
        simp [hInteraction, hk]
    · have hk : k ≠ (attemptId, r.interactionId) := fun hk => hAttempt (by rw [hk])
      rw [if_neg hAttempt, if_neg hAttempt, if_neg hk]

section Stores

variable {attemptId : UUID} {rs : List UpsertAttemptResponseParams} {db : Db}

/-- After the responses are stored, one that is there is the last one for its interaction, or it
was there before and is not answered. -/
theorem of_mem_foldl_upsertAttemptResponse {r : LessonAttemptResponse}
    (hAttempt : r.attemptId = attemptId)
    (hMem : r ∈ (rs.foldl (upsertAttemptResponse attemptId) db).lessonAttemptResponses.rows) :
    (∃ p, rs.reverse.find? (fun p => p.interactionId = r.interactionId) = some p ∧
      r.response = p.response) ∨
    (r ∈ db.lessonAttemptResponses.rows ∧
      rs.reverse.find? (fun p => p.interactionId = r.interactionId) = none) := by
  induction rs using List.reverseRecOn with
  | nil => exact .inr ⟨hMem, rfl⟩
  | append_singleton rs q ih =>
    rw [List.foldl_append, List.foldl_cons, List.foldl_nil, Table.mem_rows_iff,
      upsertAttemptResponse, Table.find_upsert] at hMem
    rw [List.reverse_append, List.reverse_singleton, List.singleton_append, List.find?_cons]
    have hKey : r.key = (q.row attemptId).key ↔ q.interactionId = r.interactionId := by
      rw [LessonAttemptResponse.key, LessonAttemptResponse.key, Prod.mk.injEq]
      exact ⟨fun h => h.2.symm, fun h => ⟨hAttempt, h.symm⟩⟩
    by_cases hId : q.interactionId = r.interactionId
    · rw [if_pos (hKey.mpr hId)] at hMem
      rw [decide_eq_true hId]
      refine .inl ⟨q, rfl, ?_⟩
      rw [← Option.some_inj.mp hMem]
      cases (rs.foldl (upsertAttemptResponse attemptId) db).lessonAttemptResponses.find r.key <;>
        rfl
    · rw [if_neg (mt hKey.mp hId), ← Table.mem_rows_iff] at hMem
      rw [decide_eq_false hId]
      exact ih hMem

/-- After the responses of an attempt are stored, each response is one of them, or it was there
before. -/
theorem mem_foldl_upsertAttemptResponse {r : LessonAttemptResponse}
    (hMem : r ∈ (rs.foldl (upsertAttemptResponse attemptId) db).lessonAttemptResponses.rows) :
    r ∈ db.lessonAttemptResponses.rows ∨
      ∃ p ∈ rs, r.attemptId = attemptId ∧ r.response = p.response := by
  by_cases hAttempt : r.attemptId = attemptId
  · rcases of_mem_foldl_upsertAttemptResponse hAttempt hMem with ⟨p, hp, hResponse⟩ | ⟨hOld, -⟩
    · have hStored : p ∈ rs := List.mem_reverse.mp (List.mem_of_find?_eq_some hp)
      exact .inr ⟨p, hStored, hAttempt, hResponse⟩
    · exact .inl hOld
  · refine .inl ?_
    induction rs using List.reverseRecOn with
    | nil => exact hMem
    | append_singleton rs q ih =>
      rw [List.foldl_append, List.foldl_cons, List.foldl_nil, Table.mem_rows_iff,
        upsertAttemptResponse, Table.find_upsert] at hMem
      have hKey : r.key ≠ (q.row attemptId).key := fun hEq => hAttempt (congrArg Prod.fst hEq)
      rw [if_neg hKey, ← Table.mem_rows_iff] at hMem
      exact ih hMem

theorem mem_responsesOf {db : Db} {id : UUID} {r : LessonAttemptResponse} :
    r ∈ db.responsesOf id ↔ r.attemptId = id ∧ db.lessonAttemptResponses.find r.key = some r := by
  rw [Db.responsesOf, List.mem_filter, Table.mem_rows_iff, decide_eq_true_eq, and_comm]

theorem mem_listAttemptResponses {attemptId : UUID} {db : Db} {r : LessonAttemptResponse}
    {kind : String} :
    (r, kind) ∈ listAttemptResponses attemptId db ↔
      r ∈ db.lessonAttemptResponses.rows ∧ r.attemptId = attemptId ∧
        ∃ i, db.lessonInteractions.find r.interactionId = some i ∧ i.kind = kind := by
  simp only [listAttemptResponses, List.mem_map, List.mem_insertionSort, List.mem_filterMap,
    List.mem_filter, decide_eq_true_eq, Option.map_eq_some_iff]
  constructor
  · rintro ⟨⟨r', i⟩, ⟨r'', ⟨hMem, hAttempt⟩, j, hj, hEq⟩, hPair⟩
    cases hEq
    cases hPair
    exact ⟨hMem, hAttempt, i, hj, rfl⟩
  · rintro ⟨hMem, hAttempt, i, hi, rfl⟩
    exact ⟨(r, i), ⟨r, ⟨hMem, hAttempt⟩, i, hi, rfl⟩, rfl⟩

theorem responsesOf_nodup (db : Db) (id : UUID) : (db.responsesOf id).Nodup :=
  db.lessonAttemptResponses.nodup_rows.filter _

/-- The attempt whose responses are stored has these, when they cover those stored before. -/
theorem responsesOf_stored (db : Db) (hrs : (rs.map (·.interactionId)).Nodup)
    (hCover : ∀ r ∈ db.responsesOf attemptId, r.interactionId ∈ rs.map (·.interactionId)) :
    ((rs.foldl (upsertAttemptResponse attemptId) db).responsesOf attemptId).Perm
      (rs.map (·.row attemptId)) := by
  have hRows : (rs.map (·.row attemptId)).Nodup := by
    refine List.Nodup.of_map LessonAttemptResponse.interactionId ?_
    rw [List.map_map]
    exact hrs
  rw [List.perm_ext_iff_of_nodup (responsesOf_nodup _ _) hRows]
  intro r
  rw [mem_responsesOf, find_foldl_upsertAttemptResponse attemptId hrs, List.mem_map]
  constructor
  · rintro ⟨rfl, hFind⟩
    rw [if_pos (show r.key.1 = r.attemptId from rfl)] at hFind
    cases hStored : rs.find? fun p => p.interactionId = r.key.2 with
    | some p =>
      rw [hStored] at hFind
      exact ⟨p, List.mem_of_find?_eq_some hStored, Option.some_inj.mp hFind⟩
    | none =>
      rw [hStored] at hFind
      obtain ⟨p, hp, hId⟩ := List.mem_map.mp (hCover r (mem_responsesOf.mpr ⟨rfl, hFind⟩))
      exact absurd (decide_eq_true hId) (List.find?_eq_none.mp hStored p hp)
  · rintro ⟨p, hp, rfl⟩
    refine ⟨rfl, ?_⟩
    obtain ⟨q, hq⟩ :
        ∃ q, (rs.find? fun r => r.interactionId = (p.row attemptId).key.2) = some q := by
      rw [← Option.isSome_iff_exists, List.find?_isSome]
      exact ⟨p, hp, decide_eq_true rfl⟩
    have hId : q.interactionId = (p.row attemptId).key.2 := by simpa using List.find?_some hq
    have hSame : q = p := List.inj_on_of_nodup_map hrs (List.mem_of_find?_eq_some hq) hp hId
    rw [if_pos (show (p.row attemptId).key.1 = attemptId from rfl), hq, hSame]
    rfl

/-- The other attempts keep their responses. -/
theorem responsesOf_other (db : Db) (hrs : (rs.map (·.interactionId)).Nodup) {id : UUID}
    (hid : id ≠ attemptId) :
    ((rs.foldl (upsertAttemptResponse attemptId) db).responsesOf id).Perm (db.responsesOf id) := by
  rw [List.perm_ext_iff_of_nodup (responsesOf_nodup _ _) (responsesOf_nodup _ _)]
  intro r
  rw [mem_responsesOf, mem_responsesOf, find_foldl_upsertAttemptResponse attemptId hrs]
  refine and_congr_right ?_
  rintro rfl
  rw [if_neg (show r.key.1 ≠ attemptId from hid)]

end Stores

section Consistent

variable {p : UpsertLessonAttemptParams} {newID : UUID} {db : Db}

theorem upserted_id (p : UpsertLessonAttemptParams) (newID : UUID) (db : Db) :
    (upserted p newID db).id =
      ((db.lessonAttempts.find (p.userId, p.lessonId)).map (·.id)).getD newID := by
  rw [upserted]
  cases db.lessonAttempts.find (p.userId, p.lessonId) <;> rfl

theorem upserted_totals (p : UpsertLessonAttemptParams) (newID : UUID) (db : Db) :
    (upserted p newID db).totalScore = p.totalScore ∧
      (upserted p newID db).maxScore = p.maxScore := by
  rw [upserted]
  cases db.lessonAttempts.find (p.userId, p.lessonId) <;> exact ⟨rfl, rfl⟩

/-- After an upsert, an attempt is the upserted one, or one that was there under another key and
with another id. -/
theorem mem_upsertLessonAttempt
    (hIds : ∀ a ∈ db.lessonAttempts.rows, ∀ b ∈ db.lessonAttempts.rows, a.id = b.id → a = b)
    (hFresh : ∀ b ∈ db.lessonAttempts.rows, b.id ≠ newID) {b : LessonAttempt} :
    b ∈ (upsertLessonAttempt p newID db).lessonAttempts.rows ↔ b = upserted p newID db ∨
      (b ∈ db.lessonAttempts.rows ∧ b.id ≠ (upserted p newID db).id) := by
  have hKey : (upserted p newID db).key = (p.userId, p.lessonId) := by
    rw [upserted]
    cases hFind : db.lessonAttempts.find (p.userId, p.lessonId) with
    | none => rfl
    | some a => exact (LessonAttempt.resubmit_key p a).trans (Table.find_key hFind)
  rw [Table.mem_rows_iff, find_upsertLessonAttempt]
  constructor
  · intro hb
    split at hb
    · exact .inl (Option.some_inj.mp hb).symm
    · next hne =>
      have hMem := Table.mem_rows_iff.mpr hb
      refine .inr ⟨hMem, ?_⟩
      rw [upserted_id]
      cases hFind : db.lessonAttempts.find (p.userId, p.lessonId) with
      | none => exact hFresh b hMem
      | some a =>
        rintro hid
        obtain ⟨ha, haKey⟩ := Table.find_eq_some_iff.mp hFind
        exact hne (hIds b hMem a ha hid ▸ haKey)
  · rintro (rfl | ⟨hMem, hid⟩)
    · rw [if_pos hKey]
    · rw [if_neg, ← Table.mem_rows_iff]
      · exact hMem
      · rintro hbKey
        rw [upserted_id, ← hbKey, Table.mem_rows_iff.mp hMem] at hid
        exact hid rfl

section Keys

variable {rs : List UpsertAttemptResponseParams}
  (hIds : ∀ a ∈ db.lessonAttempts.rows, ∀ b ∈ db.lessonAttempts.rows, a.id = b.id → a = b)
  (hFresh : ∀ b ∈ db.lessonAttempts.rows, b.id ≠ newID)

include hIds hFresh

theorem mem_store {b : LessonAttempt} :
    b ∈ (rs.foldl (upsertAttemptResponse (upserted p newID db).id)
      (upsertLessonAttempt p newID db)).lessonAttempts.rows ↔ b = upserted p newID db ∨
        (b ∈ db.lessonAttempts.rows ∧ b.id ≠ (upserted p newID db).id) := by
  rw [foldl_upsertAttemptResponse_lessonAttempts]
  exact mem_upsertLessonAttempt hIds hFresh

/-- A transaction leaves attempts with ids of their own. -/
theorem ids_store {a b : LessonAttempt}
    (ha : a ∈ (rs.foldl (upsertAttemptResponse (upserted p newID db).id)
      (upsertLessonAttempt p newID db)).lessonAttempts.rows)
    (hb : b ∈ (rs.foldl (upsertAttemptResponse (upserted p newID db).id)
      (upsertLessonAttempt p newID db)).lessonAttempts.rows) (hId : a.id = b.id) : a = b := by
  rcases (mem_store hIds hFresh).mp ha with rfl | ⟨ha, haId⟩
  · rcases (mem_store hIds hFresh).mp hb with rfl | ⟨_, hbId⟩
    · rfl
    · exact absurd hId.symm hbId
  · rcases (mem_store hIds hFresh).mp hb with rfl | ⟨hb, _⟩
    · exact absurd hId haId
    · exact hIds a ha b hb hId

/-- A transaction leaves responses that belong to attempts. -/
theorem owner_store
    (hOwner : ∀ r ∈ db.lessonAttemptResponses.rows,
      ∃ a ∈ db.lessonAttempts.rows, a.id = r.attemptId) {r : LessonAttemptResponse}
    (hr : r ∈ (rs.foldl (upsertAttemptResponse (upserted p newID db).id)
      (upsertLessonAttempt p newID db)).lessonAttemptResponses.rows) :
    ∃ a ∈ (rs.foldl (upsertAttemptResponse (upserted p newID db).id)
      (upsertLessonAttempt p newID db)).lessonAttempts.rows, a.id = r.attemptId := by
  by_cases hAttempt : r.attemptId = (upserted p newID db).id
  · exact ⟨_, (mem_store hIds hFresh).mpr (.inl rfl), hAttempt.symm⟩
  · rcases mem_foldl_upsertAttemptResponse hr with hr | ⟨_, _, hId, _⟩
    · obtain ⟨a, ha, hId⟩ := hOwner r hr
      exact ⟨a, (mem_store hIds hFresh).mpr (.inr ⟨ha, hId ▸ hAttempt⟩), hId⟩
    · exact absurd hId hAttempt

end Keys

/-- A transaction whose responses cover those stored, and whose scores are not rounded, keeps the
totals right. -/
theorem Consistent.store {s : InteractionsSvc} {caller : Except Error UUID}
    {req : SubmitAttemptRequest} {rs : List UpsertAttemptResponseParams} (h : Consistent db)
    (hTotals : Totals s caller req p rs) (hCovers : coversStored db caller req = true)
    (hScores : s.arithmetic.addsExactly (rs.map (·.score)) = true)
    (hMaxScores : s.arithmetic.addsExactly (rs.map (·.maxScore)) = true)
    (hFresh : ∀ b ∈ db.lessonAttempts.rows, b.id ≠ newID) :
    Consistent (rs.foldl (upsertAttemptResponse (upserted p newID db).id)
      (upsertLessonAttempt p newID db)) := by
  obtain ⟨hUser, hLesson, hIds, hScore, hMax⟩ := hTotals
  rw [Arithmetic.total_eq_sum hScores] at hScore
  rw [Arithmetic.total_eq_sum hMaxScores] at hMax
  simp only [coversStored, hUser, ← hLesson, Bool.and_eq_true, decide_eq_true_eq, ← hIds,
    Option.all_eq_true, List.all_eq_true] at hCovers
  obtain ⟨hNodup, hStored⟩ := hCovers
  refine ⟨fun b hb c hc => ids_store h.ids hFresh hb hc,
    fun r => owner_store h.ids hFresh h.owner, fun b hb => ?_⟩
  obtain rfl | ⟨hb, hbId⟩ := (mem_store h.ids hFresh).mp hb
  · have hCover : ∀ r ∈ db.responsesOf (upserted p newID db).id,
        r.interactionId ∈ rs.map (·.interactionId) := by
      intro r hr
      rw [upserted_id] at hr
      cases hFind : db.lessonAttempts.find (p.userId, p.lessonId) with
      | none =>
        -- A new id has no responses yet.
        rw [hFind] at hr
        obtain ⟨hrId, hrFind⟩ := mem_responsesOf.mp hr
        obtain ⟨b, hb, hid⟩ := h.owner r (Table.mem_rows_iff.mpr hrFind)
        exact absurd (hid.trans hrId) (hFresh b hb)
      | some a =>
        rw [hFind] at hr
        exact hStored a hFind r hr
    have hPerm := responsesOf_stored (upsertLessonAttempt p newID db) hNodup hCover
    rw [(upserted_totals p newID db).1, (upserted_totals p newID db).2, hScore, hMax,
      (hPerm.map _).sum_eq, (hPerm.map _).sum_eq, List.map_map, List.map_map]
    exact ⟨rfl, rfl⟩
  · have hPerm := responsesOf_other (upsertLessonAttempt p newID db) hNodup hbId
    rw [(hPerm.map _).sum_eq, (hPerm.map _).sum_eq]
    exact h.totals b hb

end Consistent

theorem step_consistent {s : InteractionsSvc}
    {request : Nat → Except Error UUID × SubmitAttemptRequest} (p : Submissions) (i : Nat)
    (env : Env) (o : Op) (r : o.Resp) (db' : Db)
    (hG : storesCover s request p (i, env) = true) (hNext : p.next i = some o)
    (hSubmits : Submits s (request i).1 (request i).2 (p.hist i) o) (hI : Consistent p.store)
    (hExec : exec env o p.store = some (r, db')) : Consistent db' := by
  obtain rfl | ⟨q, rs, a, rfl, hFresh, ha, rfl⟩ := exec_cases hExec
  · exact hI
  · rw [find_upsertLessonAttempt, if_pos rfl] at ha
    cases ha
    simp only [storesCover, hNext, Bool.and_eq_true] at hG
    obtain ⟨⟨hCovers, hScores⟩, hMaxScores⟩ := hG
    exact hI.store hSubmits.1 hCovers hScores hMaxScores hFresh

/-- From a database without attempts, in every run of submissions each of which answers no
interaction twice, answers all that its attempt has stored responses to, and has scores whose running
totals are not rounded, the totals of every attempt are the sums over its stored responses. -/
theorem attempt_totals_match {s : InteractionsSvc} {db : Db}
    {request : Nat → Except Error UUID × SubmitAttemptRequest} {steps : List (Nat × Env)}
    {p : Submissions} (hAttempts : db.lessonAttempts.rows = [])
    (hResponses : db.lessonAttemptResponses.rows = [])
    (hRun : submissions.Runs (fun p a => storesCover s request p a = true) (.start s db request)
      steps p) : TotalsMatch p.store := by
  have hStart : Consistent db := by
    refine ⟨?_, ?_, ?_⟩ <;> simp [hAttempts, hResponses, TotalsMatch]
  exact (submissions_invariant (I := fun db _ => Consistent db) step_consistent hRun hStart).totals

/-- A lesson with two questions. -/
def twoQuestions : Db where
  lessons := .ofList [⟨1, 0, none⟩]
  lessonInteractions := .ofList [⟨10, 1, "mcq", 0⟩, ⟨11, 1, "mcq", 1⟩]
  lessonAttempts := .empty
  lessonAttemptResponses := .empty

/-- The student answers both questions, and in a second submission only the first one. -/
def partialRetake : Nat → Except Error UUID × SubmitAttemptRequest
  | 0 => (.ok 100, ⟨1, [⟨10, 0, 0, .mcqSelected 0⟩, ⟨11, 0, 0, .mcqSelected 0⟩], 0⟩)
  | _ => (.ok 100, ⟨1, [⟨10, 0, 0, .mcqSelected 0⟩], 0⟩)

/-- Nothing fails, and every answer is right. -/
def allRight : Env := ⟨none, none, ⟨1, 1, ""⟩, none, 1000⟩

/-- The first submission: the lesson, the interactions, two grades, the previous attempt and the
transaction. -/
def firstSubmission : List (Nat × Env) := List.replicate 6 (0, allRight)

theorem attempt_totals_match_firstSubmission :
    ∃ p, submissions.run (.start ⟨false, false, 500, .float32⟩ twoQuestions partialRetake)
      firstSubmission = some p ∧ TotalsMatch p.store := by
  have hSome : ((submissions.restrict fun p a =>
      storesCover ⟨false, false, 500, .float32⟩ partialRetake p a = true).run
        (.start ⟨false, false, 500, .float32⟩ twoQuestions partialRetake)
          firstSubmission).isSome = true := by decide +kernel
  obtain ⟨p, hp⟩ := Option.isSome_iff_exists.mp hSome
  have hRun := Machine.Runs.of_restrict hp
  exact ⟨p, hRun.run, attempt_totals_match rfl rfl hRun⟩

/-- The second submission also reads the previous attempt's responses, and its new id is another
one. -/
def bothSubmissions : List (Nat × Env) :=
  firstSubmission ++ List.replicate 6 (1, { allRight with newID := 1001 })

/-- After two successful submissions, one after the other, the totals of the second, of one
question, stand beside the stored responses to two. -/
theorem partial_retake_breaks_totals :
    ∃ p, submissions.run (.start ⟨false, false, 500, .float32⟩ twoQuestions partialRetake)
      bothSubmissions = some p ∧ (∃ out, (p.thread 0).prog = .ret (.ok out)) ∧
      (∃ out, (p.thread 1).prog = .ret (.ok out)) ∧ ¬ TotalsMatch p.store := by
  refine ⟨_, rfl, ⟨_, rfl⟩, ⟨_, rfl⟩, fun h => ?_⟩
  have hTwo := h _ (List.mem_singleton_self _)
  revert hTwo
  decide +kernel

end Richter.Interactions
