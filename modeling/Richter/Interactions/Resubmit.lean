import Richter.Interactions.AttemptTotals
import Richter.Interactions.Submission

/-! Whether a submission of the stored responses consumes an attempt.  It compares the bytes that Go
writes for a response with the text that Postgres returns for the stored one. -/

namespace Richter.Interactions

open Lib

/-! The two texts of a response. -/

section Texts

/-- The character behind the first colon. -/
def afterColon (s : String) : Option Char := ((s.toList.dropWhile (· ≠ ':')).drop 1).head?

/-- The names of the fields of all responses. -/
def responseKeys : List String :=
  ["selected", "selected_indexes", "answers", "comprehension_answers", "audio_object_key", "text"]

theorem afterColon_object (l : Layout) {k v : String} (rest : List Char)
    (hColon : l.colon.toList = ':' :: rest) (hKey : ':' ∉ (l.string k).toList) :
    afterColon (l.object [(k, v)]) = (rest ++ v.toList ++ ['}']).head? := by
  have hText : (l.object [(k, v)]).toList =
      ('{' :: (l.string k).toList) ++ ':' :: (rest ++ v.toList ++ ['}']) := by
    have hOpen : "\x7b".toList = ['{'] := rfl
    have hClose : "\x7d".toList = ['}'] := rfl
    simp [Layout.object, hColon, hOpen, hClose]
  have hBefore : ∀ c ∈ '{' :: (l.string k).toList, decide (c ≠ ':') = true := by
    intro c hc
    rcases List.mem_cons.mp hc with rfl | hc
    · decide
    · exact decide_eq_true fun hEq => hKey (hEq ▸ hc)
  rw [afterColon, hText, List.dropWhile_append_of_pos hBefore]
  simp

theorem head_toString_ne_space (i : Int) : (toString i).toList.head? ≠ some ' ' := by
  have hNat : ∀ n : Nat, n.repr.toList.head? ≠ some ' ' := by
    intro n hHead
    rw [Nat.toList_repr] at hHead
    have hDigit := Nat.isDigit_of_mem_toDigits (by decide) (by decide) (List.mem_of_head? hHead)
    cases hDigit
  rw [Int.toString_eq_repr, Int.repr_eq_if]
  split
  · exact hNat _
  · simp

/-- A response has one field, unless it is one of a listening without answers. -/
theorem text_eq_object (l : Layout) {r : ResponseJSON} (hr : r ≠ .listening []) :
    ∃ k v, k ∈ responseKeys ∧ l.text r = l.object [(k, v)] ∧ v.toList ≠ [] ∧
      v.toList.head? ≠ some ' ' := by
  have hArray : ∀ items, (l.array items).toList ≠ [] ∧ (l.array items).toList.head? ≠ some ' ' := by
    intro items
    have hOpen : "[".toList = ['['] := rfl
    simp [Layout.array, hOpen]
  have hString : ∀ s, (l.string s).toList ≠ [] ∧ (l.string s).toList.head? ≠ some ' ' := by
    intro s
    have hQuote : "\"".toList = ['"'] := rfl
    simp [Layout.string, hQuote]
  cases r with
  | singleChoice selected =>
    exact ⟨_, _, by simp [responseKeys], rfl, toString_toList_ne_nil _, head_toString_ne_space _⟩
  | multipleChoice is => exact ⟨_, _, by simp [responseKeys], rfl, hArray _⟩
  | fillBlank answers =>
    cases answers with
    | nil => exact ⟨_, _, by simp [responseKeys], rfl, by decide, by decide⟩
    | cons a as => exact ⟨_, _, by simp [responseKeys], rfl, hArray _⟩
  | listening is =>
    cases is with
    | nil => exact absurd rfl hr
    | cons i is => exact ⟨_, _, by simp [responseKeys], rfl, hArray _⟩
  | reading key => exact ⟨_, _, by simp [responseKeys], rfl, hString _⟩
  | writing text => exact ⟨_, _, by simp [responseKeys], rfl, hString _⟩

theorem colon_not_mem_goLayout : ∀ k ∈ responseKeys, ':' ∉ (goLayout.string k).toList := by
  decide

theorem colon_not_mem_jsonbLayout : ∀ k ∈ responseKeys, ':' ∉ (jsonbLayout.string k).toList := by
  decide

theorem afterColon_go {r : ResponseJSON} (hr : r ≠ .listening []) :
    ∃ c, afterColon (goLayout.text r) = some c ∧ c ≠ ' ' := by
  obtain ⟨k, v, hk, hText, hNonempty, hHead⟩ := text_eq_object goLayout hr
  rw [hText, afterColon_object goLayout [] rfl (colon_not_mem_goLayout k hk)]
  cases hv : v.toList with
  | nil => exact absurd hv hNonempty
  | cons c cs =>
    refine ⟨c, rfl, ?_⟩
    rintro rfl
    exact hHead (by rw [hv]; rfl)

theorem afterColon_jsonb {r : ResponseJSON} (hr : r ≠ .listening []) :
    afterColon (jsonbLayout.text r) = some ' ' := by
  obtain ⟨k, v, hk, hText, _⟩ := text_eq_object jsonbLayout hr
  rw [hText, afterColon_object jsonbLayout [' '] rfl (colon_not_mem_jsonbLayout k hk)]
  rfl

/-- The two texts are equal for the one response that has no field. -/
theorem jsonb_eq_go_iff {stored sent : ResponseJSON} :
    jsonbLayout.text stored = goLayout.text sent ↔
      stored = .listening [] ∧ sent = .listening [] := by
  constructor
  · intro hSame
    by_cases hStored : stored = .listening []
    · refine ⟨hStored, by_contra fun hSent => ?_⟩
      obtain ⟨c, hGo, _⟩ := afterColon_go hSent
      rw [← hSame, hStored] at hGo
      have hEmpty : afterColon (jsonbLayout.text (.listening [])) = none := by decide
      rw [hEmpty] at hGo
      cases hGo
    · have hSpace := afterColon_jsonb hStored
      by_cases hSent : sent = .listening []
      · have hEmpty : afterColon (goLayout.text (.listening [])) = none := by decide
        rw [hSame, hSent, hEmpty] at hSpace
        cases hSpace
      · obtain ⟨c, hGo, hNot⟩ := afterColon_go hSent
        rw [hSame, hGo] at hSpace
        exact absurd (Option.some.inj hSpace) hNot
  · rintro ⟨rfl, rfl⟩
    rfl

end Texts

/-! What the submission has decided, from its events. -/

/-- The answer to the read of the responses of the previous attempt. -/
def responsesRead (h : History) :
    Option (UUID × Except DbError (List (LessonAttemptResponse × String))) :=
  h.findSome? fun
    | ⟨.listAttemptResponses attemptID, r⟩ => some (attemptID, r)
    | _ => none

/-- The reads before the one of the previous attempt, and the ones after it. -/
def Op.isOtherRead (o : Op) : Bool :=
  o.isRead && match o with
    | .listAttemptResponses _ => false
    | _ => true

/-- The previous attempt is what has been read of it. -/
structure Compared (userID lessonID : UUID) (h : History)
    (prev : Option (LessonAttempt × List (LessonAttemptResponse × String))) : Prop where
  none : responsesRead h = none → prev = none
  some : ∀ id r, responsesRead h = some (id, r) → ∃ a,
    h.Has (.getMyLessonAttempt lessonID userID) (.ok a) ∧ a.id = id ∧
      prev = some (a, r.toOption.getD [])

/-- A response of the request and its JSON. -/
def Converted (resp : AttemptResponseInput) (g : GradedResponse) : Prop :=
  g.interactionID = resp.interactionId ∧ ∃ kind toJSON, responseProtoToJSON kind = some toJSON ∧
    toJSON resp.response = .ok g.responseJSON

/-- The events of a submission that answers `out`, with what it has compared. -/
inductive Decided (userID : UUID) (req : SubmitAttemptRequest)
    (out : LessonAttempt × List (LessonAttemptResponse × String)) : History → Prop
  | mk {graded : List GradedResponse}
      {prev : Option (LessonAttempt × List (LessonAttemptResponse × String))}
      {p : UpsertLessonAttemptParams} {reads tail : History} :
      List.Forall₂ Converted req.responses graded → Compared userID req.lessonId reads prev →
      p.userId = userID → p.lessonId = req.lessonId →
      p.shouldIncrement = shouldIncrement prev graded p.totalScore → OnlyReads reads →
      (∀ e ∈ tail, e.op.isUpsert = false ∧ e.op.isRead = false) →
      Decided userID req out (reads ++
        ⟨.upsertAttempt p (graded.map (responseParams req.responses)), .ok out⟩ :: tail)

section Logs

variable {α : Type} {h h' : History} {s : InteractionsSvc} {userID lessonID : UUID}

theorem responsesRead_append (h l : History) :
    responsesRead (h ++ l) = (responsesRead h).or (responsesRead l) := by
  unfold responsesRead
  rw [List.findSome?_append]

theorem responsesRead_single {o : Op} (ho : o.isOtherRead = true) (r : o.Resp) :
    responsesRead [⟨o, r⟩] = none := by
  cases o with
  | listAttemptResponses => cases ho
  | _ => rfl

/-- Reads other than the one of the previous responses. -/
structure ReadsOther (h h' : History) : Prop where
  goesOn : GoesOn h h'
  responses : responsesRead h' = responsesRead h

theorem ReadsOther.refl (h : History) : ReadsOther h h := ⟨.refl h, rfl⟩

theorem ReadsOther.trans {h₁ h₂ h₃ : History} (h : ReadsOther h₁ h₂) (h' : ReadsOther h₂ h₃) :
    ReadsOther h₁ h₃ :=
  ⟨h.goesOn.trans h'.goesOn, h'.responses.trans h.responses⟩

theorem ReadsOther.perform {o : Op} (ho : o.isOtherRead = true) (r : o.Resp) :
    ReadsOther h (h ++ [⟨o, r⟩]) := by
  refine ⟨.perform (Bool.and_eq_true_iff.mp ho).1 r, ?_⟩
  rw [responsesRead_append, responsesRead_single ho, Option.or_none]

theorem logs_readsOther {x : Handler α} (hx : x.run.Performs fun o => o.isOtherRead = true) :
    Logs x (fun _ h' => ReadsOther h h') (fun _ => True) h := by
  refine (Prog.Performs.meets (I := fun h' => ReadsOther h h') hx (fun _ _ _ _ => trivial) ?_
    (.refl h)).mono (fun _ _ => id) fun _ _ => trivial
  intro o h₁ r h₂ ho hOn hNext
  subst hNext
  exact hOn.trans (.perform ho r)

theorem gradeResponse_readsOther (interactions : List LessonInteraction)
    (resp : AttemptResponseInput) :
    Logs (gradeResponse s userID lessonID interactions resp)
      (fun g h' => ReadsOther h h' ∧ Converted resp g) (fun _ => True) h := by
  apply meets_gradeResponse s userID lessonID trivial
  intro i toJSON responseJSON _ _ hKind hJSON
  refine (logs_readsOther (cachedGrade_performs _ _ _ _ rfl)).mono ?_ fun _ => id
  intro cached h₁ hOn
  cases cached with
  | some grade => exact ⟨hOn, rfl, _, toJSON, hKind, hJSON⟩
  | none =>
    refine ⟨trivial, fun grade h₂ hNext => ?_⟩
    subst hNext
    exact ⟨hOn.trans (.perform rfl grade), rfl, _, toJSON, hKind, hJSON⟩

theorem gradeResponses_readsOther (interactions : List LessonInteraction)
    (responses : List AttemptResponseInput) :
    Logs (gradeResponses s userID lessonID interactions responses)
      (fun graded h' => ReadsOther h h' ∧ List.Forall₂ Converted responses graded)
      (fun _ => True) h :=
  meets_gradeResponses s userID lessonID (R := ReadsOther) (Q := fun _ => Converted) .refl
    (fun _ _ _ => ReadsOther.trans) (fun _ _ _ _ _ => id) (fun _ _ _ _ => id)
    (fun _ => gradeResponse_readsOther interactions) responses h

theorem previousAttempt_compared (hNone : responsesRead h = none) :
    Logs (previousAttempt lessonID userID)
      (fun prev h' => GoesOn h h' ∧ Compared userID lessonID h' prev) (fun _ => True) h := by
  refine ⟨trivial, fun r h₁ hNext => ?_⟩
  subst hNext
  have hOn : ReadsOther h (h ++ [⟨.getMyLessonAttempt lessonID userID, r⟩]) := .perform rfl r
  have hStill := hOn.responses.trans hNone
  cases r with
  | error e =>
    refine ⟨hOn.goesOn, fun _ => rfl, fun id r hSome => ?_⟩
    rw [hStill] at hSome
    cases hSome
  | ok a =>
    refine ⟨trivial, fun r h₂ hNext => ?_⟩
    subst hNext
    have hRead : responsesRead (h ++ [⟨.getMyLessonAttempt lessonID userID, .ok a⟩] ++
        [⟨.listAttemptResponses a.id, r⟩]) = some (a.id, r) := by
      rw [responsesRead_append, hStill]
      rfl
    have hAll := hOn.goesOn.trans (.perform (o := .listAttemptResponses a.id) rfl r)
    have hCompared : ∀ prev, prev = some (a, r.toOption.getD []) →
        Compared userID lessonID (h ++ [⟨.getMyLessonAttempt lessonID userID, .ok a⟩] ++
          [⟨.listAttemptResponses a.id, r⟩]) prev := by
      intro prev hPrev
      refine ⟨fun hEmpty => ?_, fun id r' hSome => ?_⟩
      · rw [hRead] at hEmpty
        cases hEmpty
      · rw [hRead] at hSome
        cases hSome
        exact ⟨a, by simp, rfl, hPrev⟩
    cases r with
    | error e => exact ⟨hAll, hCompared _ rfl⟩
    | ok rs => exact ⟨hAll, hCompared _ rfl⟩

theorem cleanup_deletes {req : SubmitAttemptRequest} {audioKeys : List String} {o : Op}
    (ho : o ∈ cleanup s userID req audioKeys) : o.isUpsert = false ∧ o.isRead = false :=
  of_mem_cleanup (A := fun o => o.isUpsert = false ∧ o.isRead = false) s userID
    (fun _ => ⟨rfl, rfl⟩) (fun _ _ => ⟨rfl, rfl⟩) o ho

/-- A submission that succeeds has compared its responses with what it has read. -/
theorem submitAttempt_decided (s : InteractionsSvc) (caller : Except Error UUID)
    (req : SubmitAttemptRequest) :
    Logs (submitAttempt s caller req)
      (fun out h => ∃ userID, caller = .ok userID ∧ Decided userID req out h) (fun _ => True)
      [] := by
  cases caller with
  | error e => exact trivial
  | ok userID =>
    refine ⟨trivial, fun r h₁ hNext => ?_⟩
    subst hNext
    have hLesson : ReadsOther [] ([] ++ [⟨.getLessonByID req.lessonId, r⟩]) := .perform rfl r
    refine (Prog.meets_bind _).mpr (logs_orConnectDBError r (fun _ _ => trivial) ?_)
    intro lesson _
    refine (logs_readsOther (requireAttemptLeft_performs _ _ lesson rfl)).bind ?_
    intro _ h₁ hLimit
    refine ⟨trivial, fun r h₂ hNext => ?_⟩
    subst hNext
    have hListed := (hLesson.trans hLimit).trans
      (.perform (o := .listLessonInteractions req.lessonId s.listLimit 0) rfl r)
    refine (Prog.meets_bind _).mpr (logs_orConnectDBError r (fun _ _ => trivial) ?_)
    intro interactions _
    split
    · exact trivial
    · refine (gradeResponses_readsOther interactions req.responses).bind ?_
      intro graded h₃ ⟨hGrading, hConverted⟩
      have hBefore := hListed.trans hGrading
      refine (previousAttempt_compared hBefore.responses).bind ?_
      intro prev h₄ ⟨hPrev, hCompared⟩
      refine (logs_readsOther (watchFraction_performs s userID lesson fun _ => rfl)).bind ?_
      intro fraction h₅ hFraction
      have hReads : OnlyReads h₅ :=
        ((hBefore.goesOn.trans hPrev).trans hFraction.goesOn).onlyReads .nil
      have hStill : Compared userID req.lessonId h₅ prev := by
        refine ⟨fun hEmpty => ?_, fun id r hSome => ?_⟩
        · rw [hFraction.responses] at hEmpty
          exact hCompared.none hEmpty
        · rw [hFraction.responses] at hSome
          obtain ⟨a, hHas, hRest⟩ := hCompared.some id r hSome
          exact ⟨a, hFraction.goesOn.subset hHas, hRest⟩
      refine ⟨trivial, fun r h₆ hNext => ?_⟩
      subst hNext
      refine (Prog.meets_bind _).mpr (logs_orConnectDBError r (fun _ _ => trivial) ?_)
      intro out hOut
      subst hOut
      refine (Prog.meets_bind _).mpr ((performAll_logs _).mono ?_ fun _ => False.elim)
      intro _ h₇ ⟨tail, hEvents, hTail⟩
      refine ⟨userID, rfl, ?_⟩
      rw [hEvents, List.append_assoc]
      exact .mk hConverted hStill rfl rfl rfl hReads fun e he => cleanup_deletes (hTail e he)

end Logs

/-! What it has compared, in the tables. -/

section Tables

variable {db db' : Db} {h : History}

theorem trace_deletes (hTrace : Prog.Trace exec db h db')
    (hNone : ∀ e ∈ h, e.op.isUpsert = false) : db' = db := by
  refine hTrace.invariant (I := fun x => x = db) ?_ hNone rfl
  intro w o r x y ho hExec hx
  obtain rfl | ⟨p, rs, a, rfl, _⟩ := exec_cases hExec
  · exact hx
  · cases ho

theorem trace_reads (hTrace : Prog.Trace exec db h db') (hReads : OnlyReads h) : db' = db :=
  trace_deletes hTrace fun e he => Op.isUpsert_of_isRead (hReads e he)

/-- The tables have answered a read. -/
theorem read_exec (hTrace : Prog.Trace exec db h db') (hReads : OnlyReads h) {o : Op} {r : o.Resp}
    (hHas : h.Has o r) : ∃ env db₁, exec env o db = some (r, db₁) := by
  obtain ⟨before, after, env, u, v, rfl, hBefore, hExec, _⟩ := hTrace.event hHas
  have hSame : u = db := trace_reads hBefore fun e he => hReads e (List.mem_append_left _ he)
  subst hSame
  exact ⟨env, v, hExec⟩

theorem has_of_responsesRead {id : UUID}
    {r : Except DbError (List (LessonAttemptResponse × String))}
    (hSome : responsesRead h = some (id, r)) : h.Has (.listAttemptResponses id) r := by
  obtain ⟨e, he, hEq⟩ := List.exists_of_findSome?_eq_some hSome
  split at hEq
  · cases hEq
    exact he
  · cases hEq

/-- The attempt in the table after a submission counts one more if it was to count. -/
theorem upsert_attemptCount {env : Env} {p : UpsertLessonAttemptParams}
    {rs : List UpsertAttemptResponseParams}
    {out : LessonAttempt × List (LessonAttemptResponse × String)} {stored : LessonAttempt}
    (hStored : db.lessonAttempts.find (p.userId, p.lessonId) = some stored)
    (hExec : exec env (.upsertAttempt p rs) db = some (.ok out, db')) :
    (db'.lessonAttempts.find (p.userId, p.lessonId)).map (·.attemptCount) =
        some (stored.attemptCount + if p.shouldIncrement then 1 else 0) ∧
      ∀ r ∈ rs, (db.lessonInteractions.find r.interactionId).isSome = true := by
  unfold exec at hExec
  dsimp only at hExec
  split at hExec
  · cases hExec
  · unfold upsertAttempt at hExec
    dsimp only at hExec
    split at hExec
    · cases hExec
    · split at hExec
      · cases hExec
      · split at hExec
        · next hAll =>
          cases hExec
          refine ⟨?_, List.all_eq_true.mp hAll⟩
          rw [foldl_upsertAttemptResponse_lessonAttempts, find_upsertLessonAttempt, if_pos rfl]
          simp [upserted, hStored, LessonAttempt.resubmit]
        · cases hExec

end Tables

/-- The message whose JSON a response is. -/
def ResponseJSON.message : ResponseJSON → Answer
  | .singleChoice selected => .mcqSelected selected
  | .multipleChoice selectedIndexes => .mcqMultiple selectedIndexes
  | .fillBlank answers => .fillBlank answers
  | .listening comprehensionAnswers => .listening comprehensionAnswers
  | .reading audioObjectKey => .reading audioObjectKey
  | .writing text => .writing text

theorem ResponseJSON.message_injective : Function.Injective ResponseJSON.message := by
  intro r r' hSame
  cases r <;> cases r' <;> cases hSame <;> rfl

theorem Converted.message {resp : AttemptResponseInput} {g : GradedResponse}
    (h : Converted resp g) : g.responseJSON.message = resp.response := by
  obtain ⟨interactionID, json, grade⟩ := g
  obtain ⟨_, kind, toJSON, hKind, hJSON⟩ := h
  cases kind <;> cases hKind <;> cases hResponse : resp.response <;> rw [hResponse] at hJSON <;>
    cases hJSON <;> rfl

/-- The submission with the events `h` stores for the user's attempt the responses that are stored,
with the same total. -/
structure Resubmits (db : Db) (caller : Except Error UUID) (req : SubmitAttemptRequest)
    (stored : LessonAttempt) (h : History) : Prop where
  attempt : ∃ userID, caller = .ok userID ∧
    db.lessonAttempts.find (userID, req.lessonId) = some stored
  responses : ∀ resp ∈ req.responses, ∃ old ∈ db.responsesOf stored.id,
    old.interactionId = resp.interactionId ∧ old.response.message = resp.response
  grades : ∀ p rs out, h.Has (.upsertAttempt p rs) (.ok out) → p.totalScore = stored.totalScore ∧
    ∀ r ∈ rs, ∃ old ∈ db.responsesOf stored.id, old.interactionId = r.interactionId ∧
      old.score = r.score ∧ old.maxScore = r.maxScore

/-- The previous attempt has been read, and its responses too unless there are none to compare. -/
def Compares (req : SubmitAttemptRequest) (h : History) : Prop :=
  ∃ id r, responsesRead h = some (id, r) ∧ (req.responses = [] ∨ ∃ rows, r = .ok rows)

section Compare

variable {prev : Option (LessonAttempt × List (LessonAttemptResponse × String))}
  {graded : List GradedResponse} {totalScore : ℚ} {h : History}

/-- A submission is free when it repeats the total, and each of its responses is stored and has no
field. -/
theorem shouldIncrement_eq_false_iff :
    shouldIncrement prev graded totalScore = false ↔ ∃ a rows, prev = some (a, rows) ∧
      totalScore = a.totalScore ∧ ∀ g ∈ graded, g.responseJSON = .listening [] ∧
        ∃ r, (rows.find? fun r => r.1.interactionId = g.interactionID) = some r ∧
          r.1.response = .listening [] := by
  cases prev with
  | none => simp [shouldIncrement]
  | some x =>
    obtain ⟨a, rows⟩ := x
    unfold shouldIncrement
    dsimp only
    rw [Bool.or_eq_false_iff, decide_eq_false_iff_not, not_not, List.any_eq_false]
    simp only [Bool.not_eq_true]
    constructor
    · rintro ⟨hTotal, hAll⟩
      refine ⟨a, rows, rfl, hTotal, fun g hg => ?_⟩
      have hSame := hAll g hg
      cases hFind : rows.find? fun r => r.1.interactionId = g.interactionID with
      | none =>
        rw [hFind] at hSame
        cases hSame
      | some r =>
        rw [hFind] at hSame
        obtain ⟨hStored, hGraded⟩ := jsonb_eq_go_iff.mp (not_not.mp (of_decide_eq_false hSame))
        exact ⟨hGraded, r, rfl, hStored⟩
    · rintro ⟨a', rows', hEq, hTotal, hAll⟩
      cases hEq
      refine ⟨hTotal, fun g hg => ?_⟩
      obtain ⟨hGraded, r, hFind, hStored⟩ := hAll g hg
      rw [hFind]
      exact decide_eq_false (not_not.mpr (jsonb_eq_go_iff.mpr ⟨hStored, hGraded⟩))

/-- What follows the reads is no read. -/
theorem responsesRead_of_reads (reads : History) {tail : History} (p : UpsertLessonAttemptParams)
    (rs : List UpsertAttemptResponseParams)
    (r : Except DbError (LessonAttempt × List (LessonAttemptResponse × String)))
    (hTail : ∀ e ∈ tail, e.op.isUpsert = false ∧ e.op.isRead = false) :
    responsesRead (reads ++ ⟨.upsertAttempt p rs, r⟩ :: tail) = responsesRead reads := by
  have hNone : responsesRead (⟨.upsertAttempt p rs, r⟩ :: tail) = none := by
    unfold responsesRead
    rw [List.findSome?_eq_none_iff]
    intro e he
    split
    · rcases List.mem_cons.mp he with hEq | he
      · cases hEq
      · exact absurd (hTail _ he).2 nofun
    · rfl
  rw [responsesRead_append, hNone, Option.or_none]

end Compare

section Decisions

variable {req : SubmitAttemptRequest} {userID : UUID} {graded : List GradedResponse}
  {prev : Option (LessonAttempt × List (LessonAttemptResponse × String))} {totalScore : ℚ}
  {reads : History} {db : Db}

/-- A stored response is found in the list of its attempt, as the only one to its interaction. -/
theorem find_listed {old : LessonAttemptResponse} {attemptID : UUID}
    (hOld : old ∈ db.responsesOf attemptID)
    (hInteraction : (db.lessonInteractions.find old.interactionId).isSome = true) :
    ∃ kind, ((listAttemptResponses attemptID db).find? fun r =>
      r.1.interactionId = old.interactionId) = some (old, kind) := by
  obtain ⟨hAttempt, hFind⟩ := mem_responsesOf.mp hOld
  obtain ⟨i, hi⟩ := Option.isSome_iff_exists.mp hInteraction
  have hListed : (old, i.kind) ∈ listAttemptResponses attemptID db :=
    mem_listAttemptResponses.mpr ⟨Table.mem_rows_iff.mpr hFind, hAttempt, i, hi, rfl⟩
  cases hFound : (listAttemptResponses attemptID db).find? fun r =>
      r.1.interactionId = old.interactionId with
  | none => exact absurd (decide_eq_true rfl) (List.find?_eq_none.mp hFound _ hListed)
  | some x =>
    obtain ⟨found, kind⟩ := x
    have hId : found.interactionId = old.interactionId := by simpa using List.find?_some hFound
    obtain ⟨hRow, hFoundAttempt, _⟩ :=
      mem_listAttemptResponses.mp (List.mem_of_find?_eq_some hFound)
    have hKeys : found.key = old.key := Prod.ext (hFoundAttempt.trans hAttempt.symm) hId
    have hFoundFind := Table.mem_rows_iff.mp hRow
    rw [hKeys, hFind] at hFoundFind
    rw [← Option.some.inj hFoundFind]
    exact ⟨kind, rfl⟩

/-- A free submission has compared, and all of its responses are listenings without answers. -/
theorem compares_of_free (hConverted : List.Forall₂ Converted req.responses graded)
    (hCompared : Compared userID req.lessonId reads prev)
    (hFree : shouldIncrement prev graded totalScore = false) :
    Compares req reads ∧ ∀ resp ∈ req.responses, resp.response = .listening [] := by
  obtain ⟨a, rows, hPrev, _, hAll⟩ := shouldIncrement_eq_false_iff.mp hFree
  have hEach : ∀ resp ∈ req.responses, resp.response = .listening [] ∧ rows ≠ [] := by
    intro resp hResp
    obtain ⟨g, hg, hConv⟩ := exists_of_forall₂_left hConverted hResp
    obtain ⟨hJSON, r, hFound, _⟩ := hAll g hg
    refine ⟨?_, fun hNil => ?_⟩
    · rw [← hConv.message, hJSON]
      rfl
    · rw [hNil] at hFound
      cases hFound
  refine ⟨?_, fun resp hResp => (hEach resp hResp).1⟩
  cases hRead : responsesRead reads with
  | none =>
    rw [hCompared.none hRead] at hPrev
    cases hPrev
  | some x =>
    obtain ⟨id, r⟩ := x
    obtain ⟨a', _, _, hPrev'⟩ := hCompared.some id r hRead
    rw [hPrev] at hPrev'
    cases hPrev'
    refine ⟨id, r, hRead, ?_⟩
    by_cases hNone : req.responses = []
    · exact .inl hNone
    · obtain ⟨resp, hResp⟩ := List.exists_mem_of_ne_nil _ hNone
      cases r with
      | error e => exact absurd rfl (hEach resp hResp).2
      | ok rows => exact .inr ⟨rows, rfl⟩

/-- A submission that repeats the stored responses, none of which has a field, with the stored total
is free. -/
theorem free_of_compares {stored : LessonAttempt} (hTrace : Prog.Trace exec db reads db)
    (hReads : OnlyReads reads) (hConverted : List.Forall₂ Converted req.responses graded)
    (hCompared : Compared userID req.lessonId reads prev)
    (hFind : db.lessonAttempts.find (userID, req.lessonId) = some stored)
    (hTotal : totalScore = stored.totalScore)
    (hResponses : ∀ resp ∈ req.responses, ∃ old ∈ db.responsesOf stored.id,
      old.interactionId = resp.interactionId ∧ old.response.message = resp.response)
    (hInteractions : ∀ g ∈ graded, (db.lessonInteractions.find g.interactionID).isSome = true)
    (hCompares : Compares req reads)
    (hListening : ∀ resp ∈ req.responses, resp.response = .listening []) :
    shouldIncrement prev graded totalScore = false := by
  obtain ⟨id, r, hRead, hRows⟩ := hCompares
  obtain ⟨a, hHas, hId, hPrev⟩ := hCompared.some id r hRead
  have hAttempt : a = stored := by
    obtain ⟨env, db₁, hGet⟩ := read_exec hTrace hReads hHas
    simp only [exec, Option.some.injEq, Prod.mk.injEq, orFailure_eq_ok, one_eq_ok, hFind] at hGet
    exact hGet.1.2.symm
  subst hAttempt
  refine shouldIncrement_eq_false_iff.mpr ⟨a, _, hPrev, hTotal, fun g hg => ?_⟩
  obtain ⟨resp, hResp, hConv⟩ := exists_of_forall₂_right hConverted hg
  have hMessage := hListening resp hResp
  refine ⟨ResponseJSON.message_injective (hConv.message.trans hMessage), ?_⟩
  rcases hRows with hNone | ⟨rows, rfl⟩
  · rw [hNone] at hResp
    cases hResp
  · obtain ⟨old, hOld, hOldId, hOldMessage⟩ := hResponses resp hResp
    have hSameId : old.interactionId = g.interactionID := hOldId.trans hConv.1.symm
    have hList : listAttemptResponses a.id db = rows := by
      obtain ⟨env, db₁, hExec⟩ := read_exec hTrace hReads (has_of_responsesRead hRead)
      simp only [exec, Option.some.injEq, Prod.mk.injEq, orFailure_eq_ok, Except.ok.injEq] at hExec
      rw [hId]
      exact hExec.1.2
    obtain ⟨kind, hFound⟩ := find_listed hOld (hSameId ▸ hInteractions g hg)
    rw [hList, hSameId] at hFound
    exact ⟨_, hFound, ResponseJSON.message_injective (hOldMessage.trans hMessage)⟩

end Decisions

/-- A submission that repeats what is stored is free exactly when the previous attempt could be read
and all of its responses are those of listenings without answers. -/
theorem resubmit_free_iff {s : InteractionsSvc} {caller : Except Error UUID}
    {req : SubmitAttemptRequest} {envs : List Env} {db db' : Db} {stored : LessonAttempt}
    {out : LessonAttempt × List (LessonAttemptResponse × String)} {h : History}
    (hRun : (submitAttempt s caller req).run.log exec envs db = some (.ok out, db', h))
    (hSame : Resubmits db caller req stored h) :
    (db'.lessonAttempts.find stored.key).map (·.attemptCount) = some stored.attemptCount ↔
      Compares req h ∧ ∀ resp ∈ req.responses, resp.response = .listening [] := by
  obtain ⟨hTrace, userID, hCaller, hDecided⟩ :=
    Prog.Along.of_log (submitAttempt_decided s caller req) hRun
  obtain ⟨userID', hCaller', hFind⟩ := hSame.attempt
  cases hCaller.symm.trans hCaller'
  cases hDecided with
  | @mk graded prev p reads tail hConverted hCompared hUser hLesson hIncrement hReads hTail =>
    obtain ⟨u, hBefore, hAfter⟩ := hTrace.of_append
    obtain rfl : u = db := trace_reads hBefore hReads
    cases hAfter with
    | @cons env o r x v y l hExec hCleanup =>
      obtain rfl : db' = v := trace_deletes hCleanup fun e he => (hTail e he).1
      rw [← hUser, ← hLesson] at hFind
      obtain ⟨hCount, hInteractions⟩ := upsert_attemptCount hFind hExec
      have hFree : (db'.lessonAttempts.find stored.key).map (·.attemptCount) =
          some stored.attemptCount ↔ shouldIncrement prev graded p.totalScore = false := by
        rw [Table.find_key hFind, hCount, ← hIncrement]
        cases p.shouldIncrement <;> simp
      have hTotal : p.totalScore = stored.totalScore :=
        (hSame.grades p _ out (List.mem_append_right _ (List.mem_cons_self ..))).1
      have hGraded : ∀ g ∈ graded, (u.lessonInteractions.find g.interactionID).isSome = true :=
        fun g hg => hInteractions (responseParams req.responses g) (List.mem_map_of_mem hg)
      have hReadAll := responsesRead_of_reads reads p
        (graded.map (responseParams req.responses)) (.ok out) hTail
      rw [hUser, hLesson] at hFind
      rw [hFree]
      constructor
      · intro hFree
        obtain ⟨⟨id, r, hRead, hRows⟩, hListening⟩ := compares_of_free hConverted hCompared hFree
        exact ⟨⟨id, r, hReadAll.trans hRead, hRows⟩, hListening⟩
      · intro ⟨⟨id, r, hRead, hRows⟩, hListening⟩
        exact free_of_compares hBefore hReads hConverted hCompared hFind hTotal hSame.responses
          hGraded ⟨id, r, hReadAll.symm.trans hRead, hRows⟩ hListening

/-- What is stored of a student's first attempt, which answers the only question of the lesson. -/
def firstAttempt (score : ℚ) : LessonAttempt := ⟨1000, 100, 1, score, 1, "submitted", 1, none⟩

def answered (kind : String) (response : ResponseJSON) (score : ℚ) : Db where
  lessons := .ofList [⟨1, 3, none⟩]
  lessonInteractions := .ofList [⟨10, 1, kind, 0⟩]
  lessonAttempts := .ofList [firstAttempt score]
  lessonAttemptResponses := .ofList [⟨1000, 10, response, score, 1, "", none, 0⟩]

/-- The student submits an answer to it. -/
def answer (response : Answer) : SubmitAttemptRequest := ⟨1, [⟨10, 0, 0, response⟩], 0⟩

/-- Nothing fails, and the answer is graded. -/
def regraded (score : ℚ) : List Env := List.replicate 7 ⟨none, none, ⟨score, 1, ""⟩, none, 1001⟩

/-- The answer is stored with the score. -/
def storesScore (score : ℚ) (h : History) : Bool :=
  h.all fun
    | ⟨.upsertAttempt p rs, .ok _⟩ => decide (p.totalScore = score) && rs.all fun r =>
        decide (r.interactionId = 10 ∧ r.score = score ∧ r.maxScore = 1)
    | _ => true

theorem resubmits_answered {kind : String} {response : ResponseJSON} {score : ℚ} {h : History}
    (hUpsert : storesScore score h = true) :
    Resubmits (answered kind response score) (.ok 100) (answer response.message)
      (firstAttempt score) h := by
  have hOld : (⟨1000, 10, response, score, 1, "", none, 0⟩ : LessonAttemptResponse) ∈
      (answered kind response score).responsesOf (firstAttempt score).id :=
    List.mem_filter.mpr ⟨List.mem_cons_self, rfl⟩
  refine ⟨⟨100, rfl, rfl⟩, fun resp hResp => ?_, fun p rs out hHas => ?_⟩
  · rw [answer, List.mem_singleton] at hResp
    subst hResp
    exact ⟨_, hOld, rfl, rfl⟩
  · obtain ⟨hTotal, hRows⟩ := Bool.and_eq_true_iff.mp (List.all_eq_true.mp hUpsert _ hHas)
    refine ⟨of_decide_eq_true hTotal, fun r hr => ?_⟩
    obtain ⟨hId, hScore, hMax⟩ := of_decide_eq_true (List.all_eq_true.mp hRows r hr)
    exact ⟨_, hOld, hId.symm, hScore.symm, hMax.symm⟩

/-- A listening is left without answers, twice. -/
theorem resubmit_free_iff_listening : ∃ out db' h,
    (submitAttempt ⟨false, false, 500, .float32⟩ (.ok 100) (answer (.listening []))).run.log exec
      (regraded 0) (answered "listening" (.listening []) 0) = some (.ok out, db', h) ∧
    ((db'.lessonAttempts.find (firstAttempt 0).key).map (·.attemptCount) = some 1 ↔
      Compares (answer (.listening [])) h ∧
        ∀ resp ∈ (answer (.listening [])).responses, resp.response = .listening []) := by
  have hRun : ((submitAttempt ⟨false, false, 500, .float32⟩ (.ok 100) (answer (.listening []))).run.log exec
      (regraded 0) (answered "listening" (.listening []) 0)).any (fun (r, _, h) =>
        r.isOk && storesScore 0 h) = true := by
    decide +kernel
  obtain ⟨⟨r, db', h⟩, hLog, hEnd⟩ := (Option.any_eq_true _ _).mp hRun
  obtain ⟨hOk, hUpsert⟩ := Bool.and_eq_true_iff.mp hEnd
  cases r with
  | error e => cases hOk
  | ok out => exact ⟨out, db', h, hLog, resubmit_free_iff hLog (resubmits_answered hUpsert)⟩

/-- The same answer to a choice, with the same grade, consumes a second attempt. -/
theorem same_choice_consumes_attempt : ∃ out db' h,
    (submitAttempt ⟨false, false, 500, .float32⟩ (.ok 100) (answer (.mcqSelected 0))).run.log exec
      (regraded 1) (answered "mcq" (.singleChoice 0) 1) = some (.ok out, db', h) ∧
    Resubmits (answered "mcq" (.singleChoice 0) 1) (.ok 100) (answer (.mcqSelected 0))
      (firstAttempt 1) h ∧
    (firstAttempt 1).attemptCount = 1 ∧
    (db'.lessonAttempts.find (firstAttempt 1).key).map (·.attemptCount) = some 2 := by
  have hRun : ((submitAttempt ⟨false, false, 500, .float32⟩ (.ok 100) (answer (.mcqSelected 0))).run.log exec
      (regraded 1) (answered "mcq" (.singleChoice 0) 1)).any (fun (r, db', h) => r.isOk &&
        (decide ((db'.lessonAttempts.find (firstAttempt 1).key).map (·.attemptCount) = some 2) &&
          storesScore 1 h)) = true := by
    decide +kernel
  obtain ⟨⟨r, db', h⟩, hLog, hEnd⟩ := (Option.any_eq_true _ _).mp hRun
  obtain ⟨hOk, hEnd⟩ := Bool.and_eq_true_iff.mp hEnd
  obtain ⟨hCount, hUpsert⟩ := Bool.and_eq_true_iff.mp hEnd
  cases r with
  | error e => cases hOk
  | ok out => exact ⟨out, db', h, hLog, resubmits_answered hUpsert, rfl, of_decide_eq_true hCount⟩

end Richter.Interactions
