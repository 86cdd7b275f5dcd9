import Mathlib.Algebra.Ring.Rat
import Richter.Interactions.Db
import Richter.Lib.Binary

/-! `SubmitAttempt` (`internal/svc/interactions/attempts.go`), and what it has made sure of when it
comes to its transaction. -/

namespace Richter.Interactions

open Lib

abbrev Handler := ExceptT Error (Prog Op Op.Resp)

def perform (o : Op) : Handler o.Resp := ExceptT.lift (Prog.perform o)

/-- An error of the database becomes the handler's. -/
def orConnectDBError {α : Type} : Except DbError α → Handler α
  | .ok a => pure a
  | .error e => throw (connectDBError e)

/-- How scores are added up: exactly, or as the code does it. -/
inductive Arithmetic
  | exact
  | float32
  deriving DecidableEq, Repr

def Arithmetic.round : Arithmetic → ℚ → ℚ
  | .exact => id
  | .float32 => roundFloat32

/-- `total += score`, for one score after the other. -/
def Arithmetic.total (a : Arithmetic) (scores : List ℚ) : ℚ :=
  scores.foldl (fun total score => a.round (total + score)) 0

/-- No running total of the scores is rounded. -/
def Arithmetic.addsExactly (a : Arithmetic) (scores : List ℚ) : Bool :=
  scores.inits.all fun part => a.round part.sum = part.sum

theorem Arithmetic.total_eq_sum {a : Arithmetic} {scores : List ℚ}
    (h : a.addsExactly scores = true) : a.total scores = scores.sum := by
  simp only [addsExactly, List.all_eq_true, List.mem_inits, decide_eq_true_eq] at h
  induction scores using List.reverseRecOn with
  | nil => rfl
  | append_singleton scores score ih =>
    have hBefore := ih fun part hPart => h part (hPart.trans (List.prefix_append ..))
    have hLast := h _ List.prefix_rfl
    rw [total, List.foldl_append, ← total, hBefore]
    rwa [List.sum_append, List.sum_singleton] at hLast ⊢

example : Arithmetic.float32.addsExactly [1 / 2, 3 / 4] = true ∧
    Arithmetic.float32.addsExactly [roundFloat32 (7 / 10), roundFloat32 (1 / 10)] = false := by
  decide +kernel

/-- The service's settings: whether it has a FoundationDB store and an `AudioObjectDeleter`, and
`listLimit`; and how it adds scores. -/
structure InteractionsSvc where
  kv : Bool
  deleteAudio : Bool
  listLimit : Nat
  arithmetic : Arithmetic
  deriving DecidableEq, Repr

structure SubmitAttemptRequest where
  lessonId : UUID
  responses : List AttemptResponseInput
  videoWatchFraction : ℚ
  deriving DecidableEq

structure GradedResponse where
  interactionID : UUID
  responseJSON : ResponseJSON
  grade : Grade
  deriving DecidableEq

/-- The check of `max_attempts`; an attempt that cannot be read does not count. -/
def requireAttemptLeft (lesson : Lesson) (lessonID userID : UUID) : Handler Unit := do
  if 0 < lesson.maxAttempts then
    match ← perform (.getMyLessonAttempt lessonID userID) with
    | .error _ => return
    | .ok prevAttempt =>
      if lesson.maxAttempts ≤ prevAttempt.attemptCount then
        throw (.connect .permissionDenied ("bạn đã hết số lần làm bài cho phép (tối đa " ++
          toString lesson.maxAttempts ++ " lần)"))

/-- The cached grade, if it is one of this response. -/
def cachedGrade (s : InteractionsSvc) (userID lessonID interactionID : UUID)
    (responseJSON : ResponseJSON) : Handler (Option Grade) := do
  if s.kv then
    let cached ← perform (.tempGrade userID lessonID interactionID)
    return (cached.filter fun c => c.responsePayload = goLayout.text responseJSON).map (·.grade)
  else return none

/-- One round of the grading loop. -/
def gradeResponse (s : InteractionsSvc) (userID lessonID : UUID)
    (interactions : List LessonInteraction) (resp : AttemptResponseInput) :
    Handler GradedResponse := do
  match interactions.find? fun i => i.id = resp.interactionId with
  | none =>
    throw (.connect .notFound ("interaction " ++ toString resp.interactionId ++ " not found"))
  | some interaction =>
    match responseProtoToJSON (dbStringToKind interaction.kind) with
    | none =>
      throw (.connect .unimplemented
        ("no handler for interaction kind \"" ++ interaction.kind ++ "\""))
    | some toJSON =>
      match toJSON resp.response with
      | .error e => throw e
      | .ok responseJSON =>
        match ← cachedGrade s userID lessonID resp.interactionId responseJSON with
        | some grade => return ⟨resp.interactionId, responseJSON, grade⟩
        | none =>
          return ⟨resp.interactionId, responseJSON, ← perform (.grade interaction responseJSON)⟩

/-- The grading loop.  The graders run side by side, and each fills its own place of the list. -/
def gradeResponses (s : InteractionsSvc) (userID lessonID : UUID)
    (interactions : List LessonInteraction) :
    List AttemptResponseInput → Handler (List GradedResponse)
  | [] => return []
  | resp :: rest => do
    let graded ← gradeResponse s userID lessonID interactions resp
    return graded :: (← gradeResponses s userID lessonID interactions rest)

/-- The previous attempt and its responses, as far as they can be read. -/
def previousAttempt (lessonID userID : UUID) :
    Handler (Option (LessonAttempt × List (LessonAttemptResponse × String))) := do
  match ← perform (.getMyLessonAttempt lessonID userID) with
  | .error _ => return none
  | .ok attempt =>
    match ← perform (.listAttemptResponses attempt.id) with
    | .error _ => return some (attempt, [])
    | .ok responses => return some (attempt, responses)

/-- Whether the submission consumes an attempt: the first one does, and one that changes the total
score or a response, by the texts of both. -/
def shouldIncrement (prev : Option (LessonAttempt × List (LessonAttemptResponse × String)))
    (graded : List GradedResponse) (totalScore : ℚ) : Bool :=
  match prev with
  | none => true
  | some (attempt, responses) =>
      totalScore ≠ attempt.totalScore || graded.any fun g =>
        match responses.find? fun r => r.1.interactionId = g.interactionID with
        | none => true
        | some r => jsonbLayout.text r.1.response ≠ goLayout.text g.responseJSON

/-- The recordings of the previous attempt. -/
def oldAudioKeys (interactions : List LessonInteraction)
    (prev : Option (LessonAttempt × List (LessonAttemptResponse × String))) : List String :=
  ((prev.map Prod.snd).getD []).filterMap fun r =>
    (interactions.find? fun i => i.id = r.1.interactionId).bind fun i =>
      audioObjectKeyFromResponse (dbStringToKind i.kind) r.1.response

def maxTimeToAnswerMs : Int := 30 * 60 * 1000

def maxReplayCount : Int := 100

/-- What is stored of a response, with the metrics of the last input for its interaction. -/
def responseParams (responses : List AttemptResponseInput) (g : GradedResponse) :
    UpsertAttemptResponseParams :=
  let input := (responses.filter fun r => r.interactionId = g.interactionID).getLast?
  let timeToAnswerMs := (input.map fun r => min r.timeToAnswerMs maxTimeToAnswerMs).getD 0
  { interactionId := g.interactionID
    response := g.responseJSON
    score := g.grade.score
    maxScore := g.grade.maxScore
    feedback := g.grade.feedback
    timeToAnswerMs := if 0 < timeToAnswerMs then some timeToAnswerMs else none
    replayCount := (input.map fun r => min r.replayCount maxReplayCount).getD 0 }

/-- The watch fraction: the server's own, or else the client's. -/
def watchFraction (s : InteractionsSvc) (lesson : Lesson) (userID : UUID)
    (req : SubmitAttemptRequest) : Handler (Option ℚ) := do
  let client := if 0 ≤ req.videoWatchFraction then some req.videoWatchFraction else none
  match s.kv, lesson.durationSeconds with
  | true, some durationSeconds =>
    match ← perform (.watchCoverageFraction userID req.lessonId durationSeconds) with
    | none => return client
    | some serverFrac => return if 0 ≤ serverFrac then some serverFrac else client
  | _, _ => return client

def performAll : List Op → Handler Unit
  | [] => return
  | o :: os => do
    let _ ← perform o
    performAll os

/-- The cached grades and the old recordings that are deleted after a submission. -/
def cleanup (s : InteractionsSvc) (userID : UUID) (req : SubmitAttemptRequest)
    (audioKeys : List String) : List Op :=
  (if s.kv then req.responses.map fun r => .deleteTempGrade userID req.lessonId r.interactionId
    else []) ++
  if s.deleteAudio then audioKeys.map .deleteAudio else []

/-- `SubmitAttempt`.  `caller` is what the access checks make of the request: its user, or their
error. -/
def submitAttempt (s : InteractionsSvc) (caller : Except Error UUID) (req : SubmitAttemptRequest) :
    Handler (LessonAttempt × List (LessonAttemptResponse × String)) := do
  let userID ← MonadExcept.ofExcept caller
  let lesson ← orConnectDBError (← perform (.getLessonByID req.lessonId))
  requireAttemptLeft lesson req.lessonId userID
  let interactions ← orConnectDBError
    (← perform (.listLessonInteractions req.lessonId s.listLimit 0))
  if interactions.isEmpty then
    throw (.connect .failedPrecondition "lesson has no interactions")
  else
    let graded ← gradeResponses s userID req.lessonId interactions req.responses
    let totalScore := s.arithmetic.total (graded.map fun g => g.grade.score)
    let prev ← previousAttempt req.lessonId userID
    let fraction ← watchFraction s lesson userID req
    let out ← orConnectDBError (← perform (.upsertAttempt
      { lessonId := req.lessonId
        userId := userID
        totalScore := totalScore
        maxScore := s.arithmetic.total (graded.map fun g => g.grade.maxScore)
        status := "submitted"
        videoWatchFraction := fraction
        shouldIncrement := shouldIncrement prev graded totalScore }
      (graded.map (responseParams req.responses))))
    performAll (cleanup s userID req (oldAudioKeys interactions prev))
    return out

abbrev History := List (Prog.Event Op Op.Resp)

/-- What the first read of the attempt has answered, which is the limit check's if there is one. -/
def limitRead (h : History) : Option (Except DbError LessonAttempt) :=
  h.findSome? fun
    | ⟨.getMyLessonAttempt .., r⟩ => some r
    | _ => none

/-- The transaction of a request stores exactly one graded row for each response, with their totals,
for the lesson and the user of the request. -/
structure Totals (s : InteractionsSvc) (caller : Except Error UUID) (req : SubmitAttemptRequest)
    (p : UpsertLessonAttemptParams) (rs : List UpsertAttemptResponseParams) : Prop where
  userId : caller = .ok p.userId
  lessonId : p.lessonId = req.lessonId
  interactionIds : rs.map (·.interactionId) = req.responses.map (·.interactionId)
  totalScore : p.totalScore = s.arithmetic.total (rs.map (·.score))
  maxScore : p.maxScore = s.arithmetic.total (rs.map (·.maxScore))

/-- The lesson's limit has been checked against the attempt that was read. -/
def LimitChecked (h : History) (lessonID : UUID) : Prop :=
  ∃ lesson, ⟨.getLessonByID lessonID, .ok lesson⟩ ∈ h ∧ (0 < lesson.maxAttempts →
    ∃ r, limitRead h = some r ∧ ∀ a, r = .ok a → a.attemptCount < lesson.maxAttempts)

/-- What a request makes sure of before each of its operations. -/
def Submits (s : InteractionsSvc) (caller : Except Error UUID) (req : SubmitAttemptRequest)
    (h : History) : Op → Prop
  | .upsertAttempt p rs => Totals s caller req p rs ∧ LimitChecked h p.lessonId
  | _ => True

theorem limitRead_prefix {h h' : History} {r : Except DbError LessonAttempt} (hPre : h <+: h')
    (hr : limitRead h = some r) : limitRead h' = some r := by
  obtain ⟨l, rfl⟩ := hPre
  rw [limitRead, List.findSome?_append, ← limitRead, hr, Option.some_or]

theorem LimitChecked.mono {h h' : History} {lessonID : UUID} (hPre : h <+: h')
    (hChecked : LimitChecked h lessonID) : LimitChecked h' lessonID := by
  obtain ⟨lesson, hLesson, hLimit⟩ := hChecked
  refine ⟨lesson, hPre.subset hLesson, fun hMax => ?_⟩
  obtain ⟨r, hr, hLeft⟩ := hLimit hMax
  exact ⟨r, limitRead_prefix hPre hr, hLeft⟩

abbrev Meets {α : Type} (s : InteractionsSvc) (caller : Except Error UUID)
    (req : SubmitAttemptRequest) (x : Handler α) (ok : α → History → Prop) (h : History) : Prop :=
  Prog.Meets (fun o h r h' => h' = h ++ [⟨o, r⟩]) (Submits s caller req) x ok (fun _ => True) h

def Op.isUpsert : Op → Bool
  | .upsertAttempt .. => true
  | _ => false

/-- The operations before the transaction, which only read. -/
def Op.isRead : Op → Bool
  | .upsertAttempt .. | .deleteTempGrade .. | .deleteAudio _ => false
  | _ => true

theorem Op.isUpsert_of_isRead {o : Op} (h : o.isRead = true) : o.isUpsert = false := by
  cases o <;> first | rfl | cases h

/-- The part of a request does not come to the transaction. -/
abbrev Handler.Before {α : Type} (x : Handler α) : Prop :=
  x.run.Performs fun o => o.isUpsert = false

section Meets

variable {α β : Type} {s : InteractionsSvc} {caller : Except Error UUID}
  {req : SubmitAttemptRequest} {h : History}

theorem submits_of_not_upsert {o : Op} (ho : o.isUpsert = false) : Submits s caller req h o := by
  cases o with
  | upsertAttempt => cases ho
  | _ => trivial

theorem meets_perform {o : Op} {ok : o.Resp → History → Prop} :
    Meets s caller req (perform o) ok h ↔
      Submits s caller req h o ∧ ∀ r h', h' = h ++ [⟨o, r⟩] → ok r h' := Iff.rfl

theorem meets_orConnectDBError (r : Except DbError α) {ok : α → History → Prop} :
    Meets s caller req (orConnectDBError r) ok h ↔ ∀ a, r = .ok a → ok a h := by
  cases r with
  | error e => exact iff_of_true trivial nofun
  | ok a => exact ⟨fun hOk b hb => by cases hb; exact hOk, fun hOk => hOk a rfl⟩

theorem perform_before {o : Op} (ho : o.isUpsert = false) : Handler.Before (perform o) :=
  ⟨ho, fun _ => trivial⟩

theorem meets_before {x : Handler α} (hx : x.Before) :
    Meets s caller req x (fun _ h' => h <+: h') h := by
  refine (Prog.Performs.meets (I := fun h' => h <+: h') hx
    (fun _ _ ho _ => submits_of_not_upsert ho) ?_ List.prefix_rfl).mono (fun _ _ => id)
    fun _ _ => trivial
  rintro o h₁ r _ - hPre rfl
  exact hPre.trans (List.prefix_append ..)

theorem meets_before_bind {x : Handler α} {f : α → Handler β} {ok : β → History → Prop}
    (hx : x.Before) (hf : ∀ a h', h <+: h' → Meets s caller req (f a) ok h') :
    Meets s caller req (x >>= f) ok h :=
  (meets_before hx).bind hf

end Meets

section Rules

/-! The grading loop, in any semantics. -/

variable {σ : Type} {Step : (o : Op) → σ → o.Resp → σ → Prop} {P : σ → Op → Prop}
  (s : InteractionsSvc) (userID lessonID : UUID) {interactions : List LessonInteraction}

/-- A round that does not fail has found the interaction and its handler. -/
theorem meets_gradeResponse {resp : AttemptResponseInput} {ok : GradedResponse → σ → Prop}
    {err : σ → Prop} {a : σ} (hErr : err a)
    (h : ∀ i toJSON responseJSON, i ∈ interactions → i.id = resp.interactionId →
      responseProtoToJSON (dbStringToKind i.kind) = some toJSON →
      toJSON resp.response = .ok responseJSON →
      Prog.Meets Step P (cachedGrade s userID lessonID resp.interactionId responseJSON)
        (fun cached b => match cached with
          | some grade => ok ⟨resp.interactionId, responseJSON, grade⟩ b
          | none => P b (.grade i responseJSON) ∧ ∀ grade c,
              Step (.grade i responseJSON) b grade c →
                ok ⟨resp.interactionId, responseJSON, grade⟩ c) err a) :
    Prog.Meets Step P (gradeResponse s userID lessonID interactions resp) ok err a := by
  unfold gradeResponse
  split
  · exact hErr
  · next i hFind =>
    have hMem := List.mem_of_find?_eq_some hFind
    have hId : i.id = resp.interactionId := by simpa using List.find?_some hFind
    split
    · exact hErr
    · next toJSON hKind =>
      split
      · exact hErr
      · next responseJSON hJSON =>
        refine (h i toJSON responseJSON hMem hId hKind hJSON).bind ?_
        intro cached b hCached
        cases cached with
        | some grade => exact hCached
        | none => exact hCached

/-- What every round leads to and the later rounds keep, the loop leads to. -/
theorem meets_gradeResponses {R E : σ → σ → Prop}
    {Q : σ → AttemptResponseInput → GradedResponse → Prop} (hRefl : ∀ a, R a a)
    (hTrans : ∀ a b c, R a b → R b c → R a c)
    (hMono : ∀ a b resp g, R a b → Q a resp g → Q b resp g)
    (hErr : ∀ a b c, R a b → E b c → E a c)
    (h : ∀ a resp, Prog.Meets Step P (gradeResponse s userID lessonID interactions resp)
      (fun g b => R a b ∧ Q b resp g) (E a) a) (responses : List AttemptResponseInput) (a : σ) :
    Prog.Meets Step P (gradeResponses s userID lessonID interactions responses)
      (fun graded b => R a b ∧ List.Forall₂ (Q b) responses graded) (E a) a := by
  induction responses generalizing a with
  | nil => exact ⟨hRefl a, .nil⟩
  | cons resp rest ih =>
    refine (h a resp).bind ?_
    intro g b ⟨hFirst, hGraded⟩
    refine (Prog.meets_bind _).mpr ((ih b).mono ?_ fun c => hErr a b c hFirst)
    intro graded c ⟨hRest, hAll⟩
    exact ⟨hTrans a b c hFirst hRest, .cons (hMono b c resp g hRest hGraded) hAll⟩

end Rules

section Parts

variable {caller : Except Error UUID} {req : SubmitAttemptRequest} {h : History}
  (s : InteractionsSvc) (userID lessonID : UUID)

/-! What the parts perform. -/

theorem requireAttemptLeft_performs {A : Op → Prop} (lesson : Lesson)
    (hA : A (.getMyLessonAttempt lessonID userID)) :
    (requireAttemptLeft lesson lessonID userID).run.Performs A := by
  unfold requireAttemptLeft
  split
  · refine ⟨hA, fun r => ?_⟩
    cases r with
    | error e => trivial
    | ok prevAttempt =>
      show Prog.Performs _ (ExceptT.run (if lesson.maxAttempts ≤ prevAttempt.attemptCount then _
        else _))
      split <;> trivial
  · trivial

theorem cachedGrade_performs {A : Op → Prop} {interactionID : UUID} (responseJSON : ResponseJSON)
    (hA : A (.tempGrade userID lessonID interactionID)) :
    (cachedGrade s userID lessonID interactionID responseJSON).run.Performs A := by
  unfold cachedGrade
  split
  · exact ⟨hA, fun _ => trivial⟩
  · trivial

theorem previousAttempt_performs {A : Op → Prop} (hA : A (.getMyLessonAttempt lessonID userID))
    (hResponses : ∀ attemptID, A (.listAttemptResponses attemptID)) :
    (previousAttempt lessonID userID).run.Performs A := by
  refine ⟨hA, fun r => ?_⟩
  cases r with
  | error e => trivial
  | ok attempt =>
    refine ⟨hResponses attempt.id, fun r => ?_⟩
    cases r <;> trivial

theorem watchFraction_performs {A : Op → Prop} (lesson : Lesson)
    (hA : ∀ durationSeconds, A (.watchCoverageFraction userID req.lessonId durationSeconds)) :
    (watchFraction s lesson userID req).run.Performs A := by
  unfold watchFraction
  cases s.kv with
  | false => trivial
  | true =>
    cases lesson.durationSeconds with
    | none => trivial
    | some durationSeconds =>
      refine ⟨hA durationSeconds, fun r => ?_⟩
      cases r <;> trivial

theorem performAll_performs {A : Op → Prop} {os : List Op} (hos : ∀ o ∈ os, A o) :
    (performAll os).run.Performs A := by
  induction os with
  | nil => trivial
  | cons o os ih =>
    rw [List.forall_mem_cons] at hos
    exact ⟨hos.1, fun _ => ih hos.2⟩

theorem watchFraction_reads (lesson : Lesson) :
    (watchFraction s lesson userID req).run.Performs fun o => o.isRead = true :=
  watchFraction_performs s userID lesson fun _ => rfl

/-- A cleanup deletes cached grades and recordings. -/
theorem of_mem_cleanup {A : Op → Prop} {audioKeys : List String}
    (hGrade : ∀ interactionID, A (.deleteTempGrade userID req.lessonId interactionID))
    (hAudio : ∀ k ∈ audioKeys, A (.deleteAudio k)) :
    ∀ o ∈ cleanup s userID req audioKeys, A o := by
  intro o ho
  rw [cleanup, List.mem_append] at ho
  rcases ho with ho | ho <;> split at ho
  · obtain ⟨r, _, rfl⟩ := List.mem_map.mp ho
    exact hGrade r.interactionId
  · cases ho
  · obtain ⟨k, hk, rfl⟩ := List.mem_map.mp ho
    exact hAudio k hk
  · cases ho

theorem isUpsert_of_mem_cleanup {audioKeys : List String} {o : Op}
    (ho : o ∈ cleanup s userID req audioKeys) : o.isUpsert = false :=
  of_mem_cleanup (A := fun o => o.isUpsert = false) s userID (fun _ => rfl) (fun _ _ => rfl) o ho

theorem cleanup_before (audioKeys : List String) :
    (performAll (cleanup s userID req audioKeys)).Before :=
  performAll_performs fun _ => isUpsert_of_mem_cleanup s userID

/-- Once the limit check has passed, a limited lesson's attempt has been read and had tries left. -/
theorem requireAttemptLeft_meets (lesson : Lesson) (hNone : limitRead h = none) :
    Meets s caller req (requireAttemptLeft lesson lessonID userID) (fun _ h' => h <+: h' ∧
      (0 < lesson.maxAttempts → ∃ r, limitRead h' = some r ∧
        ∀ a, r = .ok a → a.attemptCount < lesson.maxAttempts)) h := by
  unfold requireAttemptLeft
  split
  · refine (Prog.meets_bind _).mpr (meets_perform.mpr ⟨trivial, ?_⟩)
    rintro r h' rfl
    have hRead : limitRead (h ++ [⟨.getMyLessonAttempt lessonID userID, r⟩]) = some r := by
      rw [limitRead, List.findSome?_append, ← limitRead, hNone]
      rfl
    cases r with
    | error e => exact ⟨List.prefix_append .., fun _ => ⟨_, hRead, nofun⟩⟩
    | ok prevAttempt =>
      simp only
      split
      · trivial
      · next hLeft =>
        refine ⟨List.prefix_append .., fun _ => ⟨_, hRead, fun a ha => ?_⟩⟩
        cases ha
        exact Nat.lt_of_not_le hLeft
  · next hMax => exact ⟨List.prefix_rfl, fun hPos => absurd hPos hMax⟩

theorem gradeResponse_meets (interactions : List LessonInteraction)
    (resp : AttemptResponseInput) :
    Meets s caller req (gradeResponse s userID lessonID interactions resp)
      (fun g h' => h <+: h' ∧ g.interactionID = resp.interactionId) h := by
  apply meets_gradeResponse s userID lessonID trivial
  intro i toJSON responseJSON _ _ _ _
  refine (meets_before (cachedGrade_performs _ _ _ _ rfl)).mono ?_ fun _ => id
  intro cached h₁ hPre
  cases cached with
  | some grade => exact ⟨hPre, rfl⟩
  | none =>
    refine ⟨trivial, fun grade h₂ hNext => ?_⟩
    rw [hNext]
    exact ⟨hPre.trans (List.prefix_append ..), rfl⟩

theorem gradeResponses_meets (interactions : List LessonInteraction)
    (responses : List AttemptResponseInput) :
    Meets s caller req (gradeResponses s userID lessonID interactions responses)
      (fun graded h' => h <+: h' ∧
        graded.map (·.interactionID) = responses.map (·.interactionId)) h := by
  refine (meets_gradeResponses s userID lessonID (R := fun h h' => h <+: h')
    (Q := fun _ resp g => g.interactionID = resp.interactionId) (fun _ => List.prefix_rfl)
    (fun _ _ _ => List.IsPrefix.trans) (fun _ _ _ _ _ => id) (fun _ _ _ _ => id)
    (fun h => gradeResponse_meets s userID lessonID interactions) responses h).mono ?_ fun _ => id
  intro graded h' ⟨hPre, hIds⟩
  refine ⟨hPre, ?_⟩
  rw [← List.forall₂_eq_eq_eq, List.forall₂_map_left_iff, List.forall₂_map_right_iff]
  exact hIds.flip

end Parts

/-- What a request stores has been graded response by response, after the limit check. -/
theorem submitAttempt_submits (s : InteractionsSvc) (caller : Except Error UUID)
    (req : SubmitAttemptRequest) :
    Meets s caller req (submitAttempt s caller req) (fun _ _ => True) [] := by
  cases caller with
  | error e => trivial
  | ok userID =>
    refine (Prog.meets_bind _).mpr (meets_perform.mpr ⟨trivial, ?_⟩)
    rintro r _ rfl
    refine (Prog.meets_bind _).mpr ((meets_orConnectDBError r).mpr ?_)
    rintro lesson rfl
    refine (requireAttemptLeft_meets _ _ _ lesson rfl).bind ?_
    rintro _ h₁ ⟨hPre, hLimit⟩
    have hChecked : LimitChecked h₁ req.lessonId :=
      ⟨lesson, hPre.subset (by simp), hLimit⟩
    refine meets_before_bind (perform_before rfl) fun r h₂ hPre₂ => ?_
    refine (Prog.meets_bind _).mpr ((meets_orConnectDBError r).mpr ?_)
    rintro interactions -
    split
    · trivial
    · refine (gradeResponses_meets ..).bind ?_
      rintro graded h₃ ⟨hPre₃, hIds⟩
      refine meets_before_bind (previousAttempt_performs _ _ rfl fun _ => rfl)
        fun prev h₄ hPre₄ => ?_
      refine meets_before_bind ((watchFraction_reads ..).mono fun _ => Op.isUpsert_of_isRead)
        fun fraction h₅ hPre₅ => ?_
      refine (Prog.meets_bind _).mpr (meets_perform.mpr ⟨⟨?_, ?_⟩, fun r h₆ _ => ?_⟩)
      · refine ⟨rfl, rfl, ?_, ?_, ?_⟩
        · rw [List.map_map, ← hIds]
          rfl
        · rw [List.map_map]
          rfl
        · rw [List.map_map]
          rfl
      · exact hChecked.mono (hPre₂.trans (hPre₃.trans (hPre₄.trans hPre₅)))
      · refine (Prog.meets_bind _).mpr ((meets_orConnectDBError r).mpr ?_)
        rintro out -
        exact meets_before_bind (cleanup_before ..) fun _ _ _ => trivial

/-- Submissions that are served side by side, by their numbers. -/
abbrev Submissions :=
  Pool Nat Db Op Op.Resp (Except Error (LessonAttempt × List (LessonAttemptResponse × String)))

def Submissions.start (s : InteractionsSvc) (db : Db)
    (request : Nat → Except Error UUID × SubmitAttemptRequest) : Submissions :=
  Pool.start db fun i => (submitAttempt s (request i).1 (request i).2).run

/-- A submission takes its next step. -/
def submissions : Machine Submissions (Nat × Env) := Pool.machine fun _ => exec

/-- What every step of a submission preserves, every run of submissions preserves. -/
theorem submissions_invariant {s : InteractionsSvc} {db : Db}
    {request : Nat → Except Error UUID × SubmitAttemptRequest}
    {G : Submissions → Nat × Env → Prop} {I : Db → (Nat → History) → Prop}
    (hStep : ∀ (p : Submissions) i env o r db', G p (i, env) → p.next i = some o →
      Submits s (request i).1 (request i).2 (p.hist i) o → I p.store p.hist →
      exec env o p.store = some (r, db') →
      I db' (Function.update p.hist i (p.hist i ++ [⟨o, r⟩])))
    {steps : List (Nat × Env)} {p : Submissions}
    (hRun : submissions.Runs G (.start s db request) steps p) (hI : I db fun _ => []) :
    I p.store p.hist :=
  (Pool.runs_invariant (P := fun i => Submits s (request i).1 (request i).2)
    (Q := fun _ _ _ => True) hStep hRun (fun i => Prog.Ensures.mono
      (submitAttempt_submits s (request i).1 (request i).2) (fun _ _ => id) fun _ _ _ => trivial)
    hI).1

end Richter.Interactions
