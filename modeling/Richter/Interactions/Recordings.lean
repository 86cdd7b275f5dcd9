import Richter.Interactions.AttemptTotals
import Richter.Interactions.Session

/-! The recordings of readings.  A submission deletes the recordings of all the responses that were
stored before it, whether or not it replaces these responses. -/

namespace Richter.Interactions

open Lib

/-- No recording that the last submission has deleted is one of a response that is stored for the
attempt. -/
def Retained (x : Session) : Prop :=
  ∀ stored ∈ x.last.stored, ∀ k ∈ x.last.deletedAudio,
    ∀ r ∈ x.site.db.responsesOf stored.2.2.id, r.response ≠ .reading k

instance (x : Session) : Decidable (Retained x) := by unfold Retained; infer_instance

/-- The answer to an interaction that is stored: the last one. -/
def SubmitAttemptRequest.answer (req : SubmitAttemptRequest) (interactionID : UUID) :
    Option Answer :=
  (req.responses.reverse.find? fun r => r.interactionId = interactionID).map (·.response)

/-- Every stored response with a recording that is to be deleted is replaced, and by one with
another recording. -/
def replacesRecordings (s : InteractionsSvc) (db : Db) (caller : Except Error UUID)
    (req : SubmitAttemptRequest) : Bool :=
  match caller with
  | .error _ => true
  | .ok userID =>
    !s.deleteAudio || (db.lessonAttempts.find (userID, req.lessonId)).all fun a =>
      (oldAudioKeys (listLessonInteractions req.lessonId s.listLimit 0 db)
        (some (a, listAttemptResponses a.id db))).all fun k =>
          ((db.responsesOf a.id).all fun r =>
            r.response ≠ .reading k || (req.answer r.interactionId).isSome) &&
          req.responses.all fun r => req.answer r.interactionId ≠ some (.reading k)

/-- Whether a submission replaces the recordings that it deletes. -/
def submitsReplacing (s : InteractionsSvc) (x : Session) : Action → Bool
  | .submitAttempt _ _ caller req => replacesRecordings s x.site.db caller req
  | _ => true

/-- Lists that are related one by one have related first elements of a kind. -/
theorem forall₂_find?_eq_some {α β : Type} {R : α → β → Prop} {p : α → Bool} {q : β → Bool}
    (hpq : ∀ a b, R a b → p a = q b) {as : List α} {bs : List β} (h : List.Forall₂ R as bs) :
    (∀ b, bs.find? q = some b → ∃ a, as.find? p = some a ∧ R a b) ∧
      (bs.find? q = none → as.find? p = none) := by
  induction h with
  | nil => exact ⟨nofun, fun _ => rfl⟩
  | @cons a b as bs hab _ ih =>
    rw [List.find?_cons, List.find?_cons, hpq a b hab]
    cases q b with
    | true =>
      refine ⟨?_, nofun⟩
      rintro _ ⟨⟩
      exact ⟨a, rfl, hab⟩
    | false => exact ih

theorem reading_of_toJSON {kind : InteractionKind} {toJSON : Answer → Except Error ResponseJSON}
    {answer : Answer} {k : String} (h : responseProtoToJSON kind = some toJSON)
    (hJSON : toJSON answer = .ok (.reading k)) : answer = .reading k := by
  have hKind := kind_of_responseProtoToJSON h hJSON
  subst hKind
  cases h
  cases answer <;> cases hJSON
  rfl

section Step

variable {s : InteractionsSvc} {deps : GradingDeps} {x x' : Site} {h : History} {userID : UUID}
  {req : SubmitAttemptRequest} {out : LessonAttempt × List (LessonAttemptResponse × String)}

/-- The responses that are stored after a submission, against its request. -/
theorem response_after_submission (hTrace : Prog.Trace (siteExec deps) x h x')
    (hSubmitted : Submitted s userID req out h) {r : LessonAttemptResponse}
    (hr : r ∈ x'.db.responsesOf out.1.id) :
    (∃ answer, req.answer r.interactionId = some answer ∧
      ∀ k, r.response = .reading k → answer = .reading k) ∨
    (r ∈ x.db.responsesOf out.1.id ∧ req.answer r.interactionId = none) := by
  cases hSubmitted with
  | @mk interactions graded prev p reads tail hList hGraded hPrev hUser hLesson hReads hTail =>
    obtain ⟨newID, -, hDb⟩ := trace_stored hTrace rfl hReads fun e he =>
      isUpsert_of_mem_cleanup s userID (hTail e he)
    rw [hDb, Db.responsesOf, List.mem_filter, decide_eq_true_eq] at hr
    obtain ⟨hMem, hAttempt⟩ := hr
    -- The stored rows follow the request's responses one by one, in the reverse order as well.
    have hRelated := List.rel_reverse hGraded
    obtain ⟨hSome, hNone⟩ := forall₂_find?_eq_some
      (p := fun resp => decide (resp.interactionId = r.interactionId))
      (q := fun g => decide (g.interactionID = r.interactionId)) (by
        rintro resp g ⟨i, hi⟩
        rw [hi.interactionID]) hRelated
    rcases of_mem_foldl_upsertAttemptResponse hAttempt hMem with ⟨q, hq, hResponse⟩ | ⟨hOld, hq⟩
    · rw [← List.map_reverse, List.find?_map] at hq
      obtain ⟨g, hg, rfl⟩ := Option.map_eq_some_iff.mp hq
      obtain ⟨resp, hResp, i, hi⟩ := hSome g hg
      refine .inl ⟨resp.response, ?_, fun k hk => ?_⟩
      · rw [SubmitAttemptRequest.answer, hResp, Option.map_some]
      · obtain ⟨toJSON, hKind, hJSON⟩ := hi.responseJSON
        have hReading : g.responseJSON = .reading k := hResponse.symm.trans hk
        rw [hReading] at hJSON
        exact reading_of_toJSON hKind hJSON
    · rw [← List.map_reverse, List.find?_map, Option.map_eq_none_iff] at hq
      refine .inr ⟨?_, ?_⟩
      · rw [Db.responsesOf, List.mem_filter, decide_eq_true_eq]
        exact ⟨hOld, hAttempt⟩
      · rw [SubmitAttemptRequest.answer, hNone hq, Option.map_none]

/-- The recordings that a submission deletes are those of the responses before it. -/
theorem deleted_recording (hTrace : Prog.Trace (siteExec deps) x h x')
    (hSubmitted : Submitted s userID req out h) {k : String} (hHas : h.Has (.deleteAudio k) ()) :
    s.deleteAudio = true ∧ ∃ a, x.db.lessonAttempts.find (userID, req.lessonId) = some a ∧
      out.1.id = a.id ∧ k ∈ oldAudioKeys (listLessonInteractions req.lessonId s.listLimit 0 x.db)
        (some (a, listAttemptResponses a.id x.db)) := by
  cases hSubmitted with
  | @mk interactions graded prev p reads tail hList hGraded hPrev hUser hLesson hReads hTail =>
    obtain ⟨newID, hOut, -⟩ := trace_stored hTrace rfl hReads fun e he =>
      isUpsert_of_mem_cleanup s userID (hTail e he)
    have hCleanup : .deleteAudio k ∈ cleanup s userID req (oldAudioKeys interactions prev) := by
      rcases List.mem_append.mp hHas with hMem | hMem
      · exact Bool.noConfusion (hReads _ hMem)
      · rcases List.mem_cons.mp hMem with hEq | hMem
        · cases hEq
        · exact hTail _ hMem
    obtain ⟨hDelete, hKey⟩ :
        s.deleteAudio = true ∧ k ∈ oldAudioKeys interactions prev := by
      rw [cleanup, List.mem_append] at hCleanup
      rcases hCleanup with hMem | hMem
      · split at hMem
        · obtain ⟨_, _, hEq⟩ := List.mem_map.mp hMem
          cases hEq
        · cases hMem
      · split at hMem
        · next hDelete =>
          obtain ⟨_, hKey, hEq⟩ := List.mem_map.mp hMem
          cases hEq
          exact ⟨hDelete, hKey⟩
        · cases hMem
    have hListed := trace_listed hTrace (List.mem_append_left _ hList)
    obtain ⟨u, hBefore, -⟩ := hTrace.of_append
    rcases prev with _ | ⟨a, rs⟩
    · cases hKey
    · obtain ⟨hAttempt, hResponses⟩ := hPrev a rs rfl
      have hFind := trace_previous hBefore hReads hAttempt
      refine ⟨hDelete, a, hFind, ?_, ?_⟩
      · rw [hOut, upserted_id, hUser, hLesson, hFind]
        rfl
      · rcases hResponses with rfl | hResponses
        · cases hKey
        · rw [trace_responses hBefore hReads hResponses, hListed] at hKey
          exact hKey

end Step

theorem step_retained {s : InteractionsSvc} {cfg : AIConfig} {x x' : Session} {a : Action}
    (hReplaces : submitsReplacing s x a = true) (h : (session s cfg).step x a = some x') :
    Retained x' := by
  by_cases ha : ∃ deps envs caller req, a = .submitAttempt deps envs caller req
  · obtain ⟨deps, envs, caller, req, rfl⟩ := ha
    obtain ⟨hTrace, -, -, hResult⟩ := step_submitAttempt h
    rintro ⟨p, rs, a⟩ hStored k hDeleted r hr hResponse
    obtain ⟨out, hHas, rfl⟩ := has_of_mem_stored hStored
    rcases hResult with ⟨userID, out', rfl, hSubmitted⟩ | hNot
    · obtain ⟨rfl, -⟩ := hSubmitted.stored hHas
      obtain ⟨hDelete, attempt, hFind, hId, hKey⟩ :=
        deleted_recording hTrace hSubmitted (has_of_mem_deletedAudio hDeleted)
      simp only [submitsReplacing, replacesRecordings, hDelete, hFind, Bool.not_true, Bool.false_or,
        Option.all_some, List.all_eq_true, Bool.and_eq_true, Bool.or_eq_true,
        decide_eq_true_eq] at hReplaces
      obtain ⟨hReplaced, hOther⟩ := hReplaces k hKey
      rcases response_after_submission hTrace hSubmitted hr with
        ⟨answer, hAnswer, hReading⟩ | ⟨hOld, hAnswer⟩
      · rw [hReading k hResponse] at hAnswer
        obtain ⟨resp, hFound, -⟩ := Option.map_eq_some_iff.mp hAnswer
        have hMem := List.mem_reverse.mp (List.mem_of_find?_eq_some hFound)
        have hSame : resp.interactionId = r.interactionId := by
          simpa using List.find?_some hFound
        exact hOther resp hMem (hSame ▸ hAnswer)
      · rw [hId] at hOld
        rcases hReplaced r hOld with hNe | hSome
        · exact hNe hResponse
        · rw [hAnswer] at hSome
          cases hSome
    · exact hNot.notStored p rs out hHas
  · have hLast : x'.last = [] := last_of_step h fun deps envs caller req hEq =>
      ha ⟨deps, envs, caller, req, hEq⟩
    rw [Retained, hLast]
    exact List.forall_mem_nil _

/-- In every run in which each submission replaces the responses whose recordings it deletes, by
ones with other recordings, no deleted recording is one of a stored response. -/
theorem recordings_retained {s : InteractionsSvc} {cfg : AIConfig} {site : Site}
    {steps : List Action} {x : Session}
    (hRun : (session s cfg).Runs (fun x a => submitsReplacing s x a = true) (.start site) steps x) :
    Retained x :=
  hRun.invariant (fun _ _ _ hReplaces h _ => step_retained hReplaces h)
    (List.forall_mem_nil _)

/-- A lesson with two texts to read aloud. -/
def twoReadings : Site where
  db :=
    { lessons := .ofList [⟨1, 0, none⟩]
      lessonInteractions := .ofList [⟨10, 1, "reading", 0⟩, ⟨11, 1, "reading", 1⟩]
      lessonAttempts := .empty
      lessonAttemptResponses := .empty }
  videoStorageKey := fun _ => none
  feedbackMode := fun _ => "after_submit"
  config := fun _ => .reading "pronunciation" "a text" "" ""
  tempGrades := .empty
  coverage := .empty
  background := []

/-- A service that deletes recordings and has no FoundationDB store. -/
def deletingSvc : InteractionsSvc := ⟨false, true, 500, .float32⟩

def someAIConfig : AIConfig := ⟨1, 30⟩

/-- The student sends recordings, and nothing fails.  The events are the two reads of the lesson, a
grade for each recording, the read of the previous attempt and, if there is one, that of its
responses, the transaction, and the deletions. -/
def sendRecordings (events : Nat) (newID : UUID) (recordings : List (UUID × String)) : Action :=
  .submitAttempt .resolved (List.replicate events { newID := newID }) (.ok 100)
    ⟨1, recordings.map fun (interactionID, k) => ⟨interactionID, 0, 0, .reading k⟩, 0⟩

/-- Both recordings are made again. -/
def bothAgain : List Action :=
  [sendRecordings 6 1000 [(10, "a1"), (11, "b1")], sendRecordings 9 1001 [(10, "a2"), (11, "b2")]]

theorem recordings_retained_bothAgain : ∃ x,
    (session deletingSvc someAIConfig).run (.start twoReadings) bothAgain = some x ∧
      Retained x := by
  have hSome : (((session deletingSvc someAIConfig).restrict fun x a =>
      submitsReplacing deletingSvc x a = true).run (.start twoReadings) bothAgain).isSome = true :=
    by decide +kernel
  obtain ⟨x, hx⟩ := Option.isSome_iff_exists.mp hSome
  have hRun := Machine.Runs.of_restrict hx
  exact ⟨x, hRun.run, recordings_retained hRun⟩

/-- Only the first recording is made again, and the second submission deletes both of the first,
although the second recording is still that of the stored response. -/
theorem partial_resubmit_deletes_stored_recording : ∃ x,
    (session deletingSvc someAIConfig).run (.start twoReadings)
      [sendRecordings 6 1000 [(10, "a1"), (11, "b1")], sendRecordings 8 1001 [(10, "a2")]] =
        some x ∧ ¬ Retained x := by
  have hAny : ((session deletingSvc someAIConfig).run (.start twoReadings)
      [sendRecordings 6 1000 [(10, "a1"), (11, "b1")], sendRecordings 8 1001 [(10, "a2")]]).any
        (fun x => !decide (Retained x)) = true := by decide +kernel
  obtain ⟨x, hRun, hNot⟩ := (Option.any_eq_true _ _).mp hAny
  exact ⟨x, hRun, by simpa using hNot⟩

end Richter.Interactions
