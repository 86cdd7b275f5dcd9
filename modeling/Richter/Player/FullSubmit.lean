import Mathlib.Data.Finset.Card
import Mathlib.Data.Finset.Dedup
import Richter.Courses.Content
import Richter.Interactions.GradeLocal
import Richter.Player.Gate

/-! The attempt at a lesson (`student-lesson-view.tsx`): the answers to the questions that the
player shows, and the submit, which counts the questions that are passed.  The view is opened
without a draft and without a previous result. -/

namespace Richter.Player

open Lib
open Courses (FeedbackMode)
open Interactions (AttemptResponseInput InteractionKind LessonInteractionMessage LocalResponse
  ResponseMetrics buildAttemptResponseInput)

/-- The interactions of a lesson, as the server sends them. -/
structure LessonInteractions where
  list : List LessonInteractionMessage
  nodup : (list.map LessonInteractionMessage.id).Nodup
  deriving DecidableEq

/-- What the player reads of the interactions. -/
def LessonInteractions.checkpoints (interactions : LessonInteractions) : List LessonInteraction :=
  interactions.list.map fun it => ⟨it.id, it.startSeconds⟩

theorem LessonInteractions.nodup_checkpoints (interactions : LessonInteractions) :
    (interactions.checkpoints.map LessonInteraction.id).Nodup := by
  rw [checkpoints, List.map_map]
  exact interactions.nodup

theorem LessonInteractions.mem_checkpoints {interactions : LessonInteractions}
    {c : LessonInteraction} (h : c ∈ interactions.checkpoints) :
    ∃ it ∈ interactions.list, it.id = c.id ∧ it.startSeconds = c.startSeconds := by
  obtain ⟨it, hMem, rfl⟩ := List.mem_map.mp h
  exact ⟨it, hMem, rfl, rfl⟩

structure ViewProps where
  interactions : LessonInteractions
  initialPosition : ℚ
  feedbackMode : FeedbackMode
  isPreview : Bool
  /-- The duration that the video reports. -/
  duration : ℚ

/-- The view while it is open.  `shown` is the history of an attempt: the questions that have
covered the player. -/
structure View where
  lessonInteractions : LessonInteractions
  video : State
  /-- The `Map` of the responses, the latest one of an interaction first. -/
  responses : List (UUID × LocalResponse)
  savingResponseIds : List UUID
  error : Option String
  /-- `submittingRef` and `autoSubmittedRef`. -/
  submitting : Bool
  autoSubmitted : Bool
  isPending : Bool
  shown : List UUID
  deriving DecidableEq

/-- What a submit sends to the server, or a preview shows as its result. -/
inductive Submission
  | submitAttempt (responses : List AttemptResponseInput)
  | preview (responses : List (UUID × Option LocalResponse))
  deriving DecidableEq

/-- The interactions that have an entry. -/
def Submission.ids : Submission → List UUID
  | .submitAttempt responses => responses.map AttemptResponseInput.interactionId
  | .preview responses => responses.map Prod.fst

/-- What happens to the view.  The metrics of a submit are the times and the replays that the page
has measured. -/
inductive ViewEvent
  | playback (e : Event)
  | handleAnswer (response : LocalResponse)
  | handleContinue
  | saveSettled (id : UUID) (saved : Bool)
  | handleSubmit (metrics : UUID → ResponseMetrics)
  | autoSubmit (metrics : UUID → ResponseMetrics)
  | retrySubmit (metrics : UUID → ResponseMetrics)
  | submitted
  | submitFailed (message : String)
  | setLessonInteractions (interactions : LessonInteractions)
  | handleRetake

def DRAFT_NOT_SAVED : String :=
  "Một câu trả lời chưa được lưu tạm thời. Hệ thống sẽ chấm lại khi nộp bài."

/-- `allAnswered`, which compares the size of the set of passed ids. -/
def View.AllAnswered (v : View) : Prop :=
  0 < v.lessonInteractions.list.length ∧
    v.lessonInteractions.list.length ≤ v.video.passedIds.dedup.length

instance (v : View) : Decidable v.AllAnswered := inferInstanceAs (Decidable (_ ∧ _))

section StudentView

variable (props : ViewProps)

/-- The props of the player. -/
def ViewProps.player (interactions : LessonInteractions) : Props where
  interactions := interactions.checkpoints
  nodup := interactions.nodup_checkpoints
  initialPosition := props.initialPosition
  isPreview := props.isPreview
  duration := props.duration

/-- The question that covers the player. -/
def View.question (v : View) : Option LessonInteraction :=
  if v.video.submitted = true then none
  else activeInteraction (props.player v.lessonInteractions) v.video

def View.ReadyToSubmit (v : View) : Prop :=
  v.AllAnswered ∧ v.video.submitted = false ∧ props.feedbackMode ≠ .afterEach

instance (v : View) : Decidable (v.ReadyToSubmit props) := inferInstanceAs (Decidable (_ ∧ _ ∧ _))

/-- `saveDraftResponse`, until it is settled. -/
def View.saveDraftResponse (id : UUID) (v : View) : View :=
  match v.lessonInteractions.list.find? fun it => it.id = id with
  | none => v
  | some it =>
    if props.isPreview = true ∨ it.kind = .reading ∧ props.feedbackMode = .afterEach then v
    else { v with savingResponseIds := v.savingResponseIds.insert id }

/-- `handleContinue` of the view: a question whose response is being saved is not passed again. -/
def View.handleContinue (current : LessonInteraction) (v : View) : View :=
  if current.id ∈ v.savingResponseIds then v
  else
    let v := v.saveDraftResponse props current.id
    { v with video := Player.handleContinue (props.player v.lessonInteractions) current v.video }

/-- The responses that are submitted: one for each interaction, answered or not. -/
def View.submission (metrics : UUID → ResponseMetrics) (v : View) : Submission :=
  if props.isPreview = true then
    .preview (v.lessonInteractions.list.map fun it => (it.id, v.responses.lookup it.id))
  else
    .submitAttempt (v.lessonInteractions.list.map fun it =>
      buildAttemptResponseInput it (v.responses.lookup it.id) (some (metrics it.id)))

/-- `runSubmit`.  A partial submit is not gated by the number of passed questions. -/
def runSubmit (isPartial : Bool) (metrics : UUID → ResponseMetrics) (v : View) :
    Option (Submission × View) :=
  if v.submitting = true ∨ v.video.submitted = true ∨ v.isPending = true then none
  else if isPartial = false ∧ ¬ v.AllAnswered then none
  else some (v.submission props metrics,
    { v with submitting := true, isPending := true, error := none })

/-- The video of an attempt that starts over. -/
def State.retake (s : State) : State :=
  { s with
    currentTime := 0, paused := true, ended := false, hasPlayed := false
    prevTime := 0, isInitialLoad := true, watchedSeconds := 0, maxWatched := 0
    passedIds := [], activeId := none, submitted := false }

def View.handleRetake (v : View) : View :=
  { v with
    video := v.video.retake, responses := [], error := none
    submitting := false, autoSubmitted := false, shown := [] }

/-- The question that covers the player is added to the history. -/
def View.note (v : View) : View :=
  { v with shown := (v.question props).elim v.shown fun it => v.shown.insert it.id }

/-- The steps of the view.  The buttons of a submit are there under the conditions of the status
card, and the interactions are loaded again after a submit. -/
def View.step (v : View) : ViewEvent → Option View
  | .playback e =>
    if e = .answer ∨ e = .submit then none
    else ((Player.player (props.player v.lessonInteractions)).step v.video e).map fun s =>
      { v with video := s }
  | .handleAnswer response => (v.question props).map fun it =>
      { v with responses := (it.id, response) :: v.responses }
  | .handleContinue => (v.question props).map fun it => v.handleContinue props it
  | .saveSettled id saved =>
    if id ∈ v.savingResponseIds then
      some { v with
        savingResponseIds := v.savingResponseIds.erase id
        error := if saved then v.error else some DRAFT_NOT_SAVED }
    else none
  | .handleSubmit metrics =>
    if v.ReadyToSubmit props ∧ v.question props = none then
      (runSubmit props false metrics v).map Prod.snd
    else none
  | .autoSubmit metrics =>
    if props.feedbackMode = .afterEach ∧ v.autoSubmitted = false ∧ v.video.submitted = false ∧
        v.isPending = false ∧ v.AllAnswered ∧ v.video.activeId = none then
      let v := { v with autoSubmitted := true }
      some ((runSubmit props false metrics v).elim v Prod.snd)
    else none
  | .retrySubmit metrics =>
    if v.error.isSome = true ∧ v.lessonInteractions.list ≠ [] ∧ ¬ v.ReadyToSubmit props then
      (runSubmit props (decide ¬ v.AllAnswered) metrics v).map Prod.snd
    else none
  | .submitted =>
    if v.isPending = true then
      some { v with video := { v.video with submitted := true }, isPending := false }
    else none
  | .submitFailed message =>
    if v.isPending = true then
      some { v with submitting := false, isPending := false, error := some message }
    else none
  | .setLessonInteractions interactions =>
    if v.video.submitted = true ∧ props.isPreview = false then
      some { v with lessonInteractions := interactions }
    else none
  | .handleRetake => if v.video.submitted = true then some v.handleRetake else none

/-- The view as it is opened. -/
def View.opened : View :=
  View.note props
    { lessonInteractions := props.interactions
      video := mount (props.player props.interactions)
      responses := []
      savingResponseIds := []
      error := none
      submitting := false
      autoSubmitted := false
      isPending := false
      shown := [] }

end StudentView

section Passes

variable {props : Props} {s t : State}

/-- From `s` to `t` only untimed interactions are passed. -/
def Passes (props : Props) (s t : State) : Prop :=
  ∀ id ∈ t.passedIds, id ∈ s.passedIds ∨ ∃ c ∈ props.interactions, c.id = id ∧ c.startSeconds ≤ 0

theorem Passes.refl (s : State) : Passes props s s := fun _ hId => .inl hId

theorem Passes.trans {u : State} (h1 : Passes props s t) (h2 : Passes props t u) :
    Passes props s u := fun id hId => (h2 id hId).elim (h1 id) .inr

theorem SameRun.passes (h : SameRun s t) : Passes props s t := fun id hId => by
  rw [h.passedIds] at hId
  exact .inl hId

theorem passes_handleTimeUpdate (t : ℚ) (hSubmitted : s.submitted = false) :
    Passes props s (handleTimeUpdate props t s) :=
  (handleTimeUpdate_same props t hSubmitted).1.passes

variable (props) in
theorem passes_handleFirstPlay (s : State) : Passes props s (handleFirstPlay props s) := by
  intro id hId
  refine (List.mem_append.mp hId).imp_right fun hEarly => ?_
  obtain ⟨c, hc, rfl⟩ := List.mem_map.mp hEarly
  obtain ⟨hMem, hLe⟩ := List.mem_filter.mp hc
  exact ⟨c, hMem, rfl, of_decide_eq_true hLe⟩

variable (props) in
theorem passes_onPlay (s : State) : Passes props s (onPlay props s) := by
  unfold onPlay
  split
  · exact .refl s
  · split
    · exact (sameRun_reviewGuard s).passes
    · exact (passes_handleFirstPlay props { s with hasPlayed := true }).trans
        (sameRun_reviewGuard _).passes

variable (props) in
theorem passes_play (s : State) : Passes props s (play props s) := by
  unfold play
  split
  · exact passes_onPlay props { s with
      currentTime := if s.ended then 0 else s.currentTime, ended := false, paused := false }
  · exact .refl s

theorem passes_seeked (hSubmitted : s.submitted = false) : Passes props s (seeked props s) :=
  (passes_handleTimeUpdate _ hSubmitted).trans
    ((sameRun_reviewGuard _).passes.trans (sameRun_guardSeek _).passes)

theorem passes_handleEnded (s : State) : Passes props s (handleEnded props s) := by
  unfold handleEnded
  split
  · exact .refl s
  · split
    · exact .refl s
    · exact (sameRun_reviewGuard _).passes

variable (props) in
/-- The question that is answered is passed. -/
theorem passes_handleContinue (current : LessonInteraction) (s : State) :
    Passes props { s with passedIds := s.passedIds ++ [current.id] }
      (handleContinue props current s) := by
  unfold handleContinue
  split
  · exact (sameRun_reviewGuard _).passes
  · dsimp only
    split
    · exact .refl _
    · exact passes_play props _

/-- What the video does, and what is clicked in the player, passes untimed interactions only. -/
theorem passes_player {e : Event} (h : (player props).step s e = some t) (hAnswer : e ≠ .answer)
    (hSubmitted : s.submitted = false) : Passes props s t := by
  cases e with
  | togglePlay =>
    cases h
    unfold togglePlay
    split
    · exact .refl s
    · exact passes_play props s
  | timeUpdate step =>
    simp only [player, Option.ite_none_left_eq_some, Option.some.injEq] at h
    obtain ⟨-, rfl⟩ := h
    exact (passes_handleTimeUpdate (s := { s with currentTime := s.currentTime + step }) _
      hSubmitted).trans (sameRun_reviewGuard _).passes
  | seeked =>
    cases h
    exact passes_seeked hSubmitted
  | handleSeekChange value =>
    cases h
    refine (passes_handleTimeUpdate (s := { s with currentTime := value, ended := false }) value
      hSubmitted).trans ((sameRun_guardSeek _).passes.trans (passes_seeked ?_))
    rw [guardSeek_submitted, handleTimeUpdate_submitted]
    exact hSubmitted
  | seekTo seconds =>
    cases h
    have hSeek : (seek props seconds s).submitted = false := by
      rw [seek, guardSeek_submitted]
      exact hSubmitted
    refine Passes.trans (t := seek props seconds s) (sameRun_guardSeek _).passes
      ((passes_play props _).trans (passes_seeked ?_))
    rw [play_submitted]
    exact hSeek
  | ended =>
    simp only [player, Option.ite_none_left_eq_some, Option.some.injEq] at h
    obtain ⟨-, rfl⟩ := h
    exact (passes_handleTimeUpdate (s := { s with paused := true, ended := true }) _
      hSubmitted).trans (passes_handleEnded _)
  | answer => exact absurd rfl hAnswer
  | submit =>
    cases h
    exact .refl s

end Passes

section Asked

variable {props : ViewProps} {v w : View}

/-- The passed ids are those of interactions, and the timed ones of them have been shown. -/
def View.Passed (v : View) : Prop :=
  ∀ id ∈ v.video.passedIds, ∃ it ∈ v.lessonInteractions.list, it.id = id ∧
    (0 < it.startSeconds → id ∈ v.shown)

/-- What holds while an attempt goes on. -/
structure View.Asked (props : ViewProps) (v : View) : Prop where
  question : ∀ it, v.question props = some it → it.id ∈ v.shown
  passed : v.Passed

/-- What the answers and the submits leave as it is. -/
structure View.SameAttempt (v w : View) : Prop where
  lessonInteractions : w.lessonInteractions = v.lessonInteractions
  video : w.video = v.video
  shown : w.shown = v.shown

theorem View.SameAttempt.passed (h : v.SameAttempt w) (hPassed : v.Passed) : w.Passed := by
  unfold Passed
  rw [h.lessonInteractions, h.video, h.shown]
  exact hPassed

theorem View.Passed.note (h : v.Passed) : (v.note props).Asked props := by
  refine ⟨fun it hIt => ?_, fun id hId => ?_⟩
  · have hQuestion : v.question props = some it := hIt
    simp [View.note, hQuestion]
  · obtain ⟨it, hMem, hEq, hShown⟩ := h id hId
    refine ⟨it, hMem, hEq, fun hPos => ?_⟩
    unfold View.note
    cases v.question props with
    | none => exact hShown hPos
    | some current => exact List.mem_insert_of_mem (hShown hPos)

/-- A step of the player that passes untimed interactions only. -/
theorem View.Passed.passes {s : State} (h : v.Passed)
    (hPasses : Passes (props.player v.lessonInteractions) v.video s) :
    View.Passed { v with video := s } := by
  intro id hId
  rcases hPasses id hId with hOld | ⟨c, hc, hEq, hUntimed⟩
  · exact h id hOld
  · obtain ⟨it, hMem, hIt, hStart⟩ := LessonInteractions.mem_checkpoints hc
    refine ⟨it, hMem, hIt.trans hEq, fun hPos => ?_⟩
    rw [hStart] at hPos
    exact absurd hPos (not_lt.mpr hUntimed)

theorem View.question_eq_some {current : LessonInteraction}
    (h : v.question props = some current) : v.video.submitted = false ∧
      ∃ it ∈ v.lessonInteractions.list, it.id = current.id := by
  unfold View.question at h
  split at h
  · cases h
  · next hOpen =>
    obtain ⟨id, -, hFind⟩ := Option.bind_eq_some_iff.mp h
    obtain ⟨it, hMem, hIt, -⟩ :=
      LessonInteractions.mem_checkpoints (List.mem_of_find?_eq_some hFind)
    exact ⟨(Bool.not_eq_true _).mp hOpen, it, hMem, hIt⟩

variable (props) in
theorem View.saveDraftResponse_same (id : UUID) (v : View) :
    v.SameAttempt (v.saveDraftResponse props id) := by
  unfold View.saveDraftResponse
  split
  · exact ⟨rfl, rfl, rfl⟩
  · split
    · exact ⟨rfl, rfl, rfl⟩
    · exact ⟨rfl, rfl, rfl⟩

/-- The view with a question passed. -/
def View.pass (id : UUID) (v : View) : View :=
  { v with video := { v.video with passedIds := v.video.passedIds ++ [id] } }

theorem View.SameAttempt.pass (h : v.SameAttempt w) (id : UUID) :
    (v.pass id).SameAttempt (w.pass id) := by
  refine ⟨h.lessonInteractions, ?_, h.shown⟩
  simp only [View.pass, h.video]

/-- The question that is open is in the history. -/
theorem View.Asked.pass {current : LessonInteraction} (h : v.Asked props)
    (hQuestion : v.question props = some current) : (v.pass current.id).Passed := by
  intro id hId
  rcases List.mem_append.mp hId with hOld | hNew
  · exact h.passed id hOld
  · obtain rfl := List.mem_singleton.mp hNew
    obtain ⟨-, it, hMem, hIt⟩ := View.question_eq_some hQuestion
    exact ⟨it, hMem, hIt, fun _ => h.question current hQuestion⟩

theorem View.Asked.handleContinue {current : LessonInteraction} (h : v.Asked props)
    (hQuestion : v.question props = some current) : (v.handleContinue props current).Passed := by
  unfold View.handleContinue
  split
  · exact h.passed
  · have hSaved := View.saveDraftResponse_same props current.id v
    have hPassed := (hSaved.pass current.id).passed (h.pass hQuestion)
    exact hPassed.passes (passes_handleContinue _ current _)

theorem runSubmit_same {isPartial : Bool} {metrics : UUID → ResponseMetrics} {sub : Submission}
    (h : runSubmit props isPartial metrics v = some (sub, w)) : v.SameAttempt w := by
  unfold runSubmit at h
  split at h
  · cases h
  · split at h
    · cases h
    · cases h
      exact ⟨rfl, rfl, rfl⟩

variable (props) in
theorem runSubmit_elim_same (metrics : UUID → ResponseMetrics) (v : View) :
    v.SameAttempt ((runSubmit props false metrics v).elim v Prod.snd) := by
  cases hSubmit : runSubmit props false metrics v with
  | none => exact ⟨rfl, rfl, rfl⟩
  | some result => exact runSubmit_same hSubmit

/-- What a step does to the view, the history apart: the attempt is submitted or stays so, or the
passed questions have been shown. -/
theorem View.Asked.step {e : ViewEvent} (h : v.step props e = some w)
    (hAsked : v.video.submitted = true ∨ v.Asked props) :
    w.video.submitted = true ∨ w.Passed := by
  have hSame (hEq : v.SameAttempt w) : w.video.submitted = true ∨ w.Passed := by
    refine hAsked.imp (fun hSubmitted => ?_) fun hAsked => hEq.passed hAsked.passed
    rw [hEq.video]
    exact hSubmitted
  cases e with
  | playback e =>
    simp only [View.step, Option.ite_none_left_eq_some, Option.map_eq_some_iff, not_or] at h
    obtain ⟨⟨hAnswer, -⟩, s, hStep, rfl⟩ := h
    cases hSubmitted : v.video.submitted with
    | true => exact .inl (player_submitted hStep hSubmitted)
    | false =>
      have hOpen := hAsked.resolve_left (by simp [hSubmitted])
      exact .inr (hOpen.passed.passes (passes_player hStep hAnswer hSubmitted))
  | handleAnswer response =>
    obtain ⟨it, -, rfl⟩ := Option.map_eq_some_iff.mp h
    exact hSame ⟨rfl, rfl, rfl⟩
  | handleContinue =>
    obtain ⟨it, hQuestion, rfl⟩ := Option.map_eq_some_iff.mp h
    have hOpen := hAsked.resolve_left (by simp [(View.question_eq_some hQuestion).1])
    exact .inr (hOpen.handleContinue hQuestion)
  | saveSettled id saved =>
    simp only [View.step, Option.ite_none_right_eq_some, Option.some.injEq] at h
    obtain ⟨-, rfl⟩ := h
    exact hSame ⟨rfl, rfl, rfl⟩
  | handleSubmit metrics =>
    simp only [View.step, Option.ite_none_right_eq_some, Option.map_eq_some_iff] at h
    obtain ⟨-, ⟨sub, w⟩, hSubmit, rfl⟩ := h
    exact hSame (runSubmit_same hSubmit)
  | autoSubmit metrics =>
    simp only [View.step, Option.ite_none_right_eq_some, Option.some.injEq] at h
    obtain ⟨-, rfl⟩ := h
    have hEq := runSubmit_elim_same props metrics { v with autoSubmitted := true }
    exact hSame ⟨hEq.lessonInteractions, hEq.video, hEq.shown⟩
  | retrySubmit metrics =>
    simp only [View.step, Option.ite_none_right_eq_some, Option.map_eq_some_iff] at h
    obtain ⟨-, ⟨sub, w⟩, hSubmit, rfl⟩ := h
    exact hSame (runSubmit_same hSubmit)
  | submitted =>
    simp only [View.step, Option.ite_none_right_eq_some, Option.some.injEq] at h
    obtain ⟨-, rfl⟩ := h
    exact .inl rfl
  | submitFailed message =>
    simp only [View.step, Option.ite_none_right_eq_some, Option.some.injEq] at h
    obtain ⟨-, rfl⟩ := h
    exact hSame ⟨rfl, rfl, rfl⟩
  | setLessonInteractions interactions =>
    simp only [View.step, Option.ite_none_right_eq_some, Option.some.injEq] at h
    obtain ⟨⟨hSubmitted, -⟩, rfl⟩ := h
    exact .inl hSubmitted
  | handleRetake =>
    simp only [View.step, Option.ite_none_right_eq_some, Option.some.injEq] at h
    obtain ⟨-, rfl⟩ := h
    exact .inr fun id hId => by cases hId

end Asked

end Richter.Player
