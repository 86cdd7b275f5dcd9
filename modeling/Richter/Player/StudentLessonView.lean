import Mathlib.Algebra.Order.Field.Rat
import Mathlib.Data.List.Sort
import Richter.Lib.Machine
import Richter.Svc.Errors

/-! The player of a lesson for students (`student-lesson-view.tsx` over `video-player.tsx`): the
video element, the refs and states of the two components, and what happens on each event of the
player.  A handler runs to its end, and the component is rendered, before the next event. -/

namespace Richter.Player

/-- The fields of an interaction that the player reads. -/
structure LessonInteraction where
  id : UUID
  startSeconds : ℚ
  deriving DecidableEq, Repr

structure Props where
  interactions : List LessonInteraction
  nodup : (interactions.map LessonInteraction.id).Nodup
  initialPosition : ℚ
  isPreview : Bool
  /-- The duration that the video reports. -/
  duration : ℚ

def CHECKPOINT_EPSILON_SECONDS : ℚ := 35 / 100
def FORWARD_SEEK_SLACK_S : ℚ := 1
def MAX_WATCH_DELTA_SECONDS : ℚ := 3 / 2

structure State where
  /-- The position, and whether the video is paused or has ended. -/
  currentTime : ℚ
  paused : Bool
  ended : Bool
  /-- `hasPlayedRef` of the video player. -/
  hasPlayed : Bool
  prevTime : ℚ
  isInitialLoad : Bool
  watchedSeconds : ℚ
  maxWatched : ℚ
  passedIds : List UUID
  activeId : Option UUID
  submitted : Bool
  deriving DecidableEq, Repr

section View

variable (props : Props)

/-- The timed interactions that are not passed, ordered by `startSeconds`. -/
def pendingCheckpoints (s : State) : List LessonInteraction :=
  (props.interactions.filter fun c => 0 < c.startSeconds ∧ c.id ∉ s.passedIds).insertionSort
    fun a b => a.startSeconds ≤ b.startSeconds

def nextGate (s : State) : Option LessonInteraction := (pendingCheckpoints props s).head?

/-- While a checkpoint is active, the video only plays before the high-water mark. -/
def reviewGuard (s : State) : State :=
  if s.activeId.isSome ∧ s.maxWatched - FORWARD_SEEK_SLACK_S ≤ s.currentTime then
    { s with paused := true }
  else s

/-- `setActiveId`, and the effect of the checkpoint that becomes active. -/
def setActiveId (id : UUID) (s : State) : State := reviewGuard { s with activeId := some id }

/-- The metrics of `handleTimeUpdate`: a step forward that is no seek counts as watched. -/
def recordWatched (t : ℚ) (s : State) : State :=
  if s.activeId = none ∧ s.submitted = false ∧ s.isInitialLoad = false ∧ 0 < t - s.prevTime ∧
      t - s.prevTime ≤ MAX_WATCH_DELTA_SECONDS then
    { s with
      watchedSeconds := s.watchedSeconds + (t - s.prevTime)
      maxWatched := max s.maxWatched t }
  else s

/-- The hit-test of `handleTimeUpdate`. -/
def hitTest (t : ℚ) (s : State) : State :=
  match (pendingCheckpoints props s).find? fun c =>
    s.prevTime < c.startSeconds ∧ c.startSeconds ≤ t + CHECKPOINT_EPSILON_SECONDS with
  | some hit => setActiveId hit.id { s with prevTime := t, paused := true }
  | none => { s with prevTime := t }

/-- A position away from the initial one ends the initial load. -/
def leaveInitialLoad (t : ℚ) (s : State) : State :=
  if 1 < |t - props.initialPosition| then { s with isInitialLoad := false } else s

def handleTimeUpdate (t : ℚ) (s : State) : State :=
  let s := recordWatched t s
  if s.submitted = true ∨ s.activeId.isSome then s
  else
    let s := leaveInitialLoad props t s
    if s.isInitialLoad = true then s
    else if t < 1 / 2 then s
    else hitTest props t s

def handleEnded (s : State) : State :=
  if s.submitted = true ∨ s.activeId.isSome then s
  else
    match nextGate props s with
    | none => s
    | some candidate => setActiveId candidate.id { s with paused := true }

def handleFirstPlay (s : State) : State :=
  { s with
    isInitialLoad := false
    prevTime := s.currentTime
    passedIds := s.passedIds ++
      (props.interactions.filter fun it => it.startSeconds ≤ 0).map LessonInteraction.id }

/-- `guardSeek`: a position beyond the next gate goes back to the gate, which is surfaced. -/
def guardSeek (s : State) : State :=
  match nextGate props s with
  | none => s
  | some gate =>
    if s.isInitialLoad = true then s
    else if gate.startSeconds + FORWARD_SEEK_SLACK_S < s.currentTime then
      let s := { s with currentTime := gate.startSeconds, prevTime := gate.startSeconds }
      if s.activeId = none then setActiveId gate.id s else s
    else s

/-- Whether a question covers the player. -/
def State.questionOpen (s : State) : Bool := s.activeId.isSome && !s.submitted

/-- `handleNativePlay`, and the listener of an active checkpoint. -/
def onPlay (s : State) : State :=
  if s.questionOpen = true then { s with paused := true }
  else if s.hasPlayed = true then reviewGuard s
  else reviewGuard (handleFirstPlay props { s with hasPlayed := true })

/-- `video.play()`, which starts a video that has ended from the beginning. -/
def play (s : State) : State :=
  if s.paused = true then
    onPlay props { s with
      currentTime := if s.ended then 0 else s.currentTime
      ended := false
      paused := false }
  else s

/-- The events of a seek that has been done: a time update, and `seeked`. -/
def seeked (s : State) : State :=
  guardSeek props (reviewGuard (handleTimeUpdate props s.currentTime s))

/-- The position is set, which fires `seeking`. -/
def seek (t : ℚ) (s : State) : State := guardSeek props { s with currentTime := t, ended := false }

def togglePlay (s : State) : State :=
  if s.questionOpen = true ∨ s.paused = false then { s with paused := true } else play props s

/-- Playback goes on by `step` seconds, to a time update. -/
def timeUpdate (step : ℚ) (s : State) : State :=
  let s := { s with currentTime := s.currentTime + step }
  reviewGuard (handleTimeUpdate props s.currentTime s)

/-- The video player's `handleSeekChange`, of the slider and its marks. -/
def handleSeekChange (value : ℚ) (s : State) : State :=
  let s := handleTimeUpdate props value { s with currentTime := value, ended := false }
  seeked props (guardSeek props s)

/-- A click on a section or a segment of the transcript (`seekTo`). -/
def seekTo (seconds : ℚ) (s : State) : State := seeked props (play props (seek props seconds s))

/-- The video reaches its end. -/
def onEnded (s : State) : State :=
  let s := { s with paused := true, ended := true }
  handleEnded props (handleTimeUpdate props s.currentTime s)

/-- The next question at the time of `current`, or before it. -/
def nextInCheckpoint (current : LessonInteraction) (s : State) : Option LessonInteraction :=
  ((props.interactions.filter fun it => it.id ≠ current.id ∧ it.id ∉ s.passedIds ∧
      0 < it.startSeconds ∧ it.startSeconds ≤ current.startSeconds).insertionSort
    fun a b => a.startSeconds ≤ b.startSeconds).head?

def handleContinue (current : LessonInteraction) (s : State) : State :=
  let passed := { s with passedIds := s.passedIds ++ [current.id] }
  match nextInCheckpoint props current s with
  | some next => setActiveId next.id passed
  | none =>
    let s := { passed with activeId := none }
    if s.ended then s else play props s

/-- The question of the active checkpoint. -/
def activeInteraction (s : State) : Option LessonInteraction :=
  s.activeId.bind fun id => props.interactions.find? fun it => it.id = id

/-- What the student does, and what the video does.  The video also fires the events of a seek on
its own, when it has been loaded at the saved position. -/
inductive Event
  | togglePlay
  | timeUpdate (step : ℚ)
  | seeked
  | handleSeekChange (value : ℚ)
  | seekTo (seconds : ℚ)
  | ended
  | answer
  | submit
  deriving DecidableEq, Repr

/-- The player.  Time passes, and the end is reached, while the video plays; a question is answered
while it is open. -/
def player : Lib.Machine State Event where
  step s
    | .togglePlay => some (togglePlay props s)
    | .timeUpdate step => if s.paused = true then none else some (timeUpdate props step s)
    | .seeked => some (seeked props s)
    | .handleSeekChange value => some (handleSeekChange props value s)
    | .seekTo seconds => some (seekTo props seconds s)
    | .ended => if s.paused = true then none else some (onEnded props s)
    | .answer =>
      if s.submitted = true then none
      else (activeInteraction props s).map fun current => handleContinue props current s
    | .submit => some { s with submitted := true }

/-- The position that the video player resumes at. -/
def resumePosition : ℚ :=
  if props.initialPosition ≤ 5 then 0
  else if 0 < props.duration ∧ props.duration - 1 ≤ props.initialPosition then 0
  else props.initialPosition

/-- The state before the effects of the first rendering. -/
def unloaded : State where
  currentTime := resumePosition props
  paused := true
  ended := false
  hasPlayed := false
  prevTime := props.initialPosition
  isInitialLoad := true
  watchedSeconds := 0
  maxWatched := props.initialPosition
  passedIds := []
  activeId := none
  submitted := false

/-- The player of a lesson that is not submitted, as it is first shown: a gate that the saved
position has reached is surfaced. -/
def mount : State :=
  let s := unloaded props
  if props.isPreview = true ∨ props.initialPosition ≤ CHECKPOINT_EPSILON_SECONDS then s
  else
    match (pendingCheckpoints props s).find? fun c =>
      c.startSeconds - CHECKPOINT_EPSILON_SECONDS ≤ props.initialPosition with
    | some missed => setActiveId missed.id s
    | none => s

end View

end Richter.Player
