import Mathlib.Algebra.Order.Field.Rat
import Mathlib.Tactic.Linarith
import Richter.Lib.Machine

/-! The watch progress that the video player reports (`saveProgress` of `video-player.tsx`): the
position to resume at, and the interval that has been played since the last report.  The positions
and the times are exact. -/

namespace Richter.Player

open Lib

/-- The intervals of an `UpdateWatchProgressRequest` are empty when none is reported. -/
structure WatchProgress where
  positionSeconds : ℚ
  watchedFromSeconds : ℚ
  watchedToSeconds : ℚ
  deriving DecidableEq

/-- The refs that the reports are made from. -/
structure WatchRefs where
  lastSavedPos : ℚ
  intervalFrom : ℚ
  lastTickPos : ℚ
  seekedSinceSave : Bool
  maxSavablePos : Option ℚ
  deriving DecidableEq

def CONTINUOUS_TICK_GAP_S : ℚ := 3 / 2

/-- A position past the cap is saved as the cap. -/
def savable (cap : Option ℚ) (pos : ℚ) : ℚ :=
  match cap with
  | some cap => if cap < pos then cap else pos
  | none => pos

/-- A position that is less than a second from the last one is not saved. -/
def WatchRefs.Saves (r : WatchRefs) (pos : ℚ) : Prop :=
  ¬|savable r.maxSavablePos pos - r.lastSavedPos| < 1

instance (r : WatchRefs) (pos : ℚ) : Decidable (r.Saves pos) := inferInstanceAs (Decidable (¬_))

/-- The request of `saveProgress`, which reports no interval after a seek. -/
def WatchRefs.request (r : WatchRefs) (pos : ℚ) : WatchProgress :=
  if r.seekedSinceSave = false ∧ r.intervalFrom < pos then ⟨pos, r.intervalFrom, pos⟩
  else ⟨pos, 0, 0⟩

/-- The refs after a position is saved. -/
def WatchRefs.saved (r : WatchRefs) (pos : ℚ) : WatchRefs :=
  { r with lastSavedPos := pos, intervalFrom := pos, seekedSinceSave := false }

/-- A mount of the player.  `ticks` are the positions that it has seen, the latest one first. -/
structure Watch where
  refs : WatchRefs
  ticks : List ℚ
  requests : List WatchProgress
  deriving DecidableEq

def saveProgress (pos : ℚ) (w : Watch) : Watch :=
  if w.refs.Saves pos then
    let pos := savable w.refs.maxSavablePos pos
    { w with refs := w.refs.saved pos, requests := w.requests ++ [w.refs.request pos] }
  else w

/-- Playback goes on from one position to the next. -/
def Continuous (a b : ℚ) : Prop := 0 ≤ b - a ∧ b - a ≤ CONTINUOUS_TICK_GAP_S

instance (a b : ℚ) : Decidable (Continuous a b) := inferInstanceAs (Decidable (_ ∧ _))

/-- The seek detection of `handleNativeTimeUpdate`. -/
def noteTick (t : ℚ) (r : WatchRefs) : WatchRefs :=
  let gap := t - r.lastTickPos
  let r :=
    if gap < 0 ∨ CONTINUOUS_TICK_GAP_S < gap then
      { r with seekedSinceSave := true, intervalFrom := t }
    else r
  { r with lastTickPos := t }

/-- `handleNativeTimeUpdate` at the position `t`. -/
def handleNativeTimeUpdate (saveIntervalS t : ℚ) (w : Watch) : Watch :=
  let w := { w with refs := noteTick t w.refs, ticks := t :: w.ticks }
  if saveIntervalS ≤ t - w.refs.lastSavedPos then saveProgress t w else w

/-- `handleNativePause`, at the position of the last tick. -/
def handleNativePause (w : Watch) : Watch := saveProgress w.refs.lastTickPos w

inductive WatchEvent
  | timeUpdate (t : ℚ)
  | pause
  | moveCap (cap : Option ℚ)
  deriving DecidableEq

/-- The player, which saves every `saveIntervalS` seconds. -/
def videoPlayer (saveIntervalS : ℚ) : Machine Watch WatchEvent where
  step w
    | .timeUpdate t => some (handleNativeTimeUpdate saveIntervalS t w)
    | .pause => some (handleNativePause w)
    | .moveCap cap => some { w with refs := { w.refs with maxSavablePos := cap } }

/-- The player as it is mounted at a position. -/
def mountWatch (initialPosition : ℚ) : Watch where
  refs := ⟨-1, initialPosition, initialPosition, false, none⟩
  ticks := [initialPosition]
  requests := []

/-- A second of the video is between two consecutive ticks of playback. -/
def Played : List ℚ → ℚ → Prop
  | b :: a :: ticks, x => Continuous a b ∧ a ≤ x ∧ x < b ∨ Played (a :: ticks) x
  | _, _ => False

def Reported (requests : List WatchProgress) (x : ℚ) : Prop :=
  ∃ r ∈ requests, r.watchedFromSeconds ≤ x ∧ x < r.watchedToSeconds

/-! ### One step -/

section Step

variable {saveIntervalS pos t x : ℚ} {w w' : Watch} {r : WatchRefs} {cap : Option ℚ}

theorem savable_le : savable cap pos ≤ pos := by
  unfold savable
  split
  · split
    · next h => exact h.le
    · exact le_refl _
  · exact le_refl _

theorem savable_of_le (h : ∀ c ∈ cap, pos ≤ c) : savable cap pos = pos := by
  cases cap with
  | none => rfl
  | some c => exact if_neg (not_lt.mpr (h c rfl))

theorem le_savable {a : ℚ} (hPos : a ≤ pos) (h : ∀ c ∈ cap, a ≤ c) : a ≤ savable cap pos := by
  cases cap with
  | none => exact hPos
  | some c =>
    simp only [savable]
    split
    · exact h c rfl
    · exact hPos

theorem saveProgress_cases (pos : ℚ) (w : Watch) :
    (¬w.refs.Saves pos ∧ saveProgress pos w = w) ∨
    (w.refs.Saves pos ∧ saveProgress pos w =
      { w with
        refs := w.refs.saved (savable w.refs.maxSavablePos pos)
        requests := w.requests ++ [w.refs.request (savable w.refs.maxSavablePos pos)] }) := by
  by_cases h : w.refs.Saves pos
  · exact .inr ⟨h, if_pos h⟩
  · exact .inl ⟨h, if_neg h⟩

theorem noteTick_continuous (h : Continuous r.lastTickPos t) :
    noteTick t r = { r with lastTickPos := t } := by
  have hNear : ¬(t - r.lastTickPos < 0 ∨ CONTINUOUS_TICK_GAP_S < t - r.lastTickPos) :=
    not_or.mpr ⟨not_lt.mpr h.1, not_lt.mpr h.2⟩
  simp only [noteTick, if_neg hNear]

theorem noteTick_seek (h : ¬Continuous r.lastTickPos t) :
    noteTick t r =
      { r with seekedSinceSave := true, intervalFrom := t, lastTickPos := t } := by
  have hFar : t - r.lastTickPos < 0 ∨ CONTINUOUS_TICK_GAP_S < t - r.lastTickPos := by
    by_contra hNot
    obtain ⟨hForward, hNear⟩ := not_or.mp hNot
    exact h ⟨not_lt.mp hForward, not_lt.mp hNear⟩
  simp only [noteTick, if_pos hFar]

@[simp] theorem noteTick_lastTickPos (t : ℚ) (r : WatchRefs) : (noteTick t r).lastTickPos = t := rfl

@[simp] theorem noteTick_lastSavedPos (t : ℚ) (r : WatchRefs) :
    (noteTick t r).lastSavedPos = r.lastSavedPos := by
  by_cases h : Continuous r.lastTickPos t
  · rw [noteTick_continuous h]
  · rw [noteTick_seek h]

@[simp] theorem saved_lastTickPos : (r.saved pos).lastTickPos = r.lastTickPos := rfl
@[simp] theorem saved_lastSavedPos : (r.saved pos).lastSavedPos = pos := rfl
@[simp] theorem saved_intervalFrom : (r.saved pos).intervalFrom = pos := rfl
@[simp] theorem saved_maxSavablePos : (r.saved pos).maxSavablePos = r.maxSavablePos := rfl

/-- The interval of a request, if it has one. -/
theorem reported_request : Reported [r.request pos] x ↔
    r.seekedSinceSave = false ∧ r.intervalFrom ≤ x ∧ x < pos := by
  simp only [Reported, List.mem_singleton, exists_eq_left, WatchRefs.request]
  split
  · next h => simp [h.1]
  · next h =>
    constructor
    · rintro ⟨hLow, hHigh⟩
      exact absurd (lt_of_le_of_lt hLow hHigh) (lt_irrefl _)
    · rintro ⟨hSeeked, hLow, hHigh⟩
      exact absurd ⟨hSeeked, lt_of_le_of_lt hLow hHigh⟩ h

theorem reported_append {rs rs' : List WatchProgress} :
    Reported (rs ++ rs') x ↔ Reported rs x ∨ Reported rs' x := by
  simp only [Reported, List.mem_append, or_and_right, exists_or]

theorem played_cons (h : Played w.ticks x) : Played (t :: w.ticks) x := by
  cases hTicks : w.ticks with
  | nil =>
    rw [hTicks] at h
    exact h.elim
  | cons a ticks =>
    rw [hTicks] at h
    exact .inr h

end Step

/-! ### What is reported was played -/

section Reports

variable {saveIntervalS t x : ℚ} {w w' : Watch}

/-- A save that goes through at a position does not find the cap below the anchor. -/
def WatchRefs.KeepsAnchor (r : WatchRefs) (pos : ℚ) : Prop :=
  r.Saves pos → ∀ cap ∈ r.maxSavablePos, r.intervalFrom ≤ cap

/-- The saves of an event keep the anchor. -/
def KeepsAnchor (saveIntervalS : ℚ) (w : Watch) : WatchEvent → Prop
  | .timeUpdate t =>
      saveIntervalS ≤ t - w.refs.lastSavedPos → (noteTick t w.refs).KeepsAnchor t
  | .pause => w.refs.KeepsAnchor w.refs.lastTickPos
  | .moveCap _ => True

instance (r : WatchRefs) (pos : ℚ) : Decidable (r.KeepsAnchor pos) :=
  inferInstanceAs (Decidable (_ → ∀ cap ∈ r.maxSavablePos, _))

instance (saveIntervalS : ℚ) (w : Watch) : DecidablePred (KeepsAnchor saveIntervalS w)
  | .timeUpdate _ => inferInstanceAs (Decidable (_ → _))
  | .pause => inferInstanceAs (Decidable (w.refs.KeepsAnchor _))
  | .moveCap _ => inferInstanceAs (Decidable True)

/-- All between the anchor and the last tick, and all that is reported, was played. -/
structure Honest (w : Watch) : Prop where
  ticks : ∃ earlier, w.ticks = w.refs.lastTickPos :: earlier
  anchor : w.refs.intervalFrom ≤ w.refs.lastTickPos
  played : ∀ x, w.refs.intervalFrom ≤ x → x < w.refs.lastTickPos → Played w.ticks x
  reported : ∀ x, Reported w.requests x → Played w.ticks x

theorem honest_mountWatch (initialPosition : ℚ) : Honest (mountWatch initialPosition) where
  ticks := ⟨[], rfl⟩
  anchor := le_refl _
  played x hLow hHigh := absurd (lt_of_le_of_lt hLow hHigh) (lt_irrefl _)
  reported x h := by
    obtain ⟨r, hr, -⟩ := h
    cases hr

theorem Honest.saveProgress (h : Honest w) (hAnchor : w.refs.KeepsAnchor w.refs.lastTickPos) :
    Honest (saveProgress w.refs.lastTickPos w) := by
  rcases saveProgress_cases w.refs.lastTickPos w with ⟨-, hEq⟩ | ⟨hSaves, hEq⟩
  · rw [hEq]
    exact h
  · have hLow := le_savable h.anchor (hAnchor hSaves)
    rw [hEq]
    refine ⟨h.ticks, savable_le, fun x hFrom hTo => h.played x (hLow.trans hFrom) hTo,
      fun x hx => ?_⟩
    rcases reported_append.mp hx with hOld | hNew
    · exact h.reported x hOld
    · obtain ⟨-, hFrom, hTo⟩ := reported_request.mp hNew
      exact h.played x hFrom (lt_of_lt_of_le hTo savable_le)

/-- A tick adds the step that it ends, or puts the anchor where it is. -/
theorem Honest.noteTick (h : Honest w) (t : ℚ) :
    Honest { w with refs := noteTick t w.refs, ticks := t :: w.ticks } := by
  have hReported : ∀ x, Reported w.requests x → Played (t :: w.ticks) x :=
    fun x hx => played_cons (h.reported x hx)
  by_cases hStep : Continuous w.refs.lastTickPos t
  · rw [noteTick_continuous hStep]
    have hForward := hStep.1
    refine ⟨⟨w.ticks, rfl⟩, h.anchor.trans (by linarith), fun x hFrom hTo => ?_, hReported⟩
    obtain ⟨earlier, hTicks⟩ := h.ticks
    rcases lt_or_ge x w.refs.lastTickPos with hBefore | hAfter
    · exact played_cons (h.played x hFrom hBefore)
    · show Played (t :: w.ticks) x
      rw [hTicks]
      exact .inl ⟨hStep, hAfter, hTo⟩
  · rw [noteTick_seek hStep]
    exact ⟨⟨w.ticks, rfl⟩, le_refl _,
      fun x hFrom hTo => absurd (lt_of_le_of_lt hFrom hTo) (lt_irrefl _), hReported⟩

theorem honest_step {e : WatchEvent} (hAnchor : KeepsAnchor saveIntervalS w e)
    (hStep : (videoPlayer saveIntervalS).step w e = some w') (h : Honest w) : Honest w' := by
  cases e with
  | timeUpdate t =>
    cases hStep
    have hNoted := h.noteTick t
    simp only [handleNativeTimeUpdate]
    split
    · next hDue =>
      rw [noteTick_lastSavedPos] at hDue
      exact hNoted.saveProgress (hAnchor hDue)
    · exact hNoted
  | pause =>
    cases hStep
    exact h.saveProgress hAnchor
  | moveCap cap =>
    cases hStep
    exact ⟨h.ticks, h.anchor, h.played, h.reported⟩

/-- In a run whose saves keep the anchor, all that is reported was played. -/
theorem reported_played {initialPosition : ℚ} {es : List WatchEvent}
    (hRun : (videoPlayer saveIntervalS).Runs (KeepsAnchor saveIntervalS)
      (mountWatch initialPosition) es w) :
    ∀ x, Reported w.requests x → Played w.ticks x :=
  (hRun.invariant (fun _ _ _ => honest_step) (honest_mountWatch initialPosition)).reported

end Reports

/-! ### What was played is reported -/

section Playback

variable {saveIntervalS start t x : ℚ} {w w' : Watch}

def Watch.BelowCap (w : Watch) : Prop :=
  ∀ cap ∈ w.refs.maxSavablePos, w.refs.lastTickPos ≤ cap

/-- Playback goes on below the cap. -/
def PlaysOn (w : Watch) : WatchEvent → Prop
  | .timeUpdate t => Continuous w.refs.lastTickPos t ∧ ∀ cap ∈ w.refs.maxSavablePos, t ≤ cap
  | .pause => True
  | .moveCap cap => ∀ c ∈ cap, w.refs.lastTickPos ≤ c

instance (w : Watch) : DecidablePred (PlaysOn w)
  | .timeUpdate _ => inferInstanceAs (Decidable (_ ∧ _))
  | .pause => inferInstanceAs (Decidable True)
  | .moveCap cap => inferInstanceAs (Decidable (∀ c ∈ cap, _))

/-- The most that is played between two saves. -/
def saveGap (saveIntervalS : ℚ) : ℚ := max saveIntervalS 1

/-- What may go unreported after a seek. -/
def seekLoss (saveIntervalS : ℚ) : ℚ := saveGap saveIntervalS + CONTINUOUS_TICK_GAP_S

/-- Playback since the position `start`: what is played from the loss on is reported up to the last
save, and the next save reports what was played since it, or comes within the loss. -/
structure Underway (saveIntervalS start : ℚ) (w : Watch) : Prop where
  below : w.BelowCap
  kept : ∀ x, start + seekLoss saveIntervalS ≤ x → x < w.refs.lastSavedPos → Reported w.requests x
  next : (w.refs.intervalFrom = w.refs.lastSavedPos ∧ w.refs.seekedSinceSave = false) ∨
    (w.refs.lastSavedPos ≤ start ∧ w.refs.lastTickPos < start + seekLoss saveIntervalS)

/-- After each event the last save is recent. -/
structure Follows (saveIntervalS start : ℚ) (w : Watch) : Prop
    extends Underway saveIntervalS start w where
  recent : w.refs.lastTickPos = start ∨
    w.refs.lastTickPos - w.refs.lastSavedPos < saveGap saveIntervalS

theorem one_le_saveGap (saveIntervalS : ℚ) : 1 ≤ saveGap saveIntervalS := le_max_right _ _

/-- A save, or a position that is close to the last one. -/
theorem Underway.saveProgress (h : Underway saveIntervalS start w) :
    Underway saveIntervalS start (saveProgress w.refs.lastTickPos w) ∧
      (saveProgress w.refs.lastTickPos w).refs.lastTickPos -
        (saveProgress w.refs.lastTickPos w).refs.lastSavedPos < 1 := by
  have hPos : savable w.refs.maxSavablePos w.refs.lastTickPos = w.refs.lastTickPos :=
    savable_of_le h.below
  rcases saveProgress_cases w.refs.lastTickPos w with ⟨hNear, hEq⟩ | ⟨-, hEq⟩
  · rw [WatchRefs.Saves, not_not, hPos] at hNear
    rw [hEq]
    exact ⟨h, lt_of_le_of_lt (le_abs_self _) hNear⟩
  · rw [hEq, hPos]
    refine ⟨⟨h.below, fun x hFrom hTo => reported_append.mpr ?_, .inl ⟨rfl, rfl⟩⟩, ?_⟩
    · rcases h.next with ⟨hAnchor, hSeeked⟩ | ⟨-, hSoon⟩
      · rcases lt_or_ge x w.refs.lastSavedPos with hOld | hNew
        · exact .inl (h.kept x hFrom hOld)
        · exact .inr (reported_request.mpr ⟨hSeeked, hAnchor.trans_le hNew, hTo⟩)
      · -- the first save after a seek comes within the loss
        exact absurd (lt_of_le_of_lt hFrom hTo) (not_lt.mpr hSoon.le)
    · simp

theorem Follows.noteTick (h : Follows saveIntervalS start w)
    (hStep : Continuous w.refs.lastTickPos t) (hCap : ∀ cap ∈ w.refs.maxSavablePos, t ≤ cap) :
    Underway saveIntervalS start
      { w with refs := noteTick t w.refs, ticks := t :: w.ticks } := by
  rw [noteTick_continuous hStep]
  refine ⟨hCap, h.kept, ?_⟩
  rcases h.next with hSaved | ⟨hBefore, -⟩
  · exact .inl hSaved
  · have hGap := one_le_saveGap saveIntervalS
    have hNear := hStep.2
    refine .inr ⟨hBefore, ?_⟩
    show t < start + seekLoss saveIntervalS
    unfold seekLoss
    rcases h.recent with hFirst | hRecent <;> linarith

theorem follows_step {e : WatchEvent} (hPlays : PlaysOn w e)
    (hStep : (videoPlayer saveIntervalS).step w e = some w')
    (h : Follows saveIntervalS start w) : Follows saveIntervalS start w' := by
  have hGap := one_le_saveGap saveIntervalS
  cases e with
  | timeUpdate t =>
    cases hStep
    have hNoted := h.noteTick hPlays.1 hPlays.2
    simp only [handleNativeTimeUpdate]
    split
    · obtain ⟨hSaved, hNear⟩ := hNoted.saveProgress
      exact ⟨hSaved, .inr (hNear.trans_le hGap)⟩
    · next hDue => exact ⟨hNoted, .inr ((not_le.mp hDue).trans_le (le_max_left _ _))⟩
  | pause =>
    cases hStep
    obtain ⟨hSaved, hNear⟩ := h.toUnderway.saveProgress
    exact ⟨hSaved, .inr (hNear.trans_le hGap)⟩
  | moveCap cap =>
    cases hStep
    exact ⟨⟨hPlays, h.kept, h.next⟩, h.recent⟩

/-- Where the last save is less than `loss` ago, what was played up to then is reported. -/
theorem Underway.reported {endLoss : ℚ} (h : Underway saveIntervalS start w)
    (hNear : w.refs.lastTickPos - w.refs.lastSavedPos < endLoss)
    (hFrom : start + seekLoss saveIntervalS ≤ x) (hTo : x ≤ w.refs.lastTickPos - endLoss) :
    Reported w.requests x :=
  h.kept x hFrom (by linarith)

theorem Follows.reported (h : Follows saveIntervalS start w)
    (hFrom : start + seekLoss saveIntervalS ≤ x)
    (hTo : x ≤ w.refs.lastTickPos - saveGap saveIntervalS) : Reported w.requests x := by
  rcases h.recent with hFirst | hRecent
  · have hGap := one_le_saveGap saveIntervalS
    have hLoss : start ≤ start + seekLoss saveIntervalS := by
      unfold seekLoss CONTINUOUS_TICK_GAP_S
      linarith
    linarith
  · exact h.toUnderway.reported hRecent hFrom hTo

/-- Any position that is not before the last saved one starts such playback. -/
theorem follows_of_le (hCap : w.BelowCap) (hSaved : w.refs.lastSavedPos ≤ w.refs.lastTickPos) :
    Follows saveIntervalS w.refs.lastTickPos w := by
  have hLoss : w.refs.lastTickPos < w.refs.lastTickPos + seekLoss saveIntervalS := by
    have hGap := one_le_saveGap saveIntervalS
    unfold seekLoss CONTINUOUS_TICK_GAP_S
    linarith
  exact ⟨⟨hCap, fun x hFrom hTo => absurd (hFrom.trans_lt hTo) (not_lt.mpr (hSaved.trans hLoss.le)),
    .inr ⟨hSaved, hLoss⟩⟩, .inl rfl⟩

/-- The requests are kept. -/
theorem reported_of_run {es : List WatchEvent}
    (hRun : (videoPlayer saveIntervalS).run w es = some w') (h : Reported w.requests x) :
    Reported w'.requests x := by
  have hSave : ∀ pos v, Reported v.requests x → Reported (saveProgress pos v).requests x := by
    intro pos v hv
    rcases saveProgress_cases pos v with ⟨-, hEq⟩ | ⟨-, hEq⟩
    · rwa [hEq]
    · rw [hEq]
      exact reported_append.mpr (.inl hv)
  refine (Machine.Runs.of_run hRun).invariant (I := fun v => Reported v.requests x)
    (fun v e v' _ hStep hv => ?_) h
  cases e with
  | timeUpdate t =>
    cases hStep
    simp only [handleNativeTimeUpdate]
    split
    · exact hSave _ _ hv
    · exact hv
  | pause =>
    cases hStep
    exact hSave _ _ hv
  | moveCap cap =>
    cases hStep
    exact hv

/-- The player has paused after its last tick. -/
def EndsInPause (es : List WatchEvent) : Prop :=
  ∃ before after, es = before ++ .pause :: after ∧ ∀ e ∈ after, ∀ t, e ≠ .timeUpdate t

/-- Without another tick a position stays saved. -/
theorem settled_of_quiet {es : List WatchEvent}
    (hRun : (videoPlayer saveIntervalS).Runs PlaysOn w es w')
    (hQuiet : ∀ e ∈ es, ∀ t, e ≠ .timeUpdate t) (h : Underway saveIntervalS start w)
    (hNear : w.refs.lastTickPos - w.refs.lastSavedPos < 1) :
    w'.refs.lastTickPos - w'.refs.lastSavedPos < 1 := by
  induction hRun with
  | nil w => exact hNear
  | @cons w u w' e es hPlays hStep _ ih =>
    have hRest : ∀ e ∈ es, ∀ t, e ≠ .timeUpdate t :=
      fun e' he' => hQuiet e' (List.mem_cons_of_mem e he')
    cases e with
    | timeUpdate t => exact absurd rfl (hQuiet _ List.mem_cons_self t)
    | pause =>
      cases hStep
      obtain ⟨hSaved, hClose⟩ := h.saveProgress
      exact ih hRest hSaved hClose
    | moveCap cap =>
      cases hStep
      exact ih hRest ⟨hPlays, h.kept, h.next⟩ hNear

/-- A pause saves what was played. -/
theorem settled_of_pause {es : List WatchEvent}
    (hRun : (videoPlayer saveIntervalS).Runs PlaysOn w es w') (hPause : EndsInPause es)
    (h : Follows saveIntervalS start w) :
    w'.refs.lastTickPos - w'.refs.lastSavedPos < 1 := by
  obtain ⟨before, after, rfl, hQuiet⟩ := hPause
  obtain ⟨u, hBefore, hRest⟩ := hRun.of_append
  have hu : Follows saveIntervalS start u := hBefore.invariant (fun _ _ _ => follows_step) h
  cases hRest with
  | cons _ hStep hAfter =>
    cases hStep
    obtain ⟨hSaved, hNear⟩ := hu.toUnderway.saveProgress
    exact settled_of_quiet hAfter hQuiet hSaved hNear

end Playback

section Match

variable (saveIntervalS initialPosition : ℚ)

/-- A longest run of steps of playback, all of it below the cap. -/
structure Stretch (es : List WatchEvent) (w : Watch) where
  before : List WatchEvent
  during : List WatchEvent
  after : List WatchEvent
  first : Watch
  last : Watch
  split : es = before ++ during ++ after
  reached : (videoPlayer saveIntervalS).run (mountWatch initialPosition) before = some first
  begins : before = [] ∨ ∃ earlier u t, before = earlier ++ [.timeUpdate t] ∧
    (videoPlayer saveIntervalS).run (mountWatch initialPosition) earlier = some u ∧
      ¬Continuous u.refs.lastTickPos t
  below : first.BelowCap
  plays : (videoPlayer saveIntervalS).Runs PlaysOn first during last
  ends : after = [] ∨ ∃ t later, after = .timeUpdate t :: later ∧
    ¬Continuous last.refs.lastTickPos t
  rest : (videoPlayer saveIntervalS).run last after = some w

/-- What is reported was played, and what was played is reported but for the given losses at the
beginning and at the end of a stretch. -/
def WatchReportsMatch (startLoss endLoss : ℚ) (es : List WatchEvent) : Prop :=
  ∀ w, (videoPlayer saveIntervalS).run (mountWatch initialPosition) es = some w →
    (∀ x, Reported w.requests x → Played w.ticks x) ∧
    ∀ stretch : Stretch saveIntervalS initialPosition es w, ∀ x,
      stretch.first.refs.lastTickPos + startLoss ≤ x →
        x ≤ stretch.last.refs.lastTickPos - endLoss → Reported w.requests x

end Match

/-- As long as no save goes through with the cap below the anchor, all that is reported was played.
A stretch of playback that does not begin before the last saved position is reported but for its
first seconds, and, at its end, but for less than a second after a pause and for less than the gap
between two saves otherwise. -/
theorem watchReports_match (saveIntervalS initialPosition : ℚ) (es : List WatchEvent) (w : Watch) :
    ((videoPlayer saveIntervalS).Runs (KeepsAnchor saveIntervalS) (mountWatch initialPosition) es
        w →
      ∀ x, Reported w.requests x → Played w.ticks x) ∧
    ∀ stretch : Stretch saveIntervalS initialPosition es w,
      stretch.first.refs.lastSavedPos ≤ stretch.first.refs.lastTickPos →
      ∀ x, stretch.first.refs.lastTickPos + (max saveIntervalS 1 + 3 / 2) ≤ x →
        (x ≤ stretch.last.refs.lastTickPos - max saveIntervalS 1 ∨
          EndsInPause stretch.during ∧ x ≤ stretch.last.refs.lastTickPos - 1) →
        Reported w.requests x := by
  refine ⟨reported_played, fun stretch hBegins x hFrom hTo => reported_of_run stretch.rest ?_⟩
  have hFirst : Follows saveIntervalS stretch.first.refs.lastTickPos stretch.first :=
    follows_of_le stretch.below hBegins
  have hLast := stretch.plays.invariant (fun _ _ _ => follows_step) hFirst
  rcases hTo with hTo | ⟨hPause, hTo⟩
  · exact hLast.reported hFrom hTo
  · exact hLast.toUnderway.reported (settled_of_pause stretch.plays hPause hFirst) hFrom hTo

/-- Ticks of playback, a second and a half apart, after a position. -/
def ticksFrom (pos : ℚ) : ℕ → List WatchEvent
  | 0 => []
  | n + 1 => .timeUpdate (pos + 3 / 2) :: ticksFrom (pos + 3 / 2) n

/-- The beginning of a video up to the second 18, and then a skip to the second 60. -/
def skipAhead : List WatchEvent := ticksFrom 0 12 ++ [.timeUpdate 60, .pause]

/-- The player before the skip, which has saved the second 9. -/
def beforeSkip : Watch where
  refs := ⟨9, 9, 18, false, none⟩
  ticks := [18, 33 / 2, 15, 27 / 2, 12, 21 / 2, 9, 15 / 2, 6, 9 / 2, 3, 3 / 2, 0]
  requests := [⟨9, 0, 9⟩]

def afterSkip : Watch where
  refs := ⟨60, 60, 60, false, none⟩
  ticks := 60 :: beforeSkip.ticks
  requests := [⟨9, 0, 9⟩, ⟨60, 0, 0⟩]

def skippedStretch : Stretch 10 0 skipAhead afterSkip where
  before := []
  during := ticksFrom 0 12
  after := [.timeUpdate 60, .pause]
  first := mountWatch 0
  last := beforeSkip
  split := rfl
  reached := rfl
  begins := .inl rfl
  below cap h := by cases h
  plays := Machine.Runs.of_restrict (by decide +kernel)
  ends := .inr ⟨60, [.pause], rfl, by decide +kernel⟩
  rest := by decide +kernel

/-- What was played after the last save before a skip is not reported: here the seconds 9 to 18. -/
theorem skip_drops_played : skipAhead.getLast? = some .pause ∧
    ¬WatchReportsMatch 10 0 (10 + 3 / 2) 1 skipAhead := by
  refine ⟨rfl, fun hMatch => ?_⟩
  have hRun : (videoPlayer 10).run (mountWatch 0) skipAhead = some afterSkip := by decide +kernel
  have hFrom : (mountWatch 0).refs.lastTickPos + (10 + 3 / 2) ≤ 13 := by decide +kernel
  have hTo : (13 : ℚ) ≤ beforeSkip.refs.lastTickPos - 1 := by decide +kernel
  have hReported := (hMatch afterSkip hRun).2 skippedStretch 13 hFrom hTo
  revert hReported
  simp only [Reported, afterSkip, List.mem_cons, List.not_mem_nil, or_false, exists_eq_or_imp,
    exists_eq_left]
  norm_num

/-- A video that is played to the second 27 and paused. -/
def playThrough : List WatchEvent := ticksFrom 0 18 ++ [.pause]

def playedThrough : Watch where
  refs := ⟨27, 27, 27, false, none⟩
  ticks := [27, 51 / 2, 24, 45 / 2, 21, 39 / 2, 18, 33 / 2, 15, 27 / 2, 12, 21 / 2, 9, 15 / 2, 6,
    9 / 2, 3, 3 / 2, 0]
  requests := [⟨9, 0, 9⟩, ⟨39 / 2, 9, 39 / 2⟩, ⟨27, 39 / 2, 27⟩]

def playedStretch : Stretch 10 0 playThrough playedThrough where
  before := []
  during := playThrough
  after := []
  first := mountWatch 0
  last := playedThrough
  split := by simp
  reached := rfl
  begins := .inl rfl
  below cap h := by cases h
  plays := Machine.Runs.of_restrict (by decide +kernel)
  ends := .inl rfl
  rest := rfl

theorem watchReports_match_playThrough :
    Played playedThrough.ticks 8 ∧ Reported playedThrough.requests 26 := by
  obtain ⟨hPlayed, hReported⟩ := watchReports_match 10 0 playThrough playedThrough
  constructor
  · refine hPlayed (Machine.Runs.of_restrict (by decide +kernel)) 8
      ⟨⟨9, 0, 9⟩, List.mem_cons_self, ?_⟩
    norm_num
  · refine hReported playedStretch (by decide +kernel) 26 (by decide +kernel) (.inr ⟨?_, ?_⟩)
    · exact ⟨ticksFrom 0 18, [], rfl, fun e he => by cases he⟩
    · decide +kernel

end Richter.Player
