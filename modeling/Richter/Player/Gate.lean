import Richter.Player.HitTest

/-! The checkpoint gate over the runs of the player: while every step leaves no question behind, the
position stays at the timed interactions that are not answered. -/

namespace Richter.Player

open Lib

section Gate

variable {props : Props} {s : State} {t : ℚ}

/-- The position stays at the timed interactions that are not answered, up to the slack of a seek
and a step `δ` of playback. -/
def Gated (props : Props) (δ : ℚ) (s : State) : Prop :=
  s.hasPlayed = true → s.paused = false → s.activeId = none → s.submitted = false →
    ∀ c ∈ props.interactions, 0 < c.startSeconds → c.id ∉ s.passedIds →
      s.currentTime ≤ c.startSeconds + FORWARD_SEEK_SLACK_S + δ

/-- Every pending checkpoint is ahead of `t`. -/
def Ahead (props : Props) (s : State) (t : ℚ) : Prop :=
  ∀ c ∈ pendingCheckpoints props s, t < c.startSeconds

theorem pendingCheckpoints_handleFirstPlay (s : State) :
    pendingCheckpoints props (handleFirstPlay props s) = pendingCheckpoints props s := by
  unfold pendingCheckpoints
  congr 1
  refine List.filter_congr fun c hc => ?_
  rw [decide_eq_decide]
  refine and_congr_right fun hPos => not_congr ?_
  simp only [handleFirstPlay, List.mem_append, or_iff_left_iff_imp]
  intro hEarly
  obtain ⟨e, he, hId⟩ := List.mem_map.mp hEarly
  obtain ⟨hMem, hLe⟩ := List.mem_filter.mp he
  obtain rfl : e = c := List.inj_on_of_nodup_map props.nodup hMem hc hId
  exact absurd hPos (not_lt.mpr (of_decide_eq_true hLe))

theorem reviewGuard_of_idle (h : s.activeId = none) : reviewGuard s = s := by
  simp [reviewGuard, h]

theorem questionOpen_of_idle (h : s.activeId = none) : s.questionOpen = false := by
  simp [State.questionOpen, h]

theorem questionOpen_of_active (h : s.activeId.isSome = true) (hSubmitted : s.submitted = false) :
    s.questionOpen = true := by
  simp [State.questionOpen, h, hSubmitted]

/-- The video is not played while a question is open. -/
theorem play_of_open (hOpen : s.questionOpen = true) (hEnded : s.ended = false) :
    play props s = s := by
  cases hPaused : s.paused with
  | false => simp [play, hPaused]
  | true =>
    let started : State := { s with
      currentTime := if s.ended then 0 else s.currentTime, ended := false, paused := false }
    have hBlocked : onPlay props started = { started with paused := true } := if_pos hOpen
    unfold play
    rw [if_pos hPaused, hBlocked]
    cases s
    simp_all [started]

variable (props) in
/-- A paused video without an open question starts, from the beginning when it has ended. -/
theorem play_of_idle (hIdle : s.activeId = none) (hPaused : s.paused = true) :
    ∃ time ≤ max 0 s.currentTime, (s.ended = false → time = s.currentTime) ∧ play props s =
      if s.hasPlayed = true then { s with currentTime := time, ended := false, paused := false }
      else handleFirstPlay props
        { s with currentTime := time, ended := false, paused := false, hasPlayed := true } := by
  refine ⟨if s.ended then 0 else s.currentTime, ?_, fun hEnded => by simp [hEnded], ?_⟩
  · split
    · exact le_max_left _ _
    · exact le_max_right _ _
  · let started : State := { s with
      currentTime := if s.ended then 0 else s.currentTime, ended := false, paused := false }
    have hClosed : ¬ started.questionOpen = true := by
      rw [questionOpen_of_idle (s := started) hIdle]
      nofun
    have hStarted : play props s = onPlay props started := if_pos hPaused
    rw [hStarted, onPlay, if_neg hClosed]
    split
    · exact reviewGuard_of_idle hIdle
    · exact reviewGuard_of_idle hIdle

/-- A first play, with the hit-test at the position. -/
theorem play_first (h : WellFormed props s) (hIdle : s.activeId = none)
    (hNot : s.hasPlayed = false) : ∃ time ≤ max 0 s.currentTime,
      (s.ended = false → time = s.currentTime) ∧ play props s = handleFirstPlay props
        { s with currentTime := time, ended := false, paused := false, hasPlayed := true } := by
  obtain ⟨time, hTime, hEnded, hPlay⟩ :=
    play_of_idle props hIdle (h.paused (.inl hNot))
  refine ⟨time, hTime, hEnded, ?_⟩
  rw [hPlay, if_neg (by rw [hNot]; nofun)]

variable (props) in
/-- The video plays on. -/
theorem play_again (hIdle : s.activeId = none) (hPlayed : s.hasPlayed = true) :
    ∃ time ≤ max 0 s.currentTime, (s.ended = false → time = s.currentTime) ∧ ∃ ended paused,
      play props s = { s with currentTime := time, ended := ended, paused := paused } := by
  cases hPaused : s.paused with
  | false =>
    refine ⟨s.currentTime, le_max_right _ _, fun _ => rfl, s.ended, s.paused, ?_⟩
    rw [play, if_neg (by rw [hPaused]; nofun)]
  | true =>
    obtain ⟨time, hTime, hEnded, hPlay⟩ := play_of_idle props hIdle hPaused
    rw [if_pos hPlayed] at hPlay
    exact ⟨time, hTime, hEnded, false, false, hPlay⟩

theorem WellFormed.play (h : WellFormed props s) (hIdle : s.activeId = none) :
    WellFormed props (play props s) := by
  cases hPlayed : s.hasPlayed with
  | false =>
    obtain ⟨time, -, -, hPlay⟩ := play_first h hIdle hPlayed
    rw [hPlay]
    refine ⟨fun id hId => ?_, fun hStill => ?_, fun _ => rfl⟩
    · simp [handleFirstPlay, hIdle] at hId
    · simp [handleFirstPlay, hIdle] at hStill
  | true =>
    obtain ⟨time, -, -, ended, paused, hPlay⟩ := play_again props hIdle hPlayed
    rw [hPlay]
    refine ⟨h.active, fun hStill => ?_, h.loaded⟩
    simp [hPlayed, hIdle] at hStill

theorem Inv.play (h : WellFormed props s) (hIdle : s.activeId = none)
    (hGate : s.hasPlayed = true → Behind props s ∧ Near props s)
    (hFirst : s.hasPlayed = false → Ahead props s s.currentTime) : Inv props (play props s) := by
  refine ⟨h.play hIdle, fun _ => ?_⟩
  have hPos : ∀ c ∈ pendingCheckpoints props s, 0 < c.startSeconds :=
    fun c hc => (mem_pendingCheckpoints.mp hc).2.1
  cases hPlayed : s.hasPlayed with
  | false =>
    obtain ⟨time, hTime, -, hPlay⟩ := play_first h hIdle hPlayed
    let started : State :=
      { s with currentTime := time, ended := false, paused := false, hasPlayed := true }
    have hPending : pendingCheckpoints props (handleFirstPlay props started) =
        pendingCheckpoints props s := pendingCheckpoints_handleFirstPlay started
    have hLt : ∀ c ∈ pendingCheckpoints props s, time < c.startSeconds := fun c hc =>
      lt_of_le_of_lt hTime (max_lt (hPos c hc) (hFirst hPlayed c hc))
    rw [hPlay]
    refine ⟨fun c hc => .inl (hLt c (hPending ▸ hc)), fun c hc => .inl ?_⟩
    have := hLt c (hPending ▸ hc)
    show time ≤ c.startSeconds + 1
    linarith
  | true =>
    obtain ⟨time, hTime, -, ended, paused, hPlay⟩ := play_again props hIdle hPlayed
    obtain ⟨hBehind, hNear⟩ := hGate hPlayed
    rw [hPlay]
    refine ⟨hBehind, fun c hc => .inl ?_⟩
    have hWithin := (hNear c hc).resolve_right fun hSurfaced => by
      simp [Surfaced, hIdle] at hSurfaced
    have := hPos c hc
    show time ≤ c.startSeconds + 1
    exact hTime.trans (max_le (by linarith) hWithin)

theorem Inv.pause (h : Inv props s) : Inv props { s with paused := true } :=
  ⟨⟨h.active, fun _ => rfl, h.loaded⟩, h.gate⟩

theorem Inv.togglePlay (h : Inv props s) (hSubmitted : s.submitted = false)
    (hFirst : s.hasPlayed = false → s.activeId = none → Ahead props s s.currentTime) :
    Inv props (togglePlay props s) := by
  unfold Player.togglePlay
  split
  · exact h.pause
  · next hStarts =>
    rw [not_or] at hStarts
    have hIdle : s.activeId = none := by
      rw [← Option.not_isSome_iff_eq_none]
      exact fun hActive => hStarts.1 (questionOpen_of_active hActive hSubmitted)
    exact .play h.toWellFormed hIdle h.gate fun hNot => hFirst hNot hIdle

/-- While the video plays, it has been played and no question is open. -/
theorem WellFormed.of_playing (h : WellFormed props s) (hPlaying : s.paused = false) :
    s.hasPlayed = true ∧ s.activeId = none := by
  have hNot : ¬ (s.hasPlayed = false ∨ s.activeId.isSome = true) := fun hStill => by
    rw [h.paused hStill] at hPlaying
    cases hPlaying
  rw [not_or] at hNot
  exact ⟨(Bool.not_eq_false _).mp hNot.1, Option.not_isSome_iff_eq_none.mp hNot.2⟩

theorem Inv.timeUpdate (h : Inv props s) (hSubmitted : s.submitted = false)
    (hPlaying : s.paused = false) {step : ℚ} (hOne : OneGate props s (s.currentTime + step)) :
    Inv props (timeUpdate props step s) := by
  obtain ⟨hPlayed, hIdle⟩ := h.of_playing hPlaying
  let moved : State := { s with currentTime := s.currentTime + step }
  have hWf : WellFormed props moved := ⟨h.active, h.paused, h.loaded⟩
  have hBehind : Behind props moved := (h.gate hPlayed).1
  have hUpdated := hBehind.handleTimeUpdate (t := moved.currentTime) hSubmitted hOne
  refine ⟨(hWf.handleTimeUpdate hSubmitted _).reviewGuard, fun _ => ⟨hUpdated.1.reviewGuard, ?_⟩⟩
  refine (hUpdated.2 hWf hPlayed rfl fun hActive => ?_).reviewGuard
  rw [show moved.activeId = none from hIdle] at hActive
  cases hActive

/-- After a time update the hit-test is at its time. -/
theorem oneGate_handleTimeUpdate (hSubmitted : s.submitted = false)
    (hLoaded : s.isInitialLoad = false) : OneGate props (handleTimeUpdate props t s) t := by
  intro hActive hLate
  cases hIdle : s.activeId with
  | some id =>
    rw [handleTimeUpdate_of_active hIdle, hIdle] at hActive
    cases hActive
  | none =>
    have hUpdated := handleTimeUpdate_cases props t hSubmitted hIdle
    generalize handleTimeUpdate props t s = s' at hUpdated hActive ⊢
    cases hUpdated with
    | ignored watched high initial _ hInitial hEarly =>
      rcases hEarly with hStill | hEarly
      · rw [hInitial hStill] at hLoaded
        cases hLoaded
      · exact absurd hLate (not_le.mpr hEarly)
    | passed watched high _ _ _ => exact fun c _ hPrev d _ hLater => lt_trans hPrev hLater
    | hit watched high c _ _ _ _ _ => cases hActive

/-- A time update beyond a gate that is ahead opens a question. -/
theorem handleTimeUpdate_hits (hSubmitted : s.submitted = false) (hLoaded : s.isInitialLoad = false)
    (hBehind : Behind props s) {gate : LessonInteraction} (hGate : nextGate props s = some gate)
    (hReached : gate.startSeconds + FORWARD_SEEK_SLACK_S < t) :
    (handleTimeUpdate props t s).activeId ≠ none := by
  intro hActive
  cases hIdle : s.activeId with
  | some id =>
    rw [handleTimeUpdate_of_active hIdle, hIdle] at hActive
    cases hActive
  | none =>
    have hMem := (nextGate_eq_some hGate).1
    have hPos : 0 < gate.startSeconds := (mem_pendingCheckpoints.mp hMem).2.1
    have hPast : gate.startSeconds + 1 < t := hReached
    have hUpdated := handleTimeUpdate_cases props t hSubmitted hIdle
    generalize handleTimeUpdate props t s = s' at hUpdated hActive
    cases hUpdated with
    | ignored watched high initial _ hInitial hEarly =>
      rcases hEarly with hStill | hEarly
      · rw [hInitial hStill] at hLoaded
        cases hLoaded
      · linarith
    | passed watched high _ _ hMissed =>
      have hAhead := hMissed gate hMem (hBehind.lt hIdle hMem)
      simp only [CHECKPOINT_EPSILON_SECONDS] at hAhead
      linarith
    | hit watched high c _ _ _ _ _ => cases hActive

theorem Inv.handleSeekChange (h : Inv props s) (hSubmitted : s.submitted = false)
    (hOne : s.hasPlayed = true →
      (∀ gate, nextGate props s = some gate → t ≤ gate.startSeconds + FORWARD_SEEK_SLACK_S) →
        OneGate props s t) : Inv props (handleSeekChange props t s) := by
  let moved : State := { s with currentTime := t, ended := false }
  have hWf : WellFormed props moved := ⟨h.active, h.paused, h.loaded⟩
  obtain ⟨hSame, hTime⟩ := handleTimeUpdate_same props t
    (show moved.submitted = false from hSubmitted)
  have hWf' := hWf.handleTimeUpdate hSubmitted t
  have hOneGate : s.hasPlayed = true → OneGate props (handleTimeUpdate props t moved) t :=
    fun hPlayed => oneGate_handleTimeUpdate hSubmitted (h.loaded hPlayed)
  have hHits : s.hasPlayed = true → ∀ gate, nextGate props s = some gate →
      gate.startSeconds + FORWARD_SEEK_SLACK_S < t →
        (handleTimeUpdate props t moved).activeId ≠ none :=
    fun hPlayed gate hGate hPast => handleTimeUpdate_hits (s := moved) hSubmitted
      (h.loaded hPlayed) (h.gate hPlayed).1 hGate hPast
  have hBehind : s.hasPlayed = true → Behind props (handleTimeUpdate props t moved) ∨
      ∃ gate, nextGate props s = some gate ∧ gate.startSeconds + FORWARD_SEEK_SLACK_S < t := by
    intro hPlayed
    by_cases hWithin : ∀ gate, nextGate props s = some gate →
        t ≤ gate.startSeconds + FORWARD_SEEK_SLACK_S
    · have hMoved : Behind props moved := (h.gate hPlayed).1
      exact .inl (hMoved.handleTimeUpdate hSubmitted (hOne hPlayed hWithin)).1
    · push Not at hWithin
      exact .inr hWithin
  unfold Player.handleSeekChange
  show Inv props (Player.seeked props (guardSeek props (Player.handleTimeUpdate props t moved)))
  generalize Player.handleTimeUpdate props t moved = s' at *
  have hNext : nextGate props s' = nextGate props s := by
    rw [nextGate, nextGate, hSame.pendingCheckpoints]
    rfl
  have hPlayedIff : s'.hasPlayed = s.hasPlayed := hSame.hasPlayed
  have hBeyond : ∀ gate, Beyond s' gate ↔ gate.startSeconds + FORWARD_SEEK_SLACK_S < t := by
    intro gate
    rw [Beyond, hTime]
  have hPauses : Pauses props s' := by
    intro gate hGate hPast _ hActive
    by_cases hPlayed : s.hasPlayed = true
    · exact absurd hActive (hHits hPlayed gate (hNext ▸ hGate) ((hBeyond gate).mp hPast))
    · exact .inl (hWf'.paused (.inl (hPlayedIff.trans ((Bool.not_eq_true _).mp hPlayed))))
  have hGuarded : Inv props (guardSeek props s') := by
    refine ⟨hWf'.guardSeek hPauses, fun hPlayed => ?_⟩
    rw [(sameRun_guardSeek s').hasPlayed] at hPlayed
    refine gate_guardSeek (hWf'.loaded hPlayed) ((hBehind (hPlayedIff ▸ hPlayed)).imp_right ?_)
    rintro ⟨gate, hGate, hPast⟩
    exact ⟨gate, hNext.trans hGate, (hBeyond gate).mpr hPast⟩
  refine hGuarded.seeked ((sameRun_guardSeek s').submitted.trans
    (hSame.submitted.trans hSubmitted)) fun hPlayed => ?_
  rw [(sameRun_guardSeek s').hasPlayed, hPlayedIff] at hPlayed
  have hSeek := guardSeek_cases props s'
  generalize guardSeek props s' = s'' at hSeek ⊢
  cases hSeek with
  | kept => rw [hTime]; exact hOneGate hPlayed
  | clamped gate paused _ _ _ _ _ => exact fun hActive => by cases hActive

/-- A seek behind which the video keeps still leaves the events of the seek to come. -/
theorem Inv.seekTo_open (h : Inv props s) (hSubmitted : s.submitted = false)
    (hOpen : s.activeId.isSome = true) (hEnded : s.ended = false) :
    Inv props (Player.seeked props (Player.play props s)) := by
  rw [play_of_open (questionOpen_of_active hOpen hSubmitted) hEnded]
  refine h.seeked hSubmitted fun _ hActive => ?_
  rw [hActive] at hOpen
  cases hOpen

/-- A seek of a video that has been played, to a position that the guard leaves as it is. -/
theorem Inv.seekTo_again (h : WellFormed props s) (hSubmitted : s.submitted = false)
    (hIdle : s.activeId = none) (hPlayed : s.hasPlayed = true) (hEnded : s.ended = false)
    (hGate : Behind props s ∧ Near props s) (hOne : OneGate props s s.currentTime) :
    Inv props (Player.seeked props (Player.play props s)) := by
  have hPlay := Inv.play h hIdle (fun _ => hGate) fun hNot => by
    rw [hPlayed] at hNot
    cases hNot
  obtain ⟨time, -, hTime, ended, paused, hEq⟩ := play_again props hIdle hPlayed
  obtain rfl : time = s.currentTime := hTime hEnded
  rw [hEq] at hPlay ⊢
  exact hPlay.seeked hSubmitted fun _ => hOne

/-- A seek that starts the video for the first time, to a position that the guard leaves as it
is. -/
theorem Inv.seekTo_first (h : WellFormed props s) (hSubmitted : s.submitted = false)
    (hIdle : s.activeId = none) (hNot : s.hasPlayed = false) (hEnded : s.ended = false)
    (hAhead : (∀ gate, nextGate props s = some gate → ¬ Beyond s gate) →
      Ahead props s s.currentTime)
    (hHigh : ∀ gate, nextGate props s = some gate → Beyond s gate →
      s.maxWatched - FORWARD_SEEK_SLACK_S ≤ gate.startSeconds) :
    Inv props (Player.seeked props (Player.play props s)) := by
  obtain ⟨time, -, hTime, hEq⟩ := play_first h hIdle hNot
  obtain rfl : time = s.currentTime := hTime hEnded
  have hNext : nextGate props (Player.play props s) = nextGate props s := by
    rw [hEq, nextGate, nextGate, pendingCheckpoints_handleFirstPlay]
    rfl
  obtain ⟨hPrev, hCur, hFirst, hSame, hMax⟩ :
      (Player.play props s).prevTime = (Player.play props s).currentTime ∧
        (Player.play props s).currentTime = s.currentTime ∧
        (Player.play props s).hasPlayed = true ∧
        (Player.play props s).submitted = s.submitted ∧
        (Player.play props s).maxWatched = s.maxWatched := by
    rw [hEq]
    exact ⟨rfl, rfl, rfl, rfl, rfl⟩
  by_cases hIn : ∀ gate, nextGate props s = some gate → ¬ Beyond s gate
  · have hPlay := Inv.play h hIdle (fun hYes => by rw [hNot] at hYes; cases hYes)
      fun _ => hAhead hIn
    refine hPlay.seeked (hSame.trans hSubmitted) fun _ _ _ c _ hc d _ hLater => ?_
    rw [← hPrev]
    exact lt_trans hc hLater
  · push Not at hIn
    obtain ⟨gate, hGate, hPast⟩ := hIn
    refine seeked_firstPlay (h.play hIdle) (hSame.trans hSubmitted) hPrev hFirst ?_
      ⟨gate, hNext.trans hGate, by rw [Beyond, hCur]; exact hPast⟩
    intro gate' hGate' hPast' _ _
    rw [hNext] at hGate'
    rw [Beyond, hCur] at hPast'
    rw [hMax]
    exact .inr (hHigh gate' hGate' hPast')

theorem Inv.seekTo (h : Inv props s) (hSubmitted : s.submitted = false)
    (hWithin : s.activeId = none →
      (∀ gate, nextGate props s = some gate → t ≤ gate.startSeconds + FORWARD_SEEK_SLACK_S) →
        if s.hasPlayed = true then OneGate props s t else Ahead props s t)
    (hHigh : s.activeId = none → ∀ gate, nextGate props s = some gate →
      gate.startSeconds + FORWARD_SEEK_SLACK_S < t → (s.paused = true ∧ s.isInitialLoad = false) ∨
        s.maxWatched - FORWARD_SEEK_SLACK_S ≤ gate.startSeconds) :
    Inv props (seekTo props t s) := by
  let moved : State := { s with currentTime := t, ended := false }
  have hWf : WellFormed props moved := ⟨h.active, h.paused, h.loaded⟩
  have hPauses : Pauses props moved := fun gate hGate hBeyond _ hIdle =>
    (hHigh hIdle gate hGate hBeyond).imp_left And.left
  have hWf' := hWf.guardSeek hPauses
  have hGate' : moved.isInitialLoad = false → (Behind props moved ∨
      ∃ gate, nextGate props moved = some gate ∧ Beyond moved gate) →
        Behind props (guardSeek props moved) ∧ Near props (guardSeek props moved) :=
    gate_guardSeek
  unfold Player.seekTo seek
  show Inv props (Player.seeked props (Player.play props (guardSeek props moved)))
  have hGuarded := guardSeek_cases props moved
  generalize guardSeek props moved = s' at hGuarded hWf' hGate' ⊢
  cases hGuarded with
  | clamped gate paused hGate hLoaded hBeyond hPaused hHigh' =>
    exact Inv.seekTo_open ⟨hWf', fun _ => hGate' hLoaded (.inr ⟨gate, hGate, hBeyond⟩)⟩ hSubmitted
      rfl rfl
  | kept hKept =>
    have hGate : moved.hasPlayed = true → Behind props moved ∧ Near props moved :=
      fun hPlayed => hGate' (h.loaded hPlayed) (.inl (h.gate hPlayed).1)
    cases hActive : s.activeId with
    | some id =>
      exact Inv.seekTo_open ⟨hWf, hGate⟩ hSubmitted (by simp [moved, hActive]) rfl
    | none =>
      cases hPlayed : s.hasPlayed with
      | true =>
        refine Inv.seekTo_again hWf hSubmitted hActive hPlayed rfl (hGate hPlayed) ?_
        have hIn : ∀ gate, nextGate props s = some gate →
            t ≤ gate.startSeconds + FORWARD_SEEK_SLACK_S := by
          intro gate hGate
          refine not_lt.mp ((hKept gate hGate).resolve_left ?_)
          rw [show moved.isInitialLoad = false from h.loaded hPlayed]
          nofun
        have hOne := hWithin hActive hIn
        rw [if_pos hPlayed] at hOne
        exact hOne
      | false =>
        refine Inv.seekTo_first hWf hSubmitted hActive hPlayed rfl (fun hIn => ?_) ?_
        · have hAhead := hWithin hActive fun gate hGate => not_lt.mp (hIn gate hGate)
          rw [if_neg (by rw [hPlayed]; nofun)] at hAhead
          exact hAhead
        · intro gate hGate hPast
          -- The guard keeps a position beyond the gate only at the initial load.
          have hStill : s.isInitialLoad = true :=
            (hKept gate hGate).resolve_right (not_not.mpr hPast)
          refine (hHigh hActive gate hGate hPast).resolve_left fun hLoaded => ?_
          rw [hStill] at hLoaded
          cases hLoaded.2

theorem Inv.handleEnded (h : Inv props s) : Inv props (handleEnded props s) := by
  unfold Player.handleEnded
  split
  · exact h
  · next hIdle =>
    rw [not_or, Option.not_isSome_iff_eq_none] at hIdle
    split
    · exact h
    · next gate hGate =>
      obtain ⟨hMem, hFirst⟩ := nextGate_eq_some hGate
      rw [setActiveId_of_paused _ rfl]
      refine ⟨⟨fun id hId => ⟨gate, hMem, Option.some.inj hId⟩, fun _ => rfl, h.loaded⟩, ?_⟩
      intro hPlayed
      obtain ⟨hBehind, hNear⟩ := h.gate hPlayed
      refine ⟨fun c hc => .inl (hBehind.lt hIdle.2 hc), fun c hc => ?_⟩
      refine .inl ((hNear c hc).resolve_right fun hSurfaced => ?_)
      simp [Surfaced, hIdle.2] at hSurfaced

theorem Inv.onEnded (h : Inv props s) (hSubmitted : s.submitted = false)
    (hPlaying : s.paused = false) (hOne : OneGate props s s.currentTime) :
    Inv props (onEnded props s) := by
  obtain ⟨hPlayed, hIdle⟩ := h.of_playing hPlaying
  let ended : State := { s with paused := true, ended := true }
  have hWf : WellFormed props ended := ⟨h.active, fun _ => rfl, h.loaded⟩
  have hBehind : Behind props ended := (h.gate hPlayed).1
  have hUpdated := hBehind.handleTimeUpdate (t := ended.currentTime) hSubmitted hOne
  have hNear := hUpdated.2 hWf hPlayed rfl fun _ => (h.gate hPlayed).2
  exact Inv.handleEnded ⟨hWf.handleTimeUpdate hSubmitted _, fun _ => ⟨hUpdated.1, hNear⟩⟩

/-- The open question is a pending checkpoint. -/
theorem WellFormed.activeInteraction (h : WellFormed props s) {a : LessonInteraction}
    (ha : activeInteraction props s = some a) :
    s.activeId = some a.id ∧ a ∈ pendingCheckpoints props s := by
  obtain ⟨id, hId, hFind⟩ := Option.bind_eq_some_iff.mp ha
  obtain rfl : a.id = id := by simpa using List.find?_some hFind
  obtain ⟨b, hb, hEq⟩ := h.active _ hId
  have hMem := List.mem_of_find?_eq_some hFind
  obtain rfl : b = a :=
    List.inj_on_of_nodup_map props.nodup (mem_pendingCheckpoints.mp hb).1 hMem hEq
  exact ⟨hId, hb⟩

/-- The pending checkpoints after an answer. -/
theorem mem_pending_answered {a c : LessonInteraction} {activeId : Option UUID} :
    c ∈ pendingCheckpoints props
        { s with passedIds := s.passedIds ++ [a.id], activeId := activeId } ↔
      c ∈ pendingCheckpoints props s ∧ c.id ≠ a.id := by
  simp [and_assoc]

theorem nextInCheckpoint_eq_some {a next : LessonInteraction}
    (h : nextInCheckpoint props a s = some next) :
    next ∈ pendingCheckpoints props s ∧ next.id ≠ a.id := by
  have hMem := List.mem_of_mem_head? (Option.mem_def.mpr h)
  rw [List.mem_insertionSort, List.mem_filter, decide_eq_true_eq] at hMem
  obtain ⟨hIn, hNe, hPassed, hPos, -⟩ := hMem
  exact ⟨mem_pendingCheckpoints.mpr ⟨hIn, hPos, hPassed⟩, hNe⟩

theorem nextInCheckpoint_eq_none {a c : LessonInteraction} (h : nextInCheckpoint props a s = none)
    (hc : c ∈ pendingCheckpoints props s) (hNe : c.id ≠ a.id) :
    a.startSeconds < c.startSeconds := by
  obtain ⟨hIn, hPos, hPassed⟩ := mem_pendingCheckpoints.mp hc
  rw [nextInCheckpoint, List.head?_eq_none_iff, ← List.length_eq_zero_iff,
    List.length_insertionSort, List.length_eq_zero_iff, List.filter_eq_nil_iff] at h
  have := h c hIn
  rw [decide_eq_true_eq] at this
  by_contra hLe
  exact this ⟨hNe, hPassed, hPos, not_lt.mp hLe⟩

theorem Inv.handleContinue (h : Inv props s) {a : LessonInteraction}
    (ha : activeInteraction props s = some a)
    (hFirst : s.hasPlayed = false → nextInCheckpoint props a s = none →
      ∀ c ∈ pendingCheckpoints props s, a.startSeconds < c.startSeconds →
        s.currentTime < c.startSeconds) : Inv props (handleContinue props a s) := by
  obtain ⟨hActive, hMem⟩ := h.activeInteraction ha
  have hPaused : s.paused = true := h.paused (.inr (by rw [hActive]; rfl))
  unfold Player.handleContinue
  split
  · next next hNext =>
    obtain ⟨hPending, hNe⟩ := nextInCheckpoint_eq_some hNext
    let passed : State := { s with passedIds := s.passedIds ++ [a.id] }
    show Inv props (setActiveId next.id passed)
    rw [setActiveId_of_paused (s := passed) _ hPaused]
    refine ⟨⟨fun id hId => ⟨next, ?_, Option.some.inj hId⟩, fun _ => hPaused, h.loaded⟩, ?_⟩
    · exact mem_pending_answered.mpr ⟨hPending, hNe⟩
    · intro hPlayed
      obtain ⟨hBehind, hNear⟩ := h.gate hPlayed
      have hSurfaced : ∀ c, Surfaced props s c → Surfaced props
          { s with passedIds := s.passedIds ++ [a.id], activeId := some next.id } c :=
        fun c hc => ⟨rfl, fun d hd => hc.2 d (mem_pending_answered.mp hd).1⟩
      refine ⟨fun c hc => ?_, fun c hc => ?_⟩
      · exact (hBehind c (mem_pending_answered.mp hc).1).imp_right (hSurfaced c)
      · exact (hNear c (mem_pending_answered.mp hc).1).imp_right (hSurfaced c)
  · next hNext =>
    let answered : State := { s with passedIds := s.passedIds ++ [a.id], activeId := none }
    have hLater : ∀ c ∈ pendingCheckpoints props answered,
        c ∈ pendingCheckpoints props s ∧ a.startSeconds < c.startSeconds := by
      intro c hc
      obtain ⟨hc, hNe⟩ := mem_pending_answered.mp hc
      exact ⟨hc, nextInCheckpoint_eq_none hNext hc hNe⟩
    have hNotFirst : ∀ c ∈ pendingCheckpoints props answered, ¬ Surfaced props s c :=
      fun c hc hSurfaced => not_lt.mpr (hSurfaced.2 a hMem) (hLater c hc).2
    have hWf : WellFormed props answered :=
      ⟨nofun, fun _ => hPaused, h.loaded⟩
    have hGate : answered.hasPlayed = true → Behind props answered ∧ Near props answered := by
      intro hPlayed
      obtain ⟨hBehind, hNear⟩ := h.gate hPlayed
      refine ⟨fun c hc => .inl ?_, fun c hc => .inl ?_⟩
      · exact (hBehind c (hLater c hc).1).resolve_right (hNotFirst c hc)
      · exact (hNear c (hLater c hc).1).resolve_right (hNotFirst c hc)
    show Inv props (if answered.ended = true then answered else Player.play props answered)
    split
    · exact ⟨hWf, hGate⟩
    · exact Inv.play hWf rfl hGate fun hNot c hc =>
        hFirst hNot hNext c (hLater c hc).1 (hLater c hc).2

/-- A step that leaves no question behind: a time update passes one gate at most; a first play has
every pending checkpoint ahead; and a click on the transcript beyond the next gate, which is taken
back, finds the video paused or the high-water mark not beyond the gate. -/
def Clear (props : Props) (s : State) : Event → Prop
  | .togglePlay => s.hasPlayed = false → s.activeId = none → Ahead props s s.currentTime
  | .timeUpdate step => OneGate props s (s.currentTime + step)
  | .seeked => s.hasPlayed = true → OneGate props s s.currentTime
  | .handleSeekChange value => s.hasPlayed = true →
      (∀ gate, nextGate props s = some gate →
        value ≤ gate.startSeconds + FORWARD_SEEK_SLACK_S) → OneGate props s value
  | .seekTo seconds => s.activeId = none →
      ((∀ gate, nextGate props s = some gate →
          seconds ≤ gate.startSeconds + FORWARD_SEEK_SLACK_S) →
        if s.hasPlayed = true then OneGate props s seconds else Ahead props s seconds) ∧
      ∀ gate, nextGate props s = some gate →
        gate.startSeconds + FORWARD_SEEK_SLACK_S < seconds →
          (s.paused = true ∧ s.isInitialLoad = false) ∨
            s.maxWatched - FORWARD_SEEK_SLACK_S ≤ gate.startSeconds
  | .ended => OneGate props s s.currentTime
  | .answer => s.hasPlayed = false → ∀ a, activeInteraction props s = some a →
      nextInCheckpoint props a s = none →
        ∀ c ∈ pendingCheckpoints props s, a.startSeconds < c.startSeconds →
          s.currentTime < c.startSeconds
  | .submit => True

/-- The seconds that a step lets the video play. -/
def Event.step : Event → ℚ
  | .timeUpdate step => step
  | _ => 0

/-- The condition on the steps until the attempt is submitted, with time updates of `δ` seconds at
most. -/
def Guards (props : Props) (δ : ℚ) (s : State) (e : Event) : Prop :=
  e.step ≤ δ ∧ (s.submitted = false → Clear props s e)

instance (props : Props) (s : State) (t : ℚ) : Decidable (Ahead props s t) :=
  inferInstanceAs (Decidable (∀ c ∈ pendingCheckpoints props s, t < c.startSeconds))

instance (props : Props) (s : State) (t : ℚ) : Decidable (OneGate props s t) :=
  inferInstanceAs (Decidable (s.activeId = none → 1 / 2 ≤ t → ∀ c ∈ pendingCheckpoints props s,
    s.prevTime < c.startSeconds → ∀ d ∈ pendingCheckpoints props s,
      c.startSeconds < d.startSeconds → t < d.startSeconds))

instance (props : Props) (s : State) : (e : Event) → Decidable (Clear props s e)
  | .togglePlay => inferInstanceAs (Decidable (s.hasPlayed = false → s.activeId = none →
      Ahead props s s.currentTime))
  | .timeUpdate step => inferInstanceAs (Decidable (OneGate props s (s.currentTime + step)))
  | .seeked => inferInstanceAs (Decidable (s.hasPlayed = true → OneGate props s s.currentTime))
  | .handleSeekChange value => inferInstanceAs (Decidable (s.hasPlayed = true →
      (∀ gate ∈ nextGate props s, value ≤ gate.startSeconds + FORWARD_SEEK_SLACK_S) →
        OneGate props s value))
  | .seekTo seconds => inferInstanceAs (Decidable (s.activeId = none →
      ((∀ gate ∈ nextGate props s, seconds ≤ gate.startSeconds + FORWARD_SEEK_SLACK_S) →
        if s.hasPlayed = true then OneGate props s seconds else Ahead props s seconds) ∧
      ∀ gate ∈ nextGate props s, gate.startSeconds + FORWARD_SEEK_SLACK_S < seconds →
        (s.paused = true ∧ s.isInitialLoad = false) ∨
          s.maxWatched - FORWARD_SEEK_SLACK_S ≤ gate.startSeconds))
  | .ended => inferInstanceAs (Decidable (OneGate props s s.currentTime))
  | .answer => inferInstanceAs (Decidable (s.hasPlayed = false →
      ∀ a ∈ activeInteraction props s, nextInCheckpoint props a s = none →
        ∀ c ∈ pendingCheckpoints props s, a.startSeconds < c.startSeconds →
          s.currentTime < c.startSeconds))
  | .submit => inferInstanceAs (Decidable True)

instance (props : Props) (δ : ℚ) (s : State) (e : Event) : Decidable (Guards props δ s e) :=
  inferInstanceAs (Decidable (e.step ≤ δ ∧ (s.submitted = false → Clear props s e)))

/-- A step of the player keeps the invariant, while the attempt is not submitted. -/
theorem player_inv {s t : State} {e : Event} (hClear : Clear props s e)
    (h : (player props).step s e = some t) (hInv : Inv props s) (hSubmitted : s.submitted = false) :
    t.submitted = true ∨ Inv props t := by
  cases e with
  | togglePlay =>
    cases h
    exact .inr (hInv.togglePlay hSubmitted hClear)
  | timeUpdate step =>
    simp only [player, Option.ite_none_left_eq_some, Option.some.injEq] at h
    obtain ⟨hPlaying, rfl⟩ := h
    exact .inr (hInv.timeUpdate hSubmitted ((Bool.not_eq_true _).mp hPlaying) hClear)
  | seeked =>
    cases h
    exact .inr (hInv.seeked hSubmitted hClear)
  | handleSeekChange value =>
    cases h
    exact .inr (hInv.handleSeekChange hSubmitted hClear)
  | seekTo seconds =>
    cases h
    exact .inr (hInv.seekTo hSubmitted (fun hIdle => (hClear hIdle).1) fun hIdle =>
      (hClear hIdle).2)
  | ended =>
    simp only [player, Option.ite_none_left_eq_some, Option.some.injEq] at h
    obtain ⟨hPlaying, rfl⟩ := h
    exact .inr (hInv.onEnded hSubmitted ((Bool.not_eq_true _).mp hPlaying) hClear)
  | answer =>
    simp only [player, Option.ite_none_left_eq_some, Option.map_eq_some_iff] at h
    obtain ⟨-, a, ha, rfl⟩ := h
    exact .inr (hInv.handleContinue ha fun hNot hNext => hClear hNot a ha hNext)
  | submit =>
    cases h
    exact .inl rfl

section Submitted

@[simp] theorem reviewGuard_submitted (s : State) : (reviewGuard s).submitted = s.submitted :=
  (sameRun_reviewGuard s).submitted

@[simp] theorem setActiveId_submitted (id : UUID) (s : State) :
    (setActiveId id s).submitted = s.submitted := reviewGuard_submitted _

@[simp] theorem guardSeek_submitted (s : State) :
    (guardSeek props s).submitted = s.submitted := (sameRun_guardSeek s).submitted

@[simp] theorem handleTimeUpdate_submitted (t : ℚ) (s : State) :
    (handleTimeUpdate props t s).submitted = s.submitted := by
  cases hSubmitted : s.submitted with
  | false => exact (handleTimeUpdate_same _ _ hSubmitted).1.submitted.trans hSubmitted
  | true =>
    obtain ⟨watched, high, hRecord, -⟩ := recordWatched_eq t s
    simp [handleTimeUpdate, hRecord, hSubmitted]

@[simp] theorem onPlay_submitted (s : State) : (onPlay props s).submitted = s.submitted := by
  unfold onPlay
  split
  · rfl
  · split
    · exact reviewGuard_submitted s
    · exact reviewGuard_submitted _

@[simp] theorem play_submitted (s : State) : (play props s).submitted = s.submitted := by
  cases hPaused : s.paused with
  | false => simp [play, hPaused]
  | true => exact (congrArg State.submitted (if_pos hPaused)).trans (onPlay_submitted _)

@[simp] theorem seeked_submitted (s : State) : (seeked props s).submitted = s.submitted := by
  simp [seeked]

/-- What is submitted stays so. -/
theorem player_submitted {s t : State} {e : Event} (h : (player props).step s e = some t)
    (hSubmitted : s.submitted = true) : t.submitted = true := by
  cases e with
  | togglePlay =>
    cases h
    unfold togglePlay
    split <;> simp [hSubmitted]
  | timeUpdate step =>
    simp only [player, Option.ite_none_left_eq_some, Option.some.injEq] at h
    obtain ⟨-, rfl⟩ := h
    simp [timeUpdate, hSubmitted]
  | seeked =>
    cases h
    simp [hSubmitted]
  | handleSeekChange value =>
    cases h
    simp [handleSeekChange, hSubmitted]
  | seekTo seconds =>
    cases h
    simp [seekTo, seek, hSubmitted]
  | ended =>
    simp only [player, Option.ite_none_left_eq_some, Option.some.injEq] at h
    obtain ⟨-, rfl⟩ := h
    simp [onEnded, handleEnded, hSubmitted]
  | answer => simp [player, hSubmitted] at h
  | submit =>
    cases h
    rfl

end Submitted

theorem mount_inv : Inv props (mount props) := by
  have hUnloaded : Inv props (unloaded props) := ⟨⟨nofun, fun _ => rfl, nofun⟩, nofun⟩
  simp only [mount]
  split
  · exact hUnloaded
  · split
    · next missed hFind =>
      rw [setActiveId_of_paused _ rfl]
      exact ⟨⟨fun id hId => ⟨missed, (find_pendingCheckpoints hFind).1, Option.some.inj hId⟩,
        fun _ => rfl, nofun⟩, nofun⟩
    · exact hUnloaded

variable (props) in
/-- In every run whose steps leave no question behind, the position stays at the timed interactions
that are not answered. -/
theorem gated_of_clear {δ : ℚ} (hδ : 0 ≤ δ) {es : List Event} {s : State}
    (h : (player props).Runs (Guards props δ) (mount props) es s) : Gated props δ s := by
  have hInv : s.submitted = true ∨ Inv props s := by
    refine Machine.Runs.invariant (I := fun s => s.submitted = true ∨ Inv props s) ?_ h
      (.inr mount_inv)
    rintro s e t ⟨-, hClear⟩ hStep (hSubmitted | hInv)
    · exact .inl (player_submitted hStep hSubmitted)
    · cases hSubmitted : s.submitted with
      | true => exact .inl (player_submitted hStep hSubmitted)
      | false => exact player_inv (hClear hSubmitted) hStep hInv hSubmitted
  intro hPlayed _ hIdle hSubmitted c hc hPos hPassed
  rcases hInv with hTrue | hInv
  · rw [hSubmitted] at hTrue
    cases hTrue
  · have hNear := (hInv.gate hPlayed).2 c (mem_pendingCheckpoints.mpr ⟨hc, hPos, hPassed⟩)
    have hWithin := hNear.resolve_right fun hSurfaced => by
      simp [Surfaced, hIdle] at hSurfaced
    linarith

end Gate

/-- A lesson with one question, ten seconds into the video. -/
def lesson : Props where
  interactions := [⟨1, 10⟩]
  nodup := by decide
  initialPosition := 0
  isPreview := false
  duration := 600

/-- The lesson is played up to its question, which is answered, and played on. -/
def throughQuestion : List Event :=
  .togglePlay :: List.replicate 39 (.timeUpdate (1 / 4)) ++
    .answer :: List.replicate 9 (.timeUpdate (1 / 4))

theorem gated_of_clear_lesson : ∃ s,
    (player lesson).run (mount lesson) throughQuestion = some s ∧
      s.passedIds = [1] ∧ s.currentTime = 12 ∧ s.paused = false ∧ Gated lesson (1 / 4) s := by
  have hAny : (((player lesson).restrict (Guards lesson (1 / 4))).run (mount lesson)
      throughQuestion).any (fun s => decide (s.passedIds = [1] ∧ s.currentTime = 12 ∧
        s.paused = false)) = true := by
    decide +kernel
  obtain ⟨s, hRun, hEnd⟩ := (Option.any_eq_true _ _).mp hAny
  have hRuns := Machine.Runs.of_restrict hRun
  obtain ⟨hPassed, hTime, hPlaying⟩ := of_decide_eq_true hEnd
  exact ⟨s, hRuns.run, hPassed, hTime, hPlaying,
    gated_of_clear lesson (show (0 : ℚ) ≤ 1 / 4 by norm_num) hRuns⟩

/-- Before the first play, a click on the section of the transcript that begins at the question
starts the video there, and it plays on without the question. -/
theorem question_skipped : ∃ s,
    (player lesson).run (mount lesson) (.seekTo 10 :: List.replicate 8 (.timeUpdate (1 / 4))) =
      some s ∧ s.currentTime = 12 ∧ s.passedIds = [] ∧ ¬ Gated lesson (1 / 4) s := by
  refine ⟨⟨12, false, false, true, 12, false, 2, 12, [], none, false⟩, by decide +kernel, rfl, rfl,
    fun h => ?_⟩
  have hNear := h rfl rfl rfl rfl ⟨1, 10⟩ (List.mem_singleton_self _) (by norm_num) nofun
  revert hNear
  decide +kernel

end Richter.Player
