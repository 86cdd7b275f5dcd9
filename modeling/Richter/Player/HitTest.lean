import Mathlib.Tactic.Linarith
import Richter.Player.StudentLessonView

/-! The hit-test of the player and its guard of seeks.  A timed interaction that is not answered is
ahead of the previous position of the hit-test, or it is at the first gate and a question is
open. -/

namespace Richter.Player

section HitTest

variable {props : Props} {s : State} {t : ℚ}

@[simp] theorem mem_pendingCheckpoints {c : LessonInteraction} :
    c ∈ pendingCheckpoints props s ↔
      c ∈ props.interactions ∧ 0 < c.startSeconds ∧ c.id ∉ s.passedIds := by
  simp [pendingCheckpoints]

variable (props s) in
theorem pairwise_pendingCheckpoints : (pendingCheckpoints props s).Pairwise fun a b =>
    a.startSeconds ≤ b.startSeconds := by
  have hTotal : Std.Total fun a b : LessonInteraction => a.startSeconds ≤ b.startSeconds :=
    ⟨fun a b => le_total _ _⟩
  have hTrans : IsTrans LessonInteraction fun a b => a.startSeconds ≤ b.startSeconds :=
    ⟨fun _ _ _ => le_trans⟩
  exact List.pairwise_insertionSort _ _

/-- The pending checkpoints at the first gate. -/
def First (props : Props) (s : State) (c : LessonInteraction) : Prop :=
  ∀ d ∈ pendingCheckpoints props s, c.startSeconds ≤ d.startSeconds

theorem nextGate_eq_some {gate : LessonInteraction} (h : nextGate props s = some gate) :
    gate ∈ pendingCheckpoints props s ∧ First props s gate := by
  obtain ⟨rest, hRest⟩ := List.head?_eq_some_iff.mp h
  refine ⟨hRest ▸ List.mem_cons_self, fun d hd => ?_⟩
  have hSorted := pairwise_pendingCheckpoints props s
  rw [hRest] at hSorted hd
  rcases List.mem_cons.mp hd with rfl | hd
  · exact le_refl _
  · exact List.rel_of_pairwise_cons hSorted hd

theorem exists_nextGate {c : LessonInteraction} (h : c ∈ pendingCheckpoints props s) :
    ∃ gate, nextGate props s = some gate := by
  unfold nextGate
  cases hList : pendingCheckpoints props s with
  | nil => rw [hList] at h; cases h
  | cons a rest => exact ⟨a, rfl⟩

/-- A question is open, and the interaction is at the first gate. -/
def Surfaced (props : Props) (s : State) (c : LessonInteraction) : Prop :=
  s.activeId.isSome = true ∧ First props s c

/-- What holds between the parts of the state.  The video is paused until the first play and while a
question is open, and the open question is not answered. -/
structure WellFormed (props : Props) (s : State) : Prop where
  active : ∀ id, s.activeId = some id → ∃ a ∈ pendingCheckpoints props s, a.id = id
  paused : s.hasPlayed = false ∨ s.activeId.isSome = true → s.paused = true
  loaded : s.hasPlayed = true → s.isInitialLoad = false

/-- The hit-test has every pending checkpoint before it. -/
def Behind (props : Props) (s : State) : Prop :=
  ∀ c ∈ pendingCheckpoints props s, s.prevTime < c.startSeconds ∨ Surfaced props s c

/-- The position is within the slack of every pending checkpoint. -/
def Near (props : Props) (s : State) : Prop :=
  ∀ c ∈ pendingCheckpoints props s,
    s.currentTime ≤ c.startSeconds + FORWARD_SEEK_SLACK_S ∨ Surfaced props s c

/-- A time update to `t` passes at most one gate. -/
def OneGate (props : Props) (s : State) (t : ℚ) : Prop :=
  s.activeId = none → 1 / 2 ≤ t → ∀ c ∈ pendingCheckpoints props s,
    s.prevTime < c.startSeconds → ∀ d ∈ pendingCheckpoints props s,
      c.startSeconds < d.startSeconds → t < d.startSeconds

/-- The position is beyond the gate, from where a seek is taken back. -/
def Beyond (s : State) (gate : LessonInteraction) : Prop :=
  gate.startSeconds + FORWARD_SEEK_SLACK_S < s.currentTime

/-- The gate that `guardSeek` surfaces finds the video paused, or pauses it. -/
def Pauses (props : Props) (s : State) : Prop :=
  ∀ gate, nextGate props s = some gate → Beyond s gate → s.isInitialLoad = false →
    s.activeId = none → s.paused = true ∨ s.maxWatched - FORWARD_SEEK_SLACK_S ≤ gate.startSeconds

/-- The guard of a review only pauses, and only while a question is open. -/
theorem reviewGuard_eq (s : State) : ∃ paused, reviewGuard s = { s with paused := paused } ∧
    (s.paused = true → paused = true) ∧ (s.activeId = none → paused = s.paused) := by
  unfold reviewGuard
  split
  · next h => exact ⟨true, rfl, fun _ => rfl, fun hNone => by simp [hNone] at h⟩
  · exact ⟨s.paused, rfl, id, fun _ => rfl⟩

theorem WellFormed.reviewGuard (h : WellFormed props s) : WellFormed props (reviewGuard s) := by
  obtain ⟨paused, hEq, hPaused, -⟩ := reviewGuard_eq s
  rw [hEq]
  exact ⟨h.active, fun hStill => hPaused (h.paused hStill), h.loaded⟩

theorem Behind.reviewGuard (h : Behind props s) : Behind props (reviewGuard s) := by
  obtain ⟨paused, hEq, -⟩ := reviewGuard_eq s
  rw [hEq]
  exact h

theorem Near.reviewGuard (h : Near props s) : Near props (reviewGuard s) := by
  obtain ⟨paused, hEq, -⟩ := reviewGuard_eq s
  rw [hEq]
  exact h

/-- What a time update comes to while no question is open: nothing is tested, nothing is hit, or the
first checkpoint that is hit becomes active. -/
inductive TimeUpdated (props : Props) (t : ℚ) (s : State) : State → Prop
  | ignored (watched high : ℚ) (initial : Bool) : (t ≤ s.prevTime → high = s.maxWatched) →
      (initial = true → s.isInitialLoad = true) → initial = true ∨ t < 1 / 2 →
      TimeUpdated props t s
        { s with watchedSeconds := watched, maxWatched := high, isInitialLoad := initial }
  | passed (watched high : ℚ) : (t ≤ s.prevTime → high = s.maxWatched) → 1 / 2 ≤ t →
      (∀ c ∈ pendingCheckpoints props s, s.prevTime < c.startSeconds →
        t + CHECKPOINT_EPSILON_SECONDS < c.startSeconds) →
      TimeUpdated props t s
        { s with
          watchedSeconds := watched, maxWatched := high, isInitialLoad := false, prevTime := t }
  | hit (watched high : ℚ) (c : LessonInteraction) : 1 / 2 ≤ t →
      c ∈ pendingCheckpoints props s → s.prevTime < c.startSeconds →
      c.startSeconds ≤ t + CHECKPOINT_EPSILON_SECONDS →
      (∀ d ∈ pendingCheckpoints props s, s.prevTime < d.startSeconds →
        d.startSeconds ≤ t + CHECKPOINT_EPSILON_SECONDS → c.startSeconds ≤ d.startSeconds) →
      TimeUpdated props t s
        { s with
          watchedSeconds := watched, maxWatched := high, isInitialLoad := false, prevTime := t
          activeId := some c.id, paused := true }

theorem recordWatched_eq (t : ℚ) (s : State) : ∃ watched high,
    recordWatched t s = { s with watchedSeconds := watched, maxWatched := high } ∧
      (t ≤ s.prevTime → high = s.maxWatched) := by
  unfold recordWatched
  split
  · next hForward => exact ⟨_, _, rfl, fun hBack => absurd hForward.2.2.2.1 (by linarith)⟩
  · exact ⟨_, _, rfl, fun _ => rfl⟩

theorem handleTimeUpdate_of_active {id : UUID} (h : s.activeId = some id) :
    handleTimeUpdate props t s = s := by
  simp [handleTimeUpdate, recordWatched, h]

theorem setActiveId_of_paused (id : UUID) (h : s.paused = true) :
    setActiveId id s = { s with activeId := some id } := by
  unfold setActiveId Player.reviewGuard
  split
  · simp [h]
  · rfl

/-- The checkpoint that a search finds is the first of those it looks for. -/
theorem find_pendingCheckpoints {p : LessonInteraction → Bool} {c : LessonInteraction}
    (h : (pendingCheckpoints props s).find? p = some c) :
    c ∈ pendingCheckpoints props s ∧ p c = true ∧
      ∀ d ∈ pendingCheckpoints props s, p d = true → c.startSeconds ≤ d.startSeconds := by
  obtain ⟨hc, before, rest, hList, hBefore⟩ := List.find?_eq_some_iff_append.mp h
  have hSorted := pairwise_pendingCheckpoints props s
  refine ⟨List.mem_of_find?_eq_some h, hc, fun d hd hp => ?_⟩
  rw [hList] at hSorted hd
  rcases List.mem_append.mp hd with hd | hd
  · simpa [hp] using hBefore d hd
  · rcases List.mem_cons.mp hd with rfl | hd
    · exact le_refl _
    · exact List.rel_of_pairwise_cons (List.pairwise_append.mp hSorted).2.1 hd

variable (props t) in
theorem handleTimeUpdate_cases (hSubmitted : s.submitted = false) (hActive : s.activeId = none) :
    TimeUpdated props t s (handleTimeUpdate props t s) := by
  obtain ⟨watched, high, hRecord, hHigh⟩ := recordWatched_eq t s
  have hIdle : ¬ (s.submitted = true ∨ s.activeId.isSome = true) := by
    simp [hSubmitted, hActive]
  simp only [handleTimeUpdate, hRecord, hIdle, if_false]
  obtain ⟨initial, hLeave, hInitial⟩ : ∃ initial, leaveInitialLoad props t
      { s with watchedSeconds := watched, maxWatched := high } =
        { s with watchedSeconds := watched, maxWatched := high, isInitialLoad := initial } ∧
      (initial = true → s.isInitialLoad = true) := by
    unfold leaveInitialLoad
    split
    · exact ⟨false, rfl, nofun⟩
    · exact ⟨s.isInitialLoad, rfl, id⟩
  rw [hLeave]
  split
  · next hStill => exact .ignored watched high initial hHigh hInitial (.inl hStill)
  · next hLoaded =>
    obtain rfl : initial = false := (Bool.not_eq_true _).mp hLoaded
    split
    · next hEarly => exact .ignored watched high false hHigh hInitial (.inr hEarly)
    · next hLate =>
      have hLate : 1 / 2 ≤ t := not_lt.mp hLate
      unfold hitTest
      split
      · next c hFind =>
        obtain ⟨hc, hp, hFirst⟩ := find_pendingCheckpoints hFind
        rw [decide_eq_true_eq] at hp
        rw [setActiveId_of_paused _ rfl]
        exact .hit watched high c hLate hc hp.1 hp.2 fun d hd hPrev hReached =>
          hFirst d hd (decide_eq_true ⟨hPrev, hReached⟩)
      · next hFind =>
        refine .passed watched high hHigh hLate fun c hc hPrev => ?_
        have hMissed := List.find?_eq_none.mp hFind c hc
        rw [decide_eq_true_eq, not_and, not_le] at hMissed
        exact hMissed hPrev

/-- What a time update, a seek guard and a review leave as it is. -/
structure SameRun (s s' : State) : Prop where
  hasPlayed : s'.hasPlayed = s.hasPlayed
  passedIds : s'.passedIds = s.passedIds
  submitted : s'.submitted = s.submitted

theorem SameRun.pendingCheckpoints {s' : State} (h : SameRun s s') :
    pendingCheckpoints props s' = pendingCheckpoints props s := by
  simp only [Player.pendingCheckpoints, h.passedIds]

theorem sameRun_reviewGuard (s : State) : SameRun s (reviewGuard s) := by
  obtain ⟨paused, hEq, -⟩ := reviewGuard_eq s
  rw [hEq]
  exact ⟨rfl, rfl, rfl⟩

variable (props t) in
theorem handleTimeUpdate_same (hSubmitted : s.submitted = false) :
    SameRun s (handleTimeUpdate props t s) ∧
      (handleTimeUpdate props t s).currentTime = s.currentTime := by
  cases hActive : s.activeId with
  | some id => exact ⟨by rw [handleTimeUpdate_of_active hActive]; exact ⟨rfl, rfl, rfl⟩,
      by rw [handleTimeUpdate_of_active hActive]⟩
  | none =>
    have hUpdated := handleTimeUpdate_cases props t hSubmitted hActive
    generalize handleTimeUpdate props t s = s' at hUpdated ⊢
    cases hUpdated <;> exact ⟨⟨rfl, rfl, rfl⟩, rfl⟩

theorem WellFormed.handleTimeUpdate (h : WellFormed props s) (hSubmitted : s.submitted = false)
    (t : ℚ) : WellFormed props (handleTimeUpdate props t s) := by
  cases hActive : s.activeId with
  | some id => exact (handleTimeUpdate_of_active hActive).symm ▸ h
  | none =>
    have hUpdated := handleTimeUpdate_cases props t hSubmitted hActive
    generalize Player.handleTimeUpdate props t s = s' at hUpdated ⊢
    cases hUpdated with
    | ignored watched high initial _ hInitial _ =>
      refine ⟨h.active, h.paused, fun hPlayed => ?_⟩
      rw [← Bool.not_eq_true]
      intro hStill
      have hLoaded := h.loaded hPlayed
      rw [hInitial hStill] at hLoaded
      cases hLoaded
    | passed watched high _ _ _ => exact ⟨h.active, h.paused, fun _ => rfl⟩
    | hit watched high c _ hc _ _ _ =>
      refine ⟨fun id hId => ⟨c, hc, Option.some.inj hId⟩, fun _ => rfl, fun _ => rfl⟩

theorem Behind.lt (h : Behind props s) (hActive : s.activeId = none) {c : LessonInteraction}
    (hc : c ∈ pendingCheckpoints props s) : s.prevTime < c.startSeconds := by
  rcases h c hc with hLt | hSurfaced
  · exact hLt
  · simp [Surfaced, hActive] at hSurfaced

/-- A time update that passes one gate at most leaves no checkpoint behind. -/
theorem Behind.handleTimeUpdate (h : Behind props s) (hSubmitted : s.submitted = false)
    (hOne : OneGate props s t) : Behind props (handleTimeUpdate props t s) ∧
      (WellFormed props s → s.hasPlayed = true → s.currentTime = t →
        (s.activeId.isSome = true → Near props s) → Near props (handleTimeUpdate props t s)) := by
  cases hActive : s.activeId with
  | some id =>
    rw [handleTimeUpdate_of_active hActive]
    exact ⟨h, fun _ _ _ hNear => hNear rfl⟩
  | none =>
    have hAll := fun c hc => h.lt hActive (c := c) hc
    have hUpdated := handleTimeUpdate_cases props t hSubmitted hActive
    generalize Player.handleTimeUpdate props t s = s' at hUpdated ⊢
    cases hUpdated with
    | ignored watched high initial _ hInitial hEarly =>
      refine ⟨fun c hc => .inl (hAll c hc), ?_⟩
      rintro hWf hPlayed rfl - c hc
      have hLoaded := hWf.loaded hPlayed
      have hPos : 0 < c.startSeconds := (mem_pendingCheckpoints.mp hc).2.1
      rcases hEarly with hStill | hEarly
      · rw [hInitial hStill] at hLoaded
        cases hLoaded
      · left
        show s.currentTime ≤ c.startSeconds + 1
        linarith
    | passed watched high _ hLate hMissed =>
      have hLt : ∀ c ∈ pendingCheckpoints props s, t < c.startSeconds := by
        intro c hc
        have := hMissed c hc (hAll c hc)
        simp only [CHECKPOINT_EPSILON_SECONDS] at this
        linarith
      refine ⟨fun c hc => .inl (hLt c hc), ?_⟩
      rintro - - rfl - c hc
      have := hLt c hc
      left
      show s.currentTime ≤ c.startSeconds + 1
      linarith
    | hit watched high c hLate hc hPrev hReached hFirst =>
      have hCases : ∀ d ∈ pendingCheckpoints props s, t < d.startSeconds ∨
          Surfaced props { s with
            watchedSeconds := watched, maxWatched := high, isInitialLoad := false, prevTime := t
            activeId := some c.id, paused := true } d := by
        intro d hd
        by_cases hLater : c.startSeconds < d.startSeconds
        · exact .inl (hOne hActive hLate c hc hPrev d hd hLater)
        · refine .inr ⟨rfl, fun e he => le_trans (not_lt.mp hLater) ?_⟩
          by_cases hE : e.startSeconds ≤ t + CHECKPOINT_EPSILON_SECONDS
          · exact hFirst e he (hAll e he) hE
          · exact le_trans hReached (le_of_lt (not_le.mp hE))
      refine ⟨hCases, ?_⟩
      rintro - - rfl - d hd
      refine (hCases d hd).imp_left fun hLt => ?_
      show s.currentTime ≤ d.startSeconds + 1
      linarith

/-- What the guard of seeks comes to: nothing, or the position goes back to the gate. -/
inductive Guarded (props : Props) (s : State) : State → Prop
  | kept : (∀ gate, nextGate props s = some gate → s.isInitialLoad = true ∨ ¬ Beyond s gate) →
      Guarded props s s
  | clamped (gate : LessonInteraction) (paused : Bool) : nextGate props s = some gate →
      s.isInitialLoad = false → Beyond s gate → (s.paused = true → paused = true) →
      (s.activeId = none → s.maxWatched - FORWARD_SEEK_SLACK_S ≤ gate.startSeconds →
        paused = true) →
      Guarded props s
        { s with
          currentTime := gate.startSeconds, prevTime := gate.startSeconds
          activeId := some (s.activeId.getD gate.id), paused := paused }

variable (props) in
theorem guardSeek_cases (s : State) : Guarded props s (guardSeek props s) := by
  unfold guardSeek
  split
  · next hNone => exact .kept fun gate hGate => by rw [hNone] at hGate; cases hGate
  · next gate hGate =>
    split
    · next hStill => exact .kept fun _ _ => .inl hStill
    · next hLoaded =>
      have hLoaded : s.isInitialLoad = false := (Bool.not_eq_true _).mp hLoaded
      split
      · next hBeyond =>
        cases hActive : s.activeId with
        | none =>
          obtain ⟨paused, hEq, hPaused, -⟩ := reviewGuard_eq { s with
            currentTime := gate.startSeconds, prevTime := gate.startSeconds
            activeId := some gate.id }
          have hClamped : Guarded props s { s with
              currentTime := gate.startSeconds, prevTime := gate.startSeconds
              activeId := some (s.activeId.getD gate.id), paused := paused } := by
            refine .clamped gate paused hGate hLoaded hBeyond hPaused fun _ hHigh => ?_
            have hPause := congrArg State.paused hEq
            rw [reviewGuard, if_pos ⟨rfl, hHigh⟩] at hPause
            exact hPause.symm
          rw [hActive] at hClamped
          simp only [if_true, setActiveId, hEq]
          exact hClamped
        | some id =>
          have hClamped := Guarded.clamped gate s.paused hGate hLoaded hBeyond (fun h => h)
            (by rw [hActive]; nofun)
          rw [hActive] at hClamped
          exact hClamped
      · next hNear =>
        refine .kept fun g hg => .inr ?_
        rw [hGate] at hg
        exact Option.some.inj hg ▸ hNear

theorem sameRun_guardSeek (s : State) : SameRun s (guardSeek props s) := by
  have hGuarded := guardSeek_cases props s
  generalize guardSeek props s = s' at hGuarded ⊢
  cases hGuarded <;> exact ⟨rfl, rfl, rfl⟩

theorem WellFormed.guardSeek (h : WellFormed props s) (hPauses : Pauses props s) :
    WellFormed props (guardSeek props s) := by
  have hGuarded := guardSeek_cases props s
  generalize Player.guardSeek props s = s' at hGuarded ⊢
  cases hGuarded with
  | kept => exact h
  | clamped gate paused hGate hLoaded hBeyond hPaused hHigh =>
    refine ⟨fun id hId => ?_, fun _ => ?_, h.loaded⟩
    · cases hActive : s.activeId with
      | none =>
        rw [hActive] at hId
        exact ⟨gate, (nextGate_eq_some hGate).1, Option.some.inj hId⟩
      | some active =>
        rw [hActive] at hId
        exact h.active id (hActive.trans hId)
    · cases hActive : s.activeId with
      | none => exact (hPauses gate hGate hBeyond hLoaded hActive).elim hPaused (hHigh hActive)
      | some active => exact hPaused (h.paused (.inr (by rw [hActive]; rfl)))

/-- A seek ends within the slack of every pending checkpoint, with all of them ahead of the
hit-test. -/
theorem gate_guardSeek (hLoaded : s.isInitialLoad = false)
    (hBehind : Behind props s ∨ ∃ gate, nextGate props s = some gate ∧ Beyond s gate) :
    Behind props (guardSeek props s) ∧ Near props (guardSeek props s) := by
  have hGuarded := guardSeek_cases props s
  generalize guardSeek props s = s' at hGuarded ⊢
  cases hGuarded with
  | kept hKept =>
    have hWithin : ∀ gate, nextGate props s = some gate → ¬ Beyond s gate := by
      intro gate hGate
      refine (hKept gate hGate).resolve_left ?_
      rw [hLoaded]
      nofun
    refine ⟨hBehind.resolve_right fun ⟨gate, hGate, hBeyond⟩ => hWithin gate hGate hBeyond, ?_⟩
    intro c hc
    obtain ⟨gate, hGate⟩ := exists_nextGate hc
    have hFirst := (nextGate_eq_some hGate).2 c hc
    have hNear := not_lt.mp (hWithin gate hGate)
    exact .inl (by linarith)
  | clamped gate paused hGate _ _ _ _ =>
    obtain ⟨-, hFirst⟩ := nextGate_eq_some hGate
    refine ⟨fun c hc => ?_, fun c hc => .inl ?_⟩
    · rcases lt_or_eq_of_le (hFirst c hc) with hLt | hEq
      · exact .inl hLt
      · exact .inr ⟨rfl, fun d hd => hEq ▸ hFirst d hd⟩
    · have := hFirst c hc
      show gate.startSeconds ≤ c.startSeconds + 1
      linarith

/-- What holds in every state of a run that leaves no checkpoint behind. -/
structure Inv (props : Props) (s : State) : Prop extends WellFormed props s where
  gate : s.hasPlayed = true → Behind props s ∧ Near props s

/-- The state of a seek that has been done, before its guard. -/
theorem seeked_wellFormed (h : WellFormed props s) (hSubmitted : s.submitted = false) :
    WellFormed props (reviewGuard (handleTimeUpdate props s.currentTime s)) ∧
      SameRun s (reviewGuard (handleTimeUpdate props s.currentTime s)) ∧
      (reviewGuard (handleTimeUpdate props s.currentTime s)).currentTime = s.currentTime := by
  obtain ⟨hSame, hTime⟩ := handleTimeUpdate_same props s.currentTime hSubmitted
  obtain ⟨paused, hEq, -⟩ := reviewGuard_eq (handleTimeUpdate props s.currentTime s)
  refine ⟨(h.handleTimeUpdate hSubmitted _).reviewGuard, ?_, ?_⟩
  · rw [hEq]
    exact ⟨hSame.hasPlayed, hSame.passedIds, hSame.submitted⟩
  · rw [hEq]
    exact hTime

/-- The events of a seek that has been done keep the invariant. -/
theorem Inv.seeked (h : Inv props s) (hSubmitted : s.submitted = false)
    (hOne : s.hasPlayed = true → OneGate props s s.currentTime) : Inv props (seeked props s) := by
  obtain ⟨hWf, hSame, hTime⟩ := seeked_wellFormed h.toWellFormed hSubmitted
  have hGate : s.hasPlayed = true →
      Behind props (reviewGuard (handleTimeUpdate props s.currentTime s)) ∧
        Near props (reviewGuard (handleTimeUpdate props s.currentTime s)) := by
    intro hPlayed
    obtain ⟨hBehind, hNear⟩ := h.gate hPlayed
    obtain ⟨hBehind, hNear'⟩ := hBehind.handleTimeUpdate hSubmitted (hOne hPlayed)
    exact ⟨hBehind.reviewGuard, (hNear' h.toWellFormed hPlayed rfl fun _ => hNear).reviewGuard⟩
  unfold Player.seeked
  generalize reviewGuard (handleTimeUpdate props s.currentTime s) = s' at *
  have hPauses : Pauses props s' := by
    intro gate hNext hBeyond hLoaded hActive
    by_cases hPlayed : s.hasPlayed = true
    · rcases (hGate hPlayed).2 gate (nextGate_eq_some hNext).1 with hNear | hSurfaced
      · exact absurd hBeyond (not_lt.mpr hNear)
      · simp [Surfaced, hActive] at hSurfaced
    · exact .inl (hWf.paused (.inl (hSame.hasPlayed.trans ((Bool.not_eq_true _).mp hPlayed))))
  refine ⟨hWf.guardSeek hPauses, fun hPlayed => ?_⟩
  rw [(sameRun_guardSeek s').hasPlayed] at hPlayed
  exact gate_guardSeek (hWf.loaded hPlayed) (.inl (hGate (hSame.hasPlayed ▸ hPlayed)).1)

/-- A first play beyond the gate, where the seek is taken back after it. -/
theorem seeked_firstPlay (h : WellFormed props s) (hSubmitted : s.submitted = false)
    (hAt : s.prevTime = s.currentTime) (hPlayed : s.hasPlayed = true) (hPauses : Pauses props s)
    (hBeyond : ∃ gate, nextGate props s = some gate ∧ Beyond s gate) :
    Inv props (seeked props s) := by
  obtain ⟨hWf, hSame, hTime⟩ := seeked_wellFormed h hSubmitted
  have hIdle : (reviewGuard (handleTimeUpdate props s.currentTime s)).activeId = none →
      s.activeId = none ∧
        (reviewGuard (handleTimeUpdate props s.currentTime s)).paused = s.paused ∧
        (reviewGuard (handleTimeUpdate props s.currentTime s)).maxWatched = s.maxWatched := by
    obtain ⟨paused, hEq, -, hNone⟩ := reviewGuard_eq (handleTimeUpdate props s.currentTime s)
    rw [hEq]
    intro hActive
    rw [hNone hActive]
    cases hOpen : s.activeId with
    | some id => simp [handleTimeUpdate_of_active hOpen, hOpen] at hActive
    | none =>
      have hUpdated := handleTimeUpdate_cases props s.currentTime hSubmitted hOpen
      generalize handleTimeUpdate props s.currentTime s = s' at hUpdated hActive ⊢
      cases hUpdated with
      | ignored watched high initial hHigh _ _ => exact ⟨rfl, rfl, hHigh hAt.ge⟩
      | passed watched high hHigh _ _ => exact ⟨rfl, rfl, hHigh hAt.ge⟩
      | hit watched high c _ _ _ _ _ => cases hActive
  unfold seeked
  generalize reviewGuard (handleTimeUpdate props s.currentTime s) = s' at *
  have hNextGate : nextGate props s' = nextGate props s := by
    rw [nextGate, nextGate, hSame.pendingCheckpoints]
  have hPauses' : Pauses props s' := by
    intro gate hNext hGate _ hActive
    obtain ⟨hOpen, hPaused, hHigh⟩ := hIdle hActive
    rw [hPaused, hHigh]
    exact hPauses gate (hNextGate ▸ hNext) (by rw [Beyond, ← hTime]; exact hGate)
      (h.loaded hPlayed) hOpen
  obtain ⟨gate, hNext, hGate⟩ := hBeyond
  refine ⟨hWf.guardSeek hPauses', fun _ => ?_⟩
  refine gate_guardSeek (hWf.loaded (hSame.hasPlayed.trans hPlayed)) (.inr ⟨gate, ?_, ?_⟩)
  · rw [hNextGate, hNext]
  · rw [Beyond, hTime]
    exact hGate

end HitTest

end Richter.Player
