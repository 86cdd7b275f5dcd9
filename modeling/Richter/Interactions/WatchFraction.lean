import Mathlib.Data.Finset.Card
import Mathlib.Data.Finset.Range
import Richter.Interactions.Session

/-! The watch fraction of a submission against the reports of the student.  The watched seconds are
kept by student and lesson, and nothing clears them when the lesson's video is replaced. -/

namespace Richter.Interactions

open Lib

/-- The student has reported a part of the second since the lesson's video was set. -/
def Reported (x : Session) (userID lessonID : UUID) (i : Nat) : Prop :=
  ∃ r ∈ x.reports, r.userId = userID ∧ r.lessonId = lessonID ∧ Kv.Reports r.fromSec r.toSec i

/-- The fraction that the last submission has computed is that of a set of seconds each of which
the student has reported since the lesson's video was set. -/
def CountsReported (x : Session) : Prop :=
  ∀ userID lessonID durationSeconds f,
    (userID, lessonID, durationSeconds, f) ∈ x.last.fractions → 0 < durationSeconds →
    ∃ seconds : Finset Nat, f = (seconds.card : ℚ) / durationSeconds ∧
      ∀ i ∈ seconds, i < durationSeconds ∧ Reported x userID lessonID i

/-- Whether no student has watched seconds of a lesson whose video is set. -/
def setsUnwatched (x : Session) : Action → Bool
  | .updateLessonVideo _ _ _ lessonID _ _ =>
      x.site.coverage.rows.all fun c => c.lessonId ≠ lessonID || c.watched.bitmap.count = 0
  | _ => true

/-- The watched seconds are reported ones. -/
def CoverageReported (x : Session) : Prop :=
  ∀ userID lessonID i, (x.site.watched userID lessonID).bitmap.bit i = true →
    Reported x userID lessonID i

theorem Reported.mono {x x' : Session} {userID lessonID : UUID} {i : Nat}
    (hSub : x.reports ⊆ x'.reports) (h : Reported x userID lessonID i) :
    Reported x' userID lessonID i := by
  obtain ⟨r, hr, hRest⟩ := h
  exact ⟨r, hSub hr, hRest⟩

theorem CoverageReported.mono {x x' : Session} (hCoverage : x'.site.coverage = x.site.coverage)
    (hSub : x.reports ⊆ x'.reports) (h : CoverageReported x) : CoverageReported x' := by
  intro userID lessonID i hBit
  rw [Site.watched, hCoverage, ← Site.watched] at hBit
  exact (h userID lessonID i hBit).mono hSub

section Step

variable {s : InteractionsSvc} {cfg : AIConfig} {x x' : Session}

theorem cacheGrade_coverage {x : Site} {kvFails : Bool} {userID lessonID : UUID}
    {target : SingleGradeTarget} {result : Grade} :
    (x.cacheGrade s kvFails userID lessonID target result).coverage = x.coverage := by
  unfold Site.cacheGrade
  dsimp only
  split <;> rfl

theorem watched_upsert {x : Site} {userID lessonID userID' lessonID' : UUID}
    {watched : Kv.WatchCoverage} :
    (((x.coverage.upsert ⟨userID, lessonID, watched⟩ (.set watched) (Coverage.set_key watched)).find
      (userID', lessonID')).map (·.watched)).getD {} =
        if (userID', lessonID') = (userID, lessonID) then watched
        else x.watched userID' lessonID' := by
  rw [Table.find_upsert,
    show Coverage.key ⟨userID, lessonID, watched⟩ = (userID, lessonID) from rfl]
  split
  · cases x.coverage.find (userID', lessonID') <;> rfl
  · rfl

/-- A report only adds reported seconds. -/
theorem addWatchCoverage_reported {x : Site} {userID userID' lessonID' : UUID}
    {req : UpdateWatchProgressRequest} {durationSec nowUnixMs : Int} {i : Nat}
    (hBit : ((x.addWatchCoverage cfg userID req durationSec nowUnixMs).watched userID'
      lessonID').bitmap.bit i = true) :
    (x.watched userID' lessonID').bitmap.bit i = true ∨ (userID' = userID ∧
      lessonID' = req.lessonId ∧ Kv.Reports req.watchedFromSeconds req.watchedToSeconds i) := by
  unfold Site.addWatchCoverage at hBit
  split at hBit
  · exact .inl hBit
  · next watched hAdd =>
    rw [Site.watched, watched_upsert] at hBit
    split at hBit
    · next hKey =>
      obtain ⟨rfl, rfl⟩ := Prod.mk.inj hKey
      rcases Kv.of_bit_addWatchCoverage hAdd hBit with hOld | hNew
      · exact .inl hOld
      · exact .inr ⟨rfl, rfl, hNew⟩
    · exact .inl hBit

/-- What a step does to the watched seconds and the reports. -/
theorem watch_cases {a : Action} (h : (session s cfg).step x a = some x') :
    (x'.site.coverage = x.site.coverage ∧ x'.reports = x.reports) ∨
    (∃ (userID : UUID) (req : UpdateWatchProgressRequest), (∀ userID' lessonID' i,
        (x'.site.watched userID' lessonID').bitmap.bit i = true →
          (x.site.watched userID' lessonID').bitmap.bit i = true ∨ (userID' = userID ∧
            lessonID' = req.lessonId ∧
            Kv.Reports req.watchedFromSeconds req.watchedToSeconds i)) ∧
      x'.reports = x.reports ++
        [⟨userID, req.lessonId, req.watchedFromSeconds, req.watchedToSeconds⟩]) ∨
    (∃ env commitFailure access lessonID videoStorageKey durationSeconds,
      a = .updateLessonVideo env commitFailure access lessonID videoStorageKey durationSeconds ∧
      x'.site.coverage = x.site.coverage ∧
      x'.reports = x.reports.filter fun r => r.lessonId ≠ lessonID) := by
  cases called_of_step h with
  | submitted hTrace hReports => exact .inl ⟨(trace_kept hTrace).coverage, hReports⟩
  | kept hSite hReports => exact .inl ⟨by rw [hSite], hReports⟩
  | previewed _ _ hSite hReports =>
    exact .inl ⟨by rw [hSite, cacheGrade_coverage], hReports⟩
  | saved _ hSite hReports =>
    exact .inl ⟨by rw [hSite, cacheGrade_coverage], hReports⟩
  | updated hCall hReports =>
    obtain ⟨_, _, _, -, hSite, -⟩ := Site.updateInteraction_cases hCall
    exact .inl ⟨by rw [hSite], hReports⟩
  | created hCall hReports =>
    obtain ⟨-, _, _, -, hSite, -⟩ := Site.createManualInteraction_cases hCall
    exact .inl ⟨by rw [hSite], hReports⟩
  | @reported _ _ userID req _ _ hSite hReports =>
    refine .inr (.inl ⟨userID, req, fun userID' lessonID' i hBit => ?_, hReports⟩)
    rcases hSite with hSite | ⟨durationSec, hSite⟩
    · rw [hSite] at hBit
      exact .inl hBit
    · rw [hSite] at hBit
      exact addWatchCoverage_reported hBit
  | videoSet hSite _ hReports =>
    exact .inr (.inr ⟨_, _, _, _, _, _, rfl, by rw [hSite], hReports⟩)
  | deleted hSite _ hReports => exact .inl ⟨by rw [hSite], hReports⟩

theorem step_coverageReported {a : Action} (hGuard : setsUnwatched x a = true)
    (h : (session s cfg).step x a = some x') (hI : CoverageReported x) : CoverageReported x' := by
  rcases watch_cases h with ⟨hCoverage, hReports⟩ | ⟨userID, req, hBits, hReports⟩ |
    ⟨_, _, _, lessonID, _, _, rfl, hCoverage, hReports⟩
  · exact hI.mono hCoverage (by rw [hReports]; exact List.Subset.refl _)
  · intro userID' lessonID' i hBit
    rw [Reported, hReports]
    rcases hBits userID' lessonID' i hBit with hOld | ⟨rfl, rfl, hNew⟩
    · obtain ⟨r, hr, hRest⟩ := hI userID' lessonID' i hOld
      exact ⟨r, List.mem_append_left _ hr, hRest⟩
    · exact ⟨_, List.mem_append_right _ (List.mem_singleton.mpr rfl), rfl, rfl, hNew⟩
  · intro userID' lessonID' i hBit
    rw [Site.watched, hCoverage, ← Site.watched] at hBit
    obtain ⟨r, hr, hUser, hLesson, hReport⟩ := hI userID' lessonID' i hBit
    refine ⟨r, ?_, hUser, hLesson, hReport⟩
    rw [hReports, List.mem_filter, decide_eq_true_eq]
    refine ⟨hr, fun hSame => ?_⟩
    -- No student has watched seconds of the lesson whose video is set.
    cases hFind : x.site.coverage.find (userID', lessonID') with
    | none =>
      rw [Site.watched, hFind] at hBit
      cases hBit.symm.trans (Bitmap.bit_nil i)
    | some c =>
      obtain ⟨hMem, hKey⟩ := Table.find_eq_some_iff.mp hFind
      have hLessonId : c.lessonId = lessonID := (Prod.mk.inj hKey).2.trans (hLesson ▸ hSame)
      have hNone := List.all_eq_true.mp hGuard c hMem
      simp only [hLessonId, ne_eq, not_true_eq_false, decide_false, Bool.false_or,
        decide_eq_true_eq] at hNone
      rw [Site.watched, hFind] at hBit
      cases hBit.symm.trans (Bitmap.bit_of_count_eq_zero (by decide) hNone i)

theorem card_filter_range (p : Nat → Bool) (n : Nat) :
    ((Finset.range n).filter fun i => p i = true).card = (List.range n).countP p := by
  show Multiset.card (Multiset.filter (fun i => p i = true) (List.range n : Multiset Nat)) = _
  rw [Multiset.filter_coe, Multiset.coe_card, List.countP_eq_length_filter]
  simp only [Bool.decide_eq_true]

/-- A submission's fraction is that of the watched seconds before it. -/
theorem step_countsReported {a : Action} (h : (session s cfg).step x a = some x')
    (hI : CoverageReported x') : CountsReported x' := by
  by_cases ha : ∃ deps envs caller req, a = .submitAttempt deps envs caller req
  · obtain ⟨deps, envs, caller, req, rfl⟩ := ha
    obtain ⟨hTrace, -⟩ := step_submitAttempt h
    intro userID lessonID durationSeconds f hMem hPos
    have hFraction := trace_fraction hTrace (has_of_mem_fractions hMem)
    rw [Site.watched, ← (trace_kept hTrace).coverage, ← Site.watched,
      Kv.watchCoverageFraction_eq (by exact_mod_cast hPos)] at hFraction
    refine ⟨(Finset.range durationSeconds).filter fun i =>
      (x'.site.watched userID lessonID).bitmap.bit i = true, ?_, fun i hi => ?_⟩
    · rw [hFraction, card_filter_range, Int.toNat_natCast, Int.cast_natCast]
    · rw [Finset.mem_filter, Finset.mem_range] at hi
      exact ⟨hi.1, hI userID lessonID i hi.2⟩
  · have hLast : x'.last = [] := last_of_step h fun deps envs caller req hEq =>
      ha ⟨deps, envs, caller, req, hEq⟩
    rw [CountsReported, hLast]
    intro _ _ _ _ hMem
    cases hMem

end Step

/-- From stores without watched seconds, in every run in which no student has watched seconds of a
lesson whose video is set, the watch fraction of a submission counts seconds that the student has
reported since then. -/
theorem watch_fraction_counts_reported {s : InteractionsSvc} {cfg : AIConfig} {site : Site}
    {steps : List Action} {x : Session} (hCoverage : site.coverage.rows = [])
    (hRun : (session s cfg).Runs (fun x a => setsUnwatched x a = true) (.start site) steps x) :
    CountsReported x := by
  have hStart : CoverageReported (.start site) ∧ CountsReported (.start site) := by
    refine ⟨fun userID lessonID i hBit => ?_, nofun⟩
    have hNone : site.coverage.find (userID, lessonID) = none := by
      rw [Table.find_eq_none_iff, hCoverage]
      exact nofun
    rw [Site.watched, show (Session.start site).site = site from rfl, hNone] at hBit
    cases hBit.symm.trans (Bitmap.bit_nil i)
  refine (hRun.invariant (I := fun x => CoverageReported x ∧ CountsReported x) ?_ hStart).2
  rintro x a x' hGuard h ⟨hI, -⟩
  have hI' := step_coverageReported hGuard h hI
  exact ⟨hI', step_countsReported h hI'⟩

/-- A lesson with a question, and with a video of four seconds or without one. -/
def watchedLesson (video : Option String) : Site where
  db :=
    { lessons := .ofList [⟨1, 0, video.map fun _ => 4⟩]
      lessonInteractions := .ofList [⟨10, 1, "mcq", 0⟩]
      lessonAttempts := .empty
      lessonAttemptResponses := .empty }
  videoStorageKey := fun _ => video
  feedbackMode := fun _ => "after_submit"
  config := fun _ => .singleChoice ["yes", "no"] 0
  tempGrades := .empty
  coverage := .empty
  background := []

/-- A service with a FoundationDB store. -/
def cachingSvc : InteractionsSvc := ⟨true, false, 500, .float32⟩

def watchCfg : AIConfig := ⟨1, 30⟩

/-- The student reports the seconds before `toSec`. -/
def reportWatched (toSec : ℚ) : Action := .updateWatchProgress {} none (.ok 100) ⟨1, 0, toSec⟩ 0

def setVideo (videoStorageKey : String) : Action :=
  .updateLessonVideo {} none (.ok ()) 1 videoStorageKey 4

/-- The student answers a question for the first time.  The events are the two reads of the lesson,
those of the cached grade and of the previous attempt, the grade, the watch fraction, the
transaction and a deletion. -/
def answerQuestion (interactionID : UUID) : Action :=
  .submitAttempt .resolved (List.replicate 8 {}) (.ok 100)
    ⟨1, [⟨interactionID, 0, 0, .mcqSelected 0⟩], -1⟩

theorem watch_fraction_counts_reported_halfWatched : ∃ x,
    (session cachingSvc watchCfg).run (.start (watchedLesson none))
      [setVideo "new.mp4", reportWatched 2, answerQuestion 10] = some x ∧ CountsReported x := by
  have hSome : (((session cachingSvc watchCfg).restrict fun x a => setsUnwatched x a = true).run
      (.start (watchedLesson none))
      [setVideo "new.mp4", reportWatched 2, answerQuestion 10]).isSome = true := by decide +kernel
  obtain ⟨x, hx⟩ := Option.isSome_iff_exists.mp hSome
  have hRun := Machine.Runs.of_restrict hx
  exact ⟨x, hRun.run, watch_fraction_counts_reported rfl hRun⟩

theorem not_countsReported {x : Session} {userID lessonID : UUID} {durationSeconds : Nat} {f : ℚ}
    (hMem : (userID, lessonID, durationSeconds, f) ∈ x.last.fractions) (hPos : 0 < durationSeconds)
    (hf : f ≠ 0) (hReports : x.reports = []) : ¬ CountsReported x := by
  intro hCounts
  obtain ⟨seconds, rfl, hReported⟩ := hCounts userID lessonID durationSeconds f hMem hPos
  have hEmpty : seconds = ∅ := by
    refine Finset.eq_empty_of_forall_notMem fun i hi => ?_
    obtain ⟨-, r, hr, -⟩ := hReported i hi
    rw [hReports] at hr
    cases hr
  rw [hEmpty] at hf
  simp at hf

/-- The seconds of a replaced video count toward the new one, for which the teacher has made a new
question; so do those that were reported before the lesson had a video. -/
theorem replaced_video_counts :
    (∃ x, (session cachingSvc watchCfg).run (.start (watchedLesson (some "old.mp4")))
      [reportWatched 2, setVideo "new.mp4", .createManualInteraction { newID := 11 } none (.ok ()) 1
        (.mcq ⟨"", ["yes", "no"], 0, []⟩), answerQuestion 11] = some x ∧ ¬ CountsReported x) ∧
    ∃ x, (session cachingSvc watchCfg).run (.start (watchedLesson none))
      [reportWatched 2, setVideo "new.mp4", answerQuestion 10] = some x ∧ ¬ CountsReported x := by
  have hCounted : ∀ {start : Site} {steps : List Action},
      ((session cachingSvc watchCfg).run (.start start) steps).any (fun x =>
        (100, 1, 4, (1 / 2 : ℚ)) ∈ x.last.fractions && x.reports = []) = true →
      ∃ x, (session cachingSvc watchCfg).run (.start start) steps = some x ∧
        ¬ CountsReported x := by
    intro start steps hAny
    obtain ⟨x, hRun, hx⟩ := (Option.any_eq_true _ _).mp hAny
    simp only [Bool.and_eq_true, decide_eq_true_eq] at hx
    exact ⟨x, hRun, not_countsReported hx.1 (by decide) (by norm_num) hx.2⟩
  exact ⟨hCounted (by decide +kernel), hCounted (by decide +kernel)⟩

end Richter.Interactions
