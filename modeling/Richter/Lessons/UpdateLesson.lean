import Richter.Lib.ReadThenWrite

/-! Changes of the settings of a lesson (`UpdateLesson` of `internal/svc/lessons/lesson_crud.go`).
The request may leave out three of the settings.  The handler fills them in from the row that it has
read at its beginning, and its statement writes all columns. -/

namespace Richter.Lessons

open Lib

/-- The columns of `lessons` that `UpdateLesson` reads and writes. -/
structure LessonSettings where
  title : String
  description : Option String
  orderIndex : Int
  language : String
  maxAttempts : Int
  audioLanguage : String
  deriving DecidableEq

structure UpdateLessonRequest where
  title : String
  description : String
  orderIndex : Int
  language : String
  maxAttempts : Option Int
  audioLanguage : String
  deriving DecidableEq

/-- `descToPgText`. -/
def descToPgText (desc : String) : Option String := if desc = "" then none else some desc

/-- The `UpdateLessonParams`: what the request omits is that of the row read before. -/
def updateLessonParams (req : UpdateLessonRequest) (existing : LessonSettings) :
    LessonSettings where
  title := req.title
  description := descToPgText req.description
  orderIndex := req.orderIndex
  language := if req.language = "" then existing.language else req.language
  maxAttempts := req.maxAttempts.getD existing.maxAttempts
  audioLanguage := if req.audioLanguage = "" then existing.audioLanguage else req.audioLanguage

/-- The statement `UpdateLesson`: it sets all of the columns. -/
def updateLesson (params _row : LessonSettings) : LessonSettings := params

/-- What comes between the read of the row and the statement. -/
inductive UpdateCheck
  | fetchModule
  | fetchCourse
  | requireOrgRole
  deriving DecidableEq

/-- The settings that the request omits. -/
structure Omitted where
  language : Option String
  maxAttempts : Option Int
  audioLanguage : Option String
  deriving DecidableEq

def omitted (req : UpdateLessonRequest) (row : LessonSettings) : Omitted where
  language := if req.language = "" then some row.language else none
  maxAttempts := if req.maxAttempts = none then some row.maxAttempts else none
  audioLanguage := if req.audioLanguage = "" then some row.audioLanguage else none

/-- The omitted settings are those of the row that was read. -/
theorem omitted_updateLesson (req : UpdateLessonRequest) (existing row : LessonSettings) :
    omitted req (updateLesson (updateLessonParams req existing) row) = omitted req existing := by
  unfold omitted updateLesson updateLessonParams
  cases req.maxAttempts <;> by_cases hLanguage : req.language = "" <;>
    by_cases hAudio : req.audioLanguage = "" <;> simp [hLanguage, hAudio]

variable {ι : Type} [DecidableEq ι]

/-- `UpdateLesson` requests on one lesson: each fetches the lesson, its module and its course,
checks the role of its user and runs its statement. -/
def updateLessonRequests (req : ι → UpdateLessonRequest) :
    ReadThenWrite ι UpdateCheck LessonSettings Omitted where
  checks := [.fetchModule, .fetchCourse, .requireOrgRole]
  put i existing row := updateLesson (updateLessonParams (req i) existing) row
  kept i := omitted (req i)
  kept_put i := omitted_updateLesson (req i)

/-- Where no request changes a setting that another one omits which has read the row and not yet
written it, no request ever changes a setting that it omits.  After a step that does so, the run can
go on to one that does. -/
theorem updateLesson_keeps_omitted (req : ι → UpdateLessonRequest) (row : LessonSettings) :
    (∀ as s a t, (updateLessonRequests req).machine.Runs (updateLessonRequests req).Undisturbed
        (ReadThenWrite.initial row) as s →
      (updateLessonRequests req).machine.step s a = some t →
        omitted (req a.who) t.row = omitted (req a.who) s.row) ∧
    ∀ as s a t, (updateLessonRequests req).machine.Runs (updateLessonRequests req).Undisturbed
        (ReadThenWrite.initial row) as s →
      (updateLessonRequests req).machine.step s a = some t →
        ¬(updateLessonRequests req).Undisturbed s a →
          ∃ i bs u v, (updateLessonRequests req).machine.run t bs = some u ∧
            (updateLessonRequests req).machine.step u ⟨i, true⟩ = some v ∧
              omitted (req i) v.row ≠ omitted (req i) u.row := by
  refine ⟨fun as s a t hRun hStep => ?_, fun as s a t hRun hStep hDisturbed => ?_⟩
  · exact ((ReadThenWrite.fresh_of_undisturbed hRun).step hStep).1
  · exact ReadThenWrite.exists_lost (ReadThenWrite.fresh_of_undisturbed hRun) hStep hDisturbed

/-- The requests of a page on which the spoken language and then the number of attempts is set. -/
def settingsPage (setsAttempts : Bool) : UpdateLessonRequest :=
  if setsAttempts then ⟨"Cells", "", 0, "vi", some 3, ""⟩ else ⟨"Cells", "", 0, "vi", some 0, "en"⟩

def cells : LessonSettings := ⟨"Cells", none, 0, "vi", 0, "vi"⟩

/-- The request that sets the spoken language is over before the other one reads the row. -/
def inTurn : List (ReadThenWrite.Action Bool) :=
  List.replicate 5 ⟨false, true⟩ ++ List.replicate 4 ⟨true, true⟩

theorem updateLesson_keeps_omitted_inTurn : ∃ s t,
    (updateLessonRequests settingsPage).machine.Runs (updateLessonRequests settingsPage).Undisturbed
      (ReadThenWrite.initial cells) inTurn s ∧
    (updateLessonRequests settingsPage).machine.step s ⟨true, true⟩ = some t ∧
    s.row.audioLanguage = "en" ∧ s.row.maxAttempts = 0 ∧ t.row.maxAttempts = 3 ∧
    omitted (settingsPage true) t.row = omitted (settingsPage true) s.row := by
  have hRun : ((updateLessonRequests settingsPage).machine.restrict
      (updateLessonRequests settingsPage).Undisturbed).run (ReadThenWrite.initial cells) inTurn =
        some _ := rfl
  have hRuns := Machine.Runs.of_restrict hRun
  exact ⟨_, _, hRuns, rfl, rfl, rfl, rfl,
    (updateLesson_keeps_omitted settingsPage cells).1 inTurn _ ⟨true, true⟩ _ hRuns rfl⟩

/-- Both requests read the row, and the one that sets the spoken language writes first. -/
def interleaved : List (ReadThenWrite.Action Bool) :=
  [⟨false, true⟩, ⟨true, true⟩] ++ List.replicate 3 ⟨true, true⟩ ++ List.replicate 4 ⟨false, true⟩

/-- The request that sets the number of attempts takes the spoken language back. -/
theorem settingsPage_loses_audioLanguage : ∃ s t,
    (updateLessonRequests settingsPage).machine.run (ReadThenWrite.initial cells) interleaved =
      some s ∧
    (updateLessonRequests settingsPage).machine.step s ⟨true, true⟩ = some t ∧
    (settingsPage true).audioLanguage = "" ∧ s.row.audioLanguage = "en" ∧
      t.row.audioLanguage = "vi" :=
  ⟨_, _, rfl, rfl, rfl, rfl, rfl⟩

end Richter.Lessons
