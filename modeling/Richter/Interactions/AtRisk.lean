import Mathlib.Algebra.Order.Floor.Ring
import Mathlib.Data.Rat.Floor
import Richter.Interactions.Mapper
import Richter.Lib.Grouped
import Richter.Lib.LongestRun
import Richter.Lib.MapM
import Richter.Lib.Table
import Richter.Svc.Errors

/-! The students at risk: those with two or more lessons in a row of low engagement
(`buildAtRiskStudents`), and their pages (`ListAtRiskStudents`). -/

namespace Richter.Interactions

open Lib

/-- A row of `ListCourseAttemptEngagementInputs`, the columns that the handler reads.  The query
orders the rows by user, module and lesson. -/
structure EngagementRow where
  userID : UUID
  firstName : String
  middleName : Option String
  lastName : String
  email : String
  lessonID : UUID
  lessonTitle : String
  watchFraction : ℚ
  scoreFraction : ℚ
  deriving DecidableEq

structure AtRiskLessonPoint where
  lessonId : UUID
  lessonTitle : String
  engagementScore : Int
  deriving DecidableEq, Repr

structure AtRiskStudent where
  userId : UUID
  displayName : String
  email : String
  lowStreak : List AtRiskLessonPoint
  deriving DecidableEq, Repr

def engagementWarnThreshold : Int := 40

def atRiskMinStreak : Nat := 2

/-- `math.Round`, which rounds half away from zero. -/
def mathRound (x : ℚ) : Int := if 0 ≤ x then ⌊x + 1 / 2⌋ else ⌈x - 1 / 2⌉

/-- The `clamp` of `computeEngagementScore`. -/
def clampFraction (v : ℚ) : ℚ := if v < 0 then 0 else if 1 < v then 1 else v

def computeEngagementScore (watch scoreFrac : ℚ) : Int :=
  let raw := 1 / 2 * clampFraction watch + 1 / 2 * clampFraction scoreFrac
  mathRound (100 * raw)

def buildDisplayName (first : String) (middle : Option String) (last : String) : String :=
  " ".intercalate (first :: (middle.toList.filter fun m => m ≠ "") ++ [last])

def EngagementRow.point (r : EngagementRow) : AtRiskLessonPoint :=
  ⟨r.lessonID, r.lessonTitle, computeEngagementScore r.watchFraction r.scoreFraction⟩

/-- One round of the loop over the rows of a user: `curRun` and `bestRun`. -/
def scanRow (s : RunScan AtRiskLessonPoint) (r : EngagementRow) : RunScan AtRiskLessonPoint :=
  let eng := computeEngagementScore r.watchFraction r.scoreFraction
  if eng < engagementWarnThreshold then
    { s with cur := s.cur ++ [⟨r.lessonID, r.lessonTitle, eng⟩] }
  else s.flush

/-- The entry of a user, whose rows are `head :: rest`. -/
def atRiskStudent (head : EngagementRow) (rest : List EngagementRow) : Option AtRiskStudent :=
  let bestRun := ((head :: rest).foldl scanRow {}).flush.best
  if atRiskMinStreak ≤ bestRun.length then
    some ⟨head.userID, buildDisplayName head.firstName head.middleName head.lastName, head.email,
      bestRun⟩
  else none

/-- The loop of `buildAtRiskStudents` over the blocks of rows of one user; `fuel` bounds their
number. -/
def atRiskBlocks : Nat → List EngagementRow → List AtRiskStudent
  | 0, _ | _, [] => []
  | fuel + 1, head :: rows =>
    let block := rows.takeWhile fun r => r.userID = head.userID
    (atRiskStudent head block).toList ++
      atRiskBlocks fuel (rows.dropWhile fun r => r.userID = head.userID)

def buildAtRiskStudents (rows : List EngagementRow) : List AtRiskStudent :=
  atRiskBlocks rows.length rows

/-- `s[lo:hi]`, which panics outside the slice. -/
def sliceOf {α : Type} (s : List α) (lo hi : Int) : Option (List α) :=
  if 0 ≤ lo ∧ lo ≤ hi ∧ hi ≤ s.length then some ((s.drop lo.toNat).take (hi - lo).toNat) else none

/-- The answer of `ListAtRiskStudents` to a member who may see the students, from the rows of the
course: the page and the total. -/
def listAtRiskStudents (rows : List EngagementRow) (limit offset : Int) :
    Option (List AtRiskStudent × Int) := do
  let atRisk := buildAtRiskStudents rows
  let total := toInt32 atRisk.length
  let limit := if limit = 0 then 50 else limit
  let offset := if total < offset then total else offset
  let stop := toInt32 (offset + limit)
  let stop := if total < stop then total else stop
  let students ← sliceOf atRisk offset stop
  some (students, total)

/-- The engagement of the row is below the threshold. -/
def AtRiskLessonPoint.low (p : AtRiskLessonPoint) : Bool :=
  p.engagementScore < engagementWarnThreshold

def userRows (rows : List EngagementRow) (userID : UUID) : List EngagementRow :=
  rows.filter fun r => r.userID = userID

section Students

variable {rows : List EngagementRow} {head : EngagementRow} {s : AtRiskStudent}

theorem foldl_scanRow (rows : List EngagementRow) :
    (rows.foldl scanRow {}).flush.best =
      longestRun AtRiskLessonPoint.low (rows.map EngagementRow.point) := by
  have hStep : scanRow = fun s r => RunScan.step AtRiskLessonPoint.low s r.point := by
    funext s r
    simp only [scanRow, RunScan.step, AtRiskLessonPoint.low, decide_eq_true_eq]
    rfl
  rw [longestRun, List.foldl_map, hStep]

/-- What an entry says of the rows of its user, `block`. -/
structure AtRiskStudent.TellsOf (s : AtRiskStudent) (block : List EngagementRow) : Prop where
  head : ∃ r ∈ block.head?, s.userId = r.userID ∧
    s.displayName = buildDisplayName r.firstName r.middleName r.lastName ∧ s.email = r.email
  streak : ∃ pre post, FirstLongestRun AtRiskLessonPoint.low (block.map EngagementRow.point) pre
    s.lowStreak post

theorem atRiskStudent_tellsOf {rest : List EngagementRow} (h : atRiskStudent head rest = some s) :
    s.userId = head.userID ∧ s.TellsOf (head :: rest) := by
  unfold atRiskStudent at h
  simp only at h
  split at h
  · cases h
    refine ⟨rfl, ⟨head, rfl, rfl, rfl, rfl⟩, ?_⟩
    simp only [foldl_scanRow]
    exact longestRun_spec _ _
  · cases h

/-- Two rows in a row have a low engagement. -/
def LowPair (block : List EngagementRow) : Prop :=
  ∃ pre a b post, block = pre ++ [a, b] ++ post ∧ a.point.low = true ∧ b.point.low = true

theorem lowPair_iff {block : List EngagementRow} : LowPair block ↔
    ∃ pre a b post, block.map EngagementRow.point = pre ++ [a, b] ++ post ∧ a.low = true ∧
      b.low = true := by
  constructor
  · rintro ⟨pre, a, b, post, rfl, ha, hb⟩
    exact ⟨pre.map EngagementRow.point, a.point, b.point, post.map EngagementRow.point, by simp, ha,
      hb⟩
  · rintro ⟨pre, a, b, post, hParts, ha, hb⟩
    obtain ⟨front, post', rfl, hFront, -⟩ := List.map_eq_append_iff.mp hParts
    obtain ⟨pre', pair, rfl, -, hPair⟩ := List.map_eq_append_iff.mp hFront
    match pair, hPair with
    | [r, r'], hPair =>
      simp only [List.map_cons, List.map_nil, List.cons.injEq, and_true] at hPair
      exact ⟨pre', r, r', post', rfl, hPair.1 ▸ ha, hPair.2 ▸ hb⟩

theorem atRiskStudent_isSome_iff {rest : List EngagementRow} :
    (atRiskStudent head rest).isSome ↔ LowPair (head :: rest) := by
  obtain ⟨pre, post, hRun⟩ :=
    longestRun_spec AtRiskLessonPoint.low ((head :: rest).map EngagementRow.point)
  rw [lowPair_iff, ← hRun.two_le_iff]
  unfold atRiskStudent
  simp only [foldl_scanRow, atRiskMinStreak]
  split
  · next hLong => simpa using hLong
  · next hShort => simpa using hShort

/-- What the loop has made of the rows of some users. -/
structure TellsAll (students : List AtRiskStudent) (rows : List EngagementRow) : Prop where
  order : (students.map AtRiskStudent.userId).Sublist (rows.map EngagementRow.userID).dedup
  users : ∀ u, u ∈ students.map AtRiskStudent.userId ↔ LowPair (userRows rows u)
  tells : ∀ s ∈ students, s.TellsOf (userRows rows s.userId)

theorem not_lowPair_nil : ¬ LowPair [] := by
  rintro ⟨pre, a, b, post, h, -, -⟩
  simp at h

/-- The rows of one user more. -/
theorem TellsAll.cons {students : List AtRiskStudent}
    (hGrouped : Grouped EngagementRow.userID (head :: rows))
    (h : TellsAll students (rows.dropWhile fun r => r.userID = head.userID)) :
    TellsAll ((atRiskStudent head (rows.takeWhile fun r => r.userID = head.userID)).toList ++
      students) (head :: rows) := by
  have hBlock : userRows (head :: rows) head.userID =
      head :: rows.takeWhile fun r => r.userID = head.userID := hGrouped.filter_self
  have hOther : ∀ u, u ≠ head.userID → userRows (head :: rows) u =
      userRows (rows.dropWhile fun r => r.userID = head.userID) u := fun u hu => filter_other hu
  have hNone : userRows (rows.dropWhile fun r => r.userID = head.userID) head.userID = [] :=
    List.filter_eq_nil_iff.mpr fun r hr => by simpa using hGrouped.key_ne hr
  have hLater : ∀ s ∈ students, s.userId ≠ head.userID := by
    intro s hs hEq
    have hPair := (h.users s.userId).mp (List.mem_map_of_mem hs)
    rw [hEq, hNone] at hPair
    exact not_lowPair_nil hPair
  have hHead : ∀ s ∈ (atRiskStudent head (rows.takeWhile fun r => r.userID = head.userID)).toList,
      s.userId = head.userID ∧
        s.TellsOf (head :: rows.takeWhile fun r => r.userID = head.userID) := fun s hs =>
    atRiskStudent_tellsOf (Option.mem_toList.mp hs)
  refine ⟨?_, fun u => ?_, fun s hs => ?_⟩
  · rw [List.map_append, hGrouped.dedup, ← List.singleton_append]
    refine List.Sublist.append ?_ h.order
    cases hSome : atRiskStudent head (rows.takeWhile fun r => r.userID = head.userID) with
    | none => simp
    | some s => simp [(hHead s (by simp [hSome])).1]
  · by_cases hu : u = head.userID
    · subst hu
      rw [hBlock, ← atRiskStudent_isSome_iff, List.map_append, List.mem_append]
      have hNot : head.userID ∉ students.map AtRiskStudent.userId := by
        intro hMem
        obtain ⟨s, hs, hEq⟩ := List.mem_map.mp hMem
        exact hLater s hs hEq
      cases hSome : atRiskStudent head (rows.takeWhile fun r => r.userID = head.userID) with
      | none => simpa using hNot
      | some s => simp [(hHead s (by simp [hSome])).1]
    · rw [hOther u hu, ← h.users u, List.map_append, List.mem_append, or_iff_right]
      intro hMem
      obtain ⟨s, hs, rfl⟩ := List.mem_map.mp hMem
      exact hu (hHead s hs).1
  · rcases List.mem_append.mp hs with hs | hs
    · rw [(hHead s hs).1, hBlock]
      exact (hHead s hs).2
    · rw [hOther _ (hLater s hs)]
      exact h.tells s hs

theorem atRiskBlocks_tellsAll {fuel : Nat} (hFuel : rows.length ≤ fuel)
    (hGrouped : Grouped EngagementRow.userID rows) : TellsAll (atRiskBlocks fuel rows) rows := by
  induction fuel generalizing rows with
  | zero =>
    obtain rfl := List.length_eq_zero_iff.mp (Nat.le_zero.mp hFuel)
    exact ⟨by simp [atRiskBlocks], fun u => by simpa [atRiskBlocks, userRows] using not_lowPair_nil,
      by simp [atRiskBlocks]⟩
  | succ fuel ih =>
    cases rows with
    | nil =>
      exact ⟨by simp [atRiskBlocks],
        fun u => by simpa [atRiskBlocks, userRows] using not_lowPair_nil, by simp [atRiskBlocks]⟩
    | cons head rows =>
      have hRest := List.dropWhile_sublist
        (fun r : EngagementRow => decide (r.userID = head.userID)) (l := rows)
      refine TellsAll.cons hGrouped (ih ?_ (hGrouped.sublist (hRest.cons head)))
      have := hRest.length_le
      rw [List.length_cons] at hFuel
      omega

end Students

section Pages

variable {α : Type}

theorem sliceOf_eq {s : List α} {lo hi : Nat} (h : lo ≤ hi) (hHigh : hi ≤ s.length) :
    sliceOf s lo hi = some ((s.drop lo).take (hi - lo)) := by
  rw [sliceOf, if_pos (by omega), Int.toNat_natCast,
    show ((hi : Int) - lo).toNat = hi - lo by omega]

/-- The `k`-th page of `L` students, when its end fits an `int32`. -/
theorem listAtRiskStudents_page (rows : List EngagementRow) {L : Nat} (k : Nat) (hL : 0 < L)
    (hTotal : (buildAtRiskStudents rows).length < 2 ^ 31)
    (hFits : min (k * L) (buildAtRiskStudents rows).length + L < 2 ^ 31) :
    listAtRiskStudents rows L (k * L : Nat) =
      some (page L (k * L) (buildAtRiskStudents rows),
        ((buildAtRiskStudents rows).length : Int)) := by
  unfold listAtRiskStudents page
  generalize buildAtRiskStudents rows = atRisk at hTotal hFits ⊢
  simp only [toInt32_of_lt (show (0 : Int) ≤ atRisk.length by omega) (by omega),
    if_neg (show (L : Int) ≠ 0 by omega)]
  by_cases hPast : atRisk.length < k * L
  · rw [if_pos (by exact_mod_cast hPast), toInt32_of_lt (by omega) (by omega), if_pos (by omega),
      sliceOf_eq (Nat.le_refl _) (Nat.le_refl _), Nat.sub_self, List.take_zero,
      List.drop_eq_nil_of_le (Nat.le_of_lt hPast), List.take_nil]
    rfl
  · rw [if_neg (by exact_mod_cast hPast), toInt32_of_lt (by omega) (by omega)]
    by_cases hLast : atRisk.length < k * L + L
    · rw [if_pos (by exact_mod_cast hLast), sliceOf_eq (by omega) (Nat.le_refl _),
        List.take_of_length_le (by simp), List.take_of_length_le (by simp; omega)]
      rfl
    · rw [if_neg (by exact_mod_cast hLast), ← Int.natCast_add, sliceOf_eq (by omega) (by omega),
        Nat.add_sub_cancel_left]
      rfl

/-- A list whose pages' ends fit an `int32` is no longer than that. -/
theorem total_fits {n L K : Nat} (hAll : n ≤ K * L) (hFits : ∀ k < K, min (k * L) n + L < 2 ^ 31) :
    n < 2 ^ 31 := by
  cases K with
  | zero => omega
  | succ K =>
    have hLast := hFits K (Nat.lt_succ_self K)
    rw [Nat.succ_mul] at hAll
    omega

end Pages

/-- The loop makes one entry, in the order of the rows, for each user with two rows in a row of low
engagement, and the entry has the first of the user's longest runs of such rows.  The pages for the
offsets `0`, `L`, `2L` and so on make up the whole list (in pages whose ends fit an `int32`). -/
theorem buildAtRiskStudents_complete {rows : List EngagementRow}
    (hGrouped : Grouped EngagementRow.userID rows) :
    TellsAll (buildAtRiskStudents rows) rows ∧
    ∀ L K : Nat, 0 < L → (buildAtRiskStudents rows).length ≤ K * L →
      (∀ k < K, min (k * L) (buildAtRiskStudents rows).length + L < 2 ^ 31) →
      ((List.range K).mapM fun k => (listAtRiskStudents rows L (k * L : Nat)).map Prod.fst).map
        List.flatten = some (buildAtRiskStudents rows) := by
  refine ⟨atRiskBlocks_tellsAll (Nat.le_refl _) hGrouped, fun L K hL hAll hFits => ?_⟩
  have hPages : ∀ k ∈ List.range K, (listAtRiskStudents rows L (k * L : Nat)).map Prod.fst =
      some (page L (k * L) (buildAtRiskStudents rows)) := by
    intro k hk
    rw [listAtRiskStudents_page rows k hL (total_fits hAll hFits)
      (hFits k (List.mem_range.mp hk)), Option.map_some]
  rw [mapM_eq_some_map hPages, Option.map_some, ← List.flatMap_def, flatMap_page,
    List.take_of_length_le hAll]

/-- Of two students the first has a run of two lessons and one of three. -/
theorem buildAtRiskStudents_complete_two : LowPair (userRows
      [⟨1, "An", none, "Le", "an@x", 1, "a", 0, 0⟩, ⟨1, "An", none, "Le", "an@x", 2, "b", 1, 1⟩,
        ⟨1, "An", none, "Le", "an@x", 3, "c", 0, 0⟩,
        ⟨1, "An", none, "Le", "an@x", 4, "d", 0, 1 / 2⟩,
        ⟨2, "Bo", none, "Le", "bo@x", 1, "a", 0, 0⟩] 1) :=
  ((buildAtRiskStudents_complete (.of_sorted (by decide +kernel))).1.users 1).mp (by decide +kernel)

end Richter.Interactions
