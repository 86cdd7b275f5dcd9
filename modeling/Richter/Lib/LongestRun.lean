import Mathlib.Data.List.Basic

/-! A scan for the longest run: it collects the members that meet a condition, drops the collection
at each one that does not, and keeps the first of the longest collections. -/

namespace Lib

universe u

variable {α : Type u} (p : α → Bool)

/-- The run that a scan is in, and the longest run that it has left. -/
structure RunScan (α : Type u) where
  cur : List α := []
  best : List α := []

namespace RunScan

variable {p}

/-- The scan leaves the run that it is in. -/
def flush (s : RunScan α) : RunScan α :=
  { cur := [], best := if s.best.length < s.cur.length then s.cur else s.best }

variable (p) in
def step (s : RunScan α) (a : α) : RunScan α :=
  if p a then { s with cur := s.cur ++ [a] } else s.flush

end RunScan

def longestRun (l : List α) : List α := (l.foldl (RunScan.step p) {}).flush.best

/-- `run`, which stands in `l` after `pre`, is the first of the longest parts of `l` all of whose
members meet `p`. -/
structure LongestAt (l pre run : List α) : Prop where
  part : pre ++ run <+: l
  all : ∀ a ∈ run, p a = true
  longest : ∀ pre' run', pre' ++ run' <+: l → (∀ a ∈ run', p a = true) → run'.length ≤ run.length
  first : ∀ pre' run', pre' ++ run' <+: l → (∀ a ∈ run', p a = true) →
    run'.length = run.length → pre.length ≤ pre'.length

/-- `run` is the first of the longest runs of `l`: it stands between `pre` and `post`, it cannot be
extended on either side, and no other part of `l` of members that meet `p` is longer, or as long and
further to the left. -/
structure FirstLongestRun (l pre run post : List α) : Prop where
  parts : l = pre ++ run ++ post
  all : ∀ a ∈ run, p a = true
  before : ∀ a ∈ pre.getLast?, p a = false
  after : ∀ a ∈ post.head?, p a = false
  longest : ∀ pre' run' post', l = pre' ++ run' ++ post' → (∀ a ∈ run', p a = true) →
    run'.length ≤ run.length ∧ (run'.length = run.length → pre.length ≤ pre'.length)

section Scan

variable {p} {l done cur best pre run post : List α}

theorem LongestAt.nil : LongestAt p [] [] [] where
  part := List.prefix_refl _
  all := by simp
  longest pre' run' h _ := by simp_all
  first pre' run' _ _ _ := Nat.zero_le _

/-- A member that does not meet `p` adds no run. -/
theorem LongestAt.append_of_not (h : LongestAt p l pre run) {a : α} (ha : p a = false) :
    LongestAt p (l ++ [a]) pre run := by
  have hOld : ∀ pre' run', pre' ++ run' <+: l ++ [a] → (∀ b ∈ run', p b = true) →
      pre' ++ run' <+: l ∨ run' = [] ∧ pre' = l ++ [a] := by
    intro pre' run' hPart hAll
    rcases List.prefix_concat_iff.mp hPart with hEq | hShort
    · right
      rcases List.eq_nil_or_concat run' with rfl | ⟨run₀, b, rfl⟩
      · exact ⟨rfl, by simpa using hEq⟩
      · rw [List.concat_eq_append, ← List.append_assoc] at hEq
        obtain ⟨-, hb⟩ := List.append_inj' hEq rfl
        have := hAll b (by simp)
        simp_all
    · exact .inl hShort
  refine ⟨h.part.trans (List.prefix_append l [a]), h.all, fun pre' run' hPart hAll => ?_,
    fun pre' run' hPart hAll hLength => ?_⟩
  · rcases hOld pre' run' hPart hAll with hShort | ⟨rfl, -⟩
    · exact h.longest pre' run' hShort hAll
    · exact Nat.zero_le _
  · rcases hOld pre' run' hPart hAll with hShort | ⟨rfl, rfl⟩
    · exact h.first pre' run' hShort hAll hLength
    · have := h.part.length_le
      simp only [List.length_append] at this ⊢
      omega

/-- The scan leaves the run `cur`, before which there is nothing or a member that ends all runs. -/
theorem LongestAt.flush (h : LongestAt p done pre best) (hCur : ∀ a ∈ cur, p a = true)
    (hEnd : ∀ a ∈ done.getLast?, p a = false) :
    ∃ pre', LongestAt p (done ++ cur) pre' (RunScan.flush ⟨cur, best⟩).best := by
  -- a part of members that meet `p` stands in what the scan has left, or in the run
  have hSplit : ∀ pre' run', pre' ++ run' <+: done ++ cur → (∀ a ∈ run', p a = true) →
      pre' ++ run' <+: done ∨ done.length ≤ pre'.length ∧ run'.length ≤ cur.length := by
    intro pre' run' hPart hAll
    rcases List.prefix_or_prefix_of_prefix hPart (List.prefix_append done cur) with hIn | ⟨t, hEq⟩
    · exact .inl hIn
    · have hLength := hPart.length_le
      simp only [List.length_append] at hLength
      rcases List.append_eq_append_iff.mp hEq with ⟨c, rfl, -⟩ | ⟨c, rfl, rfl⟩
      · refine .inr ⟨by simp, ?_⟩
        simp only [List.length_append] at hLength
        omega
      · rcases List.eq_nil_or_concat c with rfl | ⟨c₀, a, rfl⟩
        · refine .inr ⟨by simp, ?_⟩
          simp only [List.append_nil] at hLength
          omega
        · have := hEnd a (by simp)
          have := hAll a (by simp)
          simp_all
  have hDone := h.part.length_le
  rw [List.length_append] at hDone
  by_cases hLonger : best.length < cur.length
  · refine ⟨done, ?_⟩
    simp only [RunScan.flush, if_pos hLonger]
    refine ⟨List.prefix_refl _, hCur, fun pre' run' hPart hAll => ?_,
      fun pre' run' hPart hAll hLength => ?_⟩
    · rcases hSplit pre' run' hPart hAll with hIn | ⟨-, hShort⟩
      · exact Nat.le_of_lt (Nat.lt_of_le_of_lt (h.longest pre' run' hIn hAll) hLonger)
      · exact hShort
    · rcases hSplit pre' run' hPart hAll with hIn | ⟨hBehind, -⟩
      · have := h.longest pre' run' hIn hAll
        omega
      · exact hBehind
  · refine ⟨pre, ?_⟩
    simp only [RunScan.flush, if_neg hLonger]
    refine ⟨h.part.trans (List.prefix_append done cur), h.all, fun pre' run' hPart hAll => ?_,
      fun pre' run' hPart hAll hLength => ?_⟩
    · rcases hSplit pre' run' hPart hAll with hIn | ⟨-, hShort⟩
      · exact h.longest pre' run' hIn hAll
      · omega
    · rcases hSplit pre' run' hPart hAll with hIn | ⟨hBehind, -⟩
      · exact h.first pre' run' hIn hAll hLength
      · omega

/-- What a scan has read is what it has left and the run that it is in. -/
structure RunScan.Read (p : α → Bool) (l : List α) (s : RunScan α) (done pre : List α) : Prop where
  parts : l = done ++ s.cur
  all : ∀ a ∈ s.cur, p a = true
  ended : ∀ a ∈ done.getLast?, p a = false
  best : LongestAt p done pre s.best

theorem RunScan.Read.step {s : RunScan α} (h : s.Read p l done pre) (a : α) :
    ∃ done' pre', (s.step p a).Read p (l ++ [a]) done' pre' := by
  unfold RunScan.step
  split
  · next ha =>
    refine ⟨done, pre, ⟨by rw [h.parts, List.append_assoc], fun b hb => ?_, h.ended, h.best⟩⟩
    rcases List.mem_append.mp hb with hb | hb
    · exact h.all b hb
    · rwa [List.mem_singleton.mp hb]
  · next ha =>
    rw [Bool.not_eq_true] at ha
    obtain ⟨pre', hBest⟩ := h.best.flush h.all h.ended
    refine ⟨l ++ [a], pre', ⟨(List.append_nil _).symm, by simp [RunScan.flush], by simp [ha], ?_⟩⟩
    rw [h.parts]
    exact hBest.append_of_not ha

theorem RunScan.Read.foldl {s : RunScan α} (h : s.Read p l done pre) (l' : List α) :
    ∃ done' pre', (l'.foldl (RunScan.step p) s).Read p (l ++ l') done' pre' := by
  induction l' generalizing l s done pre with
  | nil => exact ⟨done, pre, by rwa [List.append_nil]⟩
  | cons a l' ih =>
    obtain ⟨done₁, pre₁, h₁⟩ := h.step a
    rw [List.append_cons]
    exact ih h₁

/-- A longest run cannot be extended. -/
theorem LongestAt.firstLongestRun (h : LongestAt p l pre run) :
    ∃ post, FirstLongestRun p l pre run post := by
  obtain ⟨post, rfl⟩ := h.part
  refine ⟨post, ⟨rfl, h.all, fun a ha => ?_, fun a ha => ?_, fun pre' run' post' hParts hAll => ?_⟩⟩
  · by_contra hTrue
    rw [Bool.not_eq_false] at hTrue
    obtain ⟨pre₀, rfl⟩ : ∃ pre₀, pre = pre₀ ++ [a] :=
      ⟨_, (List.getLast?_eq_some_iff.mp ha).choose_spec⟩
    have := h.longest pre₀ (a :: run) (by simp) (by simpa [hTrue] using h.all)
    rw [List.length_cons] at this
    omega
  · by_contra hTrue
    rw [Bool.not_eq_false] at hTrue
    obtain ⟨post₀, rfl⟩ := List.head?_eq_some_iff.mp ha
    have := h.longest pre (run ++ [a]) (by simp) (by simpa [or_imp, forall_and, hTrue] using h.all)
    rw [List.length_append, List.length_singleton] at this
    omega
  · have hPart : pre' ++ run' <+: pre ++ run ++ post := hParts ▸ List.prefix_append _ _
    exact ⟨h.longest pre' run' hPart hAll, h.first pre' run' hPart hAll⟩

variable (p l) in
/-- The scan finds the first of the longest runs. -/
theorem longestRun_spec : ∃ pre post, FirstLongestRun p l pre (longestRun p l) post := by
  have hStart : (({} : RunScan α)).Read p [] [] [] := ⟨rfl, by simp, by simp, .nil⟩
  obtain ⟨done, pre, h⟩ := hStart.foldl l
  obtain ⟨pre', hBest⟩ := h.best.flush h.all h.ended
  rw [← h.parts] at hBest
  exact ⟨pre', hBest.firstLongestRun⟩

/-- There are two members in a row that meet `p` just when the longest run has two members. -/
theorem FirstLongestRun.two_le_iff (h : FirstLongestRun p l pre run post) :
    2 ≤ run.length ↔ ∃ pre' a b post', l = pre' ++ [a, b] ++ post' ∧ p a = true ∧ p b = true := by
  constructor
  · intro hTwo
    obtain ⟨a, b, rest, rfl⟩ : ∃ a b rest, run = a :: b :: rest := by
      match run, hTwo with
      | a :: b :: rest, _ => exact ⟨a, b, rest, rfl⟩
    refine ⟨pre, a, b, rest ++ post, by simp [h.parts], h.all a (by simp), h.all b (by simp)⟩
  · rintro ⟨pre', a, b, post', hParts, ha, hb⟩
    exact (h.longest pre' [a, b] post' hParts (by simp [ha, hb])).1

end Scan

end Lib
