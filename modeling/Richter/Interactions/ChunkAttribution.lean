import Mathlib.Data.List.Pairwise
import Mathlib.Data.List.Sort
import Mathlib.Order.Defs.LinearOrder

/-! The chunk that an interaction without a chunk of its own is given (`chunkForSeconds` of
`interactions.go`): the one that is playing at its time, otherwise the last that has started,
otherwise the first. -/

namespace Richter.Interactions

/-- The columns of `lesson_transcript_chunks` that the attribution reads. -/
structure ChunkTimes (ι τ : Type) where
  id : ι
  startSeconds : τ
  endSeconds : τ

variable {ι τ : Type} [LinearOrder τ]

namespace ChunkTimes

def contains (seconds : τ) (c : ChunkTimes ι τ) : Bool :=
  c.startSeconds ≤ seconds && seconds < c.endSeconds

def started (seconds : τ) (c : ChunkTimes ι τ) : Bool := c.startSeconds ≤ seconds

end ChunkTimes

/-- `sort.Slice` by the start.  It is not stable: chunks that start at one time come in any
order. -/
structure SortByStart (ι τ : Type) [LinearOrder τ] where
  run : List (ChunkTimes ι τ) → List (ChunkTimes ι τ)
  perm : ∀ cs, (run cs).Perm cs
  sorted : ∀ cs, (run cs).Pairwise fun c d => c.startSeconds ≤ d.startSeconds

/-- A stable sort is one of them. -/
def SortByStart.stable : SortByStart ι τ where
  run := List.insertionSort fun c d => c.startSeconds ≤ d.startSeconds
  perm := List.perm_insertionSort _
  sorted cs :=
    have : Std.Total fun c d : ChunkTimes ι τ => c.startSeconds ≤ d.startSeconds :=
      ⟨fun c d => le_total c.startSeconds d.startSeconds⟩
    have : IsTrans (ChunkTimes ι τ) fun c d => c.startSeconds ≤ d.startSeconds :=
      ⟨fun _ _ _ => le_trans⟩
    List.pairwise_insertionSort _ cs

/-- The loop of `chunkForSeconds`. -/
def chunkLoop (seconds : τ) (best : ι) : List (ChunkTimes ι τ) → ι
  | [] => best
  | c :: cs =>
    if c.contains seconds then c.id
    else if c.started seconds then chunkLoop seconds c.id cs
    else chunkLoop seconds best cs

/-- `chunkForSeconds`. -/
def chunkForSeconds (sort : SortByStart ι τ) (chunks : List (ChunkTimes ι τ)) (seconds : τ) :
    Option ι :=
  match sort.run chunks with
  | [] => none
  | c :: cs => some (chunkLoop seconds c.id (c :: cs))

variable {sort : SortByStart ι τ} {chunks : List (ChunkTimes ι τ)} {seconds : τ}

/-- The loop leaves early at the first chunk that contains the time, and has otherwise kept the
last one that has started. -/
theorem chunkLoop_eq (best : ι) (cs : List (ChunkTimes ι τ)) : chunkLoop seconds best cs =
    match cs.find? fun c => c.contains seconds with
    | some c => c.id
    | none => ((cs.filter fun c => c.started seconds).getLast?.map (·.id)).getD best := by
  induction cs generalizing best with
  | nil => rfl
  | cons c cs ih =>
    unfold chunkLoop
    by_cases hHit : c.contains seconds = true
    · simp [hHit]
    · by_cases hStarted : c.started seconds = true
      · rw [if_neg hHit, if_pos hStarted, ih]
        cases hLast : (cs.filter fun c => c.started seconds).getLast? with
        | none => simp [hHit, hStarted, hLast, List.getLast?_cons]
        | some d => simp [hHit, hStarted, hLast, List.getLast?_cons]
      · rw [if_neg hHit, if_neg hStarted, ih]
        simp [hHit, hStarted]

/-- `c` is a chunk that the time `seconds` may be attributed to. -/
structure Attributed (chunks : List (ChunkTimes ι τ)) (seconds : τ) (c : ChunkTimes ι τ) :
    Prop where
  mem : c ∈ chunks
  contains : (∃ d ∈ chunks, d.contains seconds = true) → c.contains seconds = true
  started : (∀ d ∈ chunks, d.contains seconds = false) →
    (∃ d ∈ chunks, d.startSeconds ≤ seconds) →
    c.startSeconds ≤ seconds ∧ ∀ d ∈ chunks, d.startSeconds ≤ seconds →
      d.startSeconds ≤ c.startSeconds
  first : (∀ d ∈ chunks, seconds < d.startSeconds) →
    ∀ d ∈ chunks, c.startSeconds ≤ d.startSeconds

theorem attributed_of_contains {c : ChunkTimes ι τ} (hMem : c ∈ chunks)
    (h : c.contains seconds = true) : Attributed chunks seconds c where
  mem := hMem
  contains _ := h
  started hNone := by
    rw [hNone c hMem] at h
    cases h
  first hBefore := by
    have hStart : c.startSeconds ≤ seconds := by
      simp only [ChunkTimes.contains, Bool.and_eq_true, decide_eq_true_eq] at h
      exact h.1
    exact absurd hStart (not_le.mpr (hBefore c hMem))

/-- The last of the chunks that have started, in the order of their starts. -/
theorem attributed_of_started {cs : List (ChunkTimes ι τ)} (hPerm : cs.Perm chunks)
    (hSorted : cs.Pairwise fun c d => c.startSeconds ≤ d.startSeconds)
    (hNone : ∀ d ∈ chunks, d.contains seconds = false) {c : ChunkTimes ι τ}
    (h : (cs.filter fun c => c.started seconds).getLast? = some c) :
    Attributed chunks seconds c := by
  have hMem : c ∈ cs.filter fun c => c.started seconds := List.mem_of_getLast? h
  have hStart : c.startSeconds ≤ seconds := by
    simpa [ChunkTimes.started] using (List.mem_filter.mp hMem).2
  have hLast : ∀ d ∈ chunks, d.startSeconds ≤ seconds → d.startSeconds ≤ c.startSeconds := by
    intro d hd hStarted
    have hdMem : d ∈ cs.filter fun c => c.started seconds :=
      List.mem_filter.mpr ⟨hPerm.mem_iff.mpr hd, by simpa [ChunkTimes.started] using hStarted⟩
    have hRefl : Std.Refl fun c d : ChunkTimes ι τ => c.startSeconds ≤ d.startSeconds :=
      ⟨fun c => le_refl c.startSeconds⟩
    have hLe := (hSorted.filter fun c => c.started seconds).rel_getLast hdMem
    rw [List.getLast?_eq_some_getLast (List.ne_nil_of_mem hdMem)] at h
    rwa [Option.some.inj h] at hLe
  have hc : c ∈ chunks := hPerm.mem_iff.mp (List.mem_of_mem_filter hMem)
  exact {
    mem := hc
    contains := fun ⟨d, hd, hHit⟩ => by simp [hNone d hd] at hHit
    started := fun _ _ => ⟨hStart, hLast⟩
    first := fun hBefore => absurd hStart (not_le.mpr (hBefore c hc)) }

/-- The first chunk, where none has started. -/
theorem attributed_of_first {c : ChunkTimes ι τ} {cs : List (ChunkTimes ι τ)}
    (hPerm : (c :: cs).Perm chunks)
    (hSorted : (c :: cs).Pairwise fun c d => c.startSeconds ≤ d.startSeconds)
    (hNone : ∀ d ∈ chunks, seconds < d.startSeconds) : Attributed chunks seconds c where
  mem := hPerm.mem_iff.mp List.mem_cons_self
  contains := by
    rintro ⟨d, hd, hHit⟩
    simp only [ChunkTimes.contains, Bool.and_eq_true, decide_eq_true_eq] at hHit
    exact absurd hHit.1 (not_le.mpr (hNone d hd))
  started _ hStarted := by
    obtain ⟨d, hd, hStart⟩ := hStarted
    exact absurd hStart (not_le.mpr (hNone d hd))
  first _ d hd := by
    rcases List.mem_cons.mp (hPerm.mem_iff.mpr hd) with rfl | hMem
    · exact le_refl _
    · exact (List.pairwise_cons.mp hSorted).1 d hMem

/-- Every time is attributed to the chunk that is playing then, otherwise to the last one that has
started, otherwise to the first one, whatever the order of the chunks; only a lesson without chunks
has none for it. -/
theorem chunkForSeconds_attributed (sort : SortByStart ι τ) (chunks : List (ChunkTimes ι τ))
    (seconds : τ) : (chunkForSeconds sort chunks seconds = none ↔ chunks = []) ∧
      ∀ id, chunkForSeconds sort chunks seconds = some id →
        ∃ c, Attributed chunks seconds c ∧ c.id = id := by
  have hPerm := sort.perm chunks
  have hSorted := sort.sorted chunks
  unfold chunkForSeconds
  cases hRun : sort.run chunks with
  | nil =>
    rw [hRun] at hPerm
    simpa using hPerm.symm.eq_nil
  | cons first rest =>
    rw [hRun] at hPerm hSorted
    have hSome : chunks ≠ [] := List.ne_nil_of_mem (hPerm.mem_iff.mp List.mem_cons_self)
    refine ⟨by simpa using hSome, ?_⟩
    intro id hId
    rw [← Option.some.inj hId, chunkLoop_eq]
    cases hFind : (first :: rest).find? fun c => c.contains seconds with
    | some c =>
      have hMem : c ∈ chunks := hPerm.mem_iff.mp (List.mem_of_find?_eq_some hFind)
      exact ⟨c, attributed_of_contains hMem (List.find?_some hFind), rfl⟩
    | none =>
      have hNone : ∀ d ∈ chunks, d.contains seconds = false := fun d hd => by
        simpa using List.find?_eq_none.mp hFind d (hPerm.mem_iff.mpr hd)
      cases hLast : ((first :: rest).filter fun c => c.started seconds).getLast? with
      | some c => exact ⟨c, attributed_of_started hPerm hSorted hNone hLast, rfl⟩
      | none =>
        refine ⟨first, attributed_of_first hPerm hSorted fun d hd => ?_, rfl⟩
        rw [List.getLast?_eq_none_iff, List.filter_eq_nil_iff] at hLast
        simpa [ChunkTimes.started] using hLast d (hPerm.mem_iff.mpr hd)

end Richter.Interactions
