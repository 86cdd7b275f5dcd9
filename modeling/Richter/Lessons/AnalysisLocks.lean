import Mathlib.Data.List.AList
import Richter.Lib.Machine

/-! The registry of the locks that keep two extractions of one lesson's transcript apart
(`analysisLocks`).  An entry counts the calls that refer to it and leaves the registry with the last
of them.  The reference count, the map and the mutex of an entry change in critical sections of
their own, and the calls take these sections in any order. -/

namespace Richter.Lessons

open Lib

/-- `analysisLockEntry`.  `refs` is an `int`. -/
structure AnalysisLockEntry where
  locked : Bool := false
  refs : Int := 0
  deriving DecidableEq, Repr

/-- How far a call of `tryAcquire`, and of the `release` that follows it, has come. -/
inductive LockCall.Phase where
  /-- Past the registry section, before `TryLock`. -/
  | entered
  /-- `TryLock` has failed, `releaseRef` is still to come. -/
  | refused
  /-- `tryAcquire` has returned the entry. -/
  | holding
  /-- `release` has unlocked the mutex, `releaseRef` is still to come. -/
  | unlocked
  | returned
  deriving DecidableEq, Repr

structure LockCall where
  key : String
  entry : Nat
  phase : LockCall.Phase
  deriving DecidableEq, Repr

/-- The entries ever allocated, the map from keys to (pointers to) entries, and the calls. -/
structure AnalysisLockRegistry where
  entries : List AnalysisLockEntry := []
  locks : AList fun _ : String => Nat := ∅
  calls : List LockCall := []

def newAnalysisLockRegistry : AnalysisLockRegistry := {}

namespace AnalysisLockRegistry

/-- The entry of a key, a new one where the map has none. -/
def entryOf (r : AnalysisLockRegistry) (key : String) : AnalysisLockRegistry × Nat :=
  match r.locks.lookup key with
  | some entry => (r, entry)
  | none => ({ r with
      entries := r.entries ++ [{}]
      locks := r.locks.insert key r.entries.length }, r.entries.length)

def modify (r : AnalysisLockRegistry) (entry : Nat) (f : AnalysisLockEntry → AnalysisLockEntry) :
    AnalysisLockRegistry :=
  { r with entries := r.entries.modify entry f }

/-- The call `i`, which was `c`, goes on to `phase`. -/
def goOn (r : AnalysisLockRegistry) (i : Nat) (c : LockCall) (phase : LockCall.Phase) :
    AnalysisLockRegistry :=
  { r with calls := r.calls.set i { c with phase } }

/-- The registry section of `tryAcquire`. -/
def enter (r : AnalysisLockRegistry) (key : String) : AnalysisLockRegistry :=
  let (r, entry) := r.entryOf key
  let r := r.modify entry fun e => { e with refs := e.refs + 1 }
  { r with calls := r.calls ++ [⟨key, entry, .entered⟩] }

/-- `entry.mu.TryLock()`. -/
def tryLock (r : AnalysisLockRegistry) (i : Nat) (c : LockCall) (e : AnalysisLockEntry) :
    AnalysisLockRegistry :=
  if e.locked then r.goOn i c .refused
  else (r.modify c.entry fun e => { e with locked := true }).goOn i c .holding

/-- `entry.mu.Unlock()` of `release`. -/
def unlock (r : AnalysisLockRegistry) (i : Nat) (c : LockCall) : AnalysisLockRegistry :=
  (r.modify c.entry fun e => { e with locked := false }).goOn i c .unlocked

/-- `releaseRef`. -/
def releaseRef (r : AnalysisLockRegistry) (i : Nat) (c : LockCall) (e : AnalysisLockEntry) :
    AnalysisLockRegistry :=
  let r := (r.modify c.entry fun e => { e with refs := e.refs - 1 }).goOn i c .returned
  if e.refs - 1 = 0 ∧ r.locks.lookup c.key = some c.entry then
    { r with locks := r.locks.erase c.key }
  else r

end AnalysisLockRegistry

/-- A call of `tryAcquire` starts with its registry section; `i` is the number of a call. -/
inductive LockAction where
  | tryAcquire (key : String)
  | tryLock (i : Nat)
  | unlock (i : Nat)
  | releaseRef (i : Nat)
  deriving DecidableEq, Repr

/-- Only the holder of a lock releases it, and once. -/
def analysisLocks : Machine AnalysisLockRegistry LockAction where
  step r
    | .tryAcquire key => some (r.enter key)
    | .tryLock i => do
      let c ← r.calls[i]?
      let e ← r.entries[c.entry]?
      if c.phase = .entered then some (r.tryLock i c e) else none
    | .unlock i => do
      let c ← r.calls[i]?
      if c.phase = .holding then some (r.unlock i c) else none
    | .releaseRef i => do
      let c ← r.calls[i]?
      let e ← r.entries[c.entry]?
      if c.phase = .refused ∨ c.phase = .unlocked then some (r.releaseRef i c e) else none

/-- The call is in progress or holds the lock, and its entry is `entry`. -/
def LockCall.refersTo (entry : Nat) (c : LockCall) : Bool :=
  decide (c.entry = entry ∧ c.phase ≠ .returned)

/-- The call holds the lock of `entry`. -/
def LockCall.holds (entry : Nat) (c : LockCall) : Bool :=
  decide (c.entry = entry ∧ c.phase = .holding)

/-- Every entry counts the calls that refer to it, and is locked while one of them holds it. -/
def RefsTally (entries : List AnalysisLockEntry) (calls : List LockCall) : Prop :=
  ∀ (entry : Nat) (e : AnalysisLockEntry), entries[entry]? = some e →
    e.refs = calls.countP (LockCall.refersTo entry) ∧
      e.locked.toNat = calls.countP (LockCall.holds entry)

/-- The invariant of the registry: the entries tally with the calls, the map gives every call that
is not over its own entry, and it maps different keys to different entries and only to entries that
such a call refers to. -/
structure Tracked (r : AnalysisLockRegistry) : Prop where
  tally : RefsTally r.entries r.calls
  allocated : ∀ c ∈ r.calls, c.entry < r.entries.length
  mapped : ∀ c ∈ r.calls, c.phase ≠ .returned → r.locks.lookup c.key = some c.entry
  referred : ∀ key entry, r.locks.lookup key = some entry →
    0 < r.calls.countP (LockCall.refersTo entry)
  keys : ∀ key key' entry, r.locks.lookup key = some entry → r.locks.lookup key' = some entry →
    key = key'

section Counting

variable {entries : List AnalysisLockEntry} {calls : List LockCall} {c d : LockCall} {i : Nat}

theorem countP_set_add (P : LockCall → Bool) (hc : calls[i]? = some c) :
    (calls.set i d).countP P + (P c).toNat = calls.countP P + (P d).toNat := by
  obtain ⟨hi, hEq⟩ := List.getElem?_eq_some_iff.mp hc
  have hPos : (P c).toNat ≤ calls.countP P := by
    cases hP : P c with
    | false => exact Nat.zero_le _
    | true => exact List.countP_pos_iff.mpr ⟨c, List.mem_of_getElem? hc, hP⟩
  rw [List.countP_set hi, hEq]
  cases hP : P c <;> cases hP' : P d <;>
    simp only [hP, Bool.toNat_true, Bool.toNat_false] at hPos <;> simp <;> omega

/-- A call goes on, and its entry changes as the call's part in the counts does. -/
theorem RefsTally.goOn (h : RefsTally entries calls) (hc : calls[i]? = some c)
    (hEntry : d.entry = c.entry) {f : AnalysisLockEntry → AnalysisLockEntry}
    (hRefs : ∀ e, (f e).refs + (c.refersTo c.entry).toNat =
      e.refs + (d.refersTo c.entry).toNat)
    (hLocked : ∀ e, entries[c.entry]? = some e →
      (f e).locked.toNat + (c.holds c.entry).toNat = e.locked.toNat + (d.holds c.entry).toNat) :
    RefsTally (entries.modify c.entry f) (calls.set i d) := by
  intro entry e he
  have hRefers := countP_set_add (d := d) (LockCall.refersTo entry) hc
  have hHolds := countP_set_add (d := d) (LockCall.holds entry) hc
  rw [List.getElem?_modify] at he
  by_cases hSame : c.entry = entry
  · subst hSame
    obtain ⟨e₀, he₀, rfl⟩ := Option.map_eq_some_iff.mp he
    obtain ⟨h₁, h₂⟩ := h _ _ he₀
    have := hRefs e₀
    have := hLocked e₀ he₀
    simp only [if_true] at hRefers hHolds ⊢
    omega
  · have hOther : ∀ k : LockCall, k.entry = c.entry →
        k.refersTo entry = false ∧ k.holds entry = false := by
      intro k hk
      simp [LockCall.refersTo, LockCall.holds, hk, hSame]
    simp only [if_neg hSame] at he
    obtain ⟨h₁, h₂⟩ := h entry e (by simpa using he)
    simp only [(hOther c rfl).1, (hOther c rfl).2, (hOther d hEntry).1, (hOther d hEntry).2,
      Bool.toNat_false] at hRefers hHolds
    omega

end Counting

section Steps

variable {r : AnalysisLockRegistry} {i : Nat} {c : LockCall} {e : AnalysisLockEntry}

theorem LockCall.mem_set {d : LockCall} {phase : LockCall.Phase} {calls : List LockCall}
    (hc : calls[i]? = some c) (hd : d ∈ calls.set i { c with phase }) :
    d ∈ calls ∨ d = { c with phase } ∧ c ∈ calls :=
  (List.mem_or_eq_of_mem_set hd).imp_right fun h => ⟨h, List.mem_of_getElem? hc⟩

theorem Tracked.init : Tracked newAnalysisLockRegistry where
  tally := by
    intro entry e he
    simp [newAnalysisLockRegistry] at he
  allocated := by simp [newAnalysisLockRegistry]
  mapped := by simp [newAnalysisLockRegistry]
  referred := by simp [newAnalysisLockRegistry]
  keys := by simp [newAnalysisLockRegistry]

/-- A call that is not over goes on and does not end. -/
theorem Tracked.goOn (h : Tracked r) (hc : r.calls[i]? = some c) {phase : LockCall.Phase}
    (hBefore : c.phase ≠ .returned) (hAfter : phase ≠ .returned)
    {f : AnalysisLockEntry → AnalysisLockEntry} (hRefs : ∀ e, (f e).refs = e.refs)
    (hLocked : ∀ e, r.entries[c.entry]? = some e → (f e).locked.toNat + (c.holds c.entry).toNat =
      e.locked.toNat + (LockCall.holds c.entry { c with phase }).toNat) :
    Tracked ((r.modify c.entry f).goOn i c phase) where
  tally := by
    refine RefsTally.goOn (d := { c with phase }) h.tally hc rfl (fun e => ?_) hLocked
    simp [hRefs e, LockCall.refersTo, hBefore, hAfter]
  allocated d hd := by
    rw [AnalysisLockRegistry.goOn, AnalysisLockRegistry.modify, List.length_modify]
    rcases LockCall.mem_set hc hd with hOld | ⟨rfl, hMem⟩
    · exact h.allocated d hOld
    · exact h.allocated c hMem
  mapped d hd hPhase := by
    rcases LockCall.mem_set hc hd with hOld | ⟨rfl, hMem⟩
    · exact h.mapped d hOld hPhase
    · exact h.mapped c hMem hBefore
  referred key entry hKey := by
    have hCount := countP_set_add (d := { c with phase }) (LockCall.refersTo entry) hc
    have hPos := h.referred key entry hKey
    simp only [LockCall.refersTo, hBefore, hAfter, ne_eq, not_false_eq_true] at hCount hPos
    simp only [AnalysisLockRegistry.goOn, AnalysisLockRegistry.modify]
    omega
  keys := h.keys

theorem Tracked.tryLock (h : Tracked r) (hc : r.calls[i]? = some c)
    (he : r.entries[c.entry]? = some e) (hPhase : c.phase = .entered) :
    Tracked (r.tryLock i c e) := by
  have hBefore : c.phase ≠ .returned := by simp [hPhase]
  unfold AnalysisLockRegistry.tryLock
  split
  · have hSame : r = r.modify c.entry id := by simp [AnalysisLockRegistry.modify]
    rw [hSame]
    refine h.goOn hc hBefore (by simp) (fun _ => rfl) fun e' _ => ?_
    simp [LockCall.holds, hPhase]
  · next hFree =>
    refine h.goOn hc hBefore (by simp) (fun _ => rfl) fun e' he' => ?_
    obtain rfl : e = e' := Option.some.inj (he.symm.trans he')
    simp [LockCall.holds, hPhase, hFree]

theorem Tracked.unlock (h : Tracked r) (hc : r.calls[i]? = some c) (hPhase : c.phase = .holding) :
    Tracked (r.unlock i c) := by
  refine h.goOn hc (by simp [hPhase]) (by simp) (fun _ => rfl) fun e he => ?_
  have hHolds : c.holds c.entry = true := by simp [LockCall.holds, hPhase]
  have hPos : 0 < r.calls.countP (LockCall.holds c.entry) :=
    List.countP_pos_iff.mpr ⟨c, List.mem_of_getElem? hc, hHolds⟩
  have hTally := (h.tally _ _ he).2
  have hLocked : e.locked = true := by
    cases hE : e.locked with
    | true => rfl
    | false => rw [hE, Bool.toNat_false] at hTally; omega
  simp [hLocked, LockCall.holds, hPhase]

theorem lookup_of_erase {locks : AList fun _ : String => Nat} {key key' : String} {entry : Nat}
    (h : (locks.erase key').lookup key = some entry) : locks.lookup key = some entry := by
  have hOther : key ≠ key' := by
    rintro rfl
    simp at h
  exact (AList.lookup_erase_ne hOther).symm.trans h

/-- The registry when a call has given its reference back, before the map is looked at. -/
def AnalysisLockRegistry.leave (r : AnalysisLockRegistry) (i : Nat) (c : LockCall) :
    AnalysisLockRegistry :=
  (r.modify c.entry fun e => { e with refs := e.refs - 1 }).goOn i c .returned

/-- The calls that still refer to an entry: one less for the entry of the call that ends. -/
theorem countP_leave (hc : r.calls[i]? = some c) (hBefore : c.phase ≠ .returned) (entry : Nat) :
    (r.leave i c).calls.countP (LockCall.refersTo entry) + (if c.entry = entry then 1 else 0) =
      r.calls.countP (LockCall.refersTo entry) := by
  have hCount := countP_set_add (d := { c with phase := .returned }) (LockCall.refersTo entry) hc
  show (r.calls.set i { c with phase := .returned }).countP _ + _ = _
  by_cases hSame : c.entry = entry <;> simp_all [LockCall.refersTo]

theorem Tracked.tally_leave (h : Tracked r) (hc : r.calls[i]? = some c)
    (hBefore : c.phase ≠ .returned) (hHolds : c.phase ≠ .holding) :
    RefsTally (r.leave i c).entries (r.leave i c).calls := by
  refine RefsTally.goOn (d := { c with phase := .returned }) h.tally hc rfl (fun e => ?_)
    fun e _ => ?_
  · simp [LockCall.refersTo, hBefore]
  · simp [LockCall.holds, hHolds]

theorem Tracked.allocated_leave (h : Tracked r) (hc : r.calls[i]? = some c) :
    ∀ d ∈ (r.leave i c).calls, d.entry < (r.leave i c).entries.length := by
  intro d hd
  rw [AnalysisLockRegistry.leave, AnalysisLockRegistry.goOn, AnalysisLockRegistry.modify,
    List.length_modify]
  rcases LockCall.mem_set hc hd with hOld | ⟨rfl, hMem⟩
  · exact h.allocated d hOld
  · exact h.allocated c hMem

theorem Tracked.mapped_leave (h : Tracked r) (hc : r.calls[i]? = some c) :
    ∀ d ∈ (r.leave i c).calls, d.phase ≠ .returned → r.locks.lookup d.key = some d.entry := by
  intro d hd hNotOver
  rcases LockCall.mem_set hc hd with hOld | ⟨rfl, _⟩
  · exact h.mapped d hOld hNotOver
  · exact absurd rfl hNotOver

/-- The last reference of an entry takes it out of the map. -/
theorem Tracked.leave_last (h : Tracked r) (hc : r.calls[i]? = some c)
    (hBefore : c.phase ≠ .returned) (hHolds : c.phase ≠ .holding)
    (hLast : r.calls.countP (LockCall.refersTo c.entry) = 1) :
    Tracked { r.leave i c with locks := r.locks.erase c.key } := by
  have hMapped : r.locks.lookup c.key = some c.entry :=
    h.mapped c (List.mem_of_getElem? hc) hBefore
  refine ⟨h.tally_leave hc hBefore hHolds, h.allocated_leave hc, fun d hd hNotOver => ?_,
    fun key entry hKey => ?_, fun key key' entry hKey hKey' => ?_⟩
  · have hOther : d.key ≠ c.key := by
      intro hSame
      have hEntry : c.entry = d.entry := by
        have := h.mapped_leave hc d hd hNotOver
        rw [hSame, hMapped] at this
        exact Option.some.inj this
      have hPos : 0 < (r.leave i c).calls.countP (LockCall.refersTo c.entry) :=
        List.countP_pos_iff.mpr ⟨d, hd, by simp [LockCall.refersTo, hEntry, hNotOver]⟩
      have hCount := countP_leave hc hBefore c.entry
      rw [if_pos rfl] at hCount
      omega
    exact (AList.lookup_erase_ne hOther).trans (h.mapped_leave hc d hd hNotOver)
  · have hOther : key ≠ c.key := by
      rintro rfl
      simp at hKey
    have hKey' := (AList.lookup_erase_ne hOther).symm.trans hKey
    have hEntry : c.entry ≠ entry := by
      rintro rfl
      exact hOther (h.keys _ _ _ hKey' hMapped)
    have hCount := countP_leave hc hBefore entry
    have hPos := h.referred key entry hKey'
    rw [if_neg hEntry] at hCount
    show 0 < (r.leave i c).calls.countP (LockCall.refersTo entry)
    omega
  · exact h.keys _ _ _ (lookup_of_erase hKey) (lookup_of_erase hKey')

/-- An entry with other references stays in the map. -/
theorem Tracked.leave_shared (h : Tracked r) (hc : r.calls[i]? = some c)
    (hBefore : c.phase ≠ .returned) (hHolds : c.phase ≠ .holding)
    (hMore : r.calls.countP (LockCall.refersTo c.entry) ≠ 1) : Tracked (r.leave i c) := by
  refine ⟨h.tally_leave hc hBefore hHolds, h.allocated_leave hc, h.mapped_leave hc,
    fun key entry hKey => ?_, h.keys⟩
  have hCount := countP_leave hc hBefore entry
  have hPos := h.referred key entry hKey
  by_cases hSame : c.entry = entry
  · subst hSame
    rw [if_pos rfl] at hCount
    omega
  · rw [if_neg hSame] at hCount
    omega

theorem Tracked.releaseRef (h : Tracked r) (hc : r.calls[i]? = some c)
    (he : r.entries[c.entry]? = some e) (hPhase : c.phase = .refused ∨ c.phase = .unlocked) :
    Tracked (r.releaseRef i c e) := by
  have hBefore : c.phase ≠ .returned := by rcases hPhase with h | h <;> simp [h]
  have hHolds : c.phase ≠ .holding := by rcases hPhase with h | h <;> simp [h]
  have hMapped : r.locks.lookup c.key = some c.entry :=
    h.mapped c (List.mem_of_getElem? hc) hBefore
  have hRefs := (h.tally _ _ he).1
  unfold AnalysisLockRegistry.releaseRef
  dsimp only
  split
  · next hLast => exact h.leave_last hc hBefore hHolds (by omega)
  · next hMore =>
    exact h.leave_shared hc hBefore hHolds fun hOne => hMore ⟨by omega, hMapped⟩

theorem Tracked.entry_lt (h : Tracked r) {key : String} {entry : Nat}
    (hKey : r.locks.lookup key = some entry) : entry < r.entries.length := by
  obtain ⟨d, hd, hRefers⟩ := List.countP_pos_iff.mp (h.referred key entry hKey)
  rw [LockCall.refersTo, decide_eq_true_eq] at hRefers
  exact hRefers.1 ▸ h.allocated d hd

/-- A call joins the others and refers to the entry of its key. -/
theorem RefsTally.enter {entries : List AnalysisLockEntry} {calls : List LockCall}
    (h : RefsTally entries calls) (key : String) (entry : Nat) :
    RefsTally (entries.modify entry fun e => { e with refs := e.refs + 1 })
      (calls ++ [⟨key, entry, .entered⟩]) := by
  intro p e he
  rw [List.getElem?_modify] at he
  obtain ⟨e₀, he₀, rfl⟩ := Option.map_eq_some_iff.mp he
  obtain ⟨hRefs, hLocked⟩ := h p e₀ he₀
  by_cases hSame : entry = p <;>
    simp [hSame, LockCall.refersTo, LockCall.holds, ← hRefs, ← hLocked]

/-- A new entry is not locked and no call refers to it. -/
theorem Tracked.tally_new (h : Tracked r) :
    RefsTally (r.entries ++ [({} : AnalysisLockEntry)]) r.calls := by
  intro p e he
  by_cases hp : p < r.entries.length
  · rw [List.getElem?_append_left hp] at he
    exact h.tally p e he
  · have hNone : ∀ d ∈ r.calls, d.entry ≠ p := fun d hd hEq => hp (hEq ▸ h.allocated d hd)
    rw [List.getElem?_append_right (by omega)] at he
    obtain ⟨_, rfl⟩ := List.getElem?_eq_some_iff.mp he
    have hRefers : r.calls.countP (LockCall.refersTo p) = 0 :=
      List.countP_eq_zero.mpr fun d hd => by simp [LockCall.refersTo, hNone d hd]
    have hHolds : r.calls.countP (LockCall.holds p) = 0 :=
      List.countP_eq_zero.mpr fun d hd => by simp [LockCall.holds, hNone d hd]
    simp [hRefers, hHolds]

theorem Tracked.enter (h : Tracked r) (key : String) : Tracked (r.enter key) := by
  unfold AnalysisLockRegistry.enter AnalysisLockRegistry.entryOf
  cases hKey : r.locks.lookup key with
  | some entry =>
    refine ⟨h.tally.enter key entry, fun d hd => ?_, fun d hd hPhase => ?_, fun k p hk => ?_,
      h.keys⟩
    · simp only [AnalysisLockRegistry.modify, List.length_modify]
      rcases List.mem_append.mp hd with hOld | hNew
      · exact h.allocated d hOld
      · rw [List.mem_singleton.mp hNew]
        exact h.entry_lt hKey
    · rcases List.mem_append.mp hd with hOld | hNew
      · exact h.mapped d hOld hPhase
      · rw [List.mem_singleton.mp hNew]
        exact hKey
    · have := h.referred k p hk
      rw [List.countP_append]
      exact Nat.lt_add_right _ this
  | none =>
    have hOther : ∀ k p, r.locks.lookup k = some p → k ≠ key := by
      rintro k p hk rfl
      rw [hKey] at hk
      cases hk
    have hLookup : ∀ k p, (r.locks.insert key r.entries.length).lookup k = some p →
        k = key ∧ p = r.entries.length ∨ r.locks.lookup k = some p := by
      intro k p hk
      by_cases hSame : k = key
      · subst hSame
        rw [AList.lookup_insert] at hk
        exact .inl ⟨rfl, (Option.some.inj hk).symm⟩
      · exact .inr ((AList.lookup_insert_ne hSame).symm.trans hk)
    refine ⟨h.tally_new.enter key _, fun d hd => ?_, fun d hd hPhase => ?_, fun k p hk => ?_,
      fun k k' p hk hk' => ?_⟩
    · simp only [AnalysisLockRegistry.modify, List.length_modify, List.length_append]
      rcases List.mem_append.mp hd with hOld | hNew
      · exact Nat.lt_add_right _ (h.allocated d hOld)
      · rw [List.mem_singleton.mp hNew]
        exact Nat.lt_succ_self _
    · rcases List.mem_append.mp hd with hOld | hNew
      · have hMapped := h.mapped d hOld hPhase
        exact (AList.lookup_insert_ne (hOther _ _ hMapped)).trans hMapped
      · rw [List.mem_singleton.mp hNew]
        exact AList.lookup_insert _
    · rw [List.countP_append]
      rcases hLookup k p hk with ⟨rfl, rfl⟩ | hOld
      · simp [LockCall.refersTo]
      · exact Nat.lt_add_right _ (h.referred k p hOld)
    · rcases hLookup k p hk with ⟨rfl, rfl⟩ | hOld <;>
        rcases hLookup k' _ hk' with ⟨rfl, hp⟩ | hOld'
      · rfl
      · exact absurd (h.entry_lt hOld') (Nat.lt_irrefl _)
      · exact absurd (hp ▸ h.entry_lt hOld) (Nat.lt_irrefl _)
      · exact h.keys k k' p hOld hOld'

theorem Tracked.step {a : LockAction} {t : AnalysisLockRegistry} (h : Tracked r)
    (hStep : analysisLocks.step r a = some t) : Tracked t := by
  cases a with
  | tryAcquire key =>
    cases hStep
    exact h.enter key
  | tryLock i =>
    simp only [analysisLocks, Option.bind_eq_bind, Option.bind_eq_some_iff] at hStep
    obtain ⟨c, hc, e, he, hStep⟩ := hStep
    split at hStep
    · next hPhase =>
      cases hStep
      exact h.tryLock hc he hPhase
    · cases hStep
  | unlock i =>
    simp only [analysisLocks, Option.bind_eq_bind, Option.bind_eq_some_iff] at hStep
    obtain ⟨c, hc, hStep⟩ := hStep
    split at hStep
    · next hPhase =>
      cases hStep
      exact h.unlock hc hPhase
    · cases hStep
  | releaseRef i =>
    simp only [analysisLocks, Option.bind_eq_bind, Option.bind_eq_some_iff] at hStep
    obtain ⟨c, hc, e, he, hStep⟩ := hStep
    split at hStep
    · next hPhase =>
      cases hStep
      exact h.releaseRef hc he hPhase
    · cases hStep

theorem Tracked.run {as : List LockAction}
    (h : analysisLocks.run newAnalysisLockRegistry as = some r) : Tracked r :=
  (Machine.Runs.of_run h).invariant (fun _ _ _ _ hStep hs => hs.step hStep) Tracked.init

/-- The entry is locked or counts a reference. -/
def AnalysisLockRegistry.InUse (r : AnalysisLockRegistry) (entry : Nat) : Prop :=
  ∃ e, r.entries[entry]? = some e ∧ (e.locked = true ∨ e.refs ≠ 0)

/-- A call that is not over refers to an entry in use, and to every such entry there is one. -/
theorem Tracked.inUse_iff (h : Tracked r) (entry : Nat) :
    r.InUse entry ↔ ∃ d ∈ r.calls, d.phase ≠ .returned ∧ d.entry = entry := by
  have hCount : (∃ d ∈ r.calls, d.phase ≠ .returned ∧ d.entry = entry) ↔
      0 < r.calls.countP (LockCall.refersTo entry) := by
    simp [List.countP_pos_iff, LockCall.refersTo, and_comm]
  have hHolds : r.calls.countP (LockCall.holds entry) ≤
      r.calls.countP (LockCall.refersTo entry) := by
    refine List.countP_mono_left fun d _ hd => ?_
    simp only [LockCall.holds, LockCall.refersTo, decide_eq_true_eq] at hd ⊢
    exact ⟨hd.1, by simp [hd.2]⟩
  rw [hCount]
  constructor
  · rintro ⟨e, he, hLocked | hRefs⟩
    · have := (h.tally _ _ he).2
      rw [hLocked, Bool.toNat_true] at this
      omega
    · have := (h.tally _ _ he).1
      omega
  · intro hPos
    obtain ⟨d, hd, -, rfl⟩ := hCount.mpr hPos
    have he := List.getElem?_eq_getElem (h.allocated d hd)
    exact ⟨_, he, .inr (by have := (h.tally _ _ he).1; omega)⟩

/-- The map loses a key only in the section that gives back the last reference to its entry. -/
theorem lookup_step {a : LockAction} {t : AnalysisLockRegistry} {key : String} {entry : Nat}
    (hStep : analysisLocks.step r a = some t) (hKey : r.locks.lookup key = some entry) :
    t.locks.lookup key = some entry ∨ ∃ e, t.entries[entry]? = some e ∧ e.refs = 0 := by
  cases a with
  | tryAcquire key' =>
    cases hStep
    left
    unfold AnalysisLockRegistry.enter AnalysisLockRegistry.entryOf
    cases hNew : r.locks.lookup key' with
    | some entry' => exact hKey
    | none =>
      have hOther : key ≠ key' := by
        rintro rfl
        rw [hNew] at hKey
        cases hKey
      exact (AList.lookup_insert_ne hOther).trans hKey
  | tryLock i =>
    simp only [analysisLocks, Option.bind_eq_bind, Option.bind_eq_some_iff] at hStep
    obtain ⟨c, hc, e, he, hStep⟩ := hStep
    split at hStep
    · cases hStep
      unfold AnalysisLockRegistry.tryLock
      split <;> exact .inl hKey
    · cases hStep
  | unlock i =>
    simp only [analysisLocks, Option.bind_eq_bind, Option.bind_eq_some_iff] at hStep
    obtain ⟨c, hc, hStep⟩ := hStep
    split at hStep
    · cases hStep
      exact .inl hKey
    · cases hStep
  | releaseRef i =>
    simp only [analysisLocks, Option.bind_eq_bind, Option.bind_eq_some_iff] at hStep
    obtain ⟨c, hc, e, he, hStep⟩ := hStep
    split at hStep
    · cases hStep
      unfold AnalysisLockRegistry.releaseRef
      simp only
      split
      · next hLast =>
        by_cases hSame : key = c.key
        · subst hSame
          obtain rfl : entry = c.entry := Option.some.inj (hKey.symm.trans hLast.2)
          refine .inr ⟨{ e with refs := e.refs - 1 }, ?_, hLast.1⟩
          show (r.entries.modify c.entry _)[c.entry]? = _
          rw [List.getElem?_modify_eq, he]
          rfl
        · exact .inl ((AList.lookup_erase_ne hSame).trans hKey)
      · exact .inl hKey
    · cases hStep

/-- Two calls that hold the locks of one key are one call. -/
theorem Tracked.holder_unique (h : Tracked r) {i j : Nat} {c d : LockCall}
    (hi : r.calls[i]? = some c) (hj : r.calls[j]? = some d) (hc : c.phase = .holding)
    (hd : d.phase = .holding) (hKey : c.key = d.key) : i = j := by
  by_contra hNe
  have hEntry : c.entry = d.entry := by
    have hMapped := h.mapped c (List.mem_of_getElem? hi) (by simp [hc])
    rw [hKey, h.mapped d (List.mem_of_getElem? hj) (by simp [hd])] at hMapped
    exact (Option.some.inj hMapped).symm
  have hLt := h.allocated c (List.mem_of_getElem? hi)
  have hTally := (h.tally _ _ (List.getElem?_eq_getElem hLt)).2
  have hAtMost := Bool.toNat_le r.entries[c.entry].locked
  have hCount := countP_set_add (d := { c with phase := .returned }) (LockCall.holds c.entry) hi
  have hRest : 0 < (r.calls.set i { c with phase := .returned }).countP
      (LockCall.holds c.entry) := by
    refine List.countP_pos_iff.mpr ⟨d, ?_, by simp [LockCall.holds, hEntry, hd]⟩
    exact List.mem_of_getElem? ((List.getElem?_set_ne hNe).trans hj)
  have hOne : (c.holds c.entry).toNat = 1 := by simp [LockCall.holds, hc]
  have hNone : (LockCall.holds c.entry { c with phase := .returned }).toNat = 0 := by
    simp [LockCall.holds]
  omega

end Steps

/-- In every interleaving of the critical sections of any calls, at most one call holds the lock of
a key; the map gives a call that refers to an entry that entry, and no step takes an entry in use
out of the map; and when all calls are over the map is empty. -/
theorem analysisLocks_exclusive {as : List LockAction} {r : AnalysisLockRegistry}
    (hRun : analysisLocks.run newAnalysisLockRegistry as = some r) :
    (∀ (i j : Nat) (c d : LockCall), r.calls[i]? = some c → r.calls[j]? = some d →
      c.phase = .holding → d.phase = .holding → c.key = d.key → i = j) ∧
    (∀ c ∈ r.calls, c.phase ≠ .returned → r.locks.lookup c.key = some c.entry) ∧
    (∀ a t key entry, analysisLocks.step r a = some t → r.locks.lookup key = some entry →
      t.InUse entry → t.locks.lookup key = some entry) ∧
    ((∀ c ∈ r.calls, c.phase = .returned) → r.locks = ∅) := by
  have h := Tracked.run hRun
  refine ⟨fun i j c d hi hj hc hd hKey => ?_, h.mapped, fun a t key entry hStep hKey hUse => ?_,
    fun hOver => ?_⟩
  · exact h.holder_unique hi hj hc hd hKey
  · rcases lookup_step hStep hKey with hKept | ⟨e, he, hZero⟩
    · exact hKept
    · have ht := h.step hStep
      obtain ⟨d, hd, hPhase, hEntry⟩ := (ht.inUse_iff entry).mp hUse
      have hPos : 0 < t.calls.countP (LockCall.refersTo entry) :=
        List.countP_pos_iff.mpr ⟨d, hd, by simp [LockCall.refersTo, hEntry, hPhase]⟩
      have := (ht.tally _ _ he).1
      omega
  · refine AList.ext (List.eq_nil_iff_forall_not_mem.mpr ?_)
    rintro ⟨key, entry⟩ hMem
    have hKey := AList.mem_lookup_iff.mpr hMem
    obtain ⟨d, hd, hRefers⟩ := List.countP_pos_iff.mp (h.referred key entry hKey)
    simp [LockCall.refersTo, hOver d hd] at hRefers

/-- Two calls for a lesson and one for another: the second is refused, and its reference goes before
the holder's. -/
theorem analysisLocks_exclusive_three : ∃ r, analysisLocks.run newAnalysisLockRegistry
    [.tryAcquire "a", .tryAcquire "a", .tryLock 1, .tryAcquire "b", .tryLock 0, .tryLock 2,
      .unlock 1, .releaseRef 0, .releaseRef 1, .unlock 2, .releaseRef 2] = some r ∧
    r.locks = ∅ := by
  obtain ⟨r, hRun, hOver⟩ : ∃ r ∈ analysisLocks.run newAnalysisLockRegistry
      [.tryAcquire "a", .tryAcquire "a", .tryLock 1, .tryAcquire "b", .tryLock 0, .tryLock 2,
        .unlock 1, .releaseRef 0, .releaseRef 1, .unlock 2, .releaseRef 2],
      ∀ c ∈ r.calls, c.phase = .returned := by decide +kernel
  exact ⟨r, hRun, (analysisLocks_exclusive hRun).2.2.2 hOver⟩

end Richter.Lessons
