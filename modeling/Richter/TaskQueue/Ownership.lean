import Richter.Lib.Lease
import Richter.TaskQueue.Worker

/-! Which goroutine a write to a task row comes from.  The row names the worker and not the claim,
so the check of the worker's id stands for a check of the claim as long as no worker claims a row
again while its goroutine of an earlier claim still runs. -/

namespace Richter.TaskQueue

open Lib

/-- The rows as leases of the workers, whose handles are the claims. -/
def State.lease (s : State) : Lease Nat UUID UUID where
  holder := holder s.tasks
  latest := s.current
  user c := (s.goroutines[c]?).bind fun g =>
    if g.phase.live then some (g.workerId, g.taskId) else none

/-- A worker that claims has no live goroutine of an earlier claim of the row it takes. -/
def freshClaim (s : State) : Action → Bool
  | .claim workerId taskTypes _ locked =>
      (claimCandidate taskTypes locked s.tasks).all fun r => s.goroutines.all fun g =>
        !(g.workerId = workerId && g.taskId = r.id && g.phase.live)
  | _ => true

/-- If the action is a write of a goroutine, the rows that it changes are those whose most recent
claim is the goroutine's. -/
def OwnedWrite (s : State) (a : Action) (t : State) : Prop :=
  ∀ c wr now, a = .write c wr now → ∀ id, t.tasks.find id ≠ s.tasks.find id →
    s.current id = some c

section Lease

variable {s t : State}

theorem lease_user_eq_some {c : Nat} {w id : UUID} :
    s.lease.user c = some (w, id) ↔
      ∃ g, s.goroutines[c]? = some g ∧ g.phase.live = true ∧ g.workerId = w ∧ g.taskId = id := by
  simp [State.lease, Option.bind_eq_some_iff]

theorem Frame.sound {a : Action} (hFrame : Frame a s t) (h : s.lease.Sound) : t.lease.Sound := by
  refine h.weaken (fun id w => hFrame.holder id w) hFrame.current ?_
  rintro c ⟨w, id⟩ hc
  obtain ⟨g', hg', hLive, rfl, rfl⟩ := lease_user_eq_some.mp hc
  obtain ⟨g, hg, hAdv, _⟩ := hFrame.goroutine c g' hg'
  have hLive' : g.phase.live = true := by
    rw [Phase.live_iff] at hLive ⊢
    exact hAdv.rank.trans hLive
  exact lease_user_eq_some.mpr ⟨g, hg, hLive', hAdv.worker.symm, hAdv.task.symm⟩

theorem freshClaim_fresh {workerId : UUID} {taskTypes : List String} {now : Timestamptz}
    {locked : UUID → Bool} {r : Task} (hr : claimCandidate taskTypes locked s.tasks = some r)
    (h : freshClaim s (.claim workerId taskTypes now locked) = true) :
    s.lease.Fresh workerId r.id := by
  intro c hc
  obtain ⟨g, hg, hLive, hw, hid⟩ := lease_user_eq_some.mp hc
  rw [freshClaim, hr, Option.all_some, List.all_eq_true] at h
  have := h g (List.mem_of_getElem? hg)
  simp [hw, hid, hLive] at this

theorem claim_sound {workerId : UUID} {taskTypes : List String} {now : Timestamptz}
    {locked : UUID → Bool} (hStep : step s (.claim workerId taskTypes now locked) = some t)
    (hFresh : freshClaim s (.claim workerId taskTypes now locked) = true)
    (h : s.lease.Sound) : t.lease.Sound := by
  obtain ⟨id, ⟨r, hr, rfl⟩, hHolder, hGoroutines, hCurrent, _⟩ := step_claim hStep
  refine h.grant (freshClaim_fresh hr hFresh) hHolder (n := s.goroutines.length) ?_ ?_
  · intro j
    simp only [State.lease, hCurrent, Function.update_apply]
  · intro c
    simp only [State.lease, hGoroutines, List.getElem?_append]
    by_cases hc : c < s.goroutines.length
    · rw [if_pos hc, if_neg hc.ne]
    · rw [if_neg hc]
      by_cases hEq : c = s.goroutines.length
      · simp [hEq, Phase.live]
      · have hOut : s.goroutines[c]? = none := List.getElem?_eq_none (by omega)
        have hOne : ([⟨workerId, r.id, .claimed, false⟩] : List Goroutine)[c -
            s.goroutines.length]? = none :=
          List.getElem?_eq_none (by simp only [List.length_singleton]; omega)
        rw [if_neg hEq, hOut, hOne]

theorem step_sound {a : Action} (hStep : step s a = some t) (hFresh : freshClaim s a = true)
    (h : s.lease.Sound) : t.lease.Sound := by
  cases hClaim : a.isClaim with
  | false => exact (step_frame hStep hClaim).sound h
  | true =>
    cases a with
    | claim workerId taskTypes now locked => exact claim_sound hStep hFresh h
    | _ => cases hClaim

/-- A sound lease lets a write through only when it comes from the row's most recent claim. -/
theorem ownedWrite_of_sound {a : Action} (h : s.lease.Sound) (hStep : step s a = some t) :
    OwnedWrite s a t := by
  rintro c wr now rfl id hNe
  simp only [step, Option.map_eq_some_iff, goroutineIn_eq_some] at hStep
  obtain ⟨g, ⟨hg, hp⟩, rfl⟩ := hStep
  obtain ⟨rfl, hHolder⟩ := holder_of_exec_ne (wr.owner_eq g now) hNe
  exact h c g.workerId g.taskId
    (lease_user_eq_some.mpr ⟨g, hg, by rw [hp]; rfl, rfl, rfl⟩) hHolder

end Lease

theorem init_sound : State.init.lease.Sound := by
  intro c w id hc _
  obtain ⟨g, hg, _⟩ := lease_user_eq_some.mp hc
  cases hg

/-- In every run in which no worker claims a row while a goroutine of its own earlier claim of the
row is live, a goroutine's write changes a row only if the row's most recent claim is the
goroutine's. -/
theorem writes_come_from_current_claim {s t : State} {as : List Action} {a : Action}
    (hRun : worker.Runs (fun s a => freshClaim s a = true) .init as s)
    (hStep : worker.step s a = some t) : OwnedWrite s a t :=
  ownedWrite_of_sound (hRun.invariant (fun _ _ _ hFresh hStep => step_sound hStep hFresh)
    init_sound) hStep

/-- A task is claimed, reaped after a stall, and claimed again by another worker; then the first
goroutine wakes up. -/
def stolenTrace : List Action :=
  [.stmt (.insertTask ⟨1, 10, none, "transcribe", none, 20⟩ 0),
    .claim 7 ["transcribe"] 1 fun _ => false,
    .spawnTask 0,
    .stmt (.reapStaleProcessingBatch 50 30 40 fun _ => false),
    .claim 8 ["transcribe"] 41 fun _ => false,
    .spawnTask 1]

theorem writes_come_from_current_claim_stolenTrace :
    ∃ s t, worker.run .init stolenTrace = some s ∧
      worker.step s (.write 0 (.markSucceeded (some [1])) 42) = some t ∧
      OwnedWrite s (.write 0 (.markSucceeded (some [1])) 42) t :=
  ⟨_, _, rfl, rfl,
    @writes_come_from_current_claim _ _ stolenTrace _ (Machine.Runs.of_restrict rfl) rfl⟩

/-- The same worker claims the reaped task again while its first goroutine still runs. -/
def reclaimedTrace : List Action :=
  [.stmt (.insertTask ⟨1, 10, none, "transcribe", none, 20⟩ 0),
    .claim 7 ["transcribe"] 1 fun _ => false,
    .spawnTask 0,
    .stmt (.reapStaleProcessingBatch 50 30 40 fun _ => false),
    .claim 7 ["transcribe"] 41 fun _ => false,
    .spawnTask 1]

/-- The first goroutine's `MarkSucceeded` then finishes the row of the second claim. -/
theorem stale_claim_finishes_reclaimed_task :
    ¬ ∀ (as : List Action) (s : State) (a : Action) (t : State),
      worker.run .init as = some s → worker.step s a = some t → OwnedWrite s a t := by
  intro h
  have hWrite := h reclaimedTrace _ (.write 0 (.markSucceeded (some [1])) 42) _ rfl rfl
    0 _ _ rfl 1 (by decide)
  revert hWrite
  decide

end Richter.TaskQueue
