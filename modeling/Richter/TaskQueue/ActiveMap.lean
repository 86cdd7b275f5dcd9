import Richter.TaskQueue.Worker

/-! The map `active` of a worker.  It is keyed by the task alone, stored to by `spawnTask`, and
deleted from by the goroutines that end and by `heartbeatLoop`, so an entry belongs to the running
goroutine only while a worker has at most one goroutine for a task. -/

namespace Richter.TaskQueue

open Lib

/-- A worker that claims has no goroutine of an earlier claim of the row it takes, not even one
that has only its deferred delete left, and its `heartbeatLoop` is not about to delete the row's
entry. -/
def soleClaim (s : State) : Action → Bool
  | .claim workerId taskTypes _ locked =>
      (claimCandidate taskTypes locked s.tasks).all fun r =>
        (s.goroutines.all fun g =>
          !(g.workerId = workerId && g.taskId = r.id && g.phase ≠ .exited)) &&
        (s.beat workerId).removes ≠ some r.id
  | _ => true

/-- Every row that is processing under a worker and whose most recent claim's goroutine runs has
that goroutine's entry in the worker's map. -/
def Tracked (s : State) : Prop :=
  ∀ c g, s.goroutines[c]? = some g → g.phase = .running → s.current g.taskId = some c →
    holder s.tasks g.taskId = some g.workerId → s.active g.workerId g.taskId = some c

/-- A worker has one goroutine for a task at most, the map has the entry of each that runs and
owns its row, and `heartbeatLoop` deletes the entries of lost rows only. -/
structure Registered (s : State) : Prop where
  unique : ∀ (c d : Nat) (g h : Goroutine), s.goroutines[c]? = some g →
    s.goroutines[d]? = some h → g.workerId = h.workerId → g.taskId = h.taskId →
    g.phase ≠ .exited → h.phase ≠ .exited → c = d
  entry : ∀ (c : Nat) (g : Goroutine), s.goroutines[c]? = some g → g.phase = .running →
    holder s.tasks g.taskId = some g.workerId → s.active g.workerId g.taskId = some c
  lost : ∀ w id, (s.beat w).removes = some id → holder s.tasks id ≠ some w

theorem Registered.tracked {s : State} (h : Registered s) : Tracked s :=
  fun c g hg hp _ hHolder => h.entry c g hg hp hHolder

section Steps

variable {s t : State} {a : Action}

theorem Goroutine.Advances.not_exited {g g' : Goroutine} (h : g.Advances g')
    (hp : g'.phase ≠ .exited) : g.phase ≠ .exited := by
  rw [ne_eq, Phase.eq_exited_iff] at hp ⊢
  have := h.rank
  omega

theorem Registered.frame_unique (h : Registered s) (hFrame : Frame a s t) (c d : Nat)
    (g k : Goroutine) (hg : t.goroutines[c]? = some g) (hk : t.goroutines[d]? = some k)
    (hWorker : g.workerId = k.workerId) (hTask : g.taskId = k.taskId) (hgp : g.phase ≠ .exited)
    (hkp : k.phase ≠ .exited) : c = d := by
  obtain ⟨g₁, hg₁, hgAdv, _⟩ := hFrame.goroutine c g hg
  obtain ⟨k₁, hk₁, hkAdv, _⟩ := hFrame.goroutine d k hk
  refine h.unique c d g₁ k₁ hg₁ hk₁ ?_ ?_ (hgAdv.not_exited hgp) (hkAdv.not_exited hkp)
  · rw [← hgAdv.worker, ← hkAdv.worker, hWorker]
  · rw [← hgAdv.task, ← hkAdv.task, hTask]

/-- A step that starts no goroutine, keeps the entries of those that run and own their rows, and
lets `heartbeatLoop` remove only what is lost keeps the map right. -/
theorem Registered.frame (h : Registered s) (hFrame : Frame a s t)
    (hSpawn : ∀ c, a ≠ .spawnTask c)
    (hActive : ∀ (c : Nat) (g : Goroutine), t.goroutines[c]? = some g → g.phase = .running →
      holder s.tasks g.taskId = some g.workerId →
      t.active g.workerId g.taskId = s.active g.workerId g.taskId)
    (hBeat : ∀ w id, (t.beat w).removes = some id →
      (s.beat w).removes = some id ∨ holder s.tasks id ≠ some w) : Registered t where
  unique := h.frame_unique hFrame
  entry := by
    intro c g' hg' hp hHolder
    obtain ⟨g, hg, hAdv, hRunning⟩ := hFrame.goroutine c g' hg'
    have hp₁ : g.phase = .running := (hRunning hp).resolve_right (hSpawn c)
    have hHolder₁ := hFrame.holder _ _ hHolder
    rw [hActive c g' hg' hp hHolder₁, hAdv.worker, hAdv.task]
    exact h.entry c g hg hp₁ (hAdv.worker ▸ hAdv.task ▸ hHolder₁)
  lost := by
    intro w id hRemoves hHolder
    obtain hOld | hLost := hBeat w id hRemoves
    · exact h.lost w id hOld (hFrame.holder _ _ hHolder)
    · exact hLost (hFrame.holder _ _ hHolder)

theorem removes_setBeat {w v : UUID} {b : Beat} {id : UUID}
    (h : ((s.setBeat w b).beat v).removes = some id) :
    (v = w ∧ b.removes = some id) ∨ (s.beat v).removes = some id := by
  simp only [State.setBeat, Function.update_apply] at h
  split at h
  · next hv => exact .inl ⟨hv, h⟩
  · exact .inr h

/-- A beat that is about to remove no more than the one before it. -/
theorem removes_of_setBeat {w v : UUID} {b : Beat} {id : UUID}
    (hBeat : ∀ k, b.removes = some k → (s.beat w).removes = some k)
    (h : ((s.setBeat w b).beat v).removes = some id) : (s.beat v).removes = some id := by
  obtain ⟨rfl, hNew⟩ | hOld := removes_setBeat h
  · exact hBeat id hNew
  · exact hOld

theorem setActive_of_ne {w v : UUID} {id k : UUID} {c : Option Nat} (h : ¬(v = w ∧ k = id)) :
    (s.setActive w id c).active v k = s.active v k := by
  simp only [State.setActive, Function.update_apply]
  by_cases hv : v = w
  · have hk : k ≠ id := fun hk => h ⟨hv, hk⟩
    rw [if_pos hv, hv, Function.update_of_ne hk]
  · rw [if_neg hv]

theorem setActive_self (w id : UUID) (c : Option Nat) :
    (s.setActive w id c).active w id = c := by
  simp [State.setActive]

theorem soleClaim_spec {workerId : UUID} {taskTypes : List String} {now : Timestamptz}
    {locked : UUID → Bool} {r : Task} (hr : claimCandidate taskTypes locked s.tasks = some r)
    (h : soleClaim s (.claim workerId taskTypes now locked) = true) :
    (∀ (c : Nat) (g : Goroutine), s.goroutines[c]? = some g → g.workerId = workerId →
      g.taskId = r.id → g.phase = .exited) ∧ (s.beat workerId).removes ≠ some r.id := by
  rw [soleClaim, hr, Option.all_some, Bool.and_eq_true, List.all_eq_true] at h
  refine ⟨fun c g hg hw hid => ?_, of_decide_eq_true h.2⟩
  have := h.1 g (List.mem_of_getElem? hg)
  simpa [hw, hid] using this

theorem claim_registered {workerId : UUID} {taskTypes : List String} {now : Timestamptz}
    {locked : UUID → Bool} (hStep : step s (.claim workerId taskTypes now locked) = some t)
    (hSole : soleClaim s (.claim workerId taskTypes now locked) = true)
    (h : Registered s) : Registered t := by
  obtain ⟨id, ⟨r, hr, rfl⟩, hHolder, hGoroutines, _, hActive, hBeat⟩ := step_claim hStep
  obtain ⟨hExited, hRemoves⟩ := soleClaim_spec hr hSole
  -- A goroutine of `t` is one of `s`, or the new one, which no other goroutine in use resembles.
  have hOld : ∀ (c : Nat) (g : Goroutine), t.goroutines[c]? = some g →
      s.goroutines[c]? = some g ∨
        (c = s.goroutines.length ∧ g = ⟨workerId, r.id, .claimed, false⟩) := by
    intro c g hg
    rw [hGoroutines, List.getElem?_append] at hg
    split at hg
    · exact .inl hg
    · next hc =>
      obtain ⟨hLt, hEq⟩ := List.getElem?_eq_some_iff.mp hg
      rw [List.length_singleton] at hLt
      rw [List.getElem_singleton] at hEq
      exact .inr ⟨by omega, hEq.symm⟩
  refine ⟨fun c d g k hg hk hWorker hTask hgp hkp => ?_, fun c g hg hp hOwned => ?_, ?_⟩
  · obtain hg | ⟨hc, rfl⟩ := hOld c g hg <;> obtain hk | ⟨hd, rfl⟩ := hOld d k hk
    · exact h.unique c d g k hg hk hWorker hTask hgp hkp
    · exact absurd (hExited c g hg hWorker hTask) hgp
    · exact absurd (hExited d k hk hWorker.symm hTask.symm) hkp
    · rw [hc, hd]
  · obtain hg | ⟨_, rfl⟩ := hOld c g hg
    · rw [hHolder] at hOwned
      rw [hActive]
      split at hOwned
      · next hid =>
        have := hExited c g hg (Option.some.inj hOwned).symm hid
        rw [this] at hp
        cases hp
      · exact h.entry c g hg hp hOwned
    · cases hp
  · intro w id hRem hOwned
    rw [hBeat] at hRem
    rw [hHolder] at hOwned
    split at hOwned
    · next hid =>
      cases hOwned
      exact hRemoves (hid ▸ hRem)
    · exact h.lost w id hRem hOwned

theorem spawnTask_registered {c : Nat} (hStep : step s (.spawnTask c) = some t)
    (h : Registered s) : Registered t := by
  have hFrame := step_frame hStep rfl
  simp only [step, Option.map_eq_some_iff, goroutineIn_eq_some] at hStep
  obtain ⟨g, ⟨hg, hp⟩, rfl⟩ := hStep
  refine ⟨h.frame_unique hFrame, fun d k' hk' hkp hOwned => ?_, fun w id => h.lost w id⟩
  obtain ⟨k, hk, hAdv, hRunning⟩ := hFrame.goroutine d k' hk'
  by_cases hSame : k'.workerId = g.workerId ∧ k'.taskId = g.taskId
  · have hkp₁ : k.phase ≠ .exited := hAdv.not_exited (by rw [hkp]; decide)
    have hdc : d = c := h.unique d c k g hk hg (hAdv.worker ▸ hSame.1) (hAdv.task ▸ hSame.2)
      hkp₁ (by rw [hp]; decide)
    rw [hSame.1, hSame.2, setActive_self, hdc]
  · rw [setActive_of_ne hSame]
    obtain hkp₁ | hSpawn := hRunning hkp
    · rw [hAdv.worker, hAdv.task]
      exact h.entry d k hk hkp₁ (hAdv.worker ▸ hAdv.task ▸ hFrame.holder _ _ hOwned)
    · cases hSpawn
      rw [hg, Option.some.injEq] at hk
      exact absurd ⟨hk ▸ hAdv.worker, hk ▸ hAdv.task⟩ hSame

theorem exit_registered {c : Nat} (hStep : step s (.exit c) = some t) (h : Registered s) :
    Registered t := by
  have hFrame := step_frame hStep rfl
  simp only [step, Option.map_eq_some_iff, goroutineIn_eq_some] at hStep
  obtain ⟨g, ⟨hg, hp⟩, rfl⟩ := hStep
  refine h.frame hFrame (by simp) (fun d k' hk' hkp _ => setActive_of_ne ?_) fun _ _ => .inl
  -- No other goroutine of the worker has this task, so the entry deleted is this one's.
  rintro ⟨hWorker, hTask⟩
  obtain ⟨k, hk, hAdv, hRunning⟩ := hFrame.goroutine d k' hk'
  have hkp₁ : k.phase = .running := (hRunning hkp).resolve_right (by simp)
  have hdc : d = c := h.unique d c k g hk hg (hAdv.worker ▸ hWorker) (hAdv.task ▸ hTask)
    (by rw [hkp₁]; decide) (by rw [hp]; decide)
  rw [hdc, hg, Option.some.injEq] at hk
  rw [hk, hkp₁] at hp
  cases hp

theorem heartbeatTask_registered (hStep : step s (.heartbeatTask workerId now) = some t)
    (h : Registered s) : Registered t := by
  have hFrame := step_frame hStep rfl
  simp only [step] at hStep
  split at hStep
  · next taskId c _ =>
    cases hStep
    refine h.frame hFrame (by simp) (fun _ _ _ _ _ => rfl) fun w id hRem => ?_
    obtain ⟨rfl, hNew⟩ | hOld := removes_setBeat hRem
    · split at hNew
      · next hZero =>
        cases hNew
        exact .inr (holder_of_heartbeatTask_zero hZero)
      · cases hNew
    · exact .inl hOld
  · cases hStep

theorem deleteActive_registered (hStep : step s (.deleteActive workerId) = some t)
    (h : Registered s) : Registered t := by
  have hFrame := step_frame hStep rfl
  simp only [step] at hStep
  split at hStep
  · next taskId hBeat =>
    cases hStep
    refine h.frame hFrame (by simp) (fun c g _ _ hOwned => setActive_of_ne ?_)
      fun _ _ hRem => .inl (removes_of_setBeat (b := .idle) (fun _ hNew => by cases hNew) hRem)
    rintro ⟨hWorker, hTask⟩
    have hLost := h.lost workerId taskId (by rw [hBeat]; rfl)
    rw [hWorker, hTask] at hOwned
    exact hLost hOwned
  · cases hStep

theorem crash_registered (hStep : step s (.crash workerId) = some t) (h : Registered s) :
    Registered t := by
  have hFrame := step_frame hStep rfl
  refine h.frame hFrame (by simp) (fun c g' hg' hp _ => ?_) fun w id hRem => .inl ?_
  · obtain ⟨g, _, rfl⟩ := getElem?_crash hStep hg'
    cases hStep
    split at hp
    · cases hp
    · next hNe => simp [hNe]
  · cases hStep
    simp only [Function.update_apply] at hRem
    split at hRem
    · cases hRem
    · exact hRem

theorem step_registered (hStep : step s a = some t) (hSole : soleClaim s a = true)
    (h : Registered s) : Registered t := by
  cases a with
  | claim workerId taskTypes now locked => exact claim_registered hStep hSole h
  | spawnTask c => exact spawnTask_registered hStep h
  | stmt st =>
    have hFrame := step_frame hStep rfl
    simp only [step, Option.ite_none_right_eq_some, Option.some.injEq] at hStep
    obtain ⟨_, rfl⟩ := hStep
    exact h.frame hFrame (by simp) (fun _ _ _ _ _ => rfl) fun _ _ => .inl
  | write c wr now =>
    have hFrame := step_frame hStep rfl
    simp only [step, Option.map_eq_some_iff, goroutineIn_eq_some] at hStep
    obtain ⟨g, _, rfl⟩ := hStep
    exact h.frame hFrame (by simp) (fun _ _ _ _ _ => rfl) fun _ _ => .inl
  | giveUp c =>
    have hFrame := step_frame hStep rfl
    simp only [step, Option.map_eq_some_iff, goroutineIn_eq_some] at hStep
    obtain ⟨g, _, rfl⟩ := hStep
    exact h.frame hFrame (by simp) (fun _ _ _ _ _ => rfl) fun _ _ => .inl
  | exit c => exact exit_registered hStep h
  | visit workerId taskId =>
    have hFrame := step_frame hStep rfl
    simp only [step, Option.ite_none_right_eq_some, Option.map_eq_some_iff] at hStep
    obtain ⟨_, c, _, rfl⟩ := hStep
    exact h.frame hFrame (by simp) (fun _ _ _ _ _ => rfl) fun _ _ hRem =>
      .inl (removes_of_setBeat (fun _ hNew => by cases hNew) hRem)
  | heartbeatTask workerId now => exact heartbeatTask_registered hStep h
  | heartbeatError workerId =>
    have hFrame := step_frame hStep rfl
    simp only [step] at hStep
    split at hStep
    · cases hStep
      exact h.frame hFrame (by simp) (fun _ _ _ _ _ => rfl) fun _ _ hRem =>
        .inl (removes_of_setBeat (fun _ hNew => by cases hNew) hRem)
    · cases hStep
  | cancelLocal workerId =>
    have hFrame := step_frame hStep rfl
    simp only [step] at hStep
    split at hStep
    · next taskId c hBeat =>
      cases hStep
      refine h.frame hFrame (by simp) (fun _ _ _ _ _ => rfl) fun w id hRem =>
        .inl (removes_of_setBeat (fun k hk => ?_) hRem)
      rw [hBeat]
      exact hk
    · cases hStep
  | deleteActive workerId => exact deleteActive_registered hStep h
  | drain workerId taskId =>
    have hFrame := step_frame hStep rfl
    simp only [step, Option.map_eq_some_iff] at hStep
    obtain ⟨c, _, rfl⟩ := hStep
    exact h.frame hFrame (by simp) (fun _ _ _ _ _ => rfl) fun _ _ => .inl
  | crash workerId => exact crash_registered hStep h

end Steps

theorem init_registered : Registered .init := by
  refine ⟨fun c d g h hg => ?_, fun c g hg => ?_, fun w id hRem => ?_⟩
  · cases hg
  · cases hg
  · cases hRem

/-- In every run in which a worker claims a row only when it has no goroutine for it left and is
not about to delete its entry, every row that is processing under a worker and whose most recent
claim's goroutine runs has that goroutine's entry in the worker's map. -/
theorem running_claims_are_tracked {s : State} {as : List Action}
    (hRun : worker.Runs (fun s a => soleClaim s a = true) .init as s) : Tracked s :=
  (hRun.invariant (fun _ _ _ hSole hStep => step_registered hStep hSole) init_registered).tracked

/-- A task is claimed and reaped, its goroutine ends, and the worker claims the task again. -/
def orderlyTrace : List Action :=
  [.stmt (.insertTask ⟨1, 10, none, "transcribe", none, 20⟩ 0),
    .claim 7 ["transcribe"] 1 fun _ => false,
    .spawnTask 0,
    .stmt (.reapStaleProcessingBatch 50 30 40 fun _ => false),
    .giveUp 0,
    .exit 0,
    .claim 7 ["transcribe"] 41 fun _ => false,
    .spawnTask 1]

theorem running_claims_are_tracked_orderlyTrace :
    ∃ s, worker.run .init orderlyTrace = some s ∧ Tracked s :=
  ⟨_, rfl, @running_claims_are_tracked _ orderlyTrace (Machine.Runs.of_restrict rfl)⟩

/-- The worker claims the reaped task again while its first goroutine still runs, and that
goroutine's deferred delete comes last. -/
def shadowedTrace : List Action :=
  [.stmt (.insertTask ⟨1, 10, none, "transcribe", none, 20⟩ 0),
    .claim 7 ["transcribe"] 1 fun _ => false,
    .spawnTask 0,
    .stmt (.reapStaleProcessingBatch 50 30 40 fun _ => false),
    .claim 7 ["transcribe"] 41 fun _ => false,
    .spawnTask 1,
    .giveUp 0,
    .exit 0]

/-- The goroutine of the second claim is then left without an entry. -/
theorem exiting_goroutine_removes_later_entry :
    ¬ ∀ (as : List Action) (s : State), worker.run .init as = some s → Tracked s := by
  intro h
  have hEntry := h shadowedTrace _ rfl 1 ⟨7, 1, .running, false⟩ rfl rfl (by decide) (by decide)
  revert hEntry
  decide

end Richter.TaskQueue
