import Mathlib.Logic.Function.Basic
import Richter.TaskQueue.Rows

/-! The workers of the queue: their claims, the goroutines that run the claimed tasks, the map
`active` of each worker and its `heartbeatLoop`, over one `tasks` table that the server and the
scanner change as well.  A worker's id is made when its process starts, so a restarted process is
another worker. -/

namespace Richter.TaskQueue

open Lib

/-- Where the goroutine of a claim is. -/
inductive Phase
  /-- `ClaimNextInqueuedTask` has committed; `spawnTask` has not stored the entry yet. -/
  | claimed
  /-- `spawnTask` has stored the entry, and `runTask` has not returned. -/
  | running
  /-- `runTask` has returned; the deferred `active.Delete` is still to come. -/
  | returned
  | exited
  deriving DecidableEq, Repr

/-- The goroutine may still write to the row. -/
def Phase.live : Phase → Bool
  | .claimed | .running => true
  | .returned | .exited => false

/-- The goroutine of one claim.  `cancelled` says that its context has been cancelled. -/
structure Goroutine where
  workerId : UUID
  taskId : UUID
  phase : Phase
  cancelled : Bool
  deriving DecidableEq, Repr

/-- Where a `heartbeatLoop` is in the callback of `active.Range`; a claim stands for the
`managedTask` that was stored for it. -/
inductive Beat
  | idle
  | visiting (taskId : UUID) (claim : Nat)
  /-- `HeartbeatTask` has affected no row. -/
  | lost (taskId : UUID) (claim : Nat)
  /-- The local goroutine has been cancelled; `active.Delete` is still to come. -/
  | deleting (taskId : UUID)
  deriving DecidableEq, Repr

/-- The task that a `heartbeatLoop` has found lost and is about to remove. -/
def Beat.removes : Beat → Option UUID
  | .lost taskId _ | .deleting taskId => some taskId
  | .idle | .visiting .. => none

/-- The table, the goroutine of every claim in the order of the claims, the most recent claim of
every row, and each worker's `active` and `heartbeatLoop`. -/
structure State where
  tasks : TaskTable
  goroutines : List Goroutine
  current : UUID → Option Nat
  active : UUID → UUID → Option Nat
  beat : UUID → Beat

def State.init : State := ⟨.empty, [], fun _ => none, fun _ _ => none, fun _ => .idle⟩

def State.setPhase (s : State) (c : Nat) (phase : Phase) : State :=
  { s with goroutines := s.goroutines.modify c fun g => { g with phase := phase } }

def State.cancel (s : State) (c : Nat) : State :=
  { s with goroutines := s.goroutines.modify c fun g => { g with cancelled := true } }

def State.setActive (s : State) (workerId taskId : UUID) (c : Option Nat) : State :=
  { s with
    active := Function.update s.active workerId (Function.update (s.active workerId) taskId c) }

def State.setBeat (s : State) (workerId : UUID) (b : Beat) : State :=
  { s with beat := Function.update s.beat workerId b }

/-- The writes of `runTask` and of the executor to the task's row. -/
inductive Write
  | setTaskCheckpoint (output : Option Bytes)
  | markSucceeded (output : Option Bytes)
  | markFailed (errMsg : String)

def Write.stmt (g : Goroutine) (now : Timestamptz) : Write → Stmt
  | .setTaskCheckpoint output => .setTaskCheckpoint g.taskId output (some g.workerId) now
  | .markSucceeded output => .markSucceeded g.taskId output (some g.workerId) now
  | .markFailed errMsg => .markFailed g.taskId (some errMsg) (some g.workerId) now

/-- `runTask` returns after a terminal write. -/
def Write.next : Write → Phase
  | .setTaskCheckpoint _ => .running
  | .markSucceeded _ | .markFailed _ => .returned

inductive Action
  /-- A statement of the server or of the scanner, or a progress report. -/
  | stmt (st : Stmt)
  | claim (workerId : UUID) (taskTypes : List String) (now : Timestamptz)
      (locked : UUID → Bool)
  | spawnTask (c : Nat)
  | write (c : Nat) (wr : Write) (now : Timestamptz)
  /-- `runTask` returns without a terminal write: the executor was cancelled, or the write
  failed. -/
  | giveUp (c : Nat)
  /-- The deferred `active.Delete`. -/
  | exit (c : Nat)
  | visit (workerId taskId : UUID)
  | heartbeatTask (workerId : UUID) (now : Timestamptz)
  | heartbeatError (workerId : UUID)
  | cancelLocal (workerId : UUID)
  | deleteActive (workerId : UUID)
  /-- `Run` cancels a task's context on shutdown. -/
  | drain (workerId taskId : UUID)
  /-- The process of the worker dies. -/
  | crash (workerId : UUID)

/-- The goroutine of claim `c`, when it is in the given phase. -/
def State.goroutineIn (s : State) (c : Nat) (phase : Phase) : Option Goroutine :=
  (s.goroutines[c]?).filter fun g => g.phase = phase

def step (s : State) : Action → Option State
  | .stmt st =>
      if st.claimer = none ∧ st.owner = none then some { s with tasks := exec s.tasks st }
      else none
  | .claim workerId taskTypes now locked =>
      match claimNextInqueuedTask workerId taskTypes now locked s.tasks with
      | (_, none) => none
      | (tasks, some task) => some
          { s with
            tasks := tasks
            goroutines := s.goroutines ++ [⟨workerId, task.id, .claimed, false⟩]
            current := Function.update s.current task.id (some s.goroutines.length) }
  | .spawnTask c => (s.goroutineIn c .claimed).map fun g =>
      (s.setPhase c .running).setActive g.workerId g.taskId (some c)
  | .write c wr now => (s.goroutineIn c .running).map fun g =>
      { s.setPhase c wr.next with tasks := exec s.tasks (wr.stmt g now) }
  | .giveUp c => (s.goroutineIn c .running).map fun _ => s.setPhase c .returned
  | .exit c => (s.goroutineIn c .returned).map fun g =>
      (s.setPhase c .exited).setActive g.workerId g.taskId none
  | .visit workerId taskId =>
      if s.beat workerId = .idle then
        (s.active workerId taskId).map fun c => s.setBeat workerId (.visiting taskId c)
      else none
  | .heartbeatTask workerId now =>
      match s.beat workerId with
      | .visiting taskId c =>
          let (tasks, n) := heartbeatTask taskId (some workerId) now s.tasks
          some { s.setBeat workerId (if n = 0 then .lost taskId c else .idle) with tasks := tasks }
      | _ => none
  | .heartbeatError workerId =>
      match s.beat workerId with
      | .visiting _ _ => some (s.setBeat workerId .idle)
      | _ => none
  | .cancelLocal workerId =>
      match s.beat workerId with
      | .lost taskId c => some ((s.cancel c).setBeat workerId (.deleting taskId))
      | _ => none
  | .deleteActive workerId =>
      match s.beat workerId with
      | .deleting taskId => some ((s.setBeat workerId .idle).setActive workerId taskId none)
      | _ => none
  | .drain workerId taskId => (s.active workerId taskId).map s.cancel
  | .crash workerId => some
      { s with
        goroutines := s.goroutines.map fun g =>
          if g.workerId = workerId then { g with phase := .exited } else g
        active := Function.update s.active workerId fun _ => none
        beat := Function.update s.beat workerId .idle }

def worker : Machine State Action := ⟨step⟩

/-! What a step can do to the rows' holders and to the goroutines. -/

def Action.isClaim : Action → Bool
  | .claim .. => true
  | _ => false

/-- How far a goroutine has come. -/
def Phase.rank : Phase → Nat
  | .claimed => 0
  | .running => 1
  | .returned => 2
  | .exited => 3

theorem Phase.rank_le (p : Phase) : p.rank ≤ Phase.exited.rank := by
  cases p <;> decide

theorem Phase.live_iff {p : Phase} : p.live = true ↔ p.rank ≤ 1 := by
  cases p <;> simp [live, rank]

theorem Phase.eq_exited_iff {p : Phase} : p = .exited ↔ 3 ≤ p.rank := by
  cases p <;> simp [rank]

/-- `g'` is the goroutine `g`, perhaps further on. -/
structure Goroutine.Advances (g g' : Goroutine) : Prop where
  worker : g'.workerId = g.workerId
  task : g'.taskId = g.taskId
  rank : g.phase.rank ≤ g'.phase.rank

theorem Goroutine.Advances.refl (g : Goroutine) : g.Advances g := ⟨rfl, rfl, le_rfl⟩

/-- In the step `a` from `s` to `t` no row went to a worker, the claims stayed the same, and no
goroutine but that of a `spawnTask` started to run. -/
structure Frame (a : Action) (s t : State) : Prop where
  holder : ∀ id w, TaskQueue.holder t.tasks id = some w → TaskQueue.holder s.tasks id = some w
  current : t.current = s.current
  goroutine : ∀ (c : Nat) (g' : Goroutine), t.goroutines[c]? = some g' →
    ∃ g : Goroutine, s.goroutines[c]? = some g ∧ g.Advances g' ∧
      (g'.phase = .running → g.phase = .running ∨ a = .spawnTask c)

section Frames

variable {s t : State} {a : Action} {c : Nat} {g : Goroutine} {phase : Phase}

theorem goroutineIn_eq_some :
    s.goroutineIn c phase = some g ↔ s.goroutines[c]? = some g ∧ g.phase = phase := by
  simp [State.goroutineIn, Option.filter_eq_some_iff]

theorem Frame.refl (a : Action) (s : State) : Frame a s s :=
  ⟨fun _ _ h => h, rfl, fun _ g' h => ⟨g', h, .refl g', .inl⟩⟩

theorem frame_tasks (h : Frame a s t) {tasks : TaskTable}
    (hHolder : ∀ id w, TaskQueue.holder tasks id = some w → TaskQueue.holder s.tasks id = some w) :
    Frame a s { t with tasks := tasks } := ⟨hHolder, h.current, h.goroutine⟩

theorem getElem?_setPhase (d : Nat) :
    (s.setPhase c phase).goroutines[d]? =
      (s.goroutines[d]?).map fun g => if c = d then { g with phase := phase } else g :=
  List.getElem?_modify ..

theorem getElem?_cancel (d : Nat) :
    (s.cancel c).goroutines[d]? =
      (s.goroutines[d]?).map fun g => if c = d then { g with cancelled := true } else g :=
  List.getElem?_modify ..

theorem frame_setPhase (phase : Phase) (hg : s.goroutines[c]? = some g)
    (h : g.phase.rank ≤ phase.rank)
    (hRunning : phase = .running → g.phase = .running ∨ a = .spawnTask c) :
    Frame a s (s.setPhase c phase) := by
  refine ⟨fun _ _ h => h, rfl, fun d g' hg' => ?_⟩
  rw [getElem?_setPhase, Option.map_eq_some_iff] at hg'
  obtain ⟨g₁, hg₁, rfl⟩ := hg'
  refine ⟨g₁, hg₁, ?_⟩
  split
  · next hcd =>
    subst hcd
    rw [hg, Option.some.injEq] at hg₁
    exact ⟨⟨rfl, rfl, hg₁ ▸ h⟩, hg₁ ▸ hRunning⟩
  · exact ⟨.refl g₁, .inl⟩

theorem frame_cancel (a : Action) (s : State) (c : Nat) : Frame a s (s.cancel c) := by
  refine ⟨fun _ _ h => h, rfl, fun d g' hg' => ?_⟩
  rw [getElem?_cancel, Option.map_eq_some_iff] at hg'
  obtain ⟨g₁, hg₁, rfl⟩ := hg'
  refine ⟨g₁, hg₁, ?_⟩
  split <;> exact ⟨⟨rfl, rfl, le_rfl⟩, .inl⟩

/-- The goroutines after the process of a worker has died. -/
theorem getElem?_crash {workerId : UUID} (hStep : step s (.crash workerId) = some t)
    {g' : Goroutine} (hg' : t.goroutines[c]? = some g') :
    ∃ g : Goroutine, s.goroutines[c]? = some g ∧
      g' = if g.workerId = workerId then { g with phase := .exited } else g := by
  cases hStep
  rw [List.getElem?_map, Option.map_eq_some_iff] at hg'
  obtain ⟨g, hg, hEq⟩ := hg'
  exact ⟨g, hg, hEq.symm⟩

theorem frame_crash {workerId : UUID} (hStep : step s (.crash workerId) = some t) :
    Frame (.crash workerId) s t := by
  refine ⟨?_, ?_, fun d g' hg' => ?_⟩
  · cases hStep
    exact fun _ _ h => h
  · cases hStep
    rfl
  · obtain ⟨g, hg, rfl⟩ := getElem?_crash hStep hg'
    refine ⟨g, hg, ?_⟩
    split
    · exact ⟨⟨rfl, rfl, g.phase.rank_le⟩, nofun⟩
    · exact ⟨.refl g, .inl⟩

theorem Write.claimer_eq_none (wr : Write) (g : Goroutine) (now : Timestamptz) :
    (wr.stmt g now).claimer = none := by
  cases wr <;> rfl

theorem Write.owner_eq (wr : Write) (g : Goroutine) (now : Timestamptz) :
    (wr.stmt g now).owner = some (g.taskId, some g.workerId) := by
  cases wr <;> rfl

theorem Write.rank_next (wr : Write) : Phase.running.rank ≤ wr.next.rank := by
  cases wr <;> simp [Write.next, Phase.rank]

theorem step_frame (hStep : step s a = some t) (hClaim : a.isClaim = false) : Frame a s t := by
  cases a with
  | stmt st =>
    simp only [step, Option.ite_none_right_eq_some, Option.some.injEq] at hStep
    obtain ⟨⟨hClaimer, _⟩, rfl⟩ := hStep
    exact frame_tasks (.refl _ s) fun _ _ => holder_exec hClaimer
  | claim => cases hClaim
  | spawnTask c =>
    simp only [step, Option.map_eq_some_iff, goroutineIn_eq_some] at hStep
    obtain ⟨g, ⟨hg, hp⟩, rfl⟩ := hStep
    have h := frame_setPhase (a := .spawnTask c) .running hg (by rw [hp]; decide) fun _ => .inr rfl
    exact ⟨h.holder, h.current, h.goroutine⟩
  | write c wr now =>
    simp only [step, Option.map_eq_some_iff, goroutineIn_eq_some] at hStep
    obtain ⟨g, ⟨hg, hp⟩, rfl⟩ := hStep
    exact frame_tasks (frame_setPhase wr.next hg (hp ▸ wr.rank_next) fun _ => .inl hp)
      fun _ _ => holder_exec (wr.claimer_eq_none g now)
  | giveUp c =>
    simp only [step, Option.map_eq_some_iff, goroutineIn_eq_some] at hStep
    obtain ⟨g, ⟨hg, hp⟩, rfl⟩ := hStep
    exact frame_setPhase .returned hg (by rw [hp]; decide) fun h => by cases h
  | exit c =>
    simp only [step, Option.map_eq_some_iff, goroutineIn_eq_some] at hStep
    obtain ⟨g, ⟨hg, hp⟩, rfl⟩ := hStep
    have h := frame_setPhase (a := .exit c) .exited hg (by rw [hp]; decide) fun h => by cases h
    exact ⟨h.holder, h.current, h.goroutine⟩
  | visit workerId taskId =>
    simp only [step, Option.ite_none_right_eq_some, Option.map_eq_some_iff] at hStep
    obtain ⟨_, _, _, rfl⟩ := hStep
    exact ⟨fun _ _ h => h, rfl, (Frame.refl _ s).goroutine⟩
  | heartbeatTask workerId now =>
    simp only [step] at hStep
    split at hStep
    · cases hStep
      exact ⟨fun _ _ => holder_exec (s := .heartbeatTask _ _ now) rfl, rfl,
        (Frame.refl _ s).goroutine⟩
    · cases hStep
  | heartbeatError workerId =>
    simp only [step] at hStep
    split at hStep
    · cases hStep
      exact ⟨fun _ _ h => h, rfl, (Frame.refl _ s).goroutine⟩
    · cases hStep
  | cancelLocal workerId =>
    simp only [step] at hStep
    split at hStep
    · next taskId c _ =>
      cases hStep
      exact ⟨fun _ _ h => h, rfl, (frame_cancel _ s c).goroutine⟩
    · cases hStep
  | deleteActive workerId =>
    simp only [step] at hStep
    split at hStep
    · cases hStep
      exact ⟨fun _ _ h => h, rfl, (Frame.refl _ s).goroutine⟩
    · cases hStep
  | drain workerId taskId =>
    simp only [step, Option.map_eq_some_iff] at hStep
    obtain ⟨c, _, rfl⟩ := hStep
    exact frame_cancel _ s c
  | crash workerId => exact frame_crash hStep

/-- A claim adds a goroutine for the row it takes, as the row's most recent claim. -/
theorem step_claim {workerId : UUID} {taskTypes : List String} {now : Timestamptz}
    {locked : UUID → Bool} (hStep : step s (.claim workerId taskTypes now locked) = some t) :
    ∃ id, (∃ r, claimCandidate taskTypes locked s.tasks = some r ∧ r.id = id) ∧
      (∀ k, holder t.tasks k = if k = id then some workerId else holder s.tasks k) ∧
      t.goroutines = s.goroutines ++ [⟨workerId, id, .claimed, false⟩] ∧
      t.current = Function.update s.current id (some s.goroutines.length) ∧
      t.active = s.active ∧ t.beat = s.beat := by
  simp only [step] at hStep
  split at hStep
  · cases hStep
  · next tasks r hClaim =>
    cases hStep
    obtain ⟨hCandidate, hHolder⟩ := holder_claim hClaim
    exact ⟨r.id, hCandidate, hHolder, rfl, rfl, rfl, rfl⟩

end Frames

end Richter.TaskQueue
