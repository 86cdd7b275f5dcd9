import Richter.Lessons.Unique

/-! The cap on the active tasks of a user (`MaxActivePerUser`).  `StartLessonTask` counts the user's
tasks under the lock of the lesson's row: calls on one lesson wait for each other, calls on
different lessons do not. -/

namespace Richter.Lessons

open Lib
open TaskQueue (TaskTable countActiveTasksByUser)
open Handler (orConnectDBError)

/-- How far a transaction of `StartLessonTask` has come: the lesson whose row it holds, and the user
whose active tasks it has counted below the cap. -/
structure CapCheck where
  lesson : Option UUID := none
  user : Option UUID := none
  deriving DecidableEq

def CapCheck.after (m : Nat) (c : CapCheck) : Prog.Event Op Op.Resp → CapCheck
  | ⟨.pg (.lockLesson lessonId), .ok ()⟩ => ⟨some lessonId, none⟩
  | ⟨.pg (.countActiveTasksByUser userId), .ok n⟩ =>
    { c with user := if n < m then some userId else none }
  | ⟨.pg (.lockLesson _), .error _⟩ | ⟨.pg (.insertTask ..), _⟩ | ⟨.pg (.commit _), _⟩
  | ⟨.pg (.rollback _), _⟩ => {}
  | _ => c

def capCheck (m : Nat) (h : History) : CapCheck := h.foldl (CapCheck.after m) {}

theorem capCheck_append (m : Nat) (h : History) (e : Prog.Event Op Op.Resp) :
    capCheck m (h ++ [e]) = (capCheck m h).after m e := List.foldl_append

/-- When a task is inserted, the calls of its user that have passed the check of the cap, and have
neither inserted nor ended, are on the same lesson. -/
def insertsAlone {n : Nat} (m : Nat) (p : System n) (a : Fin n × Env) : Bool :=
  match p.next a.1 with
  | some (.pg (.insertTask lessonId _ _ _ createdBy)) => decide (∀ j, j ≠ a.1 →
    (capCheck m (p.hist j)).user = some createdBy →
      (capCheck m (p.hist j)).lesson = some lessonId)
  | _ => true

/-- A task is inserted for the lesson whose row is held, after the tasks of its user were
counted. -/
def InsertsCounted (c : CapCheck) (o : Op) : Prop :=
  ∀ lessonId chunkId taskType inputPayload createdBy,
    o = .pg (.insertTask lessonId chunkId taskType inputPayload createdBy) →
      c = ⟨some lessonId, some createdBy⟩

/-- What an event changes of the check. -/
abbrev Counts (m : Nat) (o : Op) (c : CapCheck) (r : o.Resp) (c' : CapCheck) : Prop :=
  c' = c.after m ⟨o, r⟩

section Handlers

variable {α β : Type} {m : Nat}

theorem insertsCounted_of_not {o : Op} (ho : o.insertsTask = false) (c : CapCheck) :
    InsertsCounted c o := by
  rintro lessonId chunkId taskType inputPayload createdBy rfl
  cases ho

/-- A program that inserts no task. -/
theorem insertsCounted_of_performs {p : Prog Op Op.Resp α}
    (hp : p.Performs fun o => o.insertsTask = false) (c : CapCheck) :
    p.Ensures (Counts m) InsertsCounted (fun _ _ => True) c :=
  hp.ensures (I := fun _ => True) (fun c _ ho _ => insertsCounted_of_not ho c)
    (fun _ _ _ _ _ _ _ => trivial) trivial

theorem insertsTask_of_reads {o : Op} (h : o.reads = true) : o.insertsTask = false :=
  insertsTask_eq_false (.inr (.inr h))

/-- A handler goes on after one that only reads. -/
theorem counted_after_reads {x : Handler α} (hx : x.Reads) {f : α → Handler β} {c : CapCheck}
    (hf : ∀ a c, Prog.Meets (Counts m) InsertsCounted (f a) (fun _ _ => True) (fun _ => True) c) :
    Prog.Meets (Counts m) InsertsCounted (x >>= f) (fun _ _ => True) (fun _ => True) c := by
  refine (Prog.Performs.meets hx (I := fun _ => True)
    (fun c _ ho _ => insertsCounted_of_not (insertsTask_of_reads ho) c)
    (fun _ _ _ _ _ _ _ => trivial) trivial).bind ?_
  intro a c _
  exact hf a c

/-- Reads other than the check of the cap leave the check as it was. -/
theorem reads_keep_check {x : Handler α}
    (hx : Performs (fun o => o.reads = true ∧ o.countsTasks = false) x) (c : CapCheck) :
    Prog.Meets (Counts m) InsertsCounted x (fun _ k => k = c) (fun _ => True) c := by
  refine (Prog.Performs.meets hx (I := fun k => k = c) ?_ ?_ rfl).mono (fun _ _ => id)
    fun _ _ => trivial
  · intro k o ho _
    exact insertsCounted_of_not (insertsTask_of_reads ho.1) k
  · rintro o k r k' ⟨hReads, hCounts⟩ rfl rfl
    cases o with
    | pg q =>
      cases q with
      | countActiveTasksByUser => simp [Op.countsTasks] at hCounts
      | _ => first | rfl | cases hReads
    | statObject => rfl
    | _ => cases hReads

theorem requireUnderCap_counts {s : AiSvc} (hCap : 0 < s.maxActivePerUser) (userID : UUID)
    (c : CapCheck) :
    Prog.Meets (Counts s.maxActivePerUser) InsertsCounted (requireUnderCap s userID)
      (fun _ k => k = { c with user := some userID }) (fun _ => True) c := by
  unfold requireUnderCap
  rw [if_pos hCap]
  refine (Prog.meets_bind _).mpr ((Prog.meets_bind _).mpr
    ⟨insertsCounted_of_not rfl c, ?_⟩)
  rintro (e | activeCount) k rfl
  · trivial
  · show Prog.Meets _ _ (if s.maxActivePerUser ≤ activeCount then _ else _) _ _ _
    split
    · trivial
    · next hBelow =>
      have hLt : activeCount < s.maxActivePerUser := Nat.lt_of_not_le hBelow
      show CapCheck.after _ _ _ = _
      simp [CapCheck.after, hLt]

theorem startInTx_inserts_counted {s : AiSvc} (hCap : 0 < s.maxActivePerUser)
    (caller : Except Error UUID) (req : StartLessonTaskRequest) (taskType : String) (userID : UUID)
    (chunkID : Option UUID) :
    Prog.Meets (Counts s.maxActivePerUser) InsertsCounted
      (startInTx s caller req taskType userID chunkID) (fun _ _ => True) (fun _ => True)
      ⟨some req.lessonId, none⟩ := by
  unfold startInTx
  refine (Prog.meets_perform_bind _).mpr ⟨insertsCounted_of_not rfl _, ?_⟩
  rintro (e | activeTask) k rfl
  · refine (requireUnderCap_counts hCap userID _).bind ?_
    rintro _ k rfl
    have hPreflight := preflightLessonTask_performs caller
      (A := fun o => o.reads = true ∧ o.countsTasks = false) (fun o h h' => ⟨h, h'⟩) req.kind
      req.lessonId
    refine (reads_keep_check hPreflight _).bind ?_
    rintro _ k rfl
    refine (reads_keep_check (performs_require _) _).bind ?_
    rintro inputPayload k rfl
    refine (Prog.meets_bind _).mpr ⟨?_, ?_⟩
    · rintro lessonId chunkId taskType' inputPayload' createdBy ⟨⟩
      rfl
    · rintro (e | task) k _ <;> trivial
  · refine (Prog.meets_perform_bind _).mpr ⟨insertsCounted_of_not rfl _, ?_⟩
    rintro (e | _) k _ <;> trivial

theorem startLessonTask_inserts_counted {s : AiSvc} (hCap : 0 < s.maxActivePerUser)
    (caller : Except Error UUID) (req : StartLessonTaskRequest) (c : CapCheck) :
    Prog.Meets (Counts s.maxActivePerUser) InsertsCounted (startLessonTask s caller req)
      (fun _ _ => True) (fun _ => True) c := by
  unfold startLessonTask
  refine counted_after_reads (performs_require _) fun taskType _ =>
    counted_after_reads (performs_orConnectDBError rfl) fun _ _ =>
    counted_after_reads (performs_require caller) fun userID _ =>
    counted_after_reads (requestedChunk_reads req) fun chunkID _ => ?_
  refine (Prog.meets_bind _).mpr ((Prog.meets_bind _).mpr ⟨insertsCounted_of_not rfl _, ?_⟩)
  rintro (e | _) k rfl
  · trivial
  · refine (Prog.meets_bind _).mpr (Prog.meets_lift.mpr ?_)
    refine Prog.Ensures.mono (startInTx_inserts_counted hCap caller req taskType userID chunkID)
      (fun _ _ => id) ?_
    rintro (e | task) k _
    · refine (Prog.meets_perform_bind _).mpr ⟨insertsCounted_of_not rfl _, ?_⟩
      rintro r k _
      trivial
    · trivial

end Handlers

/-- Every party inserts a task only after it has counted the tasks of its user below the cap. -/
theorem Party.inserts_counted {s : AiSvc} (hCap : 0 < s.maxActivePerUser) (party : Party) :
    (party.program s).Along
      (fun h o => InsertsCounted (capCheck s.maxActivePerUser h) o) (fun _ _ => True) [] := by
  have hInserts : (party.program s).Ensures (Counts s.maxActivePerUser) InsertsCounted
      (fun _ _ => True) {} := by
    by_cases hStarts : ∃ caller req, party = .startLessonTask caller req
    · obtain ⟨caller, req, rfl⟩ := hStarts
      have hStart := startLessonTask_inserts_counted hCap caller req {}
      exact (Prog.ensures_bind _).mpr (Prog.Ensures.mono hStart (fun _ _ => id)
        fun _ _ _ => trivial)
    · refine insertsCounted_of_performs (party.performs_no_insert s fun caller req h => ?_) {}
      exact hStarts ⟨caller, req, h⟩
  exact Prog.Ensures.along (h := []) hInserts

/-- The active tasks of the user are within the cap, and below it while a thread that has counted
them below it holds its lesson's row, in a transaction in which no statement has failed. -/
structure CapGuarded {n : Nat} (m : Nat) (userId : UUID) (s : Store) (h : Fin n → History) :
    Prop where
  within : countActiveTasksByUser userId s.tasks ≤ m
  below : ∀ i lessonId, capCheck m (h i) = ⟨some lessonId, some userId⟩ →
    s.lessonLock lessonId = some i.val → s.txAborted i = false →
      countActiveTasksByUser userId s.tasks < m

section Runs

variable {n m : Nat} {userId : UUID}

/-- A passed check was passed before the event, or the event is the count. -/
theorem CapCheck.after_cases {c : CapCheck} {e : Prog.Event Op Op.Resp} {lessonId : UUID}
    (h : c.after m e = ⟨some lessonId, some userId⟩) :
    (c = ⟨some lessonId, some userId⟩ ∧ e.op.locks = false ∧ e.op.insertsTask = false) ∨
      ∃ k < m, c.lesson = some lessonId ∧ e = ⟨.pg (.countActiveTasksByUser userId), .ok k⟩ := by
  unfold CapCheck.after at h
  split at h
  · cases h
  · next userId' k =>
    rw [CapCheck.mk.injEq] at h
    obtain ⟨hLesson, hUser⟩ := h
    split at hUser
    · next hBelow =>
      cases hUser
      exact .inr ⟨k, hBelow, hLesson, rfl⟩
    · cases hUser
  · cases h
  · cases h
  · cases h
  · cases h
  · next hLocked _ hNotLocked hNotInsert _ _ =>
    refine .inl ⟨h, ?_⟩
    obtain ⟨o, r⟩ := e
    cases o with
    | pg q =>
      cases q with
      | lockLesson id =>
        cases r with
        | ok => exact absurd rfl (hLocked id)
        | error err => exact absurd rfl (hNotLocked id err)
      | insertTask a b c d e => exact absurd rfl (hNotInsert a b c d e r)
      | _ => exact ⟨rfl, rfl⟩
    | _ => exact ⟨rfl, rfl⟩

/-- What the check of the cap reads. -/
theorem exec_countActiveTasksByUser {i : Nat} {env : Env} {s s' : Store} {k : Nat}
    (h : exec i env (.pg (.countActiveTasksByUser userId)) s = some (.ok k, s')) :
    k = countActiveTasksByUser userId s.tasks := by
  obtain ⟨_, hErr, _⟩ | ⟨_, hExec⟩ := exec_pg h
  · cases hErr
  · unfold Query.exec at hExec
    dsimp only at hExec
    split at hExec
    · cases hExec
    · cases hExec
      rfl

theorem countActiveTasksByUser_insertTask {t t' : TaskTable} {p : TaskQueue.InsertTaskParams}
    {now : TaskQueue.Timestamptz} (h : TaskQueue.insertTask p now t = some t') :
    countActiveTasksByUser userId t' =
      countActiveTasksByUser userId t + if p.createdBy = userId then 1 else 0 := by
  unfold TaskQueue.insertTask Table.insert at h
  split at h
  · cases h
  · cases h
    simp [countActiveTasksByUser, Table.append, List.countP_cons, TaskQueue.InsertTaskParams.row,
      TaskQueue.TaskStatus.terminal]

theorem step_capGuarded {s s' : Store} {h : Fin n → History} {i : Fin n} {env : Env} {o : Op}
    {r : o.Resp} (hExec : exec i.val env o s = some (r, s'))
    (hAlone : ∀ lessonId chunkId taskType inputPayload,
      o = .pg (.insertTask lessonId chunkId taskType inputPayload userId) → ∀ j, j ≠ i →
        (capCheck m (h j)).user = some userId → (capCheck m (h j)).lesson = some lessonId)
    (hInserts : InsertsCounted (capCheck m (h i)) o) (hGuarded : CapGuarded m userId s h) :
    CapGuarded m userId s' (Function.update h i (h i ++ [⟨o, r⟩])) := by
  have hBelow : ∀ j lessonId, j ≠ i → capCheck m (h j) = ⟨some lessonId, some userId⟩ →
      s'.lessonLock lessonId = some j.val → s'.txAborted j = false →
      countActiveTasksByUser userId s.tasks < m := by
    intro j lessonId hji hCheck hLock hLive
    have hOther : j.val ≠ i.val := fun hVal => hji (Fin.ext hVal)
    obtain ⟨hLock', hLive'⟩ := exec_transaction hExec (fun hVal => absurd hVal hOther) hLock hLive
    exact hGuarded.below j lessonId hCheck hLock' hLive'
  obtain hRows | ⟨lessonId, chunkId, taskType, inputPayload, createdBy, p, now, rfl, _, hCreatedBy,
    hInsert, hLock, hLive, hUnlock⟩ := exec_rowsFrom hExec
  · have hLe := hRows.countActiveTasksByUser_le userId
    refine ⟨hLe.trans hGuarded.within, fun j lessonId hCheck hLock hLive => ?_⟩
    by_cases hji : j = i
    · subst hji
      rw [Function.update_self, capCheck_append] at hCheck
      obtain ⟨hBefore, hLocks, _⟩ | ⟨k, hk, _, hEvent⟩ := CapCheck.after_cases hCheck
      · obtain ⟨hLock', hLive'⟩ := exec_transaction hExec (fun _ => hLocks) hLock hLive
        exact hLe.trans_lt (hGuarded.below j lessonId hBefore hLock' hLive')
      · cases hEvent
        rw [exec_countActiveTasksByUser hExec] at hk
        exact hLe.trans_lt hk
    · rw [Function.update_of_ne hji] at hCheck
      exact hLe.trans_lt (hBelow j lessonId hji hCheck hLock hLive)
  · have hCount : countActiveTasksByUser userId s'.tasks = _ :=
      countActiveTasksByUser_insertTask hInsert
    rw [hCreatedBy] at hCount
    by_cases hUser : createdBy = userId
    · subst hUser
      rw [if_pos rfl] at hCount
      have hLt := hGuarded.below i lessonId (hInserts _ _ _ _ _ rfl) hLock hLive
      refine ⟨by omega, fun j lessonId' hCheck hLock' _ => ?_⟩
      by_cases hji : j = i
      · subst hji
        rw [Function.update_self, capCheck_append] at hCheck
        cases hCheck
      · rw [Function.update_of_ne hji] at hCheck
        have hSame := hAlone _ _ _ _ rfl j hji (by rw [hCheck])
        rw [hCheck, Option.some.injEq] at hSame
        subst hSame
        rw [hUnlock] at hLock'
        cases hLock'
    · rw [if_neg hUser, Nat.add_zero] at hCount
      rw [← hCount] at hBelow
      refine ⟨hCount ▸ hGuarded.within, fun j lessonId' hCheck hLock' hLive' => ?_⟩
      by_cases hji : j = i
      · subst hji
        rw [Function.update_self, capCheck_append] at hCheck
        cases hCheck
      · rw [Function.update_of_ne hji] at hCheck
        exact hBelow j lessonId' hji hCheck hLock' hLive'

variable {s : AiSvc} {party : Fin n → Party} {store : Store} {steps : List (Fin n × Env)}
  {q : System n}

/-- In every run in which a call inserts a task only when no call of the same user on another lesson
is between its check of the cap and its insertion, the cap is kept. -/
theorem active_tasks_within_cap (hCap : 0 < s.maxActivePerUser)
    (hStart : countActiveTasksByUser userId store.tasks ≤ s.maxActivePerUser)
    (hRun : (system n).Runs (fun p a => insertsAlone s.maxActivePerUser p a = true)
      (.start s party store) steps q) :
    countActiveTasksByUser userId q.store.tasks ≤ s.maxActivePerUser := by
  have hInv := Pool.runs_invariant (I := CapGuarded s.maxActivePerUser userId) ?_ hRun
    (fun i => (party i).inserts_counted hCap) ⟨hStart, ?_⟩
  · exact hInv.1.within
  · intro p i env o r t hG hNext hInserts hGuarded hExec
    refine step_capGuarded hExec ?_ hInserts hGuarded
    rintro lessonId chunkId taskType inputPayload rfl
    rw [insertsAlone, hNext] at hG
    exact of_decide_eq_true hG
  · intro i lessonId hCheck
    cases hCheck

end Runs

def capOne : AiSvc := { demoSvc with maxActivePerUser := 1 }

/-- Two lessons with a video. -/
def twoLectures : Store :=
  { lecture with lessons := .ofList [⟨10, some "lessons/10/video.mp4", none, "vi", "vi"⟩,
      ⟨11, some "lessons/11/video.mp4", none, "vi", "vi"⟩] }

/-- A teacher asks for both transcripts. -/
def askedForBoth : Fin 2 → Party
  | 0 => .startLessonTask (.ok 20) ⟨10, .extractTranscript, none⟩
  | 1 => .startLessonTask (.ok 20) ⟨11, .extractTranscript, none⟩

def first : Env := { newId := fun _ => 100, stat := true }
def second : Env := { newId := fun _ => 101, stat := true }

/-- The second call counts the task of the first and is refused. -/
def secondRefused : List (Fin 2 × Env) :=
  schedule 1 (List.replicate 8 (0, first) ++ List.replicate 5 (1, second))

theorem active_tasks_within_cap_secondRefused :
    ∃ q, (system 2).run (.start capOne askedForBoth twoLectures) secondRefused = some q ∧
      (q.store.tasks.rows.map fun r => (r.id, r.status)) = [(100, .inqueued)] ∧
      countActiveTasksByUser 20 q.store.tasks ≤ 1 :=
  ⟨_, rfl, rfl, @active_tasks_within_cap 2 20 capOne askedForBoth twoLectures secondRefused _
    (by decide) (by decide) (Machine.Runs.of_restrict rfl)⟩

/-- Both calls count before either inserts. -/
def bothCounted : List (Fin 2 × Env) :=
  schedule 1 (List.replicate 4 (0, first) ++ List.replicate 4 (1, second) ++
    List.replicate 4 (0, first) ++ List.replicate 4 (1, second))

/-- Two calls of one user on different lessons hold different rows, and together exceed the cap. -/
theorem calls_on_two_lessons_exceed_cap :
    ¬ ∀ (n : Nat) (s : AiSvc) (party : Fin n → Party) (store : Store) (steps : List (Fin n × Env))
      (q : System n) (userId : UUID), 0 < s.maxActivePerUser →
      countActiveTasksByUser userId store.tasks ≤ s.maxActivePerUser →
      (system n).run (.start s party store) steps = some q →
      countActiveTasksByUser userId q.store.tasks ≤ s.maxActivePerUser := by
  intro h
  have hCap := h 2 capOne askedForBoth twoLectures bothCounted _ 20 (by decide) (by decide) rfl
  revert hCap
  decide

end Richter.Lessons
