import Richter.Interactions.Site

/-! What a submission has done when it is over: from its program, how its events hang together, and
from the stores, what each of its reads was answered from. -/

namespace Richter.Interactions

open Lib

/-- The operation has been answered so. -/
abbrev History.Has (h : History) (o : Op) (r : o.Resp) : Prop :=
  (⟨o, r⟩ : Prog.Event Op Op.Resp) ∈ h

/-- What the answered transactions have stored, and for which attempts. -/
def History.stored (h : History) :
    List (UpsertLessonAttemptParams × List UpsertAttemptResponseParams × LessonAttempt) :=
  h.filterMap fun
    | ⟨.upsertAttempt p rs, .ok out⟩ => some (p, rs, out.1)
    | _ => none

/-- The recordings that have been deleted. -/
def History.deletedAudio (h : History) : List String :=
  h.filterMap fun
    | ⟨.deleteAudio k, _⟩ => some k
    | _ => none

/-- The grades that graders have given to responses, with the interactions' ids. -/
def History.grades (h : History) : List (UUID × ResponseJSON × Grade) :=
  h.filterMap fun
    | ⟨.grade i r, g⟩ => some (i.id, r, g)
    | _ => none

/-- The watch fractions that have been computed, for which student, lesson and duration. -/
def History.fractions (h : History) : List (UUID × UUID × Nat × ℚ) :=
  h.filterMap fun
    | ⟨.watchCoverageFraction userID lessonID durationSeconds, some f⟩ =>
        some (userID, lessonID, durationSeconds, f)
    | _ => none

section Views

variable {h : History}

theorem has_of_mem_stored {p : UpsertLessonAttemptParams} {rs : List UpsertAttemptResponseParams}
    {a : LessonAttempt} (hMem : (p, rs, a) ∈ h.stored) :
    ∃ out, h.Has (.upsertAttempt p rs) (.ok out) ∧ out.1 = a := by
  obtain ⟨e, he, hEq⟩ := List.mem_filterMap.mp hMem
  split at hEq
  · cases hEq
    exact ⟨_, he, rfl⟩
  · cases hEq

theorem has_of_mem_deletedAudio {k : String} (hMem : k ∈ h.deletedAudio) :
    h.Has (.deleteAudio k) () := by
  obtain ⟨e, he, hEq⟩ := List.mem_filterMap.mp hMem
  split at hEq
  · cases hEq
    exact he
  · cases hEq

theorem mem_grades_of_has {i : LessonInteraction} {r : ResponseJSON} {g : Grade}
    (hHas : h.Has (.grade i r) g) : (i.id, r, g) ∈ h.grades :=
  List.mem_filterMap.mpr ⟨_, hHas, rfl⟩

theorem has_of_mem_fractions {userID lessonID : UUID} {durationSeconds : Nat} {f : ℚ}
    (hMem : (userID, lessonID, durationSeconds, f) ∈ h.fractions) :
    h.Has (.watchCoverageFraction userID lessonID durationSeconds) (some f) := by
  obtain ⟨e, he, hEq⟩ := List.mem_filterMap.mp hMem
  split at hEq
  · cases hEq
    exact he
  · cases hEq

end Views

/-- Nothing has been written or deleted. -/
def OnlyReads (h : History) : Prop := ∀ e ∈ h, e.op.isRead = true

theorem OnlyReads.nil : OnlyReads [] := List.forall_mem_nil _

/-- The later events go on with reads. -/
def GoesOn (h h' : History) : Prop := ∃ l, h' = h ++ l ∧ OnlyReads l

theorem GoesOn.refl (h : History) : GoesOn h h := ⟨[], (List.append_nil h).symm, .nil⟩

theorem GoesOn.trans {h₁ h₂ h₃ : History} (h : GoesOn h₁ h₂) (h' : GoesOn h₂ h₃) :
    GoesOn h₁ h₃ := by
  obtain ⟨l, rfl, hl⟩ := h
  obtain ⟨l', rfl, hl'⟩ := h'
  refine ⟨l ++ l', List.append_assoc .., fun e he => ?_⟩
  rcases List.mem_append.mp he with he | he
  · exact hl e he
  · exact hl' e he

theorem GoesOn.perform {h : History} {o : Op} (ho : o.isRead = true) (r : o.Resp) :
    GoesOn h (h ++ [⟨o, r⟩]) :=
  ⟨_, rfl, fun e he => by rw [List.mem_singleton.mp he]; exact ho⟩

theorem GoesOn.subset {h h' : History} (hOn : GoesOn h h') : h ⊆ h' := by
  obtain ⟨l, rfl, _⟩ := hOn
  exact List.subset_append_left h l

theorem GoesOn.onlyReads {h h' : History} (hOn : GoesOn h h') (hNone : OnlyReads h) :
    OnlyReads h' := by
  obtain ⟨l, rfl, hl⟩ := hOn
  intro e he
  rcases List.mem_append.mp he with he | he
  · exact hNone e he
  · exact hl e he

/-- Where the grade of a response comes from: the cached grade of this very response, or a
grader. -/
inductive GradeSource (userID lessonID : UUID) (interaction : LessonInteraction)
    (g : GradedResponse) (h : History) : Prop
  | cached : h.Has (.tempGrade userID lessonID interaction.id)
      (some ⟨goLayout.text g.responseJSON, g.grade⟩) → GradeSource userID lessonID interaction g h
  | graded : h.Has (.grade interaction g.responseJSON) g.grade →
      GradeSource userID lessonID interaction g h

theorem GradeSource.mono {userID lessonID : UUID} {interaction : LessonInteraction}
    {g : GradedResponse} {h h' : History} (hSub : h ⊆ h')
    (hSource : GradeSource userID lessonID interaction g h) :
    GradeSource userID lessonID interaction g h' := by
  cases hSource with
  | cached hMem => exact .cached (hSub hMem)
  | graded hMem => exact .graded (hSub hMem)

/-- A response has been graded as one to its interaction. -/
structure GradedFrom (userID lessonID : UUID) (interactions : List LessonInteraction) (h : History)
    (resp : AttemptResponseInput) (g : GradedResponse) (interaction : LessonInteraction) :
    Prop where
  interactionID : g.interactionID = resp.interactionId
  mem : interaction ∈ interactions
  id : interaction.id = resp.interactionId
  responseJSON : ∃ toJSON, responseProtoToJSON (dbStringToKind interaction.kind) = some toJSON ∧
    toJSON resp.response = .ok g.responseJSON
  source : GradeSource userID lessonID interaction g h

theorem GradedFrom.mono {userID lessonID : UUID} {interactions : List LessonInteraction}
    {h h' : History} {resp : AttemptResponseInput} {g : GradedResponse} {i : LessonInteraction}
    (hSub : h ⊆ h') (hi : GradedFrom userID lessonID interactions h resp g i) :
    GradedFrom userID lessonID interactions h' resp g i :=
  { hi with source := hi.source.mono hSub }

/-- The previous attempt is what has been read of it. -/
def PrevRead (userID lessonID : UUID) (h : History)
    (prev : Option (LessonAttempt × List (LessonAttemptResponse × String))) : Prop :=
  ∀ a rs, prev = some (a, rs) → h.Has (.getMyLessonAttempt lessonID userID) (.ok a) ∧
    (rs = [] ∨ h.Has (.listAttemptResponses a.id) (.ok rs))

theorem PrevRead.mono {userID lessonID : UUID} {h h' : History}
    {prev : Option (LessonAttempt × List (LessonAttemptResponse × String))} (hSub : h ⊆ h')
    (hPrev : PrevRead userID lessonID h prev) : PrevRead userID lessonID h' prev := by
  intro a rs hEq
  obtain ⟨hAttempt, hResponses⟩ := hPrev a rs hEq
  exact ⟨hSub hAttempt, hResponses.imp id fun hMem => hSub hMem⟩

/-- The events of a submission that has stored its responses and answers `out`. -/
inductive Submitted (s : InteractionsSvc) (userID : UUID) (req : SubmitAttemptRequest)
    (out : LessonAttempt × List (LessonAttemptResponse × String)) : History → Prop
  | mk {interactions : List LessonInteraction} {graded : List GradedResponse}
      {prev : Option (LessonAttempt × List (LessonAttemptResponse × String))}
      {p : UpsertLessonAttemptParams} {reads tail : History} :
      reads.Has (.listLessonInteractions req.lessonId s.listLimit 0) (.ok interactions) →
      List.Forall₂ (fun resp g => ∃ i, GradedFrom userID req.lessonId interactions reads resp g i)
        req.responses graded →
      PrevRead userID req.lessonId reads prev →
      p.userId = userID → p.lessonId = req.lessonId → OnlyReads reads →
      (∀ e ∈ tail, e.op ∈ cleanup s userID req (oldAudioKeys interactions prev)) →
      Submitted s userID req out (reads ++
        ⟨.upsertAttempt p (graded.map (responseParams req.responses)), .ok out⟩ :: tail)

/-- No transaction has stored anything. -/
def NotStored (h : History) : Prop := ∀ p rs out, ¬ h.Has (.upsertAttempt p rs) (.ok out)

/-- There have been reads, and perhaps a transaction that has failed. -/
def Aborted (h : History) : Prop :=
  ∀ e ∈ h, e.op.isRead = true ∨ ∃ p rs error, e = ⟨.upsertAttempt p rs, .error error⟩

theorem OnlyReads.aborted {h : History} (hNone : OnlyReads h) : Aborted h :=
  fun e he => .inl (hNone e he)

theorem Aborted.notStored {h : History} (hAborted : Aborted h) : NotStored h := by
  intro p rs out hHas
  rcases hAborted _ hHas with hRead | ⟨p', rs', error, hEq⟩
  · cases hRead
  · cases hEq

theorem Aborted.notDeleted {h : History} (hAborted : Aborted h) (k : String) :
    ¬ h.Has (.deleteAudio k) () := by
  intro hHas
  rcases hAborted _ hHas with hRead | ⟨p, rs, error, hEq⟩
  · cases hRead
  · cases hEq

theorem exists_of_forall₂_right {α β : Type} {R : α → β → Prop} {as : List α} {bs : List β}
    (h : List.Forall₂ R as bs) {b : β} (hb : b ∈ bs) : ∃ a ∈ as, R a b := by
  induction h with
  | nil => cases hb
  | cons hab _ ih =>
    rcases List.mem_cons.mp hb with rfl | hb
    · exact ⟨_, List.mem_cons_self .., hab⟩
    · obtain ⟨a, ha, hR⟩ := ih hb
      exact ⟨a, List.mem_cons_of_mem _ ha, hR⟩

theorem exists_of_forall₂_left {α β : Type} {R : α → β → Prop} {as : List α} {bs : List β}
    (h : List.Forall₂ R as bs) {a : α} (ha : a ∈ as) : ∃ b ∈ bs, R a b := by
  have hFlip : List.Forall₂ (fun b a => R a b) bs as := h.flip
  exact exists_of_forall₂_right hFlip ha

/-- Each row that a submission has stored is a graded response of the request. -/
theorem Submitted.stored {s : InteractionsSvc} {userID : UUID} {req : SubmitAttemptRequest}
    {out out' : LessonAttempt × List (LessonAttemptResponse × String)} {h : History}
    {p : UpsertLessonAttemptParams} {rs : List UpsertAttemptResponseParams}
    (hSubmitted : Submitted s userID req out h) (hHas : h.Has (.upsertAttempt p rs) (.ok out')) :
    out' = out ∧ p.userId = userID ∧ p.lessonId = req.lessonId ∧ ∃ interactions,
      h.Has (.listLessonInteractions req.lessonId s.listLimit 0) (.ok interactions) ∧
      ∀ r ∈ rs, ∃ resp ∈ req.responses, ∃ g i,
        GradedFrom userID req.lessonId interactions h resp g i ∧
          r = responseParams req.responses g := by
  cases hSubmitted with
  | @mk interactions graded prev q reads tail hList hGraded hPrev hUser hLesson hReads hTail =>
    rcases List.mem_append.mp hHas with hMem | hMem
    · exact Bool.noConfusion (hReads _ hMem)
    · rcases List.mem_cons.mp hMem with hEq | hMem
      · cases hEq
        refine ⟨rfl, hUser, hLesson, interactions, List.mem_append_left _ hList, fun r hr => ?_⟩
        obtain ⟨g, hg, rfl⟩ := List.mem_map.mp hr
        obtain ⟨resp, hResp, i, hi⟩ := exists_of_forall₂_right hGraded hg
        exact ⟨resp, hResp, g, i, hi.mono (List.subset_append_left ..), rfl⟩
      · exact Bool.noConfusion (isUpsert_of_mem_cleanup s userID (hTail _ hMem))

abbrev Logs {α : Type} (x : Handler α) (ok : α → History → Prop) (err : History → Prop)
    (h : History) : Prop :=
  Prog.Meets (fun o h r h' => h' = h ++ [⟨o, r⟩]) (fun _ _ => True) x ok err h

section Parts

variable {α : Type} {h : History} {s : InteractionsSvc} {userID lessonID : UUID}

theorem logs_orConnectDBError (r : Except DbError α) {ok : α → History → Prop}
    {err : History → Prop} (hErr : ∀ e, r = .error e → err h) (hOk : ∀ a, r = .ok a → ok a h) :
    Logs (orConnectDBError r) ok err h := by
  cases r with
  | error e => exact hErr e rfl
  | ok a => exact hOk a rfl

theorem logs_reads {x : Handler α} (hx : x.run.Performs fun o => o.isRead = true) :
    Logs x (fun _ h' => GoesOn h h') (fun h' => GoesOn h h') h := by
  refine Prog.Performs.meets (I := fun h' => GoesOn h h') hx (fun _ _ _ _ => trivial) ?_ (.refl h)
  rintro o h₁ r _ ho hOn rfl
  exact hOn.trans (.perform ho r)

theorem cachedGrade_logs (interactionID : UUID) (responseJSON : ResponseJSON) :
    Logs (cachedGrade s userID lessonID interactionID responseJSON)
      (fun cached h' => GoesOn h h' ∧ ∀ grade, cached = some grade →
        h'.Has (.tempGrade userID lessonID interactionID)
          (some ⟨goLayout.text responseJSON, grade⟩))
      (fun h' => GoesOn h h') h := by
  unfold cachedGrade
  cases s.kv with
  | false => exact ⟨.refl h, nofun⟩
  | true =>
    refine ⟨trivial, ?_⟩
    rintro cached h' rfl
    refine ⟨.perform rfl cached, fun grade hCached => ?_⟩
    obtain ⟨c, hFilter, rfl⟩ := Option.map_eq_some_iff.mp hCached
    obtain ⟨rfl, hPayload⟩ := Option.filter_eq_some_iff.mp hFilter
    rw [← of_decide_eq_true hPayload]
    exact List.mem_append_right _ (List.mem_singleton.mpr rfl)

theorem gradeResponse_logs (interactions : List LessonInteraction) (resp : AttemptResponseInput) :
    Logs (gradeResponse s userID lessonID interactions resp)
      (fun g h' => GoesOn h h' ∧ ∃ i, GradedFrom userID lessonID interactions h' resp g i)
      (fun h' => GoesOn h h') h := by
  apply meets_gradeResponse s userID lessonID (.refl h)
  intro i toJSON responseJSON hMem hId hKind hJSON
  refine (cachedGrade_logs _ _).mono ?_ fun _ => id
  intro cached h₁ ⟨hOn, hCached⟩
  cases cached with
  | some grade =>
    refine ⟨hOn, i, rfl, hMem, hId, ⟨toJSON, hKind, hJSON⟩, .cached ?_⟩
    rw [hId]
    exact hCached grade rfl
  | none =>
    refine ⟨trivial, fun grade h₂ hNext => ?_⟩
    subst hNext
    exact ⟨hOn.trans (.perform rfl grade), i, rfl, hMem, hId, ⟨toJSON, hKind, hJSON⟩,
      .graded (by simp)⟩

theorem gradeResponses_logs (interactions : List LessonInteraction)
    (responses : List AttemptResponseInput) :
    Logs (gradeResponses s userID lessonID interactions responses)
      (fun graded h' => GoesOn h h' ∧ List.Forall₂
        (fun resp g => ∃ i, GradedFrom userID lessonID interactions h' resp g i) responses graded)
      (fun h' => GoesOn h h') h := by
  refine meets_gradeResponses s userID lessonID (R := GoesOn) (E := GoesOn) (Q := fun h' resp g =>
    ∃ i, GradedFrom userID lessonID interactions h' resp g i) .refl (fun _ _ _ => GoesOn.trans)
    (fun _ _ resp g hOn hGraded => ?_) (fun _ _ _ => GoesOn.trans)
    (fun h => gradeResponse_logs interactions) responses h
  obtain ⟨i, hi⟩ := hGraded
  exact ⟨i, hi.mono hOn.subset⟩

theorem previousAttempt_logs :
    Logs (previousAttempt lessonID userID)
      (fun prev h' => GoesOn h h' ∧ PrevRead userID lessonID h' prev) (fun h' => GoesOn h h')
      h := by
  refine ⟨trivial, ?_⟩
  rintro r h₁ rfl
  have hOn : GoesOn h (h ++ [⟨.getMyLessonAttempt lessonID userID, r⟩]) := .perform rfl r
  cases r with
  | error e => exact ⟨hOn, nofun⟩
  | ok a =>
    refine ⟨trivial, ?_⟩
    rintro r h₂ rfl
    have hOn₂ := hOn.trans (.perform (o := .listAttemptResponses a.id) rfl r)
    cases r with
    | error e =>
      refine ⟨hOn₂, ?_⟩
      rintro _ _ ⟨⟩
      exact ⟨by simp, .inl rfl⟩
    | ok rs =>
      refine ⟨hOn₂, ?_⟩
      rintro _ _ ⟨⟩
      exact ⟨by simp, .inr (by simp)⟩

/-- Operations that are performed one after the other, none of which ends the request. -/
theorem performAll_logs (os : List Op) :
    Logs (performAll os) (fun _ h' => ∃ l, h' = h ++ l ∧ ∀ e ∈ l, e.op ∈ os) (fun _ => False)
      h := by
  induction os generalizing h with
  | nil => exact ⟨[], (List.append_nil h).symm, List.forall_mem_nil _⟩
  | cons o os ih =>
    refine ⟨trivial, ?_⟩
    rintro r _ rfl
    refine Prog.Meets.mono ih ?_ fun _ => id
    rintro _ _ ⟨l, rfl, hOps⟩
    refine ⟨⟨o, r⟩ :: l, List.append_assoc .., fun e he => ?_⟩
    rcases List.mem_cons.mp he with rfl | he
    · exact List.mem_cons_self ..
    · exact List.mem_cons_of_mem _ (hOps e he)

theorem requireAttemptLeft_logs (lesson : Lesson) :
    Logs (requireAttemptLeft lesson lessonID userID) (fun _ h' => GoesOn h h')
      (fun h' => GoesOn h h') h :=
  logs_reads (requireAttemptLeft_performs _ _ lesson rfl)

end Parts

/-- A submission either has stored nothing, or it has stored its graded responses. -/
theorem submitAttempt_logs (s : InteractionsSvc) (caller : Except Error UUID)
    (req : SubmitAttemptRequest) :
    Logs (submitAttempt s caller req)
      (fun out h => ∃ userID, caller = .ok userID ∧ Submitted s userID req out h) Aborted [] := by
  have hNone : OnlyReads [] := .nil
  cases caller with
  | error e => exact hNone.aborted
  | ok userID =>
    refine ⟨trivial, ?_⟩
    rintro r _ rfl
    have hLesson : GoesOn [] [⟨.getLessonByID req.lessonId, r⟩] := .perform rfl r
    refine (Prog.meets_bind _).mpr (logs_orConnectDBError r
      (fun _ _ => (hLesson.onlyReads hNone).aborted) ?_)
    rintro lesson -
    refine (Prog.meets_bind _).mpr ((requireAttemptLeft_logs lesson).mono ?_
      fun h hOn => ((hLesson.trans hOn).onlyReads hNone).aborted)
    rintro _ h₁ hOn₁
    refine ⟨trivial, ?_⟩
    rintro r _ rfl
    have hOn₂ := (hLesson.trans hOn₁).trans
      (.perform (o := .listLessonInteractions req.lessonId s.listLimit 0) rfl r)
    refine (Prog.meets_bind _).mpr (logs_orConnectDBError r
      (fun _ _ => (hOn₂.onlyReads hNone).aborted) ?_)
    rintro interactions rfl
    split
    · exact (hOn₂.onlyReads hNone).aborted
    · refine (Prog.meets_bind _).mpr ((gradeResponses_logs interactions req.responses).mono ?_
        fun h hOn => ((hOn₂.trans hOn).onlyReads hNone).aborted)
      rintro graded h₃ ⟨hOn₃, hGraded⟩
      refine (Prog.meets_bind _).mpr (previousAttempt_logs.mono ?_
        fun h hOn => (((hOn₂.trans hOn₃).trans hOn).onlyReads hNone).aborted)
      rintro prev h₄ ⟨hOn₄, hPrev⟩
      refine (Prog.meets_bind _).mpr ((logs_reads (watchFraction_reads s userID lesson)).mono ?_
        fun h hOn => ((((hOn₂.trans hOn₃).trans hOn₄).trans hOn).onlyReads hNone).aborted)
      rintro fraction h₅ hOn₅
      have hReads := (((hOn₂.trans hOn₃).trans hOn₄).trans hOn₅).onlyReads hNone
      refine ⟨trivial, ?_⟩
      rintro r _ rfl
      cases r with
      | error e =>
        intro e' he'
        rcases List.mem_append.mp he' with hMem | hMem
        · exact .inl (hReads e' hMem)
        · exact .inr ⟨_, _, e, List.mem_singleton.mp hMem⟩
      | ok out =>
        refine (Prog.meets_bind _).mpr (logs_orConnectDBError (.ok out) nofun ?_)
        rintro out' ⟨⟩
        refine (Prog.meets_bind _).mpr ((performAll_logs _).mono ?_ fun _ => False.elim)
        rintro _ _ ⟨tail, rfl, hTail⟩
        have hList : History.Has h₅ (.listLessonInteractions req.lessonId s.listLimit 0)
            (.ok interactions) :=
          (hOn₃.trans (hOn₄.trans hOn₅)).subset (by simp)
        refine ⟨userID, rfl, ?_⟩
        rw [List.append_assoc]
        refine .mk hList (hGraded.imp ?_) (hPrev.mono hOn₅.subset) rfl rfl hReads hTail
        rintro resp g ⟨i, hi⟩
        exact ⟨i, hi.mono (hOn₄.trans hOn₅).subset⟩

/-- What no operation of a submission changes. -/
structure Kept (x x' : Site) : Prop where
  lessons : x'.db.lessons = x.db.lessons
  lessonInteractions : x'.db.lessonInteractions = x.db.lessonInteractions
  config : x'.config = x.config
  tempGrades : x'.tempGrades = x.tempGrades
  coverage : x'.coverage = x.coverage

theorem Kept.refl (x : Site) : Kept x x := ⟨rfl, rfl, rfl, rfl, rfl⟩

theorem Kept.trans {x y z : Site} (h : Kept x y) (h' : Kept y z) : Kept x z :=
  ⟨h'.lessons.trans h.lessons, h'.lessonInteractions.trans h.lessonInteractions,
    h'.config.trans h.config, h'.tempGrades.trans h.tempGrades, h'.coverage.trans h.coverage⟩

section Trace

variable {deps : GradingDeps} {env : SiteEnv} {x x' : Site} {h : History}

theorem siteExec_kept {o : Op} {r : o.Resp} (hExec : siteExec deps env o x = some (r, x')) :
    Kept x x' := by
  obtain ⟨db, hDb, rfl⟩ := siteExec_cases hExec
  obtain rfl | ⟨p, rs, a, rfl, _, _, rfl⟩ := exec_cases hDb
  · exact ⟨rfl, rfl, rfl, rfl, rfl⟩
  · exact ⟨by simp, by simp [upsertLessonAttempt], rfl, rfl, rfl⟩

theorem siteExec_db {o : Op} {r : o.Resp} (ho : o.isUpsert = false)
    (hExec : siteExec deps env o x = some (r, x')) : x'.db = x.db := by
  obtain ⟨db, hDb, rfl⟩ := siteExec_cases hExec
  obtain rfl | ⟨p, rs, a, rfl, _⟩ := exec_cases hDb
  · rfl
  · cases ho

theorem trace_kept (hTrace : Prog.Trace (siteExec deps) x h x') : Kept x x' := by
  refine Prog.Trace.invariant (A := fun _ => True) (I := Kept x) ?_ hTrace (fun _ _ => trivial)
    (.refl x)
  intro _ _ _ _ _ _ hExec hKept
  exact hKept.trans (siteExec_kept hExec)

theorem trace_db (hTrace : Prog.Trace (siteExec deps) x h x')
    (hNone : ∀ e ∈ h, e.op.isUpsert = false) : x'.db = x.db := by
  refine Prog.Trace.invariant (A := fun e : Prog.Event Op Op.Resp => e.op.isUpsert = false)
    (I := fun y => y.db = x.db) ?_ hTrace hNone rfl
  intro _ _ _ _ _ ho hExec hDb
  exact (siteExec_db ho hExec).trans hDb

/-! What the events of a submission say about the stores before it. -/

theorem trace_tempGrade (hTrace : Prog.Trace (siteExec deps) x h x')
    {userID lessonID interactionID : UUID} {c : FdbTempGradeCache}
    (hHas : h.Has (.tempGrade userID lessonID interactionID) (some c)) :
    x.tempGrade userID lessonID interactionID = some c := by
  obtain ⟨before, after, w, u, v, -, hBefore, hExec, -⟩ := hTrace.event hHas
  obtain ⟨db, hDb, -⟩ := siteExec_cases hExec
  simp only [exec, SiteEnv.toEnv, Option.some.injEq, Prod.mk.injEq] at hDb
  obtain ⟨hCached, -⟩ := hDb
  split at hCached
  · cases hCached
  · rw [Site.tempGrade, (trace_kept hBefore).tempGrades, ← Site.tempGrade] at hCached
    exact hCached

theorem trace_grade (hTrace : Prog.Trace (siteExec deps) x h x') {i : LessonInteraction}
    {r : ResponseJSON} {g : Grade} (hHas : h.Has (.grade i r) g) :
    ∃ outcome, g = submitGrade deps outcome (dbStringToKind i.kind) (x.config i.id) r := by
  obtain ⟨before, after, w, u, v, -, hBefore, hExec, -⟩ := hTrace.event hHas
  obtain ⟨db, hDb, -⟩ := siteExec_cases hExec
  simp only [exec, SiteEnv.toEnv, Option.some.injEq, Prod.mk.injEq] at hDb
  rw [(trace_kept hBefore).config] at hDb
  exact ⟨w.outcome, hDb.1.symm⟩

theorem trace_fraction (hTrace : Prog.Trace (siteExec deps) x h x') {userID lessonID : UUID}
    {durationSeconds : Nat} {f : ℚ}
    (hHas : h.Has (.watchCoverageFraction userID lessonID durationSeconds) (some f)) :
    f = Kv.watchCoverageFraction durationSeconds (x.watched userID lessonID).bitmap := by
  obtain ⟨before, after, w, u, v, -, hBefore, hExec, -⟩ := hTrace.event hHas
  obtain ⟨db, hDb, -⟩ := siteExec_cases hExec
  simp only [exec, SiteEnv.toEnv, Option.some.injEq, Prod.mk.injEq] at hDb
  obtain ⟨hFraction, -⟩ := hDb
  split at hFraction
  · cases hFraction
  · rw [Site.watched, (trace_kept hBefore).coverage, ← Site.watched] at hFraction
    exact (Option.some_inj.mp hFraction).symm

theorem trace_lesson (hTrace : Prog.Trace (siteExec deps) x h x') {lessonID : UUID}
    {lesson : Lesson} (hHas : h.Has (.getLessonByID lessonID) (.ok lesson)) :
    x.db.lessons.find lessonID = some lesson := by
  obtain ⟨before, after, w, u, v, -, hBefore, hExec, -⟩ := hTrace.event hHas
  obtain ⟨db, hDb, -⟩ := siteExec_cases hExec
  simp only [exec, Option.some.injEq, Prod.mk.injEq, orFailure_eq_ok, one_eq_ok] at hDb
  rw [← (trace_kept hBefore).lessons]
  exact hDb.1.2

theorem trace_listed (hTrace : Prog.Trace (siteExec deps) x h x') {lessonID : UUID}
    {limit offset : Nat} {is : List LessonInteraction}
    (hHas : h.Has (.listLessonInteractions lessonID limit offset) (.ok is)) :
    is = listLessonInteractions lessonID limit offset x.db := by
  obtain ⟨before, after, w, u, v, -, hBefore, hExec, -⟩ := hTrace.event hHas
  obtain ⟨db, hDb, -⟩ := siteExec_cases hExec
  simp only [exec, Option.some.injEq, Prod.mk.injEq, orFailure_eq_ok, Except.ok.injEq] at hDb
  rw [← hDb.1.2, listLessonInteractions, (trace_kept hBefore).lessonInteractions,
    ← listLessonInteractions]

theorem trace_previous (hTrace : Prog.Trace (siteExec deps) x h x') (hNone : OnlyReads h)
    {userID lessonID : UUID} {a : LessonAttempt}
    (hHas : h.Has (.getMyLessonAttempt lessonID userID) (.ok a)) :
    x.db.lessonAttempts.find (userID, lessonID) = some a := by
  obtain ⟨before, after, w, u, v, rfl, hBefore, hExec, -⟩ := hTrace.event hHas
  have hSame := trace_db hBefore fun e he =>
    Op.isUpsert_of_isRead (hNone e (List.mem_append_left _ he))
  obtain ⟨db, hDb, -⟩ := siteExec_cases hExec
  simp only [exec, Option.some.injEq, Prod.mk.injEq, orFailure_eq_ok, one_eq_ok] at hDb
  rw [← hSame]
  exact hDb.1.2

theorem trace_responses (hTrace : Prog.Trace (siteExec deps) x h x') (hNone : OnlyReads h)
    {attemptId : UUID} {rs : List (LessonAttemptResponse × String)}
    (hHas : h.Has (.listAttemptResponses attemptId) (.ok rs)) :
    rs = listAttemptResponses attemptId x.db := by
  obtain ⟨before, after, w, u, v, rfl, hBefore, hExec, -⟩ := hTrace.event hHas
  have hSame := trace_db hBefore fun e he =>
    Op.isUpsert_of_isRead (hNone e (List.mem_append_left _ he))
  obtain ⟨db, hDb, -⟩ := siteExec_cases hExec
  simp only [exec, Option.some.injEq, Prod.mk.injEq, orFailure_eq_ok, Except.ok.injEq] at hDb
  rw [← hSame]
  exact hDb.1.2.symm

/-- A transaction that is answered has stored the attempt and the responses. -/
theorem siteExec_upsert {p : UpsertLessonAttemptParams} {rs : List UpsertAttemptResponseParams}
    {out : LessonAttempt × List (LessonAttemptResponse × String)}
    (hExec : siteExec deps env (.upsertAttempt p rs) x = some (.ok out, x')) :
    out.1 = upserted p env.newID x.db ∧
      x'.db = rs.foldl (upsertAttemptResponse out.1.id) (upsertLessonAttempt p env.newID x.db) := by
  obtain ⟨db, hDb, rfl⟩ := siteExec_cases hExec
  simp only [exec, SiteEnv.toEnv] at hDb
  split at hDb
  · cases hDb
  · simp only [upsertAttempt, find_upsertLessonAttempt, if_true] at hDb
    split at hDb
    · cases hDb
    · split at hDb
      · cases hDb
        exact ⟨rfl, rfl⟩
      · cases hDb

/-- What a submission that stores its responses makes of the tables. -/
theorem trace_stored (hTrace : Prog.Trace (siteExec deps) x h x') {reads tail : History}
    {p : UpsertLessonAttemptParams} {rs : List UpsertAttemptResponseParams}
    {out : LessonAttempt × List (LessonAttemptResponse × String)}
    (hParts : h = reads ++ ⟨.upsertAttempt p rs, .ok out⟩ :: tail)
    (hReads : OnlyReads reads) (hTail : ∀ e ∈ tail, e.op.isUpsert = false) :
    ∃ newID, out.1 = upserted p newID x.db ∧
      x'.db = rs.foldl (upsertAttemptResponse out.1.id) (upsertLessonAttempt p newID x.db) := by
  subst hParts
  obtain ⟨u, hBefore, hRest⟩ := hTrace.of_append
  have hSame := trace_db hBefore fun e he => Op.isUpsert_of_isRead (hReads e he)
  cases hRest with
  | cons hExec hAfter =>
    obtain ⟨hOut, hDb⟩ := siteExec_upsert hExec
    rw [hSame] at hOut hDb
    exact ⟨_, hOut, (trace_db hAfter hTail).trans hDb⟩

end Trace

end Richter.Interactions
