import Richter.Interactions.Recordings

/-! The objects that the interactions service downloads and deletes for a student.  Their keys are
what the student's responses say they are, while only an upload is checked for being a recording
(`internal/svc/storage/storage.go`). -/

namespace Richter.Interactions

open Lib
open Lessons (trimSpace)

/-- `strings.SplitN` at the slashes, into at most `n + 1` parts. -/
def splitN : Nat → List Char → List (List Char)
  | 0, s => [s]
  | n + 1, s =>
    match s.dropWhile (· ≠ '/') with
    | [] => [s]
    | _ :: rest => s.takeWhile (· ≠ '/') :: splitN n rest

/-- `path.Ext`. -/
def pathExt (s : List Char) : List Char :=
  let suffix := s.reverse.takeWhile fun c => c ≠ '.' && c ≠ '/'
  if (s.reverse.drop suffix.length).head? = some '.' then '.' :: suffix.reverse else []

def allowedStudentRecordingExts : List String := [".wav", ".webm", ".ogg", ".mp3", ".m4a"]

section Keys

/-! `nfc` is the Unicode normalization of the keys.  No letter outside ASCII is in lower case one of
the letters of the extensions. -/

variable (nfc : String → String)

def normalizeStorageKey (key : String) : String := nfc key

def isStudentRecordingKey (key : String) : Bool :=
  match splitN 3 (normalizeStorageKey nfc key).toList with
  | [root, _, folder, name] =>
      root = "lessons".toList && folder = "student-recordings".toList &&
        String.ofList ((pathExt name).map Char.toLower) ∈ allowedStudentRecordingExts
  | _ => false

/-- The lesson that a key names in its second part. -/
def keyLesson (key : String) : Option String :=
  (splitN 3 (normalizeStorageKey nfc key).toList)[1]?.map String.ofList

/-- The key is one of a student's recordings for the lesson. -/
def isRecordingOf (lessonID : UUID) (key : String) : Bool :=
  isStudentRecordingKey nfc key && keyLesson nfc key = some (toString lessonID)

end Keys

/-- The recording that a grader downloads: that of a reading, when the grading dependencies are
there. -/
def GradingDeps.downloads (deps : GradingDeps) (kind : InteractionKind) (resp : ResponseJSON) :
    List String :=
  match deps, kind with
  | .resolved, .reading =>
      if trimSpace resp.audioObjectKey = "" then [] else [resp.audioObjectKey]
  | _, _ => []

/-- The recordings that the graders of a submission download. -/
def History.downloaded (deps : GradingDeps) (h : History) : List String :=
  h.flatMap fun
    | ⟨.grade i r, _⟩ => deps.downloads (dbStringToKind i.kind) r
    | _ => []

def SingleGradeTarget.downloads (deps : GradingDeps) (target : SingleGradeTarget) : List String :=
  deps.downloads (dbStringToKind target.interaction.kind) target.responseJSON

/-- The objects that a call of a student downloads and deletes, each with the lesson that the call
names. -/
def objects (x : Session) (a : Action) (x' : Session) : List (UUID × String) :=
  match a with
  | .submitAttempt deps _ _ req =>
      (x'.last.downloaded deps ++ x'.last.deletedAudio).map fun k => (req.lessonId, k)
  | .previewGrade deps env caller member isStaff lessonID respInput =>
      ((x.site.previewTarget env caller member isStaff lessonID respInput).toOption.elim []
        fun t => t.2.downloads deps).map fun k => (lessonID, k)
  | .saveAttemptResponse deps env caller member lessonID respInput =>
      ((x.site.saveTarget env caller member lessonID respInput).toOption.elim []
        fun t => t.2.downloads deps).map fun k => (lessonID, k)
  | _ => []

/-- A session, and the objects that its calls have reached. -/
structure Reach where
  session : Session
  objects : List (UUID × String)

def Reach.start (site : Site) : Reach := ⟨.start site, []⟩

def reach (s : InteractionsSvc) (cfg : AIConfig) : Machine Reach Action where
  step l a := ((session s cfg).step l.session a).map fun x' =>
    ⟨x', l.objects ++ objects l.session a x'⟩

/-- Every object that has been reached is a recording for the lesson that the call has named. -/
def OnlyRecordings (nfc : String → String) (l : Reach) : Prop :=
  ∀ o ∈ l.objects, isRecordingOf nfc o.1 o.2 = true

instance (nfc : String → String) (l : Reach) : Decidable (OnlyRecordings nfc l) := by
  unfold OnlyRecordings; infer_instance

/-- The recording that an answer refers to. -/
def Answer.audioObjectKey : Answer → String
  | .reading audioObjectKey => audioObjectKey
  | _ => ""

/-- Every answer that a call of a user carries refers to no recording, or to one for the call's
lesson.  Only a submission stores its answers. -/
def namesRecordings (nfc : String → String) : Action → Bool
  | .submitAttempt _ _ (.ok _) req => req.responses.all fun resp =>
      resp.response.audioObjectKey = "" ||
        isRecordingOf nfc req.lessonId resp.response.audioObjectKey
  | .previewGrade _ _ (.ok _) (.ok _) _ lessonID (some input)
  | .saveAttemptResponse _ _ (.ok _) (.ok _) lessonID (some input) =>
      trimSpace input.response.audioObjectKey = "" ||
        isRecordingOf nfc lessonID input.response.audioObjectKey
  | _ => true

/-- Attempts have ids of their own, responses belong to attempts, and the recordings of the stored
readings are ones for the lessons of their attempts. -/
structure StoresRecordings (nfc : String → String) (db : Db) : Prop where
  ids : ∀ a ∈ db.lessonAttempts.rows, ∀ b ∈ db.lessonAttempts.rows, a.id = b.id → a = b
  owner : ∀ r ∈ db.lessonAttemptResponses.rows, ∃ a ∈ db.lessonAttempts.rows, a.id = r.attemptId
  recording : ∀ r ∈ db.lessonAttemptResponses.rows, ∀ a ∈ db.lessonAttempts.rows,
    a.id = r.attemptId → ∀ k, r.response = .reading k →
      k = "" ∨ isRecordingOf nfc a.lessonId k = true

section Stored

variable {nfc : String → String} {db db' : Db}

theorem StoresRecordings.of_empty (hAttempts : db.lessonAttempts.rows = [])
    (hResponses : db.lessonAttemptResponses.rows = []) : StoresRecordings nfc db := by
  constructor <;> simp [hAttempts, hResponses]

theorem StoresRecordings.narrows (h : StoresRecordings nfc db) (hNarrows : db.Narrows db') :
    StoresRecordings nfc db' where
  ids a ha b hb := h.ids a (hNarrows.attempts a ha) b (hNarrows.attempts b hb)
  owner r hr := by
    obtain ⟨hOld, hKept⟩ := hNarrows.responses r hr
    obtain ⟨a, ha, hId⟩ := h.owner r hOld
    exact ⟨a, hKept a ha hId, hId⟩
  recording r hr a ha := h.recording r (hNarrows.responses r hr).1 a (hNarrows.attempts a ha)

/-- The recordings depend on the attempts and the responses only. -/
theorem StoresRecordings.of_eq (h : StoresRecordings nfc db)
    (hAttempts : db'.lessonAttempts = db.lessonAttempts)
    (hResponses : db'.lessonAttemptResponses = db.lessonAttemptResponses) :
    StoresRecordings nfc db' := by
  obtain ⟨hIds, hOwner, hRecording⟩ := h
  constructor
  · rwa [hAttempts]
  · rwa [hAttempts, hResponses]
  · rwa [hAttempts, hResponses]

/-- A transaction that stores recordings for its lesson. -/
theorem StoresRecordings.store {p : UpsertLessonAttemptParams}
    {rs : List UpsertAttemptResponseParams} {newID : UUID} (h : StoresRecordings nfc db)
    (hFresh : ∀ b ∈ db.lessonAttempts.rows, b.id ≠ newID)
    (hRecordings : ∀ r ∈ rs, ∀ k, r.response = .reading k →
      k = "" ∨ isRecordingOf nfc p.lessonId k = true) :
    StoresRecordings nfc (rs.foldl (upsertAttemptResponse (upserted p newID db).id)
      (upsertLessonAttempt p newID db)) := by
  have hLesson : (upserted p newID db).lessonId = p.lessonId := by
    rw [upserted]
    cases hFind : db.lessonAttempts.find (p.userId, p.lessonId) with
    | none => rfl
    | some a => exact congrArg Prod.snd (Table.find_key hFind)
  -- A response that was there before and is now one of the attempt belongs to the row that it had.
  have hOld : ∀ r ∈ db.lessonAttemptResponses.rows, r.attemptId = (upserted p newID db).id →
      ∀ k, r.response = .reading k → k = "" ∨ isRecordingOf nfc p.lessonId k = true := by
    intro r hr hId k hk
    obtain ⟨a, ha, haId⟩ := h.owner r hr
    have hRow : a.lessonId = p.lessonId := by
      have hSame : a.id = (upserted p newID db).id := haId.trans hId
      rw [upserted_id] at hSame
      cases hFind : db.lessonAttempts.find (p.userId, p.lessonId) with
      | none =>
        rw [hFind] at hSame
        exact absurd hSame (hFresh a ha)
      | some b =>
        rw [hFind] at hSame
        obtain ⟨hb, hKey⟩ := Table.find_eq_some_iff.mp hFind
        rw [h.ids a ha b hb hSame]
        exact congrArg Prod.snd hKey
    rw [← hRow]
    exact h.recording r hr a ha haId k hk
  refine ⟨fun a ha b hb => ids_store h.ids hFresh ha hb,
    fun r => owner_store h.ids hFresh h.owner, fun r hr a ha haId k hk => ?_⟩
  rcases (mem_store h.ids hFresh).mp ha with rfl | ⟨ha, haOther⟩
  · rw [hLesson]
    rcases mem_foldl_upsertAttemptResponse hr with hr | ⟨q, hq, _, hResponse⟩
    · exact hOld r hr haId.symm k hk
    · exact hRecordings q hq k (hResponse.symm.trans hk)
  · rcases mem_foldl_upsertAttemptResponse hr with hr | ⟨_, _, hId, _⟩
    · exact h.recording r hr a ha haId k hk
    · exact absurd (haId.trans hId) haOther

end Stored

/-- An operation that grades a response grades one of the user's request. -/
def GradesRequest (caller : Except Error UUID) (req : SubmitAttemptRequest) : Op → Prop
  | .grade interaction response => (∃ userID, caller = .ok userID) ∧
      ∃ resp ∈ req.responses, ∃ toJSON,
        responseProtoToJSON (dbStringToKind interaction.kind) = some toJSON ∧
          toJSON resp.response = .ok response
  | _ => True

section Grades

variable {s : InteractionsSvc} {userID lessonID : UUID} {req : SubmitAttemptRequest}

theorem gradeResponse_gradesRequest {resp : AttemptResponseInput} (hResp : resp ∈ req.responses)
    (interactions : List LessonInteraction) :
    (gradeResponse s userID lessonID interactions resp).run.Performs
      (GradesRequest (.ok userID) req) := by
  unfold gradeResponse
  split
  · trivial
  · next interaction _ =>
    split
    · trivial
    · next toJSON hKind =>
      split
      · trivial
      · next responseJSON hJSON =>
        refine (cachedGrade_performs s userID lessonID responseJSON trivial).exceptT_bind
          fun cached => ?_
        cases cached with
        | some grade => trivial
        | none =>
          have hGrade : GradesRequest (.ok userID) req (.grade interaction responseJSON) :=
            ⟨⟨userID, rfl⟩, resp, hResp, toJSON, hKind, hJSON⟩
          exact ⟨hGrade, fun _ => trivial⟩

theorem gradeResponses_gradesRequest (interactions : List LessonInteraction)
    {responses : List AttemptResponseInput} (hResponses : ∀ r ∈ responses, r ∈ req.responses) :
    (gradeResponses s userID lessonID interactions responses).run.Performs
      (GradesRequest (.ok userID) req) := by
  induction responses with
  | nil => trivial
  | cons resp rest ih =>
    rw [List.forall_mem_cons] at hResponses
    refine (gradeResponse_gradesRequest hResponses.1 interactions).exceptT_bind fun graded => ?_
    exact (ih hResponses.2).exceptT_bind fun _ => trivial

theorem orConnectDBError_performs {α : Type} {A : Op → Prop} (r : Except DbError α) :
    (orConnectDBError r).run.Performs A := by
  cases r <;> trivial

theorem submitAttempt_gradesRequest (s : InteractionsSvc) (caller : Except Error UUID)
    (req : SubmitAttemptRequest) :
    (submitAttempt s caller req).run.Performs (GradesRequest caller req) := by
  cases caller with
  | error e => trivial
  | ok userID =>
    refine ⟨trivial, fun r => ?_⟩
    refine (orConnectDBError_performs r).exceptT_bind fun lesson => ?_
    refine (requireAttemptLeft_performs userID req.lessonId lesson trivial).exceptT_bind
      fun _ => ⟨trivial, fun r => ?_⟩
    refine (orConnectDBError_performs r).exceptT_bind fun interactions => ?_
    split
    · trivial
    · refine (gradeResponses_gradesRequest interactions fun _ => id).exceptT_bind fun graded => ?_
      refine (previousAttempt_performs userID req.lessonId trivial
        fun _ => trivial).exceptT_bind fun prev => ?_
      refine (watchFraction_performs s userID lesson fun _ => trivial).exceptT_bind
        fun fraction => ⟨trivial, fun r => ?_⟩
      refine (orConnectDBError_performs r).exceptT_bind fun out => ?_
      refine (performAll_performs ?_).exceptT_bind fun _ => trivial
      exact of_mem_cleanup s userID (fun _ => trivial) fun _ _ => trivial

end Grades

/-- A response that a transaction stores, if it is a reading, has a recording for the attempt's
lesson. -/
def KeepsRecordings (nfc : String → String) (e : Prog.Event Op Op.Resp) : Prop :=
  ∀ p rs out, e = ⟨.upsertAttempt p rs, .ok out⟩ → ∀ r ∈ rs, ∀ k, r.response = .reading k →
    k = "" ∨ isRecordingOf nfc p.lessonId k = true

theorem siteExec_storesRecordings {nfc : String → String} {deps : GradingDeps} {env : SiteEnv}
    {x x' : Site} {o : Op} {r : o.Resp} (hKeeps : KeepsRecordings nfc ⟨o, r⟩)
    (hExec : siteExec deps env o x = some (r, x')) (h : StoresRecordings nfc x.db) :
    StoresRecordings nfc x'.db := by
  obtain ⟨db, hDb, rfl⟩ := siteExec_cases hExec
  obtain rfl | ⟨p, rs, a, rfl, hFresh, ha, rfl⟩ := exec_cases hDb
  · exact h
  · cases r with
    | error e =>
      -- A transaction that fails leaves the database, so that it is the one before it.
      have hSame := exec_upsert_error hDb
      exact h.of_eq (congrArg Db.lessonAttempts hSame) (congrArg Db.lessonAttemptResponses hSame)
    | ok out =>
      rw [find_upsertLessonAttempt, if_pos rfl] at ha
      cases ha
      exact h.store hFresh (hKeeps p rs out rfl)

theorem addWatchCoverage_db {x : Site} {cfg : AIConfig} {userID : UUID}
    {req : UpdateWatchProgressRequest} {durationSec nowUnixMs : Int} :
    (x.addWatchCoverage cfg userID req durationSec nowUnixMs).db = x.db := by
  unfold Site.addWatchCoverage
  split <;> rfl

section Step

variable {nfc : String → String} {s : InteractionsSvc} {cfg : AIConfig} {x x' : Session}
  {a : Action}

/-- The answer to a reading that a submission stores or grades refers to a recording for its
lesson. -/
theorem recording_of_toJSON {deps : GradingDeps} {envs : List SiteEnv} {userID : UUID}
    {req : SubmitAttemptRequest} {kind : InteractionKind}
    {toJSON : Answer → Except Error ResponseJSON} {resp : AttemptResponseInput} {k : String}
    (hNames : namesRecordings nfc (.submitAttempt deps envs (.ok userID) req) = true)
    (hResp : resp ∈ req.responses) (hKind : responseProtoToJSON kind = some toJSON)
    (hJSON : toJSON resp.response = .ok (.reading k)) :
    k = "" ∨ isRecordingOf nfc req.lessonId k = true := by
  have hAll := List.all_eq_true.mp hNames resp hResp
  rw [reading_of_toJSON hKind hJSON, Bool.or_eq_true, decide_eq_true_eq] at hAll
  exact hAll

theorem step_keepsRecordings {deps : GradingDeps} {envs : List SiteEnv}
    {caller : Except Error UUID} {req : SubmitAttemptRequest}
    (hNames : namesRecordings nfc (.submitAttempt deps envs caller req) = true)
    (h : (session s cfg).step x (.submitAttempt deps envs caller req) = some x') :
    ∀ e ∈ x'.last, KeepsRecordings nfc e := by
  rintro _ he p rs out rfl r hr k hk
  obtain ⟨-, -, -, hResult⟩ := step_submitAttempt h
  rcases hResult with ⟨userID, out', rfl, hSubmitted⟩ | hAborted
  · obtain ⟨-, -, hLesson, interactions, -, hRows⟩ := hSubmitted.stored he
    obtain ⟨resp, hResp, g, i, hi, rfl⟩ := hRows r hr
    obtain ⟨toJSON, hKind, hJSON⟩ := hi.responseJSON
    have hReading : g.responseJSON = .reading k := hk
    rw [hReading] at hJSON
    rw [hLesson]
    exact recording_of_toJSON hNames hResp hKind hJSON
  · exact absurd he (hAborted.notStored p rs out)

/-- Every call leaves stored only recordings for the lessons of their attempts. -/
theorem step_storesRecordings (hNames : namesRecordings nfc a = true)
    (h : (session s cfg).step x a = some x') (hStores : StoresRecordings nfc x.site.db) :
    StoresRecordings nfc x'.site.db := by
  cases called_of_step h with
  | submitted hTrace =>
    refine Prog.Trace.invariant (A := KeepsRecordings nfc)
      (I := fun y => StoresRecordings nfc y.db) ?_ hTrace (step_keepsRecordings hNames h) hStores
    exact fun _ _ _ _ _ hKeeps hExec => siteExec_storesRecordings hKeeps hExec
  | kept hSite =>
    rw [hSite]
    exact hStores
  | previewed _ _ hSite =>
    rw [hSite, cacheGrade_db]
    exact hStores
  | saved _ hSite =>
    rw [hSite, cacheGrade_db]
    exact hStores
  | updated hCall =>
    obtain ⟨_, _, _, -, hSite, -⟩ := Site.updateInteraction_cases hCall
    rw [hSite]
    exact hStores.of_eq rfl rfl
  | created hCall =>
    obtain ⟨-, _, _, -, hSite, -⟩ := Site.createManualInteraction_cases hCall
    rw [hSite]
    exact hStores.of_eq rfl rfl
  | reported hSite =>
    rcases hSite with hSite | ⟨durationSec, hSite⟩
    · rw [hSite]
      exact hStores
    · rw [hSite, addWatchCoverage_db]
      exact hStores
  | videoSet hSite hNarrows =>
    rw [hSite]
    exact hStores.narrows hNarrows
  | deleted hSite =>
    rw [hSite]
    exact hStores

/-- What a grader downloads is the recording that the answer refers to. -/
theorem download_cases {deps : GradingDeps} {kind : InteractionKind} {answer : Answer}
    {toJSON : Answer → Except Error ResponseJSON} {response : ResponseJSON} {k : String}
    (hKind : responseProtoToJSON kind = some toJSON) (hJSON : toJSON answer = .ok response)
    (hMem : k ∈ deps.downloads kind response) : answer.audioObjectKey = k ∧ trimSpace k ≠ "" := by
  unfold GradingDeps.downloads at hMem
  split at hMem
  · split at hMem
    · cases hMem
    · next hText =>
      obtain rfl := List.mem_singleton.mp hMem
      refine ⟨?_, hText⟩
      cases hKind
      cases answer <;> cases hJSON
      rfl
  · cases hMem

theorem ne_of_trimSpace {k : String} (hText : trimSpace k ≠ "") : k ≠ "" := by
  rintro rfl
  exact hText Lessons.trimSpace_empty

/-- What a call that grades one response downloads is a recording for its lesson. -/
theorem target_downloads {deps : GradingDeps} {failure : Option DbError} {site : Site}
    {lessonID : UUID} {respInput : Option AttemptResponseInput} {target : SingleGradeTarget}
    {k : String} (hTarget : site.lookupSingleGradeTarget failure lessonID respInput = .ok target)
    (hNames : ∀ input, respInput = some input → trimSpace input.response.audioObjectKey = "" ∨
      isRecordingOf nfc lessonID input.response.audioObjectKey = true)
    (hMem : k ∈ target.downloads deps) : isRecordingOf nfc lessonID k = true := by
  obtain ⟨input, hInput, -, toJSON, hKind, hJSON⟩ := Site.lookupSingleGradeTarget_cases hTarget
  obtain ⟨rfl, hText⟩ := download_cases hKind hJSON hMem
  exact (hNames input hInput).resolve_left hText

theorem step_gradesRequest {deps : GradingDeps} {envs : List SiteEnv} {caller : Except Error UUID}
    {req : SubmitAttemptRequest}
    (h : (session s cfg).step x (.submitAttempt deps envs caller req) = some x') :
    ∀ e ∈ x'.last, GradesRequest caller req e.op := by
  obtain ⟨⟨result, site, last⟩, hLog, rfl⟩ := Option.map_eq_some_iff.mp h
  exact (submitAttempt_gradesRequest s caller req).of_log hLog

/-- The old recordings are those of stored readings. -/
theorem of_mem_oldAudioKeys {interactions : List LessonInteraction} {attempt : LessonAttempt}
    {rs : List (LessonAttemptResponse × String)} {k : String}
    (hMem : k ∈ oldAudioKeys interactions (some (attempt, rs))) :
    ∃ r ∈ rs, r.1.response = .reading k ∧ k ≠ "" := by
  obtain ⟨r, hr, hKey⟩ := List.mem_filterMap.mp hMem
  obtain ⟨i, -, hKey⟩ := Option.bind_eq_some_iff.mp hKey
  unfold audioObjectKeyFromResponse at hKey
  split at hKey
  · next audioObjectKey hResponse =>
    split at hKey
    · next hBoth =>
      cases hKey
      exact ⟨r, hr, hResponse, hBoth.2⟩
    · cases hKey
  · cases hKey

/-- The recordings that a submission downloads and deletes are ones for its lesson. -/
theorem submission_objects {deps : GradingDeps} {envs : List SiteEnv} {caller : Except Error UUID}
    {req : SubmitAttemptRequest} {k : String}
    (hNames : namesRecordings nfc (.submitAttempt deps envs caller req) = true)
    (h : (session s cfg).step x (.submitAttempt deps envs caller req) = some x')
    (hStores : StoresRecordings nfc x.site.db)
    (hMem : k ∈ x'.last.downloaded deps ++ x'.last.deletedAudio) :
    isRecordingOf nfc req.lessonId k = true := by
  rcases List.mem_append.mp hMem with hDownloaded | hDeleted
  · obtain ⟨e, he, hKey⟩ := List.mem_flatMap.mp hDownloaded
    split at hKey
    · next i r _ =>
      obtain ⟨⟨userID, rfl⟩, resp, hResp, toJSON, hKind, hJSON⟩ := step_gradesRequest h _ he
      obtain ⟨hAnswer, hText⟩ := download_cases hKind hJSON hKey
      have hNamed := List.all_eq_true.mp hNames resp hResp
      rw [hAnswer, Bool.or_eq_true, decide_eq_true_eq] at hNamed
      exact hNamed.resolve_left (ne_of_trimSpace hText)
    · cases hKey
  · obtain ⟨hTrace, -, -, hResult⟩ := step_submitAttempt h
    have hHas := has_of_mem_deletedAudio hDeleted
    rcases hResult with ⟨userID, out, rfl, hSubmitted⟩ | hAborted
    · obtain ⟨-, a, hFind, -, hOld⟩ := deleted_recording hTrace hSubmitted hHas
      obtain ⟨⟨r, kind⟩, hr, hResponse, hText⟩ := of_mem_oldAudioKeys hOld
      obtain ⟨hRow, hAttempt, -⟩ := mem_listAttemptResponses.mp hr
      obtain ⟨ha, hKey⟩ := Table.find_eq_some_iff.mp hFind
      have hLesson : a.lessonId = req.lessonId := congrArg Prod.snd hKey
      rw [← hLesson]
      exact (hStores.recording r hRow a ha hAttempt.symm k hResponse).resolve_left hText
    · exact absurd hHas (hAborted.notDeleted k)

/-- What a call downloads and deletes are recordings for its lesson. -/
theorem step_objects (hNames : namesRecordings nfc a = true)
    (h : (session s cfg).step x a = some x') (hStores : StoresRecordings nfc x.site.db) :
    ∀ o ∈ objects x a x', isRecordingOf nfc o.1 o.2 = true := by
  intro o ho
  cases a with
  | submitAttempt deps envs caller req =>
    obtain ⟨k, hk, rfl⟩ := List.mem_map.mp ho
    exact submission_objects hNames h hStores hk
  | previewGrade deps env caller member isStaff lessonID respInput =>
    obtain ⟨k, hk, rfl⟩ := List.mem_map.mp ho
    cases hTarget : x.site.previewTarget env caller member isStaff lessonID respInput with
    | error e => rw [hTarget] at hk; cases hk
    | ok t =>
      rw [hTarget] at hk
      obtain ⟨rfl, rfl, hLookup⟩ :=
        Site.saveTarget_cases (Site.saveTarget_of_previewTarget hTarget)
      refine target_downloads hLookup (fun input hInput => ?_) hk
      subst hInput
      simpa [namesRecordings] using hNames
  | saveAttemptResponse deps env caller member lessonID respInput =>
    obtain ⟨k, hk, rfl⟩ := List.mem_map.mp ho
    cases hTarget : x.site.saveTarget env caller member lessonID respInput with
    | error e => rw [hTarget] at hk; cases hk
    | ok t =>
      rw [hTarget] at hk
      obtain ⟨rfl, rfl, hLookup⟩ := Site.saveTarget_cases hTarget
      refine target_downloads hLookup (fun input hInput => ?_) hk
      subst hInput
      simpa [namesRecordings] using hNames
  | updateInteraction => cases ho
  | createManualInteraction => cases ho
  | updateWatchProgress => cases ho
  | updateLessonVideo => cases ho
  | deleteTempGrade => cases ho

end Step

/-- In every run in which each answer of a student's call refers to no recording or to one for the
lesson of the call, only such recordings are downloaded and deleted. -/
theorem only_recordings_reached {nfc : String → String} {s : InteractionsSvc} {cfg : AIConfig}
    {site : Site} {steps : List Action} {l : Reach} (hSite : StoresRecordings nfc site.db)
    (hRun : (reach s cfg).Runs (fun _ a => namesRecordings nfc a = true) (.start site) steps l) :
    OnlyRecordings nfc l := by
  have hBoth : StoresRecordings nfc l.session.site.db ∧ OnlyRecordings nfc l := by
    refine hRun.invariant (I := fun l => StoresRecordings nfc l.session.site.db ∧
      OnlyRecordings nfc l) ?_ ⟨hSite, nofun⟩
    rintro l a l' hNames hStep ⟨hStores, hOnly⟩
    obtain ⟨x', hCall, rfl⟩ := Option.map_eq_some_iff.mp hStep
    refine ⟨step_storesRecordings hNames hCall hStores, fun o ho => ?_⟩
    rcases List.mem_append.mp ho with hOld | hNew
    · exact hOnly o hOld
    · exact step_objects hNames hCall hStores o hNew
  exact hBoth.2

/-- The student sends a recording, and sends another one in its place. -/
def sendsTwice (first second : String) : List Action :=
  [sendRecordings 5 1000 [(10, first)], sendRecordings 7 1001 [(10, second)]]

theorem only_recordings_reached_sendsTwice : ∃ l,
    (reach deletingSvc someAIConfig).run (.start twoReadings)
      (sendsTwice "lessons/1/student-recordings/a.webm" "lessons/1/student-recordings/b.webm") =
        some l ∧ OnlyRecordings id l := by
  have hSome : (((reach deletingSvc someAIConfig).restrict fun _ a =>
      namesRecordings id a = true).run (.start twoReadings) (sendsTwice
        "lessons/1/student-recordings/a.webm" "lessons/1/student-recordings/b.webm")).isSome =
          true := by decide +kernel
  obtain ⟨l, hl⟩ := Option.isSome_iff_exists.mp hSome
  have hRun := Machine.Runs.of_restrict hl
  exact ⟨l, hRun.run, only_recordings_reached (.of_empty rfl rfl) hRun⟩

/-- A student who names the lesson's video has it downloaded for the grade, and then deleted. -/
theorem named_video_is_deleted : ∃ l,
    (reach deletingSvc someAIConfig).run (.start twoReadings)
      (sendsTwice "lessons/1/video.mp4" "lessons/1/student-recordings/b.webm") = some l ∧
        "lessons/1/video.mp4" ∈ l.session.last.deletedAudio ∧ ¬ OnlyRecordings id l := by
  have hAny : ((reach deletingSvc someAIConfig).run (.start twoReadings)
      (sendsTwice "lessons/1/video.mp4" "lessons/1/student-recordings/b.webm")).any (fun l =>
        decide ("lessons/1/video.mp4" ∈ l.session.last.deletedAudio) &&
          !decide (OnlyRecordings id l)) = true := by decide +kernel
  obtain ⟨l, hRun, hNot⟩ := (Option.any_eq_true _ _).mp hAny
  rw [Bool.and_eq_true] at hNot
  exact ⟨l, hRun, of_decide_eq_true hNot.1, by simpa using hNot.2⟩

end Richter.Interactions
