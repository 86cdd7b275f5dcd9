import Richter.Courses.Disclosure
import Richter.Members.Passed
import Richter.Storage.Keys
import Richter.Storage.RateLimiter

/-! The URLs that the storage service signs for uploads and downloads
(`internal/svc/storage/storage.go`), by any number of calls side by side, while the database
changes. -/

namespace Richter.Storage

open Lib
open Courses (teacherRoles)
open Interactions (isStudentRecordingKey)
open Members (Claims OrganizationRole requireOrgMember requireOrgRole)

/-- A row of `organizations`. -/
structure Organization where
  id : UUID
  slug : String
  deriving DecidableEq, Repr

/-- The tables that the service reads. -/
structure Tables where
  content : Courses.Store
  organizations : Table Organization Organization.slug

inductive Method
  | get
  | put
  deriving DecidableEq, Repr

/-- A statement, a statement of an access check, a call of the limiter, and the signing of a URL for
a number of seconds. -/
inductive Op
  | conn (q : Courses.Query)
  | getOrganizationBySlug (slug : String)
  | members (o : Members.Op)
  | allow (userID key : String)
  | presign (method : Method) (key : String) (expires : Nat)

abbrev Op.Resp : Op → Type
  | .conn q => Except DbError q.Result
  | .getOrganizationBySlug _ => Except DbError Organization
  | .members o => o.Resp
  | .allow .. => Bool
  | .presign .. => Except String String

abbrev Handler := ExceptT Error (Prog Op Op.Resp)

def perform (o : Op) : Handler o.Resp := ExceptT.lift (Prog.perform o)

/-- An access check. -/
def check {α : Type} (x : Members.Handler α) : Handler α :=
  ExceptT.mk (x.run.hoist Op.members fun _ => id)

structure S3Cfg where
  endpoint : String
  publicEndpoint : String
  useSSL : Bool
  deriving DecidableEq, Repr

def rewritePresignedURL (raw : String) (c : S3Cfg) : String :=
  if c.publicEndpoint = "" ∨ c.endpoint = "" then raw
  else
    let scheme := if c.useSSL then "https://" else "http://"
    let internal := (scheme ++ c.endpoint).toList
    if internal <+: raw.toList then c.publicEndpoint ++ String.ofList (raw.toList.drop internal.length)
    else raw

/-- A request for a URL, whose expiry is from 0 to 86400. -/
structure UrlRequest where
  method : Method
  key : String
  expiresInSeconds : Nat

/-- A `GetUploadUrlResponse` or a `GetDownloadUrlResponse`. -/
inductive UrlResponse
  | upload (uploadUrl key : String)
  | download (downloadUrl : String)
  deriving DecidableEq, Repr

section Handlers

variable (T : Texts) (cfg : S3Cfg) (ctx : Option Claims)

def orgIDForKey (key : String) : Handler UUID := do
  if "seed/".toList <+: key.toList then
    match validateSeedKey T key with
    | .error e => throw (.connect .invalidArgument e.text)
    | .ok orgSlug =>
      match ← perform (.getOrganizationBySlug orgSlug) with
      | .error e => throw (connectDBError e)
      | .ok org => return org.id
  else
    match validateLessonKey T key with
    | .error e => throw (.connect .invalidArgument e.text)
    | .ok lessonIDStr =>
      match T.scanUUID lessonIDStr with
      | none => throw (.connect .invalidArgument "invalid lesson ID in key")
      | some lessonID =>
        match ← perform (.conn (.getOrgIDByLessonID lessonID)) with
        | .error e => throw (connectDBError e)
        | .ok orgID => return orgID

def requirePublicEndpoint : Handler Unit :=
  if cfg.publicEndpoint = "" then
    throw (.connect .failedPrecondition ("storage public_endpoint is not configured; " ++
      "contact admin to set the s3.public_endpoint config"))
  else pure ()

/-- `time.Duration(seconds) * time.Second`, or `time.Hour` when it is zero, in seconds. -/
def expiry (seconds : Nat) : Nat := if seconds = 0 then 3600 else seconds

/-- The check of an upload of a student's recording. -/
def requireUpload (orgID : UUID) (key : String) : Handler Unit := do
  let claims ← check (requireOrgRole ctx orgID [.owner, .admin, .teacher, .student])
  if ← perform (.allow (T.uuidText claims.sub) key) then return ()
  else throw (.connect .resourceExhausted
    "bạn đã tải lên quá nhiều bản ghi trong thời gian ngắn, vui lòng chờ một phút")

def getUploadUrl (req : UrlRequest) : Handler UrlResponse := do
  requirePublicEndpoint cfg
  let orgID ← orgIDForKey T req.key
  if isStudentRecordingKey T.nfc req.key then requireUpload T ctx orgID req.key
  else
    let _ ← check (requireOrgRole ctx orgID teacherRoles)
  match ← perform (.presign .put req.key (expiry req.expiresInSeconds)) with
  | .error e => throw (.connect .internal ("presign upload: " ++ e))
  | .ok u => return .upload (rewritePresignedURL u cfg) req.key

def getDownloadUrl (req : UrlRequest) : Handler UrlResponse := do
  requirePublicEndpoint cfg
  let orgID ← orgIDForKey T req.key
  let _ ← check (requireOrgMember ctx orgID)
  match ← perform (.presign .get req.key (expiry req.expiresInSeconds)) with
  | .error e => throw (.connect .internal ("presign download: " ++ e))
  | .ok u => return .download (rewritePresignedURL u cfg)

end Handlers

/-- A call, with the claims that the interceptor has found for it. -/
structure UrlCall where
  ctx : Option Claims
  req : UrlRequest

def UrlCall.serve (T : Texts) (cfg : S3Cfg) (c : UrlCall) : Handler UrlResponse :=
  match c.req.method with
  | .put => getUploadUrl T cfg c.ctx c.req
  | .get => getDownloadUrl T cfg c.ctx c.req

/-! ### Calls side by side -/

/-- What the environment decides about an operation: the tables at its time, whether a statement
fails, the time, and what the signing comes to. -/
structure Choice where
  tables : Tables
  failure : Option DbError := none
  now : Int := 0
  presigned : Except String String := .error "storage is down"

/-- A URL that has been signed for a call. -/
structure Signed where
  call : Nat
  method : Method
  key : String
  deriving DecidableEq

/-- The limiter since its start, and what has been let through and signed for which call. -/
structure Site where
  start : Int
  calls : Calls
  granted : List (Nat × AllowCall) := []
  signed : List Signed := []

/-- A call of the limiter.  It reads the clock before it takes the lock, so that the calls need not
come in the order of their readings. -/
def Site.allow (nfc : String → String) (limiter : UploadRateLimiter) (i : Nat) (call : AllowCall)
    (x : Site) : Option (Bool × Site) :=
  match limiter with
  | .unlimited => some (true, x)
  | .inMemory l =>
      if x.start ≤ call.now then
        let allowed := (l.allow nfc x.calls.buckets call).1
        some (allowed, { x with
          -- the latest reading so far
          calls := { x.calls.call nfc l call with clock := max x.calls.clock call.now }
          granted := if allowed then (i, call) :: x.granted else x.granted })
      else none

def Site.presign (i : Nat) (method : Method) (key : String) (presigned : Except String String)
    (x : Site) : Site :=
  match presigned with
  | .error _ => x
  | .ok _ => { x with signed := ⟨i, method, key⟩ :: x.signed }

/-- What a read answers. -/
def Choice.answer (w : Choice) : (o : Op) → Option o.Resp
  | .conn q => some (match w.failure with
      | some e => .error e
      | none => q.answer w.tables.content)
  | .getOrganizationBySlug slug => some (match w.failure with
      | some e => .error e
      | none => one (w.tables.organizations.find slug))
  | .members o => some (Members.answer w.tables.content.members w.failure o)
  | .allow .. | .presign .. => none

section Calls

variable (T : Texts) (cfg : S3Cfg) (limiter : UploadRateLimiter) (call : Nat → UrlCall)

def exec (i : Nat) (w : Choice) (o : Op) (x : Site) : Option (o.Resp × Site) :=
  match o with
  | .allow userID key => x.allow T.nfc limiter i ⟨userID, key, w.now⟩
  | .presign method key _ => some (w.presigned, x.presign i method key w.presigned)
  | o => (w.answer o).map fun r => (r, x)

/-- Calls that are served side by side, by their numbers. -/
abbrev UrlCalls := Pool Nat Site Op Op.Resp (Except Error UrlResponse)

def UrlCalls.start (clock : Int) : UrlCalls :=
  Pool.start { start := clock, calls := { clock := clock } } fun i => ((call i).serve T cfg).run

def urlCalls : Machine UrlCalls (Nat × Choice) := Pool.machine (exec T limiter)

end Calls

/-! ### What a call makes sure of -/

abbrev History := List (Prog.Event Op Op.Resp)

/-- The caller has passed the check of a role. -/
abbrev Passed (ctx : Option Claims) (claims : Claims) (orgID : UUID)
    (roles : List OrganizationRole) (h : History) : Prop :=
  Members.Passed Op.members (fun _ => id) ctx claims orgID roles h

def Op.isRead : Op → Bool
  | .conn _ | .getOrganizationBySlug _ | .members _ => true
  | .allow .. | .presign .. => false

def Op.isPresign : Op → Bool
  | .presign .. => true
  | _ => false

/-- The call has been told that the key's place belongs to the organization. -/
inductive Resolved (T : Texts) (key : String) (orgID : UUID) (h : History) : Prop
  | seed (slug : String) (segs : List (List Char)) (org : Organization) :
      Within "seed" slug segs (T.nfc key).toList →
      ⟨.getOrganizationBySlug slug, .ok org⟩ ∈ h → org.id = orgID → Resolved T key orgID h
  | lesson (name : String) (segs : List (List Char)) (lessonID : UUID) :
      Within "lessons" name segs (T.nfc key).toList →
      lowerExt (T.nfc key).toList ∈ allowedLessonAssetExts → T.scanUUID name = some lessonID →
      ⟨.conn (.getOrgIDByLessonID lessonID), .ok orgID⟩ ∈ h → Resolved T key orgID h

/-- The roles that a URL is signed for. -/
def signers (T : Texts) (method : Method) (key : String) : List OrganizationRole :=
  if method = .put ∧ isStudentRecordingKey T.nfc key = false then teacherRoles
  else [.owner, .admin, .teacher, .student]

/-- What lets a call have a URL. -/
structure Entitled (T : Texts) (c : UrlCall) (h : History) (method : Method) (key : String) :
    Prop where
  asked : method = c.req.method ∧ key = c.req.key
  passed : ∃ claims orgID, Resolved T key orgID h ∧
    Passed c.ctx claims orgID (signers T method key) h ∧
      (method = .put → isStudentRecordingKey T.nfc key = true →
        ⟨.allow (T.uuidText claims.sub) key, true⟩ ∈ h)

/-- Before an operation: a call asks for one URL, which it is entitled to. -/
def Justified (T : Texts) (c : UrlCall) (h : History) : Op → Prop
  | .presign method key _ => Entitled T c h method key ∧ ∀ e ∈ h, e.op.isPresign = false
  | _ => True

abbrev Justifies {α : Type} (T : Texts) (c : UrlCall) (x : Handler α) (ok : α → History → Prop)
    (h : History) : Prop :=
  Prog.Meets (fun o h r h' => h' = h ++ [⟨o, r⟩]) (Justified T c) x ok (fun _ => True) h

section Parts

variable {T : Texts} {cfg : S3Cfg} {c : UrlCall} {h h' : History} {key : String} {orgID : UUID}
  {claims : Claims} {roles : List OrganizationRole}

theorem Resolved.mono (hOrg : Resolved T key orgID h) (hSub : h ⊆ h') :
    Resolved T key orgID h' := by
  cases hOrg with
  | seed slug segs org hWithin hRead hEq => exact .seed slug segs org hWithin (hSub hRead) hEq
  | lesson name segs lessonID hWithin hExt hScan hRead =>
    exact .lesson name segs lessonID hWithin hExt hScan (hSub hRead)

theorem Entitled.mono {method : Method} (hEntitled : Entitled T c h method key) (hSub : h ⊆ h') :
    Entitled T c h' method key := by
  obtain ⟨claims, orgID, hOrg, hPassed, hAllow⟩ := hEntitled.passed
  exact ⟨hEntitled.asked, claims, orgID, hOrg.mono hSub, hPassed.mono hSub,
    fun hPut hRecording => hSub (hAllow hPut hRecording)⟩

theorem justifies_perform_bind {β : Type} (o : Op) {f : o.Resp → Handler β}
    {ok : β → History → Prop} :
    Justifies T c (perform o >>= f) ok h ↔
      Justified T c h o ∧ ∀ a, Justifies T c (f a) ok (h ++ [⟨o, a⟩]) := by
  refine (Prog.meets_perform_bind o).trans (and_congr_right fun _ => ?_)
  simp

/-- The events so far are reads. -/
def OnlyReads (h : History) : Prop := ∀ e ∈ h, e.op.isRead = true

theorem onlyReads_nil : OnlyReads [] := fun _ he => absurd he List.not_mem_nil

theorem OnlyReads.not_presign (hReads : OnlyReads h) : ∀ e ∈ h, e.op.isPresign = false := by
  intro e he
  have hRead := hReads e he
  cases hOp : e.op <;> first | rfl | (rw [hOp] at hRead; cases hRead)

theorem OnlyReads.snoc (hReads : OnlyReads h) {o : Op} (ho : o.isRead = true) (r : o.Resp) :
    OnlyReads (h ++ [⟨o, r⟩]) := by
  intro e he
  rcases List.mem_append.mp he with he | he
  · exact hReads e he
  · rw [List.mem_singleton.mp he]
    exact ho

theorem justifies_orgIDForKey (hReads : OnlyReads h) :
    Justifies T c (orgIDForKey T key) (fun orgID h' => Resolved T key orgID h' ∧ OnlyReads h')
      h := by
  unfold orgIDForKey
  split
  · cases hKey : validateSeedKey T key with
    | error e => trivial
    | ok slug =>
      obtain ⟨segs, hWithin⟩ := validateSeedKey_ok_iff.mp hKey
      refine (justifies_perform_bind _).mpr ⟨trivial, fun a => ?_⟩
      cases a with
      | error e => trivial
      | ok org => exact ⟨.seed slug segs org hWithin (by simp) rfl, hReads.snoc rfl _⟩
  · cases hKey : validateLessonKey T key with
    | error e => trivial
    | ok name =>
      obtain ⟨⟨segs, hWithin⟩, hExt⟩ := validateLessonKey_ok_iff.mp hKey
      dsimp only
      split
      · trivial
      · next lessonID hScan =>
        refine (justifies_perform_bind _).mpr ⟨trivial, fun a => ?_⟩
        cases a with
        | error e => trivial
        | ok orgID =>
          exact ⟨.lesson name segs lessonID hWithin hExt hScan (by simp), hReads.snoc rfl _⟩

theorem justifies_requireOrgRole (hReads : OnlyReads h) :
    Justifies T c (check (requireOrgRole c.ctx orgID roles))
      (fun claims h' => Passed c.ctx claims orgID roles h' ∧ OnlyReads h' ∧ h ⊆ h') h := by
  refine Prog.Meets.mono (Members.requireOrgRole_passes fun _ => trivial) ?_ fun _ => id
  rintro claims h' ⟨hPassed, rfl | ⟨q, r, rfl⟩⟩
  · exact ⟨hPassed, hReads, List.Subset.refl _⟩
  · exact ⟨hPassed, hReads.snoc rfl _, List.subset_append_left _ _⟩

/-- A student's recording may be uploaded when the limiter lets it through. -/
theorem justifies_requireUpload (hReads : OnlyReads h) :
    Justifies T c (requireUpload T c.ctx orgID key) (fun _ h' => h ⊆ h' ∧
      (∀ e ∈ h', e.op.isPresign = false) ∧ ∃ claims,
        Passed c.ctx claims orgID [.owner, .admin, .teacher, .student] h' ∧
          ⟨.allow (T.uuidText claims.sub) key, true⟩ ∈ h') h := by
  refine (justifies_requireOrgRole hReads).bind ?_
  rintro claims h₁ ⟨hPassed, hReads₁, hSub⟩
  refine (justifies_perform_bind _).mpr ⟨trivial, fun a => ?_⟩
  cases a with
  | false => trivial
  | true =>
    refine ⟨List.Subset.trans hSub (List.subset_append_left _ _), fun e he => ?_, claims,
      hPassed.mono (List.subset_append_left _ _), by simp⟩
    rcases List.mem_append.mp he with he | he
    · exact hReads₁.not_presign e he
    · rw [List.mem_singleton.mp he]
      rfl

theorem justifies_requirePublicEndpoint :
    Justifies T c (requirePublicEndpoint cfg) (fun _ h' => h' = h) h := by
  unfold requirePublicEndpoint
  split
  · trivial
  · rfl

/-- Every call asks for a URL only when it is entitled to it. -/
theorem serve_justified (c : UrlCall) :
    Justifies T c (c.serve T cfg) (fun _ _ => True) [] := by
  unfold UrlCall.serve
  split
  · next hMethod =>
    refine justifies_requirePublicEndpoint.bind ?_
    rintro _ h rfl
    refine (justifies_orgIDForKey onlyReads_nil).bind ?_
    rintro orgID h ⟨hOrg, hReads⟩
    split
    · next hRecording =>
      refine (justifies_requireUpload hReads).bind ?_
      rintro _ h₁ ⟨hSub, hFirst, claims, hPassed, hAllow⟩
      refine (justifies_perform_bind _).mpr ⟨⟨⟨⟨hMethod.symm, rfl⟩, claims, orgID,
        hOrg.mono hSub, ?_, fun _ _ => hAllow⟩, hFirst⟩, fun a => by cases a <;> trivial⟩
      simpa [signers, hRecording] using hPassed
    · next hOther =>
      refine (justifies_requireOrgRole hReads).bind ?_
      rintro claims h₁ ⟨hPassed, hReads₁, hSub⟩
      refine (justifies_perform_bind _).mpr ⟨⟨⟨⟨hMethod.symm, rfl⟩, claims, orgID,
        hOrg.mono hSub, ?_, fun _ hRecording => absurd hRecording hOther⟩, hReads₁.not_presign⟩,
        fun a => by cases a <;> trivial⟩
      simpa [signers, hOther] using hPassed
  · next hMethod =>
    refine justifies_requirePublicEndpoint.bind ?_
    rintro _ h rfl
    refine (justifies_orgIDForKey onlyReads_nil).bind ?_
    rintro orgID h ⟨hOrg, hReads⟩
    refine (justifies_requireOrgRole hReads).bind ?_
    rintro claims h₁ ⟨hPassed, hReads₁, hSub⟩
    refine (justifies_perform_bind _).mpr ⟨⟨⟨⟨hMethod.symm, rfl⟩, claims, orgID, hOrg.mono hSub, ?_, ?_⟩,
      hReads₁.not_presign⟩, fun a => by cases a <;> trivial⟩
    · simpa [signers] using hPassed
    · exact fun hPut => by cases hPut

end Parts

/-! ### What the signed URLs are for -/

/-- The organization whose content or seeded content a key leads into. -/
def OrgOfKey (T : Texts) (x : Tables) (key : String) (orgID : UUID) : Prop :=
  (∃ slug segs, Within "seed" slug segs (T.nfc key).toList ∧
    ∃ org, x.organizations.find slug = some org ∧ org.id = orgID) ∨
  ∃ name segs lessonID, Within "lessons" name segs (T.nfc key).toList ∧
    lowerExt (T.nfc key).toList ∈ allowedLessonAssetExts ∧ T.scanUUID name = some lessonID ∧
      ∃ course, x.content.courseOf lessonID = some course ∧ course.organizationId = orgID

section Run

variable {T : Texts} {cfg : S3Cfg} {limiter : UploadRateLimiter} {call : Nat → UrlCall}
  {clock : Int} {as : List (Nat × Choice)} {p : UrlCalls} {i : Nat} {w : Choice} {x y : Site}

/-- What holds of calls at all times: each goes on as its handler does. -/
abbrev Justifying (T : Texts) (call : Nat → UrlCall) (p : UrlCalls) : Prop :=
  ∀ i, (p.thread i).prog.Along (Justified T (call i)) (fun _ _ => True) (p.hist i)

theorem justifying_start : Justifying T call (.start T cfg call clock) := fun i =>
  Prog.Ensures.mono (serve_justified (call i)) (fun _ _ => id) fun _ _ _ => trivial

theorem answer_of_exec {o : Op} {r : o.Resp} (h : exec T limiter i w o x = some (r, y))
    (hRead : o.isRead = true) : w.answer o = some r ∧ y = x := by
  have hMap : (w.answer o).map (fun r => (r, x)) = some (r, y) := by
    cases o <;> first | exact h | cases hRead
  obtain ⟨_, hAnswer, hEq⟩ := Option.map_eq_some_iff.mp hMap
  cases hEq
  exact ⟨hAnswer, rfl⟩

/-- What an operation does to the service: a read answers from the tables, the limiter may let a
call through, and a URL may be signed. -/
theorem exec_cases {o : Op} {r : o.Resp} (h : exec T limiter i w o x = some (r, y)) :
    (w.answer o = some r ∧ y = x) ∨
    (∃ method key expires, o = .presign method key expires ∧
      (y = x ∨ y = { x with signed := ⟨i, method, key⟩ :: x.signed })) ∨
    ∃ userID key, o = .allow userID key ∧ y.signed = x.signed := by
  cases o with
  | conn q => exact .inl (answer_of_exec h rfl)
  | getOrganizationBySlug slug => exact .inl (answer_of_exec h rfl)
  | members o => exact .inl (answer_of_exec h rfl)
  | allow userID key =>
    refine .inr (.inr ⟨userID, key, rfl, ?_⟩)
    have hAllow : x.allow T.nfc limiter i ⟨userID, key, w.now⟩ = some (r, y) := h
    unfold Site.allow at hAllow
    split at hAllow
    · cases hAllow
      rfl
    · split at hAllow
      · cases hAllow
        rfl
      · cases hAllow
  | presign method key expires =>
    refine .inr (.inl ⟨method, key, expires, rfl, ?_⟩)
    have hPresign : some (w.presigned, x.presign i method key w.presigned) = some (r, y) := h
    cases hSigned : w.presigned with
    | error e =>
      rw [hSigned] at hPresign
      cases hPresign
      exact .inl rfl
    | ok u =>
      rw [hSigned] at hPresign
      cases hPresign
      exact .inr rfl

/-- An operation that has been performed was answered in the tables of one of the choices. -/
theorem answer_of_event (hRun : (urlCalls T limiter).run (.start T cfg call clock) as = some p)
    {e : Prog.Event Op Op.Resp} (he : e ∈ p.hist i) (hRead : e.op.isRead = true) :
    ∃ a ∈ as, a.2.answer e.op = some e.resp := by
  obtain hOld | ⟨a, ha, -, x, y, hExec⟩ := Pool.event_of_runs (Machine.Runs.of_run hRun) he
  · cases hOld
  · refine ⟨a, ha, ?_⟩
    obtain ⟨hAnswer, -⟩ | ⟨_, _, _, hOp, -⟩ | ⟨_, _, hOp, -⟩ := exec_cases hExec
    · exact hAnswer
    · rw [hOp] at hRead
      cases hRead
    · rw [hOp] at hRead
      cases hRead

/-- Every URL is signed for a call that is entitled to it. -/
theorem entitled_of_signed
    (hRun : (urlCalls T limiter).run (.start T cfg call clock) as = some p) :
    ∀ s ∈ p.store.signed, Entitled T (call s.call) (p.hist s.call) s.method s.key := by
  refine (Pool.runs_invariant (P := fun i => Justified T (call i)) (Q := fun _ _ _ => True)
    (I := fun x hist => ∀ s ∈ x.signed, Entitled T (call s.call) (hist s.call) s.method s.key)
    ?_ (Machine.Runs.of_run hRun) justifying_start ?_).1
  · intro p i w o r y _ _ hJust hOld hExec s hs
    have hGrows : ∀ j, p.hist j ⊆ Function.update p.hist i (p.hist i ++ [⟨o, r⟩]) j := by
      intro j
      by_cases hj : j = i
      · subst hj
        rw [Function.update_self]
        exact List.subset_append_left _ _
      · rw [Function.update_of_ne hj]
        exact List.Subset.refl _
    obtain ⟨-, rfl⟩ | ⟨method, key, expires, rfl, rfl | rfl⟩ | ⟨_, _, rfl, hSame⟩ :=
      exec_cases hExec
    · exact (hOld s hs).mono (hGrows _)
    · exact (hOld s hs).mono (hGrows _)
    · rcases List.mem_cons.mp hs with rfl | hs
      · exact hJust.1.mono (hGrows _)
      · exact (hOld s hs).mono (hGrows _)
    · rw [hSame] at hs
      exact (hOld s hs).mono (hGrows _)
  · exact fun s hs => absurd hs List.not_mem_nil

theorem Resolved.orgOfKey {key : String} {orgID : UUID}
    (hRun : (urlCalls T limiter).run (.start T cfg call clock) as = some p)
    (hOrg : Resolved T key orgID (p.hist i)) : ∃ a ∈ as, OrgOfKey T a.2.tables key orgID := by
  cases hOrg with
  | seed slug segs org hWithin hRead hEq =>
    obtain ⟨a, ha, hAnswer⟩ := answer_of_event hRun hRead rfl
    refine ⟨a, ha, .inl ⟨slug, segs, hWithin, org, ?_, hEq⟩⟩
    have hRow := Option.some.inj hAnswer
    split at hRow
    · cases hRow
    · exact one_eq_ok.mp hRow
  | lesson name segs lessonID hWithin hExt hScan hRead =>
    obtain ⟨a, ha, hAnswer⟩ := answer_of_event hRun hRead rfl
    refine ⟨a, ha, .inr ⟨name, segs, lessonID, hWithin, hExt, hScan, ?_⟩⟩
    have hRow := Option.some.inj hAnswer
    split at hRow
    · cases hRow
    · exact Option.map_eq_some_iff.mp (one_eq_ok.mp hRow)

theorem hasOrgRole_of_passed {ctx : Option Claims} {claims : Claims} {orgID : UUID}
    {roles : List OrganizationRole}
    (hRun : (urlCalls T limiter).run (.start T cfg call clock) as = some p)
    (hPassed : Passed ctx claims orgID roles (p.hist i)) (hSome : as ≠ []) :
    ∃ a ∈ as, Members.hasOrgRole a.2.tables.content.members claims orgID roles = true := by
  obtain hAdmin | ⟨m, r, hRead, hMember, hStatus, hRole⟩ := hPassed.member
  · obtain ⟨a, ha⟩ := List.exists_mem_of_ne_nil as hSome
    exact ⟨a, ha, by simp [Members.hasOrgRole, hPassed.active, hAdmin]⟩
  · obtain ⟨a, ha, hAnswer⟩ := answer_of_event hRun hRead rfl
    exact ⟨a, ha, Members.hasOrgRole_of_answer hPassed.active
      ((Option.some.inj hAnswer).trans hMember) hStatus hRole⟩

/-- In every run of calls side by side, while the tables change in every way, a URL is signed only
for what its call has asked for, which is a place in a lesson or in the seeded content of an
organization, and only for an account that has a role there: of a teacher or above to upload
anything but a student's recording. -/
theorem signed_only_for_roles
    (hRun : (urlCalls T limiter).run (.start T cfg call clock) as = some p) :
    ∀ s ∈ p.store.signed, ∃ claims orgID, (call s.call).ctx = some claims ∧
      s.method = (call s.call).req.method ∧ s.key = (call s.call).req.key ∧
        (∃ a ∈ as, OrgOfKey T a.2.tables s.key orgID) ∧
          ∃ a ∈ as, Members.hasOrgRole a.2.tables.content.members claims orgID
            (signers T s.method s.key) = true := by
  intro s hs
  obtain ⟨⟨hMethod, hKey⟩, claims, orgID, hOrg, hPassed, -⟩ := entitled_of_signed hRun s hs
  obtain ⟨a, ha, hPlace⟩ := hOrg.orgOfKey hRun
  exact ⟨claims, orgID, hPassed.claims_eq, hMethod, hKey, ⟨a, ha, hPlace⟩,
    hasOrgRole_of_passed hRun hPassed (List.ne_nil_of_mem ha)⟩

end Run

/-- A student uploads a recording for a lesson of the organization. -/
def studentUpload : UrlCall :=
  ⟨some Courses.student, ⟨.put, "lessons/aaa/student-recordings/b.ogg", 0⟩⟩

def lectureTables : Tables := ⟨Courses.lecture .empty, .ofList [⟨1, "school"⟩]⟩

/-- The call reads the lesson's organization and the membership, asks the limiter, and has the URL
signed. -/
def uploadSteps : List (Nat × Choice) :=
  List.replicate 4 (0, { tables := lectureTables, presigned := .ok "http://s3/x" })

theorem signed_only_for_roles_studentUpload : ∃ p,
    (urlCalls rowTexts .unlimited).run
        (.start rowTexts ⟨"s3", "https://files", false⟩ (fun _ => studentUpload) 0) uploadSteps =
      some p ∧ p.store.signed = [⟨0, .put, studentUpload.req.key⟩] ∧
    ∃ orgID, ∃ a ∈ uploadSteps, Members.hasOrgRole a.2.tables.content.members Courses.student orgID
      [.owner, .admin, .teacher, .student] = true := by
  have hAny : ((urlCalls rowTexts .unlimited).run
      (.start rowTexts ⟨"s3", "https://files", false⟩ (fun _ => studentUpload) 0) uploadSteps).any
        (fun p => decide (p.store.signed = [⟨0, .put, studentUpload.req.key⟩])) = true := by
    decide +kernel
  obtain ⟨p, hRun, hSigned⟩ := (Option.any_eq_true _ _).mp hAny
  have hSigned := of_decide_eq_true hSigned
  refine ⟨p, hRun, hSigned, ?_⟩
  obtain ⟨claims, orgID, hClaims, -, -, -, hRole⟩ :=
    signed_only_for_roles hRun _ (hSigned ▸ List.mem_singleton_self _)
  obtain rfl := Option.some.inj hClaims
  exact ⟨orgID, hRole⟩

end Richter.Storage
