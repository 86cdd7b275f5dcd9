import Richter.Auth.Renewal

/-! The session of a browser (`proxy.ts`, `refresh.ts`, `auth.ts`): two cookies, which pages are
served by and which the front end renews at the backend, for any number of requests side by
side. -/

namespace Richter.Auth

open Lib

/-- The cookies `dyadia_access` and `dyadia_refresh`, the second with the time when it runs out. -/
structure Cookies where
  access : Option String
  refresh : Option (String × Int)
  deriving DecidableEq

/-- `maxAge` of `REFRESH_COOKIE_OPTS`. -/
def refreshMaxAge : Int := 7 * 24 * 60 * 60 * second

/-- `cookies.get(name)?.value`, which is used when it is not empty. -/
def usable (value : Option String) : Option String := value.filter fun v => v ≠ ""

/-- The refresh token that the browser still sends. -/
def Cookies.refreshToken (jar : Cookies) (now : Int) : Option String :=
  usable ((jar.refresh.filter fun cookie => now < cookie.2).map Prod.fst)

/-- `PROTECTED_PREFIXES`. -/
def protectedPrefixes : List String := ["/admin", "/dashboard"]

def isProtected (pathname : String) : Bool :=
  protectedPrefixes.any fun p => p.toList.isPrefixOf pathname.toList

variable (E : Env)

/-- `verifyAccessJwt`. -/
def verifyAccessJwt (now : Int) (token : String) : Option JWTClaims :=
  match E.parseWithClaims token with
  | .error _ => none
  | .ok claims =>
    if claims.iss = issuer ∧ claims.aud = audience ∧ unix now < claims.exp ∧
        claims.nbf ≤ unix now ∧ claims.tokenType = .access then some claims
    else none

/-- What the call of `RefreshToken` comes to; `none` when the backend is not reached. -/
abbrev Reply := Option (Except Error TokenPair)

/-- `isTransientError`, of an error that the backend answers. -/
def isTransientError : Error → Bool
  | .connect .unavailable _ | .connect .deadlineExceeded _ => true
  | _ => false

/-- The backend is not reached, or is not up to the request. -/
def Reply.isTransient : Reply → Bool
  | none => true
  | some (.error e) => isTransientError e
  | some (.ok _) => false

inductive RefreshOutcome
  | refreshed (pair : TokenPair)
  | refused
  | backendDown

/-- `silentRefresh`. -/
def silentRefresh (now : Int) : Reply → RefreshOutcome
  | none => .backendDown
  | some (.error e) => if isTransientError e then .backendDown else .refused
  | some (.ok pair) =>
      if (verifyAccessJwt E now pair.accessToken).isSome then .refreshed pair else .refused

/-- The clock readings of a request: when the browser sends it, when the front end looks at its
cookies, when the backend has answered, when the page looks at the access token, and when the
browser takes the cookies of the response. -/
structure Moments where
  start : Int
  check : Int
  answer : Int
  page : Int
  set : Int
  deriving DecidableEq

/-- The cookies of a renewed session. -/
def Cookies.renewed (m : Moments) (pair : TokenPair) : Cookies :=
  ⟨some pair.accessToken, some (pair.refreshToken, m.set + refreshMaxAge)⟩

def Cookies.deleted : Cookies := ⟨none, none⟩

/-- `proxy`: whether the request passes or is redirected to the login, and the cookies that the
response sets. -/
def proxy (pathname : String) (m : Moments) (reply : Reply) (jar : Cookies) :
    Bool × Option Cookies :=
  if !isProtected pathname then (true, none)
  else if ((usable jar.access).bind (verifyAccessJwt E m.check)).isSome then (true, none)
  else
    match jar.refreshToken m.check with
    | none => (false, some .deleted)
    | some _ =>
      match silentRefresh E m.answer reply with
      | .refreshed pair => (true, some (.renewed m pair))
      | .backendDown => (true, none)
      | .refused => (false, some .deleted)

/-- `getSession`. -/
def getSession (now : Int) (jar : Cookies) : Option JWTClaims :=
  (usable jar.access).bind (verifyAccessJwt E now)

/-- What a request comes to: a page of a session, the login, an access token, or an error. -/
inductive Outcome
  | page (claims : JWTClaims)
  | login
  | accessToken (token : String)
  | failed
  deriving DecidableEq

/-- A page that begins with `requireSession`, behind the proxy. -/
def loadPage (pathname : String) (m : Moments) (reply : Reply) (jar : Cookies) :
    Outcome × Option Cookies :=
  match proxy E pathname m reply jar with
  | (false, set) => (.login, set)
  | (true, set) =>
    match getSession E m.page (set.getD jar) with
    | some claims => (.page claims, set)
    | none => (.login, set)

/-- `POST /api/auth/refresh`, which a page uses for its own calls of the backend. -/
def refreshRoute (m : Moments) (reply : Reply) (jar : Cookies) : Outcome × Option Cookies :=
  match jar.refreshToken m.check with
  | none => (.failed, some .deleted)
  | some _ =>
    match silentRefresh E m.answer reply with
    | .refreshed pair => (.accessToken pair.accessToken, some (.renewed m pair))
    | .backendDown => (.failed, none)
    | .refused => (.failed, some .deleted)

/-- A request of the browser, for the page of a path or for the refresh route, and what the backend
replies if it is asked. -/
structure Visit where
  path : Option String
  moments : Moments
  reply : Reply

def Visit.serve (v : Visit) (jar : Cookies) : Outcome × Option Cookies :=
  match v.path with
  | some pathname => loadPage E pathname v.moments v.reply jar
  | none => refreshRoute E v.moments v.reply jar

/-- The cookies, the time, the last time at which a request was sent that the backend did not fail if
it was asked, and the requests on their way with the cookies that they were sent with. -/
structure Browser where
  jar : Cookies
  now : Int
  contact : Int
  underway : List (Visit × Cookies)

inductive BrowserAction
  | send (v : Visit)
  | take (i : Nat)

/-- The browser sends a request, or takes the response to one. -/
def browser : Machine Browser BrowserAction where
  step s
    | .send v => some { s with
        now := v.moments.start
        underway := s.underway ++ [(v, s.jar)] }
    | .take i => s.underway[i]?.map fun p =>
        { jar := (p.1.serve E p.2).2.getD s.jar
          now := p.1.moments.set
          contact := if p.1.reply.isTransient then s.contact else max s.contact p.1.moments.start
          underway := s.underway.eraseIdx i }

/-- The answer of the backend to a refresh token at a time when the account is active and nothing
fails. -/
def Renewing (u : UUID) (m : Moments) (token : String) (result : Except Error TokenPair) : Prop :=
  ∃ s user ws t, s.users.find u = some user ∧ user.status = .active ∧ m.check ≤ s.now ∧
    t.now ≤ m.answer ∧
    (Auth.refreshToken E token).run.run (execWorks E) ws s = some (result, t)

/-- The request is for a page of a session or for the refresh route and is over within `D`. -/
structure Visit.Timely (D : Int) (v : Visit) : Prop where
  path : ∀ pathname, v.path = some pathname → isProtected pathname = true
  check : v.moments.start ≤ v.moments.check
  answer : v.moments.check ≤ v.moments.answer
  page : v.moments.answer ≤ v.moments.page
  set : v.moments.answer ≤ v.moments.set
  pageBy : v.moments.page ≤ v.moments.start + D
  setBy : v.moments.set ≤ v.moments.start + D

/-- A backend that does not fail, with the cookies that the request was sent with, answers as it does
for an active account. -/
def Visit.Answered (u : UUID) (v : Visit) (jar : Cookies) : Prop :=
  ∀ result token, v.reply = some result → v.reply.isTransient = false →
    jar.refreshToken v.moments.check = some token → Renewing E u v.moments token result

/-- The browser goes on within `idle` of its last contact to the backend, and clocks do not run
backwards. -/
def Regular (u : UUID) (idle D : Int) (s : Browser) : BrowserAction → Prop
  | .send v => s.now ≤ v.moments.start ∧ v.moments.start ≤ s.contact + idle ∧ v.Timely D ∧
      v.Answered E u s.jar
  | .take i => ∀ p, s.underway[i]? = some p → s.now ≤ p.1.moments.set

/-- The cookies of a session of the user that was renewed at a time from `base` to `late`. -/
structure Cookies.OfSession (u : UUID) (base late : Int) (jar : Cookies) : Prop where
  access : ∃ token claims, jar.access = some token ∧
    IssuedFor E u .access base late token claims
  refresh : ∃ token limit claims, jar.refresh = some (token, limit) ∧
    base + refreshMaxAge ≤ limit ∧ IssuedFor E u .refresh base late token claims

/-- The tokens are good for long enough, where the browser goes on within `idle` and requests take
at most `D`, and no token is empty. -/
structure Env.Lasting (idle D : Int) : Prop where
  nonempty : ∀ claims, E.parseWithClaims "" ≠ .ok claims
  leeway : 0 ≤ E.leeway
  nonneg : 0 ≤ D
  access : D + second ≤ E.accessTokenDuration
  refresh : idle + E.accessTokenDuration + 2 * D + second ≤ E.refreshTokenDuration
  cookie : idle + E.accessTokenDuration + 2 * D < refreshMaxAge

/-- The request comes to a page of the user, or to a token of the user; the page is the login
where the access token that it was sent with runs out on the way. -/
def Visit.Shown (u : UUID) (v : Visit) (jar : Cookies) : Prop :=
  match v.path, (v.serve E jar).1 with
  | some _, .page claims => claims.sub = E.uuidText u
  | some _, .login => ∃ token claims, jar.access = some token ∧
      E.parseWithClaims token = .ok claims ∧ v.moments.check < claims.exp * second ∧
      claims.exp * second ≤ v.moments.page
  | none, .accessToken token => ∃ claims, E.parseWithClaims token = .ok claims ∧
      claims.sub = E.uuidText u
  | _, _ => False

section Steps

variable {E} {u : UUID} {idle D base late early : Int} {jar : Cookies} {v : Visit}
  {token : String} {claims : JWTClaims}

theorem unix_lt {now limit : Int} : unix now < limit ↔ now < limit * second := by
  unfold unix second
  omega

theorem le_unix {now limit : Int} : limit ≤ unix now ↔ limit * second ≤ now := by
  unfold unix second
  omega

theorem IssuedFor.verify {now : Int} (h : IssuedFor E u .access early late token claims)
    (hLate : late ≤ now) (hNow : now < claims.exp * second) :
    verifyAccessJwt E now token = some claims := by
  have hNbf := h.nbf.trans hLate
  simp [verifyAccessJwt, h.parse, h.iss, h.aud, h.hasType, unix_lt.mpr hNow, le_unix.mpr hNbf]

theorem verify_cases {now : Int} (h : verifyAccessJwt E now token = some claims) :
    E.parseWithClaims token = .ok claims ∧ now < claims.exp * second := by
  unfold verifyAccessJwt at h
  split at h
  · cases h
  · next claims' hParse =>
    split at h
    · next hClaims =>
      cases h
      exact ⟨hParse, unix_lt.mp hClaims.2.2.1⟩
    · cases h

theorem usable_some (hE : E.Lasting idle D) (hParse : E.parseWithClaims token = .ok claims) :
    usable (some token) = some token := by
  have hne : token ≠ "" := by
    rintro rfl
    exact hE.nonempty claims hParse
  simp [usable, hne]

/-- A request is sent while its cookies last. -/
structure Visit.InSession (E : Env) (u : UUID) (idle D base late : Int) (v : Visit)
    (jar : Cookies) : Prop where
  timely : v.Timely D
  answered : v.Answered E u jar
  session : jar.OfSession E u base late
  issued : late ≤ v.moments.start
  width : late ≤ base + D
  start : v.moments.start ≤ base + D + E.accessTokenDuration + idle

/-- The browser has the cookies of a session that was renewed at a time from `base` to `late`, and
so have the requests on their way, or they have been sent soon after `base`. -/
structure Kept (E : Env) (u : UUID) (idle D base late : Int) (s : Browser) : Prop where
  session : s.jar.OfSession E u base late
  issued : late ≤ s.now
  width : late ≤ base + D
  contact : s.contact ≤ base + D + E.accessTokenDuration
  past : s.contact ≤ s.now
  underway : ∀ p ∈ s.underway, p.1.moments.start ≤ s.now ∧ ∃ base' late',
    p.1.InSession E u idle D base' late' p.2 ∧ (p.1.moments.start ≤ base + D ∨ base' = base)

/-- A request that is sent goes with cookies of the session. -/
theorem Kept.send {s : Browser} (h : Kept E u idle D base late s)
    (hReg : Regular E u idle D s (.send v)) : Kept E u idle D base late { s with
      now := v.moments.start
      underway := s.underway ++ [(v, s.jar)] } := by
  obtain ⟨hAfter, hIdle, hTimely, hAnswered⟩ := hReg
  refine { h with
    issued := h.issued.trans hAfter
    past := h.past.trans hAfter
    underway := ?_ }
  intro p hp
  rcases List.mem_append.mp hp with hp | hp
  · obtain ⟨hStarted, hRest⟩ := h.underway p hp
    exact ⟨hStarted.trans hAfter, hRest⟩
  · cases List.mem_singleton.mp hp
    have hContact := h.contact
    exact ⟨le_refl _, base, late,
      ⟨hTimely, hAnswered, h.session, h.issued.trans hAfter, h.width, by dsimp only; omega⟩, .inr rfl⟩

theorem contact_le {contact start limit : Int} {failed : Bool} (hContact : contact ≤ limit)
    (hStart : start ≤ limit) : (if failed then contact else max contact start) ≤ limit := by
  split
  · exact hContact
  · exact max_le hContact hStart

theorem silentRefresh_transient {now : Int} {reply : Reply} (h : reply.isTransient = true) :
    silentRefresh E now reply = .backendDown := by
  rcases reply with _ | e | pair
  · rfl
  · exact if_pos h
  · cases h

variable (hE : E.Lasting idle D)

include hE

/-- The refresh token of a session is still sent, and is exchanged. -/
theorem Visit.InSession.renews (h : v.InSession E u idle D base late jar) :
    ∃ token, jar.refreshToken v.moments.check = some token ∧
      ∀ result, v.reply = some result → v.reply.isTransient = false →
        ∃ pair access refresh, result = .ok pair ∧
        IssuedFor E u .access v.moments.start v.moments.answer pair.accessToken access ∧
        IssuedFor E u .refresh v.moments.start v.moments.answer pair.refreshToken refresh := by
  have hCheck := h.timely.check
  have hAnswer := h.timely.answer
  have hEnd := h.timely.set.trans h.timely.setBy
  have hStart := h.start
  have hLate := h.issued
  obtain ⟨token, limit, claims, hJar, hLimit, hIssued⟩ := h.session.refresh
  have hSent : v.moments.check < limit := by
    have hCookie := hE.cookie
    omega
  have hToken : jar.refreshToken v.moments.check = some token := by
    simp [Cookies.refreshToken, hJar, Option.filter, hSent, usable_some hE hIssued.parse]
  refine ⟨token, hToken, fun result hReply hUp => ?_⟩
  obtain ⟨s, user, ws, t, hUser, hActive, hFrom, hTo, hRun⟩ :=
    h.answered result token hReply hUp hToken
  have hExp : v.moments.answer < claims.exp * second + E.leeway := by
    have hAfter : base + E.refreshTokenDuration < (claims.exp + 1) * second := hIssued.expAfter
    have hRefresh := hE.refresh
    have hLeeway := hE.leeway
    rw [Int.add_mul] at hAfter
    omega
  have hNbf : claims.nbf * second - E.leeway ≤ s.now := by
    have hIssuedBy := hIssued.nbf
    have hLeeway := hE.leeway
    omega
  have hEnds := Prog.Ensures.of_run (fun w _ o s r t hExec => ⟨w, hExec⟩)
    (refreshToken_renews hUser hActive hIssued.parse hIssued.hasType hIssued.sub hExp hNbf) hRun
  cases result with
  | error e => exact absurd hEnds (not_lt.mpr hTo)
  | ok pair =>
    obtain ⟨access, refresh, hAccess, hRefresh⟩ := hEnds hTo
    exact ⟨pair, access, refresh, rfl, hAccess.mono (hCheck.trans hFrom),
      hRefresh.mono (hCheck.trans hFrom)⟩

/-- A reply that is not transient makes a session of its own. -/
theorem Visit.InSession.renewed (h : v.InSession E u idle D base late jar)
    (hReply : v.reply.isTransient = false) : ∃ pair access,
      silentRefresh E v.moments.answer v.reply = .refreshed pair ∧
      (Cookies.renewed v.moments pair).OfSession E u v.moments.start v.moments.answer ∧
      getSession E v.moments.page (.renewed v.moments pair) = some access ∧
      E.parseWithClaims pair.accessToken = .ok access ∧ access.sub = E.uuidText u := by
  obtain ⟨result, hResult⟩ : ∃ result, v.reply = some result := by
    cases hNone : v.reply with
    | none => rw [hNone] at hReply; cases hReply
    | some result => exact ⟨result, rfl⟩
  obtain ⟨-, -, hRenews⟩ := h.renews hE
  obtain ⟨pair, access, refresh, rfl, hAccess, hRefresh⟩ := hRenews result hResult hReply
  have hPage := h.timely.page
  have hPageBy := h.timely.pageBy
  have hLasts : v.moments.page < access.exp * second := by
    have hAfter : v.moments.start + E.accessTokenDuration < (access.exp + 1) * second :=
      hAccess.expAfter
    have hD := hE.access
    rw [Int.add_mul] at hAfter
    omega
  have hNow := hAccess.verify (le_refl _) (lt_of_le_of_lt hPage hLasts)
  refine ⟨pair, access, ?_, ⟨⟨_, access, rfl, hAccess⟩, ⟨_, _, refresh, rfl, ?_, hRefresh⟩⟩, ?_,
    hAccess.parse, hAccess.sub⟩
  · simp [silentRefresh, hResult, hNow]
  · have hSet := (h.timely.check.trans h.timely.answer).trans h.timely.set
    omega
  · simp [getSession, Cookies.renewed, usable_some hE hAccess.parse, hAccess.verify hPage hLasts]

/-- The access token of a session, which the proxy finds valid, takes the request to the page as
long as it does not run out on the way. -/
theorem Cookies.OfSession.page {check page : Int} (h : jar.OfSession E u base late)
    (hLate : late ≤ check) (hPage : check ≤ page)
    (hValid : ((usable jar.access).bind (verifyAccessJwt E check)).isSome = true) :
    ∃ token claims, jar.access = some token ∧ IssuedFor E u .access base late token claims ∧
      check < claims.exp * second ∧
      (getSession E page jar = some claims ∨
        getSession E page jar = none ∧ claims.exp * second ≤ page) := by
  obtain ⟨token, claims, hJar, hIssued⟩ := h.access
  obtain ⟨found, hFound⟩ := Option.isSome_iff_exists.mp hValid
  simp only [hJar, usable_some hE hIssued.parse, Option.bind_some] at hFound
  obtain ⟨hParse, hCheck⟩ := verify_cases hFound
  cases hIssued.parse.symm.trans hParse
  refine ⟨token, claims, hJar, hIssued, hCheck, ?_⟩
  simp only [getSession, hJar, usable_some hE hIssued.parse, Option.bind_some]
  by_cases hLasts : page < claims.exp * second
  · exact .inl (hIssued.verify (hLate.trans hPage) hLasts)
  · refine .inr ⟨Option.eq_none_iff_forall_ne_some.mpr fun other hOther => ?_, not_lt.mp hLasts⟩
    obtain ⟨hOtherParse, hOtherLasts⟩ := verify_cases hOther
    cases hIssued.parse.symm.trans hOtherParse
    exact hLasts hOtherLasts

/-- What a request comes to: it may be the page of the access token that it was sent with; it may
renew the session; and the backend may fail it. -/
theorem Visit.InSession.serve_cases (h : v.InSession E u idle D base late jar) :
    (v.serve E jar).2 = none ∧ (v.reply.isTransient = true ∨ v.moments.start ≤ base + D +
        E.accessTokenDuration ∧ v.Shown E u jar) ∨
      ∃ set, (v.serve E jar).2 = some set ∧ set.OfSession E u v.moments.start v.moments.answer ∧
        v.Shown E u jar := by
  obtain ⟨refreshToken, hRefresh, -⟩ := h.renews hE
  have hDown : v.reply.isTransient = true →
      silentRefresh E v.moments.answer v.reply = .backendDown := silentRefresh_transient
  cases hPath : v.path with
  | none =>
    by_cases hReply : v.reply.isTransient = true
    · exact .inl ⟨by simp [Visit.serve, hPath, refreshRoute, hRefresh, hDown hReply], .inl hReply⟩
    · obtain ⟨pair, access, hSilent, hSession, -, hParse, hSub⟩ :=
        h.renewed hE ((Bool.not_eq_true _).mp hReply)
      refine .inr ⟨.renewed v.moments pair, ?_, hSession, ?_⟩
      · simp [Visit.serve, hPath, refreshRoute, hRefresh, hSilent]
      · simp only [Visit.Shown, Visit.serve, hPath, refreshRoute, hRefresh, hSilent]
        exact ⟨access, hParse, hSub⟩
  | some pathname =>
    have hProtected := h.timely.path pathname hPath
    by_cases hValid : ((usable jar.access).bind (verifyAccessJwt E v.moments.check)).isSome = true
    · obtain ⟨token, claims, hJar, hIssued, hCheck, hPage⟩ := h.session.page hE
        (h.issued.trans h.timely.check) (h.timely.answer.trans h.timely.page) hValid
      have hProxy : proxy E pathname v.moments v.reply jar = (true, none) := by
        simp [proxy, hProtected, hValid]
      refine .inl ⟨?_, .inr ⟨?_, ?_⟩⟩
      · rcases hPage with hPage | ⟨hPage, -⟩ <;>
          simp [Visit.serve, hPath, loadPage, hProxy, hPage]
      · have hBefore : claims.exp * second ≤ late + E.accessTokenDuration := hIssued.expBefore
        have hStart := h.timely.check
        have hWidth := h.width
        omega
      · rcases hPage with hPage | ⟨hPage, hOut⟩
        · simp only [Visit.Shown, Visit.serve, hPath, loadPage, hProxy, Option.getD_none, hPage]
          exact hIssued.sub
        · simp only [Visit.Shown, Visit.serve, hPath, loadPage, hProxy, Option.getD_none, hPage]
          exact ⟨token, claims, hJar, hIssued.parse, hCheck, hOut⟩
    · by_cases hReply : v.reply.isTransient = true
      · refine .inl ⟨?_, .inl hReply⟩
        have hProxy : proxy E pathname v.moments v.reply jar = (true, none) := by
          simp [proxy, hProtected, hValid, hRefresh, hDown hReply]
        simp only [Visit.serve, hPath, loadPage, hProxy]
        split <;> rfl
      · obtain ⟨pair, access, hSilent, hSession, hPage, hParse, hSub⟩ :=
          h.renewed hE ((Bool.not_eq_true _).mp hReply)
        have hProxy : proxy E pathname v.moments v.reply jar =
            (true, some (.renewed v.moments pair)) := by
          simp [proxy, hProtected, hValid, hRefresh, hSilent]
        refine .inr ⟨.renewed v.moments pair, ?_, hSession, ?_⟩
        · simp [Visit.serve, hPath, loadPage, hProxy, hPage]
        · simp only [Visit.Shown, Visit.serve, hPath, loadPage, hProxy, Option.getD_some, hPage]
          exact hSub

/-- Whatever response the browser takes, it has the cookies of a session. -/
theorem Kept.take {s t : Browser} {i : Nat} (h : Kept E u idle D base late s)
    (hReg : Regular E u idle D s (.take i)) (hStep : (browser E).step s (.take i) = some t) :
    ∃ base late, Kept E u idle D base late t := by
  obtain ⟨p, hGet, rfl⟩ := Option.map_eq_some_iff.mp hStep
  obtain ⟨v, jar⟩ := p
  have hSet : s.now ≤ v.moments.set := hReg _ hGet
  obtain ⟨hStarted, base', late', hIn, hSince⟩ := h.underway _ (List.mem_of_getElem? hGet)
  dsimp only at hStarted hIn hSince
  have hRest : ∀ p ∈ s.underway.eraseIdx i, p ∈ s.underway := fun p => List.mem_of_mem_eraseIdx
  have hPast := h.past
  have hContact := h.contact
  have hA : 0 ≤ E.accessTokenDuration - D := by
    have hSecond : (0 : Int) ≤ second := by decide
    have hAccess := hE.access
    omega
  have hD := hE.nonneg
  rcases hIn.serve_cases hE with ⟨hNone, hKind⟩ | ⟨set, hSome, hSession, -⟩
  · refine ⟨base, late, ?_, ?_, h.width, ?_, ?_, fun p hp => ?_⟩
    · rw [hNone]
      exact h.session
    · exact h.issued.trans hSet
    · rcases hKind with hReply | ⟨hStart, -⟩
      · simp [hReply, hContact]
      · refine contact_le hContact ?_
        show v.moments.start ≤ base + D + E.accessTokenDuration
        rcases hSince with hSince | rfl
        · omega
        · exact hStart
    · exact contact_le (hPast.trans hSet) (hStarted.trans hSet)
    · obtain ⟨hBefore, hOther⟩ := h.underway p (hRest p hp)
      exact ⟨hBefore.trans hSet, hOther⟩
  · have hSetBy := hIn.timely.setBy
    have hAnswer := hIn.timely.set
    refine ⟨v.moments.start, v.moments.answer, ?_, hAnswer, hAnswer.trans hSetBy, ?_, ?_,
      fun p hp => ?_⟩
    · rw [hSome]
      exact hSession
    · have hStart : v.moments.start ≤ v.moments.start + D + E.accessTokenDuration := by omega
      exact contact_le (by omega) hStart
    · exact contact_le (hPast.trans hSet) (hStarted.trans hSet)
    · obtain ⟨hBefore, baseP, lateP, hInP, -⟩ := h.underway p (hRest p hp)
      exact ⟨hBefore.trans hSet, baseP, lateP, hInP, .inl (hBefore.trans (hSet.trans hSetBy))⟩

end Steps

variable {E}

/-- A browser that goes on within `idle` of its last contact to the backend stays signed in, and
what it asks for is shown to it: also when the backend fails for a while, and when requests overtake
each other. -/
theorem session_lasts {u : UUID} {idle D base late now : Int} {jar : Cookies} {t : Browser}
    {as : List BrowserAction} (hE : E.Lasting idle D) (hJar : jar.OfSession E u base late)
    (hBase : base ≤ late) (hWidth : late ≤ base + D) (hNow : late ≤ now)
    (h : (browser E).Runs (Regular E u idle D) ⟨jar, now, base, []⟩ as t) :
    (∃ base late, t.jar.OfSession E u base late) ∧
      ∀ p ∈ t.underway, (p.1.serve E p.2).2 ≠ some .deleted ∧
        (p.1.reply.isTransient = false → p.1.Shown E u p.2) := by
  have hContact : base ≤ base + D + E.accessTokenDuration := by
    have hNonneg := hE.nonneg
    have hAccess := hE.access
    have hSecond : (0 : Int) ≤ second := by decide
    omega
  have hStart : ∃ base' late', Kept E u idle D base' late' ⟨jar, now, base, []⟩ :=
    ⟨base, late, hJar, hNow, hWidth, hContact, hBase.trans hNow, fun p hp => by cases hp⟩
  obtain ⟨base', late', hKept⟩ := h.invariant (I := fun s => ∃ base late, Kept E u idle D base late s)
    (fun s a t' hReg hStep hs => by
      obtain ⟨base, late, hs⟩ := hs
      cases a with
      | send v =>
        cases hStep
        exact ⟨base, late, hs.send hReg⟩
      | take i => exact hs.take hE hReg hStep) hStart
  refine ⟨⟨base', late', hKept.session⟩, fun p hp => ?_⟩
  obtain ⟨-, _, _, hIn, -⟩ := hKept.underway p hp
  rcases hIn.serve_cases hE with ⟨hNone, hKind⟩ | ⟨set, hSome, hSession, hShown⟩
  · refine ⟨by simp [hNone], fun hReply => ?_⟩
    rcases hKind with hFailed | ⟨-, hShown⟩
    · rw [hReply] at hFailed
      cases hFailed
    · exact hShown
  · refine ⟨?_, fun _ => hShown⟩
    rw [hSome]
    rintro ⟨⟩
    obtain ⟨_, _, hAccess, -⟩ := hSession.access
    cases hAccess

/-- The claims of a token that a user is issued a thousand seconds later. -/
def laterClaims (u : User) (tokenType : TokenType) : JWTClaims :=
  { staffClaims u tokenType with
    exp := (staffClaims u tokenType).exp + 1000
    iat := 1000
    nbf := 1000
    jti := idText u.id ++ "-1000000000000" }

def laterTokens : List (JWTClaims × String) :=
  staffTokens ++ staff.flatMap fun u => [(laterClaims u .access, u.firstName ++ ".access.later"),
    (laterClaims u .refresh, u.firstName ++ ".refresh.later")]

theorem parseFrom_laterTokens : ∀ p ∈ laterTokens, parseFrom laterTokens p.2 = .ok p.1 := by
  decide +kernel

def laterEnv : Env := tableEnv laterTokens parseFrom_laterTokens

/-- The cookies of a login in the first second. -/
def umaCookies : Cookies := ⟨some "Uma.access", some ("Uma.refresh", refreshMaxAge)⟩

/-- A page a thousand seconds after the login, when the access token has run out. -/
def umaVisit : Visit where
  path := some "/dashboard/courses"
  moments := ⟨1000 * second, 1000 * second, 1000 * second, 1000 * second, 1000 * second⟩
  reply := some (.ok ⟨"Uma.access.later", "Uma.refresh.later", 900, none⟩)

theorem uma_ofSession : umaCookies.OfSession laterEnv 2 0 0 where
  access := ⟨"Uma.access", staffClaims ⟨2, "uma@dyadia.local", "uma-hash", "Uma", none, "Kern",
    .normal, .active, 0, 0⟩ .access, rfl, by
      constructor <;> decide +kernel⟩
  refresh := ⟨"Uma.refresh", refreshMaxAge, staffClaims ⟨2, "uma@dyadia.local", "uma-hash", "Uma",
    none, "Kern", .normal, .active, 0, 0⟩ .refresh, rfl, by decide, by
      constructor <;> decide +kernel⟩

theorem laterEnv_lasting : laterEnv.Lasting (86400 * second) (10 * second) where
  nonempty claims := by
    have hParse : laterEnv.parseWithClaims "" = .error "token is malformed" := by decide +kernel
    rw [hParse]
    exact fun h => by cases h
  leeway := by decide
  nonneg := by decide
  access := by decide
  refresh := by decide
  cookie := by decide

theorem uma_regular : Regular laterEnv 2 (86400 * second) (10 * second) ⟨umaCookies, 0, 0, []⟩
    (.send umaVisit) := by
  refine ⟨by decide, by decide, ⟨?_, by decide, by decide, by decide, by decide, by decide,
    by decide⟩, ?_⟩
  · rintro _ ⟨⟩
    decide
  · rintro _ token ⟨⟩ - hToken
    have hSent : umaCookies.refreshToken (1000 * second) = some "Uma.refresh" := by decide +kernel
    cases hSent.symm.trans hToken
    exact ⟨{ staffStore with now := 1000 * second }, _, List.replicate 6 ⟨0, none, 0, ""⟩, _, rfl,
      rfl, le_refl _, le_refl _, rfl⟩

theorem session_lasts_uma :
    (∃ base late, umaCookies.OfSession laterEnv 2 base late) ∧ ∀ p ∈ [(umaVisit, umaCookies)],
      (p.1.serve laterEnv p.2).2 ≠ some .deleted ∧
        (p.1.reply.isTransient = false → p.1.Shown laterEnv 2 p.2) :=
  session_lasts (t := ⟨umaCookies, 1000 * second, 0, [(umaVisit, umaCookies)]⟩) laterEnv_lasting
    uma_ofSession (le_refl _) (by decide) (le_refl _)
    (.cons (a := .send umaVisit) uma_regular rfl (.nil _))

end Richter.Auth
