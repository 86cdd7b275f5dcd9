import Richter.Auth.Sessions

/-! Where sessions, roles and passwords come from: every token goes back to a login with the
account's password, and what an account may do is given by admins. -/

namespace Richter.Auth

open Lib

variable (E : Env)

/-- In one of the states, the user that the claims name was active with the role that they give. -/
def WasActive (V : Requests → Prop) (claims : JWTClaims) : Prop :=
  ∃ s user, V s ∧ s.store.users.find user.id = some user ∧ user.status = .active ∧
    claims.says E user.id user.role

/-- In one of the states, the user that the claims name was active and had the email and the
password with which a request logs in. -/
def LoggedIn (request : Nat → Request) (V : Requests → Prop) (claims : JWTClaims) : Prop :=
  ∃ i email password s user, (request i).call = .login email password ∧ V s ∧
    s.store.users.find user.id = some user ∧ user.status = .active ∧
    E.lower user.email = E.lower email ∧
    verifyPassword E password user.passwordHash = true ∧ claims.sub = E.uuidText user.id

/-- The rows that requests have read were there in one of the states, and the tokens descend from
logins. -/
structure Descended (request : Nat → Request) (V : Requests → Prop) (p : Requests) : Prop where
  read : ∀ i user, ∀ e ∈ p.hist i, Reads user e →
    ∃ s, V s ∧ s.store.users.find user.id = some user
  byID : ∀ i id user, ⟨.conn (.getUserByID id), .ok user⟩ ∈ p.hist i → user.id = id
  byEmail : ∀ i email user, ⟨.conn (.getUserByEmail email), .ok user⟩ ∈ p.hist i →
    E.lower user.email = E.lower email
  active : ∀ token ∈ p.store.issued, ∀ claims, E.parseWithClaims token = .ok claims →
    WasActive E V claims
  login : ∀ token ∈ p.store.issued, ∀ claims, E.parseWithClaims token = .ok claims →
    LoggedIn E request V claims

section Descent

variable {E} {request : Nat → Request} {V W : Requests → Prop} {p q : Requests} {i : Nat}
  {w : Choice} {claims : JWTClaims}

theorem WasActive.mono (hVW : ∀ s, V s → W s) (h : WasActive E V claims) : WasActive E W claims := by
  obtain ⟨s, user, hs, hRest⟩ := h
  exact ⟨s, user, hVW s hs, hRest⟩

theorem LoggedIn.mono (hVW : ∀ s, V s → W s) (h : LoggedIn E request V claims) :
    LoggedIn E request W claims := by
  obtain ⟨i, email, password, s, user, hCall, hs, hRest⟩ := h
  exact ⟨i, email, password, s, user, hCall, hVW s hs, hRest⟩

theorem Descended.mono (hVW : ∀ s, V s → W s) (h : Descended E request V p) :
    Descended E request W p where
  read i user e he hReads := by
    obtain ⟨s, hs, hFind⟩ := h.read i user e he hReads
    exact ⟨s, hVW s hs, hFind⟩
  byID := h.byID
  byEmail := h.byEmail
  active token hToken claims hParse := (h.active token hToken claims hParse).mono hVW
  login token hToken claims hParse := (h.login token hToken claims hParse).mono hVW

/-- Whoever is issued a token has logged in, or renews the session of one who has. -/
theorem Credential.loggedIn {user : User} {tokenType : TokenType} {t : Int}
    (hp : Descended E request V p)
    (hG : Unforged E request p (i, w)) (hIssues : Issues E (request i) (p.hist i) claims user
      tokenType t) : LoggedIn E request V claims := by
  obtain ⟨hCred, hActive, -, rfl⟩ := hIssues
  cases hCred with
  | password email password hCall hRead hVerify =>
    obtain ⟨s, hs, hFind⟩ := hp.read i user _ hRead (.byEmail email)
    exact ⟨i, email, password, s, user, hCall, hs, hFind, hActive, hp.byEmail i email user hRead,
      hVerify, rfl⟩
  | refresh token old id t hCall hParse hType hTime hValid hScan hRead =>
    have hIssued : token ∈ p.store.issued :=
      hG token (presented_refreshToken hCall) (by rw [hParse]; rfl)
    obtain ⟨j, email, password, s, owner, hLogin, hs, hFind, hOwner, hEmail, hVerify, hSub⟩ :=
      hp.login token hIssued old hParse
    -- the old token names the user whose row has been read
    have hId : owner.id = user.id := by
      rw [hSub, E.scan_text] at hScan
      rw [hp.byID i id user hRead]
      exact Except.ok.inj hScan
    exact ⟨j, email, password, s, owner, hLogin, hs, hFind, hOwner, hEmail, hVerify,
      congrArg E.uuidText hId.symm⟩

theorem Issues.wasActive {user : User} {tokenType : TokenType} {t : Int}
    (hp : Descended E request V p)
    (hIssues : Issues E (request i) (p.hist i) claims user tokenType t) :
    WasActive E V claims := by
  obtain ⟨e, he, hReads⟩ := hIssues.credential.reads
  obtain ⟨s, hs, hFind⟩ := hp.read i user e he hReads
  refine ⟨s, user, hs, hFind, hIssues.active, ?_⟩
  rw [hIssues.claims_eq]
  exact ⟨rfl, rfl⟩

theorem descended_step (hG : Unforged E request p (i, w)) (hJ : Justifying E request p)
    (hp : Descended E request V p) (h : (requests E).step p (i, w) = some q) :
    Descended E request (fun s => V s ∨ s = q) q := by
  obtain ⟨o, r, -, hOp, hExec, hHist, -, -⟩ := step_spec h hJ
  have hMono : ∀ s, V s → V s ∨ s = q := fun s => .inl
  constructor
  · intro j user e he hReads
    rw [hHist] at he
    obtain hOld | ⟨rfl, rfl⟩ := mem_hist_update he
    · obtain ⟨s, hs, hFind⟩ := hp.read j user e hOld hReads
      exact ⟨s, .inl hs, hFind⟩
    · obtain ⟨hFind, hSame⟩ := reads_find hReads hExec
      exact ⟨q, .inr rfl, by rw [hSame, hFind]⟩
  · intro j id user hEvent
    rw [hHist] at hEvent
    obtain hOld | ⟨rfl, hNew⟩ := mem_hist_update hEvent
    · exact hp.byID j id user hOld
    · cases hNew
      exact Table.find_key (exec_getUserByID (exec_conn_ok hExec))
  · intro j email user hEvent
    rw [hHist] at hEvent
    obtain hOld | ⟨rfl, hNew⟩ := mem_hist_update hEvent
    · exact hp.byEmail j email user hOld
    · cases hNew
      exact (exec_getUserByEmail (exec_conn_ok hExec)).2
  · intro token hToken claims hParse
    obtain hOld | ⟨signed, rfl, hSigned⟩ := issued_cases hExec hToken
    · exact (hp.active token hOld claims hParse).mono hMono
    · rw [hSigned] at hParse
      obtain rfl := Except.ok.inj hParse
      obtain ⟨user, tokenType, t, hIssues⟩ := hOp
      exact (hIssues.wasActive hp).mono hMono
  · intro token hToken claims hParse
    obtain hOld | ⟨signed, rfl, hSigned⟩ := issued_cases hExec hToken
    · exact (hp.login token hOld claims hParse).mono hMono
    · rw [hSigned] at hParse
      obtain rfl := Except.ok.inj hParse
      obtain ⟨user, tokenType, t, hIssues⟩ := hOp
      exact (Credential.loggedIn hp hG hIssues).mono hMono

/-- The states that a run from a start leads through. -/
abbrev Visited (E : Env) (request : Nat → Request) (s : Store) (as : List (Nat × Choice))
    (p : Requests) : Prop :=
  p ∈ (requests E).trace (.start E s request) as

theorem descended_run {s : Store} (hs : s.issued = []) {as : List (Nat × Choice)}
    (hRun : (requests E).Runs (Unforged E request) (.start E s request) as p) :
    Descended E request (Visited E request s as) p := by
  have hStart : Justifying E request (.start E s request) ∧
      Descended E request (fun _ => False) (.start E s request) := by
    refine ⟨justifying_start s, ⟨?_, ?_, ?_, ?_, ?_⟩⟩
    · exact fun i user e he => absurd he (List.not_mem_nil)
    · exact fun i id user he => absurd he (List.not_mem_nil)
    · exact fun i email user he => absurd he (List.not_mem_nil)
    · exact fun token hToken => absurd (hs ▸ hToken : token ∈ []) (List.not_mem_nil)
    · exact fun token hToken => absurd (hs ▸ hToken : token ∈ []) (List.not_mem_nil)
  refine (hRun.invariant_trace (I := fun V p => Justifying E request p ∧ Descended E request V p)
    ?_ ?_ hStart).2.mono fun u hu => hu.resolve_left id
  · exact fun V W p hVW h => ⟨h.1, h.2.mono hVW⟩
  · rintro V p ⟨i, w⟩ q hG hStep ⟨hJ, hp⟩
    obtain ⟨_, _, -, -, -, -, hq, -⟩ := step_spec hStep hJ
    exact ⟨hq, descended_step hG hJ hp hStep⟩

/-- Whoever is served has logged in: the claims that a request is authenticated by name a user who
was active with the claims' role, and into whose account a request of the run logs in with the
password that the user then had. -/
theorem served_after_login {s : Store} (hs : s.issued = []) {as : List (Nat × Choice)}
    (hRun : (requests E).Runs (Unforged E request) (.start E s request) as p)
    (hServed : Served p i) (hPrivate : (request i).call.isPublic = false) :
    ∃ claims t, AuthenticatedAt E (request i) (p.hist i) claims t ∧
      WasActive E (Visited E request s as) claims ∧
      LoggedIn E request (Visited E request s as) claims := by
  obtain ⟨hTimely, hJ⟩ := timely_run hs hRun
  have hAuthentic : Authentic (E := E) request p := by
    refine (authentic_run hRun (justifying_start s) fun i q a h => ?_).2
    exact absurd h (List.not_mem_nil)
  obtain ⟨claims, t, hAuth⟩ := served_authentic hJ hAuthentic hServed hPrivate
  obtain ⟨token, hMem, hParse⟩ := hAuth.presented
  have hIssued := hTimely.presented i (List.ne_nil_of_mem hAuth.read) token hMem
    (by rw [hParse]; rfl)
  have hp := descended_run hs hRun
  exact ⟨claims, t, hAuth, hp.active token hIssued claims hParse, hp.login token hIssued claims hParse⟩

theorem served_after_login_staff :
    ∃ claims t, AuthenticatedAt staffEnv (staffRequest 2) ((staffAfter disabling).hist 2) claims t ∧
      WasActive staffEnv (Visited staffEnv staffRequest staffStore disabling) claims ∧
      LoggedIn staffEnv staffRequest (Visited staffEnv staffRequest staffStore disabling) claims :=
  served_after_login rfl (Machine.Runs.of_restrict rfl) (.inr ⟨_, rfl⟩) rfl

/-- A request that changes the table is permitted to, and the claims that permit it were true. -/
theorem step_permitted {s : Store} (hs : s.issued = []) {as : List (Nat × Choice)}
    (hRun : (requests E).Runs (Unforged E request) (.start E s request) as p)
    (hG : Unforged E request p (i, w)) (hStep : (requests E).step p (i, w) = some q)
    (hChanged : q.store.users ≠ p.store.users) :
    ∃ (query : Query) (a : query.Result),
      query.exec E.lower w.fresh q.store.now p.store.users = .ok (a, q.store.users) ∧
      (query.isOpen = true ∨ ∃ claims t, AuthenticatedAt E (request i) (p.hist i) claims t ∧
        WasActive E (Visited E request s as) claims ∧
        (∀ id hash, query = .updateUserPassword id hash → AsksPassword E (request i) id) ∧
        (claims.role = .admin ∨ (query.setsStanding = false ∧
          ∀ id hash, query = .updateUserPassword id hash →
            OwnPassword E (request i) (p.hist i) claims id))) := by
  obtain ⟨hTimely, hJ⟩ := timely_run hs hRun
  obtain ⟨o, r, -, hOp, hExec, -, -, -⟩ := step_spec hStep hJ
  obtain ⟨-, ⟨hSame, -⟩ | ⟨query, a, rfl, hQuery, -⟩ | ⟨_, _, _, _, hSame, -⟩⟩ := exec_cases hExec
  · exact absurd hSame hChanged
  · refine ⟨query, a, hQuery, ?_⟩
    obtain ⟨-, hOpen⟩ | ⟨claims, t, hAuth, hAsks, hMay⟩ := hOp
    · exact .inl hOpen
    · obtain ⟨token, hMem, hParse⟩ := hAuth.presented
      have hIssued := hG token hMem (by rw [hParse]; rfl)
      exact .inr ⟨claims, t, hAuth, (descended_run hs hRun).active token hIssued claims hParse,
        hAsks, hMay⟩
  · exact absurd hSame hChanged

/-- In one of the states the claims were an active admin's. -/
def WasAdmin (E : Env) (V : Requests → Prop) (claims : JWTClaims) : Prop :=
  ∃ s user, V s ∧ s.store.users.find user.id = some user ∧ user.status = .active ∧
    user.role = .admin ∧ claims.sub = E.uuidText user.id

theorem WasActive.wasAdmin (h : WasActive E V claims) (hRole : claims.role = .admin) :
    WasAdmin E V claims := by
  obtain ⟨s, user, hs, hFind, hActive, hSub, hSame⟩ := h
  rw [hRole] at hSame
  exact ⟨s, user, hs, hFind, hActive, userRoleToProto_eq_admin.mp hSame.symm, hSub⟩

/-- A user's role and status change only by a request with the token of a user who was an active
admin; a new user otherwise begins as the column defaults say. -/
theorem standing_set_by_admins {s : Store} (hs : s.issued = []) {as : List (Nat × Choice)}
    (hRun : (requests E).Runs (Unforged E request) (.start E s request) as p)
    (hG : Unforged E request p (i, w)) (hStep : (requests E).step p (i, w) = some q) {id : UUID}
    (hChanged : standing q.store.users id ≠ standing p.store.users id) :
    (standing p.store.users id = none ∧
      standing q.store.users id = some (.normal, .pending)) ∨
    ∃ claims t, AuthenticatedAt E (request i) (p.hist i) claims t ∧ claims.role = .admin ∧
      WasAdmin E (Visited E request s as) claims := by
  have hUsers : q.store.users ≠ p.store.users := fun hSame => hChanged (by rw [hSame])
  obtain ⟨query, a, hQuery, hMay⟩ := step_permitted hs hRun hG hStep hUsers
  by_cases hSets : query.setsStanding = true
  · obtain hOpen | ⟨claims, t, hAuth, hWas, -, hRole⟩ := hMay
    · rw [Query.isOpen_eq_false hSets] at hOpen
      cases hOpen
    · obtain hRole | ⟨hNot, -⟩ := hRole
      · exact .inr ⟨claims, t, hAuth, hRole, hWas.wasAdmin hRole⟩
      · rw [hSets] at hNot
        cases hNot
  · obtain hSame | ⟨hNone, hNew⟩ := exec_standing hQuery ((Bool.not_eq_true _).mp hSets) id
    · exact absurd hSame hChanged
    · exact .inl ⟨by simp [standing, hNone], hNew⟩

theorem standing_set_by_admins_staff :
    (standing (staffAfter disabling.dropLast).store.users 2 = none ∧
      standing (staffAfter disabling).store.users 2 = some (.normal, .pending)) ∨
    ∃ claims t, AuthenticatedAt staffEnv (staffRequest 2)
        ((staffAfter disabling.dropLast).hist 2) claims t ∧ claims.role = .admin ∧
      WasAdmin staffEnv (Visited staffEnv staffRequest staffStore disabling.dropLast) claims :=
  standing_set_by_admins (w := ⟨1000000000, none, 0, ""⟩) rfl
    (Machine.Runs.of_restrict rfl) (by decide +kernel) rfl
    (by decide +kernel)

/-- The password of a user who stays changes only by an `UpdateUserPassword` for that user, with the
token of a user who was an active admin, or with the user's own and a password that the user had. -/
theorem password_set_by_owner_or_admin {s : Store} (hs : s.issued = []) {as : List (Nat × Choice)}
    (hRun : (requests E).Runs (Unforged E request) (.start E s request) as p)
    (hG : Unforged E request p (i, w)) (hStep : (requests E).step p (i, w) = some q) {id : UUID}
    (hBefore : hashOf p.store.users id ≠ none) (hAfter : hashOf q.store.users id ≠ none)
    (hChanged : hashOf q.store.users id ≠ hashOf p.store.users id) :
    AsksPassword E (request i) id ∧ ∃ claims t, AuthenticatedAt E (request i) (p.hist i) claims t ∧
      ((claims.role = .admin ∧ WasAdmin E (Visited E request s as) claims) ∨
        (claims.sub = E.uuidText id ∧ ∃ oldPassword password s' user,
          (request i).call = .updateUserPassword (E.uuidText id) (some oldPassword) password ∧
          Visited E request s as s' ∧ s'.store.users.find id = some user ∧
          verifyPassword E oldPassword user.passwordHash = true)) := by
  have hUsers : q.store.users ≠ p.store.users := fun hSame => hChanged (by rw [hSame])
  obtain ⟨query, a, hQuery, hMay⟩ := step_permitted hs hRun hG hStep hUsers
  obtain ⟨hash, rfl⟩ : ∃ hash, query = .updateUserPassword id hash := by
    obtain hSame | hNone | rfl | hWrites := exec_hashOf hQuery id
    · exact absurd hSame hChanged
    · exact absurd (by simp [hashOf, hNone]) hBefore
    · exact absurd (hashOf_deleted hQuery) hAfter
    · exact hWrites
  obtain hOpen | ⟨claims, t, hAuth, hWas, hAsks, hMay⟩ := hMay
  · cases hOpen
  refine ⟨hAsks id hash rfl, claims, t, hAuth, ?_⟩
  obtain hRole | ⟨-, hOwn⟩ := hMay
  · exact .inl ⟨hRole, hWas.wasAdmin hRole⟩
  · obtain ⟨oldPassword, password, user, hCall, hScan, hRead, hVerify⟩ := hOwn id hash rfl
    obtain ⟨_, owner, _, _, _, hSub, _⟩ := hWas
    have hId : owner.id = id := by
      rw [hSub, E.scan_text] at hScan
      exact Except.ok.inj hScan
    rw [hId] at hSub
    have hp := descended_run hs hRun
    obtain ⟨s', hs', hFind⟩ := hp.read i user _ hRead (.byID id)
    rw [hp.byID i id user hRead] at hFind
    refine .inr ⟨hSub, oldPassword, password, s', user, ?_, hs', hFind, hVerify⟩
    rw [hCall, hSub]

/-- The user logs in and asks for another password, up to the statement that sets it. -/
def changingPassword : List (Nat × Choice) :=
  List.replicate 5 (0, ⟨0, none, 0, ""⟩) ++ List.replicate 3 (4, ⟨0, none, 0, "umi-hash"⟩)

theorem password_set_by_owner_or_admin_staff :
    AsksPassword staffEnv (staffRequest 4) 2 ∧
      ∃ claims t, AuthenticatedAt staffEnv (staffRequest 4)
        ((staffAfter changingPassword).hist 4) claims t ∧
      ((claims.role = .admin ∧
          WasAdmin staffEnv (Visited staffEnv staffRequest staffStore changingPassword) claims) ∨
        (claims.sub = staffEnv.uuidText 2 ∧ ∃ oldPassword password s' user,
          (staffRequest 4).call =
            .updateUserPassword (staffEnv.uuidText 2) (some oldPassword) password ∧
          Visited staffEnv staffRequest staffStore changingPassword s' ∧
          s'.store.users.find 2 = some user ∧
          verifyPassword staffEnv oldPassword user.passwordHash = true)) :=
  password_set_by_owner_or_admin (w := ⟨0, none, 0, ""⟩)
    (q := staffAfter (changingPassword ++ [(4, ⟨0, none, 0, ""⟩)])) rfl
    (Machine.Runs.of_restrict rfl) (by decide +kernel) rfl
    (by decide +kernel) (by decide +kernel) (by decide +kernel)

end Descent

end Richter.Auth
