import Richter.Auth.Justified

/-! Any number of requests side by side, and what their tokens stand for.  Nobody can make a token
that the service accepts except the service, and clocks do not run backwards. -/

namespace Richter.Auth

open Lib

variable (E : Env)

/-- Requests that are served side by side, by their numbers. -/
abbrev Requests := Pool Nat Store Op Op.Resp (Except Error Response)

def Requests.start (s : Store) (request : Nat → Request) : Requests :=
  Pool.start s fun i => ((request i).serve E).run

/-- The scheduler lets a request take its next step. -/
def requests : Machine Requests (Nat × Choice) := Pool.machine fun _ => exec E

/-- The tokens that a request comes with. -/
def Request.presented (r : Request) : List String :=
  (extractBearer r.authorization).toList ++
    match r.call with
    | .refreshToken token | .logout token => [token]
    | _ => []

/-- A request that takes a step comes with no token that the service would parse without having
issued it. -/
def Unforged (request : Nat → Request) (p : Requests) (a : Nat × Choice) : Prop :=
  ∀ token ∈ (request a.1).presented, (E.parseWithClaims token).isOk = true →
    token ∈ p.store.issued

instance (request : Nat → Request) (p : Requests) (a : Nat × Choice) :
    Decidable (Unforged E request p a) :=
  inferInstanceAs (Decidable (∀ token ∈ (request a.1).presented, _))

/-- The request has performed a statement or has answered. -/
def Served (p : Requests) (i : Nat) : Prop :=
  (∃ (q : Query) (a : Except DbError q.Result), ⟨.conn q, a⟩ ∈ p.hist i) ∨
    ∃ response, (p.thread i).prog = .ret (.ok response)

/-- The event is the reading of the user's row. -/
inductive Reads (user : User) : Prog.Event Op Op.Resp → Prop
  | byID (id : UUID) : Reads user ⟨.conn (.getUserByID id), .ok user⟩
  | byEmail (email : String) : Reads user ⟨.conn (.getUserByEmail email), .ok user⟩

section Step

variable {E} {request : Nat → Request} {p q : Requests} {i : Nat} {w : Choice}

/-- What holds of a pool of requests at all times: each goes on as its handler does, which justifies
what it does by what it has done. -/
abbrev Justifying (E : Env) (request : Nat → Request) (p : Requests) : Prop :=
  ∀ i, (p.thread i).prog.Along (Justified E (request i))
    (fun response h => ∀ a, response = .ok a → Answered E (request i) h) (p.hist i)

theorem justifying_start (s : Store) : Justifying E request (.start E s request) := by
  intro i
  refine Prog.Ensures.mono (serve_justified (request i)) (fun _ _ => id) ?_
  rintro (e | a) h hEnd b hb
  · cases hb
  · exact hEnd

/-- A step: the operation that is performed, why it may be, and what is left as it was. -/
theorem step_spec (h : (requests E).step p (i, w) = some q) (hp : Justifying E request p) :
    ∃ o r, p.next i = some o ∧ Justified E (request i) (p.hist i) o ∧
      exec E w o p.store = some (r, q.store) ∧
      q.hist = Function.update p.hist i (p.hist i ++ [⟨o, r⟩]) ∧ Justifying E request q ∧
      ∀ j, j ≠ i → q.next j = p.next j := by
  obtain ⟨o, r, hNext, hOp, hExec, hHist, hq⟩ := Pool.step_along h hp
  refine ⟨o, r, hNext, hOp, hExec, hHist, hq, fun j hj => ?_⟩
  obtain ⟨o', k, r', s, -, -, rfl⟩ := Pool.step_cases h
  simp [Pool.next, Function.update_of_ne hj]

/-- The row that a reading answers is the user's at that time. -/
theorem reads_find {user : User} {o : Op} {r : o.Resp} {s t : Store}
    (hRead : Reads user ⟨o, r⟩) (h : exec E w o s = some (r, t)) :
    s.users.find user.id = some user ∧ t.users = s.users := by
  cases hRead with
  | byID id =>
    have hExec := exec_conn_ok h
    have hFind := exec_getUserByID hExec
    have hKey : user.id = id := Table.find_key hFind
    exact ⟨by rw [hKey]; exact hFind, exec_isRead hExec rfl⟩
  | byEmail email =>
    have hExec := exec_conn_ok h
    exact ⟨(exec_getUserByEmail hExec).1, exec_isRead hExec rfl⟩

/-- Whoever issues a token has read the user's row. -/
theorem Credential.reads {r : Request} {h : History} {user : User} (hCred : Credential E r h user) :
    ∃ e ∈ h, Reads user e := by
  cases hCred with
  | password email password _ hRead _ => exact ⟨_, hRead, .byEmail email⟩
  | refresh token claims id t _ _ _ _ _ _ hRead => exact ⟨_, hRead, .byID id⟩

theorem text_inj {a b : UUID} (h : E.uuidText a = E.uuidText b) : a = b := by
  have hScan := E.scan_text a
  rw [h, E.scan_text b] at hScan
  exact (Except.ok.inj hScan).symm

theorem unix_mul_le (t : Int) : unix t * second ≤ t := by
  unfold unix second
  omega

/-- A token that a request is authenticated by is one that it has come with. -/
theorem AuthenticatedAt.presented {r : Request} {h : History} {claims : JWTClaims} {t : Int}
    (hAuth : AuthenticatedAt E r h claims t) :
    ∃ token ∈ r.presented, E.parseWithClaims token = .ok claims := by
  obtain ⟨token, hBearer, hParse⟩ := hAuth.token
  exact ⟨token, by simp [Request.presented, hBearer], hParse⟩

theorem presented_refreshToken {r : Request} {token : String} (h : r.call = .refreshToken token) :
    token ∈ r.presented := by
  simp [Request.presented, h]

end Step

/-! How long a token outlives what it says. -/

/-- Clock readings are past, the access tokens were issued for at most their duration from now, and
requests have come with tokens that were issued. -/
structure Timely (request : Nat → Request) (s : Store) (hist : Nat → History) : Prop where
  clock : ∀ i t, ⟨.now, t⟩ ∈ hist i → t ≤ s.now
  fresh : ∀ token ∈ s.issued, ∀ claims, E.parseWithClaims token = .ok claims →
    claims.tokenType = .access → claims.exp * second ≤ s.now + E.accessTokenDuration
  presented : ∀ i, hist i ≠ [] → ∀ token ∈ (request i).presented,
    (E.parseWithClaims token).isOk = true → token ∈ s.issued

section Revocation

variable {E} {request : Nat → Request} {p q : Requests} {i : Nat} {w : Choice}

theorem mem_hist_update {hist : Nat → History} {e e' : Prog.Event Op Op.Resp} {j : Nat}
    (h : e ∈ Function.update hist i (hist i ++ [e']) j) : e ∈ hist j ∨ (j = i ∧ e = e') := by
  by_cases hj : j = i
  · subst hj
    simpa using h
  · rw [Function.update_of_ne hj] at h
    exact .inl h

theorem issued_subset {o : Op} {r : o.Resp} {s t : Store} (h : exec E w o s = some (r, t)) :
    s.issued ⊆ t.issued := by
  obtain ⟨-, ⟨-, hSame⟩ | ⟨_, _, _, _, hSame⟩ | ⟨_, _, _, _, _, hMore⟩⟩ := exec_cases h
  · exact hSame ▸ List.Subset.refl _
  · exact hSame ▸ List.Subset.refl _
  · exact hMore ▸ List.subset_cons_self ..

/-- A token of the store after a step was there before, or the step has signed its claims. -/
theorem issued_cases {o : Op} {r : o.Resp} {s t : Store} (h : exec E w o s = some (r, t))
    {token : String} (hToken : token ∈ t.issued) :
    token ∈ s.issued ∨ ∃ claims, o = .sign claims ∧ E.parseWithClaims token = .ok claims := by
  obtain ⟨-, ⟨-, hSame⟩ | ⟨_, _, _, _, hSame⟩ | ⟨claims, signed, ho, hSigned, -, hMore⟩⟩ :=
    exec_cases h
  · exact .inl (hSame ▸ hToken)
  · exact .inl (hSame ▸ hToken)
  · rw [hMore] at hToken
    obtain rfl | hToken := List.mem_cons.mp hToken
    · exact .inr ⟨claims, ho, E.parse_signed claims _ hSigned⟩
    · exact .inl hToken

theorem timely_step (hG : Unforged E request p (i, w)) (hp : Timely E request p.store p.hist)
    (hJ : Justifying E request p) (h : (requests E).step p (i, w) = some q) :
    Timely E request q.store q.hist := by
  obtain ⟨o, r, -, hOp, hExec, hHist, -, -⟩ := step_spec h hJ
  have hLe : p.store.now ≤ q.store.now := (exec_cases hExec).1
  have hSub : p.store.issued ⊆ q.store.issued := issued_subset hExec
  refine ⟨fun j t hj => ?_, fun token hToken claims hParse hType => ?_, fun j hj token hMem hOk => ?_⟩
  · rw [hHist] at hj
    obtain hOld | ⟨rfl, hNew⟩ := mem_hist_update hj
    · exact (hp.clock j t hOld).trans hLe
    · cases hNew
      exact le_of_eq (exec_now hExec).1
  · obtain hOld | ⟨signed, rfl, hSigned⟩ := issued_cases hExec hToken
    · exact (hp.fresh token hOld claims hParse hType).trans (by omega)
    · rw [hSigned] at hParse
      obtain rfl := Except.ok.inj hParse
      obtain ⟨user, tokenType, t, hIssues⟩ := hOp
      have hRead := hp.clock i t hIssues.read
      have hExp := unix_mul_le (t + E.duration tokenType)
      obtain rfl : tokenType = .access := by
        rw [hIssues.claims_eq] at hType
        exact hType
      rw [hIssues.claims_eq]
      simp only [claimsFor, Env.duration] at hExp ⊢
      omega
  · by_cases hji : j = i
    · subst hji
      exact hSub (hG token hMem hOk)
    · rw [hHist, Function.update_of_ne hji] at hj
      exact hSub (hp.presented j hj token hMem hOk)

theorem timely_run {s : Store} (hs : s.issued = []) {as : List (Nat × Choice)}
    (hRun : (requests E).Runs (Unforged E request) (.start E s request) as p) :
    Timely E request p.store p.hist ∧ Justifying E request p := by
  refine hRun.invariant (I := fun p => Timely E request p.store p.hist ∧ Justifying E request p)
    ?_ ⟨⟨?_, ?_, ?_⟩, justifying_start s⟩
  · rintro p ⟨i, w⟩ q hG hStep ⟨hTimely, hJ⟩
    obtain ⟨_, _, -, -, -, -, hq, -⟩ := step_spec hStep hJ
    exact ⟨timely_step hG hTimely hJ hStep, hq⟩
  · exact fun i t h => absurd h (List.not_mem_nil)
  · intro token hToken
    exact absurd (hs ▸ hToken : token ∈ []) (List.not_mem_nil)
  · exact fun i h => absurd rfl h

/-- The claims say that the user is active with the role. -/
def JWTClaims.says (claims : JWTClaims) (E : Env) (u : UUID) (role : UserRole) : Prop :=
  claims.sub = E.uuidText u ∧ claims.role = userRoleToProto role

/-- The event is the reading of the user's row as an active one with the role. -/
def ReadsAs (u : UUID) (role : UserRole) (e : Prog.Event Op Op.Resp) : Prop :=
  ∃ user, Reads user e ∧ user.id = u ∧ user.role = role ∧ user.status = .active

/-- From the time `T` on, no request that is under way has read the user as active with the role,
and the access tokens that say so are for at most their duration from `T`. -/
structure Revoked (u : UUID) (role : UserRole) (T : Int) (p : Requests) : Prop where
  unread : ∀ i, p.next i ≠ none → ∀ e ∈ p.hist i, ¬ ReadsAs u role e
  ends : ∀ token ∈ p.store.issued, ∀ claims, E.parseWithClaims token = .ok claims →
    claims.tokenType = .access → claims.says E u role →
      claims.exp * second ≤ T + E.accessTokenDuration

theorem userRoleToProto_inj {a b : UserRole} (h : userRoleToProto a = userRoleToProto b) :
    a = b := by
  cases a <;> cases b <;> first | rfl | cases h

theorem revoked_step {u : UUID} {role : UserRole} {T : Int}
    (hGone : standing p.store.users u ≠ some (role, .active)) (hJ : Justifying E request p)
    (hp : Revoked (E := E) u role T p) (h : (requests E).step p (i, w) = some q) :
    Revoked (E := E) u role T q := by
  obtain ⟨o, r, hNext, hOp, hExec, hHist, -, hOthers⟩ := step_spec h hJ
  have hUnder : p.next i ≠ none := by rw [hNext]; exact Option.some_ne_none o
  refine ⟨fun j hj e he hReads => ?_, fun token hToken claims hParse hType hSays => ?_⟩
  · rw [hHist] at he
    obtain hOld | ⟨rfl, rfl⟩ := mem_hist_update he
    · by_cases hji : j = i
      · subst hji
        exact hp.unread j hUnder e hOld hReads
      · exact hp.unread j (hOthers j hji ▸ hj) e hOld hReads
    · obtain ⟨user, hRead, rfl, rfl, hActive⟩ := hReads
      exact hGone (by simp [standing, (reads_find hRead hExec).1, hActive])
  · obtain hOld | ⟨signed, rfl, hSigned⟩ := issued_cases hExec hToken
    · exact hp.ends token hOld claims hParse hType hSays
    · -- the request that signs would have read the user as active with the role
      rw [hSigned] at hParse
      obtain rfl := Except.ok.inj hParse
      obtain ⟨user, tokenType, t, hIssues⟩ := hOp
      obtain ⟨e, he, hRead⟩ := hIssues.credential.reads
      rw [hIssues.claims_eq] at hSays
      exact absurd ⟨user, hRead, text_inj hSays.1, userRoleToProto_inj hSays.2, hIssues.active⟩
        (hp.unread i hUnder e he)

/-- A request that has been served, other than a public one, has been authenticated. -/
def Authentic (request : Nat → Request) (p : Requests) : Prop :=
  ∀ i q a, ⟨.conn q, a⟩ ∈ p.hist i → (request i).call.isPublic = false →
    ∃ claims t, AuthenticatedAt E (request i) (p.hist i) claims t

theorem authentic_step (hJ : Justifying E request p) (hp : Authentic (E := E) request p)
    (h : (requests E).step p (i, w) = some q) : Authentic (E := E) request q := by
  obtain ⟨o, r, -, hOp, -, hHist, -, -⟩ := step_spec h hJ
  have hSub : ∀ j, p.hist j ⊆ q.hist j := by
    intro j
    rw [hHist]
    by_cases hj : j = i
    · subst hj
      simp
    · rw [Function.update_of_ne hj]
      exact List.Subset.refl _
  intro j query a hj hPrivate
  rw [hHist] at hj
  obtain hOld | ⟨rfl, hNew⟩ := mem_hist_update hj
  · obtain ⟨claims, t, hAuth⟩ := hp j query a hOld hPrivate
    exact ⟨claims, t, hAuth.mono (hSub j)⟩
  · cases hNew
    obtain ⟨hPublic, -⟩ | ⟨claims, t, hAuth, -⟩ := hOp
    · rw [hPrivate] at hPublic
      cases hPublic
    · exact ⟨claims, t, hAuth.mono (hSub j)⟩

theorem served_authentic (hJ : Justifying E request p) (hp : Authentic (E := E) request p)
    (hServed : Served p i) (hPrivate : (request i).call.isPublic = false) :
    ∃ claims t, AuthenticatedAt E (request i) (p.hist i) claims t := by
  obtain ⟨query, a, hEvent⟩ | ⟨response, hRet⟩ := hServed
  · exact hp i query a hEvent hPrivate
  · have hEnd := hJ i
    rw [hRet] at hEnd
    obtain hPublic | hAuth := hEnd response rfl
    · rw [hPrivate] at hPublic
      cases hPublic
    · exact hAuth

theorem authentic_run {G : Requests → Nat × Choice → Prop} {as : List (Nat × Choice)}
    (hRun : (requests E).Runs G p as q) (hJ : Justifying E request p)
    (hp : Authentic (E := E) request p) :
    Justifying E request q ∧ Authentic (E := E) request q := by
  refine hRun.invariant (I := fun p => Justifying E request p ∧ Authentic (E := E) request p)
    ?_ ⟨hJ, hp⟩
  rintro p ⟨i, w⟩ q _ hStep ⟨hJ, hp⟩
  obtain ⟨_, _, -, -, -, -, hq, -⟩ := step_spec hStep hJ
  exact ⟨hq, authentic_step hJ hp hStep⟩

/-- An account that is disabled, deleted or given another role loses what its tokens say within an
access token's duration and the leeway: from a moment on at which no request under way has read it
as it was, and as long as it does not become so again, a request is only served on a clock reading
before that. -/
theorem served_before_expiry {s : Store} (hs : s.issued = []) {u : UUID} {role : UserRole}
    {as bs : List (Nat × Choice)}
    (hBefore : (requests E).Runs (Unforged E request) (.start E s request) as p)
    (hSettled : ∀ j, p.next j ≠ none → ∀ e ∈ p.hist j, ¬ ReadsAs u role e)
    (hAfter : (requests E).Runs (fun p a => Unforged E request p a ∧
      standing p.store.users u ≠ some (role, .active)) p bs q)
    (hServed : Served q i) (hPrivate : (request i).call.isPublic = false) :
    (∃ claims t, AuthenticatedAt E (request i) (q.hist i) claims t) ∧
      ∀ claims t, AuthenticatedAt E (request i) (q.hist i) claims t → claims.says E u role →
        t < p.store.now + E.accessTokenDuration + E.leeway := by
  obtain ⟨hTimely, hJ⟩ := timely_run hs hBefore
  have hAuthentic : Authentic (E := E) request p := by
    refine (authentic_run hBefore (justifying_start s) fun i q a h => ?_).2
    exact absurd h (List.not_mem_nil)
  obtain ⟨hJq, hAuthenticQ⟩ := authentic_run hAfter hJ hAuthentic
  obtain ⟨hTimelyQ, hRevoked, -⟩ : Timely E request q.store q.hist ∧
      Revoked (E := E) u role p.store.now q ∧ Justifying E request q := by
    refine hAfter.invariant (I := fun q => Timely E request q.store q.hist ∧
      Revoked (E := E) u role p.store.now q ∧ Justifying E request q) ?_ ⟨hTimely, ⟨hSettled, ?_⟩, hJ⟩
    · rintro p' ⟨i, w⟩ q' ⟨hG, hGone⟩ hStep ⟨hTimely, hRevoked, hJ⟩
      obtain ⟨_, _, -, -, -, -, hq, -⟩ := step_spec hStep hJ
      exact ⟨timely_step hG hTimely hJ hStep, revoked_step hGone hJ hRevoked hStep, hq⟩
    · exact fun token hToken claims hParse hType _ => hTimely.fresh token hToken claims hParse hType
  refine ⟨served_authentic hJq hAuthenticQ hServed hPrivate, fun claims t hAuth hSays => ?_⟩
  obtain ⟨token, hMem, hParse⟩ := hAuth.presented
  have hIssued := hTimelyQ.presented i (List.ne_nil_of_mem hAuth.read) token hMem
    (by rw [hParse]; rfl)
  have hEnds := hRevoked.ends token hIssued claims hParse hAuth.access hSays
  have hValid := hAuth.valid.1
  omega

end Revocation

/-! An admin and a user of one installation. -/

def staff : List User :=
  [⟨1, "ada@dyadia.local", "ada-hash", "Ada", none, "Moss", .admin, .active, 0, 0⟩,
    ⟨2, "uma@dyadia.local", "uma-hash", "Uma", none, "Kern", .normal, .active, 0, 0⟩]

def idText (id : UUID) : String :=
  if id = 1 then "00000000-0000-0000-0000-000000000001"
  else if id = 2 then "00000000-0000-0000-0000-000000000002"
  else String.ofList ('?' :: List.replicate id '?')

def idOf (text : String) : Except String UUID :=
  if text = "00000000-0000-0000-0000-000000000001" then .ok 1
  else if text = "00000000-0000-0000-0000-000000000002" then .ok 2
  else .ok (text.length - 1)

theorem idOf_idText (id : UUID) : idOf (idText id) = .ok id := by
  unfold idText
  split
  · next h => subst h; decide
  · split
    · next h => subst h; decide
    · have hne : ∀ s : String, s.toList.head? ≠ some '?' →
          String.ofList ('?' :: List.replicate id '?') ≠ s := by
        rintro s hs rfl
        simp at hs
      rw [idOf, if_neg (hne _ (by decide)), if_neg (hne _ (by decide)), String.length_ofList]
      simp

/-- The claims of a token of the first second. -/
def staffClaims (u : User) (tokenType : TokenType) : JWTClaims where
  sub := idText u.id
  iss := "dyadia"
  aud := "dyadia-client"
  exp := if tokenType = .access then 900 else 604800
  iat := 0
  nbf := 0
  jti := idText u.id ++ "-0"
  email := u.email
  role := userRoleToProto u.role
  firstName := u.firstName
  middleName := u.middleName
  lastName := u.lastName
  status := .active
  tokenType := tokenType

def staffTokens : List (JWTClaims × String) :=
  staff.flatMap fun u => [(staffClaims u .access, u.firstName ++ ".access"),
    (staffClaims u .refresh, u.firstName ++ ".refresh")]

/-- The signature of the claims of a table, and the parsing of its tokens. -/
def signFrom (tokens : List (JWTClaims × String)) (claims : JWTClaims) : Except String String :=
  match tokens.find? fun p => p.1 = claims with
  | some p => .ok p.2
  | none => .error "unsupported claims"

def parseFrom (tokens : List (JWTClaims × String)) (token : String) : Except String JWTClaims :=
  match tokens.find? fun p => p.2 = token with
  | some p => .ok p.1
  | none => .error "token is malformed"

theorem parseFrom_signFrom {tokens : List (JWTClaims × String)}
    (hAll : ∀ p ∈ tokens, parseFrom tokens p.2 = .ok p.1) (claims : JWTClaims) (token : String)
    (h : signFrom tokens claims = .ok token) : parseFrom tokens token = .ok claims := by
  unfold signFrom at h
  split at h
  · next p hp =>
    cases h
    have hClaims : p.1 = claims := by simpa using List.find?_some hp
    rw [← hClaims]
    exact hAll p (List.mem_of_find?_eq_some hp)
  · cases h

/-- An environment that signs the claims of a table. -/
def tableEnv (tokens : List (JWTClaims × String))
    (hAll : ∀ p ∈ tokens, parseFrom tokens p.2 = .ok p.1) : Env where
  lower := id
  uuidText := idText
  scanUUID := idOf
  compareHashAndPassword hash password := hash = password ++ "-hash"
  signedString := signFrom tokens
  parseWithClaims := parseFrom tokens
  leeway := 5 * second
  accessTokenDuration := 900 * second
  refreshTokenDuration := 604800 * second
  scan_text := idOf_idText
  parse_signed := parseFrom_signFrom hAll

theorem parseFrom_staffTokens : ∀ p ∈ staffTokens, parseFrom staffTokens p.2 = .ok p.1 := by
  decide +kernel

def staffEnv : Env := tableEnv staffTokens parseFrom_staffTokens

def staffStore : Store := ⟨.ofList staff, 0, []⟩

/-- Both log in; the admin disables the user's account, and the user goes on, and asks for another
password. -/
def staffRequest : Nat → Request
  | 0 => ⟨"", .login "uma@dyadia.local" "uma"⟩
  | 1 => ⟨"", .login "ada@dyadia.local" "ada"⟩
  | 2 => ⟨"Bearer Ada.access", .updateUserStatus (idText 2) .disabled⟩
  | 3 => ⟨"Bearer Uma.access", .rest⟩
  | _ => ⟨"Bearer Uma.access", .updateUserPassword (idText 2) (some "uma") "umi"⟩

/-- Two logins at once, and a second later the update of the user's status. -/
def disabling : List (Nat × Choice) :=
  List.replicate 5 (0, ⟨0, none, 0, ""⟩) ++ List.replicate 5 (1, ⟨0, none, 0, ""⟩) ++
    List.replicate 2 (2, ⟨1000000000, none, 0, ""⟩)

/-- The requests after the steps, when all of them are enabled. -/
def staffAfter (as : List (Nat × Choice)) : Requests :=
  ((requests staffEnv).run (.start staffEnv staffStore staffRequest) as).getD
    (.start staffEnv staffStore staffRequest)

theorem served_before_expiry_staff :
    (∃ claims t, AuthenticatedAt staffEnv (staffRequest 3)
      ((staffAfter (disabling ++ [(3, ⟨5, none, 0, ""⟩)])).hist 3) claims t) ∧
      ∀ claims t, AuthenticatedAt staffEnv (staffRequest 3)
        ((staffAfter (disabling ++ [(3, ⟨5, none, 0, ""⟩)])).hist 3) claims t →
        claims.says staffEnv 2 .normal → t < (staffAfter disabling).store.now +
          staffEnv.accessTokenDuration + staffEnv.leeway := by
  have hBefore : (requests staffEnv).Runs (Unforged staffEnv staffRequest)
      (.start staffEnv staffStore staffRequest) disabling (staffAfter disabling) :=
    Machine.Runs.of_restrict rfl
  have hAfter : (requests staffEnv).Runs (fun p a => Unforged staffEnv staffRequest p a ∧
      standing p.store.users 2 ≠ some (.normal, .active)) (staffAfter disabling)
      [(3, ⟨5, none, 0, ""⟩)] (staffAfter (disabling ++ [(3, ⟨5, none, 0, ""⟩)])) :=
    Machine.Runs.of_restrict rfl
  refine served_before_expiry rfl hBefore (fun j hj e he _ => ?_) hAfter (.inr ⟨_, rfl⟩) rfl
  rcases j with _ | _ | _ | j
  · exact hj rfl
  · exact hj rfl
  · exact hj rfl
  · exact absurd (show e ∈ [] from he) List.not_mem_nil

end Richter.Auth
