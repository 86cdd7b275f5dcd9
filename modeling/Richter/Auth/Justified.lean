import Richter.Auth.Handlers

/-! What a request makes sure of, by its own events, before each thing that it does. -/

namespace Richter.Auth

open Lib

abbrev History := List (Prog.Event Op Op.Resp)

/-- The call asks for no authentication. -/
def Call.isPublic : Call → Bool
  | .login .. | .refreshToken .. | .logout .. | .registerUser .. => true
  | _ => false

/-- The statement is within reach of a call that asks for no authentication. -/
def Query.isOpen : Query → Bool
  | .createUser .. => true
  | q => q.isRead

theorem Query.isOpen_eq_false {q : Query} (h : q.setsStanding = true) : q.isOpen = false := by
  cases q <;> first | rfl | cases h

variable (E : Env)

/-- The request has come with an access token of these claims, of an active account, which was
valid at the time `t`. -/
structure AuthenticatedAt (r : Request) (h : History) (claims : JWTClaims) (t : Int) : Prop where
  token : ∃ token, extractBearer r.authorization = some token ∧
    E.parseWithClaims token = .ok claims
  read : ⟨.now, t⟩ ∈ h
  valid : claims.validAt E t
  access : claims.tokenType = .access
  active : claims.status = .active

/-- The request has shown that it may have tokens for the user. -/
inductive Credential (r : Request) (h : History) (user : User) : Prop
  | password (email password : String) :
      r.call = .login email password → ⟨.conn (.getUserByEmail email), .ok user⟩ ∈ h →
      verifyPassword E password user.passwordHash = true → Credential r h user
  | refresh (token : String) (claims : JWTClaims) (id : UUID) (t : Int) :
      r.call = .refreshToken token → E.parseWithClaims token = .ok claims →
      claims.tokenType = .refresh → ⟨.now, t⟩ ∈ h → claims.validAt E t →
      E.scanUUID claims.sub = .ok id → ⟨.conn (.getUserByID id), .ok user⟩ ∈ h →
      Credential r h user

/-- The claims are those of an active account for which the request has a credential, and of the
time of a clock reading. -/
structure Issues (r : Request) (h : History) (claims : JWTClaims) (user : User)
    (tokenType : TokenType) (t : Int) : Prop where
  credential : Credential E r h user
  active : user.status = .active
  read : ⟨.now, t⟩ ∈ h
  claims_eq : claims = claimsFor (userToProto E user) (E.duration tokenType) tokenType t

/-- The request has given the current password of the user that its claims name. -/
def OwnPassword (r : Request) (h : History) (claims : JWTClaims) (id : UUID) : Prop :=
  ∃ oldPassword password user, r.call = .updateUserPassword claims.sub (some oldPassword) password ∧
    E.scanUUID claims.sub = .ok id ∧ ⟨.conn (.getUserByID id), .ok user⟩ ∈ h ∧
    verifyPassword E oldPassword user.passwordHash = true

/-- The request is one to set the password of the user. -/
def AsksPassword (r : Request) (id : UUID) : Prop :=
  ∃ idText oldPassword password, r.call = .updateUserPassword idText oldPassword password ∧
    E.scanUUID idText = .ok id

/-- What lets a request perform a statement. -/
def Permitted (r : Request) (h : History) (q : Query) : Prop :=
  (r.call.isPublic = true ∧ q.isOpen = true) ∨
    ∃ claims t, AuthenticatedAt E r h claims t ∧
      (∀ id hash, q = .updateUserPassword id hash → AsksPassword E r id) ∧
      (claims.role = .admin ∨ (q.setsStanding = false ∧
        ∀ id hash, q = .updateUserPassword id hash → OwnPassword E r h claims id))

/-- What a request has made sure of before an operation. -/
def Justified (r : Request) (h : History) : Op → Prop
  | .conn q => Permitted E r h q
  | .sign claims => ∃ user tokenType t, Issues E r h claims user tokenType t
  | .now | .generateFromPassword _ => True

/-- A request, or a part of it, whose operations are justified by the history they add to. -/
abbrev Justifies {α : Type} (r : Request) (x : Handler α) (ok : α → History → Prop)
    (h : History) : Prop :=
  Prog.Meets (fun o h r h' => h' = h ++ [⟨o, r⟩]) (Justified E r) x ok (fun _ => True) h

section Parts

variable {E} {r : Request} {h h' : History} {α β : Type}

theorem AuthenticatedAt.mono {claims : JWTClaims} {t : Int} (hAuth : AuthenticatedAt E r h claims t)
    (hSub : h ⊆ h') : AuthenticatedAt E r h' claims t :=
  { hAuth with read := hSub hAuth.read }

theorem Credential.mono {user : User} (hCred : Credential E r h user) (hSub : h ⊆ h') :
    Credential E r h' user := by
  cases hCred with
  | password email password hCall hRead hVerify =>
    exact .password email password hCall (hSub hRead) hVerify
  | refresh token claims id t hCall hParse hType hTime hValid hScan hRead =>
    exact .refresh token claims id t hCall hParse hType (hSub hTime) hValid hScan (hSub hRead)

theorem justifies_perform_bind (o : Op) {f : o.Resp → Handler β} {ok : β → History → Prop} :
    Justifies E r (perform o >>= f) ok h ↔
      Justified E r h o ∧ ∀ a, Justifies E r (f a) ok (h ++ [⟨o, a⟩]) := by
  refine (Prog.meets_perform_bind o).trans (and_congr_right fun _ => ?_)
  simp

theorem justifies_statement {q : Query} (hq : Permitted E r h q) :
    Justifies E r (statement q) (fun a h' => h' = h ++ [⟨.conn q, .ok a⟩]) h := by
  refine (justifies_perform_bind _).mpr ⟨hq, fun a => ?_⟩
  cases a with
  | ok a => rfl
  | error e => trivial

theorem justifies_generateToken {user : User} {tokenType : TokenType}
    (hCred : Credential E r h user) (hActive : user.status = .active) :
    Justifies E r (generateToken (userToProto E user) (E.duration tokenType) tokenType)
      (fun _ h' => h ⊆ h') h := by
  refine (justifies_perform_bind _).mpr ⟨trivial, fun now => ?_⟩
  refine (justifies_perform_bind _).mpr ⟨⟨user, tokenType, now, ?_⟩, fun signed => ?_⟩
  · exact ⟨hCred.mono (List.subset_append_left ..), hActive, by simp, rfl⟩
  · cases signed with
    | ok token => exact fun e he => by simp [he]
    | error text => trivial

theorem justifies_issueTokens {user : User} {named : Option UserMessage}
    (hCred : Credential E r h user) (hActive : user.status = .active) :
    Justifies E r (issueTokens E user named) (fun _ _ => True) h := by
  refine (justifies_generateToken hCred hActive).bind fun _ h₁ hSub => ?_
  exact (justifies_generateToken (hCred.mono hSub) hActive).bind fun _ _ _ => trivial

theorem justifies_validateToken {token : String} :
    Justifies E r (validateToken E token) (fun claims h' => h ⊆ h' ∧
      E.parseWithClaims token = .ok claims ∧ ∃ t, ⟨.now, t⟩ ∈ h' ∧ claims.validAt E t) h := by
  unfold validateToken
  split
  · trivial
  · next claims hParse =>
    refine (justifies_perform_bind _).mpr ⟨trivial, fun now => ?_⟩
    split
    · next hValid => exact ⟨List.subset_append_left .., hParse, now, by simp, hValid⟩
    · trivial

/-- The claims that a handler finds in its context, if they are of an active account, are those of
the request's token. -/
def InContext (E : Env) (r : Request) (ctx : Option JWTClaims) (h : History) : Prop :=
  ∀ claims, ctx = some claims → claims.status = .active →
    ∃ t, AuthenticatedAt E r h claims t

theorem justifies_injectClaims :
    Justifies E r (injectClaims E r.authorization) (fun ctx h' => InContext E r ctx h') h := by
  unfold injectClaims
  split
  · intro claims hNone
    cases hNone
  · next token hBearer =>
    refine justifies_validateToken.bind ?_
    rintro claims h' ⟨_, hParse, t, hRead, hValid⟩
    split
    · trivial
    · next hType =>
      intro claims' hClaims hActive
      obtain rfl := Option.some.inj hClaims
      exact ⟨t, ⟨token, hBearer, hParse⟩, hRead, hValid, by simpa using hType, hActive⟩

theorem justifies_requireAuthenticated {ctx : Option JWTClaims} (hCtx : InContext E r ctx h) :
    Justifies E r (requireAuthenticated ctx) (fun claims h' => h' = h ∧
      ∃ t, AuthenticatedAt E r h claims t) h := by
  cases ctx with
  | none => trivial
  | some claims =>
    by_cases hActive : claims.status = .active
    · simp only [requireAuthenticated, hActive, if_true]
      exact ⟨rfl, hCtx claims rfl hActive⟩
    · simp only [requireAuthenticated, hActive, if_false]
      trivial

theorem justifies_requireAdmin {ctx : Option JWTClaims} (hCtx : InContext E r ctx h) :
    Justifies E r (requireUserRole ctx [.admin]) (fun _ h' => h' = h ∧
      ∃ claims t, AuthenticatedAt E r h claims t ∧ claims.role = .admin) h := by
  refine (justifies_requireAuthenticated hCtx).bind ?_
  rintro claims _ ⟨rfl, t, hAuth⟩
  split
  · next hRole => exact ⟨rfl, claims, t, hAuth, by simpa using hRole⟩
  · trivial

theorem justifies_requireSelf {ctx : Option JWTClaims} {userID : String}
    (hCtx : InContext E r ctx h) :
    Justifies E r (requireSelf ctx userID) (fun claims h' => h' = h ∧
      (∃ t, AuthenticatedAt E r h claims t) ∧ (claims.sub = userID ∨ claims.role = .admin)) h := by
  refine (justifies_requireAuthenticated hCtx).bind ?_
  rintro claims _ ⟨rfl, hAuth⟩
  split
  · next hSelf => exact ⟨rfl, hAuth, hSelf⟩
  · trivial

theorem justifies_parseUUID {value : String} :
    Justifies E r (parseUUID E value) (fun id h' => h' = h ∧ E.scanUUID value = .ok id) h := by
  unfold parseUUID
  split
  · next hScan => exact ⟨rfl, hScan⟩
  · trivial

theorem justifies_userRoleToSQL {role : Members.UserRole} :
    Justifies E r (userRoleToSQL role) (fun _ h' => h' = h) h := by
  cases role <;> first | rfl | trivial

theorem justifies_userStatusToSQL {status : Members.UserStatus} :
    Justifies E r (userStatusToSQL status) (fun _ h' => h' = h) h := by
  cases status <;> first | rfl | trivial

theorem justifies_hashPassword {password : String} :
    Justifies E r (hashPassword password) (fun _ h' => h ⊆ h') h := by
  unfold hashPassword
  split
  · trivial
  · refine (justifies_perform_bind _).mpr ⟨trivial, fun hashed => ?_⟩
    cases hashed with
    | ok hash => exact List.subset_append_left ..
    | error text => trivial

/-- The last statement of a call, by a caller who has been authenticated. -/
theorem justifies_lastStatement {q : Query} {claims : JWTClaims} {t : Int} {f : q.Result → β}
    (hAuth : AuthenticatedAt E r h claims t)
    (hAsks : ∀ id hash, q = .updateUserPassword id hash → AsksPassword E r id)
    (hq : claims.role = .admin ∨ (q.setsStanding = false ∧
      ∀ id hash, q = .updateUserPassword id hash → OwnPassword E r h claims id)) :
    Justifies E r (do return f (← statement q))
      (fun _ h' => ∃ claims t, AuthenticatedAt E r h' claims t) h := by
  refine (justifies_statement (.inr ⟨claims, t, hAuth, hAsks, hq⟩)).bind ?_
  rintro a _ rfl
  exact ⟨claims, t, hAuth.mono (List.subset_append_left ..)⟩

theorem justifies_oneOrNone {found : Except DbError User} {ok : List User → History → Prop}
    (hOk : ∀ users, ok users h) : Justifies E r (oneOrNone found) ok h := by
  rcases found with (_ | _ | _) | _
  · exact hOk _
  · trivial
  · trivial
  · exact hOk _

end Parts

section Calls

variable {E} {authorization : String} {call : Call} {h : History} {ctx : Option JWTClaims}
  {α β : Type}

/-- What a call has made sure of when it answers. -/
abbrev Answered (E : Env) (r : Request) (h : History) : Prop :=
  r.call.isPublic = true ∨ ∃ claims t, AuthenticatedAt E r h claims t

theorem login_justified {r : Request} {email password : String}
    (hCall : r.call = .login email password) :
    Justifies E r (login E email password) (fun _ _ => True) h := by
  have hPublic : r.call.isPublic = true := by rw [hCall]; rfl
  refine (justifies_perform_bind _).mpr ⟨.inl ⟨hPublic, rfl⟩, fun found => ?_⟩
  rcases found with (_ | _ | _) | user
  · trivial
  · trivial
  · trivial
  · simp only
    split
    · trivial
    · next hActive =>
      split
      · next hVerify =>
        exact justifies_issueTokens (.password email password hCall (by simp) hVerify)
          (not_not.mp hActive)
      · trivial

theorem refreshClaims_justified {r : Request} {token : String} :
    Justifies E r (refreshClaims E token) (fun claims h' => E.parseWithClaims token = .ok claims ∧
      claims.tokenType = .refresh ∧ ∃ t, ⟨.now, t⟩ ∈ h' ∧ claims.validAt E t) h := by
  refine justifies_validateToken.bind ?_
  rintro claims h' ⟨_, hParse, hRead⟩
  split
  · next hType => exact ⟨hParse, hType, hRead⟩
  · trivial

theorem refreshToken_justified {r : Request} {token : String}
    (hCall : r.call = .refreshToken token) :
    Justifies E r (refreshToken E token) (fun _ _ => True) h := by
  have hPublic : r.call.isPublic = true := by rw [hCall]; rfl
  refine refreshClaims_justified.bind ?_
  rintro claims h₁ ⟨hParse, hType, t, hRead, hValid⟩
  refine justifies_parseUUID.bind ?_
  rintro id _ ⟨rfl, hScan⟩
  refine (justifies_statement (.inl ⟨hPublic, rfl⟩)).bind ?_
  rintro user _ rfl
  split
  · trivial
  · next hActive =>
    exact justifies_issueTokens (.refresh token claims id t hCall hParse hType (by simp [hRead])
      hValid hScan (by simp)) (not_not.mp hActive)

/-- A call that only admins may make, behind its check. -/
theorem admin_justified {r : Request} {x : Handler α} (hCtx : InContext E r ctx h)
    (hx : ∀ claims t, AuthenticatedAt E r h claims t → claims.role = .admin →
      Justifies E r x (fun _ h' => ∃ claims t, AuthenticatedAt E r h' claims t) h) :
    Justifies E r (do
      let _ ← requireUserRole ctx [.admin]
      x) (fun _ h' => ∃ claims t, AuthenticatedAt E r h' claims t) h := by
  refine (justifies_requireAdmin hCtx).bind ?_
  rintro _ _ ⟨rfl, claims, t, hAuth, hRole⟩
  exact hx claims t hAuth hRole

theorem createUser_justified {r : Request} {req : NewUserRequest} (hCtx : InContext E r ctx h) :
    Justifies E r (createUser E ctx req)
      (fun _ h' => ∃ claims t, AuthenticatedAt E r h' claims t) h := by
  refine admin_justified hCtx fun claims t hAuth hRole => ?_
  refine justifies_hashPassword.bind fun _ h' hSub => ?_
  exact justifies_lastStatement (hAuth.mono hSub) (by simp) (.inl hRole)

theorem createUserWithRoleAndStatus_justified {r : Request} {req : NewUserRequest}
    {role : Members.UserRole} {status : Members.UserStatus} (hCtx : InContext E r ctx h) :
    Justifies E r (createUserWithRoleAndStatus E ctx req role status)
      (fun _ h' => ∃ claims t, AuthenticatedAt E r h' claims t) h := by
  refine admin_justified hCtx fun claims t hAuth hRole => ?_
  refine justifies_userRoleToSQL.bind ?_
  rintro _ _ rfl
  refine justifies_userStatusToSQL.bind ?_
  rintro _ _ rfl
  refine justifies_hashPassword.bind fun _ h' hSub => ?_
  exact justifies_lastStatement (hAuth.mono hSub) (by simp) (.inl hRole)

theorem listUsers_justified {r : Request} {query : String} {limit offset : Nat}
    (hCtx : InContext E r ctx h) :
    Justifies E r (listUsers E ctx query limit offset)
      (fun _ h' => ∃ claims t, AuthenticatedAt E r h' claims t) h := by
  refine admin_justified hCtx fun claims t hAuth hRole => ?_
  have hPermitted : ∀ q : Query, q.isRead = true → Permitted E r h q := by
    intro q hRead
    refine .inr ⟨claims, t, hAuth, ?_, .inl hRole⟩
    rintro id hash rfl
    cases hRead
  have hList : ∀ (h' : History) (users : List User), h ⊆ h' →
      Justifies E r (pure (users.map (userToProto E)))
        (fun _ h' => ∃ claims t, AuthenticatedAt E r h' claims t) h' :=
    fun h' users hSub => ⟨claims, t, hAuth.mono hSub⟩
  dsimp only
  split
  · split
    · refine (justifies_perform_bind _).mpr ⟨hPermitted _ rfl, fun found => ?_⟩
      exact (justifies_oneOrNone fun _ => List.subset_append_left ..).bind fun users h' =>
        hList h' users
    · split
      · refine (justifies_perform_bind _).mpr ⟨hPermitted _ rfl, fun found => ?_⟩
        exact (justifies_oneOrNone fun _ => List.subset_append_left ..).bind fun users h' =>
          hList h' users
      · exact hList h [] (List.Subset.refl _)
  · refine (justifies_statement (hPermitted _ rfl)).bind ?_
    rintro users _ rfl
    exact hList _ users (List.subset_append_left ..)

theorem updateUserPassword_justified {r : Request} {id : String} {oldPassword : Option String}
    {password : String} (hCall : r.call = .updateUserPassword id oldPassword password)
    (hCtx : InContext E r ctx h) :
    Justifies E r (updateUserPassword E ctx id oldPassword password)
      (fun _ h' => ∃ claims t, AuthenticatedAt E r h' claims t) h := by
  refine (justifies_requireSelf hCtx).bind ?_
  rintro claims h ⟨rfl, ⟨t, hAuth⟩, hSelf⟩
  refine justifies_parseUUID.bind ?_
  rintro uuid h ⟨rfl, hScan⟩
  have hRest : ∀ h₁ : History, h ⊆ h₁ → (claims.role = .admin ∨ OwnPassword E r h₁ claims uuid) →
      Justifies E r (do
        let passwordHash ← hashPassword password
        return userToProto E (← statement (.updateUserPassword uuid passwordHash)))
        (fun _ h' => ∃ claims t, AuthenticatedAt E r h' claims t) h₁ := by
    intro h₁ hSub₁ hOld
    refine justifies_hashPassword.bind fun hash h₂ hSub₂ => ?_
    have hAsks : AsksPassword E r uuid := ⟨id, oldPassword, password, hCall, hScan⟩
    refine justifies_lastStatement (hAuth.mono (List.Subset.trans hSub₁ hSub₂)) ?_
      (hOld.imp_right fun hOwn => ?_)
    · intro id' hash' hEq
      cases hEq
      exact hAsks
    refine ⟨rfl, fun id' hash' hEq => ?_⟩
    cases hEq
    obtain ⟨oldPassword, password, user, hCall, hScan, hRead, hVerify⟩ := hOwn
    exact ⟨oldPassword, password, user, hCall, hScan, hSub₂ hRead, hVerify⟩
  dsimp only
  split
  · next hRole =>
    cases oldPassword with
    | none => trivial
    | some oldPassword =>
      have hPermitted : Permitted E r h (.getUserByID uuid) :=
        .inr ⟨claims, t, hAuth, by simp, .inr ⟨rfl, by simp⟩⟩
      refine (show Justifies E r _ (fun _ h' => h ⊆ h' ∧ OwnPassword E r h' claims uuid) h
        from ?_).bind fun _ h' hOld => hRest h' hOld.1 (.inr hOld.2)
      refine (justifies_statement hPermitted).bind ?_
      rintro current _ rfl
      split
      · next hVerify =>
        obtain rfl := hSelf.resolve_right hRole
        exact ⟨List.subset_append_left .., oldPassword, password, current, hCall, hScan,
          by simp, hVerify⟩
      · trivial
  · next hRole => exact hRest h (List.Subset.refl _) (.inl (not_not.mp hRole))

/-- A handler behind the interceptor, with a caller to be authenticated. -/
theorem call_justified {r : Request} (hCtx : InContext E r ctx h) :
    Justifies E r (r.call.handler E ctx) (fun _ h' => Answered E r h') h := by
  obtain ⟨authorization, call⟩ := r
  -- a call that has been authenticated answers no matter what it makes of its result
  have hAnswer : ∀ {α : Type} {x : Handler α} {f : α → Response},
      Justifies E ⟨authorization, call⟩ x
        (fun _ h' => ∃ claims t, AuthenticatedAt E ⟨authorization, call⟩ h' claims t) h →
      Justifies E ⟨authorization, call⟩ (do return f (← x))
        (fun _ h' => Answered E ⟨authorization, call⟩ h') h :=
    fun hx => hx.bind fun _ _ hAuth => Or.inr hAuth
  cases call with
  | login email password => exact (login_justified rfl).bind fun _ _ _ => Or.inl rfl
  | refreshToken token => exact (refreshToken_justified rfl).bind fun _ _ _ => Or.inl rfl
  | logout token =>
    refine (show Justifies E _ _ (fun _ _ => True) h from ?_).bind fun _ _ _ => Or.inl rfl
    exact refreshClaims_justified.bind fun _ _ _ => trivial
  | registerUser req =>
    refine (show Justifies E _ _ (fun _ _ => True) h from ?_).bind fun _ _ _ => Or.inl rfl
    refine justifies_hashPassword.bind fun _ h' _ => ?_
    exact (justifies_statement (.inl ⟨rfl, rfl⟩)).bind fun _ _ _ => trivial
  | createUser req => exact hAnswer (createUser_justified hCtx)
  | createUserWithRoleAndStatus req role status =>
    exact hAnswer (createUserWithRoleAndStatus_justified hCtx)
  | getUserById id =>
    refine hAnswer ((justifies_requireSelf hCtx).bind ?_)
    rintro claims _ ⟨rfl, ⟨t, hAuth⟩, _⟩
    refine justifies_parseUUID.bind ?_
    rintro uuid _ ⟨rfl, _⟩
    exact justifies_lastStatement hAuth (by simp) (.inr ⟨rfl, by simp⟩)
  | getUserByEmail email =>
    refine hAnswer ((justifies_requireAuthenticated hCtx).bind ?_)
    rintro claims _ ⟨rfl, t, hAuth⟩
    exact justifies_lastStatement hAuth (by simp) (.inr ⟨rfl, by simp⟩)
  | listUsers query limit offset => exact hAnswer (listUsers_justified hCtx)
  | updateUserProfile id firstName middleName lastName =>
    refine hAnswer ((justifies_requireSelf hCtx).bind ?_)
    rintro claims _ ⟨rfl, ⟨t, hAuth⟩, _⟩
    refine justifies_parseUUID.bind ?_
    rintro uuid _ ⟨rfl, _⟩
    exact justifies_lastStatement hAuth (by simp) (.inr ⟨rfl, by simp⟩)
  | updateUserPassword id oldPassword password =>
    exact hAnswer (updateUserPassword_justified rfl hCtx)
  | updateUserRole id role =>
    refine hAnswer (admin_justified hCtx fun claims t hAuth hRole => ?_)
    refine justifies_parseUUID.bind ?_
    rintro uuid _ ⟨rfl, _⟩
    refine justifies_userRoleToSQL.bind ?_
    rintro _ _ rfl
    exact justifies_lastStatement hAuth (by simp) (.inl hRole)
  | updateUserStatus id status =>
    refine hAnswer (admin_justified hCtx fun claims t hAuth hRole => ?_)
    refine justifies_parseUUID.bind ?_
    rintro uuid _ ⟨rfl, _⟩
    refine justifies_userStatusToSQL.bind ?_
    rintro _ _ rfl
    exact justifies_lastStatement hAuth (by simp) (.inl hRole)
  | deleteUser id =>
    refine (show Justifies E _ _ (fun _ h' => ∃ claims t,
      AuthenticatedAt E ⟨authorization, .deleteUser id⟩ h' claims t) h from ?_).bind fun _ _ => .inr
    refine admin_justified hCtx fun claims t hAuth hRole => ?_
    refine justifies_parseUUID.bind ?_
    rintro uuid _ ⟨rfl, _⟩
    refine (justifies_statement (.inr ⟨claims, t, hAuth, by simp, .inl hRole⟩)).bind ?_
    rintro _ _ rfl
    split
    · trivial
    · exact ⟨claims, t, hAuth.mono (List.subset_append_left ..)⟩
  | rest =>
    refine hAnswer ((justifies_requireAuthenticated hCtx).mono ?_ fun _ => id)
    rintro claims _ ⟨rfl, t, hAuth⟩
    exact ⟨claims, t, hAuth⟩

/-- Everything that a request does is justified by what it has done before. -/
theorem serve_justified (r : Request) :
    Justifies E r (r.serve E) (fun _ h' => Answered E r h') h := by
  unfold Request.serve
  split
  · refine call_justified fun claims hNone => ?_
    cases hNone
  · exact justifies_injectClaims.bind fun ctx h' hCtx => call_justified hCtx

end Calls

end Richter.Auth
