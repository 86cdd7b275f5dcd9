import Richter.Auth.Db
import Richter.Members.Authz

/-! Tokens (`internal/secure`), and the checks of `internal/authz` on the claims of a token. -/

namespace Richter.Auth

open Lib

inductive TokenType
  | unspecified
  | access
  | refresh
  deriving DecidableEq, Repr

/-- The claims of a token, with times in seconds. -/
structure JWTClaims where
  sub : String
  iss : String
  aud : String
  exp : Int
  iat : Int
  nbf : Int
  jti : String
  email : String
  role : Members.UserRole
  firstName : String
  middleName : Option String
  lastName : String
  status : Members.UserStatus
  tokenType : TokenType
  deriving DecidableEq, Repr

/-- What the services use from other libraries, and their configuration.  Durations and clock
readings are in nanoseconds. -/
structure Env where
  /-- what `citext` compares of an email -/
  lower : String → String
  /-- `pgtype.UUID.String` and `pgtype.UUID.Scan` -/
  uuidText : UUID → String
  scanUUID : String → Except String UUID
  /-- `bcrypt.CompareHashAndPassword` finds no difference. -/
  compareHashAndPassword : String → String → Bool
  /-- `Token.SignedString`, and `ParseWithClaims` up to the validation of the times -/
  signedString : JWTClaims → Except String String
  parseWithClaims : String → Except String JWTClaims
  leeway : Int
  accessTokenDuration : Int
  refreshTokenDuration : Int
  scan_text : ∀ id, scanUUID (uuidText id) = .ok id
  parse_signed : ∀ claims token, signedString claims = .ok token →
    parseWithClaims token = .ok claims

/-- What a handler does outside of itself: a statement on a connection of its own, a reading of the
clock, the signature of a token, and the hash of a password. -/
inductive Op
  | conn (q : Query)
  | now
  | sign (claims : JWTClaims)
  | generateFromPassword (password : String)
  deriving DecidableEq, Repr

abbrev Op.Resp : Op → Type
  | .conn q => Except DbError q.Result
  | .now => Int
  | .sign _ | .generateFromPassword _ => Except String String

/-- The database, the time, and the tokens that have been signed. -/
structure Store where
  users : Users
  now : Int
  issued : List String

/-- What the environment chooses for an operation: how long it takes to come, whether it fails, and
the identifier or the hash that it makes up. -/
structure Choice where
  elapsed : Nat
  failure : Option DbError
  fresh : UUID
  hash : String
  deriving DecidableEq, Repr

/-- An operation, at the time to which the environment lets the clock run. -/
def exec (E : Env) (w : Choice) (o : Op) (s : Store) : Option (o.Resp × Store) :=
  let now := s.now + w.elapsed
  match o with
  | .now => some (now, { s with now := now })
  | .conn q =>
    match w.failure with
    | some e => some (.error e, { s with now := now })
    | none =>
      match q.exec E.lower w.fresh now s.users with
      | .error e => some (.error e, { s with now := now })
      | .ok (a, users) => some (.ok a, { s with users := users, now := now })
  | .sign claims =>
    match E.signedString claims with
    | .error text => some (.error text, { s with now := now })
    | .ok token => some (.ok token, { s with now := now, issued := token :: s.issued })
  | .generateFromPassword password =>
    match w.failure with
    | some e => some (.error e.text, { s with now := now })
    | none =>
      if E.compareHashAndPassword w.hash password then some (.ok w.hash, { s with now := now })
      else none

section Exec

variable {E : Env} {w : Choice} {s t : Store}

/-- What an operation can do: let time pass, change the table by a statement that is answered, or
issue a token. -/
theorem exec_cases {o : Op} {r : o.Resp} (h : exec E w o s = some (r, t)) :
    s.now ≤ t.now ∧
      ((t.users = s.users ∧ t.issued = s.issued) ∨
        (∃ (q : Query) (a : q.Result), o = .conn q ∧
          q.exec E.lower w.fresh t.now s.users = .ok (a, t.users) ∧ t.issued = s.issued) ∨
        ∃ claims token, o = .sign claims ∧ E.signedString claims = .ok token ∧
          t.users = s.users ∧ t.issued = token :: s.issued) := by
  have hNow : s.now ≤ s.now + w.elapsed := by omega
  cases o with
  | now =>
    cases h
    exact ⟨hNow, .inl ⟨rfl, rfl⟩⟩
  | conn q =>
    simp only [exec] at h
    split at h
    · cases h
      exact ⟨hNow, .inl ⟨rfl, rfl⟩⟩
    · split at h
      · cases h
        exact ⟨hNow, .inl ⟨rfl, rfl⟩⟩
      · next a users hExec =>
        cases h
        exact ⟨hNow, .inr (.inl ⟨q, a, rfl, hExec, rfl⟩)⟩
  | sign claims =>
    simp only [exec] at h
    split at h
    · cases h
      exact ⟨hNow, .inl ⟨rfl, rfl⟩⟩
    · next token hSigned =>
      cases h
      exact ⟨hNow, .inr (.inr ⟨claims, token, rfl, hSigned, rfl, rfl⟩)⟩
  | generateFromPassword password =>
    simp only [exec] at h
    split at h
    · cases h
      exact ⟨hNow, .inl ⟨rfl, rfl⟩⟩
    · split at h <;> cases h
      exact ⟨hNow, .inl ⟨rfl, rfl⟩⟩

theorem exec_conn_ok {q : Query} {a : q.Result} (h : exec E w (.conn q) s = some (.ok a, t)) :
    q.exec E.lower w.fresh t.now s.users = .ok (a, t.users) := by
  simp only [exec] at h
  split at h
  · cases h
  · split at h
    · cases h
    · next hExec =>
      cases h
      exact hExec

theorem exec_now {r : Int} (h : exec E w .now s = some (r, t)) :
    r = t.now ∧ t.users = s.users ∧ t.issued = s.issued := by
  cases h
  exact ⟨rfl, rfl, rfl⟩

end Exec

abbrev Handler := ExceptT Error (Prog Op Op.Resp)

def perform (o : Op) : Handler o.Resp := ExceptT.lift (Prog.perform o)

/-- `db.WithConnection` around one statement. -/
def withConnection (q : Query) : Handler (Except DbError q.Result) := perform (.conn q)

/-- A user as the services return it (`richterv1.User`). -/
structure UserMessage where
  id : String
  email : String
  firstName : String
  middleName : Option String
  lastName : String
  role : Members.UserRole
  status : Members.UserStatus
  createdAt : Int
  updatedAt : Int
  deriving DecidableEq, Repr

/-- `UserRoleToProto`. -/
def userRoleToProto : UserRole → Members.UserRole
  | .normal => .normal
  | .admin => .admin

/-- `UserStatusToProto`. -/
def userStatusToProto : UserStatus → Members.UserStatus
  | .pending => .pending
  | .active => .active
  | .disabled => .disabled

@[simp] theorem userRoleToProto_eq_admin {role : UserRole} :
    userRoleToProto role = .admin ↔ role = .admin := by
  cases role <;> simp [userRoleToProto]

@[simp] theorem userStatusToProto_eq_active {status : UserStatus} :
    userStatusToProto status = .active ↔ status = .active := by
  cases status <;> simp [userStatusToProto]

variable (E : Env)

/-- `UserToProto`. -/
def userToProto (user : User) : UserMessage where
  id := E.uuidText user.id
  email := user.email
  firstName := user.firstName
  middleName := user.middleName
  lastName := user.lastName
  role := userRoleToProto user.role
  status := userStatusToProto user.status
  createdAt := user.createdAt
  updatedAt := user.updatedAt

/-- `svc.ParseUUID`. -/
def parseUUID (value : String) : Handler UUID :=
  match E.scanUUID value with
  | .ok id => pure id
  | .error text => throw (.connect .invalidArgument ("invalid uuid: " ++ text))

/-- The nanoseconds of a second. -/
def second : Int := 1000000000

/-- `Time.Unix`. -/
def unix (t : Int) : Int := t / second

def issuer : String := "dyadia"

def audience : String := "dyadia-client"

/-- The claims that `GenerateToken` signs at the time `now`. -/
def claimsFor (user : UserMessage) (duration : Int) (tokenType : TokenType) (now : Int) :
    JWTClaims where
  sub := user.id
  iss := issuer
  aud := audience
  iat := unix now
  exp := unix (now + duration)
  nbf := unix now
  jti := user.id ++ "-" ++ toString now
  email := user.email
  role := user.role
  firstName := user.firstName
  middleName := user.middleName
  lastName := user.lastName
  status := user.status
  tokenType := tokenType

/-- `GenerateToken`, whose error its callers return as an internal one. -/
def generateToken (user : UserMessage) (duration : Int) (tokenType : TokenType) :
    Handler String := do
  let now ← perform .now
  match ← perform (.sign (claimsFor user duration tokenType now)) with
  | .ok token => return token
  | .error text => throw (.connect .internal ("failed to sign token: " ++ text))

/-- The times of the claims allow them at `now`. -/
def JWTClaims.validAt (claims : JWTClaims) (now : Int) : Prop :=
  now < claims.exp * second + E.leeway ∧ claims.nbf * second - E.leeway ≤ now

instance (claims : JWTClaims) (now : Int) : Decidable (claims.validAt E now) :=
  inferInstanceAs (Decidable (_ ∧ _))

/-- `ValidateToken`, whose error its callers return as an unauthenticated one.  The issuer and the
audience are not looked at. -/
def validateToken (token : String) : Handler JWTClaims :=
  match E.parseWithClaims token with
  | .error text => throw (.connect .unauthenticated ("failed to parse token: " ++ text))
  | .ok claims => do
    let now ← perform .now
    if claims.validAt E now then return claims
    else
      throw (.connect .unauthenticated "failed to parse token: token has invalid claims")

/-- `extractBearer`. -/
def extractBearer (authorization : String) : Option String :=
  if "Bearer ".toList <+: authorization.toList then
    some (String.ofList (authorization.toList.drop "Bearer ".length))
  else none

/-- `injectClaims`. -/
def injectClaims (authorization : String) : Handler (Option JWTClaims) :=
  match extractBearer authorization with
  | none => pure none
  | some token => do
    let claims ← validateToken E token
    if claims.tokenType ≠ .access then throw (.connect .unauthenticated "invalid token type")
    return some claims

/-- `RequireAuthenticated`. -/
def requireAuthenticated : Option JWTClaims → Handler JWTClaims
  | none => throw (.connect .unauthenticated "unauthenticated")
  | some claims =>
      if claims.status = .active then pure claims
      else throw (.connect .permissionDenied "account is not active")

/-- `RequireUserRole`. -/
def requireUserRole (ctx : Option JWTClaims) (roles : List Members.UserRole) :
    Handler JWTClaims := do
  let claims ← requireAuthenticated ctx
  if claims.role ∈ roles then return claims
  else throw (.connect .permissionDenied "permission denied")

/-- `RequireSelf`. -/
def requireSelf (ctx : Option JWTClaims) (userID : String) : Handler JWTClaims := do
  let claims ← requireAuthenticated ctx
  if claims.sub = userID ∨ claims.role = .admin then return claims
  else throw (.connect .permissionDenied "permission denied")

/-- bcrypt's input limit. -/
def maxPasswordBytes : Nat := 72

/-- `HashPassword`, whose error its callers return as an internal one. -/
def hashPassword (password : String) : Handler String :=
  if maxPasswordBytes < password.utf8ByteSize then
    throw (.connect .internal "password must not exceed 72 characters")
  else do
    match ← perform (.generateFromPassword password) with
    | .ok hash => return hash
    | .error text => throw (.connect .internal ("hash password: " ++ text))

/-- `VerifyPassword`. -/
def verifyPassword (password passwordHash : String) : Bool :=
  password.utf8ByteSize ≤ maxPasswordBytes && E.compareHashAndPassword passwordHash password

end Richter.Auth
