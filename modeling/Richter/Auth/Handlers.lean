import Richter.Auth.Jwt

/-! The handlers of `internal/svc/users` and `internal/svc/auth`, and the requests that they
serve. -/

namespace Richter.Auth

open Lib

variable (E : Env)

/-- `UserRoleToSQL`. -/
def userRoleToSQL : Members.UserRole → Handler UserRole
  | .normal => pure .normal
  | .admin => pure .admin
  | .unspecified =>
      throw (.connect .invalidArgument "invalid user role: USER_ROLE_UNSPECIFIED")

/-- `UserStatusToSQL`. -/
def userStatusToSQL : Members.UserStatus → Handler UserStatus
  | .pending => pure .pending
  | .active => pure .active
  | .disabled => pure .disabled
  | .unspecified =>
      throw (.connect .invalidArgument "invalid user status: USER_STATUS_UNSPECIFIED")

/-- A statement whose error goes through `ConnectDBError`. -/
def statement (q : Query) : Handler q.Result := do
  match ← withConnection q with
  | .ok a => return a
  | .error e => throw (connectDBError e)

/-- The fields of the requests that create a user. -/
structure NewUserRequest where
  email : String
  password : String
  firstName : String
  middleName : Option String
  lastName : String
  deriving DecidableEq, Repr

def NewUserRequest.params (req : NewUserRequest) (passwordHash : String) : CreateUserParams where
  email := req.email
  passwordHash := passwordHash
  firstName := req.firstName
  middleName := req.middleName
  lastName := req.lastName

/-- `RegisterUser`. -/
def registerUser (req : NewUserRequest) : Handler UserMessage := do
  let passwordHash ← hashPassword req.password
  return userToProto E (← statement (.createUser (req.params passwordHash)))

/-- `CreateUser`. -/
def createUser (ctx : Option JWTClaims) (req : NewUserRequest) : Handler UserMessage := do
  let _ ← requireUserRole ctx [.admin]
  let passwordHash ← hashPassword req.password
  return userToProto E (← statement (.createUser (req.params passwordHash)))

/-- `CreateUserWithRoleAndStatus`. -/
def createUserWithRoleAndStatus (ctx : Option JWTClaims) (req : NewUserRequest)
    (role : Members.UserRole) (status : Members.UserStatus) : Handler UserMessage := do
  let _ ← requireUserRole ctx [.admin]
  let role ← userRoleToSQL role
  let status ← userStatusToSQL status
  let passwordHash ← hashPassword req.password
  return userToProto E
    (← statement (.createUserWithRoleAndStatus (req.params passwordHash) role status))

/-- `GetUserById`. -/
def getUserById (ctx : Option JWTClaims) (id : String) : Handler UserMessage := do
  let _ ← requireSelf ctx id
  let id ← parseUUID E id
  return userToProto E (← statement (.getUserByID id))

/-- `GetUserByEmail`. -/
def getUserByEmail (ctx : Option JWTClaims) (email : String) : Handler UserMessage := do
  let _ ← requireAuthenticated ctx
  return userToProto E (← statement (.getUserByEmail email))

/-- The users that a statement for one user finds. -/
def oneOrNone : Except DbError User → Handler (List User)
  | .ok user => pure [user]
  | .error .noRows => pure []
  | .error e => throw (connectDBError e)

/-- `ListUsers`. -/
def listUsers (ctx : Option JWTClaims) (query : String) (limit offset : Nat) :
    Handler (List UserMessage) := do
  let _ ← requireUserRole ctx [.admin]
  let users ←
    if query ≠ "" then
      match E.scanUUID query with
      | .ok id => do oneOrNone (← withConnection (.getUserByID id))
      | .error _ =>
        if '@' ∈ query.toList then do oneOrNone (← withConnection (.getUserByEmail query))
        else pure []
    else statement (.listUsers limit offset)
  return users.map (userToProto E)

/-- `UpdateUserProfile`. -/
def updateUserProfile (ctx : Option JWTClaims) (id firstName : String)
    (middleName : Option String) (lastName : String) : Handler UserMessage := do
  let _ ← requireSelf ctx id
  let id ← parseUUID E id
  return userToProto E (← statement (.updateUserProfile id firstName middleName lastName))

/-- The check of the current password, which users other than admins must give. -/
def requireOldPassword (id : UUID) : Option String → Handler Unit
  | none => throw (.connect .invalidArgument "old_password is required")
  | some oldPassword => do
    let current ← statement (.getUserByID id)
    if verifyPassword E oldPassword current.passwordHash then return
    else throw (.connect .unauthenticated "incorrect current password")

/-- `UpdateUserPassword`. -/
def updateUserPassword (ctx : Option JWTClaims) (id : String) (oldPassword : Option String)
    (password : String) : Handler UserMessage := do
  let claims ← requireSelf ctx id
  let id ← parseUUID E id
  if claims.role ≠ .admin then requireOldPassword E id oldPassword
  let passwordHash ← hashPassword password
  return userToProto E (← statement (.updateUserPassword id passwordHash))

/-- `UpdateUserRole`. -/
def updateUserRole (ctx : Option JWTClaims) (id : String) (role : Members.UserRole) :
    Handler UserMessage := do
  let _ ← requireUserRole ctx [.admin]
  let id ← parseUUID E id
  let role ← userRoleToSQL role
  return userToProto E (← statement (.updateUserRole id role))

/-- `UpdateUserStatus`. -/
def updateUserStatus (ctx : Option JWTClaims) (id : String) (status : Members.UserStatus) :
    Handler UserMessage := do
  let _ ← requireUserRole ctx [.admin]
  let id ← parseUUID E id
  let status ← userStatusToSQL status
  return userToProto E (← statement (.updateUserStatus id status))

/-- `DeleteUser`. -/
def deleteUser (ctx : Option JWTClaims) (id : String) : Handler Unit := do
  let _ ← requireUserRole ctx [.admin]
  let id ← parseUUID E id
  let rowsAffected ← statement (.deleteUser id)
  if rowsAffected = 0 then
    throw (.connect .notFound ("user not found: " ++ E.uuidText id))

/-- The answer of `Login`, and that of `RefreshToken`, which names no user. -/
structure TokenPair where
  accessToken : String
  refreshToken : String
  expiresIn : Int
  user : Option UserMessage
  deriving DecidableEq, Repr

/-- The duration of a token of the type. -/
def Env.duration : TokenType → Int
  | .access => E.accessTokenDuration
  | .refresh | .unspecified => E.refreshTokenDuration

/-- The two tokens that `Login` and `RefreshToken` end with, for an active account. -/
def issueTokens (user : User) (named : Option UserMessage) : Handler TokenPair := do
  let accessToken ← generateToken (userToProto E user) (E.duration .access) .access
  let refreshToken ← generateToken (userToProto E user) (E.duration .refresh) .refresh
  return ⟨accessToken, refreshToken, (E.duration .access).tdiv second, named⟩

/-- `Login`. -/
def login (email password : String) : Handler TokenPair := do
  match ← withConnection (.getUserByEmail email) with
  | .error .noRows => throw (.connect .unauthenticated "invalid credentials")
  | .error e => throw (connectDBError e)
  | .ok user =>
    if user.status ≠ .active then
      throw (.connect .permissionDenied "account is not active")
    else if verifyPassword E password user.passwordHash then
      issueTokens E user (some (userToProto E user))
    else throw (.connect .unauthenticated "invalid credentials")

/-- The claims of a valid refresh token. -/
def refreshClaims (token : String) : Handler JWTClaims := do
  let claims ← validateToken E token
  if claims.tokenType = .refresh then return claims
  else throw (.connect .unauthenticated "invalid token type")

/-- `RefreshToken`. -/
def refreshToken (token : String) : Handler TokenPair := do
  let claims ← refreshClaims E token
  let id ← parseUUID E claims.sub
  let user ← statement (.getUserByID id)
  if user.status ≠ .active then
    throw (.connect .permissionDenied "account is not active")
  else issueTokens E user none

/-- `Logout`, which takes nothing back. -/
def logout (token : String) : Handler Unit := do
  let _ ← refreshClaims E token

/-- The calls of the two services, and `rest`, a call of another service up to its check that the
caller is authenticated. -/
inductive Call
  | login (email password : String)
  | refreshToken (token : String)
  | logout (token : String)
  | registerUser (req : NewUserRequest)
  | createUser (req : NewUserRequest)
  | createUserWithRoleAndStatus (req : NewUserRequest) (role : Members.UserRole)
      (status : Members.UserStatus)
  | getUserById (id : String)
  | getUserByEmail (email : String)
  | listUsers (query : String) (limit offset : Nat)
  | updateUserProfile (id firstName : String) (middleName : Option String) (lastName : String)
  | updateUserPassword (id : String) (oldPassword : Option String) (password : String)
  | updateUserRole (id : String) (role : Members.UserRole)
  | updateUserStatus (id : String) (status : Members.UserStatus)
  | deleteUser (id : String)
  | rest
  deriving DecidableEq, Repr

inductive Response
  | tokens (pair : TokenPair)
  | user (user : UserMessage)
  | users (users : List UserMessage)
  | empty
  | claims (claims : JWTClaims)
  deriving DecidableEq, Repr

/-- A call and the `Authorization` header that it comes with. -/
structure Request where
  authorization : String
  call : Call
  deriving DecidableEq, Repr

/-- The handler of a call, given the claims that the interceptor has put into the context.
`AuthService` has no such interceptor. -/
def Call.handler (ctx : Option JWTClaims) : Call → Handler Response
  | .login email password => do return .tokens (← Auth.login E email password)
  | .refreshToken token => do return .tokens (← Auth.refreshToken E token)
  | .logout token => do
      Auth.logout E token
      return .empty
  | .registerUser req => do return .user (← Auth.registerUser E req)
  | .createUser req => do return .user (← Auth.createUser E ctx req)
  | .createUserWithRoleAndStatus req role status => do
      return .user (← Auth.createUserWithRoleAndStatus E ctx req role status)
  | .getUserById id => do return .user (← Auth.getUserById E ctx id)
  | .getUserByEmail email => do return .user (← Auth.getUserByEmail E ctx email)
  | .listUsers query limit offset => do
      return .users (← Auth.listUsers E ctx query limit offset)
  | .updateUserProfile id firstName middleName lastName => do
      return .user (← Auth.updateUserProfile E ctx id firstName middleName lastName)
  | .updateUserPassword id oldPassword password => do
      return .user (← Auth.updateUserPassword E ctx id oldPassword password)
  | .updateUserRole id role => do return .user (← Auth.updateUserRole E ctx id role)
  | .updateUserStatus id status => do return .user (← Auth.updateUserStatus E ctx id status)
  | .deleteUser id => do
      Auth.deleteUser E ctx id
      return .empty
  | .rest => do return .claims (← requireAuthenticated ctx)

/-- The call is one of `AuthService`. -/
def Call.ofAuthService : Call → Bool
  | .login .. | .refreshToken .. | .logout .. => true
  | _ => false

/-- A request behind its interceptors. -/
def Request.serve (r : Request) : Handler Response :=
  if r.call.ofAuthService then r.call.handler E none
  else do r.call.handler E (← injectClaims E r.authorization)

end Richter.Auth
