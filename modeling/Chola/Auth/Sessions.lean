import Chola.Auth.Tokens

/-! Users, their sessions and their API keys: the tables, the extractor that admits a request, and the
operations of `auth_handlers.rs`, `user_handlers.rs` and `api_key_handlers.rs` on them. -/

namespace Chola

open Base

inductive UserRole
  | superAdmin
  | admin
  | operator
  | viewer
  deriving DecidableEq, Repr

namespace UserRole

def fromDbStr (text : String) : UserRole :=
  if text = "super_admin" then superAdmin
  else if text = "admin" then admin
  else if text = "operator" then operator
  else viewer

def asDbStr : UserRole → String
  | superAdmin => "super_admin"
  | admin => "admin"
  | operator => "operator"
  | viewer => "viewer"

theorem fromDbStr_asDbStr : fromDbStr role.asDbStr = role := by
  cases role <;> decide

def canManageUsers : UserRole → Bool
  | superAdmin => true
  | _ => false

def allowed (text : String) : Bool :=
  [superAdmin, admin, operator, viewer].any (fun role => role.asDbStr = text)

end UserRole

structure User where
  id : Uuid
  (username passwordHash : String)
  displayName : Option String
  role : UserRole
  active : Bool
  deriving DecidableEq

structure Session where
  tokenJti : String
  userId : Uuid
  expiresAt : Timestamp
  revoked : Bool

structure ApiKey where
  (id userId : Uuid)
  (keyHash name : String)
  revoked : Bool

structure Claims where
  (sub username role jti : String)
  (exp iat : Int)
  deriving DecidableEq

structure AuthUser where
  userId : Uuid
  username : String
  role : UserRole
  deriving DecidableEq

/-- What other libraries do. A signature is checked together with the time in it. -/
structure AuthLibraries where
  sha256 : String → String
  decodeToken : Timestamp → String → Except String Claims
  verifyPassword : String → String → Except String Bool
  uuidText : Uuid → String
  parseUuid : String → Option Uuid
  (isUppercase isNumeric : Char → Bool)

inductive AccessQuery
  | getUserByUsername
  | createSession
  | isSessionValid
  | revokeSession
  | cleanupExpiredSessions
  | getApiKeyByHash
  | getWorkerTokenByHash
  | getUser
  | createApiKey
  | revokeApiKey
  | createUser
  | updateUser
  | updateUserPassword
  | deleteUser
  deriving DecidableEq, Repr

/-- What the outside decides: the clock, which statements succeed, and the hash of a new password
unless hashing fails. -/
structure AccessAmbient where
  now : Timestamp
  ok : AccessQuery → Bool
  hashPassword : Option String

inductive AccessError
  | unauthorized (message : String)
  | forbidden (message : String)
  | badRequest (message : String)
  | notFound (message : String)
  | internal (message : String)
  deriving DecidableEq, Repr

structure RequestParts where
  (xApiKey authorization : Option String)
  query : List String

structure Access where
  enabled : Bool
  jwtExpirySecs : Int
  users : Keyed Uuid User User.id
  sessions : Keyed String Session Session.tokenJti
  apiKeys : Keyed Uuid ApiKey ApiKey.id
  tokens : TokenTables

inductive Credential
  | runner (key : String)
  | apiKey (key : String)
  | jwt (token : String)
  deriving DecidableEq

/-- A token in the query counts only where there is no header. -/
def RequestParts.authHeader (parts : RequestParts) : Option String :=
  parts.authorization <|> (parts.query.findSome? (stripText "token=")).map (fun token => "Bearer " ++ token)

def RequestParts.credential (parts : RequestParts) : Except AccessError Credential :=
  match parts.xApiKey with
  | some key => .ok (if (stripText "chola_svc_" key).isSome then .runner key else .apiKey key)
  | none =>
    match parts.authHeader with
    | none => .error (.unauthorized "Missing Authorization header")
    | some header =>
      match stripText "Bearer chola_svc_" header, stripText "Bearer chola_" header,
        stripText "Bearer " header with
      | some rest, _, _ => .ok (.runner ("chola_svc_" ++ rest))
      | none, some rest, _ => .ok (.apiKey ("chola_" ++ rest))
      | none, none, some token => .ok (.jwt token)
      | none, none, none => .error (.unauthorized "Invalid Authorization header format")

namespace Access

def getUserByUsername (username : String) (access : Access) : Option User :=
  access.users.values.find? (fun user => user.username = username)

def isSessionValid (now : Timestamp) (jti : String) (access : Access) : Bool :=
  (access.sessions.get? jti).any (fun session => !session.revoked && now < session.expiresAt)

def getApiKeyByHash (hash : String) (access : Access) : Option ApiKey :=
  access.apiKeys.values.find? (fun key => key.keyHash = hash && !key.revoked)

def createSession (session : Session) (access : Access) : Access :=
  { access with sessions := access.sessions.add session }

def revokeSession (jti : String) (access : Access) : Access :=
  { access with
    sessions := access.sessions.update jti (fun session => { session with revoked := true }) (fun _ => rfl) }

def cleanupExpiredSessions (now : Timestamp) (access : Access) : Access :=
  { access with
    sessions := access.sessions.retain (fun session => !(session.expiresAt < now || session.revoked)) }

def createApiKey (key : ApiKey) (access : Access) : Access :=
  { access with apiKeys := access.apiKeys.add key }

def revokeApiKey (id : Uuid) (access : Access) : Access :=
  { access with
    apiKeys := access.apiKeys.update id (fun key => { key with revoked := true }) (fun _ => rfl) }

def writeUser (user : User) (access : Access) : Access := { access with users := access.users.add user }

/-- The sessions and the keys of a user go with its row. -/
def deleteUser (id : Uuid) (access : Access) : Access :=
  { access with
    users := access.users.retain (fun user => user.id ≠ id)
    sessions := access.sessions.retain (fun session => session.userId ≠ id)
    apiKeys := access.apiKeys.retain (fun key => key.userId ≠ id) }

section

variable (lib : AuthLibraries) (amb : AccessAmbient)

def resolveRunnerToken (rawKey : String) (access : Access) : Except AccessError AuthUser :=
  if !amb.ok .getWorkerTokenByHash then .error (.internal "Token lookup failed")
  else match access.tokens.getWorkerTokenByHash (lib.sha256 rawKey) with
    | none => .error (.unauthorized "Invalid runner token")
    | some token =>
      if !token.active then .error (.unauthorized "Runner token is inactive")
      else if token.scope ≠ "runner" then .error (.unauthorized "Invalid runner token")
      else if token.expiresAt.any (fun expiry => expiry < amb.now) then
        .error (.unauthorized "Runner token has expired")
      else .ok ⟨.nil, "runner:" ++ token.name, .operator⟩

def resolveApiKey (rawKey : String) (access : Access) : Except AccessError AuthUser :=
  if !amb.ok .getApiKeyByHash then .error (.internal "Key lookup failed")
  else match access.getApiKeyByHash (lib.sha256 rawKey) with
    | none => .error (.unauthorized "Invalid API key")
    | some key =>
      if !amb.ok .getUser then .error (.internal "User lookup failed")
      else match access.users.get? key.userId with
        | none => .error (.unauthorized "API key owner not found")
        | some user =>
          if !user.active then .error (.unauthorized "Account is disabled")
          else .ok ⟨user.id, user.username, user.role⟩

/-- The role is the one in the claims. -/
def resolveJwt (token : String) (access : Access) : Except AccessError AuthUser :=
  match lib.decodeToken amb.now token with
  | .error reason => .error (.unauthorized ("Invalid token: " ++ reason))
  | .ok claims =>
    if !(amb.ok .isSessionValid && access.isSessionValid amb.now claims.jti) then
      .error (.unauthorized "Session revoked or expired")
    else match lib.parseUuid claims.sub with
      | none => .error (.unauthorized "Invalid user ID in token")
      | some id => .ok ⟨id, claims.username, .fromDbStr claims.role⟩

def resolve (access : Access) :
    Credential → Except AccessError AuthUser
  | .runner key => access.resolveRunnerToken lib amb key
  | .apiKey key => access.resolveApiKey lib amb key
  | .jwt token => access.resolveJwt lib amb token

def fromRequestParts (parts : RequestParts) (access : Access) : Except AccessError AuthUser :=
  if !access.enabled then .ok ⟨.nil, "anonymous", .superAdmin⟩
  else match parts.credential with
    | .error error => .error error
    | .ok credential => access.resolve lib amb credential

end

end Access

structure CreateUserRequest where
  (username password : String)
  displayName : Option String
  role : String

structure UpdateUserRequest where
  (displayName role : Option String)
  active : Option Bool
  password : Option String

/-- The operations. Identifiers and secrets that an operation draws come with it. -/
inductive AccessRequest
  | login (username password : String) (jti : Uuid)
  | logout (parts : RequestParts)
  | cleanupExpiredSessions
  | createApiKey (parts : RequestParts) (name : String) (id : Uuid) (secret : String)
  | revokeApiKey (parts : RequestParts) (id : Uuid)
  | createUser (parts : RequestParts) (body : CreateUserRequest) (id : Uuid)
  | updateUser (parts : RequestParts) (id : Uuid) (body : UpdateUserRequest)
  | resetPassword (parts : RequestParts) (id : Uuid) (newPassword : String)
  | changePassword (parts : RequestParts) (currentPassword newPassword : String)
  | deleteUser (parts : RequestParts) (id : Uuid)

inductive AccessReply
  | loggedIn (claims : Claims) (expiresAt : Timestamp)
  | loggedOut
  | cleaned
  | keyCreated (id : Uuid) (key : String)
  | keyRevoked (id : Uuid)
  | user (user : User)
  | message (text : String)
  | deleted
  deriving DecidableEq

def AccessError.serverError : AccessError := .internal "Server error. Please try again later."

def validateString (field value : String) (maxLen : Nat) : Except AccessError Unit :=
  if value.isEmpty then .error (.badRequest (field ++ " cannot be empty"))
  else if value.utf8ByteSize > maxLen then
    .error (.badRequest (field ++ " exceeds max length of " ++ toString maxLen))
  else .ok ()

def validatePassword (lib : AuthLibraries) (password : String) : Except AccessError Unit :=
  if password.utf8ByteSize < 8 then .error (.badRequest "Password must be at least 8 characters")
  else if !password.toList.any lib.isUppercase then
    .error (.badRequest "Password must contain an uppercase letter")
  else if !password.toList.any lib.isNumeric then .error (.badRequest "Password must contain a number")
  else .ok ()

namespace Access

section

variable (lib : AuthLibraries) (amb : AccessAmbient)

/-- The token names the role that the user has at its login. -/
def claimsFor (user : User) (jti : Uuid) (access : Access) :
    Claims where
  sub := lib.uuidText user.id
  username := user.username
  role := user.role.asDbStr
  jti := lib.uuidText jti
  exp := amb.now / 1000000000 + access.jwtExpirySecs
  iat := amb.now / 1000000000

def login (username password : String) (jti : Uuid)
    (access : Access) : Access × Except AccessError AccessReply :=
  if !amb.ok .getUserByUsername then (access, .error .serverError)
  else match access.getUserByUsername username with
    | none => (access, .error (.unauthorized "Invalid credentials"))
    | some user =>
      if !user.active then (access, .error (.unauthorized "Account is disabled"))
      else match lib.verifyPassword password user.passwordHash with
        | .error _ => (access, .error .serverError)
        | .ok false => (access, .error (.unauthorized "Invalid credentials"))
        | .ok true =>
          let claims := access.claimsFor lib amb user jti
          let expiresAt := amb.now + access.jwtExpirySecs * 1000000000
          if amb.ok .createSession && (access.sessions.get? claims.jti).isNone then
            (access.createSession ⟨claims.jti, user.id, expiresAt, false⟩, .ok (.loggedIn claims expiresAt))
          else (access, .error .serverError)

/-- Only a token in the header is revoked, and the answer is the same whether or not one was. -/
def logout (parts : RequestParts) (access : Access) : Access :=
  match parts.authorization.bind (stripText "Bearer ") with
  | some token =>
    match lib.decodeToken amb.now token with
    | .ok claims => if amb.ok .revokeSession then access.revokeSession claims.jti else access
    | .error _ => access
  | none => access

def createApiKeyFor (caller : AuthUser) (name : String) (id : Uuid)
    (secret : String) (access : Access) : Access × Except AccessError AccessReply :=
  if name.isEmpty || name.utf8ByteSize > 255 then
    (access, .error (.badRequest "name must be 1–255 chars"))
  else
    let hash := lib.sha256 ("chola_" ++ secret)
    if amb.ok .createApiKey && (access.users.get? caller.userId).isSome && (access.apiKeys.get? id).isNone &&
        access.apiKeys.values.all (fun key => key.keyHash ≠ hash) then
      (access.createApiKey ⟨id, caller.userId, hash, name, false⟩, .ok (.keyCreated id ("chola_" ++ secret)))
    else (access, .error .serverError)

end

def revokeApiKeyFor (amb : AccessAmbient) (caller : AuthUser) (id : Uuid) (access : Access) :
    Access × Except AccessError AccessReply :=
  if !amb.ok .revokeApiKey then (access, .error .serverError)
  else if (access.apiKeys.get? id).any (fun key => key.userId = caller.userId && !key.revoked) then
    (access.revokeApiKey id, .ok (.keyRevoked id))
  else (access, .error (.notFound "API key not found"))

def insufficient : AccessError := .forbidden "Insufficient permissions"

def createUserBy (lib : AuthLibraries) (amb : AccessAmbient) (caller : AuthUser) (body : CreateUserRequest)
    (id : Uuid) (access : Access) : Access × Except AccessError AccessReply :=
  if !caller.role.canManageUsers then (access, .error insufficient)
  else match (do
      validateString "username" body.username 100
      body.displayName.forM (fun name => validateString "display_name" name 255)
      validatePassword lib body.password) with
    | .error error => (access, .error error)
    | .ok () =>
      match amb.hashPassword with
      | none => (access, .error .serverError)
      | some hash =>
        if amb.ok .createUser && UserRole.allowed body.role && (access.users.get? id).isNone &&
            (access.getUserByUsername body.username).isNone then
          let user : User := ⟨id, body.username, hash, body.displayName, .fromDbStr body.role, true⟩
          (access.writeUser user, .ok (.user user))
        else (access, .error .serverError)

/-- What a request leaves out stays. No session and no key is touched. -/
def changedUser (body : UpdateUserRequest) (hash : Option String) (user : User) : User :=
  { user with
    displayName := body.displayName <|> user.displayName
    role := (body.role.map UserRole.fromDbStr).getD user.role
    active := body.active.getD user.active
    passwordHash := hash.getD user.passwordHash }

section

variable (lib : AuthLibraries) (amb : AccessAmbient) (caller : AuthUser)

def updateUserBy (id : Uuid)
    (body : UpdateUserRequest) (access : Access) : Access × Except AccessError AccessReply :=
  if !caller.role.canManageUsers then (access, .error insufficient)
  else match (do
      body.displayName.forM (fun name => validateString "display_name" name 255)
      body.password.forM (validatePassword lib)) with
    | .error error => (access, .error error)
    | .ok () =>
      if body.password.isSome && amb.hashPassword.isNone then (access, .error .serverError)
      else if !(amb.ok .updateUser && body.role.all UserRole.allowed) then (access, .error .serverError)
      else match access.users.get? id with
        | none => (access, .error (.notFound "User not found"))
        | some user =>
          let user := changedUser body (if body.password.isSome then amb.hashPassword else none) user
          (access.writeUser user, .ok (.user user))

def resetPasswordBy (id : Uuid)
    (newPassword : String) (access : Access) : Access × Except AccessError AccessReply :=
  if !caller.role.canManageUsers then (access, .error (.forbidden "Super admin only"))
  else match validatePassword lib newPassword with
    | .error error => (access, .error error)
    | .ok () =>
      match amb.hashPassword with
      | none => (access, .error .serverError)
      | some hash =>
        if !amb.ok .updateUserPassword then (access, .error .serverError)
        else match access.users.get? id with
          | none => (access, .error (.notFound "User not found"))
          | some user =>
            (access.writeUser { user with passwordHash := hash }, .ok (.message "Password reset"))

def changePasswordOf
    (currentPassword newPassword : String) (access : Access) : Access × Except AccessError AccessReply :=
  if !amb.ok .getUser then (access, .error .serverError)
  else match access.users.get? caller.userId with
    | none => (access, .error (.notFound "User not found"))
    | some user =>
      match lib.verifyPassword currentPassword user.passwordHash with
      | .error _ => (access, .error .serverError)
      | .ok false => (access, .error (.unauthorized "Current password is incorrect"))
      | .ok true =>
        match validatePassword lib newPassword, amb.hashPassword with
        | .error error, _ => (access, .error error)
        | .ok (), none => (access, .error .serverError)
        | .ok (), some hash =>
          if amb.ok .updateUserPassword then
            (access.writeUser { user with passwordHash := hash }, .ok (.message "Password updated"))
          else (access, .error .serverError)

end

def deleteUserBy (amb : AccessAmbient) (caller : AuthUser) (id : Uuid) (access : Access) :
    Access × Except AccessError AccessReply :=
  if !caller.role.canManageUsers then (access, .error insufficient)
  else if !amb.ok .deleteUser then (access, .error .serverError)
  else if (access.users.get? id).isSome then (access.deleteUser id, .ok .deleted)
  else (access, .error (.notFound "User not found"))

def admitted (lib : AuthLibraries) (amb : AccessAmbient) (parts : RequestParts)
    (operate : AuthUser → Access × Except AccessError AccessReply) (access : Access) :
    Access × Except AccessError AccessReply :=
  match access.fromRequestParts lib amb parts with
  | .error error => (access, .error error)
  | .ok caller => operate caller

def handle (lib : AuthLibraries) (amb : AccessAmbient) (request : AccessRequest) (access : Access) :
    Access × Except AccessError AccessReply :=
  match request with
  | .login username password jti => access.login lib amb username password jti
  | .logout parts => access.admitted lib amb parts (fun _ => (access.logout lib amb parts, .ok .loggedOut))
  | .cleanupExpiredSessions =>
    if amb.ok .cleanupExpiredSessions then (access.cleanupExpiredSessions amb.now, .ok .cleaned)
    else (access, .error .serverError)
  | .createApiKey parts name id secret =>
    access.admitted lib amb parts (fun caller => access.createApiKeyFor lib amb caller name id secret)
  | .revokeApiKey parts id =>
    access.admitted lib amb parts (fun caller => access.revokeApiKeyFor amb caller id)
  | .createUser parts body id =>
    access.admitted lib amb parts (fun caller => access.createUserBy lib amb caller body id)
  | .updateUser parts id body =>
    access.admitted lib amb parts (fun caller => access.updateUserBy lib amb caller id body)
  | .resetPassword parts id newPassword =>
    access.admitted lib amb parts (fun caller => access.resetPasswordBy lib amb caller id newPassword)
  | .changePassword parts currentPassword newPassword =>
    access.admitted lib amb parts
      (fun caller => access.changePasswordOf lib amb caller currentPassword newPassword)
  | .deleteUser parts id => access.admitted lib amb parts (fun caller => access.deleteUserBy amb caller id)

end Access

/-- The operations one after another. A restart keeps the tables. -/
def accessMachine (lib : AuthLibraries) : Machine Access AccessRequest AccessAmbient AccessRequest where
  start request := [request]
  exec amb request access := ((access.handle lib amb request).1, [])
  reset _ access := access

theorem Access.get?_revokeSession {access : Access} : (access.revokeSession jti).sessions.get? other =
      if other = jti then (access.sessions.get? other).map (fun session => { session with revoked := true })
      else access.sessions.get? other :=
  Keyed.get?_update jti other (fun session : Session => { session with revoked := true }) (fun _ => rfl)
    _

/-- Everything an operation can do, with its answer. -/
inductive AccessEffect (lib : AuthLibraries) (amb : AccessAmbient) (access : Access) :
    AccessRequest → Access × Except AccessError AccessReply → Prop
  | refused (error : AccessError) : AccessEffect lib amb access request (access, .error error)
  | loggedIn (user : User) (claims : Claims) (expiresAt : Timestamp)
      (found : access.users.get? user.id = some user) (active : user.active = true)
      (sub : claims.sub = lib.uuidText user.id) (role : claims.role = user.role.asDbStr)
      (named : claims.jti = lib.uuidText jti) :
      AccessEffect lib amb access (.login username password jti)
        (access.createSession ⟨claims.jti, user.id, expiresAt, false⟩, .ok (.loggedIn claims expiresAt))
  | loggedOut (caller : AuthUser) (admitted : access.fromRequestParts lib amb parts = .ok caller) :
      AccessEffect lib amb access (.logout parts) (access.logout lib amb parts, .ok .loggedOut)
  | cleaned : AccessEffect lib amb access .cleanupExpiredSessions
      (access.cleanupExpiredSessions amb.now, .ok .cleaned)
  | keyCreated {id : Uuid} (owner : Uuid) (fresh : access.apiKeys.get? id = none) :
      AccessEffect lib amb access (.createApiKey parts name id secret)
        (access.createApiKey ⟨id, owner, lib.sha256 ("chola_" ++ secret), name, false⟩,
          .ok (.keyCreated id ("chola_" ++ secret)))
  | keyRevoked {id : Uuid} :
      AccessEffect lib amb access (.revokeApiKey parts id) (access.revokeApiKey id, .ok (.keyRevoked id))
  | created {id : Uuid} (user : User) (own : user.id = id) (fresh : access.users.get? id = none) :
      AccessEffect lib amb access (.createUser parts body id) (access.writeUser user, .ok (.user user))
  | updated {id : Uuid} (old : User) (hash : Option String) (found : access.users.get? id = some old) :
      AccessEffect lib amb access (.updateUser parts id body)
        (access.writeUser (Access.changedUser body hash old), .ok (.user (Access.changedUser body hash old)))
  | passwordSet (old : User) (hash text : String) (found : access.users.get? old.id = some old) :
      AccessEffect lib amb access request
        (access.writeUser { old with passwordHash := hash }, .ok (.message text))
  | deleted {id : Uuid} :
      AccessEffect lib amb access (.deleteUser parts id) (access.deleteUser id, .ok .deleted)

namespace AccessEffect

variable {access : Access}

theorem of_admitted (effect : ∀ caller, access.fromRequestParts lib amb parts = .ok caller →
      AccessEffect lib amb access request (operate caller)) :
    AccessEffect lib amb access request (access.admitted lib amb parts operate) := by
  simp only [Access.admitted]
  split
  · exact .refused _
  · rename_i caller admitted
    exact effect caller admitted

theorem of_handle (lib : AuthLibraries) (amb : AccessAmbient) (request : AccessRequest) (access : Access) :
    AccessEffect lib amb access request (access.handle lib amb request) := by
  cases request with
  | login _ _ jti =>
    simp only [Access.handle, Access.login]
    repeat' split
    all_goals first | exact .refused _ | skip
    rename_i user found active _ _ _
    have listed := (Keyed.mem_values_iff _ _).mp (List.mem_of_find?_eq_some found)
    exact .loggedIn user (access.claimsFor lib amb user jti) _ listed (by simpa using active) rfl rfl rfl
  | logout => exact of_admitted (fun caller admitted => .loggedOut caller admitted)
  | cleanupExpiredSessions =>
    simp only [Access.handle]
    split
    · exact .cleaned
    · exact .refused _
  | createApiKey =>
    refine of_admitted fun caller _ => ?_
    simp only [Access.createApiKeyFor]
    repeat' split
    all_goals first | exact .refused _ | skip
    rename_i passes
    simp only [Bool.and_eq_true] at passes
    exact .keyCreated caller.userId (by simpa using passes.1.2)
  | revokeApiKey =>
    refine of_admitted fun caller _ => ?_
    simp only [Access.revokeApiKeyFor]
    repeat' split
    all_goals first | exact .refused _ | exact .keyRevoked
  | createUser =>
    refine of_admitted fun caller _ => ?_
    simp only [Access.createUserBy]
    repeat' split
    all_goals first | exact .refused _ | skip
    rename_i passes
    simp only [Bool.and_eq_true] at passes
    exact .created _ rfl (by simpa using passes.1.2)
  | updateUser =>
    refine of_admitted fun caller _ => ?_
    simp only [Access.updateUserBy]
    repeat' split
    all_goals first | exact .refused _ | exact .updated _ _ ‹_›
  | resetPassword =>
    refine of_admitted fun caller _ => ?_
    simp only [Access.resetPasswordBy]
    repeat' split
    all_goals first | exact .refused _ | skip
    rename_i user found
    exact .passwordSet user _ _ (Keyed.key_of_get? found ▸ found)
  | changePassword =>
    refine of_admitted fun caller _ => ?_
    simp only [Access.changePasswordOf]
    repeat' split
    all_goals first | exact .refused _ | skip
    rename_i user found _ _ _ _ _ _ _ _
    exact .passwordSet user _ _ (Keyed.key_of_get? found ▸ found)
  | deleteUser =>
    refine of_admitted fun caller _ => ?_
    simp only [Access.deleteUserBy]
    repeat' split
    all_goals first | exact .refused _ | exact .deleted

end AccessEffect

end Chola
