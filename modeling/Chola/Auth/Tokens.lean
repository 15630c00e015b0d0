import Chola.Core.Externals
import Chola.Base.Text
import Chola.Base.Threads

/-! Worker and service tokens: the rows of `worker_tokens` and `workers` that hold their hashes, the set of
hashes in which `auth_interceptor` looks them up, and the operations of `worker_token_handlers.rs`,
`worker_handlers.rs` and `register` that change them. -/

namespace Chola

open Base

structure DbWorkerToken where
  id : Uuid
  (name tokenHash scope : String)
  expiresAt : Option Timestamp
  (maxUses uses : Int)
  active : Bool
  workerId : Option String

/-- The columns of a worker's row that its tokens depend on. -/
structure WorkerRow where
  workerId : String
  workerTokenHash : Option String
  registrationTokenId : Option Uuid
  approved : Bool

structure AuthConfig where
  enabled : Bool
  token : Option String

inductive TokenQuery
  | listWorkerTokens
  | loadWorkers
  | createWorkerToken
  | updateWorkerTokenActive
  | deleteWorkerToken
  | deactivateTokensForWorker
  | getWorkerTokenByHash
  | getTokenWorkerId
  | getWorkerByTokenHash
  | getWorker
  | upsertWorker
  | incrementWorkerTokenUses
  | registerWorker
  | deleteWorker
  | updateWorkerApproved
  deriving DecidableEq, Repr

/-- What the outside decides for one operation: the clock, which statements succeed, and the text of a
failure. -/
structure TokenAmbient where
  now : Timestamp
  ok : TokenQuery → Bool
  failure : String

inductive TokenError
  | unauthenticated (message : String)
  | permissionDenied (message : String)
  | forbidden (message : String)
  | badRequest (message : String)
  | conflict (message : String)
  | notFound (message : String)
  | internal (message : String)
  | storageUnavailable
  deriving DecidableEq, Repr

def TokenError.serverError : TokenError := .internal "Server error. Please try again later."

def DbWorkerToken.deactivateFor (workerId : String) (row : DbWorkerToken) : DbWorkerToken :=
  if row.workerId = some workerId && row.active then { row with active := false, workerId := none } else row

theorem DbWorkerToken.deactivateFor_id (workerId : String) (row : DbWorkerToken) :
    (row.deactivateFor workerId).id = row.id := by
  unfold deactivateFor
  split <;> rfl

structure TokenTables where
  tokens : Keyed Uuid DbWorkerToken DbWorkerToken.id
  workers : Keyed String WorkerRow WorkerRow.workerId

namespace TokenTables

def empty : TokenTables := ⟨.empty, .empty⟩

/-- Refused for an identifier, a hash or a worker that another row has. -/
def canCreateWorkerToken (tables : TokenTables) (row : DbWorkerToken) : Bool :=
  (tables.tokens.get? row.id).isNone &&
    tables.tokens.values.all (fun other => other.tokenHash ≠ row.tokenHash &&
      (row.workerId.isNone || other.workerId ≠ row.workerId))

def createWorkerToken (row : DbWorkerToken) (tables : TokenTables) : TokenTables :=
  { tables with tokens := tables.tokens.add row }

def getWorkerTokenByHash (hash : String) (tables : TokenTables) : Option DbWorkerToken :=
  tables.tokens.values.find? (fun row => row.tokenHash = hash)

def getTokenWorkerId (hash : String) (tables : TokenTables) : Option String :=
  (tables.getWorkerTokenByHash hash).bind DbWorkerToken.workerId

def incrementWorkerTokenUses (id : Uuid) (tables : TokenTables) : TokenTables :=
  { tables with
    tokens := tables.tokens.update id (fun row => { row with uses := row.uses + 1 }) (fun _ => rfl) }

def updateWorkerTokenActive (id : Uuid) (active : Bool) (tables : TokenTables) : TokenTables :=
  { tables with
    tokens := tables.tokens.update id (fun row => { row with active := active }) (fun _ => rfl) }

def deleteWorkerToken (id : Uuid) (tables : TokenTables) : TokenTables :=
  { tables with tokens := tables.tokens.retain (fun row => row.id ≠ id) }

section

variable (workerId : String) (tables : TokenTables)

/-- An active token of the worker loses its worker together with its activity. -/
def deactivateTokensForWorker : TokenTables :=
  { tables with
    tokens := tables.tokens.updateAll (DbWorkerToken.deactivateFor workerId)
      (DbWorkerToken.deactivateFor_id workerId) }

def deleteTokensOf : TokenTables :=
  { tables with tokens := tables.tokens.retain (fun row => row.workerId ≠ some workerId) }

def getWorker : Option WorkerRow := tables.workers.get? workerId

end

def getWorkerByTokenHash (hash : String) (tables : TokenTables) : Option WorkerRow :=
  tables.workers.values.find? (fun row => row.workerTokenHash = some hash)

/-- A row that is there keeps its approval. -/
def upsertWorker (row : WorkerRow) (tables : TokenTables) : TokenTables :=
  { tables with
    workers := tables.workers.add (match tables.workers.get? row.workerId with
      | none => row
      | some old => { row with
          workerTokenHash := row.workerTokenHash <|> old.workerTokenHash
          registrationTokenId := row.registrationTokenId <|> old.registrationTokenId
          approved := old.approved }) }

/-- The row that `register_worker` writes. It brings no hash of its own. -/
def blankWorker (workerId : String) : WorkerRow := ⟨workerId, none, none, true⟩

/-- One transaction: the worker, the end of its earlier tokens, and the new one. -/
def registerWorker (workerId : String) (token : DbWorkerToken) (tables : TokenTables) : TokenTables :=
  ((tables.upsertWorker (blankWorker workerId)).deleteTokensOf workerId).createWorkerToken token

def deleteWorker (workerId : String) (tables : TokenTables) : TokenTables :=
  let tables := tables.deleteTokensOf workerId
  { tables with workers := tables.workers.retain (fun row => row.workerId ≠ workerId) }

def updateWorkerApproved (workerId : String) (approved : Bool) (tables : TokenTables) : TokenTables :=
  { tables with
    workers := tables.workers.update workerId (fun row => { row with approved := approved }) (fun _ => rfl) }

def activeHashes (tables : TokenTables) : List String :=
  (tables.tokens.values.filter DbWorkerToken.active).map DbWorkerToken.tokenHash

def workerHashes (tables : TokenTables) : List String :=
  tables.workers.values.filterMap WorkerRow.workerTokenHash

def validateRegistrationToken (amb : TokenAmbient) (hash : String) (tables : TokenTables) :
    Except String DbWorkerToken :=
  if !amb.ok .getWorkerTokenByHash then .error amb.failure
  else match tables.getWorkerTokenByHash hash with
    | none => .error "Registration token not found"
    | some token =>
      if !token.active then .error "Registration token is inactive"
      else if token.expiresAt.any (fun expiry => expiry < amb.now) then
        .error "Registration token has expired"
      else if token.maxUses > 0 ∧ token.uses ≥ token.maxUses then
        .error "Registration token has reached max uses"
      else .ok token

end TokenTables

/-- The tables if there is a database, and the hashes that the interceptor accepts. -/
structure TokenState where
  config : AuthConfig
  storage : Option TokenTables
  hashes : List String

def stripText (front text : String) : Option String :=
  (front.toList.isPrefixOf? text.toList).map String.ofList

theorem stripText_append : stripText front (front ++ text) = some text := by
  rw [stripText, String.toList_append, List.isPrefixOf?_eq_some_iff_append_eq.mpr rfl, Option.map_some,
    String.ofList_toList]

def isToken (text : String) : Bool :=
  (stripText "chola_svc_" text).isSome || (stripText "chola_wkr_" text).isSome

def authInterceptor (sha256 : String → String) (cfg : AuthConfig) (hashes : List String)
    (authorization : String) : Except TokenError Unit :=
  if !cfg.enabled then .ok ()
  else
    let bearer := (stripText "Bearer " authorization).getD ""
    if isToken bearer then
      if hashes.contains (sha256 bearer) then .ok () else .error (.unauthenticated "Invalid token")
    else if !(cfg.token.getD "").isEmpty && authorization = "Bearer " ++ cfg.token.getD "" then .ok ()
    else .error (.unauthenticated "Valid token required (chola_wkr_ or chola_svc_)")

def generateToken (scope secret : String) : String :=
  (if scope = "runner" then "chola_svc_" else "chola_wkr_") ++ secret

def generateWorkerToken (secret : String) : String := "chola_wkr_" ++ secret

/-- The tokens of a registration, with the worker it claims to be. -/
structure RegistrationRequest where
  (workerId workerToken registrationToken : String)

structure CreateTokenRequest where
  name : String
  scope : Option String
  expiresAt : Option Timestamp
  maxUses : Option Int
  workerId : Option String

/-- The operations on tokens, with the random values they draw and whether the caller has the role they
ask for. -/
inductive TokenRequest
  | register (authorization : String) (req : RegistrationRequest) (secret : String)
  | create (permitted : Bool) (body : CreateTokenRequest) (id : Uuid) (secret : String)
  | setActive (permitted : Bool) (id : Uuid) (active : Bool)
  | deleteOne (permitted : Bool) (id : Uuid)
  | registerWorker (permitted : Bool) (workerId hostname : String) (id : Uuid) (secret : String)
  | regenerateToken (permitted : Bool) (workerId : String) (id : Uuid) (secret : String)
  | deleteWorker (permitted : Bool) (workerId : String)
  | setApproved (permitted : Bool) (workerId : String) (approved : Bool)

/-- The answer to an operation: the token it made, if it made one. -/
abbrev TokenReply := Except TokenError (Option String)

def isBlank (text : String) : Bool := text.toList.all Base.isWhitespace

namespace TokenState

/-- The accepted hashes become those of the active tokens, unless they cannot be read. -/
def refreshTokenHashes (amb : TokenAmbient) (state : TokenState) : TokenState :=
  match state.storage with
  | none => state
  | some tables => if amb.ok .listWorkerTokens then { state with hashes := tables.activeHashes } else state

def start (amb : TokenAmbient) (state : TokenState) : TokenState :=
  match state.storage with
  | none => { state with hashes := [] }
  | some tables => { state with
      hashes := (if amb.ok .loadWorkers then tables.workerHashes else []) ++
        (if amb.ok .listWorkerTokens then tables.activeHashes else []) }

def accept (hash : String) (state : TokenState) : TokenState := { state with hashes := hash :: state.hashes }

def store (tables : TokenTables) (state : TokenState) : TokenState := { state with storage := some tables }

/-- A worker that has a token is accepted whatever the state of the token, unless it is rejected. -/
def registerAgain (sha256 : String → String) (amb : TokenAmbient) (req : RegistrationRequest)
    (tables : TokenTables) (state : TokenState) : TokenState × TokenReply :=
  let hash := sha256 req.workerToken
  let letIn (workerId : String) : TokenState × TokenReply :=
    if !amb.ok .getWorker then (state, .error (.internal ("Worker approval check failed: " ++ amb.failure)))
    else if (tables.getWorker workerId).any (fun row => !row.approved) then
      (state, .error (.permissionDenied "Worker is not approved"))
    else (state.accept hash, .ok none)
  if !amb.ok .getTokenWorkerId then (state, .error (.internal ("Token lookup failed: " ++ amb.failure)))
  else match tables.getTokenWorkerId hash with
    | some workerId => letIn workerId
    | none =>
      if !amb.ok .getWorkerByTokenHash then
        (state, .error (.internal ("Worker lookup failed: " ++ amb.failure)))
      else match tables.getWorkerByTokenHash hash with
        | some row => letIn row.workerId
        | none => (state, .error (.unauthenticated "Invalid worker token"))

/-- A worker that has a registration token gets a token of its own, kept in its row only. -/
def registerFirst (sha256 : String → String) (amb : TokenAmbient) (req : RegistrationRequest)
    (secret : String) (tables : TokenTables) (state : TokenState) : TokenState × TokenReply :=
  match tables.validateRegistrationToken amb (sha256 req.registrationToken) with
  | .error message =>
    (state, .error (.unauthenticated ("Invalid or expired registration token: " ++ message)))
  | .ok token =>
    let workerToken := generateWorkerToken secret
    if !amb.ok .upsertWorker then
      (state, .error (.internal ("Failed to persist worker: " ++ amb.failure)))
    else
      let tables := tables.upsertWorker {
        workerId := req.workerId
        workerTokenHash := some (sha256 workerToken)
        registrationTokenId := some token.id
        approved := true }
      let tables := if amb.ok .incrementWorkerTokenUses then tables.incrementWorkerTokenUses token.id
        else tables
      ((state.store tables).accept (sha256 workerToken), .ok (some workerToken))

/-- A registration without tokens, or without a database to look them up in. -/
def registerLegacy (state : TokenState) : TokenState × TokenReply :=
  if state.config.enabled then (state, .error (.unauthenticated "Registration token required"))
  else (state, .ok none)

def register (sha256 : String → String) (amb : TokenAmbient) (req : RegistrationRequest) (secret : String)
    (state : TokenState) : TokenState × TokenReply :=
  match state.storage with
  | none => state.registerLegacy
  | some tables =>
    if !req.workerToken.isEmpty then state.registerAgain sha256 amb req tables
    else if !req.registrationToken.isEmpty then state.registerFirst sha256 amb req secret tables
    else state.registerLegacy

end TokenState

def handle (sha256 : String → String) (amb : TokenAmbient) (request : TokenRequest) (state : TokenState) :
    TokenState × TokenReply :=
  match request with
  | .register authorization req secret =>
    match authInterceptor sha256 state.config state.hashes authorization with
    | .error error => (state, .error error)
    | .ok () => state.register sha256 amb req secret
  | .create permitted body id secret =>
    if !permitted then (state, .error (.forbidden "Admin access required"))
    else match state.storage with
      | none => (state, .error .storageUnavailable)
      | some tables =>
        if isBlank body.name then (state, .error (.badRequest "Name is required"))
        else
          let token := generateToken (body.scope.getD "shared") secret
          let row : DbWorkerToken := {
            id := id
            name := body.name
            tokenHash := sha256 token
            scope := body.scope.getD "shared"
            expiresAt := body.expiresAt
            maxUses := body.maxUses.getD 0
            uses := 0
            active := true
            workerId := body.workerId }
          if amb.ok .createWorkerToken && tables.canCreateWorkerToken row then
            ((state.store (tables.createWorkerToken row)).refreshTokenHashes amb, .ok (some token))
          else (state, .error .serverError)
  | .setActive permitted id active =>
    if !permitted then (state, .error (.forbidden "Admin access required"))
    else match state.storage with
      | none => (state, .error .storageUnavailable)
      | some tables =>
        if amb.ok .updateWorkerTokenActive then
          ((state.store (tables.updateWorkerTokenActive id active)).refreshTokenHashes amb, .ok none)
        else (state, .error .serverError)
  | .deleteOne permitted id =>
    if !permitted then (state, .error (.forbidden "Admin access required"))
    else match state.storage with
      | none => (state, .error .storageUnavailable)
      | some tables =>
        if amb.ok .deleteWorkerToken then
          ((state.store (tables.deleteWorkerToken id)).refreshTokenHashes amb, .ok none)
        else (state, .error .serverError)
  | .registerWorker permitted workerId hostname id secret =>
    if !permitted then (state, .error (.forbidden "Insufficient permissions"))
    else if isBlank workerId then (state, .error (.badRequest "worker_id is required"))
    else if isBlank hostname then (state, .error (.badRequest "hostname is required"))
    else match state.storage with
      | none => (state, .error .storageUnavailable)
      | some tables =>
        if amb.ok .getWorker && (tables.getWorker workerId).isSome then
          (state, .error (.conflict ("Worker '" ++ workerId ++
            "' already registered. Use Regenerate Token to issue a new token.")))
        else
          let token := generateWorkerToken secret
          let row : DbWorkerToken := {
            id := id
            name := "worker-" ++ workerId
            tokenHash := sha256 token
            scope := "dedicated"
            expiresAt := none
            maxUses := 0
            uses := 0
            active := true
            workerId := some workerId }
          if amb.ok .registerWorker && (tables.deleteTokensOf workerId).canCreateWorkerToken row then
            ((state.store (tables.registerWorker workerId row)).refreshTokenHashes amb, .ok (some token))
          else (state, .error .serverError)
  | .regenerateToken permitted workerId id secret =>
    if !permitted then (state, .error (.forbidden "Insufficient permissions"))
    else match state.storage with
      | none => (state, .error .storageUnavailable)
      | some tables =>
        if !amb.ok .deactivateTokensForWorker then (state, .error .serverError)
        else
          let tables := tables.deactivateTokensForWorker workerId
          let token := generateWorkerToken secret
          let row : DbWorkerToken := {
            id := id
            name := "worker-" ++ workerId ++ "-regen"
            tokenHash := sha256 token
            scope := "dedicated"
            expiresAt := none
            maxUses := 0
            uses := 0
            active := true
            workerId := some workerId }
          if amb.ok .createWorkerToken && tables.canCreateWorkerToken row then
            ((state.store (tables.createWorkerToken row)).refreshTokenHashes amb, .ok (some token))
          else (state.store tables, .error .serverError)
  | .deleteWorker permitted workerId =>
    if !permitted then (state, .error (.forbidden "Insufficient permissions"))
    else match state.storage with
      | none => (state, .error .storageUnavailable)
      | some tables =>
        if !amb.ok .deactivateTokensForWorker then (state, .error .serverError)
        else
          let tables := tables.deactivateTokensForWorker workerId
          let state := (state.store tables).refreshTokenHashes amb
          if !amb.ok .deleteWorker then (state, .error .serverError)
          else (state.store (tables.deleteWorker workerId),
            if (tables.getWorker workerId).isSome then .ok none
            else .error (.notFound ("Worker '" ++ workerId ++ "' not found")))
  | .setApproved permitted workerId approved =>
    if !permitted then (state, .error (.forbidden "Insufficient permissions"))
    else match state.storage with
      | none => (state, .error .storageUnavailable)
      | some tables =>
        if amb.ok .updateWorkerApproved then
          (state.store (tables.updateWorkerApproved workerId approved), .ok none)
        else (state, .error .serverError)

def tokenMachine (sha256 : String → String) : Machine TokenState TokenRequest TokenAmbient TokenRequest where
  start request := [request]
  exec amb request state := ((handle sha256 amb request state).1, [])
  reset := TokenState.start

/-- A registration with a token that the interceptor let through, statement by statement. The hash
of the new token is cached together with the row, and the reply follows the count. -/
inductive RegisterStep
  | validate (req : RegistrationRequest) (secret : String)
  | persist (req : RegistrationRequest) (secret : String) (token : DbWorkerToken)
  | count (tokenId : Uuid)

def execRegister (sha256 : String → String) (amb : TokenAmbient) (step : RegisterStep) (state : TokenState) :
    TokenState × List RegisterStep :=
  match state.storage, step with
  | none, _ => (state, [])
  | some tables, .validate req secret =>
    match tables.validateRegistrationToken amb (sha256 req.registrationToken) with
    | .error _ => (state, [])
    | .ok token => (state, [.persist req secret token])
  | some tables, .persist req secret token =>
    if !amb.ok .upsertWorker then (state, [])
    else ((state.store (tables.upsertWorker {
        workerId := req.workerId
        workerTokenHash := some (sha256 (generateWorkerToken secret))
        registrationTokenId := some token.id
        approved := true })).accept (sha256 (generateWorkerToken secret)), [.count token.id])
  | some tables, .count tokenId =>
    (if amb.ok .incrementWorkerTokenUses then state.store (tables.incrementWorkerTokenUses tokenId)
      else state, [])

def registerMachine (sha256 : String → String) :
    Machine TokenState RegisterStep TokenAmbient (RegistrationRequest × String) where
  start request := [.validate request.1 request.2]
  exec := execRegister sha256
  reset := TokenState.start

/-- A registration that nothing interrupts is the one that `register` makes; without a database there is none. -/
theorem finish_registration (sha256 : String → String) (amb : TokenAmbient) (req : RegistrationRequest)
    (secret : String) (state : TokenState) :
    (registerMachine sha256).finish amb 3 [.validate req secret] state =
      some (state.storage.elim state fun tables =>
        (state.registerFirst sha256 amb req secret tables).1) := by
  cases stored : state.storage with
  | none => simp [Machine.finish, registerMachine, execRegister, stored]
  | some tables =>
    cases read : tables.validateRegistrationToken amb (sha256 req.registrationToken) with
    | error =>
      simp [Machine.finish, registerMachine, execRegister, stored, TokenState.registerFirst, read]
    | ok =>
      cases written : amb.ok .upsertWorker <;> cases counted : amb.ok .incrementWorkerTokenUses <;>
        simp [Machine.finish, registerMachine, execRegister, stored, TokenState.registerFirst, read, written,
          counted, TokenState.store, TokenState.accept]

end Chola
