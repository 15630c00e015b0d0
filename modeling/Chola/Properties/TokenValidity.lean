import Chola.Auth.Tokens

namespace Chola

open Base Keyed TokenState List Bool

/-- A token that was issued, with what has become of it. One got at a first registration has no row
of its own. -/
structure Issue where
  token : String
  id : Option Uuid
  workerId : Option String
  expiresAt : Option Timestamp
  (active withdrawn : Bool)

namespace Issue

def live (issue : Issue) : Bool := issue.active && !issue.withdrawn

def expired (now : Timestamp) (issue : Issue) : Bool := issue.expiresAt.any (fun expiry => expiry < now)

def setActive (id : Uuid) (active : Bool) (issue : Issue) : Issue :=
  if issue.id = some id then { issue with active := active } else issue

def withdraw (id : Uuid) (issue : Issue) : Issue :=
  if issue.id = some id then { issue with withdrawn := true } else issue

/-- The tokens of a worker go when it gets another one or is deleted. -/
def withdrawFor (workerId : String) (issue : Issue) : Issue :=
  if issue.workerId = some workerId then { issue with withdrawn := true } else issue

/-- The issue is of the token, and the token was got at a first registration and has not been taken
back. -/
def isUnlisted (token : String) (issue : Issue) : Bool :=
  issue.token = token && issue.id.isNone && issue.live

@[simp] theorem setActive_kept {id : Uuid} {active : Bool} {issue : Issue} :
    (issue.setActive id active).token = issue.token ∧ (issue.setActive id active).id = issue.id ∧
      (issue.setActive id active).workerId = issue.workerId ∧
      (issue.setActive id active).withdrawn = issue.withdrawn := by
  unfold setActive
  split <;> exact ⟨rfl, rfl, rfl, rfl⟩

@[simp] theorem withdrawFor_kept (workerId : String) (issue : Issue) :
    (issue.withdrawFor workerId).token = issue.token ∧ (issue.withdrawFor workerId).id = issue.id ∧
      (issue.withdrawFor workerId).workerId = issue.workerId ∧
      (issue.withdrawFor workerId).active = issue.active := by
  unfold withdrawFor
  split <;> exact ⟨rfl, rfl, rfl, rfl⟩

variable {issue : Issue}

theorem withdrawn_of_withdrawFor {workerId : String}
    (kept : (issue.withdrawFor workerId).withdrawn = false) :
    issue.withdrawn = false ∧ issue.workerId ≠ some workerId := by
  unfold withdrawFor at kept
  split at kept
  · cases kept
  · rename_i other
    exact ⟨kept, other⟩

end Issue

/-- What an operation does to the tokens that were issued, going by its answer. -/
def record (sha256 : String → String) (amb : TokenAmbient) (request : TokenRequest) (state : TokenState)
    (ledger : List Issue) : List Issue :=
  match request, (handle sha256 amb request state).2 with
  | .register _ req _, .ok (some token) => ⟨token, none, some req.workerId, none, true, false⟩ :: ledger
  | .create _ body id _, .ok (some token) =>
    ⟨token, some id, body.workerId, body.expiresAt, true, false⟩ :: ledger
  | .setActive _ id active, .ok _ => ledger.map (Issue.setActive id active)
  | .deleteOne _ id, .ok _ => ledger.map (Issue.withdraw id)
  | .registerWorker _ workerId _ id _, .ok (some token)
  | .regenerateToken _ workerId id _, .ok (some token) =>
    ⟨token, some id, some workerId, none, true, false⟩ :: ledger.map (Issue.withdrawFor workerId)
  | .deleteWorker _ workerId, .ok _ | .deleteWorker _ workerId, .error (.notFound _) =>
    ledger.map (Issue.withdrawFor workerId)
  | _, _ => ledger

/-- The token was issued, has not been taken back and has not expired. -/
def isValid (now : Timestamp) (token : String) (ledger : List Issue) : Bool :=
  ledger.any (fun issue => issue.token = token && issue.live && !issue.expired now)

def isLive (token : String) (ledger : List Issue) : Bool :=
  ledger.any (fun issue => issue.token = token && issue.live)

def TokenAmbient.succeeds (amb : TokenAmbient) : Bool :=
  [.listWorkerTokens, .loadWorkers, .createWorkerToken, .updateWorkerTokenActive, .deleteWorkerToken,
    .deactivateTokensForWorker, .getWorkerTokenByHash, .getTokenWorkerId, .getWorkerByTokenHash, .getWorker,
    .upsertWorker, .incrementWorkerTokenUses, .registerWorker, .deleteWorker,
      .updateWorkerApproved].all amb.ok

/-- The token and the identifier that an operation draws have not been drawn before. -/
def drawsNew (ledger : List Issue) : TokenRequest → Bool
  | .register _ _ secret => ledger.all (fun issue => issue.token ≠ generateWorkerToken secret)
  | .create _ body id secret => ledger.all (fun issue =>
      issue.token ≠ generateToken (body.scope.getD "shared") secret && issue.id ≠ some id)
  | .registerWorker _ _ _ id secret | .regenerateToken _ _ id secret => ledger.all (fun issue =>
      issue.token ≠ generateWorkerToken secret && issue.id ≠ some id)
  | _ => true

/-- The token does not come back after it was taken back, and it is not one that only the row of its
worker has when the accepted hashes are read again or that worker registers a first time once more.
-/
def keepsToken (sha256 : String → String) (token : String) (amb : TokenAmbient) (request : TokenRequest)
    (state : TokenState) (ledger : List Issue) : Bool :=
  match request with
  | .register _ req _ =>
    if req.workerToken.isEmpty then
      ledger.all (fun issue => !issue.isUnlisted token || issue.workerId ≠ some req.workerId)
    else req.workerToken ≠ token || isLive token ledger
  | .setApproved .. => true
  | request => (record sha256 amb request state ledger).all (fun issue => !issue.isUnlisted token) &&
      match request with
      | .setActive _ id true =>
        ledger.all (fun issue => issue.token ≠ token || issue.id ≠ some id || !issue.withdrawn)
      | _ => true

abbrev LedgerState := TokenState × List Issue

/-- The statements succeed, what is drawn is new, and the token is kept; the controller restarts
only while no worker's row has the hash of the token after it was taken back. -/
def steadyToken (sha256 : String → String) (token : String) :
    Discipline LedgerState TokenRequest TokenAmbient TokenRequest where
  spawn _ _ := true
  exec amb request cfg := amb.succeeds && drawsNew cfg.state.2 request &&
    keepsToken sha256 token amb request cfg.state.1 cfg.state.2
  crash amb cfg := amb.succeeds && (!(cfg.state.1.storage.any (fun tables =>
    tables.workerHashes.contains (sha256 token))) || isLive token cfg.state.2)

def ledgerMachine (sha256 : String → String) :
    Machine LedgerState TokenRequest TokenAmbient TokenRequest :=
  (tokenMachine sha256).observed (record sha256)

def noTokens (cfg : AuthConfig) (stored : Bool) : Config LedgerState TokenRequest :=
  ⟨(⟨cfg, if stored then some .empty else none, []⟩, []), []⟩

/-- Every token that has not been taken back is in a row of its own or in that of its worker; every
row is of an issued token, and not active if the token at hand was taken back; and a worker has one
token. -/
structure Tracks (sha256 : String → String) (token : String) (tables : TokenTables) (ledger : List Issue) :
    Prop where
  rowed : ∀ issue ∈ ledger, ∀ id, issue.id = some id → issue.withdrawn = false →
    ∃ row, tables.tokens.get? id = some row ∧ row.tokenHash = sha256 issue.token ∧
      row.active = issue.active ∧ row.workerId = issue.workerId
  listed : ∀ id row, tables.tokens.get? id = some row → ∃ issue ∈ ledger, issue.id = some id ∧
    row.tokenHash = sha256 issue.token ∧ (issue.token = token → row.active = true → issue.withdrawn = false)
  bound : ∀ left right row other workerId, tables.tokens.get? left = some row →
    tables.tokens.get? right = some other → row.workerId = some workerId →
      other.workerId = some workerId → left = right
  granted : ∀ issue ∈ ledger, issue.token = token → issue.id = none → issue.withdrawn = false →
    issue.active = true ∧ ∃ workerId row, issue.workerId = some workerId ∧
      tables.workers.get? workerId = some row ∧ row.workerTokenHash = some (sha256 token)

namespace Tracks

variable {token workerId : String} {tables : TokenTables} {ledger : List Issue}

theorem empty (sha256 : String → String) (token : String) : Tracks sha256 token .empty [] where
  rowed _ mem := by cases mem
  listed _ _ found := by cases found
  bound _ _ _ _ _ found := by cases found
  granted _ mem := by cases mem

theorem mem_activeHashes {hash : String} : hash ∈ tables.activeHashes ↔
    ∃ id row, tables.tokens.get? id = some row ∧ row.active = true ∧ row.tokenHash = hash := by
  simp only [TokenTables.activeHashes, mem_map, mem_filter, mem_values_iff]
  constructor
  · rintro ⟨row, ⟨found, active⟩, same⟩
    exact ⟨row.id, row, found, active, same⟩
  · rintro ⟨id, row, found, active, same⟩
    exact ⟨row, ⟨(mem_values_iff _ _).mp (mem_values_of_get? found), active⟩, same⟩

theorem get?_deactivate {tables : TokenTables} {workerId : String} {id : Uuid} :
    (tables.deactivateTokensForWorker workerId).tokens.get? id =
      (tables.tokens.get? id).map (DbWorkerToken.deactivateFor workerId) :=
  get?_updateAll _ (DbWorkerToken.deactivateFor_id workerId) _ id

theorem get?_upsertWorker {row : WorkerRow} {tables : TokenTables} :
    (tables.upsertWorker row).workers.get? workerId =
      if workerId = row.workerId then some (match tables.workers.get? row.workerId with
        | none => row
        | some old => { row with
            workerTokenHash := row.workerTokenHash <|> old.workerTokenHash
            registrationTokenId := row.registrationTokenId <|> old.registrationTokenId
            approved := old.approved })
      else tables.workers.get? workerId := by
  refine (get?_add _ _ workerId).trans ?_
  cases tables.workers.get? row.workerId <;> rfl

section Kept

variable (tracks : Tracks sha256 token tables ledger)
include tracks

theorem live_of_active (injective : Function.Injective sha256)
    (listed : sha256 token ∈ tables.activeHashes) : isLive token ledger = true := by
  obtain ⟨id, row, found, active, same⟩ := mem_activeHashes.mp listed
  obtain ⟨issue, mem, named, hash, kept⟩ := tracks.listed id row found
  have own : issue.token = token := injective (hash.symm.trans same)
  have lasts := kept own active
  obtain ⟨_, there, -, activity, -⟩ := tracks.rowed issue mem id named lasts
  rw [found] at there
  cases there
  refine any_eq_true.mpr ⟨issue, mem, ?_⟩
  simp [own, Issue.live, ← activity, active, lasts]

variable {issue : Issue} {row : DbWorkerToken} {other : TokenTables} {given : String}

theorem active_of_live (live : isLive token ledger = true) :
    sha256 token ∈ tables.activeHashes ∨ ∃ issue ∈ ledger, issue.isUnlisted token = true := by
  obtain ⟨issue, mem, tests⟩ := any_eq_true.mp live
  simp only [Issue.live, and_eq_true, not_eq_true', decide_eq_true_eq] at tests
  cases named : issue.id with
  | none => exact .inr ⟨issue, mem, by simp [Issue.isUnlisted, Issue.live, tests, named]⟩
  | some id =>
    obtain ⟨row, found, hash, activity, -⟩ := tracks.rowed issue mem id named tests.2.2
    exact .inl (mem_activeHashes.mpr ⟨id, row, found, activity.trans tests.2.1, tests.1 ▸ hash⟩)

theorem start (injective : Function.Injective sha256)
    (kept : sha256 token ∈ tables.workerHashes → isLive token ledger = true) :
    sha256 token ∈ tables.workerHashes ++ tables.activeHashes ↔ isLive token ledger = true := by
  rw [mem_append]
  refine ⟨fun known => known.elim kept (tracks.live_of_active injective), fun live => ?_⟩
  rcases tracks.active_of_live live with listed | ⟨issue, mem, unlisted⟩
  · exact .inr listed
  · simp only [Issue.isUnlisted, Issue.live, and_eq_true, not_eq_true', decide_eq_true_eq,
      Option.isNone_iff_eq_none] at unlisted
    obtain ⟨⟨own, unnamed⟩, -, lasts⟩ := unlisted
    obtain ⟨-, _, row, -, found, hash⟩ := tracks.granted issue mem own unnamed lasts
    exact .inl (mem_filterMap.mpr ⟨row, mem_values_of_get? found, hash⟩)

theorem create (accepted : tables.canCreateWorkerToken row = true)
    (named : issue.id = some row.id) (hash : row.tokenHash = sha256 issue.token)
    (activity : row.active = issue.active) (owner : row.workerId = issue.workerId)
    (kept : issue.withdrawn = false)
    (fresh : ∀ old ∈ ledger, old.token ≠ issue.token ∧ old.id ≠ issue.id) :
    Tracks sha256 token (tables.createWorkerToken row) (issue :: ledger) := by
  simp only [TokenTables.canCreateWorkerToken, and_eq_true, Option.isNone_iff_eq_none,
    all_eq_true] at accepted
  obtain ⟨_, others⟩ := accepted
  have look (id : Uuid) : (tables.createWorkerToken row).tokens.get? id =
      if id = row.id then some row else tables.tokens.get? id := get?_add row _ id
  -- A row that was there has another owner than the new one.
  have apart {id : Uuid} {old : DbWorkerToken} {workerId : String}
      (found : tables.tokens.get? id = some old) (owned : row.workerId = some workerId) :
      old.workerId ≠ some workerId := by
    have tests := (others old (mem_values_of_get? found)).2
    simpa [owned] using tests
  refine ⟨fun old mem id own lasts => ?_, fun id stored found => ?_,
    fun left right stored other workerId there here owned also => ?_,
    fun old mem own unnamed lasts => ?_⟩
  · rcases mem_cons.mp mem with rfl | prior
    · rw [named] at own
      cases own
      exact ⟨row, by rw [look, if_pos rfl], hash, activity, owner⟩
    · obtain ⟨stored, found, facts⟩ := tracks.rowed old prior id own lasts
      refine ⟨stored, ?_, facts⟩
      rw [look, if_neg fun same => (fresh old prior).2 (by rw [own, named, same])]
      exact found
  · rw [look] at found
    split at found
    · rename_i same
      cases found
      exact ⟨issue, mem_cons_self, by rw [named, same], hash, fun _ _ => kept⟩
    · obtain ⟨old, prior, facts⟩ := tracks.listed id stored found
      exact ⟨old, mem_cons_of_mem _ prior, facts⟩
  · rw [look] at there here
    split at there <;> split at here
    · rename_i hit same
      rw [hit, same]
    · cases there
      exact absurd also (apart here owned)
    · cases here
      exact absurd owned (apart there also)
    · exact tracks.bound left right stored other workerId there here owned also
  · rcases mem_cons.mp mem with rfl | prior
    · rw [named] at unnamed
      cases unnamed
    · exact tracks.granted old prior own unnamed lasts

theorem of_altered (rows : ∀ id, other.tokens.get? id = (tables.tokens.get? id).bind alter)
    (workers : ∀ name row, tables.workers.get? name = some row →
      ∃ new, other.workers.get? name = some new ∧ new.workerTokenHash = row.workerTokenHash)
    (same : ∀ issue, (change issue).token = issue.token ∧ (change issue).id = issue.id ∧
      (change issue).workerId = issue.workerId ∧ (issue.id = none → (change issue).active = issue.active))
    (taken : ∀ issue, (change issue).withdrawn = false → issue.withdrawn = false)
    (hashes : ∀ row new, alter row = some new → new.tokenHash = row.tokenHash ∧
      ∀ name, new.workerId = some name → row.workerId = some name)
    (kept : ∀ row issue, issue.id = some row.id → row.active = issue.active → row.workerId = issue.workerId →
      (change issue).withdrawn = false →
        ∃ new, alter row = some new ∧ new.active = (change issue).active ∧ new.workerId = issue.workerId)
    (gone : ∀ row new, alter row = some new → new.active = true → ∀ issue ∈ ledger, issue.id = some row.id →
      issue.token = token → (row.active = true → issue.withdrawn = false ∧ row.workerId = issue.workerId) →
        (change issue).withdrawn = false) : Tracks sha256 token other (ledger.map change) := by
  have before {id : Uuid} {new : DbWorkerToken} (found : other.tokens.get? id = some new) :
      ∃ row, tables.tokens.get? id = some row ∧ alter row = some new := by
    rw [rows] at found
    exact Option.bind_eq_some_iff.mp found
  refine ⟨fun issue mem id named lasts => ?_, fun id new found => ?_,
    fun left right first second name there here owned also => ?_, fun issue mem own unnamed lasts => ?_⟩
  · obtain ⟨old, prior, rfl⟩ := mem_map.mp mem
    obtain ⟨text, sameId, owner, -⟩ := same old
    rw [sameId] at named
    obtain ⟨row, found, hash, active, owned⟩ := tracks.rowed old prior id named (taken old lasts)
    obtain ⟨new, altered, activity, place⟩ :=
      kept row old (by rw [named, key_of_get? found]) active owned lasts
    refine ⟨new, by rw [rows, found]; exact altered, ?_, activity, place.trans owner.symm⟩
    rw [(hashes row new altered).1, text, hash]
  · obtain ⟨row, there, altered⟩ := before found
    obtain ⟨issue, prior, named, hash, lasts⟩ := tracks.listed id row there
    obtain ⟨text, sameId, -, -⟩ := same issue
    refine ⟨_, mem_map_of_mem prior, sameId.trans named, ?_, fun own active => ?_⟩
    · rw [(hashes row new altered).1, text, hash]
    · rw [text] at own
      refine gone row new altered active issue prior (by rw [named, key_of_get? there]) own fun active => ?_
      obtain ⟨_, known, -, -, owned⟩ := tracks.rowed issue prior id named (lasts own active)
      rw [there] at known
      cases known
      exact ⟨lasts own active, owned⟩
  · obtain ⟨row, found, altered⟩ := before there
    obtain ⟨old, known, changed⟩ := before here
    exact tracks.bound left right row old name found known ((hashes row first altered).2 name owned)
      ((hashes old second changed).2 name also)
  · obtain ⟨old, prior, rfl⟩ := mem_map.mp mem
    obtain ⟨text, sameId, owner, activity⟩ := same old
    rw [text] at own
    rw [sameId] at unnamed
    obtain ⟨active, name, row, owned, found, hash⟩ := tracks.granted old prior own unnamed (taken old lasts)
    obtain ⟨new, there, sameHash⟩ := workers name row found
    exact ⟨(activity unnamed).trans active, name, new, owner.trans owned, there, sameHash.trans hash⟩

theorem of_like (rows : ∀ id, other.tokens.get? id = (tables.tokens.get? id).map touch)
    (like : ∀ row, (touch row).tokenHash = row.tokenHash ∧ (touch row).active = row.active ∧
      (touch row).workerId = row.workerId) (workers : ∀ name row, tables.workers.get? name = some row →
      ∃ new, other.workers.get? name = some new ∧ new.workerTokenHash = row.workerTokenHash) :
    Tracks sha256 token other ledger := by
  rw [← ledger.map_id]
  refine tracks.of_altered (fun id => (rows id).trans Option.map_eq_bind) workers
    (fun issue => ⟨rfl, rfl, rfl, fun _ => rfl⟩) (fun issue lasts => lasts) ?_ ?_ ?_
  · rintro row new altered
    cases altered
    exact ⟨(like row).1, fun name owned => (like row).2.2 ▸ owned⟩
  · intro row issue _ active owned _
    exact ⟨_, rfl, (like row).2.1.trans active, (like row).2.2.trans owned⟩
  · intro row new altered active issue _ _ _ lasts
    cases altered
    exact (lasts ((like row).2.1 ▸ active)).1

theorem setActive {id : Uuid}
    (kept : active = true → ∀ issue ∈ ledger, issue.token = token → issue.id = some id →
      issue.withdrawn = false) :
    Tracks sha256 token (tables.updateWorkerTokenActive id active)
      (ledger.map (Issue.setActive id active)) := by
  refine tracks.of_altered (fun other => (get?_update_eq_map id other
    (fun row : DbWorkerToken => { row with active := active }) (fun _ => rfl) _).trans
      Option.map_eq_bind) (fun _ row found => ⟨row, found, rfl⟩) (fun issue => ?_)
    (fun issue lasts => by simpa using lasts) (fun row new altered => ?_) ?_ ?_
  · obtain ⟨text, same, owner, -⟩ := Issue.setActive_kept
    refine ⟨text, same, owner, fun unnamed => ?_⟩
    rw [Issue.setActive, if_neg (by rw [unnamed]; exact nofun)]
  · cases altered
    dsimp only
    split <;> exact ⟨rfl, fun _ owned => owned⟩
  · intro row issue named activity owned _
    refine ⟨_, rfl, ?_, ?_⟩
    · simp only [Issue.setActive, named, Option.some_inj]
      split
      · rfl
      · exact activity
    · dsimp only
      split <;> exact owned
  · intro row new altered on issue mem named own lasts
    rw [(Issue.setActive_kept ..).2.2.2]
    cases altered
    dsimp only at on
    split at on
    · rename_i same
      exact kept on issue mem own (same ▸ named)
    · exact (lasts on).1

theorem of_taken {less : TokenTables}
    (rows : ∀ id, less.tokens.get? id = (tables.tokens.get? id).filter keep)
    (workers : less.workers = tables.workers)
    (same : ∀ issue, (change issue).token = issue.token ∧ (change issue).id = issue.id ∧
      (change issue).workerId = issue.workerId ∧ (change issue).active = issue.active)
    (taken : ∀ issue, (change issue).withdrawn = false → issue.withdrawn = false)
    (goes : ∀ issue row, issue.id = some row.id → issue.withdrawn = false → row.workerId = issue.workerId →
      (keep row = true ↔ (change issue).withdrawn = false)) :
    Tracks sha256 token less (ledger.map change) := by
  refine tracks.of_altered (fun id => (rows id).trans (Option.bind_guard _ keep).symm)
    (fun name row found => ⟨row, workers ▸ found, rfl⟩)
    (fun issue => ⟨(same issue).1, (same issue).2.1, (same issue).2.2.1,
      fun _ => (same issue).2.2.2⟩) taken ?_ ?_ ?_
  · intro row new altered
    obtain ⟨rfl, -⟩ := Option.guard_eq_some_iff.mp altered
    exact ⟨rfl, fun name owned => owned⟩
  · intro row issue named active owned lasts
    refine ⟨row, Option.guard_eq_some_iff.mpr ⟨rfl, ?_⟩, active.trans (same issue).2.2.2.symm, owned⟩
    exact (goes issue row named (taken issue lasts) owned).mpr lasts
  · intro row new altered active issue _ named _ lasts
    obtain ⟨rfl, stays⟩ := Option.guard_eq_some_iff.mp altered
    obtain ⟨kept, owned⟩ := lasts active
    exact (goes issue row named kept owned).mp stays

theorem delete (id : Uuid) :
    Tracks sha256 token (tables.deleteWorkerToken id) (ledger.map (Issue.withdraw id)) := by
  refine tracks.of_taken (fun other => get?_retain _ _ other) rfl
    (fun issue => by unfold Issue.withdraw; split <;> exact ⟨rfl, rfl, rfl, rfl⟩)
    (fun issue lasts => ?_) fun issue _ named lasts _ => ?_
  · unfold Issue.withdraw at lasts
    split at lasts
    · cases lasts
    · exact lasts
  rw [Issue.withdraw, named]
  split <;> simp_all

theorem deleteTokensOf (workerId : String) :
    Tracks sha256 token (tables.deleteTokensOf workerId) (ledger.map (Issue.withdrawFor workerId)) := by
  refine tracks.of_taken (fun other => get?_retain _ _ other) rfl (Issue.withdrawFor_kept workerId)
    (fun issue lasts => (Issue.withdrawn_of_withdrawFor lasts).1) fun issue _ _ lasts owned => ?_
  rw [Issue.withdrawFor, ← owned]
  split <;> simp_all

theorem deactivate (workerId : String) : Tracks sha256 token (tables.deactivateTokensForWorker workerId)
      (ledger.map (Issue.withdrawFor workerId)) := by
  refine tracks.of_altered (fun id => get?_deactivate.trans Option.map_eq_bind)
    (fun name row found => ⟨row, found, rfl⟩) (fun issue => by simp)
    (fun issue lasts => (Issue.withdrawn_of_withdrawFor lasts).1) ?_ ?_ ?_
  · intro row new altered
    cases altered
    simp only [DbWorkerToken.deactivateFor]
    split
    · exact ⟨rfl, nofun⟩
    · exact ⟨rfl, fun name owned => owned⟩
  · intro row issue _ activity owned lasts
    have different := (Issue.withdrawn_of_withdrawFor lasts).2
    have untouched : row.deactivateFor workerId = row := by
      rw [DbWorkerToken.deactivateFor, if_neg (by simp [owned, different])]
    exact ⟨row, congrArg some untouched, by simpa using activity, owned⟩
  · intro row new altered on issue _ _ _ lasts
    cases altered
    simp only [DbWorkerToken.deactivateFor] at on
    split at on
    · cases on
    · rename_i other
      obtain ⟨kept, owned⟩ := lasts on
      rw [Issue.withdrawFor, if_neg, kept]
      rw [← owned]
      simpa [on] using other

private theorem countUse {id : Uuid} : Tracks sha256 token (tables.incrementWorkerTokenUses id) ledger :=
  tracks.of_like (fun other => get?_update_eq_map id other
    (fun row : DbWorkerToken => { row with uses := row.uses + 1 }) (fun _ => rfl) _)
    (fun row => by split <;> exact ⟨rfl, rfl, rfl⟩) (fun _ row found => ⟨row, found, rfl⟩)

theorem enter (workerId : String) :
    Tracks sha256 token (tables.upsertWorker (TokenTables.blankWorker workerId)) ledger := by
  refine tracks.of_like (fun _ => Option.map_id'.symm) (fun row => ⟨rfl, rfl, rfl⟩) fun _ row found => ?_
  rw [get?_upsertWorker]
  split
  · rename_i same
    rw [same] at found
    simp only [found]
    exact ⟨_, rfl, rfl⟩
  · exact ⟨row, found, rfl⟩

private theorem approve (workerId : String) (approved : Bool) :
    Tracks sha256 token (tables.updateWorkerApproved workerId approved) ledger := by
  refine tracks.of_like (fun _ => Option.map_id'.symm) (fun row => ⟨rfl, rfl, rfl⟩) fun name row found => ?_
  have look := get?_update_eq_map workerId name (fun row : WorkerRow => { row with approved := approved })
    (fun _ => rfl) tables.workers
  rw [found] at look
  refine ⟨_, look, ?_⟩
  dsimp only
  split <;> rfl

theorem firstRegistration
    (spared : ∀ issue ∈ ledger, issue.isUnlisted token = true → issue.workerId ≠ some workerId) :
    Tracks sha256 token (tables.upsertWorker ⟨workerId, some (sha256 given), registration, true⟩)
      (⟨given, none, some workerId, none, true, false⟩ :: ledger) := by
  refine ⟨fun issue mem id named lasts => ?_, fun id row found => ?_, tracks.bound,
    fun issue mem own unnamed lasts => ?_⟩
  · rcases mem_cons.mp mem with rfl | prior
    · cases named
    · exact tracks.rowed issue prior id named lasts
  · obtain ⟨issue, prior, facts⟩ := tracks.listed id row found
    exact ⟨issue, mem_cons_of_mem _ prior, facts⟩
  · rcases mem_cons.mp mem with rfl | prior
    · refine ⟨rfl, workerId, _, rfl, get?_upsertWorker.trans (if_pos rfl), ?_⟩
      have own : given = token := own
      cases tables.workers.get? workerId <;> simp [own]
    · obtain ⟨active, owner, row, owned, found, hash⟩ := tracks.granted issue prior own unnamed lasts
      refine ⟨active, owner, row, owned, ?_, hash⟩
      rw [get?_upsertWorker, if_neg]
      · exact found
      · rintro rfl
        exact spared issue prior (by simp [Issue.isUnlisted, Issue.live, own, unnamed, active, lasts]) owned

/-- A regeneration that fails finds a token of the worker that is not active, so it takes nothing back. -/
theorem regenerate_refused (injective : Function.Injective sha256)
    (hash : row.tokenHash = sha256 given) (owned : row.workerId = some workerId)
    (fresh : ∀ issue ∈ ledger, issue.token ≠ given ∧ issue.id ≠ some row.id)
    (refused : (tables.deactivateTokensForWorker workerId).canCreateWorkerToken row = false) :
    Tracks sha256 token (tables.deactivateTokensForWorker workerId) ledger := by
  have absent : (tables.deactivateTokensForWorker workerId).tokens.get? row.id = none := by
    rw [get?_deactivate, Option.map_eq_none_iff, Option.eq_none_iff_forall_not_mem]
    intro old found
    obtain ⟨issue, mem, named, -⟩ := tracks.listed row.id old found
    exact (fresh issue mem).2 named
  simp only [TokenTables.canCreateWorkerToken, absent, Option.isNone_none, Bool.true_and,
    all_eq_false, mem_values_iff] at refused
  obtain ⟨other, found, tests⟩ := refused
  rw [get?_deactivate] at found
  obtain ⟨old, there, rfl⟩ := Option.map_eq_some_iff.mp found
  have sameHash : (old.deactivateFor workerId).tokenHash = old.tokenHash := by
    unfold DbWorkerToken.deactivateFor
    split <;> rfl
  obtain ⟨issue, mem, -, made, -⟩ := tracks.listed _ old there
  have apart : old.tokenHash ≠ row.tokenHash := by
    rw [made, hash]
    exact fun same => (fresh issue mem).1 (injective same)
  have kept : (old.deactivateFor workerId).workerId = some workerId := by
    simpa [sameHash, apart, owned] using tests
  have inactive : old.workerId = some workerId ∧ old.active = false := by
    unfold DbWorkerToken.deactivateFor at kept
    split at kept
    · cases kept
    · rename_i other
      exact ⟨kept, by simpa [kept] using other⟩
  refine tracks.of_like (fun id => ?_) (fun row => ⟨rfl, rfl, rfl⟩) (fun _ row found => ⟨row, found, rfl⟩)
  refine get?_deactivate.trans (Option.map_congr fun row known => if_neg fun tests => ?_)
  simp only [and_eq_true, decide_eq_true_eq] at tests
  obtain ⟨bound, active⟩ := tests
  have same := tracks.bound _ id old row workerId there known inactive.1 bound
  rw [← same, there] at known
  cases known
  exact absurd active (by simp [inactive.2])

end Kept

theorem deleteWorker (tracks : Tracks sha256 token tables (ledger.map (Issue.withdrawFor workerId))) :
    Tracks sha256 token (tables.deleteWorker workerId) (ledger.map (Issue.withdrawFor workerId)) := by
  have twice : (ledger.map (Issue.withdrawFor workerId)).map (Issue.withdrawFor workerId) =
      ledger.map (Issue.withdrawFor workerId) := by
    rw [map_map]
    refine map_congr_left fun issue _ => ?_
    simp only [Function.comp_apply, Issue.withdrawFor]
    split <;> simp_all
  have rows := tracks.deleteTokensOf workerId
  rw [twice] at rows
  refine ⟨rows.rowed, rows.listed, rows.bound, fun issue mem own unnamed lasts => ?_⟩
  obtain ⟨active, owner, row, owned, found, hash⟩ := rows.granted issue mem own unnamed lasts
  refine ⟨active, owner, row, owned, ?_, hash⟩
  refine (get?_retain _ _ owner).trans ?_
  rw [found, Option.filter_some, if_pos]
  rw [key_of_get? found]
  refine decide_eq_true fun same => ?_
  obtain ⟨_, -, rfl⟩ := mem_map.mp mem
  rw [(Issue.withdrawFor_kept ..).2.2.1] at owned
  exact (Issue.withdrawn_of_withdrawFor lasts).2 (same ▸ owned)

end Tracks

variable {amb : TokenAmbient}

theorem TokenAmbient.ok_of_succeeds (succeeds : amb.succeeds = true) (query : TokenQuery) :
    amb.ok query = true := by
  simp only [TokenAmbient.succeeds, all_eq_true] at succeeds
  exact succeeds query (by cases query <;> decide)

/-- What an operation can do while every statement succeeds. The new row of a token matters by its hash, its
identifier and its worker. -/
inductive Handled (sha256 : String → String) (amb : TokenAmbient) (state : TokenState) :
    TokenRequest → TokenState × TokenReply → Prop
  | refused (request : TokenRequest) (error : TokenError) (other : ∀ message, error ≠ .notFound message) :
      Handled sha256 amb state request (state, .error error)
  | unchanged (authorization : String) (req : RegistrationRequest) (secret : String) :
      Handled sha256 amb state (.register authorization req secret) (state, .ok none)
  | again {req : RegistrationRequest} (given : req.workerToken.isEmpty = false) :
      Handled sha256 amb state (.register authorization req secret)
        (state.accept (sha256 req.workerToken), .ok none)
  | first {req : RegistrationRequest} {id : Uuid} (found : state.storage = some tables)
      (blank : req.workerToken.isEmpty = true) :
      Handled sha256 amb state (.register authorization req secret)
        ((state.store ((tables.upsertWorker ⟨req.workerId,
          some (sha256 (generateWorkerToken secret)), some id,
          true⟩).incrementWorkerTokenUses id)).accept (sha256 (generateWorkerToken secret)),
          .ok (some (generateWorkerToken secret)))
  | created {body : CreateTokenRequest} {row : DbWorkerToken} (found : state.storage = some tables)
      (hash : row.tokenHash = sha256 (generateToken (body.scope.getD "shared") secret))
      (active : row.active = true) (owned : row.workerId = body.workerId)
      (accepted : tables.canCreateWorkerToken row = true) :
      Handled sha256 amb state (.create permitted body row.id secret)
        ((state.store (tables.createWorkerToken row)).refreshTokenHashes amb,
          .ok (some (generateToken (body.scope.getD "shared") secret)))
  | activity (id : Uuid) (active : Bool) (found : state.storage = some tables) :
      Handled sha256 amb state (.setActive permitted id active)
        ((state.store (tables.updateWorkerTokenActive id active)).refreshTokenHashes amb, .ok none)
  | deleted (id : Uuid) (found : state.storage = some tables) :
      Handled sha256 amb state (.deleteOne permitted id)
        ((state.store (tables.deleteWorkerToken id)).refreshTokenHashes amb, .ok none)
  | entered {row : DbWorkerToken} (found : state.storage = some tables)
      (hash : row.tokenHash = sha256 (generateWorkerToken secret)) (active : row.active = true)
      (owned : row.workerId = some workerId)
      (accepted : (tables.deleteTokensOf workerId).canCreateWorkerToken row = true) :
      Handled sha256 amb state (.registerWorker permitted workerId hostname row.id secret)
        ((state.store (tables.registerWorker workerId row)).refreshTokenHashes amb,
          .ok (some (generateWorkerToken secret)))
  | regenerated {row : DbWorkerToken} (found : state.storage = some tables)
      (hash : row.tokenHash = sha256 (generateWorkerToken secret)) (active : row.active = true)
      (owned : row.workerId = some workerId)
      (accepted : (tables.deactivateTokensForWorker workerId).canCreateWorkerToken row = true) :
      Handled sha256 amb state (.regenerateToken permitted workerId row.id secret)
        ((state.store ((tables.deactivateTokensForWorker workerId).createWorkerToken
          row)).refreshTokenHashes amb, .ok (some (generateWorkerToken secret)))
  | unregenerated {row : DbWorkerToken} (found : state.storage = some tables)
      (hash : row.tokenHash = sha256 (generateWorkerToken secret)) (owned : row.workerId = some workerId)
      (rejected : (tables.deactivateTokensForWorker workerId).canCreateWorkerToken row = false) :
      Handled sha256 amb state (.regenerateToken permitted workerId row.id secret)
        (state.store (tables.deactivateTokensForWorker workerId), .error .serverError)
  | removed (found : state.storage = some tables)
      (answer : reply = .ok none ∨ ∃ message, reply = .error (.notFound message)) :
      Handled sha256 amb state (.deleteWorker permitted workerId)
        (((state.store (tables.deactivateTokensForWorker workerId)).refreshTokenHashes amb).store
          ((tables.deactivateTokensForWorker workerId).deleteWorker workerId), reply)
  | approved (workerId : String) (approved : Bool) (found : state.storage = some tables) :
      Handled sha256 amb state (.setApproved permitted workerId approved)
        (state.store (tables.updateWorkerApproved workerId approved), .ok none)

namespace Handled

variable {amb : TokenAmbient}

theorem of_legacy {state : TokenState} :
    Handled sha256 amb state (.register authorization req secret) state.registerLegacy := by
  unfold registerLegacy
  split
  · exact .refused _ _ nofun
  · exact .unchanged ..

theorem of_succeeds (succeeds : amb.succeeds = true) {request : TokenRequest} {state : TokenState} :
    Handled sha256 amb state request (handle sha256 amb request state) := by
  have ok := amb.ok_of_succeeds succeeds
  cases request with
  | register _ req =>
    simp only [handle]
    split
    · rename_i error refusal
      refine .refused _ _ ?_
      simp only [authInterceptor] at refusal
      repeat' split at refusal
      all_goals cases refusal <;> exact nofun
    · unfold register
      split
      · exact of_legacy ..
      · rename_i tables found
        split
        · rename_i given
          have given : req.workerToken.isEmpty = false := by simpa using given
          simp only [registerAgain]
          repeat' split
          all_goals first | exact .refused _ _ nofun | exact .again given
        · rename_i blank
          have blank : req.workerToken.isEmpty = true := by simpa using blank
          split
          · unfold registerFirst
            split
            · exact .refused _ _ nofun
            · simp only [ok, Bool.not_true, Bool.false_eq_true, if_false, if_true]
              exact .first found blank
          · exact of_legacy ..
  | create =>
    simp only [handle, ok, Bool.true_and]
    repeat' split
    all_goals first | exact .refused _ _ nofun | skip
    rename_i tables found _ accepted
    exact .created found rfl rfl rfl accepted
  | setActive permitted id active =>
    simp only [handle, ok, if_true]
    repeat' split
    all_goals first | exact .refused _ _ nofun | exact .activity id active ‹_›
  | deleteOne permitted id =>
    simp only [handle, ok, if_true]
    repeat' split
    all_goals first | exact .refused _ _ nofun | exact .deleted id ‹_›
  | registerWorker =>
    simp only [handle, ok, Bool.true_and]
    repeat' split
    all_goals first | exact .refused _ _ nofun | skip
    rename_i tables found _ accepted
    exact .entered found rfl rfl rfl accepted
  | regenerateToken =>
    simp only [handle, ok, Bool.true_and, Bool.not_true, Bool.false_eq_true, if_false]
    repeat' split
    all_goals first | exact .refused _ _ nofun | skip
    · rename_i tables found accepted
      exact .regenerated found rfl rfl rfl accepted
    · rename_i tables found rejected
      exact .unregenerated found rfl rfl (Bool.eq_false_of_not_eq_true rejected)
  | deleteWorker =>
    simp only [handle, ok, Bool.not_true, Bool.false_eq_true, if_false]
    repeat' split
    all_goals first | exact .refused _ _ nofun | skip
    · rename_i tables found _
      exact .removed found (.inl rfl)
    · rename_i tables found _
      exact .removed found (.inr ⟨_, rfl⟩)
  | setApproved permitted workerId approved =>
    simp only [handle, ok, if_true]
    repeat' split
    all_goals first | exact .refused _ _ nofun | exact .approved workerId approved ‹_›

end Handled

/-- The tables go with the issued tokens, and the token is accepted as long as it has not been taken
back. -/
structure Steady (sha256 : String → String) (token : String) (state : LedgerState) : Prop where
  tracks : Tracks sha256 token (state.1.storage.getD .empty) state.2
  cached : sha256 token ∈ state.1.hashes ↔ isLive token state.2 = true

namespace Steady

variable {token : String} {ledger : List Issue}

variable {amb : TokenAmbient} {tables : TokenTables} {given : String}

theorem stored (held : Steady sha256 token (state, ledger))
    (tracks : Tracks sha256 token tables ledger) : Steady sha256 token (state.store tables, ledger) :=
  ⟨tracks, held.cached⟩

private theorem isLive_cons :
    isLive token (issue :: ledger) =
      (decide (issue.token = token) && issue.live || isLive token ledger) := rfl

theorem tracks_of_found (held : Steady sha256 token (state, ledger))
    (found : state.storage = some tables) : Tracks sha256 token tables ledger := by
  have tracks := held.tracks
  rw [show (state, ledger).1.storage = some tables from found] at tracks
  exact tracks

variable {id : Uuid}

theorem fresh_withdrawFor
    (fresh : ∀ issue ∈ ledger, issue.token ≠ given ∧ issue.id ≠ some id) {workerId : String} :
    ∀ issue ∈ ledger.map (Issue.withdrawFor workerId), issue.token ≠ given ∧ issue.id ≠ some id := by
  intro issue mem
  obtain ⟨old, prior, rfl⟩ := mem_map.mp mem
  simpa using fresh old prior

variable {sha256 : String → String} (injective : Function.Injective sha256)

include injective

theorem refreshed (ok : amb.ok .listWorkerTokens = true) (tracks : Tracks sha256 token tables ledger)
    (unlisted : ledger.all (fun issue => !issue.isUnlisted token) = true) (state : TokenState) :
    Steady sha256 token ((state.store tables).refreshTokenHashes amb, ledger) := by
  have reread : (state.store tables).refreshTokenHashes amb =
      { state with storage := some tables, hashes := tables.activeHashes } := by
    simp [refreshTokenHashes, store, ok]
  rw [reread]
  refine ⟨tracks, tracks.live_of_active injective, fun live => ?_⟩
  rcases tracks.active_of_live live with listed | ⟨issue, mem, unnamed⟩
  · exact listed
  · have other := all_eq_true.mp unlisted issue mem
    simp [unnamed] at other

variable (held : Steady sha256 token (state, ledger))

include held

theorem accepted (live : given = token → isLive token ledger = true) :
    Steady sha256 token (state.accept (sha256 given), ledger) := by
  refine ⟨held.tracks, ?_⟩
  refine mem_cons.trans ⟨fun known => ?_, fun lasts => .inr (held.cached.mpr lasts)⟩
  rcases known with same | known
  · exact live (injective same).symm
  · exact held.cached.mp known

theorem firstRegistration (found : state.storage = some tables)
    (spared : ∀ issue ∈ ledger, issue.isUnlisted token = true → issue.workerId ≠ some workerId) :
    Steady sha256 token
      ((state.store ((tables.upsertWorker ⟨workerId, some (sha256 given), some id,
        true⟩).incrementWorkerTokenUses id)).accept (sha256 given),
      ⟨given, none, some workerId, none, true, false⟩ :: ledger) := by
  refine ⟨((held.tracks_of_found found).firstRegistration spared).countUse, ?_⟩
  rw [isLive_cons, or_eq_true, ← held.cached]
  refine mem_cons.trans (or_congr ?_ Iff.rfl)
  rw [injective.eq_iff]
  simp [Issue.live, eq_comm]

theorem exec (succeeds : amb.succeeds = true) (fresh : drawsNew ledger request = true)
    (kept : keepsToken sha256 token amb request state ledger = true) :
    Steady sha256 token ((handle sha256 amb request state).1, record sha256 amb request state ledger) := by
  have ok := amb.ok_of_succeeds succeeds .listWorkerTokens
  have effect : Handled sha256 amb state request (handle sha256 amb request state) := .of_succeeds succeeds
  generalize answered : handle sha256 amb request state = result at effect
  unfold record
  rw [answered]
  cases effect with
  | refused request error other =>
    cases request with
    | deleteWorker =>
      cases error with
      | notFound message => exact absurd rfl (other message)
      | _ => exact held
    | _ => exact held
  | unchanged => exact held
  | again given =>
    simp only [keepsToken, given, Bool.false_eq_true, if_false] at kept
    refine held.accepted injective fun same => ?_
    simpa [same] using kept
  | first found blank =>
    simp only [keepsToken, blank, if_true, all_eq_true] at kept
    refine held.firstRegistration injective found fun issue mem unlisted => ?_
    simpa [unlisted] using kept issue mem
  | created found hash active owned accepted =>
    simp only [keepsToken, record, answered, Bool.and_true] at kept
    simp only [drawsNew, all_eq_true, Bool.and_eq_true, decide_eq_true_eq] at fresh
    exact refreshed injective ok
      ((held.tracks_of_found found).create accepted rfl hash active owned rfl fresh) kept state
  | activity id active found =>
    simp only [keepsToken, record, answered, Bool.and_eq_true] at kept
    refine refreshed injective ok ((held.tracks_of_found found).setActive ?_) kept.1 state
    rintro rfl issue mem own named
    have tests := all_eq_true.mp kept.2 issue mem
    simpa [own, named] using tests
  | deleted id found =>
    simp only [keepsToken, record, answered, Bool.and_true] at kept
    exact refreshed injective ok ((held.tracks_of_found found).delete id) kept state
  | entered found hash active owned accepted =>
    simp only [keepsToken, record, answered, Bool.and_true] at kept
    simp only [drawsNew, all_eq_true, Bool.and_eq_true, decide_eq_true_eq] at fresh
    exact refreshed injective ok
      ((((held.tracks_of_found found).enter _).deleteTokensOf _).create accepted rfl
      hash active owned rfl (fresh_withdrawFor fresh)) kept state
  | regenerated found hash active owned accepted =>
    simp only [keepsToken, record, answered, Bool.and_true] at kept
    simp only [drawsNew, all_eq_true, Bool.and_eq_true, decide_eq_true_eq] at fresh
    exact refreshed injective ok (((held.tracks_of_found found).deactivate _).create accepted rfl hash active
      owned rfl (fresh_withdrawFor fresh)) kept state
  | unregenerated found hash owned rejected =>
    simp only [drawsNew, all_eq_true, Bool.and_eq_true, decide_eq_true_eq] at fresh
    exact held.stored ((held.tracks_of_found found).regenerate_refused injective hash owned fresh rejected)
  | removed found answer =>
    rename_i workerId
    have tracks := (held.tracks_of_found found).deactivate workerId
    rcases answer with rfl | ⟨message, rfl⟩
    all_goals
      simp only [keepsToken, record, answered, Bool.and_true] at kept
      exact (refreshed injective ok tracks kept state).stored tracks.deleteWorker
  | approved workerId approved found =>
    exact held.stored ((held.tracks_of_found found).approve workerId approved)

theorem restart (succeeds : amb.succeeds = true)
    (kept : (!(state.storage.any (fun tables => tables.workerHashes.contains (sha256 token))) ||
      isLive token ledger) = true) : Steady sha256 token (state.start amb, ledger) := by
  have ok := amb.ok_of_succeeds succeeds
  cases found : state.storage with
  | none =>
    have tracks := held.tracks
    rw [show (state, ledger).1.storage = none from found] at tracks
    have none : state.start amb = { state with hashes := [] } := by rw [start, found]
    rw [none]
    exact ⟨held.tracks, tracks.start injective nofun⟩
  | some tables =>
    have read : state.start amb = { state with hashes := tables.workerHashes ++ tables.activeHashes } := by
      simp only [start, found, ok, if_true]
    rw [read]
    refine ⟨held.tracks, (held.tracks_of_found found).start injective fun mem => ?_⟩
    simpa [found, mem] using kept

omit held in
theorem step {before after : Config LedgerState TokenRequest}
    (step : Step (ledgerMachine sha256) (steadyToken sha256 token) before after)
    (held : Steady sha256 token before.state) : Steady sha256 token after.state := by
  rcases step.cases with ⟨request, -, rfl⟩ | ⟨_, amb, request, _, -, may, rfl⟩ | ⟨amb, may, rfl⟩
  · exact held
  · simp only [steadyToken, and_eq_true] at may
    exact held.exec injective may.1.1 may.1.2 may.2
  · simp only [steadyToken, and_eq_true] at may
    exact held.restart injective may.1 may.2

end Steady

theorem refreshTokenHashes_config {state : TokenState} :
    (state.refreshTokenHashes amb).config = state.config := by
  unfold refreshTokenHashes
  repeat' split
  all_goals rfl

theorem Handled.config (effect : Handled sha256 amb state request result) :
    result.1.config = state.config := by
  cases effect with
  | created | activity | deleted | entered | regenerated => exact refreshTokenHashes_config
  | removed => exact refreshTokenHashes_config
  | _ => rfl

variable {token : String}

theorem config_of_run {sha256 : String → String} {cfg : AuthConfig}
    (reached : Run (ledgerMachine sha256) (steadyToken sha256 token) (noTokens cfg stored) last) :
    last.state.1.config = cfg := by
  refine reached.invariant (fun system => system.state.1.config = cfg) (fun before _ step held => ?_) rfl
  rcases step.cases with ⟨request, -, rfl⟩ | ⟨_, amb, request, _, -, may, rfl⟩ | ⟨amb, -, rfl⟩
  · exact held
  · simp only [steadyToken, and_eq_true] at may
    have effect : Handled sha256 amb before.state.1 request (handle sha256 amb request before.state.1) :=
      .of_succeeds may.1.1
    exact effect.config.trans held
  · refine Eq.trans ?_ held
    change (before.state.1.start amb).config = _
    unfold start
    split <;> rfl

/-- A token that has not expired is valid as long as it has not been taken back. -/
theorem isValid_of_unexpired
    (unexpired : ∀ issue ∈ ledger, issue.token = token → issue.expired now = false) :
    isValid now token ledger = isLive token ledger := by
  induction ledger with
  | nil => rfl
  | cons issue _ ih =>
    have later := ih fun other mem => unexpired other (mem_cons_of_mem _ mem)
    have own := unexpired issue mem_cons_self
    simp only [isValid, isLive, any_cons] at later ⊢
    rw [later]
    by_cases same : issue.token = token
    · simp [own same]
    · simp [same]

/-- In every run that is steady for a token, the interceptor accepts it, while it has not expired, exactly
if it is valid. -/
theorem token_accepted_iff_valid {sha256 : String → String} (injective : Function.Injective sha256)
    {token : String} (formed : isToken token = true) {cfg : AuthConfig} (enabled : cfg.enabled = true)
    {stored : Bool} {last : Config LedgerState TokenRequest}
    (reached : Run (ledgerMachine sha256) (steadyToken sha256 token) (noTokens cfg stored) last)
    {now : Timestamp}
    (unexpired : ∀ issue ∈ last.state.2, issue.token = token → issue.expired now = false) :
    authInterceptor sha256 last.state.1.config last.state.1.hashes ("Bearer " ++ token) = .ok () ↔
      isValid now token last.state.2 = true := by
  have initial : Steady sha256 token (noTokens cfg stored).state := by
    cases stored <;> exact ⟨.empty sha256 token, by simp [noTokens, isLive]⟩
  have held := reached.invariant (fun system => Steady sha256 token system.state)
    (fun _ _ step held => held.step injective step) initial
  rw [config_of_run reached, isValid_of_unexpired unexpired, ← held.cached]
  -- The interceptor looks for the hash of the token among the accepted ones.
  simp only [authInterceptor, enabled, Bool.not_true, Bool.false_eq_true, if_false, stripText_append,
    Option.getD_some, formed, if_true]
  split
  · rename_i known
    exact ⟨fun _ => by simpa using known, fun _ => rfl⟩
  · rename_i unknown
    exact ⟨nofun, fun known => absurd known (by simpa using unknown)⟩

namespace Sample

def authOn : AuthConfig := ⟨true, none⟩

def tokenClock (seconds : Int) : TokenAmbient := ⟨seconds * 1000000000, fun _ => true, ""⟩

def operations (requests : List TokenRequest) : List (Label TokenAmbient TokenRequest) :=
  (requests.zipIdx.map fun (request, index) => [.spawn request, .run index (tokenClock index)]).flatten

def shared (id : Uuid) (secret : String) : TokenRequest :=
  .create true ⟨"ci", none, none, none, none⟩ id secret

/-- A worker comes with a registration token and gets one of its own. -/
def firstContact (workerId bearer secret : String) : TokenRequest :=
  .register ("Bearer " ++ bearer) ⟨workerId, "", bearer⟩ secret

def registrationToken : String := "chola_wkr_5d0c9a"

def ownToken : String := "chola_wkr_e41b73"

structure TokenView where
  (valid accepted expired : Bool)
  deriving DecidableEq

def tokenView (token : String) (system : Config LedgerState TokenRequest) : TokenView where
  valid := isValid 0 token system.state.2
  accepted := (authInterceptor id system.state.1.config system.state.1.hashes ("Bearer " ++ token)).isOk
  expired := system.state.2.any (Issue.expired 0)

/-- Everything may happen, except that a statement fails or that something is drawn twice. -/
def anyTokens : Discipline LedgerState TokenRequest TokenAmbient TokenRequest where
  spawn _ _ := true
  exec amb request cfg := amb.succeeds && drawsNew cfg.state.2 request
  crash amb _ := amb.succeeds

def firstTokens : List (Label TokenAmbient TokenRequest) :=
  operations [shared ⟨0x3f⟩ "5d0c9a", firstContact "w1" registrationToken "e41b73"]

end Sample

open Sample

/-- A worker registers, the controller restarts, and the worker is given another token; the one it
had is not accepted any more. -/
theorem token_accepted_iff_valid_replaced : ∃ last : Config LedgerState TokenRequest,
      Run (ledgerMachine id) (steadyToken id ownToken) (noTokens authOn true) last ∧
      tokenView ownToken last = ⟨false, false, false⟩ ∧
      (authInterceptor id last.state.1.config last.state.1.hashes ("Bearer " ++ ownToken) = .ok () ↔
        isValid 0 ownToken last.state.2 = true) := by
  refine (Run.exists_of_replay _ _ (firstTokens ++ [.crash (tokenClock 5)] ++
      [.spawn (.regenerateToken true "w1" ⟨0x40⟩ "a9027c"), .run 0 (tokenClock 6)]) _ _ _
    (by decide)).imp fun last ⟨reached, seen⟩ => ⟨reached, seen, ?_⟩
  have unexpired : last.state.2.any (Issue.expired 0) = false := congrArg TokenView.expired seen
  refine token_accepted_iff_valid Function.injective_id (by decide) rfl reached ?_
  intro issue mem _
  simpa using any_eq_false.mp unexpired issue mem

/-- A worker registers and gets a token of its own. Another token is made, and the worker's own is
not accepted any more although nobody took it back. -/
theorem own_token_forgotten : ∃ middle last : Config LedgerState TokenRequest,
      Run (ledgerMachine id) anyTokens (noTokens authOn true) middle ∧
      Run (ledgerMachine id) anyTokens middle last ∧
      tokenView ownToken middle = ⟨true, true, false⟩ ∧ tokenView ownToken last = ⟨true, false, false⟩ :=
  Run.exists_pair_of_replay _ _ _ firstTokens
    [.spawn (shared ⟨0x40⟩ "a9027c"), .run 2 (tokenClock 9)] id _ (tokenView ownToken) _ _ (by decide)

/-- The token that a regeneration replaced is accepted again after a restart. -/
example : ((ledgerMachine id).replay anyTokens (firstTokens ++
      [.spawn (.regenerateToken true "w1" ⟨0x40⟩ "a9027c"), .run 2 (tokenClock 6), .crash (tokenClock 7)])
    (noTokens authOn true)).map (tokenView ownToken) = some ⟨false, true, false⟩ := by
  decide

end Chola
