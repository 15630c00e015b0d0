import Mathlib.Tactic.Linarith
import Chola.Auth.Sessions

namespace Chola

open Base Keyed Access List Bool

/-- The tokens issued with the time they expire, the sessions logged out, and the keys made and
revoked. -/
structure AccessLog where
  clock : Timestamp
  issued : List (Claims × Timestamp)
  loggedOut : List String
  keys : List (Uuid × String)
  revoked : List String

def AccessLog.empty (clock : Timestamp) : AccessLog := ⟨clock, [], [], [], []⟩

def RequestParts.session (lib : AuthLibraries) (now : Timestamp) (parts : RequestParts) : Option String :=
  match parts.credential with
  | .ok (.jwt token) => (lib.decodeToken now token).toOption.map Claims.jti
  | _ => none

def AccessLog.record (lib : AuthLibraries) (now : Timestamp) (request : AccessRequest)
    (reply : Except AccessError AccessReply) (log : AccessLog) : AccessLog :=
  match request, reply with
  | _, .ok (.loggedIn claims expiresAt) => { log with issued := (claims, expiresAt) :: log.issued }
  | .logout parts, .ok .loggedOut =>
    { log with loggedOut := (parts.session lib now).toList ++ log.loggedOut }
  | _, .ok (.keyCreated id key) => { log with keys := (id, key) :: log.keys }
  | _, .ok (.keyRevoked id) =>
    { log with revoked := (log.keys.filter (fun key => key.1 = id)).map Prod.snd ++ log.revoked }
  | _, _ => log

def watchAccess (lib : AuthLibraries) (amb : AccessAmbient) (request : AccessRequest) (access : Access)
    (log : AccessLog) : AccessLog :=
  { log with clock := amb.now }.record lib amb.now request (access.handle lib amb request).2

abbrev AccessSystem := Config (Access × AccessLog) AccessRequest

def loggedAccess (lib : AuthLibraries) :
    Machine (Access × AccessLog) AccessRequest AccessAmbient AccessRequest :=
  (accessMachine lib).observed (watchAccess lib)

def accessStart (enabled : Bool) (jwtExpirySecs : Int) (users : Keyed Uuid User User.id)
    (tokens : TokenTables) (clock : Timestamp) : AccessSystem :=
  ⟨(⟨enabled, jwtExpirySecs, users, .empty, .empty, tokens⟩, .empty clock), []⟩

/-- The update changes the role of the user or ends its activity. -/
def UpdateUserRequest.demotes (body : UpdateUserRequest) (user : User) : Bool :=
  body.role.any (fun role => UserRole.fromDbStr role ≠ user.role) || body.active = some false

def Access.hasSession (access : Access) (now : Timestamp) (id : Uuid) : Bool :=
  access.sessions.values.any
    (fun session => session.userId = id && !session.revoked && now < session.expiresAt)

/-- The clock does not go back, and what is drawn is new. The rights of a user change only while it
has no session, and a logout is by header and succeeds. -/
def rightsHeld (lib : AuthLibraries) :
    Discipline (Access × AccessLog) AccessRequest AccessAmbient AccessRequest where
  spawn _ _ := true
  exec amb request cfg := cfg.state.2.clock ≤ amb.now && match request with
    | .login _ _ jti => cfg.state.2.issued.all (fun issue => issue.1.jti ≠ lib.uuidText jti)
    | .createApiKey _ _ _ secret => cfg.state.2.keys.all (fun key => key.2 ≠ "chola_" ++ secret)
    | .logout parts => (parts.session lib amb.now).isNone ||
        (parts.authorization.isSome && amb.ok .revokeSession)
    | .updateUser _ id body => (cfg.state.1.users.get? id).all (fun user => !body.demotes user) ||
        !cfg.state.1.hasSession amb.now id
    | _ => true
  crash _ _ := true

/-- A session stands for a token that was issued for its user, who has the rights in it until it expires. -/
structure Backed (lib : AuthLibraries) (access : Access) (log : AccessLog) (session : Session)
    (claims : Claims) : Prop where
  issued : (claims, session.expiresAt) ∈ log.issued
  named : claims.jti = session.tokenJti
  sub : claims.sub = lib.uuidText session.userId
  user : log.clock < session.expiresAt → ∃ user, access.users.get? session.userId = some user ∧
    user.active = true ∧ UserRole.fromDbStr claims.role = user.role

structure Rightful (lib : AuthLibraries) (access : Access) (log : AccessLog) : Prop where
  enabled : access.enabled = true
  backed : ∀ jti session, access.sessions.get? jti = some session → session.revoked = false →
    ∃ claims, Backed lib access log session claims
  unique : ∀ first ∈ log.issued, ∀ second ∈ log.issued, first.1.jti = second.1.jti → first = second
  ended : ∀ jti ∈ log.loggedOut, (∃ issue ∈ log.issued, issue.1.jti = jti) ∧
    ∀ session, access.sessions.get? jti = some session → session.revoked = true
  made : ∀ id key, access.apiKeys.get? id = some key → ∃ raw, (id, raw) ∈ log.keys ∧
    key.keyHash = lib.sha256 raw
  single : ∀ first ∈ log.keys, ∀ second ∈ log.keys, first.2 = second.2 → first = second
  gone : ∀ raw ∈ log.revoked, (∃ id, (id, raw) ∈ log.keys) ∧
    ∀ id key, access.apiKeys.get? id = some key → key.keyHash = lib.sha256 raw → key.revoked = true

section Steps

variable {lib : AuthLibraries} {access after : Access} {log : AccessLog}

variable {parts : RequestParts} {user : User}

private theorem credential_jwt (shown : parts.credential = .ok (.jwt token)) :
    ∃ header, parts.authHeader = some header ∧ stripText "Bearer " header = some token := by
  simp only [RequestParts.credential] at shown
  split at shown
  · split at shown <;> cases shown
  · split at shown
    · cases shown
    · rename_i header found
      refine ⟨header, found, ?_⟩
      split at shown
      · cases shown
      · cases shown
      · rename_i bearer
        cases shown
        exact bearer
      · cases shown

theorem session_of_admitted (admitted : access.resolveJwt lib amb token = .ok caller) :
    ∃ claims session, lib.decodeToken amb.now token = .ok claims ∧
      access.sessions.get? claims.jti = some session ∧ session.revoked = false ∧
      amb.now < session.expiresAt ∧ lib.parseUuid claims.sub = some caller.userId ∧
      caller.role = .fromDbStr claims.role := by
  simp only [resolveJwt] at admitted
  split at admitted
  · cases admitted
  · rename_i claims decoded
    split at admitted
    · cases admitted
    · rename_i valid
      simp only [not_eq_true', and_eq_true, not_eq_false, isSessionValid,
        Option.any_eq_true, decide_eq_true_eq] at valid
      obtain ⟨-, session, found, unrevoked, unexpired⟩ := valid
      split at admitted
      · cases admitted
      · rename_i id parsed
        cases admitted
        exact ⟨claims, session, decoded, found, unrevoked, unexpired, parsed, rfl⟩

variable (rightful : Rightful lib access log)
include rightful

theorem Rightful.backed_over {later : AccessLog}
    (sessions : after.sessions = access.sessions) (users : after.users = access.users)
    (issued : later.issued = log.issued) (clock : later.clock = log.clock) :
    ∀ jti session, after.sessions.get? jti = some session → session.revoked = false →
      ∃ claims, Backed lib after later session claims := by
  intro jti session found unrevoked
  obtain ⟨claims, backed⟩ := rightful.backed jti session (sessions ▸ found) unrevoked
  refine ⟨claims, issued ▸ backed.issued, backed.named, backed.sub, ?_⟩
  rw [clock, users]
  exact backed.user

theorem Rightful.later (le : log.clock ≤ now) : Rightful lib access { log with clock := now } := by
  refine ⟨rightful.enabled, ?_, rightful.unique, rightful.ended, rightful.made, rightful.single,
    rightful.gone⟩
  intro jti session found unrevoked
  obtain ⟨claims, backed⟩ := rightful.backed jti session found unrevoked
  exact ⟨claims, backed.issued, backed.named, backed.sub,
    fun unexpired => backed.user (lt_of_le_of_lt le unexpired)⟩

theorem Rightful.narrow (enabled : after.enabled = access.enabled)
    (sessions : ∀ jti session, after.sessions.get? jti = some session → session.revoked = false →
      access.sessions.get? jti = some session)
    (ended : ∀ jti session, after.sessions.get? jti = some session →
      ∃ old, access.sessions.get? jti = some old ∧ (old.revoked = true → session.revoked = true))
    (keys : ∀ id key, after.apiKeys.get? id = some key →
      ∃ old, access.apiKeys.get? id = some old ∧ old.keyHash = key.keyHash ∧
        (old.revoked = true → key.revoked = true))
    (users : ∀ jti session, after.sessions.get? jti = some session → session.revoked = false →
      log.clock < session.expiresAt → ∀ user, access.users.get? session.userId = some user →
        user.active = true → ∃ new, after.users.get? session.userId = some new ∧ new.active = true ∧
          new.role = user.role) : Rightful lib after log := by
  refine ⟨enabled.trans rightful.enabled, ?_, rightful.unique, ?_, ?_, rightful.single, ?_⟩
  · intro jti session found unrevoked
    obtain ⟨claims, backed⟩ := rightful.backed jti session (sessions jti session found unrevoked) unrevoked
    refine ⟨claims, backed.issued, backed.named, backed.sub, ?_⟩
    intro unexpired
    obtain ⟨user, present, active, role⟩ := backed.user unexpired
    obtain ⟨new, stays, stillActive, sameRole⟩ :=
      users jti session found unrevoked unexpired user present active
    exact ⟨new, stays, stillActive, role.trans sameRole.symm⟩
  · intro jti mem
    obtain ⟨issued, revoked⟩ := rightful.ended jti mem
    refine ⟨issued, ?_⟩
    intro session found
    obtain ⟨old, present, kept⟩ := ended jti session found
    exact kept (revoked old present)
  · intro id key found
    obtain ⟨old, present, same, -⟩ := keys id key found
    obtain ⟨raw, made, hashed⟩ := rightful.made id old present
    exact ⟨raw, made, same ▸ hashed⟩
  · intro raw mem
    obtain ⟨made, revoked⟩ := rightful.gone raw mem
    refine ⟨made, ?_⟩
    intro id key found hashed
    obtain ⟨old, present, same, kept⟩ := keys id key found
    exact kept (revoked id old present (same.trans hashed))

theorem Rightful.loggedIn {claims : Claims} (found : access.users.get? user.id = some user)
    (active : user.active = true) (sub : claims.sub = lib.uuidText user.id)
    (role : claims.role = user.role.asDbStr) (fresh : ∀ issue ∈ log.issued, issue.1.jti ≠ claims.jti) :
    Rightful lib (access.createSession ⟨claims.jti, user.id, expiresAt, false⟩)
      { log with issued := (claims, expiresAt) :: log.issued } := by
  refine ⟨rightful.enabled, ?_, ?_, ?_, rightful.made, rightful.single, rightful.gone⟩
  · intro jti session present unrevoked
    simp only [createSession, get?_add] at present
    split at present
    · cases present
      refine ⟨claims, mem_cons_self, rfl, sub, ?_⟩
      intro _
      exact ⟨user, found, active, by rw [role, UserRole.fromDbStr_asDbStr]⟩
    · obtain ⟨old, backed⟩ := rightful.backed jti session present unrevoked
      exact ⟨old, mem_cons_of_mem _ backed.issued, backed.named, backed.sub, backed.user⟩
  · intro first firstIssued second secondIssued same
    rcases mem_cons.mp firstIssued with rfl | firstOld <;>
      rcases mem_cons.mp secondIssued with rfl | secondOld
    · rfl
    · exact absurd same.symm (fresh second secondOld)
    · exact absurd same (fresh first firstOld)
    · exact rightful.unique first firstOld second secondOld same
  · intro jti mem
    obtain ⟨⟨issue, issued, named⟩, revoked⟩ := rightful.ended jti mem
    refine ⟨⟨issue, mem_cons_of_mem _ issued, named⟩, ?_⟩
    intro session present
    simp only [createSession, get?_add] at present
    split at present
    · rename_i own
      exact absurd (named.trans own) (fresh issue issued)
    · exact revoked session present

theorem Rightful.keyCreated (injective : Function.Injective lib.sha256) {id owner : Uuid}
    (fresh : ∀ key ∈ log.keys, key.2 ≠ raw) :
    Rightful lib (access.createApiKey ⟨id, owner, lib.sha256 raw, name, false⟩)
      { log with keys := (id, raw) :: log.keys } := by
  refine ⟨rightful.enabled, rightful.backed_over rfl rfl rfl rfl, rightful.unique, rightful.ended,
    ?_, ?_, ?_⟩
  · intro other key present
    simp only [createApiKey, get?_add] at present
    split at present
    · rename_i own
      cases present
      exact ⟨raw, own ▸ mem_cons_self, rfl⟩
    · obtain ⟨old, made, hashed⟩ := rightful.made other key present
      exact ⟨old, mem_cons_of_mem _ made, hashed⟩
  · intro first firstMade second secondMade same
    rcases mem_cons.mp firstMade with rfl | firstOld <;>
      rcases mem_cons.mp secondMade with rfl | secondOld
    · rfl
    · exact absurd same.symm (fresh second secondOld)
    · exact absurd same (fresh first firstOld)
    · exact rightful.single first firstOld second secondOld same
  · intro other mem
    obtain ⟨⟨old, made⟩, revoked⟩ := rightful.gone other mem
    refine ⟨⟨old, mem_cons_of_mem _ made⟩, ?_⟩
    intro name key present hashed
    simp only [createApiKey, get?_add] at present
    split at present
    · cases present
      exact absurd (injective hashed).symm (fresh (old, other) made)
    · exact revoked name key present hashed

theorem Rightful.keyRevoked (injective : Function.Injective lib.sha256)
    (id : Uuid) : Rightful lib (access.revokeApiKey id)
      { log with revoked := (log.keys.filter (fun key => key.1 = id)).map Prod.snd ++ log.revoked } := by
  have kept : ∀ other key, (access.revokeApiKey id).apiKeys.get? other = some key →
      ∃ old, access.apiKeys.get? other = some old ∧ old.keyHash = key.keyHash ∧
        (old.revoked = true → key.revoked = true) ∧ (other = id → key.revoked = true) := by
    intro other key present
    have present := (Keyed.get?_update id other (fun key : ApiKey => { key with revoked := true })
      (fun _ => rfl)
      _).symm.trans present
    split at present
    · obtain ⟨old, there, rfl⟩ := Option.map_eq_some_iff.mp present
      exact ⟨old, there, rfl, fun _ => rfl, fun _ => rfl⟩
    · rename_i apart
      exact ⟨key, present, rfl, fun revoked => revoked, fun own => absurd own apart⟩
  refine ⟨rightful.enabled, rightful.backed_over rfl rfl rfl rfl, rightful.unique, rightful.ended,
    ?_, rightful.single, ?_⟩
  · intro other key present
    obtain ⟨old, there, same, -, -⟩ := kept other key present
    obtain ⟨raw, made, hashed⟩ := rightful.made other old there
    exact ⟨raw, made, same ▸ hashed⟩
  · intro raw mem
    rcases mem_append.mp mem with new | old
    · obtain ⟨⟨own, _⟩, listed, rfl⟩ := mem_map.mp new
      obtain ⟨made, same⟩ := mem_filter.mp listed
      obtain rfl : own = id := of_decide_eq_true same
      refine ⟨⟨own, made⟩, ?_⟩
      intro other key present hashed
      obtain ⟨old, there, sameHash, -, revoked⟩ := kept other key present
      obtain ⟨raw, also, oldHashed⟩ := rightful.made other old there
      have equal := injective (oldHashed.symm.trans (sameHash.trans hashed))
      exact revoked (congrArg Prod.fst (rightful.single _ also _ made equal))
    · obtain ⟨made, revoked⟩ := rightful.gone raw old
      refine ⟨made, ?_⟩
      intro other key present hashed
      obtain ⟨before, there, sameHash, stays, -⟩ := kept other key present
      exact stays (revoked other before there (sameHash.trans hashed))

theorem Rightful.revokeSession (jti : String) : Rightful lib (access.revokeSession jti) log := by
  have kept : ∀ other session, (access.revokeSession jti).sessions.get? other = some session →
      ∃ old, access.sessions.get? other = some old ∧ (old.revoked = true → session.revoked = true) ∧
        (session.revoked = false → old = session) := by
    intro other session found
    rw [Access.get?_revokeSession] at found
    split at found
    · obtain ⟨old, present, rfl⟩ := Option.map_eq_some_iff.mp found
      exact ⟨old, present, fun _ => rfl, by rintro ⟨⟩⟩
    · exact ⟨session, found, fun revoked => revoked, fun _ => rfl⟩
  refine rightful.narrow rfl ?_ ?_ (fun _ key found => ⟨key, found, rfl, fun revoked => revoked⟩) ?_
  · intro other session found unrevoked
    obtain ⟨old, present, -, same⟩ := kept other session found
    exact same unrevoked ▸ present
  · intro other session found
    obtain ⟨old, present, stays, -⟩ := kept other session found
    exact ⟨old, present, stays⟩
  · intro _ session _ _ _ user present active
    exact ⟨user, present, active, rfl⟩

theorem Rightful.loggedOut (admitted : access.fromRequestParts lib amb parts = .ok caller)
    (held : (parts.session lib amb.now).isNone = true ∨
      (parts.authorization.isSome = true ∧ amb.ok .revokeSession = true)) :
    Rightful lib (access.logout lib amb parts)
      { log with loggedOut := (parts.session lib amb.now).toList ++ log.loggedOut } := by
  have kept : Rightful lib (access.logout lib amb parts) log := by
    simp only [logout]
    split
    · split
      · split
        · exact rightful.revokeSession _
        · exact rightful
      · exact rightful
    · exact rightful
  refine ⟨kept.enabled, kept.backed_over rfl rfl rfl rfl, kept.unique, ?_, kept.made, kept.single, kept.gone⟩
  intro jti mem
  rcases mem_append.mp mem with new | old
  · have named : parts.session lib amb.now = some jti := Option.mem_toList.mp new
    obtain ⟨present, succeeds⟩ := held.resolve_left (by simp [named])
    simp only [RequestParts.session] at named
    split at named
    · rename_i token shown
      obtain ⟨header, authHeader, bearer⟩ := credential_jwt shown
      simp only [fromRequestParts, rightful.enabled, Bool.not_true, Bool.false_eq_true, if_false, shown,
        resolve] at admitted
      obtain ⟨claims, session, decoded, found, unrevoked, -, -, -⟩ := session_of_admitted admitted
      obtain rfl : claims.jti = jti := by simpa [decoded, Except.toOption] using named
      obtain ⟨issued, backed⟩ := rightful.backed _ session found unrevoked
      refine ⟨⟨_, backed.issued, backed.named.trans (key_of_get? found)⟩, ?_⟩
      obtain ⟨given, authorization⟩ := Option.isSome_iff_exists.mp present
      obtain rfl : given = header := by simpa [RequestParts.authHeader, authorization] using authHeader
      intro _ there
      simp only [logout, authorization, Option.bind_some, bearer, decoded, succeeds, if_true,
        Access.get?_revokeSession] at there
      obtain ⟨old, -, rfl⟩ := Option.map_eq_some_iff.mp there
      rfl
    · cases named
  · exact kept.ended jti old

theorem Rightful.cleaned (now : Timestamp) : Rightful lib (access.cleanupExpiredSessions now) log := by
  have kept : ∀ jti session, (access.cleanupExpiredSessions now).sessions.get? jti = some session →
      access.sessions.get? jti = some session := by
    intro jti session found
    simp only [cleanupExpiredSessions, get?_retain, Option.filter_eq_some_iff] at found
    exact found.1
  exact rightful.narrow rfl (fun jti session found _ => kept jti session found)
    (fun jti session found => ⟨session, kept jti session found, fun revoked => revoked⟩)
    (fun _ key found => ⟨key, found, rfl, fun revoked => revoked⟩)
    (fun _ session _ _ _ user present active => ⟨user, present, active, rfl⟩)

theorem Rightful.writeUser
    (steady : ∀ jti session, access.sessions.get? jti = some session → session.userId = user.id →
      session.revoked = false → log.clock < session.expiresAt → ∀ old,
        access.users.get? user.id = some old → old.active = true →
          user.active = true ∧ user.role = old.role) : Rightful lib (access.writeUser user) log := by
  refine rightful.narrow rfl (fun jti session found _ => found)
    (fun jti session found => ⟨session, found, fun revoked => revoked⟩)
    (fun id key found => ⟨key, found, rfl, fun revoked => revoked⟩) ?_
  intro jti session found unrevoked unexpired old present active
  simp only [Access.writeUser, get?_add]
  split
  · rename_i own
    obtain ⟨stillActive, sameRole⟩ :=
      steady jti session found own unrevoked unexpired old (own ▸ present) active
    exact ⟨user, rfl, stillActive, sameRole⟩
  · exact ⟨old, present, active, rfl⟩

theorem Rightful.deleted (id : Uuid) : Rightful lib (access.deleteUser id) log := by
  have sessions : ∀ jti session, (access.deleteUser id).sessions.get? jti = some session →
      access.sessions.get? jti = some session ∧ session.userId ≠ id := by
    intro jti session found
    simpa [deleteUser, Option.filter_eq_some_iff] using found
  refine rightful.narrow rfl (fun jti session found _ => (sessions jti session found).1)
    (fun jti session found => ⟨session, (sessions jti session found).1, fun revoked => revoked⟩) ?_ ?_
  · intro _ key found
    simp only [deleteUser, get?_retain, Option.filter_eq_some_iff] at found
    exact ⟨key, found.1, rfl, fun revoked => revoked⟩
  · intro jti session found _ _ user present active
    refine ⟨user, ?_, active, rfl⟩
    have apart := (sessions jti session found).2
    simp [deleteUser, present, key_of_get? present, apart]

end Steps

variable {lib : AuthLibraries}

theorem Rightful.exec (injective : Function.Injective lib.sha256)
    (may : (rightsHeld lib).exec amb request cfg = true)
    (rightful : Rightful lib cfg.state.1 cfg.state.2) :
    Rightful lib (cfg.state.1.handle lib amb request).1
      (watchAccess lib amb request cfg.state.1 cfg.state.2) := by
  simp only [rightsHeld, Bool.and_eq_true, decide_eq_true_eq] at may
  obtain ⟨le, may⟩ := may
  have rightful := rightful.later le
  have effect := AccessEffect.of_handle lib amb request cfg.state.1
  rw [watchAccess]
  generalize answered : cfg.state.1.handle lib amb request = result at effect
  cases effect with
  | refused =>
    cases request <;> exact rightful
  | loggedIn user _ _ found active sub role named =>
    refine rightful.loggedIn found active sub role ?_
    intro issue issued same
    rw [named] at same
    simp only [all_eq_true, decide_eq_true_eq] at may
    exact may issue issued same
  | loggedOut _ admitted =>
    refine rightful.loggedOut admitted ?_
    simpa only [Bool.or_eq_true, Bool.and_eq_true] using may
  | cleaned => exact rightful.cleaned amb.now
  | keyCreated =>
    refine rightful.keyCreated injective ?_
    intro key mem same
    simp only [all_eq_true, decide_eq_true_eq] at may
    exact may key mem same
  | keyRevoked => exact rightful.keyRevoked injective _
  | created user own fresh =>
    refine rightful.writeUser ?_
    intro _ session _ _ _ _ old present
    rw [own, fresh] at present
    cases present
  | @updated _ body _ old hash found =>
    refine rightful.writeUser ?_
    intro jti session present own unrevoked unexpired before there active
    have same : old.id = _ := key_of_get? found
    have listed : cfg.state.1.users.get? old.id = some before := there
    rw [same, found] at listed
    cases listed
    simp only [Bool.or_eq_true, found, Option.all_some, Bool.not_eq_true'] at may
    rcases may with kept | absent
    · -- An update that is no demotion keeps the rights of an active user.
      simp only [UpdateUserRequest.demotes, Bool.or_eq_false_iff, decide_eq_false_iff_not] at kept
      refine ⟨?_, ?_⟩
      · cases given : body.active with
        | none => simpa [changedUser, given] using active
        | some value =>
          cases value with
          | true => simp [changedUser, given]
          | false => exact absurd given kept.2
      · cases given : body.role with
        | none => simp [changedUser, given]
        | some role => simpa [changedUser, given] using kept.1
    · have valid := any_eq_false.mp absent session (mem_values_of_get? present)
      simp only [own.trans same, unrevoked, Bool.not_false, Bool.and_true, decide_true, Bool.true_and,
        decide_eq_true_eq] at valid
      exact absurd unexpired valid
  | passwordSet old hash _ found =>
    refine rightful.writeUser ?_
    intro jti session present own unrevoked unexpired before there active
    rw [found] at there
    cases there
    exact ⟨active, rfl⟩
  | deleted => exact rightful.deleted _

theorem Rightful.step (injective : Function.Injective lib.sha256)
    {before after : AccessSystem} (step : Step (loggedAccess lib) (rightsHeld lib) before after)
    (rightful : Rightful lib before.state.1 before.state.2) : Rightful lib after.state.1 after.state.2 := by
  rcases step.cases with ⟨request, -, rfl⟩ | ⟨_, amb, request, _, _, may, rfl⟩ | ⟨amb, -, rfl⟩
  · exact rightful
  · exact rightful.exec injective may
  · exact rightful

/-- The credential is one that was given out and not taken back, and has not expired. -/
def AccessLog.good (lib : AuthLibraries) (now : Timestamp) (log : AccessLog) : Credential → Prop
  | .jwt token => ∃ claims expiresAt, lib.decodeToken now token = .ok claims ∧
    (claims, expiresAt) ∈ log.issued ∧ claims.jti ∉ log.loggedOut ∧ now < expiresAt
  | .apiKey key => (∃ id, (id, key) ∈ log.keys) ∧ key ∉ log.revoked
  | .runner _ => True

/-- Nobody but the controller has signed the token. -/
def AccessLog.Signed (lib : AuthLibraries) (now : Timestamp) (log : AccessLog) : Credential → Prop
  | .jwt token => ∀ claims, lib.decodeToken now token = .ok claims → ∃ expiresAt,
    (claims, expiresAt) ∈ log.issued
  | _ => True

/-- With authentication on, where rights change only without a session: whoever is admitted is an
active user with the role it is admitted with, and the token or key has not been taken back and has
not expired. -/
theorem admitted_with_current_rights {lib : AuthLibraries} (injective : Function.Injective lib.sha256)
    (readable : ∀ id, lib.parseUuid (lib.uuidText id) = some id) (jwtExpirySecs : Int)
    (users : Keyed Uuid User User.id) (tokens : TokenTables) (clock : Timestamp) {last : AccessSystem}
    (run : Run (loggedAccess lib) (rightsHeld lib) (accessStart true jwtExpirySecs users tokens clock) last)
    (amb : AccessAmbient) (le : last.state.2.clock ≤ amb.now) (parts : RequestParts)
    {credential : Credential}
    (shown : parts.credential = .ok credential) (personal : ∀ key, credential ≠ .runner key)
    (signed : last.state.2.Signed lib amb.now credential) {caller : AuthUser}
    (admitted : last.state.1.fromRequestParts lib amb parts = .ok caller) :
    (∃ user, last.state.1.users.get? caller.userId = some user ∧ user.active = true ∧
      user.role = caller.role) ∧ last.state.2.good lib amb.now credential := by
  have rightful : Rightful lib last.state.1 last.state.2 := by
    refine run.invariant (fun cfg => Rightful lib cfg.state.1 cfg.state.2)
      (fun _ _ step => Rightful.step injective step) ⟨rfl, ?_, ?_, ?_, ?_, ?_, ?_⟩
    · exact nofun
    · exact nofun
    · exact nofun
    · exact nofun
    · exact nofun
    · exact nofun
  simp only [fromRequestParts, rightful.enabled, Bool.not_true, Bool.false_eq_true, if_false,
    shown] at admitted
  cases credential with
  | runner key => exact absurd rfl (personal key)
  | apiKey raw =>
    simp only [resolve, resolveApiKey] at admitted
    split at admitted
    · cases admitted
    · split at admitted
      · cases admitted
      · rename_i key found
        split at admitted
        · cases admitted
        · split at admitted
          · cases admitted
          · rename_i user present
            split at admitted
            · cases admitted
            · rename_i active
              cases admitted
              obtain ⟨hashed, unrevoked⟩ : key.keyHash = lib.sha256 raw ∧ key.revoked = false := by
                simpa using List.find?_some found
              have there := (mem_values_iff _ _).mp (List.mem_of_find?_eq_some found)
              refine ⟨⟨user, key_of_get? present ▸ present, by simpa using active, rfl⟩, ?_, ?_⟩
              · obtain ⟨made, listed, also⟩ := rightful.made _ key there
                exact ⟨_, injective (also.symm.trans hashed) ▸ listed⟩
              · intro gone
                have revoked := (rightful.gone raw gone).2 _ key there hashed
                rw [unrevoked] at revoked
                cases revoked
  | jwt =>
    obtain ⟨claims, session, decoded, found, unrevoked, unexpired, parsed, role⟩ :=
      session_of_admitted admitted
    obtain ⟨issued, backed⟩ := rightful.backed _ session found unrevoked
    obtain ⟨expiresAt, also⟩ := signed claims decoded
    have same := rightful.unique _ backed.issued _ also (backed.named.trans (key_of_get? found))
    obtain ⟨rfl, rfl⟩ := Prod.mk.inj same
    refine ⟨?_, issued, session.expiresAt, decoded, backed.issued, ?_, unexpired⟩
    · obtain ⟨user, present, active, sameRole⟩ := backed.user (lt_of_le_of_lt le unexpired)
      rw [backed.sub, readable] at parsed
      have own := Option.some.inj parsed
      exact ⟨user, own ▸ present, active, by rw [role, sameRole]⟩
    · intro loggedOut
      have revoked := (rightful.ended _ loggedOut).2 session found
      rw [unrevoked] at revoked
      cases revoked

namespace Sample

def rootUser : User := ⟨⟨3⟩, "root", "Root1234", none, .superAdmin, true⟩

def eveUser : User := ⟨⟨4⟩, "eve", "Eve12345", none, .admin, true⟩

def strokes (id : Uuid) : String := String.ofList (List.replicate id.bits.toNat 'i')

def signedTokens : List (String × Claims) :=
  [("ey.root", ⟨"iii", "root", "super_admin", "iiiii", 3600, 0⟩),
    ("ey.eve", ⟨"iiii", "eve", "admin", "iiiiii", 3600, 0⟩)]

def authLibraries : AuthLibraries where
  sha256 := id
  decodeToken _ token :=
    match signedTokens.find? (fun signed => signed.1 = token) with
    | some signed => .ok signed.2
    | none => .error "InvalidToken"
  verifyPassword password hash := .ok (password = hash)
  uuidText := strokes
  parseUuid text := some ⟨BitVec.ofNat 128 text.length⟩
  isUppercase := Char.isUpper
  isNumeric := Char.isDigit

private theorem parseUuid_strokes (id : Uuid) : authLibraries.parseUuid (authLibraries.uuidText id) = some id := by
  simp [authLibraries, strokes]

def twoUsers : Keyed Uuid User User.id := (Keyed.empty.add rootUser).add eveUser

def accessClock (second : Int) : AccessAmbient := ⟨second * 1000000000, fun _ => true, some "hash"⟩

def bearer (token : String) : RequestParts := ⟨none, some ("Bearer " ++ token), []⟩

def accessSample : AccessSystem := accessStart true 3600 twoUsers .empty 0

def logins : List (Label AccessAmbient AccessRequest) :=
  [.spawn (.login "root" "Root1234" ⟨5⟩), .run 0 (accessClock 0),
    .spawn (.login "eve" "Eve12345" ⟨6⟩), .run 1 (accessClock 0)]

structure AccessView where
  caller : Option AuthUser
  row : Option User
  issued : List (Claims × Int)
  clock : Int
  deriving DecidableEq

def accessView (system : AccessSystem) : AccessView where
  caller := (system.state.1.fromRequestParts authLibraries (accessClock 60) (bearer "ey.eve")).toOption
  row := system.state.1.users.get? eveUser.id
  issued := system.state.2.issued
  clock := system.state.2.clock

def issuedTokens : List (Claims × Int) :=
  [(⟨"iiii", "eve", "admin", "iiiiii", 3600, 0⟩, 3600000000000),
    (⟨"iii", "root", "super_admin", "iiiii", 3600, 0⟩, 3600000000000)]

end Sample

open Sample

/-- A user that has logged in is admitted with its role. -/
theorem admitted_with_current_rights_login :
    ∃ last : AccessSystem, Run (loggedAccess authLibraries) (rightsHeld authLibraries) accessSample last ∧
      accessView last = ⟨some ⟨⟨4⟩, "eve", .admin⟩, some eveUser, issuedTokens, 0⟩ ∧
      ((∃ user, last.state.1.users.get? ⟨4⟩ = some user ∧ user.active = true ∧ user.role = .admin) ∧
        last.state.2.good authLibraries (accessClock 60).now (.jwt "ey.eve")) := by
  refine (Run.exists_of_replay _ _ logins _ _ _ (by decide)).imp fun last ⟨reached, seen⟩ =>
    ⟨reached, seen, ?_⟩
  have admitted : last.state.1.fromRequestParts authLibraries (accessClock 60) (bearer "ey.eve") =
      .ok ⟨⟨4⟩, "eve", .admin⟩ := by
    have caller : (last.state.1.fromRequestParts authLibraries (accessClock 60) (bearer "ey.eve")).toOption =
      some ⟨⟨4⟩, "eve", .admin⟩ := congrArg AccessView.caller seen
    revert caller
    cases last.state.1.fromRequestParts authLibraries (accessClock 60) (bearer "ey.eve") <;>
      simp [Except.toOption]
  have signed : last.state.2.Signed authLibraries (accessClock 60).now (.jwt "ey.eve") := by
    have issued : last.state.2.issued = issuedTokens := congrArg AccessView.issued seen
    intro _ decoded
    cases decoded
    rw [issued]
    exact ⟨3600000000000, mem_cons_self⟩
  have clock : last.state.2.clock = 0 := congrArg AccessView.clock seen
  refine admitted_with_current_rights Function.injective_id parseUuid_strokes 3600 twoUsers .empty 0 reached
    _ ?_ _ rfl ?_ signed admitted
  · rw [clock]
    decide
  · exact nofun

/-- The role of a user is taken down from admin to viewer. The token it got before admits it as admin. -/
theorem demoted_user_admitted_as_admin :
    ∃ last : AccessSystem, Run (loggedAccess authLibraries) .free accessSample last ∧
      accessView last = ⟨some ⟨⟨4⟩, "eve", .admin⟩, some { eveUser with role := .viewer }, issuedTokens,
        30000000000⟩ :=
  Run.exists_of_replay _ _ (logins ++ [.spawn (.updateUser (bearer "ey.root") ⟨4⟩
    ⟨none, some "viewer", none, none⟩), .run 2 (accessClock 30)]) _ accessView _ (by decide)

end Chola
