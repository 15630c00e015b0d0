import Chola.Fleet.Sample

namespace Chola

open Base TokenState TokenTables

def noteAccepted (_ : TokenAmbient) (step : RegisterStep) (_ : TokenState) (accepted : List Uuid) :
    List Uuid :=
  match step with
  | .count tokenId => tokenId :: accepted
  | _ => accepted

abbrev acceptances (sha256 : String → String) := (registerMachine sha256).observed noteAccepted

abbrev Acceptances := Config (TokenState × List Uuid) RegisterStep

/-- The step belongs to a registration for which the token was valid. -/
def RegisterStep.uses (tokenId : Uuid) : RegisterStep → Bool
  | .persist _ _ token => token.id = tokenId
  | .count id => id = tokenId
  | _ => false

/-- A registration looks at its token only when no other one uses the token, and uses are counted. -/
def countedUses (tokenId : Uuid) :
    Discipline (TokenState × List Uuid) RegisterStep TokenAmbient (RegistrationRequest × String) where
  spawn _ _ := true
  exec amb step cfg := match step with
    | .validate .. => cfg.inFlight (RegisterStep.uses tokenId) = 0
    | .persist .. => true
    | .count _ => amb.ok .incrementWorkerTokenUses
  crash _ _ := true

def TokenState.tokenRow (tokenId : Uuid) (state : TokenState) : Option DbWorkerToken :=
  state.storage.bind (fun tables => tables.tokens.get? tokenId)

/-- The uses of the token count the registrations that were accepted, and those under way still fit. -/
def Acceptances.Within (tokenId : Uuid) (limit used : Int) (cfg : Acceptances) : Prop :=
  ∃ row, cfg.state.1.tokenRow tokenId = some row ∧ row.maxUses = limit ∧
    used + cfg.state.2.count tokenId ≤ row.uses ∧
    row.uses + cfg.inFlight (RegisterStep.uses tokenId) ≤ max limit used

section Steps

variable {sha256 : String → String} {amb : TokenAmbient} {tokenId : Uuid} {limit : Int} {state : TokenState}

/-- What a step does to the row of a token, and what it announces. -/
inductive UseEffect (sha256 : String → String) (amb : TokenAmbient) (tokenId : Uuid) (state : TokenState)
    (step : RegisterStep) : Prop
  | quiet (kept : (execRegister sha256 amb step state).1.tokenRow tokenId = state.tokenRow tokenId)
      (fewer : (execRegister sha256 amb step state).2.countP (RegisterStep.uses tokenId) ≤
        (step.uses tokenId).toNat) (uncounted : step ≠ .count tokenId)
  | validated (req : RegistrationRequest) (secret : String) (token : DbWorkerToken)
      (looks : step = .validate req secret) (found : state.tokenRow tokenId = some token)
      (unspent : 0 < token.maxUses → token.uses < token.maxUses)
      (announces : execRegister sha256 amb step state = (state, [.persist req secret token]))
  | counted (counts : step = .count tokenId) (announces : (execRegister sha256 amb step state).2 = [])
      (now : amb.ok .incrementWorkerTokenUses = true →
        (execRegister sha256 amb step state).1.tokenRow tokenId =
        (state.tokenRow tokenId).map (fun row => { row with uses := row.uses + 1 }))

private theorem execRegister_effect (sha256 : String → String) {amb : TokenAmbient} {state : TokenState} :
    UseEffect sha256 amb tokenId state step := by
  cases stored : state.storage with
  | none =>
    by_cases counts : step = .count tokenId
    · exact .counted counts (by simp [execRegister, stored]) (by simp [execRegister, tokenRow, stored])
    · exact .quiet (by simp [execRegister, stored]) (by simp [execRegister, stored]) counts
  | some tables =>
    cases step with
    | validate req secret =>
      cases read : tables.validateRegistrationToken amb (sha256 req.registrationToken) with
      | error =>
        exact .quiet (by simp [execRegister, stored, read]) (by simp [execRegister, stored, read])
          (by rintro ⟨⟩)
      | ok token =>
        by_cases own : token.id = tokenId
        · have valid := read
          unfold validateRegistrationToken at valid
          repeat' split at valid
          all_goals cases valid
          rename_i listed _ _ unspent
          have found := (Keyed.mem_values_iff _ _).mp (List.mem_of_find?_eq_some listed)
          refine .validated req secret token rfl (by simpa [tokenRow, stored, own] using found)
            (fun limited => ?_)
            (by simp [execRegister, stored, read])
          by_contra spent
          exact unspent ⟨limited, not_lt.mp spent⟩
        · exact .quiet (by simp [execRegister, stored, read])
            (by simp [execRegister, stored, read, RegisterStep.uses, own]) (by rintro ⟨⟩)
    | persist req secret token =>
      cases written : amb.ok .upsertWorker with
      | false =>
        exact .quiet (by simp [execRegister, stored, written])
          (by simp [execRegister, stored, written]) (by rintro ⟨⟩)
      | true =>
        refine .quiet ?_ ?_ (by rintro ⟨⟩)
        · simp [execRegister, stored, written, tokenRow, store, accept, upsertWorker]
        · by_cases own : token.id = tokenId <;> simp [execRegister, stored, written, RegisterStep.uses, own]
    | count id =>
      by_cases own : id = tokenId
      · refine .counted (congrArg _ own) (by simp [execRegister, stored]) fun ok => ?_
        simp [execRegister, stored, ok, own, tokenRow, store, incrementWorkerTokenUses, Keyed.get?_update]
      · refine .quiet ?_ (by simp [execRegister, stored]) (fun counts => own (RegisterStep.count.inj counts))
        simp only [execRegister, stored]
        split
        · simp [tokenRow, store, incrementWorkerTokenUses, Keyed.get?_update, Ne.symm own, stored]
        · rfl

theorem within_of_fewer {before after : Acceptances} (within : before.Within tokenId limit used)
    (row : after.state.1.tokenRow tokenId = before.state.1.tokenRow tokenId)
    (accepted : after.state.2.count tokenId = before.state.2.count tokenId)
    (fewer : after.inFlight (RegisterStep.uses tokenId) ≤ before.inFlight (RegisterStep.uses tokenId)) :
    after.Within tokenId limit used := by
  obtain ⟨token, there, same, _, _⟩ := within
  exact ⟨token, row.trans there, same, by omega, by omega⟩

theorem Acceptances.Within.step {before after : Acceptances} (limited : 0 < limit)
    (within : before.Within tokenId limit used)
    (step : Step (acceptances sha256) (countedUses tokenId) before after) :
      after.Within tokenId limit used := by
  rcases step.cases with ⟨_, -, rfl⟩ | ⟨_, amb, ran, _, cur, may, rfl⟩ | ⟨amb, -, rfl⟩
  · exact within_of_fewer within rfl rfl (Config.inFlight_spawn ..).le
  · have traded := Config.inFlight_proceed (RegisterStep.uses tokenId) cur
      ((acceptances sha256).exec amb ran before.state).1 ((acceptances sha256).exec amb ran before.state).2
    cases execRegister_effect sha256 with
    | quiet kept fewer uncounted =>
      refine within_of_fewer within kept ?_ ?_
      · cases ran with
        | count => exact List.count_cons_of_ne (fun same => uncounted (congrArg _ same))
        | _ => rfl
      · have fewer : ((acceptances sha256).exec amb ran before.state).2.countP (RegisterStep.uses tokenId) ≤
            (ran.uses tokenId).toNat := fewer
        omega
    | validated req secret token looks found unspent announces =>
      obtain ⟨row, there, same, counted, fits⟩ := within
      cases there.symm.trans found
      subst looks
      have idle : before.inFlight (RegisterStep.uses tokenId) = 0 := of_decide_eq_true may
      have below := unspent (same ▸ limited)
      have out : ((acceptances sha256).exec amb (.validate req secret) before.state).2.countP
          (RegisterStep.uses tokenId) ≤ 1 := by
        refine List.countP_le_length.trans (Nat.le_of_eq ?_)
        exact congrArg (fun result => result.2.length) announces
      refine ⟨token, ?_, same, counted, by omega⟩
      exact (congrArg (fun result => result.1.tokenRow tokenId) announces).trans found
    | counted counts announces now =>
      obtain ⟨row, there, same, counted, fits⟩ := within
      subst counts
      have out : ((acceptances sha256).exec amb (.count tokenId) before.state).2 = [] := announces
      have use : RegisterStep.uses tokenId (.count tokenId) = true := decide_eq_true rfl
      rw [use, out, Bool.toNat_true, List.countP_nil] at traded
      refine ⟨{ row with uses := row.uses + 1 }, (now may).trans (by rw [there]; rfl), same, ?_, ?_⟩
      · change used + ((tokenId :: before.state.2).count tokenId : Nat) ≤ row.uses + 1
        rw [List.count_cons_self]
        omega
      · rw [out]
        dsimp only
        omega
  · refine within_of_fewer within ?_ rfl (Nat.zero_le _)
    change (start amb _).tokenRow tokenId = _
    unfold start
    split <;> rfl

/-- As long as the registrations with a token do not overlap and their uses are counted, no more are
accepted than the token allows. -/
theorem token_uses_limited {row : DbWorkerToken} {last : Acceptances}
    (there : state.tokenRow tokenId = some row) (limited : 0 < row.maxUses) (counted : 0 ≤ row.uses)
    (run : Run (acceptances sha256) (countedUses tokenId) ⟨(state, []), []⟩ last) :
    last.state.2.count tokenId ≤ row.maxUses := by
  have initial : Acceptances.Within tokenId row.maxUses row.uses ⟨(state, []), []⟩ :=
    ⟨row, there, rfl, by simp, by simp [Config.inFlight, Config.pending]⟩
  obtain ⟨_, -, -, _, _⟩ := run.invariant (Acceptances.Within tokenId row.maxUses row.uses)
    (fun _ _ step within => within.step limited step) initial
  omega

end Steps

namespace Sample

def singleUse : TokenState where
  config := ⟨true, none⟩
  storage := some { tokens := Keyed.empty.add { workerToken "w1" ⟨0x3f⟩ with maxUses := 1, workerId := none }
                    workers := .empty }
  hashes := []

def comes (workerId : String) : Label TokenAmbient (RegistrationRequest × String) :=
  .spawn (⟨workerId, "", "chola_wkr_w1"⟩, workerId)

def nextStatement (index : Nat) : Label TokenAmbient (RegistrationRequest × String) :=
  .run index (fleetClock 0).tokens

end Sample

open Sample

/-- One worker registers, and the next is turned away. -/
theorem token_uses_limited_twice :
    ∃ last : Acceptances, Run (acceptances id) (countedUses ⟨0x3f⟩) ⟨(singleUse, []), []⟩ last ∧
      last.state.2 = [⟨0x3f⟩] ∧ last.state.2.count ⟨0x3f⟩ ≤ (1 : Int) := by
  have there : singleUse.tokenRow ⟨0x3f⟩ =
      some { workerToken "w1" ⟨0x3f⟩ with maxUses := 1, workerId := none } := rfl
  exact (Run.exists_of_replay _ _ ([comes "w1"] ++ List.replicate 3 (nextStatement 0) ++ [comes "w2",
    nextStatement 1]) _ _ _ (by decide)).imp fun _ ⟨run, seen⟩ =>
      ⟨run, seen, token_uses_limited there (by decide) (by decide) run⟩

/-- Two workers come at once, and a token for one lets both in. -/
theorem token_used_twice_at_once :
    ∃ last : Acceptances, Run (acceptances id) .free ⟨(singleUse, []), []⟩ last ∧
      last.state.2 = [⟨0x3f⟩, ⟨0x3f⟩] :=
  Run.exists_of_replay (acceptances id) .free ([comes "w1", comes "w2", nextStatement 0, nextStatement 1] ++
    [nextStatement 0, nextStatement 0, nextStatement 1, nextStatement 1]) _ (fun cfg => cfg.state.2)
    [⟨0x3f⟩, ⟨0x3f⟩] (by decide)

end Chola
