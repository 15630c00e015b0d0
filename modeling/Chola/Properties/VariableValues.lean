import Chola.Storage.Variables

namespace Chola

open Base VariableCall

/-- A call that makes a variable secret or public has a value. -/
def VariableCall.keepsForm (store : VariableStore) : VariableCall → Bool
  | updateVariable id _ _ _ none (some isSecret) => (store.rows.get? id).all
    (fun row => row.isSecret = isSecret)
  | _ => true

def VariableCall.keepForms (cipher : Cipher) :
    VariableStore × (Uuid → Option String) → List VariableCall → Bool
  | _, [] => true
  | state, call :: rest => call.keepsForm state.1 && keepForms cipher (follow cipher state call) rest

/-- The stored text of a value. -/
def Cipher.Stores (cipher : Cipher) (key : String) (value : String) (row : VariableRow) : Prop :=
  if row.isSecret then ∃ nonce, cipher.encryptValue key nonce value = some row.value else row.value = value

/-- Every row stores the plaintext that was last set. -/
structure Cipher.Kept (cipher : Cipher) (key : String) (state : VariableStore × (Uuid → Option String)) :
    Prop where
  keyed : state.1.encryptionKey = some key
  stored : ∀ id row, state.1.rows.get? id = some row →
    ∃ value, state.2 id = some value ∧ cipher.Stores key value row

variable {cipher : Cipher} {key : String}

theorem stores_of_maybeEncrypt {store : VariableStore} (keyed : store.encryptionKey = some key)
    (encrypted : store.maybeEncrypt cipher nonce value isSecret = some stored) {row : VariableRow}
    (text : row.value = stored) (form : row.isSecret = isSecret) : cipher.Stores key value row := by
  subst text form
  cases secret : row.isSecret with
  | true =>
    simp only [VariableStore.maybeEncrypt, secret, keyed] at encrypted
    simpa [Cipher.Stores, secret] using ⟨nonce, encrypted⟩
  | false =>
    simp only [VariableStore.maybeEncrypt, secret] at encrypted
    simpa [Cipher.Stores, secret] using (Option.some.inj encrypted).symm

theorem Cipher.Kept.follow {state : VariableStore × (Uuid → Option String)} {call : VariableCall}
    (kept : cipher.Kept key state) (keeps : call.keepsForm state.1 = true) :
    cipher.Kept key (follow cipher state call) := by
  unfold VariableCall.follow
  cases ran : call.run cipher state.1 with
  | none => exact kept
  | some _ =>
    cases call with
    | createVariable id nonce ok _ name value isSecret =>
      simp only [VariableCall.run, bind, Option.bind_eq_some_iff] at ran
      obtain ⟨stored, encrypted, ran⟩ := ran
      split at ran
      · cases ran
        refine ⟨kept.keyed, fun other row found => ?_⟩
        simp only [sets, Keyed.get?_add] at found ⊢
        split at found
        · rename_i same
          cases found
          exact ⟨value, by simp [same], stores_of_maybeEncrypt kept.keyed encrypted rfl rfl⟩
        · rename_i apart
          simpa [Function.update_of_ne apart] using kept.stored other row found
      · cases ran
    | updateVariable id nonce ok name value isSecret =>
      simp only [VariableCall.run, bind, Option.bind_eq_some_iff] at ran
      obtain ⟨encrypted, written, old, there, ran⟩ := ran
      split at ran
      · cases ran
        refine ⟨kept.keyed, fun other row found => ?_⟩
        simp only [Keyed.get?_update] at found ⊢
        split at found
        · rename_i same
          subst same
          rw [there] at found
          cases found
          cases value with
          | some value =>
            obtain ⟨stored, text, rfl⟩ := Option.map_eq_some_iff.mp written
            rw [there] at text
            exact ⟨value, by simp [sets], stores_of_maybeEncrypt kept.keyed text rfl rfl⟩
          | none =>
            cases written
            obtain ⟨value, set, stores⟩ := kept.stored other old there
            refine ⟨value, set, ?_⟩
            cases isSecret with
            | none => exact stores
            | some isSecret =>
              have form : old.isSecret = isSecret := by simpa [keepsForm, there] using keeps
              simpa [Cipher.Stores, VariableRow.coalesce, form] using stores
        · rename_i apart
          obtain ⟨plain, set, stores⟩ := kept.stored other row found
          refine ⟨plain, ?_, stores⟩
          cases value with
          | some value => exact (Function.update_of_ne apart _ _).trans set
          | none => exact set
      · cases ran

private theorem keepForms_kept {calls : List VariableCall} {state : VariableStore × (Uuid → Option String)}
    (kept : cipher.Kept key state) (keep : keepForms cipher state calls = true) :
    cipher.Kept key (calls.foldl (follow cipher) state) := by
  induction calls generalizing state with
  | nil => exact kept
  | cons _ _ ih =>
    rw [keepForms, Bool.and_eq_true] at keep
    exact ih (kept.follow keep.1) keep.2

/-- As long as a variable becomes secret or public only together with a new value, the last value is
stored in the right form and listed. -/
theorem variables_round_trip (cipher : Cipher) (key : String) (calls : List VariableCall)
    (inverts : ∀ nonce value encoded, cipher.encryptValue key nonce value = some encoded →
      cipher.decryptValue key encoded = some value)
    (keep : keepForms cipher (⟨some key, .empty⟩, fun _ => none) calls = true) :
    let state := calls.foldl (follow cipher) (⟨some key, .empty⟩, fun _ => none)
    (∀ id row, state.1.rows.get? id = some row →
      ∃ value, state.2 id = some value ∧ cipher.Stores key value row) ∧
      ∀ repoId, state.1.listVariablesForRepo cipher repoId = (state.1.rowsForRepo repoId).map (fun row =>
        { row.toPipelineVariable with value := (state.2 row.id).getD "" }) := by
  have empty : cipher.Kept key (⟨some key, .empty⟩, fun _ => none) := ⟨rfl, fun _ _ found => by cases found⟩
  have kept := keepForms_kept empty keep
  refine ⟨kept.stored, fun repoId => List.map_congr_left fun row mem => ?_⟩
  have found := (Keyed.mem_values_iff _ _).mp (List.mem_of_mem_filter ((List.mem_insertionSort _).mp mem))
  obtain ⟨value, set, stores⟩ := kept.stored row.id row found
  rw [set]
  cases secret : row.isSecret with
  | true =>
    simp only [Cipher.Stores, secret, if_true] at stores
    obtain ⟨nonce, encrypted⟩ := stores
    simp [VariableStore.maybeDecrypt, kept.keyed, inverts nonce value _ encrypted]
  | false =>
    simp only [Cipher.Stores, secret] at stores
    simpa [VariableStore.maybeDecrypt] using stores

namespace Sample

def marked : Cipher where
  encryptValue _ _ plaintext := some (String.ofList ('*' :: plaintext.toList))
  decryptValue _ encoded := match encoded.toList with
    | '*' :: rest => some (String.ofList rest)
    | _ => none

def stored (calls : List VariableCall) : VariableStore :=
  (calls.foldl (follow marked) (⟨some "key", .empty⟩, fun _ => none)).1

def texts (calls : List VariableCall) : List (String × String) :=
  ((stored calls).rowsForRepo ⟨7⟩).map (·.value) |>.zip
    (((stored calls).listVariablesForRepo marked ⟨7⟩).map (·.value))

def create (isSecret : Bool) : VariableCall := .createVariable ⟨1⟩ "" true ⟨7⟩ "TOKEN" "abc" isSecret

/-- A secret that is changed and then made public with another value. -/
theorem variable_made_public : let calls := [create true, .updateVariable ⟨1⟩ "" true none (some "def") none,
      .updateVariable ⟨1⟩ "" true none (some "ghi") (some false)]
    ((stored calls).listVariablesForRepo marked ⟨7⟩).map (·.value) = ["ghi"] := by
  intro calls
  have listed := (variables_round_trip marked "key" calls (by simp [marked]) (by decide)).2 ⟨7⟩
  refine (congrArg (List.map (·.value)) listed).trans ?_
  decide

/-- A secret that becomes public shows its encrypted text, and a public value that becomes secret stays
unencrypted. -/
theorem variable_form_stays :
    texts [create true, .updateVariable ⟨1⟩ "" true none none (some false)] = [("*abc", "*abc")] ∧
      texts [create false, .updateVariable ⟨1⟩ "" true none none (some true)] = [("abc", "abc")] := by
  decide

end Sample

end Chola
