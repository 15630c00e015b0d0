import Chola.Core.Proto

namespace Chola

open Base

/-- AES-256-GCM under the hash of a key, with the nonce in front of what it returns. -/
structure Cipher where
  encryptValue : (key nonce plaintext : String) → Option String
  decryptValue : (key encoded : String) → Option String

structure VariableRow extends PipelineVariable where
  id : Uuid

section

variable (name value : Option String) (isSecret : Option Bool) (row : VariableRow)

/-- What the statement of `update_variable` sets. -/
def VariableRow.coalesce : VariableRow :=
  { row with name := name.getD row.name, value := value.getD row.value,
             isSecret := isSecret.getD row.isSecret }

theorem VariableRow.coalesce_id :
    (row.coalesce name value isSecret).id = row.id := rfl

end

structure VariableStore where
  encryptionKey : Option String
  rows : Keyed Uuid VariableRow VariableRow.id

namespace VariableStore

variable (cipher : Cipher) (store : VariableStore)

def maybeEncrypt (nonce value : String) (isSecret : Bool) : Option String :=
  match isSecret, store.encryptionKey with
  | true, some key => cipher.encryptValue key nonce value
  | _, _ => some value

def maybeDecrypt (raw : String) (isSecret : Bool) : String :=
  match isSecret, store.encryptionKey with
  | true, some key => (cipher.decryptValue key raw).getD raw
  | _, _ => raw

def rowsForRepo (repoId : Uuid) : List VariableRow :=
  (store.rows.values.filter (fun row => row.repoId = repoId)).insertionSort
    (fun left right => left.name ≤ right.name)

def listVariablesForRepo (repoId : Uuid) : List PipelineVariable :=
  (store.rowsForRepo repoId).map (fun row =>
    { row.toPipelineVariable with value := store.maybeDecrypt cipher row.value row.isSecret })

def isFree (id repoId : Uuid) (name : String) : Bool :=
  store.rows.values.all (fun row => row.id = id || !(row.repoId = repoId && row.name = name))

/-- What an update writes as the value. -/
def encryptedValue (id : Uuid) (nonce : String) (value : Option String) (isSecret : Option Bool) :
    Option (Option String) :=
  match value with
  | some value =>
    let willSecret := isSecret.getD (((store.rows.get? id).map (·.isSecret)).getD false)
    (store.maybeEncrypt cipher nonce value willSecret).map some
  | none => some none

end VariableStore

/-- A call with the nonce that it draws. `ok` is whether the database takes its statements otherwise. -/
inductive VariableCall
  | createVariable (id : Uuid) (nonce : String) (ok : Bool) (repoId : Uuid) (name value : String)
    (isSecret : Bool)
  | updateVariable (id : Uuid) (nonce : String) (ok : Bool) (name value : Option String)
    (isSecret : Option Bool)

namespace VariableCall

/-- The store after a call that succeeds. -/
def run (cipher : Cipher) (store : VariableStore) : VariableCall → Option VariableStore
  | createVariable id nonce ok repoId name value isSecret => do
    let stored ← store.maybeEncrypt cipher nonce value isSecret
    if ok && (store.rows.get? id).isNone && store.isFree id repoId name then
      some { store with rows := store.rows.add ⟨⟨repoId, name, stored, isSecret⟩, id⟩ }
    else none
  | updateVariable id nonce ok name value isSecret => do
    let encrypted ← store.encryptedValue cipher id nonce value isSecret
    let row ← store.rows.get? id
    if ok && store.isFree id row.repoId (name.getD row.name) then
      some { store with
        rows := store.rows.update id (.coalesce name encrypted isSecret)
          (VariableRow.coalesce_id name _ isSecret) }
    else none

/-- The plaintext that the call sets. -/
def sets : VariableCall → Option (Uuid × String)
  | createVariable id _ _ _ _ value _ => some (id, value)
  | updateVariable id _ _ _ value _ => value.map (id, ·)

/-- The store together with the plaintext that was last set of each variable. -/
def follow (cipher : Cipher) (state : VariableStore × (Uuid → Option String)) (call : VariableCall) :
    VariableStore × (Uuid → Option String) :=
  match call.run cipher state.1 with
  | some store => (store, match call.sets with
    | some (id, value) => Function.update state.2 id (some value)
    | none => state.2)
  | none => state

end VariableCall

end Chola
