import Mathlib.Data.List.Nodup
import Mathlib.Data.List.Sort
import Mathlib.Algebra.BigOperators.Group.Finset.Basic
import Mathlib.Algebra.Order.BigOperators.Group.List
import Mathlib.Algebra.Order.Ring.Nat

/-! Finite maps as association lists whose keys are distinct. Lookups, updates and
walks over the values are executable; the order of a walk is the order of the list. -/

namespace Base

universe u v w

section Loops

variable {S : Type u} {A : Type v} {W : Type w} (view : S → W)

theorem foldl_view (kept : ∀ state item, view (step state item) = view state) (items : List A) (state : S) :
    view (items.foldl step state) = view state := by
  induction items generalizing state with
  | nil => rfl
  | cons item _ ih => exact (ih _).trans (kept state item)

/-- A loop in which one item makes a change, and the change made again is no change. -/
theorem foldl_change [DecidableEq A] (change : W → W) (again : ∀ value, change (change value) = change value)
    (round : ∀ state other, view (step state other) = if item = other then change (view state)
      else view state)
    (items : List A) (state : S) :
    view (items.foldl step state) = if item ∈ items then change (view state) else view state := by
  induction items generalizing state with
  | nil => rfl
  | cons head rest ih =>
    rw [List.foldl_cons, ih, round]
    by_cases same : item = head
    · by_cases later : item ∈ rest <;> simp [← same, later, again]
    · simp [same]

end Loops

/-- A finite map. The field rules out a key with two values. -/
structure Table (K : Type u) (V : Type v) where
  entries : List (K × V)
  nodup : (entries.map Prod.fst).Nodup

namespace Table

variable {K : Type u} {V : Type v}

def empty : Table K V := ⟨[], List.nodup_nil⟩

instance : Inhabited (Table K V) := ⟨empty⟩

def keys (table : Table K V) : List K := table.entries.map Prod.fst

def values (table : Table K V) : List V := table.entries.map Prod.snd

def filter (keep : K → V → Bool) (table : Table K V) : Table K V where
  entries := table.entries.filter (fun entry => keep entry.1 entry.2)
  nodup := table.nodup.sublist (List.filter_sublist.map Prod.fst)

def mapVal (change : K → V → V) (table : Table K V) : Table K V where
  entries := table.entries.map (fun entry => (entry.1, change entry.1 entry.2))
  nodup := by simpa [Function.comp_def] using table.nodup

variable [DecidableEq K]

def get? (table : Table K V) (key : K) : Option V :=
  (table.entries.find? (fun entry => entry.1 = key)).map Prod.snd

def modify (key : K) (change : V → V) (table : Table K V) : Table K V :=
  table.mapVal (fun other value => if other = key then change value else value)

def erase (key : K) (table : Table K V) : Table K V := table.filter (fun other _ => other ≠ key)

/-- Replace the value of a present key in place, append an absent one. -/
def insert (key : K) (value : V) (table : Table K V) : Table K V :=
  if present : key ∈ table.keys then table.modify key (fun _ => value)
  else ⟨table.entries ++ [(key, value)], by
    rw [List.map_append]
    exact List.nodup_append.mpr ⟨table.nodup, List.nodup_singleton _, by
      intro other mem single own same
      rw [List.map_singleton, List.mem_singleton] at own
      rw [same, own] at mem
      exact present mem⟩⟩

theorem mem_entries_iff {table : Table K V} :
    (key, value) ∈ table.entries ↔ table.get? key = some value := by
  obtain ⟨entries, nodup⟩ := table
  simp only [get?]
  induction entries with
  | nil => simp
  | cons head _ ih =>
    have ⟨fresh, tail⟩ := List.nodup_cons.mp nodup
    by_cases same : head.1 = key
    · subst same
      constructor
      · intro mem
        rcases List.mem_cons.mp mem with own | other
        · rw [List.find?_cons_of_pos (by simp), ← own]
          rfl
        · exact False.elim (fresh (List.mem_map.mpr ⟨_, other, rfl⟩))
      · intro found
        rw [List.find?_cons_of_pos (by simp)] at found
        have own : head = (head.1, value) := Prod.ext rfl (Option.some.inj found)
        exact own ▸ List.mem_cons_self
    · rw [List.find?_cons_of_neg (by simpa using same), ← ih tail]
      constructor
      · intro mem
        rcases List.mem_cons.mp mem with own | other
        · exact False.elim (same (by rw [← own]))
        · exact other
      · exact List.mem_cons_of_mem head

theorem mem_values_iff (table : Table K V) (value : V) :
    value ∈ table.values ↔ ∃ key, table.get? key = some value := by
  simp only [values, List.mem_map, ← mem_entries_iff]
  constructor
  · rintro ⟨entry, mem, rfl⟩
    exact ⟨entry.1, mem⟩
  · rintro ⟨key, mem⟩
    exact ⟨(key, value), mem, rfl⟩

theorem mem_keys_iff (table : Table K V) (key : K) :
    key ∈ table.keys ↔ ∃ value, table.get? key = some value := by
  simp only [keys, List.mem_map, ← mem_entries_iff]
  constructor
  · rintro ⟨entry, mem, rfl⟩
    exact ⟨entry.2, mem⟩
  · rintro ⟨value, mem⟩
    exact ⟨(key, value), mem, rfl⟩

theorem not_mem_keys_iff {table : Table K V} : key ∉ table.keys ↔ table.get? key = none := by
  rw [mem_keys_iff]
  cases table.get? key <;> simp

@[simp] theorem get?_mapVal (change : K → V → V) {table : Table K V} :
    (table.mapVal change).get? key = (table.get? key).map (change key) := by
  ext value : 1
  simp only [mapVal, List.mem_map, Option.map_eq_some_iff, ← mem_entries_iff]
  constructor
  · rintro ⟨entry, mem, same⟩
    obtain ⟨rfl, rfl⟩ := Prod.mk.inj same
    exact ⟨entry.2, mem, rfl⟩
  · rintro ⟨old, mem, rfl⟩
    exact ⟨(key, old), mem, rfl⟩

@[simp] theorem get?_filter (keep : K → V → Bool) {table : Table K V} :
    (table.filter keep).get? key = (table.get? key).filter (keep key) := by
  ext value : 1
  rw [← mem_entries_iff]
  simp [filter, mem_entries_iff, Option.filter_eq_some_iff]

theorem get?_modify (change : V → V) {table : Table K V} : (table.modify key change).get? other =
      if other = key then (table.get? other).map change else table.get? other := by
  rw [modify, get?_mapVal]
  split
  · rfl
  · exact Option.map_id'

theorem get?_erase {table : Table K V} :
    (table.erase key).get? other = if other = key then none else table.get? other := by
  rw [erase, get?_filter]
  by_cases same : other = key <;> cases table.get? other <;> simp [same, Option.filter]

theorem get?_insert (key other : K) (value : V) (table : Table K V) : (table.insert key value).get? other =
      if other = key then some value else table.get? other := by
  unfold insert
  split
  · rename_i present
    obtain ⟨_, found⟩ := (mem_keys_iff table key).mp present
    rw [get?_modify]
    by_cases same : other = key
    · subst same; simp [found]
    · simp [same]
  · rename_i absent
    by_cases same : other = key
    · subst same
      have missing := not_mem_keys_iff.mp absent
      simp only [get?, Option.map_eq_none_iff] at missing
      simp [get?, List.find?_append, missing]
    · simp [get?, List.find?_append, same, Ne.symm same]

def sum (weight : K → V → Nat) (table : Table K V) : Nat :=
  (table.entries.map (fun entry => weight entry.1 entry.2)).sum

/-- The weight found under a key, nothing for an absent one. -/
def weigh (weight : K → V → Nat) (table : Table K V) (key : K) : Nat :=
  match table.get? key with
  | some value => weight key value
  | none => 0

theorem weigh_of_absent (weight : K → V → Nat) {table : Table K V} (absent : key ∉ table.keys) :
    table.weigh weight key = 0 := by
  rw [weigh, not_mem_keys_iff.mp absent]

theorem sum_eq_finset (weight : K → V → Nat) (table : Table K V) (covers : ∀ key ∈ table.keys, key ∈ among) :
    table.sum weight = ∑ key ∈ among, table.weigh weight key := by
  have distinct : table.keys.Nodup := table.nodup
  have listed : table.sum weight = (table.keys.map (table.weigh weight)).sum := by
    rw [sum, keys, List.map_map]
    congr 1
    apply List.map_congr_left
    intro entry mem
    have found := mem_entries_iff.mp mem
    simp [weigh, found]
  rw [listed, ← List.sum_toFinset _ distinct]
  apply Finset.sum_subset
  · intro key mem
    exact covers key (List.mem_toFinset.mp mem)
  · intro key _ absent
    exact weigh_of_absent weight (fun mem => absent (List.mem_toFinset.mpr mem))

/-- Two tables that weigh the same outside some keys differ by what they weigh there. -/
theorem sum_exchange (weight : K → V → Nat) {before after : Table K V} {changed : List K}
    (nodup : changed.Nodup)
    (kept : ∀ key, key ∉ changed → after.weigh weight key = before.weigh weight key) :
    after.sum weight + (changed.map (before.weigh weight)).sum =
      before.sum weight + (changed.map (after.weigh weight)).sum := by
  let among := before.keys.toFinset ∪ after.keys.toFinset ∪ changed.toFinset
  have own : before.sum weight = ∑ key ∈ among, before.weigh weight key :=
    sum_eq_finset weight before (by simp +contextual [among])
  have new : after.sum weight = ∑ key ∈ among, after.weigh weight key :=
    sum_eq_finset weight after (by simp +contextual [among])
  have part : changed.toFinset ⊆ among := Finset.subset_union_right
  have rest : ∑ key ∈ among \ changed.toFinset, after.weigh weight key =
      ∑ key ∈ among \ changed.toFinset, before.weigh weight key := by
    apply Finset.sum_congr rfl
    intro key mem
    exact kept key (fun listed => (Finset.mem_sdiff.mp mem).2 (List.mem_toFinset.mpr listed))
  have splitOwn := Finset.sum_sdiff (f := before.weigh weight) part
  have splitNew := Finset.sum_sdiff (f := after.weigh weight) part
  have listOwn : ∑ key ∈ changed.toFinset, before.weigh weight key =
      (changed.map (before.weigh weight)).sum := List.sum_toFinset _ nodup
  have listNew : ∑ key ∈ changed.toFinset, after.weigh weight key =
      (changed.map (after.weigh weight)).sum := List.sum_toFinset _ nodup
  omega

end Table

def updateFirst {α : Type u} (test : α → Bool) (change : α → α) : List α → List α
  | [] => []
  | head :: rest =>
    if test head then change head :: rest else head :: updateFirst test change rest

theorem mem_updateFirst (mem : value ∈ updateFirst test change list) :
    value ∈ list ∨ ∃ old ∈ list, list.find? test = some old ∧ value = change old := by
  induction list with
  | nil => cases mem
  | cons head _ ih =>
    simp only [updateFirst] at mem
    split at mem
    · rename_i passes
      rcases List.mem_cons.mp mem with changed | other
      · exact .inr ⟨head, List.mem_cons_self, by simp [passes], changed⟩
      · exact .inl (List.mem_cons_of_mem head other)
    · rename_i fails
      rcases List.mem_cons.mp mem with own | other
      · exact .inl (own ▸ List.mem_cons_self)
      · rcases ih other with kept | ⟨old, present, found, changed⟩
        · exact .inl (List.mem_cons_of_mem head kept)
        · refine .inr ⟨old, List.mem_cons_of_mem head present, ?_, changed⟩
          rw [List.find?_cons_of_neg (by simpa using fails), found]

/-- Either no element passes the test, or the list splits at the first one that does. -/
theorem updateFirst_split {α : Type u} (test : α → Bool) (change : α → α) (list : List α) :
    ((∀ value ∈ list, test value = false) ∧ updateFirst test change list = list) ∨
      ∃ front value back, list = front ++ value :: back ∧ test value = true ∧
        (∀ other ∈ front, test other = false) ∧
        updateFirst test change list = front ++ change value :: back := by
  induction list with
  | nil => exact .inl ⟨by simp, rfl⟩
  | cons head rest ih =>
    by_cases passes : test head = true
    · exact .inr ⟨[], head, rest, rfl, passes, by simp, if_pos passes⟩
    · have later : updateFirst test change (head :: rest) = head :: updateFirst test change rest :=
        if_neg passes
      rcases ih with ⟨none, kept⟩ | ⟨front, value, back, split, own, before, changed⟩
      · exact .inl ⟨by simpa [passes] using none, by rw [later, kept]⟩
      · refine .inr ⟨head :: front, value, back, by rw [split]; rfl, own, ?_, by rw [later, changed]; rfl⟩
        simpa [passes] using before

theorem mem_updateFirst_of_mem (mem : value ∈ list) :
    value ∈ updateFirst test change list ∨ test value = true ∧
      change value ∈ updateFirst test change list := by
  rcases updateFirst_split test change list with ⟨-, kept⟩ | ⟨_, _, _, rfl, passes, -, changed⟩
  · exact .inl (kept.symm ▸ mem)
  · rw [changed]
    simp only [List.mem_append, List.mem_cons] at mem ⊢
    rcases mem with early | rfl | late
    · exact .inl (.inl early)
    · exact .inr ⟨passes, .inr (.inl rfl)⟩
    · exact .inl (.inr (.inr late))

theorem map_updateFirst {α : Type u} {β : Type v} (test : α → Bool) (change : α → α)
    (feature : α → β) (same : ∀ value, feature (change value) = feature value) {list : List α} :
    (updateFirst test change list).map feature = list.map feature := by
  induction list with
  | nil => rfl
  | cons _ _ ih =>
    simp only [updateFirst]
    split
    · simp [same]
    · simp [ih]

theorem filter_updateFirst {α : Type u} (test keep : α → Bool) (change : α → α) {list : List α}
    (gone : ∀ value ∈ list, test value = true → keep value = false ∧ keep (change value) = false) :
    (updateFirst test change list).filter keep = list.filter keep := by
  induction list with
  | nil => rfl
  | cons head _ ih =>
    simp only [updateFirst]
    split
    · rename_i hit
      obtain ⟨before, after⟩ := gone head List.mem_cons_self hit
      rw [List.filter_cons_of_neg (by simp [after]), List.filter_cons_of_neg (by simp [before])]
    · have later := ih fun value mem => gone value (List.mem_cons_of_mem head mem)
      rw [List.filter_cons, List.filter_cons, later]

/-- A table whose values know their own key. -/
structure Keyed (K : Type u) (V : Type v) (key : V → K) where
  table : Table K V
  keyed : ∀ entry ∈ table.entries, key entry.2 = entry.1

namespace Keyed

variable {K : Type u} {V : Type v} {key : V → K}

def empty : Keyed K V key := ⟨.empty, by simp [Table.empty]⟩

instance : Inhabited (Keyed K V key) := ⟨empty⟩

def values (reg : Keyed K V key) : List V := reg.table.values

/-- The values in the order of a hash of their keys. Every order of a walk comes from some hash. -/
def walk (hash : K → Nat) (reg : Keyed K V key) : List V :=
  reg.values.insertionSort (fun left right => hash (key left) ≤ hash (key right))

def retain (keep : V → Bool) (reg : Keyed K V key) : Keyed K V key where
  table := reg.table.filter (fun _ value => keep value)
  keyed := by
    intro entry mem
    exact reg.keyed entry (List.mem_of_mem_filter mem)

def updateAll (change : V → V) (same : ∀ value, key (change value) = key value)
    (reg : Keyed K V key) : Keyed K V key where
  table := reg.table.mapVal (fun _ => change)
  keyed := by
    intro entry mem
    obtain ⟨old, present, rfl⟩ := List.mem_map.mp mem
    rw [same, reg.keyed old present]

theorem walk_perm (hash : K → Nat) (reg : Keyed K V key) : (reg.walk hash).Perm reg.values :=
  List.perm_insertionSort _ _

theorem nodup_keys (reg : Keyed K V key) : (reg.values.map key).Nodup := by
  have names : reg.values.map key = reg.table.entries.map Prod.fst := by
    rw [values, Table.values, List.map_map]
    exact List.map_congr_left reg.keyed
  rw [names]
  exact reg.table.nodup

theorem nodup_values (reg : Keyed K V key) : reg.values.Nodup := reg.nodup_keys.of_map key

variable [DecidableEq K]

def get? (reg : Keyed K V key) (name : K) : Option V := reg.table.get? name

def add (value : V) (reg : Keyed K V key) : Keyed K V key where
  table := reg.table.insert (key value) value
  keyed := by
    rintro ⟨name, stored⟩ mem
    rw [Table.mem_entries_iff, Table.get?_insert] at mem
    split at mem
    · rename_i own
      cases mem
      exact own.symm
    · exact reg.keyed (name, stored) (Table.mem_entries_iff.mpr mem)

def update (name : K) (change : V → V) (same : ∀ value, key (change value) = key value)
    (reg : Keyed K V key) : Keyed K V key where
  table := reg.table.modify name change
  keyed := by
    intro entry mem
    obtain ⟨old, present, rfl⟩ := List.mem_map.mp mem
    have kept := reg.keyed old present
    simp only
    split
    · rw [same, kept]
    · exact kept

theorem key_of_get? {reg : Keyed K V key} (found : reg.get? name = some value) : key value = name :=
  reg.keyed (name, value) (Table.mem_entries_iff.mpr found)

theorem mem_values_of_get? {reg : Keyed K V key} (found : reg.get? name = some value) :
    value ∈ reg.values := (Table.mem_values_iff _ value).mpr ⟨name, found⟩

theorem mem_values_iff (reg : Keyed K V key) (value : V) :
    value ∈ reg.values ↔ reg.get? (key value) = some value := by
  refine ⟨fun mem => ?_, mem_values_of_get?⟩
  obtain ⟨_, found⟩ := (Table.mem_values_iff _ value).mp mem
  rw [key_of_get? found]
  exact found

theorem mem_walk_iff (hash : K → Nat) (reg : Keyed K V key) (value : V) :
    value ∈ reg.walk hash ↔ reg.get? (key value) = some value := by
  rw [(walk_perm hash reg).mem_iff, mem_values_iff]

@[simp] theorem get?_retain (keep : V → Bool) (reg : Keyed K V key) (name : K) :
    (reg.retain keep).get? name = (reg.get? name).filter keep :=
  Table.get?_filter _

@[simp] theorem get?_updateAll (change : V → V) (same : ∀ value, key (change value) = key value)
    (reg : Keyed K V key) (name : K) :
    (reg.updateAll change same).get? name = (reg.get? name).map change :=
  Table.get?_mapVal _

theorem get?_add (value : V) (reg : Keyed K V key) (name : K) : (reg.add value).get? name =
      if name = key value then some value else reg.get? name :=
  Table.get?_insert _ _ _ _

theorem get?_update (name other : K) (change : V → V)
    (same : ∀ value, key (change value) = key value) (reg : Keyed K V key) :
    (reg.update name change same).get? other =
      if other = name then (reg.get? other).map change else reg.get? other :=
  Table.get?_modify _

theorem get?_foldl_add {α : Type w} {enter : α → V} {rows : List α} {reg : Keyed K V key}
    (found : (rows.foldl (fun reg row => reg.add (enter row)) reg).get? name = some value) :
    reg.get? name = some value ∨ ∃ row ∈ rows, enter row = value ∧ key value = name := by
  induction rows generalizing reg with
  | nil => exact .inl found
  | cons head _ ih =>
    rcases ih found with kept | ⟨row, mem, facts⟩
    · rw [get?_add] at kept
      split at kept
      · rename_i hit
        cases kept
        exact .inr ⟨head, List.mem_cons_self, rfl, hit.symm⟩
      · exact .inl kept
    · exact .inr ⟨row, List.mem_cons_of_mem _ mem, facts⟩

theorem get?_update_eq_map (name other : K) (change : V → V)
    (same : ∀ value, key (change value) = key value) (reg : Keyed K V key) :
    (reg.update name change same).get? other =
      (reg.get? other).map fun value => if key value = name then change value else value := by
  rw [get?_update]
  cases found : reg.get? other with
  | none => simp
  | some =>
    rw [← key_of_get? found]
    split <;> simp_all

/-- Values that pass a test are at most as many as those of another table that answer for them. -/
theorem countP_le {left right : Keyed K V key} (extra : List K)
    (covered : ∀ name value, left.get? name = some value → test value = true →
      (∃ found, right.get? name = some found ∧ other found = true) ∨ name ∈ extra) :
    left.values.countP test ≤ right.values.countP other + extra.length := by
  have nodup : ((left.values.filter test).map key).Nodup :=
    left.nodup_keys.sublist (List.filter_sublist.map key)
  have listed : (left.values.filter test).map key ⊆
      (right.values.filter other).map key ++ extra := by
    intro name mem
    obtain ⟨value, passing, rfl⟩ := List.mem_map.mp mem
    obtain ⟨there, passes⟩ := List.mem_filter.mp passing
    rcases covered (key value) value ((mem_values_iff left value).mp there) passes with
      ⟨found, present, passed⟩ | spare
    · have stays := List.mem_filter.mpr ⟨mem_values_of_get? present, passed⟩
      exact List.mem_append_left _ (List.mem_map.mpr ⟨found, stays, key_of_get? present⟩)
    · exact List.mem_append_right _ spare
  have shorter := (nodup.subperm listed).length_le
  simpa [List.countP_eq_length_filter] using shorter

theorem countP_le_one {table : Keyed K V key}
    (single : ∀ left right value other, table.get? left = some value → table.get? right = some other →
      test value = true → test other = true → left = right) : table.values.countP test ≤ 1 := by
  rw [List.countP_eq_length_filter]
  have nodup : ((table.values.filter test).map key).Nodup :=
    table.nodup_keys.sublist (List.filter_sublist.map key)
  have passes {value : V} (mem : value ∈ table.values.filter test) :
      table.get? (key value) = some value ∧ test value = true := by
    rw [← mem_values_iff]
    exact List.mem_filter.mp mem
  match passing : table.values.filter test with
  | [] | [_] => simp
  | first :: second :: rest =>
    rw [passing] at nodup passes
    obtain ⟨found, holds⟩ := passes List.mem_cons_self
    obtain ⟨there, also⟩ := passes (List.mem_cons_of_mem _ List.mem_cons_self)
    have same := single _ _ first second found there holds also
    simp [same] at nodup

end Keyed

end Base
