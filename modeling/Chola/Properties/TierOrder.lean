import Chola.Retention.Settings

namespace Chola

open Base Retention

/-- A request that reverts no tier to what the file says. -/
def SettingRequest.keepsTiers : SettingRequest → Bool
  | .update .. => true
  | .delete _ key => key ∉ [t1Key, t2Key, t3Key]

namespace Retention

def changeSettings (ret : Retention) (requests : List (SettingAmbient × SettingRequest)) : Retention :=
  requests.foldl (fun ret (amb, request) => (ret.changeSetting amb request).1) ret

def tier (key : String) (fallback : UInt32) (ret : Retention) : Nat :=
  ((ret.settings.get? key).bind parseU64).getD fallback.toNat

def TiersOrdered (ret : Retention) : Prop :=
  let fallback := ret.file.getD .default
  let t1 := ret.tier t1Key fallback.t1PurgeFilesAfterDays
  let t2 := ret.tier t2Key fallback.t2ArchiveAfterDays
  let t3 := ret.tier t3Key fallback.t3DeleteArchiveAfterDays
  0 < t1 ∧ t1 < t2 ∧ t2 < t3

instance (ret : Retention) : Decidable ret.TiersOrdered := inferInstanceAs (Decidable (_ ∧ _))

section Change

variable {ret : Retention} {amb : SettingAmbient} {key value : String} {fallback : UInt32}

theorem nextTier_eq (next : ret.nextTier key proposed name fallback = .ok days) :
    (if name = key then proposed else ret.tier name fallback) = days := by
  simp only [nextTier, eq_comm (a := key)] at next
  repeat' split at next
  all_goals simp_all [tier]

theorem tier_insert {ret : Retention} {fallback : UInt32} :
    tier name fallback { ret with settings := ret.settings.insert key value } =
      if name = key then (parseU64 value).getD fallback.toNat else ret.tier name fallback := by
  rw [tier, tier, Table.get?_insert]
  split <;> rfl

end Change

end Retention

private theorem pos_of_validateIntRange {min : Int} (ranged : validateIntRange key value min most = .ok ())
    (least : 0 < min) (parsed : parseU64 value = some days) : 0 < days := by
  have number : parseI64 value = (parseU64 value).bind fun days => if days < 2 ^ 63 then some ↑days
      else none := by
    unfold parseI64
    split
    · rename_i digits signed
      simp [parseU64, signed] at parsed
    · rfl
  simp only [validateIntRange, number, parsed, Option.bind_some] at ranged
  split at ranged
  · cases ranged
  · split at ranged
    · cases ranged
    · rename_i within
      simp_all
      omega

theorem Retention.TiersOrdered.step (ordered : TiersOrdered ret)
    (keeps : SettingRequest.keepsTiers request = true)
    (amb : SettingAmbient) : (ret.changeSetting amb request).1.TiersOrdered := by
  cases request with
  | update permitted =>
    simp only [changeSetting]
    split
    · exact ordered
    · rename_i key value checked
      obtain ⟨valid, ordering⟩ : validateSettingValue key value = .ok () ∧
          (key ∈ [t1Key, t2Key, t3Key] → ret.validateRetentionTierOrdering amb key value = .ok ()) := by
        simp only [checkUpdate, bind, Except.bind, throw, throwThe, MonadExceptOf.throw, pure,
          Except.pure] at checked
        repeat' split at checked
        all_goals cases checked
        all_goals simp_all
      by_cases tiered : key ∈ [t1Key, t2Key, t3Key]
      · have tiers := ordering tiered
        simp only [validateRetentionTierOrdering, bind, Except.bind, throw, throwThe,
          MonadExceptOf.throw, pure, Except.pure] at tiers
        repeat' split at tiers
        all_goals cases tiers
        rename_i fails days parsed _ t1 first _ t2 second _ t3 third early late
        have bounded : ∀ key ∈ [t1Key, t2Key, t3Key],
            (numericBounds.lookup key).any (fun bounds => 0 < bounds.1) := by
          decide
        obtain ⟨⟨_, _⟩, found, positive⟩ := (Option.any_eq_true _ _).mp (bounded key tiered)
        rw [validateSettingValue, found] at valid
        simp only [TiersOrdered, tier_insert, parsed, Option.getD_some]
        refine ⟨?_, ?_⟩
        · split
          · exact pos_of_validateIntRange valid (of_decide_eq_true positive) parsed
          · exact ordered.1
        · simp only [nextTier_eq first, nextTier_eq second, nextTier_eq third]
          exact ⟨Nat.lt_of_not_le early, Nat.lt_of_not_le late⟩
      · simp only [List.mem_cons, List.not_mem_nil, or_false, not_or, eq_comm (a := key)] at tiered
        simpa only [TiersOrdered, tier_insert, tiered, if_false] using ordered
  | delete _ key =>
    simp only [changeSetting]
    split
    · exact ordered
    · simp only [SettingRequest.keepsTiers, List.mem_cons, List.not_mem_nil, or_false, not_or,
        decide_eq_true_eq, eq_comm (a := key)] at keeps
      simpa only [TiersOrdered, tier, Table.get?_erase, keeps, if_false] using ordered

/-- From a file whose tiers are in order, whatever is changed and whatever but a tier is reverted,
the tiers stay in order. -/
theorem tiers_stay_ordered (ret : Retention) (unset : ret.settings = .empty)
    (ordered : let file := ret.file.getD .default
      0 < file.t1PurgeFilesAfterDays ∧ file.t1PurgeFilesAfterDays < file.t2ArchiveAfterDays ∧
        file.t2ArchiveAfterDays < file.t3DeleteArchiveAfterDays)
    (requests : List (SettingAmbient × SettingRequest)) (keeps : ∀ request ∈ requests,
      request.2.keepsTiers = true) :
    (ret.changeSettings requests).TiersOrdered := by
  refine List.foldlRecOn requests _ (motive := TiersOrdered) ?_ ?_
  · simp only [TiersOrdered, tier, unset]
    exact ordered
  · intro _ ordered request mem
    exact ordered.step (keeps request mem) request.1

namespace Sample

def tieredFile : Retention where
  file := some ⟨5000, 10, 20, 30, false⟩
  logDir := false
  redis := false
  settings := .empty
  groups := .empty
  jobs := []
  archive := []
  jobsArchive := []
  purgeQueue := []
  removals := []

def admin : SettingAmbient := ⟨true, none, none, none⟩

def put (key value : String) : SettingAmbient × SettingRequest :=
  (admin, .update true (some key) (some value))

/-- The last tier is moved out, the middle one after it, and a change of the first past the middle is refused. -/
theorem tiers_moved_in_order :
    let last := tieredFile.changeSettings [put t3Key "100", put t2Key "50", put t1Key "60"]
    (last.tier t1Key 10, last.tier t2Key 20, last.tier t3Key 30) = (10, 50, 100) ∧ last.TiersOrdered :=
  ⟨by decide, tiers_stay_ordered _ rfl (by decide) _ (by decide)⟩

/-- The last tier is moved out, the middle one after it, and the last one is reverted: all is
accepted, and the middle tier is past the last one. -/
theorem reverted_tier_breaks_order : let moved := tieredFile.changeSettings [put t3Key "100", put t2Key "50"]
    (moved.tier t1Key 10, moved.tier t2Key 20, moved.tier t3Key 30) = (10, 50, 100) ∧
      (moved.changeSetting admin (.delete true t3Key)).2 = .ok (.reverted t3Key) ∧
      ¬ (moved.changeSetting admin (.delete true t3Key)).1.TiersOrdered := by
  refine ⟨by decide, ?_, by decide⟩
  rfl

end Sample

end Chola
