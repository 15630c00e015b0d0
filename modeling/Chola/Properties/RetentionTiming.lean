import Mathlib.Tactic.Linarith
import Chola.Retention.Sweep

namespace Chola

open Base Retention List

inductive Tier
  | t1
  | t2
  | t3
  deriving DecidableEq

def Days.of (days : Days) : Tier → Int
  | .t1 => days.t1
  | .t2 => days.t2
  | .t3 => days.t3

def Days.Ordered (days : Days) : Prop := 0 < days.t1 ∧ days.t1 < days.t2 ∧ days.t2 < days.t3

instance (days : Days) : Decidable days.Ordered := inferInstanceAs (Decidable (_ ∧ _ ∧ _))

namespace Retention

/-- The number that the database has for a setting, if it has one. -/
def override (key : String) (ret : Retention) : Option Nat := (ret.settings.get? key).bind parseU64

def configured (ret : Retention) : RetentionConfig := ret.file.getD .default

def effectiveDays (ret : Retention) : Days where
  t1 := (ret.override t1Key).getD ret.configured.t1PurgeFilesAfterDays.toNat
  t2 := (ret.override t2Key).getD ret.configured.t2ArchiveAfterDays.toNat
  t3 := (ret.override t3Key).getD ret.configured.t3DeleteArchiveAfterDays.toNat

/-- A forced sweep falls back to the values of the file where it falls back. -/
def defaultsAgree (ret : Retention) : Bool :=
  let file := ret.configured
  ((ret.override t1Key).isSome || file.t1PurgeFilesAfterDays = 7) &&
    ((ret.override t2Key).isSome || file.t2ArchiveAfterDays = 30) &&
    ((ret.override t3Key).isSome || file.t3DeleteArchiveAfterDays = 365)

end Retention

def Days.fit (days : Days) : Bool := days.t1 < 2147483648 && days.t2 < 2147483648 && days.t3 < 2147483648

/-- A tier acts on a group: since when the group is as old as the tier asks, and the days then in force. -/
structure Taken where
  tier : Tier
  id : Uuid
  since : Option Timestamp
  now : Timestamp
  days : Days
  deriving DecidableEq

def Aged (since : Option Timestamp) (days : Int) (now : Timestamp) : Prop :=
  ∃ time, since = some time ∧ time + days * day ≤ now

/-- The days are in order, and the group is old enough. -/
def Taken.Timely (taken : Taken) : Prop :=
  taken.days.Ordered ∧ Aged taken.since (taken.days.of taken.tier) taken.now

variable {clock : Timestamp} {before after : Retention}

variable {days : Int} {ret : Retention} {amb : SweepAmbient}

theorem Aged.later {since : Option Timestamp} {later : Timestamp}
    (aged : Aged since days now) (le : now ≤ later) : Aged since days later := by
  obtain ⟨time, found, _⟩ := aged
  exact ⟨time, found, by linarith⟩

/-- The latest time that a step ran at, and what the tiers acted on. -/
structure SweepLog where
  clock : Timestamp
  taken : List Taken

/-- The rows of a group, live and archived. -/
def Retention.rowsOf (ret : Retention) (id : Uuid) : List GroupRow :=
  (ret.groups.get? id).toList ++
    (ret.archive.filter (fun entry => entry.row.id = id)).map ArchivedGroup.row

/-- What a step acts on. The removal of a directory, a directive and a stamp are acts of T1. -/
def SweepStep.takes (amb : SweepAmbient) (ret : Retention) : SweepStep → List Taken
  | .t1Remove _ ids | .t1Stamp _ ids => ids.flatMap (purged ·)
  | .t1Fanout _ left _ => (left.take 1).flatMap (purged ·)
  | .t2Archive _ ids => ids.flatMap (fun id => (ret.groups.get? id).toList.map (fun row =>
      ⟨.t2, id, row.completedAt, amb.now, ret.effectiveDays⟩))
  | .t3Delete _ ids => ids.flatMap (fun id =>
      (ret.archive.filter (fun entry => entry.row.id = id)).map (fun entry =>
        ⟨.t3, id, some entry.archivedAt, amb.now, ret.effectiveDays⟩))
  | _ => []
where
  purged (id : Uuid) : List Taken := (ret.rowsOf id).map (fun row =>
    ⟨.t1, id, row.completedAt, amb.now, ret.effectiveDays⟩)

def watchSweep (amb : SweepAmbient) (step : SweepStep) (ret : Retention) (log : SweepLog) : SweepLog :=
  ⟨amb.now, log.taken ++ step.takes amb ret⟩

abbrev SweepSystem := Config (Retention × SweepLog) SweepStep

def timedSweeps : Machine (Retention × SweepLog) SweepStep SweepAmbient SweepRequest :=
  sweepMachine.observed watchSweep

def emptyTables (file : Option RetentionConfig) (logDir redis : Bool) : Retention :=
  ⟨file, logDir, redis, .empty, .empty, [], [], [], [], []⟩

/-- The step rests on settings that its sweep has read. -/
def SweepStep.rests : SweepStep → Bool
  | .validate | .resolve .forced _ | .putSetting _ _ | .deleteSetting _ | .writeGroup _ | .writeJob _
  | .purgeAck _ _ _ => false
  | _ => true

/-- The groups that a tier has picked by their age and still has to act on. -/
def SweepStep.picked : SweepStep → List Uuid
  | .t1Remove _ ids | .t1Stamp _ ids | .t2Archive _ ids | .t3Delete _ ids => ids
  | .t1Fanout _ left done => left ++ done
  | _ => []

def readsDays (amb : SweepAmbient) : Bool :=
  amb.ok (.setting Retention.t1Key) && amb.ok (.setting Retention.t2Key) && amb.ok (.setting Retention.t3Key)

/-- The clock does not go back. The days can be read and fit in 32 signed bits; a forced sweep finds
them in order, and falls back to nothing but the file. No setting changes under a sweep, nothing
writes a picked group, and no group takes the id of an archived one. -/
def settledSettings : Discipline (Retention × SweepLog) SweepStep SweepAmbient SweepRequest where
  spawn _ _ := true
  exec amb step cfg := cfg.state.2.clock ≤ amb.now && match step with
    | .validate => readsDays amb
    | .resolve origin _ => readsDays amb && cfg.state.1.effectiveDays.fit &&
        (origin = .tick || (cfg.state.1.defaultsAgree && cfg.state.1.effectiveDays.Ordered))
    | .putSetting _ _ | .deleteSetting _ => cfg.inFlight SweepStep.rests = 0
    | .writeGroup row => cfg.pending.all (fun other => row.id ∉ other.picked) &&
        ((cfg.state.1.groups.get? row.id).isSome ||
          cfg.state.1.archive.all (fun entry => entry.row.id ≠ row.id))
    | _ => true
  crash _ _ := true

/-- What becomes of a group unless it is written: its row and its archived copies come from before. -/
structure Descends (id : Uuid) (before after : Retention) : Prop where
  live : ∀ row, after.groups.get? id = some row →
    ∃ old, before.groups.get? id = some old ∧ old.completedAt = row.completedAt
  archived : ∀ entry ∈ after.archive, entry.row.id = id → entry ∈ before.archive ∨
    before.groups.get? id = some entry.row

theorem SweepEffect.descends {step : SweepStep} (effect : SweepEffect now before step after) {id : Uuid}
    (apart : ∀ row, step = .writeGroup row → row.id ≠ id) : Descends id before after := by
  cases effect with
  | quiet | put | dropped => exact ⟨fun row found => ⟨row, found, rfl⟩, fun entry mem _ => .inl mem⟩
  | stamped =>
    refine ⟨?_, fun entry mem _ => .inl mem⟩
    intro row found
    rw [get?_markFilesPurged] at found
    obtain ⟨old, present, rfl⟩ := Option.map_eq_some_iff.mp found
    exact ⟨old, present, stamp_completedAt.symm⟩
  | archived =>
    refine ⟨?_, ?_⟩
    · intro row found
      rw [get?_archiveGroupsBatch, Option.filter_eq_some_iff] at found
      exact ⟨row, found.1, rfl⟩
    · intro entry mem own
      rcases mem_archive_iff.mp mem with old | ⟨found, -, -⟩
      · exact .inl old
      · exact .inr (own ▸ found)
  | deleted =>
    exact ⟨fun row found => ⟨row, found, rfl⟩, fun entry mem _ => .inl (mem_filter.mp mem).1⟩
  | written row =>
    refine ⟨?_, fun entry mem _ => .inl mem⟩
    intro other found
    rw [get?_writeGroup, if_neg (fun same => apart row rfl same.symm)] at found
    exact ⟨other, found, rfl⟩

theorem SweepEffect.effectiveDays (effect : SweepEffect now before step after)
    (put : ∀ key value, step ≠ .putSetting key value) (dropped : ∀ key, step ≠ .deleteSetting key) :
    after.effectiveDays = before.effectiveDays := by
  cases effect with
  | put key value => exact absurd rfl (put key value)
  | dropped key => exact absurd rfl (dropped key)
  | _ => rfl

section

variable (days : Int) (clock : Timestamp) (ret : Retention) (id : Uuid)

/-- Every row of the group, live or archived, is as old as T1 asks. -/
def OldRows : Prop :=
  ∀ row ∈ ret.rowsOf id, Aged row.completedAt days clock

def OldLive : Prop :=
  ∀ row, ret.groups.get? id = some row → Aged row.completedAt days clock

/-- The group is not live, and its archived copies are as old as T3 asks. -/
def OldArchived : Prop :=
  ret.groups.get? id = none ∧
    ∀ entry ∈ ret.archive, entry.row.id = id → Aged (some entry.archivedAt) days clock

end

theorem mem_rowsOf_iff {ret : Retention} {id : Uuid} {row : GroupRow} :
    row ∈ ret.rowsOf id ↔ ret.groups.get? id = some row ∨
      ∃ entry ∈ ret.archive, entry.row.id = id ∧ entry.row = row := by
  simp [rowsOf, and_assoc]

section Descends

variable {id : Uuid} {before after : Retention} {days : Int} {clock later : Timestamp}

theorem OldRows.descends (old : OldRows days clock before id) (descends : Descends id before after)
    (le : clock ≤ later) : OldRows days later after id := by
  intro row mem
  rcases mem_rowsOf_iff.mp mem with found | ⟨entry, archived, own, rfl⟩
  · obtain ⟨prior, present, same⟩ := descends.live row found
    exact same ▸ (old prior (mem_rowsOf_iff.mpr (.inl present))).later le
  · rcases descends.archived entry archived own with kept | moved
    · exact (old entry.row (mem_rowsOf_iff.mpr (.inr ⟨entry, kept, own, rfl⟩))).later le
    · exact (old entry.row (mem_rowsOf_iff.mpr (.inl moved))).later le

theorem OldLive.descends (old : OldLive days clock before id) (descends : Descends id before after)
    (le : clock ≤ later) : OldLive days later after id := by
  intro row found
  obtain ⟨prior, present, same⟩ := descends.live row found
  exact same ▸ (old prior present).later le

theorem OldArchived.descends (old : OldArchived days clock before id) (descends : Descends id before after)
    (le : clock ≤ later) : OldArchived days later after id := by
  refine ⟨?_, ?_⟩
  · by_contra live
    obtain ⟨row, found⟩ := Option.ne_none_iff_exists'.mp live
    obtain ⟨_, present, -⟩ := descends.live row found
    rw [old.1] at present
    cases present
  · intro entry archived own
    rcases descends.archived entry archived own with kept | moved
    · exact (old.2 entry kept own).later le
    · rw [old.1] at moved
      cases moved

end Descends

/-- The sweep uses the days that are in force, and they are in order. -/
def Agreed (plan : Plan) (ret : Retention) : Prop :=
  plan.days = ret.effectiveDays ∧ ret.effectiveDays.Ordered

def Days.cut (days : Days) : Days := ⟨asI32 days.t1.toNat, asI32 days.t2.toNat, asI32 days.t3.toNat⟩

/-- What is known of a step to come: a tick has checked the days, a sweep uses those in force, and
what is picked is old enough. -/
def SoundStep (clock : Timestamp) (ret : Retention) : SweepStep → Prop
  | .resolve .tick _ => Retention.validated ret.effectiveDays.cut = true
  | .t1Find plan | .t2Find plan | .capFind plan | .capArchive plan _ | .t3Find plan => Agreed plan ret
  | .t1Remove plan ids | .t1Stamp plan ids =>
    Agreed plan ret ∧ ∀ id ∈ ids, OldRows plan.days.t1 clock ret id
  | .t1Fanout plan left done =>
    Agreed plan ret ∧ ∀ id ∈ left ++ done, OldRows plan.days.t1 clock ret id
  | .t2Archive plan ids => Agreed plan ret ∧ ∀ id ∈ ids, OldLive plan.days.t2 clock ret id
  | .t3Delete plan ids => Agreed plan ret ∧ ∀ id ∈ ids, OldArchived plan.days.t3 clock ret id
  | _ => True

theorem SoundStep.descends (sound : SoundStep clock before step) (le : clock ≤ later)
    (same : step.rests = true → after.effectiveDays = before.effectiveDays)
    (descends : ∀ id ∈ step.picked, Descends id before after) : SoundStep later after step := by
  have agreed {plan : Plan} (rests : step.rests = true) (held : Agreed plan before) : Agreed plan after := by
    rw [Agreed, same rests]
    exact held
  cases step with
  | validate | putSetting | deleteSetting | writeGroup | writeJob | purgeAck => trivial
  | resolve origin =>
    cases origin with
    | tick =>
      change validated after.effectiveDays.cut = true
      rw [same rfl]
      exact sound
    | forced => trivial
  | t1Find | t2Find | capFind | capArchive | t3Find => exact agreed rfl sound
  | _ =>
    exact ⟨agreed rfl sound.1, fun id mem => (sound.2 id mem).descends (descends id mem) le⟩

/-- No archived group is live, and none is archived twice. -/
structure Distinct (ret : Retention) : Prop where
  apart : ∀ entry ∈ ret.archive, ret.groups.get? entry.row.id = none
  unique : (ret.archive.map (fun entry => entry.row.id)).Nodup

theorem Distinct.effect (distinct : Distinct before) (effect : SweepEffect now before step after)
    (fresh : ∀ row, step = .writeGroup row → before.groups.get? row.id = none →
      ∀ entry ∈ before.archive, entry.row.id ≠ row.id) : Distinct after := by
  cases effect with
  | quiet | put | dropped => exact ⟨distinct.apart, distinct.unique⟩
  | stamped =>
    refine ⟨?_, distinct.unique⟩
    intro entry mem
    rw [get?_markFilesPurged, Option.map_eq_none_iff]
    exact distinct.apart entry mem
  | archived =>
    refine ⟨?_, ?_⟩
    · intro entry mem
      rw [get?_archiveGroupsBatch]
      rcases mem_archive_iff.mp mem with old | ⟨found, listed, -⟩
      · rw [distinct.apart entry old]
        rfl
      · simp [found, listed]
    · simp only [archiveGroupsBatch, map_append, map_map]
      refine nodup_append'.mpr ⟨distinct.unique,
        before.groups.nodup_keys.sublist (filter_sublist.map GroupRow.id), ?_⟩
      intro id archived live
      obtain ⟨entry, mem, rfl⟩ := mem_map.mp archived
      obtain ⟨row, listed, same⟩ := mem_map.mp live
      change row.id = entry.row.id at same
      have present := (Keyed.mem_values_iff _ _).mp (mem_filter.mp listed).1
      rw [same, distinct.apart entry mem] at present
      cases present
  | deleted =>
    refine ⟨fun entry mem => distinct.apart entry (mem_filter.mp mem).1, ?_⟩
    exact distinct.unique.sublist (filter_sublist.map _)
  | written row =>
    refine ⟨?_, distinct.unique⟩
    intro entry mem
    have gone := distinct.apart entry mem
    rw [get?_writeGroup, if_neg]
    · exact gone
    · intro same
      rw [same] at gone
      exact fresh row rfl gone entry mem same

section Readings

variable {amb : SweepAmbient} {ret : Retention}

theorem resolve_of_reads (reads : amb.ok (.setting key) = true) :
    ret.resolveSettingU64 amb key configDefault = (ret.override key).getD configDefault := by
  simp [resolveSettingU64, override, reads]

/-- Days that can be read are those in force, cut to 32 bits, where what a sweep falls back to is the file's. -/
theorem resolveDays_eq_cut {fallback : RetentionConfig} (reads : readsDays amb = true)
    (t1 : (ret.override t1Key).isSome = true ∨
      fallback.t1PurgeFilesAfterDays = ret.configured.t1PurgeFilesAfterDays)
    (t2 : (ret.override t2Key).isSome = true ∨
      fallback.t2ArchiveAfterDays = ret.configured.t2ArchiveAfterDays)
    (t3 : (ret.override t3Key).isSome = true ∨
      fallback.t3DeleteArchiveAfterDays = ret.configured.t3DeleteArchiveAfterDays) :
    ret.resolveDays amb fallback = ret.effectiveDays.cut := by
  simp only [readsDays, Bool.and_eq_true] at reads
  obtain ⟨⟨first, second⟩, third⟩ := reads
  have getD_eq {found : Option Nat} {left right : UInt32} (same : found.isSome = true ∨ left = right) :
      found.getD left.toNat = found.getD right.toNat := by
    rcases same with there | rfl
    · obtain ⟨_, rfl⟩ := Option.isSome_iff_exists.mp there
      rfl
    · rfl
  simp only [resolveDays, resolve_of_reads first, resolve_of_reads second, resolve_of_reads third,
    getD_eq t1, getD_eq t2, getD_eq t3, Days.cut, effectiveDays, Int.toNat_natCast]

theorem asI32_of_lt {count : Nat} (fits : (count : Int) < 2147483648) : asI32 count = count := by
  have reduced : (count : Int) % 4294967296 = count := by omega
  unfold asI32
  rw [reduced]
  exact if_pos fits

theorem effectiveDays_cut (fit : ret.effectiveDays.fit = true) :
    ret.effectiveDays.cut = ret.effectiveDays := by
  simp only [Days.fit, Bool.and_eq_true, decide_eq_true_eq] at fit
  obtain ⟨⟨first, second⟩, third⟩ := fit
  simp only [Days.cut, effectiveDays, Int.toNat_natCast, asI32_of_lt first, asI32_of_lt second,
    asI32_of_lt third]

end Readings

theorem soundStep_of_agreed {plan : Plan} (agreed : Agreed plan ret)
    (mem : step ∈ plan.sweepT1 ∨ step ∈ plan.sweepT2 ∨ step ∈ plan.sweepT3) :
    SoundStep clock ret step := by
  have finds : step = .t1Find plan ∨ step = .t2Find plan ∨ step = .t3Find plan := by
    rcases mem with first | second | third
    · exact Plan.mem_sweepT1 first
    · exact .inr (Plan.mem_sweepT2 second)
    · exact .inr (.inr (Plan.mem_sweepT3 third))
  rcases finds with rfl | rfl | rfl <;> exact agreed

theorem aged_of_endedBefore {row : GroupRow}
    (ended : row.endedBefore (now - days * day) = true) : Aged row.completedAt days now := by
  simp only [GroupRow.endedBefore, Bool.and_eq_true, Option.any_eq_true, decide_eq_true_eq] at ended
  obtain ⟨-, time, found, _⟩ := ended
  exact ⟨time, found, by linarith⟩

private theorem soundStep_announced {step next : SweepStep} {cfg : SweepSystem}
    (may : settledSettings.exec amb step cfg = true) (distinct : Distinct cfg.state.1)
    (sound : SoundStep cfg.state.2.clock cfg.state.1 step)
    (mem : next ∈ (execSweep amb step cfg.state.1).2) : SoundStep amb.now cfg.state.1 next := by
  simp only [settledSettings, Bool.and_eq_true, decide_eq_true_eq] at may
  obtain ⟨le, may⟩ := may
  have swept := Swept.of_exec amb step cfg.state.1
  generalize execSweep amb step cfg.state.1 = result at swept mem
  cases swept with
  | @validated file configured valid =>
    have same : cfg.state.1.configured = file := by simp [Retention.configured, configured]
    rw [resolveDays_eq_cut may (.inr (by rw [same])) (.inr (by rw [same])) (.inr (by rw [same]))]
      at valid
    cases mem_singleton.mp mem
    exact valid
  | @resolved origin opts =>
    simp only [Bool.and_eq_true, Bool.or_eq_true, decide_eq_true_eq] at may
    obtain ⟨⟨reads, fit⟩, origin'⟩ := may
    refine soundStep_of_agreed ?_ (.inl mem)
    cases origin with
    | tick =>
      have days : (cfg.state.1.plan amb .tick opts).days = cfg.state.1.effectiveDays.cut :=
        resolveDays_eq_cut reads (.inr rfl) (.inr rfl) (.inr rfl)
      have valid : Retention.validated cfg.state.1.effectiveDays.cut = true := sound
      rw [effectiveDays_cut fit] at days valid
      simp only [Retention.validated, Bool.and_eq_true, Bool.not_eq_true', Bool.or_eq_false_iff,
        decide_eq_false_iff_not, not_le, ge_iff_le] at valid
      exact ⟨days, valid.1.1.1, valid.2.1, valid.2.2⟩
    | forced =>
      obtain ⟨agree, ordered⟩ := origin'.resolve_left (by decide)
      simp only [defaultsAgree, Bool.and_eq_true, Bool.or_eq_true, decide_eq_true_eq] at agree
      have days : (cfg.state.1.plan amb .forced opts).days = cfg.state.1.effectiveDays.cut :=
        resolveDays_eq_cut reads (agree.1.1.imp_right Eq.symm) (agree.1.2.imp_right Eq.symm)
          (agree.2.imp_right Eq.symm)
      rw [effectiveDays_cut fit] at days
      exact ⟨days, ordered⟩
  | t1Empty => exact soundStep_of_agreed sound (.inr (.inl mem))
  | t1Found =>
    cases mem_singleton.mp mem
    refine ⟨sound, fun id picked => ?_⟩
    obtain ⟨row, mem, rfl⟩ := mem_map.mp picked
    obtain ⟨found, passes⟩ := of_mem_oldest mem
    have ended := (Bool.and_eq_true_iff.mp passes).1
    intro other listed
    -- T1 picks live groups, so nothing of them is archived.
    rcases mem_rowsOf_iff.mp listed with live | ⟨entry, archived, same, rfl⟩
    · rw [found] at live
      cases live
      exact aged_of_endedBefore ended
    · have gone := distinct.apart entry archived
      rw [same, found] at gone
      cases gone
  | removed =>
    dsimp only at mem
    split at mem
    · cases mem_singleton.mp mem
      refine ⟨sound.1, fun id picked => ?_⟩
      rw [append_nil] at picked
      exact fun row listed => (sound.2 id picked row listed).later le
    · cases mem_singleton.mp mem
      exact ⟨sound.1, fun id picked row listed => (sound.2 id picked row listed).later le⟩
  | fannedOut =>
    cases mem_singleton.mp mem
    exact ⟨sound.1, fun id picked row listed => (sound.2 id picked row listed).later le⟩
  | unowned | directed =>
    cases mem_singleton.mp mem
    refine ⟨sound.1, fun id picked row listed => (sound.2 id ?_ row listed).later le⟩
    simp only [mem_append, mem_cons, not_mem_nil, or_false] at picked ⊢
    tauto
  | unstamped | stamped => exact soundStep_of_agreed sound.1 (.inr (.inl mem))
  | t2Found =>
    cases mem_singleton.mp mem
    refine ⟨sound, fun id picked => ?_⟩
    obtain ⟨row, mem, rfl⟩ := mem_map.mp picked
    obtain ⟨found, ended⟩ := of_mem_oldest mem
    intro other live
    rw [found] at live
    cases live
    exact aged_of_endedBefore ended
  | archived =>
    cases mem_singleton.mp mem
    exact sound.1
  | unlimited | capped => exact soundStep_of_agreed sound (.inr (.inr mem))
  | t2Empty | surplus | trimmed =>
    cases mem_singleton.mp mem
    exact sound
  | t3Found =>
    cases mem_singleton.mp mem
    refine ⟨sound, fun id picked => ?_⟩
    obtain ⟨entry, taken, rfl⟩ := mem_map.mp picked
    have sorted := (perm_insertionSort _ _).mem_iff.mp (mem_of_mem_take taken)
    obtain ⟨mem, old⟩ := mem_filter.mp sorted
    refine ⟨distinct.apart entry mem, ?_⟩
    intro other archived same
    -- T3 picks by id, and there is one copy of each.
    obtain rfl : other = entry := inj_on_of_nodup_map distinct.unique archived mem same
    have before := of_decide_eq_true old
    exact ⟨other.archivedAt, rfl, by linarith⟩
  | _ => cases mem

structure Punctual (cfg : SweepSystem) : Prop where
  timely : ∀ taken ∈ cfg.state.2.taken, taken.Timely
  distinct : Distinct cfg.state.1
  sound : ∀ step ∈ cfg.pending, SoundStep cfg.state.2.clock cfg.state.1 step

theorem Punctual.step {before after : SweepSystem} (step : Step timedSweeps settledSettings before after)
    (punctual : Punctual before) : Punctual after := by
  rcases step.cases with ⟨request, -, rfl⟩ | ⟨_, amb, act, _, cur, may, rfl⟩ | ⟨amb, -, rfl⟩
  · refine ⟨punctual.timely, punctual.distinct, ?_⟩
    intro step mem
    rcases Config.mem_spawn.mp mem with old | new
    · exact punctual.sound step old
    · cases mem_singleton.mp new
      cases request <;> trivial
  · have sound := punctual.sound act (Config.mem_pending cur)
    have effect := SweepEffect.of_exec amb act before.state.1
    have guard := may
    simp only [settledSettings, Bool.and_eq_true, decide_eq_true_eq] at guard
    obtain ⟨le, guard⟩ := guard
    refine ⟨?_, ?_, ?_⟩
    · intro taken mem
      rcases mem_append.mp mem with old | new
      · exact punctual.timely taken old
      · have purged {plan : Plan} {id : Uuid} (agreed : Agreed plan before.state.1)
            (old : OldRows plan.days.t1 before.state.2.clock before.state.1 id) :
            ∀ taken ∈ SweepStep.takes.purged amb before.state.1 id, taken.Timely := by
          intro taken mem
          obtain ⟨row, listed, rfl⟩ := mem_map.mp mem
          exact ⟨agreed.2, agreed.1 ▸ (old row listed).later le⟩
        cases act with
        | t1Remove plan ids | t1Stamp plan ids =>
          obtain ⟨id, picked, taken⟩ := mem_flatMap.mp new
          exact purged sound.1 (sound.2 id picked) _ taken
        | t1Fanout plan =>
          obtain ⟨id, picked, taken⟩ := mem_flatMap.mp new
          exact purged sound.1 (sound.2 id (mem_append_left _ (mem_of_mem_take picked))) _ taken
        | t2Archive plan ids =>
          obtain ⟨id, picked, taken⟩ := mem_flatMap.mp new
          obtain ⟨row, found, rfl⟩ := mem_map.mp taken
          exact ⟨sound.1.2, sound.1.1 ▸ (sound.2 id picked row (Option.mem_toList.mp found)).later le⟩
        | t3Delete plan ids =>
          obtain ⟨id, picked, taken⟩ := mem_flatMap.mp new
          obtain ⟨entry, listed, rfl⟩ := mem_map.mp taken
          obtain ⟨archived, own⟩ := mem_filter.mp listed
          exact ⟨sound.1.2, sound.1.1 ▸
            ((sound.2 id picked).2 entry archived (of_decide_eq_true own)).later le⟩
        | _ => cases new
    · refine punctual.distinct.effect effect ?_
      rintro row rfl absent entry archived same
      simp only [Bool.and_eq_true, Bool.or_eq_true, absent, Option.isSome_none, Bool.false_eq_true, false_or,
        all_eq_true, decide_eq_true_eq] at guard
      exact guard.2 entry archived same
    · intro other mem
      have moved {clock : Timestamp} (le : clock ≤ amb.now) (sound : SoundStep clock before.state.1 other)
          (settings : other.rests = true → (∀ key value, act ≠ .putSetting key value) ∧
            ∀ key, act ≠ .deleteSetting key)
          (apart : ∀ id ∈ other.picked, ∀ row, act = .writeGroup row → row.id ≠ id) :
          SoundStep amb.now (execSweep amb act before.state.1).1 other :=
        sound.descends le (fun rests => effect.effectiveDays (settings rests).1 (settings rests).2)
          (fun id picked => effect.descends (apart id picked))
      rcases Config.mem_proceed cur mem with old | new
      · refine moved le (punctual.sound other old) ?_ ?_
        · intro rests
          have busy : before.inFlight SweepStep.rests ≠ 0 := (Config.inFlight_pos old rests).ne'
          refine ⟨?_, ?_⟩
          · rintro key value rfl
            exact busy (of_decide_eq_true guard)
          · rintro key rfl
            exact busy (of_decide_eq_true guard)
        · rintro id picked row rfl same
          have unpicked := (Bool.and_eq_true_iff.mp guard).1
          rw [all_eq_true] at unpicked
          exact of_decide_eq_true (unpicked other old) (same ▸ picked)
      · -- a step that writes settings or groups announces nothing
        refine moved (Int.le_refl _) (soundStep_announced may punctual.distinct sound new) ?_ ?_
        · intro _
          refine ⟨?_, ?_⟩
          · rintro key value rfl
            cases new
          · rintro key rfl
            cases new
        · rintro id picked row rfl
          cases new
  · exact ⟨punctual.timely, punctual.distinct, by rintro _ ⟨⟩⟩

/-- From an empty database: where the settings can be read and keep to 32 bits, a forced sweep finds
them in order and has nothing to fall back to but the file, and nobody interferes with a sweep,
every act of a tier comes when the days in force are in order and the group is as old as the tier
asks. -/
theorem tiers_act_in_time (file : Option RetentionConfig) (logDir redis : Bool) (clock : Timestamp)
    {last : SweepSystem}
    (run : Run timedSweeps settledSettings ⟨(emptyTables file logDir redis, ⟨clock, []⟩), []⟩ last) :
    ∀ taken ∈ last.state.2.taken, taken.Timely := by
  have punctual : Punctual last := by
    refine run.invariant _ (fun _ _ step => Punctual.step step) ⟨?_, ⟨?_, .nil⟩, ?_⟩
    all_goals
      intro _ mem
      cases mem
  exact punctual.timely

namespace Sample

def oldGroup : GroupRow := ⟨⟨0x6a⟩, none, .success, 0, some 0, none⟩

def sweepClock (days : Int) : SweepAmbient :=
  ⟨days * day, fun _ => true, fun _ => true, fun _ => 0, fun _ => 0⟩

def slowFile : RetentionConfig := ⟨5000, 30, 60, 90, false⟩

def sweepStart : SweepSystem := ⟨(emptyTables (some slowFile) true false, ⟨0, []⟩), []⟩

def groupEnds : List (Label SweepAmbient SweepRequest) :=
  [.spawn (.writeGroup oldGroup), .run 0 (sweepClock 0)]

end Sample

open Sample

/-- With 30 days for T1 in the file, a tick on the 31st day purges the files of a group. -/
theorem tiers_act_in_time_tick : ∃ last : SweepSystem, Run timedSweeps settledSettings sweepStart last ∧
      last.state.2.taken = [⟨.t1, ⟨0x6a⟩, some 0, 31 * day, ⟨30, 60, 90⟩⟩,
        ⟨.t1, ⟨0x6a⟩, some 0, 31 * day, ⟨30, 60, 90⟩⟩] ∧
      ∀ taken ∈ last.state.2.taken, taken.Timely :=
  (Run.exists_of_replay _ _ (groupEnds ++ .spawn .tick :: List.replicate 5 (.run 1 (sweepClock 31))) _ _ _
    (by decide)).imp fun _ ⟨reached, seen⟩ =>
      ⟨reached, seen, tiers_act_in_time _ true false 0 reached⟩

/-- A forced sweep falls back to 7 days although the file says 30: it purges a group after ten. -/
theorem forced_sweep_too_early : ∃ last : SweepSystem, Run timedSweeps .free sweepStart last ∧
      (⟨.t1, ⟨0x6a⟩, some 0, 10 * day, ⟨30, 60, 90⟩⟩ : Taken) ∈ last.state.2.taken ∧
      ¬ ∀ taken ∈ last.state.2.taken, taken.Timely := by
  obtain ⟨last, reached, seen⟩ := Run.exists_of_replay timedSweeps .free
    (groupEnds ++ .spawn (.force ⟨true, false, false⟩) :: List.replicate 4 (.run 1 (sweepClock 10)))
      sweepStart
    (fun system => system.state.2.taken) [⟨.t1, ⟨0x6a⟩, some 0, 10 * day, ⟨30, 60, 90⟩⟩,
      ⟨.t1, ⟨0x6a⟩, some 0, 10 * day, ⟨30, 60, 90⟩⟩] (by decide)
  have mem : (⟨.t1, ⟨0x6a⟩, some 0, 10 * day, ⟨30, 60, 90⟩⟩ : Taken) ∈ last.state.2.taken := by
    have listed : last.state.2.taken = _ := seen
    simp [listed]
  refine ⟨last, reached, mem, ?_⟩
  intro timely
  obtain ⟨-, _, found, old⟩ := timely _ mem
  cases found
  exact absurd old (by decide)

def newRows : Discipline Retention SweepStep SweepAmbient SweepRequest where
  spawn _ _ := true
  exec _ step cfg := match step with
    | .writeGroup row => cfg.state.archive.all (fun entry => entry.row.id ≠ row.id)
    | _ => true
  crash _ _ := true

/-- Whatever sweeps, settings and writers do in between, no group is in both tables or twice in the archive. -/
theorem tables_stay_apart (run : Run sweepMachine newRows first last) (apart : Distinct first.state) :
    Distinct last.state := by
  refine run.invariant (Distinct ·.state) (fun before _ step distinct => ?_) apart
  rcases step.cases with ⟨_, -, rfl⟩ | ⟨_, amb, act, _, -, may, rfl⟩ | ⟨_, -, rfl⟩
  · exact distinct
  · refine distinct.effect (.of_exec amb act before.state) ?_
    rintro row rfl _ entry archived
    exact of_decide_eq_true (all_eq_true.mp may entry archived)
  · exact distinct

/-- On the 61st day the group is archived. -/
theorem tables_stay_apart_archived : ∃ last,
    Run sweepMachine newRows ⟨emptyTables (some slowFile) true false, []⟩ last ∧
      last.state.archive.map (fun entry => entry.row.id) = [⟨0x6a⟩] ∧ Distinct last.state :=
  (Run.exists_of_replay _ _ (groupEnds ++ .spawn .tick :: List.replicate 7 (.run 1 (sweepClock 61))) _ _ _
    (by decide)).imp fun _ ⟨reached, seen⟩ =>
      ⟨reached, seen, tables_stay_apart reached ⟨by rintro _ ⟨⟩, .nil⟩⟩

end Chola
