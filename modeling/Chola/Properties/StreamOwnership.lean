import Chola.Controller.StreamLife
import Chola.Fleet.Frames
import Chola.Fleet.Sample

namespace Chola

open Base Config List Bool Table

def Controller.streamsOf (ctrl : Controller) (workerId : String) : List Nat :=
  (ctrl.streams.entries.filter (fun entry => entry.2.workerId = workerId)).map Prod.fst

def FleetStep.closes : FleetStep → Option String
  | .core (.stream (.close workerId)) => some workerId
  | _ => none

/-- The task of a stream of the worker is about to do this, or the entry of the worker is about to go. -/
def FleetStep.tends (workerId : String) : FleetStep → Bool
  | .core (.stream (.close name)) | .core (.stream (.send _ name ..)) => name = workerId
  | _ => false

/-- The administration revokes the streams of a worker when it sets out to take the entry away. -/
def noteRevoked (lib : Externals) (sha256 : String → String) (amb : FleetAmbient) (step : FleetStep)
    (fleet : Fleet) (revoked : List Nat) : List Nat :=
  match step with
  | .core _ => revoked
  | _ => ((execFleet lib sha256 amb step fleet).2.filterMap FleetStep.closes).flatMap
      fleet.core.streamsOf ++ revoked

abbrev StreamSystem := Config (Fleet × List Nat) FleetStep

def streamMachine (lib : Externals) (sha256 : String → String) :
    Machine (Fleet × List Nat) FleetStep FleetAmbient FleetRequest :=
  (fleetMachine lib sha256).observed (noteRevoked lib sha256)

abbrev StreamRule := Discipline (Fleet × List Nat) FleetStep FleetAmbient FleetRequest

def freshStreams (cfg : ControllerConfig) (settings : Option Settings) (redis : Bool)
    (access : TokenState) (logs : LogAggregator) (ret : Retention) : StreamSystem where
  state := ({
    core := (fresh cfg settings redis).state
    access := access
    logs := logs
    retention := ret }, [])
  threads := []

namespace StreamSystem

/-- The tasks of the worker's streams have ended, and its entry is not about to go. -/
def untended (workerId : String) (cfg : StreamSystem) : Bool :=
  cfg.state.1.core.streams.entries.all (fun entry => entry.2.workerId ≠ workerId || !entry.2.looping) &&
    cfg.pending.all (fun step => !step.tends workerId)

/-- What was sent on the worker's streams has been read, and nothing is about to be sent on them. -/
def read (workerId : String) (cfg : StreamSystem) : Bool :=
  cfg.state.1.core.streams.entries.all (fun entry => entry.2.workerId ≠ workerId || !entry.2.isOpen ||
    (entry.2.queue.isEmpty && cfg.pending.all (fun step =>
      match step with
      | .core act => !act.feeds entry.1
      | _ => true)))

def entered (stream : Nat) (cfg : StreamSystem) : Bool :=
  (cfg.state.1.core.streams.get? stream).any (fun feed =>
    cfg.state.1.core.senders.get? feed.workerId = some stream)

end StreamSystem

/-- A worker opens a stream when the tasks of its earlier ones have ended; an entry is taken away
when all that was sent is read; and a task whose stream is not entered finds no job. -/
def undisturbed : StreamRule where
  spawn _ _ := true
  exec amb step cfg :=
    match step with
    | .core (.stream (.openStream workerId)) => StreamSystem.untended workerId cfg
    | .core (.stream (.close workerId)) => StreamSystem.read workerId cfg
    | .core (.stream (.wake stream)) =>
      StreamSystem.entered stream cfg || (dispatchChoice amb.core stream cfg.state.1.core).isNone
    | _ => true
  crash _ _ := true

/-- Who is entered, whose task runs, and what is left to do about it. -/
structure StreamSystem.Owned (cfg : StreamSystem) : Prop where
  wired : cfg.state.1.core.Wired
  single : ∀ left right feed other, cfg.state.1.core.streams.get? left = some feed →
    cfg.state.1.core.streams.get? right = some other → feed.workerId = other.workerId →
    feed.looping = true → other.looping = true → left = right
  owned : ∀ stream feed, cfg.state.1.core.streams.get? stream = some feed → feed.isOpen = true →
    stream ∉ cfg.state.2 →
    feed.looping = true ∧ cfg.state.1.core.senders.get? feed.workerId = some stream
  closing : ∀ workerId, .core (.stream (.close workerId)) ∈ cfg.pending →
    ∀ stream feed, cfg.state.1.core.streams.get? stream = some feed → feed.workerId = workerId →
      feed.isOpen = true → stream ∈ cfg.state.2
  sending : ∀ stream workerId groupId assignment,
    .core (.stream (.send stream workerId groupId assignment)) ∈ cfg.pending →
    ∀ other feed, cfg.state.1.core.streams.get? other = some feed → feed.workerId = workerId →
      feed.isOpen = true → other ∉ cfg.state.2 → other = stream

section Exec

variable {lib : Externals} {sha256 : String → String} {amb : FleetAmbient} {cfg : StreamSystem}

theorem ended_of_untended (quiet : cfg.untended workerId = true)
    (found : cfg.state.1.core.streams.get? stream = some feed) (own : feed.workerId = workerId) :
    feed.looping = false := by
  simp only [StreamSystem.untended, and_eq_true, all_eq_true] at quiet
  have passes := quiet.1 (stream, feed) (mem_entries_iff.mpr found)
  simpa [own] using passes

theorem idle_of_untended (quiet : cfg.untended workerId = true) (mem : step ∈ cfg.pending) :
    step.tends workerId = false := by
  simp only [StreamSystem.untended, and_eq_true, all_eq_true] at quiet
  simpa using quiet.2 step mem

theorem core_ages (may : undisturbed.exec amb (.core act) cfg = true)
    (found : (exec lib amb.core act cfg.state.1.core).1.streams.get? stream = some feed) :
    (∃ old, cfg.state.1.core.streams.get? stream = some old ∧ old.Ages cfg.state.1.core act stream feed) ∨
      (∃ workerId, act = .stream (.openStream workerId) ∧ feed.workerId = workerId ∧
        cfg.untended workerId = true ∧ stream = cfg.state.1.core.nextStream ∧ feed.looping = true ∧
        (exec lib amb.core act cfg.state.1.core).1 = cfg.state.1.core.withStream workerId) := by
  rcases exec_ages act found with old | ⟨workerId, rfl, new, own, loops, opened⟩
  · exact .inl old
  · exact .inr ⟨workerId, rfl, own, may, new, loops, opened⟩

variable (held : cfg.Owned) (may : undisturbed.exec amb (.core act) cfg = true)

include held may

private theorem closing_core (closes : .core (.stream (.close workerId)) ∈ cfg.pending ∨
      .stream (.close workerId) ∈ (exec lib amb.core act cfg.state.1.core).2)
    (runs : .core act ∈ cfg.pending)
    (found : (exec lib amb.core act cfg.state.1.core).1.streams.get? stream = some feed)
    (own : feed.workerId = workerId) (reads : feed.isOpen = true) : stream ∈ cfg.state.2 := by
  by_contra unrevoked
  rcases closes with old | new
  · rcases core_ages may found with ⟨before, was, ages⟩ | ⟨opener, -, same, quiet, -⟩
    · exact unrevoked (held.closing workerId old stream before was (ages.workerId.symm.trans own)
        (ages.reading reads))
    · have idle := idle_of_untended quiet old
      simp [FleetStep.tends, ← own, ← same] at idle
  · have opens : ∀ opener, act ≠ .stream (.openStream opener) := by
      rintro opener rfl
      simp only [exec, execStream] at new
      split at new <;> cases new
    rcases core_ages may found with ⟨before, was, ages⟩ | ⟨opener, opening, -⟩
    · have mine : before.workerId = workerId := ages.workerId.symm.trans own
      have open_ := ages.reading reads
      rcases closed_of_announced new with
        ⟨ended, task, rfl, there, its, loops, closed⟩ | ⟨ended, task, groupId, assignment, rfl,
          there, closed⟩
      · have looping := (held.owned stream before was open_ unrevoked).1
        obtain rfl := held.single stream ended before task was there (mine.trans its.symm) looping loops
        rw [was] at there
        cases there
        rw [open_] at closed
        cases closed
      · obtain rfl := held.sending ended workerId groupId assignment runs stream before was mine
          open_ unrevoked
        rw [was] at there
        cases there
        rw [open_] at closed
        cases closed
    · exact opens opener opening

end Exec

namespace StreamSystem

variable {lib : Externals} {sha256 : String → String} {before after : StreamSystem}

theorem Owned.initial : (freshStreams conf settings online access logs ret).Owned where
  wired := .initial
  single _ _ _ _ found := nomatch found
  owned _ _ found := by cases found
  closing _ mem := nomatch mem
  sending _ _ _ _ mem := by cases mem

theorem Owned.outer (held : before.Owned) (cur : before.threads[index]? = some (step :: rest))
    (outer : ∀ act, step ≠ .core act)
    (same : (execFleet lib sha256 amb step before.state.1).1.core =
      { before.state.1.core with workers := workers }) :
    StreamSystem.Owned (before.proceed index ((streamMachine lib sha256).exec amb step before.state).1
      (((streamMachine lib sha256).exec amb step before.state).2 ++ rest)) := by
  have core : ((streamMachine lib sha256).exec amb step before.state).1.1.core =
      { before.state.1.core with workers := workers } := same
  have revokes : before.state.2 ⊆ ((streamMachine lib sha256).exec amb step before.state).1.2 := by
    intro stream mem
    cases step with
    | core => exact mem
    | _ => exact mem_append_right _ mem
  refine { wired := ?_, single := ?_, owned := ?_, closing := ?_, sending := ?_ }
  all_goals simp only [proceed_state, core]
  · exact ⟨held.wired.numbered, held.wired.linked⟩
  · exact held.single
  · intro stream feed found reads unrevoked
    exact held.owned stream feed found reads (fun old => unrevoked (revokes old))
  · intro workerId mem stream feed found own reads
    rcases mem_proceed cur mem with old | new
    · exact revokes (held.closing workerId old stream feed found own reads)
    · have named := mem_filterMap.mpr ⟨_, new, (rfl : FleetStep.closes _ = some workerId)⟩
      have its : stream ∈ before.state.1.core.streamsOf workerId :=
        mem_map.mpr ⟨(stream, feed), mem_filter.mpr
        ⟨mem_entries_iff.mpr found, decide_eq_true own⟩, rfl⟩
      have listed := mem_flatMap.mpr ⟨workerId, named, its⟩
      cases step with
      | core act => exact absurd rfl (outer act)
      | _ => exact mem_append_left _ listed
  · intro stream workerId groupId assignment mem other feed found own reads unrevoked
    rcases mem_proceed cur mem with old | new
    · exact held.sending stream workerId groupId assignment old other feed found own reads
        (fun old => unrevoked (revokes old))
    · rcases announced_core new with ⟨prior, rfl, -⟩ | handed
      · exact absurd rfl (outer prior)
      · cases handed

theorem Owned.step (held : before.Owned)
    (step : Step (streamMachine lib sha256) undisturbed before after) : after.Owned := by
  rcases step.cases with ⟨_, -, rfl⟩ | ⟨_, amb, ran, _, cur, may, rfl⟩ | ⟨amb, -, rfl⟩
  · refine { held with closing := ?_, sending := ?_ }
    · intro workerId mem
      rcases mem_spawn.mp mem with old | new
      · exact held.closing workerId old
      · obtain ⟨asked, -, there⟩ := started_core new
        cases asked <;> cases mem_singleton.mp there
    · intro stream workerId groupId assignment mem
      rcases mem_spawn.mp mem with old | new
      · exact held.sending stream workerId groupId assignment old
      · obtain ⟨asked, -, there⟩ := started_core new
        cases asked <;> cases mem_singleton.mp there
  · rcases core_cases lib sha256 amb ran _ with ⟨act, rfl⟩ | ⟨outer, _, same, -⟩
    · have runs := mem_pending cur
      have out {other : Action} {cfg : StreamSystem}
          (mem : .core other ∈ ((streamMachine lib sha256).exec amb (.core act) cfg.state).2) :
          other ∈ (exec lib amb.core act cfg.state.1.core).2 := by
        obtain ⟨same, there, mapped⟩ := mem_map.mp mem
        cases mapped
        exact there
      constructor
      · exact held.wired.exec act
      · intro left right feed other first second same loops loopsToo
        rcases core_ages may first with ⟨old, was, ages⟩ | ⟨opener, rfl, own, quiet, new, -⟩
        · rcases core_ages may second with ⟨older, wasToo, agesToo⟩ | ⟨opener, rfl, own, quiet, new, -⟩
          · exact held.single left right old older was wasToo
              (ages.workerId.symm.trans (same.trans agesToo.workerId)) (ages.looping loops)
              (agesToo.looping loopsToo)
          · have ended := ended_of_untended quiet was (ages.workerId.symm.trans (same.trans own))
            rw [ages.looping loops] at ended
            cases ended
        · rcases core_ages may second with ⟨older, wasToo, agesToo⟩ | ⟨-, -, -, -, newToo, -⟩
          · have ended := ended_of_untended quiet wasToo (agesToo.workerId.symm.trans (same.symm.trans own))
            rw [agesToo.looping loopsToo] at ended
            cases ended
          · exact new.trans newToo.symm
      · intro stream feed found reads unrevoked
        rcases core_ages may found with ⟨old, was, ages⟩ | ⟨opener, -, own, -, rfl, loops, opened⟩
        · obtain ⟨loops, entered⟩ := held.owned stream old was (ages.reading reads) unrevoked
          refine ⟨(ages.served reads).trans loops, ?_⟩
          rw [ages.workerId]
          rcases @senders_kept lib amb.core _ _ act _ entered with kept | rfl | rfl
          · exact kept
          · exact absurd (held.closing old.workerId runs stream old was rfl (ages.reading reads)) unrevoked
          · have ended := ended_of_untended may was rfl
            rw [loops] at ended
            cases ended
        · refine ⟨loops, (congrArg (fun after => after.senders.get? feed.workerId) opened).trans ?_⟩
          rw [own, Controller.withStream, get?_insert, if_pos rfl]
      · intro workerId mem stream feed found own reads
        exact closing_core held may ((mem_proceed cur mem).imp_right out) runs found own reads
      · intro stream workerId groupId assignment mem other feed found own reads unrevoked
        rcases (mem_proceed cur mem).imp_right out with old | new
        · rcases core_ages may found with ⟨before, was, ages⟩ | ⟨opener, -, same, quiet, -⟩
          · exact held.sending stream workerId groupId assignment old other before was
              (ages.workerId.symm.trans own) (ages.reading reads) unrevoked
          · have idle := idle_of_untended quiet old
            simp [FleetStep.tends, ← own, ← same] at idle
        · obtain ⟨task, _, rfl, there, its, loops, -⟩ := send_of_announced new
          rcases core_ages may found with ⟨before, was, ages⟩ | ⟨opener, opening, -⟩
          · have mine : before.workerId = workerId := ages.workerId.symm.trans own
            exact held.single other stream before task was there (mine.trans its.symm)
              (held.owned other before was (ages.reading reads) unrevoked).1 loops
          · cases opening
    · exact held.outer cur outer same
  · obtain ⟨streams, -⟩ := recover_streams
    constructor
    · exact .recovered lib amb.core before.state.1.core
    · intro left right feed other found
      cases (streams left).symm.trans found
    · intro stream feed found
      cases (streams stream).symm.trans found
    · rintro _ ⟨⟩
    · rintro _ _ _ _ ⟨⟩

/-- Nothing will be read on the streams of the worker that were opened before. -/
structure Muted (workerId : String) (bound : Nat) (cfg : StreamSystem) : Prop where
  old : bound ≤ cfg.state.1.core.nextStream
  unentered : ∀ stream < bound, cfg.state.1.core.senders.get? workerId ≠ some stream
  silent : ∀ stream feed, stream < bound → cfg.state.1.core.streams.get? stream = some feed →
    feed.workerId = workerId → feed.isOpen = true →
    feed.queue = [] ∧ ∀ act, .core act ∈ cfg.pending → act.feeds stream = false

variable {workerId : String} {bound : Nat}

private theorem silent_core (held : before.Owned) (muted : before.Muted workerId bound)
    (runs : .core act ∈ before.pending) (may : undisturbed.exec amb (.core act) before = true)
    (below : stream < bound)
    (found : (exec lib amb.core act before.state.1.core).1.streams.get? stream = some feed)
    (own : feed.workerId = workerId) (reads : feed.isOpen = true) :
    feed.queue = [] ∧ (∀ other, .core other ∈ before.pending → other.feeds stream = false) ∧
      ∀ other ∈ (exec lib amb.core act before.state.1.core).2, other.feeds stream = false := by
  rcases core_ages may found with ⟨old, was, ages⟩ | ⟨_, -, -, -, new, -⟩
  · have mine : old.workerId = workerId := ages.workerId.symm.trans own
    obtain ⟨empty, idle⟩ := muted.silent stream old below was mine (ages.reading reads)
    have unentered (name : String) : before.state.1.core.senders.get? name ≠ some stream := by
      intro serves
      obtain rfl := ((held.wired.linked name stream serves).2 old was).symm.trans mine
      exact muted.unentered stream below serves
    refine ⟨?_, idle, ?_⟩
    · rcases ages.queue empty with kept | feeds | ⟨name, serves⟩
      · exact kept
      · rw [idle act runs] at feeds
        cases feeds
      · exact absurd serves (unentered name)
    · intro other out
      by_contra feeds
      rw [not_eq_false] at feeds
      cases other with
      | stream step =>
        cases step with
        | send target =>
          obtain rfl := of_decide_eq_true feeds
          obtain ⟨_, _, rfl, there, _, -, chosen⟩ := send_of_announced out
          rw [was] at there
          cases there
          have entered : before.entered target = false := by
            simpa [StreamSystem.entered, was] using unentered old.workerId
          simp [undisturbed, entered, chosen] at may
        | _ => cases feeds
      | _ => cases feeds
  · exact absurd new (below.trans_le muted.old).ne

theorem Muted.step (muted : before.Muted workerId bound) (held : before.Owned)
    (step : Step (streamMachine lib sha256) undisturbed before after) : after.Muted workerId bound := by
  rcases step.cases with ⟨_, -, rfl⟩ | ⟨_, amb, ran, _, cur, may, rfl⟩ | ⟨amb, -, rfl⟩
  · refine ⟨muted.old, muted.unentered, fun stream feed below found own reads => ?_⟩
    obtain ⟨empty, idle⟩ := muted.silent stream feed below found own reads
    refine ⟨empty, fun act mem => ?_⟩
    rcases mem_spawn.mp mem with old | new
    · exact idle act old
    · obtain ⟨asked, -, there⟩ := started_core new
      cases asked <;> (rw [mem_singleton.mp there]; rfl)
  · rcases core_cases lib sha256 amb ran _ with ⟨act, rfl⟩ | ⟨outer, workers, same, -⟩
    · have runs := mem_pending cur
      refine ⟨muted.old.trans (exec_nextStream lib amb.core before.state.1.core act), ?_, ?_⟩
      · intro stream below serves
        rcases exec_senders lib amb.core before.state.1.core serves with was | ⟨new, -⟩
        · exact muted.unentered stream below was
        · exact absurd new (below.trans_le muted.old).ne
      · intro stream feed below found own reads
        obtain ⟨empty, idle, quiet⟩ := silent_core held muted runs may below found own reads
        refine ⟨empty, fun other mem => ?_⟩
        rcases mem_proceed cur mem with old | new
        · exact idle other old
        · obtain ⟨same, there, mapped⟩ := mem_map.mp new
          cases mapped
          exact quiet other there
    · have core : ((streamMachine lib sha256).exec amb ran before.state).1.1.core =
        { before.state.1.core with workers := workers } := same
      refine ⟨?_, ?_, ?_⟩
      all_goals simp only [proceed_state, core]
      · exact muted.old
      · exact muted.unentered
      · intro stream feed below found own reads
        obtain ⟨empty, idle⟩ := muted.silent stream feed below found own reads
        refine ⟨empty, fun act mem => ?_⟩
        rcases mem_proceed cur mem with old | new
        · exact idle act old
        · rcases announced_core new with ⟨prior, rfl, -⟩ | handed
          · exact absurd rfl (outer prior)
          · cases act with
            | stream step => cases step <;> first | rfl | cases handed
            | _ => rfl
  · obtain ⟨streams, senders, next⟩ := recover_streams
    refine ⟨?_, ?_, ?_⟩
    · exact muted.old.trans next.ge
    · intro stream _ serves
      cases (senders workerId).symm.trans serves
    · intro stream feed _ found
      cases (streams stream).symm.trans found

end StreamSystem

/-- In every run that meets the rule, an open stream that was not revoked is the one entered under
its worker, a worker has no two of them, and what is entered is a stream of its own. After
`regenerate_token` or `delete_worker` has taken the entry away, a delivery on a stream opened before
does nothing. -/
theorem streams_are_owned (lib : Externals) (sha256 : String → String) (cfg : ControllerConfig)
    (settings : Option Settings) (redis : Bool) (access : TokenState) (logs : LogAggregator)
    (ret : Retention) (last : StreamSystem) (run : Run (streamMachine lib sha256) undisturbed
      (freshStreams cfg settings redis access logs ret) last) :
    (∀ stream feed, last.state.1.core.streams.get? stream = some feed → feed.isOpen = true →
      stream ∉ last.state.2 → last.state.1.core.senders.get? feed.workerId = some stream) ∧
    (∀ left right feed other, last.state.1.core.streams.get? left = some feed →
      last.state.1.core.streams.get? right = some other → feed.workerId = other.workerId →
      feed.isOpen = true → other.isOpen = true → left ∉ last.state.2 → right ∉ last.state.2 →
      left = right) ∧
    (∀ workerId stream feed, last.state.1.core.senders.get? workerId = some stream →
      last.state.1.core.streams.get? stream = some feed → feed.workerId = workerId) ∧
    ∀ workerId after final,
      Runs (streamMachine lib sha256) (.core (.stream (.close workerId))) last after →
      last.read workerId = true → Run (streamMachine lib sha256) undisturbed after final →
      ∀ stream < last.state.1.core.nextStream, ∀ feed,
        final.state.1.core.streams.get? stream = some feed → feed.workerId = workerId →
        ∀ amb, exec lib amb (.stream (.deliver stream)) final.state.1.core = (final.state.1.core, []) := by
  have held : last.Owned := run.invariant StreamSystem.Owned (fun _ _ step held => held.step step)
    .initial
  refine ⟨fun stream feed found reads unrevoked => (held.owned stream feed found reads unrevoked).2, ?_,
    fun workerId stream feed serves found => (held.wired.linked workerId stream serves).2 feed found, ?_⟩
  · intro left right feed other first second same reads readsToo unrevoked unrevokedToo
    exact held.single left right feed other first second same (held.owned left feed first reads unrevoked).1
      (held.owned right other second readsToo unrevokedToo).1
  · intro workerId after final closed read onward stream below feed found own amb
    have step : Step (streamMachine lib sha256) undisturbed last after := by
      obtain ⟨index, choice, rest, cur, rfl⟩ := closed
      exact .of_current cur read
    -- Once the entry of the worker is taken away, its streams are silent.
    have silent : StreamSystem.Muted workerId last.state.1.core.nextStream after := by
      obtain ⟨index, choice, rest, cur, rfl⟩ := closed
      refine ⟨le_rfl, ?_, ?_⟩
      · intro stream _ serves
        change (last.state.1.core.senders.erase workerId).get? workerId = some stream at serves
        rw [get?_erase, if_pos rfl] at serves
        cases serves
      · intro stream feed _ found own reads
        simp only [StreamSystem.read, all_eq_true] at read
        have passes := read (stream, feed) (mem_entries_iff.mpr found)
        simp only [own, reads, Bool.not_true, Bool.or_false, Bool.false_or, Bool.and_eq_true,
          List.isEmpty_iff, all_eq_true, ne_eq, not_true_eq_false, decide_false] at passes
        refine ⟨passes.1, fun act mem => ?_⟩
        rcases Config.mem_proceed cur mem with old | new
        · simpa using passes.2 (.core act) old
        · cases new
    obtain ⟨-, muted⟩ := onward.invariant
      (fun cfg => StreamSystem.Owned cfg ∧
        StreamSystem.Muted workerId last.state.1.core.nextStream cfg)
      (fun _ _ step both => ⟨both.1.step step, both.2.step both.1 step⟩) ⟨held.step step, silent⟩
    cases reads : feed.isOpen with
    | false =>
      obtain ⟨worker, queue, isOpen, looping, dispatching⟩ := feed
      cases reads
      simp [exec, execStream, found]
    | true =>
      have empty := (muted.silent stream feed below found own reads).1
      obtain ⟨worker, queue, isOpen, looping, dispatching⟩ := feed
      cases empty
      simp [exec, execStream, found]

namespace Sample

def sampleStreams : StreamSystem :=
  freshStreams config (some (settings [])) false access ⟨.empty, false⟩ retention

structure StreamView where
  entries : List (Option Nat)
  reading : List (Option (String × Bool))
  revoked : List Nat
  (waiting starts pending : Nat)
  deriving DecidableEq

def streamView (system : StreamSystem) : StreamView where
  entries := ["w1", "w2"].map system.state.1.core.senders.get?
  reading := [0, 1].map (fun stream =>
    (system.state.1.core.streams.get? stream).map (fun feed => (feed.workerId, feed.isOpen)))
  revoked := system.state.2
  waiting := ((system.state.1.core.streams.get? 0).map (fun feed => feed.queue.length)).getD 0
  starts := system.state.1.core.startCount (groupA ++ "-build")
  pending := system.pending.length

def isClose : FleetStep → Bool
  | .core (.stream (.close name)) => name = "w1"
  | _ => false

theorem eq_of_isClose (closes : isClose step = true) : step = .core (.stream (.close "w1")) := by
  unfold isClose at closes
  split at closes
  · rw [of_decide_eq_true closes]
  · cases closes

def newToken : Label FleetAmbient FleetRequest :=
  .spawn (.regenerateToken true "w1" ⟨0x8be14f0c72d9465aa1f3c05e9d6b7820⟩ "5f3a")

/-- The token of the first of two workers is renewed: the second stays entered, and nothing more is
delivered to the first. -/
theorem streams_are_owned_renewed :
    ∃ before after last, Run (streamMachine libs id) undisturbed sampleStreams before ∧
      streamView before = ⟨[some 0, some 1], [some ("w1", true), some ("w2", true)], [0], 0, 0, 1⟩ ∧
      (∀ feed, before.state.1.core.streams.get? 1 = some feed → feed.isOpen = true →
        before.state.1.core.senders.get? feed.workerId = some 1) ∧
      Runs (streamMachine libs id) (.core (.stream (.close "w1"))) before after ∧
      Run (streamMachine libs id) undisturbed after last ∧
      streamView last = ⟨[none, some 1], [some ("w1", true), some ("w2", true)], [0], 0, 0, 0⟩ ∧
      exec libs (clock 9) (.stream (.deliver 0)) last.state.1.core = (last.state.1.core, []) := by
  obtain ⟨before, after, last, _, reached, closes, ran, run, first, -, final⟩ :=
    Run.exists_runs_of_replay (streamMachine libs id) undisturbed undisturbed
      (connects "w1" 0 ++ connects "w2" 2 ++ [newToken] ++ fleetSteps 4 1 3)
      4 (fleetClock 3) isClose ([.spawn (.core (.wakeStream 0))] ++ fleetSteps 5 1 5)
      sampleStreams (fun system => (streamView system, system.state.1.core.nextStream,
        StreamSystem.read "w1" system))
      (⟨[some 0, some 1], [some ("w1", true), some ("w2", true)], [0], 0, 0, 1⟩, 2, true)
      (⟨[none, some 1], [some ("w1", true), some ("w2", true)], [0], 0, 0, 0⟩, 2, true)
      (⟨[none, some 1], [some ("w1", true), some ("w2", true)], [0], 0, 0, 0⟩, 2, true) (by decide)
  cases eq_of_isClose closes
  simp only [Prod.mk.injEq] at first final
  obtain ⟨owned, -, -, quiet⟩ := streams_are_owned _ id config _ false access
    _ _ before reached
  have unrevoked : 1 ∉ before.state.2 := by
    rw [show before.state.2 = [0] from congrArg StreamView.revoked first.1]
    decide
  have mine := (List.cons.inj (congrArg StreamView.reading final.1)).1
  obtain ⟨feed, found, seen⟩ := Option.map_eq_some_iff.mp mine
  refine ⟨before, after, last, reached, first.1, fun feed found reads => owned 1 feed found reads unrevoked,
    ran, run, final.1, ?_⟩
  exact quiet "w1" after last ran first.2.2 run 0 (by rw [first.2.1]; decide) feed found
    (congrArg Prod.fst seen) (clock 9)

/-- A worker opens a stream again before the task of the old one has ended: that takes the new entry
away. And after the token of a worker was renewed, a job is started from the stream that was open
before. -/
theorem streams_outlive_their_entries : (∃ last, Run (streamMachine libs id) .free sampleStreams last ∧
      streamView last = ⟨[none, none], [some ("w1", false), some ("w1", true)], [], 0, 0, 0⟩) ∧
    ∃ before after last, Run (streamMachine libs id) .free sampleStreams before ∧
      Runs (streamMachine libs id) (.core (.stream (.close "w1"))) before after ∧
      Run (streamMachine libs id) .free after last ∧
      streamView before = ⟨[some 0, none], [some ("w1", true), none], [0], 0, 0, 1⟩ ∧
      streamView last = ⟨[none, none], [some ("w1", true), none], [0], 0, 1, 0⟩ := by
  constructor
  · exact Run.exists_of_replay (streamMachine libs id) .free
      (connects "w1" 0 ++ [.spawn (.core (.disconnectStream 0))] ++ fleetSteps 2 1 2 ++
        [callBy "w1" (.jobStream "w1")] ++ fleetSteps 3 2 3 ++ [.spawn (.core (.wakeStream 0))] ++
        fleetSteps 4 2 4) _ _ _ (by decide)
  · obtain ⟨before, after, last, _, reached, closes, ran, run, first, -, final⟩ :=
      Run.exists_runs_of_replay (streamMachine libs id) .free .free
        (connects "w1" 0 ++ [.spawn (.core (reserve groupAId ["build"]))] ++ fleetSteps 2 7 2 ++
          [newToken] ++ fleetSteps 3 1 3) 3 (fleetClock 3) isClose
        ([.spawn (.core (submit groupA "" "build"))] ++ fleetSteps 4 13 4 ++
          [.spawn (.core (.wakeStream 0))] ++ fleetSteps 5 2 5 ++ [.spawn (.core (.deliver 0))] ++
          fleetSteps 6 1 6)
        sampleStreams streamView ⟨[some 0, none], [some ("w1", true), none], [0], 0, 0, 1⟩
        ⟨[none, none], [some ("w1", true), none], [0], 0, 0, 0⟩
        ⟨[none, none], [some ("w1", true), none], [0], 0, 1, 0⟩ (by decide)
    cases eq_of_isClose closes
    exact ⟨before, after, last, reached, ran, run, first, final⟩

end Sample

end Chola
