import SchemaMigration.Proofs.Migrator.Step
import SchemaMigration.Proofs.Store.Errors

/-!
# Refused operations

An operation looks at the recorded state before it does anything. `Migrator.Refused` lists what it
is refused for: each case says that none of the earlier ones applies, so there is at most one.

* `Operation.idle_iff`: nothing is left to do exactly when an operation heads for where the store
  is;
* `Migrator.planned_eq_error_iff`: an operation has no plan exactly when it is refused;
* `Migrator.run_raises`: the steps of a plan fail with errors of the source, of the database or of a
  body, which no refusal is mistaken for;
* `Migrator.perform_refused`: a refused operation issues nothing and reads no file, and nothing else
  ends like one.
-/

namespace SchemaMigration

open Sql (Session Connection Database Outcome)

/-! ## Nothing to do -/

namespace Operation

/-- No version of the source is above the current one. -/
def NoneAbove (source : Source) (current : Option Version) : Prop :=
  ∀ version ∈ source.versions, current.any (version ≤ ·)

/-- An operation finds nothing to do from the current version. -/
def Idle (source : Source) (current : Option Version) : Operation → Prop
  | .up => NoneAbove source current
  | .down => current = none
  | .goto target => current = some target
  | .steps count =>
    count = 0 ∨ (0 < count ∧ NoneAbove source current) ∨ (count < 0 ∧ current = none)

end Operation

namespace Source

variable {source : Source} {i j : Nat} {version : Version}

theorem versionAt_eq_none_iff (within : i ≤ source.versions.length) :
    source.versionAt i = none ↔ i = 0 := by
  cases i with
  | zero => exact ⟨fun _ => rfl, fun _ => rfl⟩
  | succ k =>
      rw [versionAt, List.getElem?_eq_none_iff]
      omega

/-- A version stands at one position only. -/
theorem Ordered.versionAt_inj (ordered : source.Ordered)
    (left : source.versionAt i = some version) (right : source.versionAt j = some version) :
    i = j := by
  cases i with
  | zero => cases left
  | succ k =>
      cases j with
      | zero => cases right
      | succ l =>
          rcases Nat.lt_trichotomy k l with below | same | above
          · exact absurd (ordered.lt_of_index_lt left right below) (Nat.lt_irrefl _)
          · rw [same]
          · exact absurd (ordered.lt_of_index_lt right left above) (Nat.lt_irrefl _)

/-- Nothing is above the last position and something above every other. -/
theorem Ordered.noneAbove_iff (ordered : source.Ordered) (within : i ≤ source.versions.length) :
    Operation.NoneAbove source (source.versionAt i) ↔ i = source.versions.length := by
  have below := ordered.filter_le_versionAt within
  unfold Operation.NoneAbove
  rw [← List.filter_eq_self, below, List.take_eq_self_iff]
  omega

end Source

namespace Operation

variable {source : Source} {i j : Nat} {operation : Operation}

/-- Nothing is left to do exactly where the operation heads for. -/
theorem idle_iff (ordered : source.Ordered) (within : i ≤ source.versions.length)
    (heads : operation.destination? source i = some j) :
    operation.Idle source (source.versionAt i) ↔ i = j := by
  have above := ordered.noneAbove_iff within
  have first := Source.versionAt_eq_none_iff within
  cases operation with
  | up =>
      cases heads
      exact above
  | down =>
      cases heads
      exact first
  | goto target =>
      have at? := (Source.position?_eq_some heads).2
      refine ⟨fun here => ordered.versionAt_inj here at?, fun same => ?_⟩
      rw [same]
      exact at?
  | steps count =>
      cases heads
      simp only [Idle, above, first]
      omega

end Operation

/-! ## Reasons -/

namespace Migrator

/-- The store is clean at a current version that the source has, or at none. -/
structure Stands (migrator : Migrator) (db : Database) (current : Option Version) : Prop where
  clean : migrator.options.stateIn db = .ok ⟨current, false⟩
  known : ∀ version ∈ current, version ∈ migrator.source.versions

/-- What an operation on a content is refused for. -/
inductive Refused (migrator : Migrator) (db : Database) : Operation → Error → Prop
  /-- The recorded state cannot be read. -/
  | unreadable {operation : Operation} {e : Error}
      (failed : migrator.options.stateIn db = .error e) : Refused migrator db operation e
  /-- A step was started and not finished. -/
  | dirty {operation : Operation} {version : Option Version}
      (marked : migrator.options.stateIn db = .ok ⟨version, true⟩) :
      Refused migrator db operation (.dirty version)
  /-- The source has no migration for the recorded version, and is named in the message. -/
  | unknown {operation : Operation} {version : Version}
      (clean : migrator.options.stateIn db = .ok ⟨some version, false⟩)
      (absent : version ∉ migrator.source.versions) :
      Refused migrator db operation (.versionNotInSource version migrator.source.directory)
  /-- The source does not have the version that is asked for. -/
  | nowhere {current : Option Version} {target : Version}
      (stands : migrator.Stands db current) (absent : target ∉ migrator.source.versions) :
      Refused migrator db (.goto target) (.targetNotInSource target)
  /-- There is nothing to do. -/
  | idle {operation : Operation} {current : Option Version}
      (stands : migrator.Stands db current) (idle : operation.Idle migrator.source current) :
      Refused migrator db operation .noChange

variable {migrator : Migrator} {tree : FileTree} {db : Database} {operation : Operation}
  {current : Option Version} {e : Error}

theorem Stands.exists_versionAt (stands : migrator.Stands db current) :
    ∃ i ≤ migrator.source.versions.length, current = migrator.source.versionAt i :=
  Source.Knows.exists_versionAt stands.known

/-- From a version of the source an operation is refused for its target, for having nothing to do,
or not at all. -/
theorem Stands.planned_eq_error_iff (ordered : migrator.source.Ordered)
    (stands : migrator.Stands db current) :
    migrator.planned operation db = .error e ↔
      (∃ target ∉ migrator.source.versions,
        operation = .goto target ∧ e = .targetNotInSource target) ∨
      (operation.Idle migrator.source current ∧ e = .noChange) := by
  obtain ⟨i, within, here⟩ := stands.exists_versionAt
  subst here
  cases heads : operation.destination? migrator.source i with
  | none =>
      obtain ⟨target, isGoto, refused⟩ := planned_nowhere stands.clean heads
      subst isGoto
      have missing : target ∉ migrator.source.versions := fun member =>
        Bool.false_ne_true ((Source.position?_eq_none.mp heads).symm.trans
          (List.contains_iff_mem.mpr member))
      rw [refused]
      constructor
      · intro same
        cases same
        exact .inl ⟨target, missing, rfl, rfl⟩
      · rintro (⟨_, _, same, rfl⟩ | ⟨idle, _⟩)
        · cases same
          rfl
        · exact absurd (stands.known target idle) missing
  | some j =>
      have idle := Operation.idle_iff ordered within heads
      rw [planned_versionAt ordered within stands.clean heads]
      constructor
      · intro refused
        split at refused
        · rename_i arrived
          cases refused
          exact .inr ⟨idle.mpr arrived, rfl⟩
        · cases refused
      · rintro (⟨target, missing, isGoto, _⟩ | ⟨arrived, rfl⟩)
        · subst isGoto
          have has := Source.Ordered.contains_versionAt (Source.position?_eq_some heads).2
          exact absurd (List.contains_iff_mem.mp has) missing
        · rw [if_pos (idle.mp arrived)]

theorem planned_of_unreadable (failed : migrator.options.stateIn db = .error e) :
    migrator.planned operation db = .error e := by
  unfold planned cleanIn
  rw [failed]

theorem planned_of_dirty {version : Option Version}
    (marked : migrator.options.stateIn db = .ok ⟨version, true⟩) :
    migrator.planned operation db = .error (.dirty version) := by
  unfold planned cleanIn
  rw [marked]

theorem planned_of_unknown {version : Version}
    (clean : migrator.options.stateIn db = .ok ⟨some version, false⟩)
    (absent : version ∉ migrator.source.versions) :
    migrator.planned operation db =
      .error (.versionNotInSource version migrator.source.directory) := by
  have missing : ¬ migrator.source.contains version = true := fun has =>
    absent (List.contains_iff_mem.mp has)
  unfold planned cleanIn
  rw [clean]
  simp only
  rw [if_neg missing]

/-- **What has no plan.** An operation has no plan exactly when it is refused, and then for the
reason that is found first. -/
theorem planned_eq_error_iff (ordered : migrator.source.Ordered) :
    migrator.planned operation db = .error e ↔ migrator.Refused db operation e := by
  constructor
  · intro noPlan
    cases recorded : migrator.options.stateIn db with
    | error cause =>
        cases (planned_of_unreadable recorded).symm.trans noPlan
        exact .unreadable recorded
    | ok state =>
        obtain ⟨current, dirty⟩ := state
        cases dirty with
        | true =>
            cases (planned_of_dirty recorded).symm.trans noPlan
            exact .dirty recorded
        | false =>
            by_cases known : ∀ version ∈ current, version ∈ migrator.source.versions
            · have stands : migrator.Stands db current := ⟨recorded, known⟩
              rcases (stands.planned_eq_error_iff ordered).mp noPlan with
                ⟨target, missing, rfl, rfl⟩ | ⟨idle, rfl⟩
              · exact .nowhere stands missing
              · exact .idle stands idle
            · simp only [not_forall] at known
              obtain ⟨version, rfl, absent⟩ := known
              cases (planned_of_unknown recorded absent).symm.trans noPlan
              exact .unknown recorded absent
  · intro refused
    cases refused with
    | unreadable failed => exact planned_of_unreadable failed
    | dirty marked => exact planned_of_dirty marked
    | unknown clean absent => exact planned_of_unknown clean absent
    | nowhere stands absent =>
        exact (stands.planned_eq_error_iff ordered).mpr (.inl ⟨_, absent, rfl, rfl⟩)
    | idle stands idle => exact (stands.planned_eq_error_iff ordered).mpr (.inr ⟨idle, rfl⟩)

/-! ## Errors of steps -/

/-- The kinds of errors that a step can fail with. -/
def StepKind (e : Error) : Prop :=
  e.kind = .source ∨ e.kind = .database ∨ e.kind = .migration

theorem record_raises (migrator : Migrator) (version : Option Version) (dirty : Bool) :
    Session.Raises StepKind (migrator.options.record version dirty) :=
  fun start e failed => .inr (.inl (migrator.options.record_raises version dirty start e failed))

theorem body?_kind {source : Source} {version : Version} {direction : Direction}
    (failed : source.body? tree version direction = .error e) : e.kind = .source := by
  unfold Source.body? at failed
  split at failed
  · cases failed
  · split at failed
    · cases failed
    · cases failed
      rfl

theorem applyStep_raises (migrator : Migrator) (tree : FileTree) (step : Step) :
    Session.Raises StepKind (migrator.applyStep tree step) := by
  intro start e failed
  cases read : migrator.source.body? tree step.version step.direction with
  | error cause =>
      rw [applyStep_of_unreadable read] at failed
      cases failed
      exact .inl (body?_kind read)
  | ok body? =>
      cases body? with
      | none =>
          rw [applyStep_of_no_body read] at failed
          exact migrator.record_raises _ _ start e failed
      | some body =>
          rw [applyStep_of_body read] at failed
          have bodyRaises := Session.raises_mapError (P := StepKind)
            (f := Error.stepFailed step.version step.direction) (fun _ => .inr (.inr rfl))
            (migrator.options.run body)
          exact (migrator.record_raises _ _).bind (fun _ => bodyRaises.bind fun _ =>
            migrator.record_raises _ _) start e failed

/-- **How a plan fails.** -/
theorem run_raises (migrator : Migrator) (tree : FileTree) (plan : List Step) :
    Session.Raises StepKind (plan.forM (migrator.applyStep tree)) :=
  Session.Raises.forM fun step _ => migrator.applyStep_raises tree step

/-- What is said after a plan is about the number of its steps. -/
theorem verdict_kind {planned : Nat} (failed : operation.verdict planned = .error e) :
    e.kind = .shortLimit := by
  cases operation with
  | up | down | goto => cases failed
  | steps count =>
      simp only [Operation.verdict] at failed
      split at failed
      · cases failed
        rfl
      · cases failed

/-! ## Refused operations -/

/-- Runs operations one after the other, each on what the files hold by then, whatever the
results. -/
def performAll (migrator : Migrator) :
    List (FileTree × Operation) → Connection → List (Except Error Unit) × Connection
  | [], start => ([], start)
  | (tree, operation) :: rest, start =>
    let outcome := migrator.perform tree operation start
    let (results, stop) := migrator.performAll rest outcome.connection
    (outcome.result :: results, stop)

theorem perform_of_refused {start : Connection} (ordered : migrator.source.Ordered)
    (refused : migrator.Refused start.content operation e) :
    migrator.perform tree operation start = ⟨.error e, start, []⟩ := by
  rw [perform_eq, (planned_eq_error_iff ordered).mpr refused]

/-- What an operation that is not refused fails with is no refusal. -/
theorem kind_of_not_refused {start : Connection} (ordered : migrator.source.Ordered)
    (allowed : ∀ e, ¬ migrator.Refused start.content operation e)
    (failed : (migrator.perform tree operation start).result = .error e) :
    StepKind e ∨ e.kind = .shortLimit := by
  rw [perform_eq] at failed
  cases planned : migrator.planned operation start.content with
  | error cause => exact absurd ((planned_eq_error_iff ordered).mp planned) (allowed cause)
  | ok plan =>
      rw [planned] at failed
      simp only at failed
      cases run : plan.forM (migrator.applyStep tree) start with
      | mk result stop trail =>
          rw [run] at failed
          cases result with
          | error cause =>
              rw [Operation.finish_of_error] at failed
              cases failed
              exact .inl (migrator.run_raises tree plan start e (by rw [run]))
          | ok _ =>
              rw [Operation.finish_of_ok] at failed
              exact .inr (verdict_kind failed)

/-- A dirty store answers every operation alike and stays as it is. -/
theorem performAll_of_dirty {version : Option Version} {start : Connection}
    (marked : migrator.options.stateIn start.content = .ok ⟨version, true⟩)
    (requests : List (FileTree × Operation)) :
    migrator.performAll requests start =
      (requests.map fun _ => .error (.dirty version), start) := by
  induction requests with
  | nil => rfl
  | cons request rest ih =>
      obtain ⟨tree, operation⟩ := request
      have refused : migrator.perform tree operation start =
          ⟨.error (.dirty version), start, []⟩ := by
        rw [perform_eq, planned_of_dirty marked]
      simp only [performAll, refused, ih, List.map_cons]

/-- **Refusals.** Let a source be opened, and let an operation start on any connection. If it is
refused, the result is the first reason against it, no statement is issued and no file read, and the
connection is as before. If there is no reason against it, it does not end like a dirty store, a
missing target or an operation with nothing to do. A state that cannot be read is an error of the
database, and a recorded version without a migration one that names the source. Once the store is
dirty, any operations leave it as it is and all end with the same error. -/
theorem perform_refused (migrator : Migrator) {files : FileTree} {directory : Path}
    (opened : Source.openDirectory files directory = .ok migrator.source) (start : Connection)
    (operation : Operation) :
    (∀ e, migrator.Refused start.content operation e → ∀ tree,
      migrator.perform tree operation start = ⟨.error e, start, []⟩) ∧
    ((∀ e, ¬ migrator.Refused start.content operation e) → ∀ tree e,
      (migrator.perform tree operation start).result = .error e →
        e.kind ≠ .dirty ∧ e.kind ≠ .notFound ∧ e.kind ≠ .noChange) ∧
    (∀ e, migrator.options.stateIn start.content = .error e → e.kind = .database) ∧
    (∀ version, (Error.versionNotInSource version migrator.source.directory).message =
      ErrorKind.migration.heading ++ "no migration found for version " ++ toString version ++
        " in " ++ migrator.source.directory.display) ∧
    (∀ version, migrator.options.stateIn start.content = .ok ⟨version, true⟩ → ∀ requests,
      migrator.performAll requests start =
        (requests.map fun _ => .error (.dirty version), start)) := by
  have ordered := Source.openDirectory_ordered opened
  refine ⟨fun e refused tree => perform_of_refused ordered refused, ?_,
    fun e failed => StoreOptions.stateIn_kind failed, fun _ => rfl,
    fun version marked requests => performAll_of_dirty marked requests⟩
  intro allowed tree e failed
  rcases kind_of_not_refused ordered allowed failed with (kind | kind | kind) | kind
  all_goals
    rw [kind]
    decide

/-- From no version the sample directory is not gone down any further, and after a step down to no
version was broken off every operation is told so. -/
theorem perform_refused_sample :
    (∀ tree, sampleMigrator.perform tree .down ⟨sampleContent, none⟩ =
      ⟨.error .noChange, ⟨sampleContent, none⟩, []⟩) ∧
    ∀ requests, sampleMigrator.performAll requests
        ⟨sampleMigrator.options.recorded none true sampleContent, none⟩ =
      (requests.map fun _ => .error (.dirty none),
        ⟨sampleMigrator.options.recorded none true sampleContent, none⟩) := by
  have stands : sampleMigrator.Stands sampleContent none :=
    ⟨by decide +kernel, fun _ member => nomatch member⟩
  have marked : sampleMigrator.options.stateIn
      (sampleMigrator.options.recorded none true sampleContent) = .ok ⟨none, true⟩ := by
    decide +kernel
  exact ⟨(perform_refused sampleMigrator sample_opened ⟨sampleContent, none⟩ .down).1 _
      (.idle stands rfl),
    (perform_refused sampleMigrator sample_opened
      ⟨sampleMigrator.options.recorded none true sampleContent, none⟩ .up).2.2.2.2 none marked⟩

end Migrator

end SchemaMigration
