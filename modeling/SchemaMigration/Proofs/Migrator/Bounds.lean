import Mathlib.Logic.Relation
import SchemaMigration.Proofs.Migrator.Failure
import SchemaMigration.Proofs.Store.Requests

/-!
# Versions stay inside the source

To its store an operation is a list of requests: two recordings around each body, or one recording
where there is no body. Every target among them is no version or one of the source, so the store
never holds another one, and neither a version that is too large nor one that the source does not
have is ever met.

* `Migrator.run_requests`: the steps of a plan are these requests, made until one fails;
* `Migrator.plannedSteps_known`: the targets of an operation;
* `Migrator.Course.Next.sound`: every event keeps the store at the state that was recorded last;
* `Migrator.course_bounded`: so the recorded version stays inside the source.
-/

namespace SchemaMigration

open Sql (Session Connection Database Outcome Column)

namespace Migrator

open StoreOptions (Request)

variable {migrator : Migrator} {tree : FileTree} {db : Database} {operation : Operation}
  {plan : List Step} {columns : List Column}

/-! ## What a plan asks of the store -/

/-- The requests that a plan makes, up to a step whose file cannot be read. -/
def requestsOf (migrator : Migrator) (tree : FileTree) : List Step → List Request
  | [] => []
  | step :: rest =>
    match migrator.source.body? tree step.version step.direction with
    | .error _ => []
    | .ok none => .record step.target false :: migrator.requestsOf tree rest
    | .ok (some body) =>
      .record step.target true :: .run body :: .record step.target false ::
        migrator.requestsOf tree rest

/-- **The steps of a plan are its requests**, made one after the other until one fails. -/
theorem run_requests (plan : List Step) (start : Connection) :
    (plan.forM (migrator.applyStep tree) start).connection =
      ((migrator.requestsOf tree plan).forM
        (Request.perform migrator.options) start).connection := by
  induction plan generalizing start with
  | nil => rfl
  | cons step rest ih =>
      rw [Session.forM_cons_apply]
      unfold requestsOf
      cases read : migrator.source.body? tree step.version step.direction with
      | error e =>
          rw [Session.bind_of_error (applyStep_of_unreadable read)]
          rfl
      | ok body? =>
          cases body? with
          | none =>
              have applied :
                  migrator.applyStep tree step = migrator.options.record step.target false :=
                funext fun _ => applyStep_of_no_body read
              rw [applied]
              exact (Alike.self _).connection_bind (fun _ => ih) start
          | some body =>
              have applied : migrator.applyStep tree step = _ :=
                funext fun _ => applyStep_of_body read
              rw [applied, Session.bind_assoc]
              refine (Alike.self _).connection_bind (fun _ marked => ?_) start
              rw [Session.bind_assoc]
              refine (Alike.told _ _).connection_bind (fun _ ran => ?_) marked
              exact (Alike.self _).connection_bind (fun _ => ih) ran

/-- A request of a plan records the target of a step, or runs a body. -/
theorem of_mem_requestsOf {request : Request} (member : request ∈ migrator.requestsOf tree plan) :
    ∃ step ∈ plan, (∃ dirty, request = .record step.target dirty) ∨
      ∃ body, migrator.source.body? tree step.version step.direction = .ok (some body) ∧
        request = .run body := by
  induction plan with
  | nil => cases member
  | cons step rest ih =>
      have later : request ∈ migrator.requestsOf tree rest → _ := fun isLater =>
        (ih isLater).imp fun _ found => And.imp_left (List.mem_cons_of_mem step) found
      unfold requestsOf at member
      split at member
      · cases member
      · rcases List.mem_cons.mp member with same | isLater
        · exact ⟨step, List.mem_cons_self, .inl ⟨false, same⟩⟩
        · exact later isLater
      · rename_i body read
        rcases List.mem_cons.mp member with same | member
        · exact ⟨step, List.mem_cons_self, .inl ⟨true, same⟩⟩
        · rcases List.mem_cons.mp member with same | member
          · exact ⟨step, List.mem_cons_self, .inr ⟨body, read, same⟩⟩
          · rcases List.mem_cons.mp member with same | isLater
            · exact ⟨step, List.mem_cons_self, .inl ⟨false, same⟩⟩
            · exact later isLater

/-- Bodies that do not name the version table make requests that do not. -/
theorem requestsOf_apart (apart : migrator.BodiesApart tree) :
    ∀ request ∈ migrator.requestsOf tree plan, request.Apart migrator.options.table := by
  intro request member
  obtain ⟨step, _, ⟨dirty, rfl⟩ | ⟨body, read, rfl⟩⟩ := of_mem_requestsOf member
  · trivial
  · exact apart _ _ _ read

/-- The requests of an operation. -/
def asked (migrator : Migrator) (tree : FileTree) (operation : Operation) (db : Database) :
    List Request :=
  migrator.requestsOf tree (migrator.plannedSteps operation db)

/-- An operation leaves what its requests leave. -/
theorem perform_asked (operation : Operation) (start : Connection) :
    (migrator.perform tree operation start).connection =
      ((migrator.asked tree operation start.content).forM (Request.perform migrator.options)
        start).connection :=
  (perform_run operation).2.trans (run_requests _ start)

/-! ## Targets -/

/-- What is planned from a version that the source knows records versions that it knows. -/
theorem plannedSteps_known (ordered : migrator.source.Ordered)
    (known : ∀ state, migrator.options.stateIn db = .ok state → migrator.source.Knows state.version)
    (operation : Operation) :
    ∀ step ∈ migrator.plannedSteps operation db, migrator.source.Knows step.target := by
  intro step member
  cases planned : migrator.planned operation db with
  | error e =>
      rw [plannedSteps, planned] at member
      cases member
  | ok plan =>
      obtain ⟨current, clean, _⟩ := of_planned planned
      have stands : migrator.Stands db current := ⟨clean, known _ clean⟩
      obtain ⟨i, within, rfl⟩ := stands.exists_versionAt
      obtain ⟨j, bound, steps⟩ := exists_plannedSteps_eq ordered within clean operation
      rw [steps] at member
      exact ordered.stretch_known within bound step member

/-! ## Errors -/

/-- The error does not say that a version is too large or missing in the source. -/
structure WithinBounds (e : Error) : Prop where
  fits : ∀ version, e ≠ .versionTooLarge version
  known : ∀ version directory, e ≠ .versionNotInSource version directory

theorem withinBounds_of_statement {e : Error} (ofStatement : StoreOptions.OfStatement e) :
    WithinBounds e := by
  refine ⟨ofStatement.fits, ?_⟩
  rintro version directory rfl
  cases ofStatement.kind

/-- Errors of other kinds say neither. -/
theorem withinBounds_of_kind {e : Error} (kind : ErrorKind) (isKind : e.kind = kind)
    (notDatabase : kind ≠ .database) (notMigration : kind ≠ .migration) : WithinBounds e := by
  subst isKind
  constructor
  · rintro version rfl
    exact notDatabase rfl
  · rintro version directory rfl
    exact notMigration rfl

theorem applyStep_withinBounds {step : Step}
    (fits : ∀ number, step.target = some number → number ≤ Numeral.signedMax) :
    Session.Raises WithinBounds (migrator.applyStep tree step) := by
  have recorded : ∀ dirty,
      Session.Raises WithinBounds (migrator.options.record step.target dirty) :=
    fun dirty => (migrator.options.record_raises_of_fits dirty fits).mono
      fun _ => withinBounds_of_statement
  cases read : migrator.source.body? tree step.version step.direction with
  | error cause =>
      intro start e failed
      rw [applyStep_of_unreadable read] at failed
      cases failed
      exact withinBounds_of_kind .source (body?_kind read) (by decide) (by decide)
  | ok body? =>
      cases body? with
      | none =>
          intro start e failed
          rw [applyStep_of_no_body read] at failed
          exact recorded false start e failed
      | some body =>
          intro start e failed
          rw [applyStep_of_body read] at failed
          have bodyRaises := Session.raises_mapError (P := WithinBounds)
            (f := Error.stepFailed step.version step.direction)
            (fun _ => ⟨(fun _ impossible => nomatch impossible),
              (fun _ _ impossible => nomatch impossible)⟩) (migrator.options.run body)
          exact (recorded true).bind (fun _ => bodyRaises.bind fun _ => recorded false)
            start e failed

/-- **No operation meets a version out of bounds** on a store whose version the source knows. -/
theorem perform_withinBounds (ordered : migrator.source.Ordered) {start : Connection}
    (known : ∀ state, migrator.options.stateIn start.content = .ok state →
      migrator.source.Knows state.version) {e : Error}
    (failed : (migrator.perform tree operation start).result = .error e) : WithinBounds e := by
  rw [perform_eq] at failed
  cases planned : migrator.planned operation start.content with
  | error cause =>
      rw [planned] at failed
      cases failed
      cases (planned_eq_error_iff ordered).mp planned with
      | unreadable unread => exact withinBounds_of_statement (StoreOptions.stateIn_error unread)
      | dirty marked => exact withinBounds_of_kind .dirty rfl (by decide) (by decide)
      | unknown clean absent => exact absurd (known _ clean _ rfl) absent
      | nowhere stands absent => exact withinBounds_of_kind .notFound rfl (by decide) (by decide)
      | idle stands idle => exact withinBounds_of_kind .noChange rfl (by decide) (by decide)
  | ok plan =>
      have steps : migrator.plannedSteps operation start.content = plan := by
        rw [plannedSteps, planned]
        rfl
      have targets := plannedSteps_known ordered known operation
      rw [steps] at targets
      have raises : Session.Raises WithinBounds (plan.forM (migrator.applyStep tree)) :=
        Session.Raises.forM fun step member =>
          applyStep_withinBounds (ordered.fits (targets step member))
      rw [planned] at failed
      simp only at failed
      cases run : plan.forM (migrator.applyStep tree) start with
      | mk result stop trail =>
          rw [run] at failed
          cases result with
          | error cause =>
              rw [Operation.finish_of_error] at failed
              cases failed
              exact raises start e (by rw [run])
          | ok _ =>
              rw [Operation.finish_of_ok] at failed
              exact withinBounds_of_kind .shortLimit (verdict_kind failed) (by decide) (by decide)

/-! ## Courses -/

/-- A store that moves along a source: the state that was recorded last, and the connection. -/
structure Course where
  recorded : Option SchemaState
  connection : Connection

namespace Course

/-- One event: an operation with any arguments and any outcome, on whatever the files hold by then,
or the store opened anew on what is committed. -/
inductive Next (migrator : Migrator) : Course → Course → Prop
  | performed (life : Course) (tree : FileTree) (apart : migrator.BodiesApart tree)
      (operation : Operation) :
      Next migrator life
        ⟨migrator.options.lastOf (migrator.asked tree operation life.connection.content)
            life.connection life.recorded,
          (migrator.perform tree operation life.connection).connection⟩
  | reopened (life : Course) :
      Next migrator life
        ⟨life.recorded, (migrator.options.setUp ⟨life.connection.committed, none⟩).connection⟩

/-- The events that follow one another. -/
abbrev Follows (migrator : Migrator) : Course → Course → Prop :=
  Relation.ReflTransGen (Next migrator)

/-- The store answers what was recorded last, and the source knows it. -/
structure Sound (migrator : Migrator) (columns : List Column) (life : Course) : Prop where
  answers : life.connection.Has (migrator.options.Answers columns [] life.recorded)
  known : migrator.source.Knows (life.recorded.getD {}).version

variable {life next : Course}

theorem Sound.records (sound : Sound migrator columns life) :
    migrator.options.Records columns (life.recorded.getD {}) life.connection.content :=
  sound.answers.content.records

/-- What is read is known. -/
theorem Sound.read_known (sound : Sound migrator columns life) :
    ∀ state, migrator.options.stateIn life.connection.content = .ok state →
      migrator.source.Knows state.version := by
  intro state read
  rw [sound.records.read state read]
  exact sound.known

/-- **One event** keeps the store at what was recorded last, inside the source. -/
theorem Next.sound (step : Next migrator life next) (ordered : migrator.source.Ordered)
    (sound : Sound migrator columns life) : Sound migrator columns next := by
  cases step with
  | reopened =>
      have closed : Connection.Has (migrator.options.Answers columns [] life.recorded)
          ⟨life.connection.committed, none⟩ := sound.answers.closed
      exact ⟨(StoreOptions.setUp_keeps_answers _ closed).1, sound.known⟩
  | performed tree apart operation =>
      have targets := plannedSteps_known ordered sound.read_known operation
      constructor
      · rw [perform_asked]
        exact StoreOptions.makeAll_answers _ (requestsOf_apart apart) sound.answers
      · rcases StoreOptions.lastOf_cases migrator.options
            (migrator.asked tree operation life.connection.content) life.connection
            life.recorded with
          same | ⟨request, member, state, records, isLast⟩
        · rw [same]
          exact sound.known
        · rw [isLast]
          obtain ⟨planned, isPlanned, ⟨dirty, rfl⟩ | ⟨body, _, rfl⟩⟩ := of_mem_requestsOf member
          · cases records
            exact targets planned isPlanned
          · cases records

theorem Follows.sound (follows : Follows migrator life next) (ordered : migrator.source.Ordered)
    (sound : Sound migrator columns life) : Sound migrator columns next := by
  induction follows with
  | refl => exact sound
  | tail _ step ih => exact step.sound ordered ih

/-- What a store shows whose version stays inside the source. -/
structure Bounded (migrator : Migrator) (life : Course) : Prop where
  /-- At most one row stands in the version table, in each content of the connection. -/
  single : life.connection.Has fun db =>
    ∃ table, db.table? migrator.options.table = some table ∧ table.rows.length ≤ 1
  /-- No other state is read than the one recorded last. -/
  read : ∀ state, (migrator.options.state life.connection).result = .ok state →
    state = life.recorded.getD {}
  /-- Its version is none, or one of the source that fits into a cell. -/
  known : ∀ version, (life.recorded.getD {}).version = some version →
    version ∈ migrator.source.versions ∧ version ≤ Numeral.signedMax
  /-- No operation meets a version that is too large or not in the source. -/
  errors : ∀ tree operation e, (migrator.perform tree operation life.connection).result = .error e →
    WithinBounds e

theorem Sound.bounded (ordered : migrator.source.Ordered) (sound : Sound migrator columns life) :
    Bounded migrator life := by
  have single : ∀ {db : Database}, migrator.options.Answers columns [] life.recorded db →
      ∃ table, db.table? migrator.options.table = some table ∧ table.rows.length ≤ 1 := by
    intro db answers
    obtain ⟨_, ⟨table, found, _, rfl⟩, short⟩ := answers.records.row
    rw [List.length_map] at short
    exact ⟨table, found, short⟩
  constructor
  · exact ⟨single sound.answers.committed,
      fun db isOpen => single (sound.answers.working db isOpen)⟩
  · exact sound.records.read
  · exact fun version recorded =>
      ⟨sound.known version recorded, ordered.fits sound.known version recorded⟩
  · exact fun tree operation e failed => perform_withinBounds ordered sound.read_known failed

end Course

/-- **The recorded version stays inside the source.** Let a source be opened, and a store on any
content without a version row. Take any operations on it, with any outcomes and with bodies that do
not name the version table, and any opening anew in between. At every time the version table holds
one row at most, and no other state is read than the target that was recorded last, as dirty or
clean; its version is none or one of the source, and fits into a cell. So no operation is refused
because a version is too large or not in the source. If the columns of a version table that was
there before store numbers as they are, and always for one that the store made itself, that state is
read. -/
theorem course_bounded (migrator : Migrator) {files : FileTree} {directory : Path}
    (opened : Source.openDirectory files directory = .ok migrator.source) {db : Database}
    (empty : ∀ table, db.table? migrator.options.table = some table → table.rows = [])
    (ready : (migrator.options.setUp ⟨db, none⟩).result = .ok ()) {life : Course}
    (follows : Course.Follows migrator
      ⟨none, (migrator.options.setUp ⟨db, none⟩).connection⟩ life) :
    Course.Bounded migrator life ∧
      ((∀ table, db.table? migrator.options.table = some table →
          StoreOptions.legible table.columns = true) →
        (migrator.options.state life.connection).result = .ok (life.recorded.getD {})) := by
  have ordered := Source.openDirectory_ordered opened
  obtain ⟨columns, shows, isLegible⟩ := StoreOptions.shows_of_setUp empty ready
  have start : Course.Sound migrator columns
      ⟨none, (migrator.options.setUp ⟨db, none⟩).connection⟩ :=
    ⟨shows, Source.knows_none _⟩
  have sound := follows.sound ordered start
  exact ⟨sound.bounded ordered, fun all => sound.records.legible (isLegible all)⟩

/-- The course of a store on a directory whose second body fails. -/
def sampleCourse : Course :=
  let start := (sampleMigrator.options.setUp ⟨{}, none⟩).connection
  { recorded := sampleMigrator.options.lastOf
      (sampleMigrator.asked faultyTree (.steps 5) start.content) start none
    connection := (sampleMigrator.perform faultyTree (.steps 5) start).connection }

/-- It ends dirty at the second version. -/
theorem course_bounded_sample :
    sampleCourse.recorded = some ⟨some 2, true⟩ ∧ Course.Bounded sampleMigrator sampleCourse ∧
      ((∀ table, Database.table? {} sampleMigrator.options.table = some table →
          StoreOptions.legible table.columns = true) →
        (sampleMigrator.options.state sampleCourse.connection).result =
          .ok (sampleCourse.recorded.getD {})) := by
  have apart : sampleMigrator.BodiesApart faultyTree := by decide +kernel
  exact ⟨by decide +kernel, course_bounded sampleMigrator sample_opened
    (by rintro _ ⟨⟩) (by decide +kernel)
    (.single (.performed _ faultyTree apart (.steps 5)))⟩

/-- A content with an empty version table in which versions are texts. -/
def textContent : Database where
  tables := [{
    name := "schema_migrations"
    columns := [⟨"version", .text, false, .null⟩, ⟨"dirty", .numeric, false, .null⟩] }]

/-- A store opens on that content, and after all went up the version cannot be read. -/
theorem course_bounded_text :
    let start := (sampleMigrator.options.setUp ⟨textContent, none⟩).connection
    let outcome := sampleMigrator.perform sampleTree .up start
    (sampleMigrator.options.setUp ⟨textContent, none⟩).result = .ok () ∧
      outcome.result = .ok () ∧
      (sampleMigrator.options.state outcome.connection).result =
        .error (.versionCellType "Text" 0 "version") := by
  decide +kernel

end Migrator

end SchemaMigration
