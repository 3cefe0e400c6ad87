import Mathlib.Logic.Relation
import SchemaMigration.Proofs.Migrator.Effect

/-!
# Down bodies that undo up bodies

Where every down body undoes its up body, the content of a store is a function of the version it
records, whatever operations led there.

* `Migrator.At`: a store at a position, with the content that the up bodies to there make;
* `Migrator.run_along`: a plan from a position leads along the positions, down ones to their end;
* `Migrator.moves_content`: at a version the content is that of the up bodies up to it, in order.

The version table must not be referred to, as `Migrator.moves_referred` shows.
-/

namespace SchemaMigration.Migrator

open Sql (Session Connection Database Outcome)

variable {migrator : Migrator} {tree : FileTree} {user : Database}

/-! ## Positions and their contents -/

/-- What the up bodies of the first versions make of a content, one after the other. -/
def climbed (migrator : Migrator) (tree : FileTree) (base : Database) (i : Nat) :
    Option Database :=
  (migrator.source.versions.take i).foldlM (migrator.effect tree .up) base

variable {base : Database} {i j : Nat}

theorem climbed_succ {version : Version} (at? : migrator.source.versions[i]? = some version) :
    migrator.climbed tree base (i + 1) =
      (migrator.climbed tree base i).bind (migrator.effect tree .up · version) := by
  unfold climbed
  rw [List.take_add_one, at?, List.foldlM_append]
  cases (migrator.source.versions.take i).foldlM (migrator.effect tree .up) base with
  | none => rfl
  | some user => exact bind_pure (migrator.effect tree .up user version)

theorem Reversible.blank_of_climbed (reversible : migrator.Reversible tree)
    (blank : migrator.options.Blank base) (made : migrator.climbed tree base i = some user) :
    migrator.options.Blank user := by
  induction i generalizing user with
  | zero =>
      cases made
      exact blank
  | succ i ih =>
      cases at? : migrator.source.versions[i]? with
      | none =>
          unfold climbed at made ih
          rw [List.take_add_one, at?, Option.toList_none, List.append_nil] at made
          exact ih made
      | some version =>
          rw [climbed_succ at?] at made
          obtain ⟨before, earlier, last⟩ := Option.bind_eq_some_iff.mp made
          exact reversible.blank_of_effect (ih earlier) last

/-- The store is at a position: the version there is recorded clean beside what the up bodies to
there make. -/
def At (migrator : Migrator) (tree : FileTree) (base : Database) (i : Nat)
    (connection : Connection) : Prop :=
  ∃ user, migrator.climbed tree base i = some user ∧
    connection = ⟨migrator.options.recorded (migrator.source.versionAt i) false user, none⟩

theorem at_zero (blank : migrator.options.Blank base) {connection : Connection} :
    migrator.At tree base 0 connection ↔ connection = ⟨base, none⟩ := by
  have same : migrator.options.recorded (migrator.source.versionAt 0) false base = base :=
    blank.withVersionRows_nil
  constructor
  · rintro ⟨user, made, rfl⟩
    cases made
    rw [same]
  · rintro rfl
    exact ⟨base, rfl, by rw [same]⟩

theorem At.state (reversible : migrator.Reversible tree) (blank : migrator.options.Blank base)
    {connection : Connection} (here : migrator.At tree base i connection) :
    migrator.options.stateIn connection.content =
      .ok ⟨migrator.source.versionAt i, false⟩ := by
  obtain ⟨user, made, rfl⟩ := here
  have userBlank := reversible.blank_of_climbed blank made
  exact StoreOptions.stateIn_rowsOf (userBlank.hasTable.recorded _ false)

/-- The step up from a position. -/
theorem At.up (reversible : migrator.Reversible tree) (ordered : migrator.source.Ordered)
    (blank : migrator.options.Blank base) {connection : Connection} {version : Version}
    (here : migrator.At tree base i connection)
    (at? : migrator.source.versions[i]? = some version) :
    let outcome := migrator.applyStep tree (Source.upStep version) connection
    (∃ next trail, outcome = ⟨.ok (), next, trail⟩ ∧ migrator.At tree base (i + 1) next) ∨
    (∃ e, outcome = ⟨.error e, connection, []⟩) ∨
    ∃ e, outcome.result = .error e ∧ isBodyFailure (.error e) = true := by
  obtain ⟨user, made, rfl⟩ := here
  have userBlank := reversible.blank_of_climbed blank made
  have fits := ordered.fits (Source.upStep_known at?)
  cases step : migrator.effect tree .up user version with
  | some after =>
      obtain ⟨trail, ran⟩ := applyStep_of_effect reversible userBlank fits step
        (migrator.source.versionAt i)
      refine .inl ⟨_, trail, ran, after, ?_, ?_⟩
      · rw [climbed_succ at?, made]
        exact step
      · rw [show migrator.source.versionAt (i + 1) = some version from at?]
        rfl
  | none =>
      exact .inr (applyStep_of_no_effect reversible.apart userBlank fits step
        (migrator.source.versionAt i))

/-- The step down to a position. -/
theorem At.down (reversible : migrator.Reversible tree) (ordered : migrator.source.Ordered)
    (blank : migrator.options.Blank base) {connection : Connection} {version : Version}
    (here : migrator.At tree base (i + 1) connection)
    (at? : migrator.source.versions[i]? = some version) :
    ∃ next trail, migrator.applyStep tree (migrator.source.downStep version) connection =
      ⟨.ok (), next, trail⟩ ∧ migrator.At tree base i next := by
  obtain ⟨user, made, rfl⟩ := here
  have userBlank := reversible.blank_of_climbed blank made
  rw [climbed_succ at?] at made
  obtain ⟨before, earlier, last⟩ := Option.bind_eq_some_iff.mp made
  have beforeBlank := reversible.blank_of_climbed blank earlier
  have undone := reversible.undoes version before user beforeBlank last
  have fits := ordered.fits (ordered.downStep_known at?)
  obtain ⟨trail, ran⟩ := applyStep_of_effect reversible userBlank fits undone
    (migrator.source.versionAt (i + 1))
  refine ⟨_, trail, ran, before, earlier, ?_⟩
  rw [show (migrator.source.downStep version).target = migrator.source.versionAt i from
    ordered.prev?_eq at?]

/-! ## Along the positions -/

/-- How the way from a position to another ends: there, or, on the way up only, at a position from
which no step was made, or with the failure of a body. -/
inductive Along (migrator : Migrator) (tree : FileTree) (base : Database) (i j : Nat) :
    Outcome Error Unit → Prop
  | arrived {stop : Connection} {trail : List Connection}
      (there : migrator.At tree base j stop) : Along migrator tree base i j ⟨.ok (), stop, trail⟩
  | halted {e : Error} {stop : Connection} {trail : List Connection} {k : Nat} (upwards : i < j)
      (within : k ≤ migrator.source.versions.length) (there : migrator.At tree base k stop) :
      Along migrator tree base i j ⟨.error e, stop, trail⟩
  | broken {e : Error} {stop : Connection} {trail : List Connection} (upwards : i < j)
      (failure : isBodyFailure (.error e) = true) :
      Along migrator tree base i j ⟨.error e, stop, trail⟩

theorem Along.of_step {first next : Session Error Unit} {start middle : Connection}
    {trail : List Connection} {i' : Nat} (upwards : i' < j → i < j)
    (ran : first start = ⟨.ok (), middle, trail⟩)
    (rest : Along migrator tree base i' j (next middle)) :
    Along migrator tree base i j ((first >>= fun _ => next) start) := by
  rw [Session.bind_of_ok ran]
  generalize next middle = outcome at rest
  cases rest with
  | arrived there => exact .arrived there
  | halted upwards' within there => exact .halted (upwards upwards') within there
  | broken upwards' failure => exact .broken (upwards upwards') failure

/-- **Running along the positions.** A plan from a position leads to the other one; on the way up it
may be halted at a position between them, or a body may fail. -/
theorem run_along (reversible : migrator.Reversible tree) (ordered : migrator.source.Ordered)
    (blank : migrator.options.Blank base) (left : i ≤ migrator.source.versions.length)
    (right : j ≤ migrator.source.versions.length) {connection : Connection}
    (here : migrator.At tree base i connection) :
    Along migrator tree base i j
      ((migrator.source.stretch i j).forM (migrator.applyStep tree) connection) := by
  revert connection
  refine Source.stretch_induction (P := fun i => ∀ {connection : Connection},
    migrator.At tree base i connection → Along migrator tree base i j
      ((migrator.source.stretch i j).forM (migrator.applyStep tree) connection)) left right ?_ ?_ ?_
  · intro connection here
    rw [Source.stretch_self]
    exact .arrived here
  · intro k version at? below further connection here
    have bound := (List.getElem?_eq_some_iff.mp at?).1
    rw [Source.stretch_up at? below, Session.forM_cons_apply]
    rcases here.up reversible ordered blank at? with
      ⟨next, trail, ran, there⟩ | ⟨e, refused⟩ | ⟨e, failed, failure⟩
    · exact .of_step (fun _ => below) ran (further there)
    · rw [Session.bind_of_error refused]
      exact .halted below (Nat.le_of_lt bound) here
    · generalize ran : migrator.applyStep tree (Source.upStep version) connection = outcome
        at failed
      obtain ⟨result, stop, trail⟩ := outcome
      cases failed
      rw [Session.bind_of_error ran]
      exact .broken below failure
  · intro k version at? above further connection here
    rw [Source.stretch_down at? above, Session.forM_cons_apply]
    obtain ⟨next, trail, ran, there⟩ := here.down reversible ordered blank at?
    exact .of_step (fun below => absurd below (Nat.not_lt.mpr above)) ran (further there)

/-- An operation leads from position to position unless a body fails. -/
theorem At.perform (reversible : migrator.Reversible tree) (ordered : migrator.source.Ordered)
    (blank : migrator.options.Blank base) (within : i ≤ migrator.source.versions.length)
    {connection : Connection} (here : migrator.At tree base i connection) {operation : Operation}
    (noFailure : isBodyFailure (migrator.perform tree operation connection).result = false) :
    ∃ k ≤ migrator.source.versions.length,
      migrator.At tree base k (migrator.perform tree operation connection).connection := by
  have recorded := here.state reversible blank
  rw [perform_eq] at noFailure ⊢
  cases heads : operation.destination? migrator.source i with
  | none =>
      obtain ⟨target, _, refused⟩ := planned_nowhere recorded heads
      rw [refused]
      exact ⟨i, within, here⟩
  | some j =>
      have bound := Operation.destination?_le heads
      have planned := planned_versionAt ordered within recorded heads
      by_cases arrived : i = j
      · rw [planned, if_pos arrived]
        exact ⟨i, within, here⟩
      · rw [planned, if_neg arrived] at noFailure ⊢
        have along := run_along reversible ordered blank within bound here
        simp only at noFailure ⊢
        generalize (migrator.source.stretch i j).forM (migrator.applyStep tree) connection = outcome
          at along noFailure ⊢
        cases along with
        | arrived there => exact ⟨j, bound, there⟩
        | halted upwards inside there => exact ⟨_, inside, there⟩
        | broken upwards failure => cases failure.symm.trans noFailure

/-- From any position a run down ends at the first one. -/
theorem At.perform_down (reversible : migrator.Reversible tree)
    (ordered : migrator.source.Ordered) (blank : migrator.options.Blank base)
    (within : i ≤ migrator.source.versions.length) {connection : Connection}
    (here : migrator.At tree base i connection) :
    migrator.At tree base 0 (migrator.perform tree .down connection).connection := by
  have planned := planned_versionAt ordered within (here.state reversible blank)
    (show Operation.down.destination? migrator.source i = some 0 from rfl)
  rw [perform_eq]
  by_cases arrived : i = 0
  · rw [planned, if_pos arrived]
    exact arrived ▸ here
  · rw [planned, if_neg arrived]
    have along := run_along reversible ordered blank within (Nat.zero_le _) here
    simp only
    generalize (migrator.source.stretch i 0).forM (migrator.applyStep tree) connection = outcome
      at along ⊢
    cases along with
    | arrived there => exact there
    | halted upwards => exact absurd upwards (Nat.not_lt_zero i)
    | broken upwards => exact absurd upwards (Nat.not_lt_zero i)

/-! ## Any operations -/

/-- An operation in which no body failed; it may have been refused or have come up short. -/
inductive Move (migrator : Migrator) (tree : FileTree) (start : Connection) : Connection → Prop
  | mk (operation : Operation)
      (noFailure : isBodyFailure (migrator.perform tree operation start).result = false) :
      Move migrator tree start (migrator.perform tree operation start).connection

/-- Operations after one another in which no body failed. -/
abbrev Moves (migrator : Migrator) (tree : FileTree) : Connection → Connection → Prop :=
  Relation.ReflTransGen (Move migrator tree)

theorem Moves.exists_at (reversible : migrator.Reversible tree)
    (ordered : migrator.source.Ordered) (blank : migrator.options.Blank base)
    {connection : Connection} (moves : Moves migrator tree ⟨base, none⟩ connection) :
    ∃ i ≤ migrator.source.versions.length, migrator.At tree base i connection := by
  induction moves with
  | refl => exact ⟨0, Nat.zero_le _, (at_zero blank).mpr rfl⟩
  | tail _ move ih =>
      obtain ⟨i, within, here⟩ := ih
      cases move with
      | mk operation noFailure => exact here.perform reversible ordered blank within noFailure

/-- All the way up the sample directory and one step back. -/
theorem sample_back :
    let top := (sampleMigrator.perform sampleTree .up ⟨sampleContent, none⟩).connection
    let back := (sampleMigrator.perform sampleTree (.steps (-1)) top).connection
    isBodyFailure (sampleMigrator.perform sampleTree .up ⟨sampleContent, none⟩).result = false ∧
      isBodyFailure (sampleMigrator.perform sampleTree (.steps (-1)) top).result = false ∧
      sampleMigrator.options.stateIn back.committed = .ok ⟨some 1, false⟩ := by
  decide +kernel

/-- **The content depends on the version alone.** Let down undo up, and let a store start on a
content without version rows and without references to the version table. Whatever operations are
performed, as long as no body fails, the store is clean at some version, and its content is what the
up bodies of the versions up to that one make in order. In particular going up and then down gives
the content back. -/
theorem moves_content (migrator : Migrator) (tree : FileTree) {files : FileTree} {directory : Path}
    (opened : Source.openDirectory files directory = .ok migrator.source)
    (reversible : migrator.Reversible tree) {base : Database}
    (blank : migrator.options.Blank base) :
    (∀ connection, Moves migrator tree ⟨base, none⟩ connection →
      connection.working = none ∧
      ∃ current, migrator.options.stateIn connection.committed = .ok ⟨current, false⟩ ∧
        (migrator.source.versions.filter fun version => current.any (version ≤ ·)).foldlM
            (migrator.effect tree .up) base =
          some (migrator.options.withVersionRows [] connection.committed)) ∧
    (isBodyFailure (migrator.perform tree .up ⟨base, none⟩).result = false →
      (migrator.perform tree .down
        (migrator.perform tree .up ⟨base, none⟩).connection).connection = ⟨base, none⟩) := by
  have ordered := Source.openDirectory_ordered opened
  constructor
  · intro connection moves
    obtain ⟨i, within, here⟩ := Moves.exists_at reversible ordered blank moves
    have state := here.state reversible blank
    obtain ⟨user, made, rfl⟩ := here
    have userBlank := reversible.blank_of_climbed blank made
    refine ⟨rfl, migrator.source.versionAt i, state, ?_⟩
    have content : migrator.options.withVersionRows []
        (migrator.options.recorded (migrator.source.versionAt i) false user) = user := by
      rw [StoreOptions.recorded, StoreOptions.withVersionRows_withVersionRows userBlank.hasTable]
      exact userBlank.withVersionRows_nil
    rw [ordered.filter_le_versionAt within, content]
    exact made
  · intro noFailure
    have start : migrator.At tree base 0 ⟨base, none⟩ := (at_zero blank).mpr rfl
    obtain ⟨i, within, here⟩ := start.perform reversible ordered blank (Nat.zero_le _) noFailure
    exact (at_zero blank).mp (here.perform_down reversible ordered blank within)

theorem moves_content_sample :
    let top := (sampleMigrator.perform sampleTree .up ⟨sampleContent, none⟩).connection
    let back := (sampleMigrator.perform sampleTree (.steps (-1)) top).connection
    back.working = none ∧
      (∃ current, sampleMigrator.options.stateIn back.committed = .ok ⟨current, false⟩ ∧
        (sampleMigrator.source.versions.filter fun version => current.any (version ≤ ·)).foldlM
            (sampleMigrator.effect sampleTree .up) sampleContent =
          some (sampleMigrator.options.withVersionRows [] back.committed)) ∧
      sampleMigrator.options.stateIn back.committed = .ok ⟨some 1, false⟩ ∧
      (sampleMigrator.perform sampleTree .down top).connection = ⟨sampleContent, none⟩ := by
  intro top back
  obtain ⟨everywhere, upAndDown⟩ :=
    moves_content sampleMigrator sampleTree sample_opened sample_reversible sample_blank
  obtain ⟨topWell, backWell, state⟩ := sample_back
  have up : Move sampleMigrator sampleTree ⟨sampleContent, none⟩ top := .mk .up topWell
  have down : Move sampleMigrator sampleTree top back := .mk (.steps (-1)) backWell
  obtain ⟨closed, content⟩ := everywhere back (.tail (.single up) down)
  exact ⟨closed, content, state, upAndDown topWell⟩

/-! ## A version table that is referred to -/

/-- A directory of one version, whose up body changes nothing and which has no down body. -/
def quietTree : FileTree where
  nodes := [([Bytes.ofString "m"], .directory), sampleFile "1_a.up.sql" "SELECT 1;"]

/-- A migrator along the directory. -/
def quietMigrator : Migrator where
  source := ⟨Path.ofString "/m", [(1, { up := some ⟨1, "a", .up, Path.ofString "/m/1_a.up.sql"⟩ })]⟩
  options := {}

/-- The content of a store that was set up on a database in which a row refers to version 1 of a
version table that was dropped. -/
def danglingContent : Database :=
  let earlier := [
    "CREATE TABLE schema_migrations (version INTEGER, dirty BOOLEAN)",
    "CREATE UNIQUE INDEX i ON schema_migrations (version)",
    "CREATE TABLE x (v INTEGER REFERENCES schema_migrations (version))",
    "INSERT INTO schema_migrations VALUES (1, 0)",
    "INSERT INTO x VALUES (1)",
    "DROP INDEX i",
    "DROP TABLE schema_migrations"]
  let setUp : Session Error Unit := do
    earlier.forM fun text => Session.mapError .bodyFailed (Session.batch (Sql.Batch.read text))
    StoreOptions.setUp {}
  (setUp {}).connection.committed

theorem quiet_undoes (version : Version) (before after : Database)
    (made : quietMigrator.effect quietTree .up before version = some after) :
    quietMigrator.effect quietTree .down after version = some before := by
  by_cases member : version ∈ quietMigrator.source.versions
  · have only : version = 1 := List.mem_singleton.mp member
    subst only
    have found : quietMigrator.source.body? quietTree 1 .up = .ok (some "SELECT 1;") := by
      decide +kernel
    have reads : Sql.Batch.read "SELECT 1;" =
        [.statement (.select [some (.numeral 1)] none none none)] := by
      decide +kernel
    rw [effect_of_statement rfl found reads rfl] at made
    cases made
    exact effect_of_no_body (by decide +kernel)
  · rw [effect_of_no_body (body?_of_not_mem member)] at made ⊢
    exact made.symm

/-- What comes of going up from there. -/
theorem quiet_stopped :
    danglingContent.table? "schema_migrations" =
        some (StoreOptions.versionTable "schema_migrations" []) ∧
      isBodyFailure (quietMigrator.perform quietTree .up ⟨danglingContent, none⟩).result = false ∧
      quietMigrator.options.stateIn
        (quietMigrator.perform quietTree .up ⟨danglingContent, none⟩).connection.content =
          .ok ⟨some 1, true⟩ := by
  decide +kernel

/-- A row that refers to the version that a step marks keeps the mark from being replaced, although
the body does nothing and does not fail. -/
theorem moves_referred :
    Source.openDirectory quietTree (Path.ofString "/m") = .ok quietMigrator.source ∧
      quietMigrator.BodiesApart quietTree ∧
      (∀ body db, (quietMigrator.options.run body ⟨db, none⟩).connection.working = none) ∧
      (∀ version before after, quietMigrator.effect quietTree .up before version = some after →
        quietMigrator.effect quietTree .down after version = some before) ∧
      quietMigrator.options.HasRows danglingContent [] ∧
      ∃ connection, Moves quietMigrator quietTree ⟨danglingContent, none⟩ connection ∧
        quietMigrator.options.stateIn connection.content = .ok ⟨some 1, true⟩ := by
  obtain ⟨found, noFailure, dirty⟩ := quiet_stopped
  refine ⟨by decide +kernel, by decide +kernel, StoreOptions.run_closed rfl, quiet_undoes,
    ⟨"schema_migrations", found⟩, ?_⟩
  exact ⟨_, .single (.mk .up noFailure), dirty⟩

end SchemaMigration.Migrator
