import Mathlib.Logic.Relation
import SchemaMigration.Proofs.Store.Requests

/-!
# Two stores over one content

Two stores whose version tables are told apart by name may share a content. Requests to either of
them come one at a time and in any order.

* `StoreOptions.Shared.Next`: one request to one of the two;
* `StoreOptions.Shared.Next.sound`: it keeps what the other one answers;
* `StoreOptions.shared_answers`: each answers what it recorded last itself.
-/

namespace SchemaMigration.StoreOptions

open Sql (Session Connection Database Column Value sameName)

variable {own other : StoreOptions} {db start : Database} {columns : List Column}
  {cells : List (List Value)}
  {earlier : Option SchemaState} {request : Request}

/-! ## One request -/

/-- A request that does not reach for either version table: its body names none of them and leaves
no transaction open. -/
structure Request.Orderly (own other : StoreOptions) (db : Database) (request : Request) :
    Prop where
  apart : request.Apart own.table
  apartOther : request.Apart other.table
  closes : ∀ body, request = .run body → (own.run body ⟨db, none⟩).connection.working = none

/-- The content that a request leaves. -/
def Request.leaves (options : StoreOptions) (request : Request) (db : Database) : Database :=
  (request.perform options ⟨db, none⟩).connection.committed

/-- Opening anew is always in order. -/
theorem Request.orderly_reopen (own other : StoreOptions) (db : Database) :
    Request.reopen.Orderly own other db :=
  ⟨trivial, trivial, fun _ impossible => nomatch impossible⟩

/-- A request in order leaves no transaction open. -/
theorem Request.Orderly.connection_eq (orderly : request.Orderly own other db) :
    (request.perform own ⟨db, none⟩).connection = ⟨request.leaves own db, none⟩ := by
  have closed : (request.perform own ⟨db, none⟩).connection.working = none := by
    cases request with
    | record version dirty => exact record_closes version dirty db
    | run body => exact orderly.closes body rfl
    | read =>
        exact Session.Closes.bind (fun _ => rfl) (fun _ => Session.Closes.pure ()) db
    | reopen => exact setUp_closes own db
  unfold Request.leaves
  generalize (request.perform own ⟨db, none⟩).connection = left at closed
  obtain ⟨committed, working⟩ := left
  exact congrArg (Connection.mk committed) closed

/-- After a request a store answers what it recorded last. -/
theorem Request.Orderly.answers (orderly : request.Orderly own other db)
    (mine : own.Answers columns cells earlier db) :
    own.Answers columns cells (request.last own ⟨db, none⟩ earlier) (request.leaves own db) := by
  have has := perform_answers orderly.apart (.outside mine)
  rw [orderly.connection_eq] at has
  exact has.committed

/-- A request leaves the answers of the other store. -/
theorem Request.Orderly.spares (orderly : request.Orderly own other db)
    (different : sameName own.table other.table = false)
    (theirs : other.Answers columns cells earlier db) :
    other.Answers columns cells earlier (request.leaves own db) := by
  have has := (perform_keeps execute_keeps_answers different orderly.apartOther _
    (.outside theirs)).1
  rw [orderly.connection_eq] at has
  exact has.committed

/-! ## Requests in any order -/

/-- The content that two stores share, and what each of them recorded last. -/
structure Shared where
  content : Database
  first : Option SchemaState := none
  second : Option SchemaState := none

/-- One request to one of the two stores. -/
inductive Shared.Next (a b : StoreOptions) : Shared → Shared → Prop
  | first (life : Shared) (request : Request) (orderly : request.Orderly a b life.content) :
      Next a b life ⟨request.leaves a life.content, request.last a ⟨life.content, none⟩ life.first,
        life.second⟩
  | second (life : Shared) (request : Request) (orderly : request.Orderly b a life.content) :
      Next a b life ⟨request.leaves b life.content, life.first,
        request.last b ⟨life.content, none⟩ life.second⟩

/-- Requests to the two stores, one after the other. -/
abbrev Shared.Follows (a b : StoreOptions) : Shared → Shared → Prop :=
  Relation.ReflTransGen (Shared.Next a b)

/-- Each store answers what it recorded last, or what its table showed in the beginning. -/
structure Shared.Sound (a b : StoreOptions) (columnsA columnsB : List Column)
    (cellsA cellsB : List (List Value))
    (life : Shared) : Prop where
  first : a.Answers columnsA cellsA life.first life.content
  second : b.Answers columnsB cellsB life.second life.content

variable {a b : StoreOptions} {columnsA columnsB : List Column}
  {cellsA cellsB : List (List Value)}
  {life next : Shared}

/-- **One request** changes what its own store answers, and leaves what the other one does. -/
theorem Shared.Next.sound (step : Shared.Next a b life next)
    (different : sameName a.table b.table = false)
    (sound : Shared.Sound a b columnsA columnsB cellsA cellsB life) :
    Shared.Sound a b columnsA columnsB cellsA cellsB next := by
  have reversed : sameName b.table a.table = false := by
    rw [Sql.sameName_comm]
    exact different
  cases step with
  | first request orderly =>
      exact ⟨orderly.answers sound.first, orderly.spares different sound.second⟩
  | second request orderly =>
      exact ⟨orderly.spares reversed sound.first, orderly.answers sound.second⟩

theorem Shared.Follows.sound (follows : Shared.Follows a b life next)
    (different : sameName a.table b.table = false)
    (sound : Shared.Sound a b columnsA columnsB cellsA cellsB life) :
    Shared.Sound a b columnsA columnsB cellsA cellsB next := by
  induction follows with
  | refl => exact sound
  | tail _ step ih => exact step.sound different ih

/-! ## What each store answers -/

/-- What a store answers on a content that it shares with another, from a start on. -/
structure Answering (own other : StoreOptions) (start : Database) (earlier : Option SchemaState)
    (db : Database) : Prop where
  /-- Before it recorded a state, what it answered at the start. -/
  unrecorded : earlier = none →
    (own.state ⟨db, none⟩).result = (own.state ⟨start, none⟩).result
  /-- If it answers a state, the one it recorded last. -/
  recorded : ∀ state, earlier = some state → ∀ answer,
    (own.state ⟨db, none⟩).result = .ok answer → answer = state
  /-- That state, if its table had columns for it at the start. -/
  legible : ∀ state, earlier = some state → ∀ table, start.table? own.table = some table →
    legible table.columns = true → (own.state ⟨db, none⟩).result = .ok state
  /-- Whatever is asked of the other store. -/
  undisturbed : ∀ request : Request, request.Orderly other own db →
    (own.state ⟨request.leaves other db, none⟩).result = (own.state ⟨db, none⟩).result
  /-- Also once it is opened anew itself. -/
  reopened : (own.state ⟨Request.reopen.leaves own db, none⟩).result =
    (own.state ⟨db, none⟩).result

theorem answering_of_answers {table : Sql.Table} (found : start.table? own.table = some table)
    (different : sameName other.table own.table = false)
    (answers : own.Answers table.columns (table.rows.map (·.cells)) earlier db) :
    Answering own other start earlier db := by
  obtain ⟨shown, shows⟩ := answers.exists_shows
  -- What is shown on the content, taken as what stood there in the beginning.
  have present : own.Answers table.columns shown none db := shows
  have reopens := Request.orderly_reopen own other db
  constructor
  · rintro rfl
    exact stateIn_congr ⟨table, found, rfl, rfl⟩ answers
  · rintro state rfl answer read
    exact Records.read answers answer read
  · rintro state rfl other isTable isLegible
    cases found.symm.trans isTable
    exact Records.legible answers isLegible
  · intro request orderly
    exact stateIn_congr shows (orderly.spares different present)
  · have kept := (setUp_keeps_answers _ (.outside present)).1
    exact stateIn_congr shows (reopens.connection_eq ▸ kept).committed

/-- **Version tables do not disturb each other.** Let two stores share a content that has the
version tables of both, under names that differ by more than letter case. Let any requests follow,
to either of them and in any order, whose bodies name neither table and leave no transaction open.
Then each store answers what it answered at the start, until it recorded a state, and from then on
no other state than the one it recorded last; and that one, if the columns of its table store it as
it is, as those that a store makes do. Nothing that is asked of the other one changes the answer,
and opening either of them anew does not. -/
theorem shared_answers (a b : StoreOptions) (different : sameName a.table b.table = false)
    {start : Database} (firstTable : (start.table? a.table).isSome = true)
    (secondTable : (start.table? b.table).isSome = true) {life : Shared}
    (follows : Shared.Follows a b ⟨start, none, none⟩ life) :
    Answering a b start life.first life.content ∧ Answering b a start life.second life.content := by
  obtain ⟨tableA, foundA⟩ := Option.isSome_iff_exists.mp firstTable
  obtain ⟨tableB, foundB⟩ := Option.isSome_iff_exists.mp secondTable
  have sound := follows.sound different ⟨⟨tableA, foundA, rfl, rfl⟩, ⟨tableB, foundB, rfl, rfl⟩⟩
  have reversed : sameName b.table a.table = false := by
    rw [Sql.sameName_comm]
    exact different
  exact ⟨answering_of_answers foundA reversed sound.first,
    answering_of_answers foundB different sound.second⟩

/-- A store whose table is called like the other's, with a part of the name of its index. -/
def neighbour : StoreOptions where
  table := "Schema_Migrations_Version"

/-- The content of two stores that were opened on nothing. -/
def sharedStart : Shared where
  content := neighbour.prepared (StoreOptions.prepared {} {})

/-- One state recorded by each of them. -/
def sharedLife : Shared :=
  let recorded := (Request.record (some 5) false).leaves {} sharedStart.content
  { content := (Request.record none true).leaves neighbour recorded
    first := (Request.record (some 5) false).last {} ⟨sharedStart.content, none⟩ none
    second := (Request.record none true).last neighbour ⟨recorded, none⟩ none }

theorem sharedLife_follows : Shared.Follows {} neighbour sharedStart sharedLife :=
  .tail (.single (.first sharedStart (.record (some 5) false)
      ⟨trivial, trivial, fun _ impossible => nomatch impossible⟩))
    (.second _ (.record none true) ⟨trivial, trivial, fun _ impossible => nomatch impossible⟩)

/-- Both answer what they recorded. -/
theorem shared_answers_sample :
    sharedLife.first = some ⟨some 5, false⟩ ∧ sharedLife.second = some ⟨none, true⟩ ∧
      Answering {} neighbour sharedStart.content sharedLife.first sharedLife.content ∧
      Answering neighbour {} sharedStart.content sharedLife.second sharedLife.content :=
  ⟨by decide +kernel, by decide +kernel,
    shared_answers {} neighbour (by decide +kernel) (by decide +kernel) (by decide +kernel)
      sharedLife_follows⟩

/-- A content with a table in which versions are texts. -/
def textVersions : Database where
  tables := [{
    name := "m"
    columns := [⟨"version", .text, false, .null⟩, ⟨"dirty", .numeric, false, .null⟩] }]

/-- Two stores open on that content, one with this table, and a version that is recorded there
cannot be read. -/
theorem shared_answers_text :
    let text : StoreOptions := { table := "m" }
    let start := text.prepared (StoreOptions.prepared {} textVersions)
    (StoreOptions.setUp {} ⟨textVersions, none⟩).result = .ok () ∧
      (text.setUp ⟨StoreOptions.prepared {} textVersions, none⟩).result = .ok () ∧
      sameName "schema_migrations" text.table = false ∧
      (text.record (some 5) false ⟨start, none⟩).result = .ok () ∧
      (text.state (text.record (some 5) false ⟨start, none⟩).connection).result =
        .error (.versionCellType "Text" 0 "version") := by
  decide +kernel

end SchemaMigration.StoreOptions
