import SchemaMigration.Proofs.Sql.NewRow
import SchemaMigration.Proofs.Store.Replacement

/-!
# What a version table shows

A store takes a table of the name of its version table as it finds it, with any columns and keys.
What it reads there depends on the columns and cells alone, and a state that it recorded is read
back exactly, or, where a column does not store integers as they are, not at all.

* `StoreOptions.Shows`: the columns of the version table and the cells of its rows;
* `StoreOptions.execute_keeps_shows`: a statement that does not name the table keeps them;
* `StoreOptions.records_of_replaced`: a state that replaced another is read back, from at most one
  row.
-/

namespace SchemaMigration.StoreOptions

open Sql (Database Row Column Statement Value sameName)

variable {options : StoreOptions} {db after : Database} {columns : List Column}
  {cells : List (List Value)}

/-! ## Columns and rows -/

/-- The columns of the version table and the cells of its rows, whatever else is defined on it and
whatever numbers the rows have. -/
def Shows (options : StoreOptions) (columns : List Column) (cells : List (List Value))
    (db : Database) : Prop :=
  ∃ table, db.table? options.table = some table ∧ table.columns = columns ∧
    table.rows.map (·.cells) = cells

/-- What changes no table changes nothing that is shown. -/
theorem Shows.of_tables (shows : options.Shows columns cells db) (same : after.tables = db.tables) :
    options.Shows columns cells after := by
  obtain ⟨table, found, isShown⟩ := shows
  refine ⟨table, ?_, isShown⟩
  rw [Database.table?, same]
  exact found

/-- A statement that does not name the version table keeps its columns and cells. -/
theorem execute_keeps_shows {statement : Statement}
    (apart : ¬ Sql.Mentions statement.tables options.table) (before after : Database)
    (shows : options.Shows columns cells before) (done : before.execute statement = .ok after) :
    options.Shows columns cells after := by
  obtain ⟨table, found, rfl, rfl⟩ := shows
  obtain ⟨other, stays, kept⟩ := (Database.execute_change done).table?_kept apart found
  exact ⟨other, stays, by rw [kept.same], kept.cells⟩

/-! ## Reading -/

theorem readable_of_found {name : String} {table : Sql.Table}
    (found : db.table? name = some table) : db.readable name = .ok table := by
  rw [Database.readable, found]
  rfl

/-- Only the columns of the version table and the cells of its first row are read. -/
theorem stateIn_congr (left : options.Shows columns cells db)
    (right : options.Shows columns cells after) : options.stateIn after = options.stateIn db := by
  obtain ⟨table, found, rfl, rfl⟩ := left
  obtain ⟨other, foundOther, sameColumns, sameCells⟩ := right
  have heads : other.rows.head?.map (·.cells) = table.rows.head?.map (·.cells) := by
    rw [← List.head?_map, ← List.head?_map, sameCells]
  simp only [stateIn, readable_of_found found, readable_of_found foundOther, Except.mapError, bind,
    Except.bind, Sql.checkColumns, Sql.Table.spelling, Sql.Table.column?, Sql.Table.cell,
    Sql.Table.columnIndex?, sameColumns]
  cases first : table.rows.head? with
  | none =>
      rw [first, Option.map_none, Option.map_eq_none_iff] at heads
      rw [heads]
  | some row =>
      rw [first, Option.map_some, Option.map_eq_some_iff] at heads
      obtain ⟨otherRow, isFirst, same⟩ := heads
      rw [isFirst]
      simp only [same]

/-- Whether a version and its mark are stored as they are. -/
def legible (columns : List Column) : Bool :=
  ["version", "dirty"].all fun name =>
    (columns.find? fun column => sameName column.name name).any (·.affinity.keepsIntegers)

theorem legible_versionColumns : legible versionColumns = true := by
  decide +kernel

theorem exists_column_of_legible (isLegible : legible columns = true) {name : String}
    (member : name ∈ ["version", "dirty"]) :
    ∃ column, (columns.find? fun column => sameName column.name name) = some column ∧
      column.affinity.keepsIntegers = true :=
  (Option.any_eq_true _ _).mp (List.all_eq_true.mp isLegible name member)

theorem checkColumns_eq_ok_iff {table : Sql.Table} {fault : String → Sql.Fault}
    {names : List String} :
    Sql.checkColumns table fault names = .ok () ↔
      ∀ name ∈ names, (table.columnIndex? name).isSome = true := by
  unfold Sql.checkColumns
  cases found : names.find? fun name => (table.columnIndex? name).isNone with
  | none =>
      have all := List.find?_eq_none.mp found
      refine iff_of_true rfl fun name member => ?_
      have present := all name member
      rw [Option.isNone_iff_eq_none, ← ne_eq, Option.ne_none_iff_isSome] at present
      exact present
  | some name =>
      have missing : (table.columnIndex? name).isNone = true :=
        List.find?_some (p := fun name => (table.columnIndex? name).isNone) found
      refine iff_of_false (fun impossible => nomatch impossible) fun all => ?_
      have present := all name (List.mem_of_find?_eq_some found)
      rw [Option.isNone_iff_eq_none.mp missing] at present
      cases present

theorem columnIndex?_of_legible {table : Sql.Table} (isLegible : legible table.columns = true) :
    ∀ name ∈ ["version", "dirty"], (table.columnIndex? name).isSome = true := by
  intro name member
  obtain ⟨column, found, _⟩ := exists_column_of_legible isLegible member
  have has := List.find?_some (p := fun column : Column => sameName column.name name) found
  rw [Sql.Table.columnIndex?, List.findIdx?_isSome, List.any_eq_true]
  exact ⟨column, List.mem_of_find?_eq_some found, has⟩

theorem integerCell_eq_ok {index : Nat} {name : String} {value : Value} {n : Int}
    (read : integerCell index name value = .ok n) : value = .integer n := by
  unfold integerCell at read
  split at read
  · cases read
    rfl
  · cases read

/-! ## A recorded state -/

/-- The version table has at most one row. If a state can be read there it is the given one, and it
can be read if the columns store it as it is. -/
structure Records (options : StoreOptions) (columns : List Column) (state : SchemaState)
    (db : Database) : Prop where
  row : ∃ cells, options.Shows columns cells db ∧ cells.length ≤ 1
  read : ∀ other, options.stateIn db = .ok other → other = state
  legible : legible columns = true → options.stateIn db = .ok state

/-- What is shown is all that counts. -/
theorem Records.of_shows {state : SchemaState} (records : options.Records columns state db)
    (keeps : ∀ cells, options.Shows columns cells db → options.Shows columns cells after) :
    options.Records columns state after := by
  obtain ⟨⟨cells, shows, single⟩, read, isRead⟩ := records
  have same := stateIn_congr shows (keeps cells shows)
  exact ⟨⟨cells, keeps cells shows, single⟩, fun other => by rw [same]; exact read other,
    fun isLegible => by rw [same]; exact isRead isLegible⟩

/-- A version table without rows records a clean state without version. -/
theorem Shows.records (shows : options.Shows columns [] db) : options.Records columns {} db := by
  obtain ⟨table, found, rfl, noCells⟩ := shows
  have empty : table.rows = [] := List.map_eq_nil_iff.mp noCells
  have read : options.stateIn db =
      ((Sql.checkColumns table .noSuchColumn ["version", "dirty"]).mapError
        Error.versionUnreadable).map fun _ => {} := by
    unfold stateIn
    rw [readable_of_found found]
    simp only [Except.mapError, bind, Except.bind, empty, List.head?_nil]
    cases Sql.checkColumns table .noSuchColumn ["version", "dirty"] with
    | ok _ => rfl
    | error fault => rfl
  refine ⟨⟨[], ⟨table, found, rfl, noCells⟩, Nat.zero_le _⟩, ?_, ?_⟩
  · intro other isOther
    rw [read] at isOther
    cases checked : Sql.checkColumns table .noSuchColumn ["version", "dirty"] with
    | ok _ =>
        rw [checked] at isOther
        cases isOther
        rfl
    | error fault =>
        rw [checked] at isOther
        cases isOther
  · intro isLegible
    rw [read, checkColumns_eq_ok_iff.mpr (columnIndex?_of_legible isLegible)]
    rfl

/-- The reading of a table with one row. -/
theorem stateIn_of_single {table : Sql.Table} {row : Row}
    (found : db.table? options.table = some table) (single : table.rows = [row]) :
    options.stateIn db =
      ((Sql.checkColumns table .noSuchColumn ["version", "dirty"]).mapError
        Error.versionUnreadable >>= fun _ => do
          let version ← integerCell 0 (table.spelling "version") (table.cell row "version")
          let dirty ← integerCell 1 (table.spelling "dirty") (table.cell row "dirty")
          return ⟨if 0 ≤ version then some version.toNat else none, dirty ≠ 0⟩) := by
  unfold stateIn
  rw [readable_of_found found]
  simp only [Except.mapError, bind, Except.bind, single, List.head?_cons]

/-- The integers of a state stand for no other. -/
theorem decode_integers (version : Option Version) (dirty : Bool) :
    (⟨if (0 : Int) ≤ version.elim nilVersion Int.ofNat
      then some (version.elim nilVersion Int.ofNat).toNat else none,
      decide ((if dirty then (1 : Int) else 0) ≠ 0)⟩ : SchemaState) = ⟨version, dirty⟩ := by
  cases version <;> cases dirty <;> simp [nilVersion]

/-- What is read from a row that holds a version and its mark. -/
theorem records_of_row {table : Sql.Table} {row : Row} {version : Option Version} {dirty : Bool}
    (found : db.table? options.table = some table) (sameColumns : table.columns = columns)
    (single : table.rows = [row])
    (holds : (∀ name ∈ ["version", "dirty"], (table.columnIndex? name).isSome = true) →
      table.Holds row "version" (version.elim nilVersion Int.ofNat) ∧
      table.Holds row "dirty" (if dirty then 1 else 0)) :
    options.Records columns ⟨version, dirty⟩ db := by
  subst sameColumns
  have read := stateIn_of_single found single
  refine ⟨⟨[row.cells], ⟨table, found, rfl, by rw [single]; rfl⟩, Nat.le_refl _⟩, ?_, ?_⟩
  · intro other isOther
    rw [read] at isOther
    obtain ⟨_, checked, rest⟩ := Sql.bind_eq_ok.mp isOther
    obtain ⟨number, versionRead, rest⟩ := Sql.bind_eq_ok.mp rest
    obtain ⟨mark, dirtyRead, rest⟩ := Sql.bind_eq_ok.mp rest
    have present : Sql.checkColumns table .noSuchColumn ["version", "dirty"] = .ok () := by
      cases columns : Sql.checkColumns table .noSuchColumn ["version", "dirty"] with
      | ok _ => rfl
      | error fault =>
          rw [columns] at checked
          cases checked
    obtain ⟨ofVersion, ofDirty⟩ := holds (checkColumns_eq_ok_iff.mp present)
    rw [ofVersion.read _ (integerCell_eq_ok versionRead),
      ofDirty.read _ (integerCell_eq_ok dirtyRead)] at rest
    rw [← decode_integers version dirty]
    exact (Except.ok.inj rest).symm
  · intro isLegible
    have present := columnIndex?_of_legible isLegible
    obtain ⟨ofVersion, ofDirty⟩ := holds present
    obtain ⟨versionColumn, isVersion, versionKept⟩ :=
      exists_column_of_legible isLegible List.mem_cons_self
    obtain ⟨dirtyColumn, isDirty, dirtyKept⟩ :=
      exists_column_of_legible isLegible (List.mem_cons_of_mem _ List.mem_cons_self)
    rw [read, checkColumns_eq_ok_iff.mpr present, ofVersion.kept _ isVersion versionKept,
      ofDirty.kept _ isDirty dirtyKept, ← decode_integers version dirty]
    rfl

/-! ## Replacing a state -/

/-- The integers of the row that records a state. -/
def integersOf (version : Option Version) (dirty : Bool) : List (String × Int) :=
  [("version", version.elim nilVersion Int.ofNat), ("dirty", if dirty then 1 else 0)]

theorem addressed_integersOf {table : Sql.Table} (version : Option Version) (dirty : Bool)
    (present : ∀ name ∈ ["version", "dirty"], (table.columnIndex? name).isSome = true) :
    table.Addressed (integersOf version dirty) := by
  have apart : sameName "version" "dirty" = false := by decide +kernel
  have reversed : sameName "dirty" "version" = false := by decide +kernel
  constructor
  · intro a left b right same
    rcases List.mem_pair.mp left with rfl | rfl
    · rcases List.mem_pair.mp right with rfl | rfl
      · rfl
      · cases apart.symm.trans same
    · rcases List.mem_pair.mp right with rfl | rfl
      · cases reversed.symm.trans same
      · rfl
  · intro pair member
    rcases List.mem_pair.mp member with rfl | rfl
    · exact present _ List.mem_cons_self
    · exact present _ (List.mem_cons_of_mem _ List.mem_cons_self)

/-- Clearing the version table, whatever its columns are, leaves it without rows. -/
theorem table?_of_delete_ok {table : Sql.Table} (found : db.table? options.table = some table)
    (done : db.delete options.table none = .ok after) :
    after.table? options.table = some { table with rows := [] } := by
  obtain ⟨changed, isChanged, done⟩ := Sql.bind_eq_ok.mp done
  obtain ⟨_, _, done⟩ := Sql.bind_eq_ok.mp done
  obtain ⟨_, _, done⟩ := Sql.bind_eq_ok.mp done
  obtain ⟨_, _, done⟩ := Sql.bind_eq_ok.mp done
  cases (changeable_of_found found).symm.trans isChanged
  cases Database.keepReferences_eq_ok done
  have none : (table.rows.filter fun row => !Sql.selects table none row) = [] :=
    List.filter_eq_nil_iff.mpr fun row _ => Bool.false_ne_true
  rw [none]
  exact Database.table?_put found (Database.mem_of_table? found).2

/-- Filling the version table, whatever its columns are, gives it one more row. -/
theorem table?_of_insert_ok {table : Sql.Table} {version : Option Version} {dirty : Bool}
    (found : db.table? options.table = some table)
    (done : db.insert options.table (some ["version", "dirty"]) [rowOf version dirty] = .ok after) :
    ∃ id, Sql.givenId table ((integersOf version dirty).map (·.1))
        ((integersOf version dirty).map fun pair => .integer pair.2) table.nextId = .ok id ∧
      after.table? options.table = some (table.withRow
        (table.row id (Sql.newCells table ((integersOf version dirty).map (·.1))
          ((integersOf version dirty).map fun pair => .integer pair.2)))) := by
  obtain ⟨_, _, done⟩ := Sql.bind_eq_ok.mp done
  obtain ⟨changed, isChanged, done⟩ := Sql.bind_eq_ok.mp done
  obtain ⟨_, _, done⟩ := Sql.bind_eq_ok.mp done
  obtain ⟨_, _, done⟩ := Sql.bind_eq_ok.mp done
  obtain ⟨_, _, done⟩ := Sql.bind_eq_ok.mp done
  obtain ⟨_, _, done⟩ := Sql.bind_eq_ok.mp done
  obtain ⟨_, _, done⟩ := Sql.bind_eq_ok.mp done
  cases (changeable_of_found found).symm.trans isChanged
  obtain ⟨filled, inserted, done⟩ := Sql.bind_eq_ok.mp done
  cases Database.keepReferences_eq_ok done
  obtain ⟨single, inserted, rest⟩ := Sql.bind_eq_ok.mp inserted
  cases rest
  obtain ⟨id, numbered, inserted⟩ := Sql.bind_eq_ok.mp inserted
  obtain ⟨_, _, inserted⟩ := Sql.bind_eq_ok.mp inserted
  cases inserted
  exact ⟨id, numbered, Database.table?_put found (Database.mem_of_table? found).2⟩

/-- **A state that replaced another is read back**, whatever the columns of the version table are
and whatever stood there before. -/
theorem records_of_replaced {version : Option Version} {dirty : Bool}
    (shows : options.Shows columns cells db)
    (made : options.replaced version dirty db = .ok after) :
    options.Records columns ⟨version, dirty⟩ after := by
  obtain ⟨table, found, rfl, -⟩ := shows
  obtain ⟨emptied, cleared, filled⟩ := Sql.bind_eq_ok.mp made
  have empty := table?_of_delete_ok found cleared
  split at filled
  · obtain ⟨id, numbered, single⟩ := table?_of_insert_ok empty filled
    refine records_of_row single rfl rfl fun present => ?_
    have addressed := addressed_integersOf version dirty present
    exact ⟨addressed.holds_row List.mem_cons_self numbered,
      addressed.holds_row (List.mem_cons_of_mem _ List.mem_cons_self) numbered⟩
  · next unneeded =>
      cases filled
      have none : version = none := by
        cases version with
        | none => rfl
        | some number => exact absurd rfl unneeded
      subst none
      cases dirty with
      | false => exact Shows.records ⟨_, empty, rfl, rfl⟩
      | true => exact absurd rfl unneeded

end SchemaMigration.StoreOptions
