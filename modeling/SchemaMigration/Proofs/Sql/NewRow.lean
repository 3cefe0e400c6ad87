import SchemaMigration.Proofs.Sql.Change

/-!
# Integers in a new row

A row that is inserted with integers for some columns holds each of them as its column stores it,
and the one for the row key as the number of the row.

* `Affinity.keepsIntegers`: columns that store an integer as it is;
* `Table.Addressed.holds_row`: what a new row holds for a name that was given an integer.
-/

namespace SchemaMigration.Sql

/-- Whether columns of the affinity store an integer as it is. -/
def Affinity.keepsIntegers : Affinity → Bool
  | .integer | .numeric | .blob => true
  | .real | .text => false

theorem Value.coerce_of_keepsIntegers {affinity : Affinity} (keeps : affinity.keepsIntegers = true)
    (n : Int) : (Value.integer n).coerce affinity = .integer n := by
  cases affinity with
  | integer | numeric | blob => rfl
  | real | text => cases keeps

/-- An integer that is stored as an integer is stored as it is. -/
theorem Value.eq_of_coerce_eq_integer {affinity : Affinity} {n m : Int}
    (stored : (Value.integer n).coerce affinity = .integer m) : m = n := by
  cases affinity with
  | integer | numeric | blob =>
      cases stored
      rfl
  | real | text => cases stored

/-- What a row has in a column that was given an integer. -/
structure Table.Holds (table : Table) (row : Row) (name : String) (n : Int) : Prop where
  read : ∀ m, table.cell row name = .integer m → m = n
  kept : ∀ column, table.column? name = some column → column.affinity.keepsIntegers = true →
    table.cell row name = .integer n

/-- Integers for some columns of a table, which are told apart by name. -/
structure Table.Addressed (table : Table) (given : List (String × Int)) : Prop where
  apart : ∀ a ∈ given, ∀ b ∈ given, sameName a.1 b.1 = true → a = b
  columns : ∀ pair ∈ given, (table.columnIndex? pair.1).isSome = true

namespace Table.Addressed

variable {table : Table} {given : List (String × Int)} {name : String} {n : Int}

/-- The names and the values of the integers. -/
theorem zip_eq (given : List (String × Int)) :
    (given.map (·.1)).zip (given.map fun pair => Value.integer pair.2) =
      given.map fun pair => (pair.1, Value.integer pair.2) :=
  List.zip_map'

/-- What is asked of names that are one finds the one integer of that name. -/
theorem find?_eq (addressed : table.Addressed given) {items : List (String × Int)}
    (within : ∀ pair ∈ items, pair ∈ given) {p : String × Int → Bool} (member : (name, n) ∈ items)
    (holds : p (name, n) = true)
    (one : ∀ pair ∈ items, p pair = true → sameName name pair.1 = true) :
    items.find? p = some (name, n) := by
  cases found : items.find? p with
  | none => exact absurd holds (List.find?_eq_none.mp found (name, n) member)
  | some other =>
      have isItem := List.mem_of_find?_eq_some found
      have same := addressed.apart (name, n) (within _ member) other (within _ isItem)
        (one other isItem (List.find?_some found))
      rw [same]

/-- The column of a name that has an integer. -/
theorem exists_column (addressed : table.Addressed given) (member : (name, n) ∈ given) :
    ∃ i column, table.columnIndex? name = some i ∧ table.columns[i]? = some column ∧
      table.column? name = some column ∧ sameName column.name name = true := by
  obtain ⟨i, index⟩ := Option.isSome_iff_exists.mp (addressed.columns _ member)
  obtain ⟨bound, same, first⟩ := List.findIdx?_eq_some_iff_getElem.mp index
  refine ⟨i, table.columns[i], index, List.getElem?_eq_getElem bound, ?_, same⟩
  exact List.find?_eq_some_iff_getElem.mpr ⟨same, i, bound, rfl, fun j before => by
    simpa using first j before⟩

/-- Among new cells an integer is stored as its column stores it. -/
theorem newCells_getElem? (addressed : table.Addressed given) (member : (name, n) ∈ given) {i : Nat}
    {column : Column} (at? : table.columns[i]? = some column)
    (same : sameName column.name name = true) :
    (newCells table (given.map (·.1)) (given.map fun pair => Value.integer pair.2))[i]? =
      some ((Value.integer n).coerce column.affinity) := by
  have found : given.find? (fun pair => sameName pair.1 column.name) = some (name, n) := by
    refine addressed.find?_eq (fun _ within => within) member ?_ fun pair _ asked => ?_
    · rw [sameName_comm]
      exact same
    · rw [sameName_comm] at asked
      rw [sameName_comm, ← sameName_congr asked]
      exact same
  unfold newCells
  rw [List.getElem?_map, at?, Option.map_some, zip_eq, List.find?_map]
  simp only [Function.comp_def, found, Option.map_some]

/-- The integer for the row key is the number of the row. -/
theorem givenId_eq (addressed : table.Addressed given) (member : (name, n) ∈ given)
    (isKey : table.isRowKey name = true) (next : Except Fault Int) :
    givenId table (given.map (·.1)) (given.map fun pair => Value.integer pair.2) next = .ok n := by
  have asked : ∀ pair ∈ given, table.namesRowNumber pair.1 = table.isRowKey pair.1 := by
    intro pair isGiven
    obtain ⟨i, index⟩ := Option.isSome_iff_exists.mp (addressed.columns _ isGiven)
    rw [Table.namesRowNumber, index]
  have found : given.reverse.find? (fun pair => table.namesRowNumber pair.1) = some (name, n) := by
    refine addressed.find?_eq (fun _ within => List.mem_reverse.mp within)
      (List.mem_reverse.mpr member) ?_ fun pair within isNumber => ?_
    · rw [asked _ member]
      exact isKey
    · rw [asked _ (List.mem_reverse.mp within)] at isNumber
      unfold Table.isRowKey at isKey isNumber
      obtain ⟨key, isRowKey, same⟩ := (Option.any_eq_true _ _).mp isKey
      obtain ⟨_, isRowKey', other⟩ := (Option.any_eq_true _ _).mp isNumber
      cases isRowKey.symm.trans isRowKey'
      rw [sameName_congr same, sameName_comm]
      exact other
  unfold givenId
  rw [zip_eq, ← List.map_reverse, List.find?_map]
  simp only [Function.comp_def, found, Option.map_some]
  rfl

/-- An integer in a new row is the number of the row, or stored as its column stores it. -/
theorem cell_row (addressed : table.Addressed given) (member : (name, n) ∈ given)
    {next : Except Fault Int} {id : Int}
    (numbered : givenId table (given.map (·.1)) (given.map fun pair => Value.integer pair.2) next =
      .ok id) :
    ∃ column, table.column? name = some column ∧
      let row := table.row id
        (newCells table (given.map (·.1)) (given.map fun pair => Value.integer pair.2))
      (table.cell row name = .integer n ∨
        table.cell row name = (Value.integer n).coerce column.affinity) := by
  obtain ⟨i, column, index, at?, found, same⟩ := addressed.exists_column member
  have stored := addressed.newCells_getElem? member at? same
  refine ⟨column, found, ?_⟩
  unfold Table.cell Table.row
  rw [index]
  cases key : table.rowKey.bind table.columnIndex? with
  | none => exact .inr (by simp only [Option.bind_some, stored, Option.getD_some])
  | some k =>
      by_cases isKey : k = i
      · -- The row key is the column of the name, which thus is the row's number.
        subst isKey
        obtain ⟨rowKey, isRowKey, keyIndex⟩ := Option.bind_eq_some_iff.mp key
        obtain ⟨bound, sameKey, _⟩ := List.findIdx?_eq_some_iff_getElem.mp keyIndex
        rw [List.getElem?_eq_getElem bound] at at?
        cases at?
        have named : table.isRowKey name = true := by
          rw [Table.isRowKey, isRowKey, Option.any_some, ← sameName_congr same]
          exact sameKey
        cases (addressed.givenId_eq member named next).symm.trans numbered
        have inside := (List.getElem?_eq_some_iff.mp stored).1
        exact .inl (by simp only [Option.bind_some, List.getElem?_set_self inside,
          Option.getD_some])
      · exact .inr (by simp only [Option.bind_some, List.getElem?_set_ne isKey, stored,
          Option.getD_some])

/-- **An integer in a new row.** Read as an integer it is the one that was given, and it is read as
one if its column keeps integers. -/
theorem holds_row (addressed : table.Addressed given) (member : (name, n) ∈ given)
    {next : Except Fault Int} {id : Int}
    (numbered : givenId table (given.map (·.1)) (given.map fun pair => Value.integer pair.2) next =
      .ok id) :
    table.Holds (table.row id
      (newCells table (given.map (·.1)) (given.map fun pair => Value.integer pair.2))) name n := by
  obtain ⟨column, found, stored⟩ := addressed.cell_row member numbered
  constructor
  · intro m read
    rcases stored with same | coerced
    · cases same.symm.trans read
      rfl
    · exact Value.eq_of_coerce_eq_integer (coerced.symm.trans read)
  · intro other isColumn keeps
    cases found.symm.trans isColumn
    rcases stored with same | coerced
    · exact same
    · rw [coerced, Value.coerce_of_keepsIntegers keeps]

end Table.Addressed

end SchemaMigration.Sql
