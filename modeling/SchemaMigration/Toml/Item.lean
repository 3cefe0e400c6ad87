/-!
TOML tables and how they grow line by line. A table may be written in pieces, but no piece may be
written twice: the three functions that add to a table refuse what would redefine a part of it.
-/

namespace SchemaMigration.Toml

/-- How a table came to be, which decides what may still be added to it. -/
inductive Origin where
  /-- By a header of its own. -/
  | header
  /-- By the header of a table inside it. -/
  | within
  /-- By a key with dots. -/
  | dotted
  deriving DecidableEq, Repr

/-- What stands behind a key. -/
inductive Item where
  | text (value : String)
  | flag (value : Bool)
  | integer (value : Int)
  /-- A number with a fraction or exponent, as it is written. -/
  | real (spelling : String)
  /-- A date, a time or both, as it is written. -/
  | moment (spelling : String)
  | array (items : List Item)
  /-- A table in braces, to which nothing can be added. -/
  | inline (entries : List (String × Item))
  | table (origin : Origin) (entries : List (String × Item))
  /-- Tables that share a header, the latest last. -/
  | tables (elements : List (List (String × Item)))

/-- The keys of a table and what stands behind them. -/
abbrev Entries := List (String × Item)

namespace Entries

/-- Puts an item behind a key, in the place of the one that is there, if any. -/
def put (entries : Entries) (key : String) (item : Item) : Entries :=
  if (entries.lookup key).isSome then
    entries.map fun (other, old) => if other == key then (other, item) else (other, old)
  else entries ++ [(key, item)]

/-- Adds an item behind the last of some keys; the others lead to its table. Tables on the way are
made if they are missing, and must not have a header; the table of the item itself has to come from
keys with dots. -/
def insert? (entries : Entries) : List String → String → Item → Option Entries
  | [], key, item => if (entries.lookup key).isSome then none else some (entries ++ [(key, item)])
  | name :: names, key, item =>
    match entries.lookup name with
    | none => (insert? [] names key item).map fun inner => entries.put name (.table .dotted inner)
    | some (.table origin inner) =>
      if origin = .header ∨ (names = [] ∧ origin ≠ .dotted) then none
      else (insert? inner names key item).map fun inner => entries.put name (.table origin inner)
    | some (.tables elements) =>
      if names = [] then none
      else
        (insert? (elements.getLast?.getD []) names key item).map fun last =>
          entries.put name (.tables (elements.dropLast ++ [last]))
    | some _ => none

/-- Changes the table that names lead to; of tables that share a header the latest is meant. Tables
that are missing on the way are made. -/
def modify? (change : Entries → Option Entries) (entries : Entries) :
    List String → Option Entries
  | [] => change entries
  | name :: names =>
    match entries.lookup name with
    | none => (modify? change [] names).map fun inner => entries.put name (.table .within inner)
    | some (.table origin inner) =>
      (modify? change inner names).map fun inner => entries.put name (.table origin inner)
    | some (.tables elements) =>
      (modify? change (elements.getLast?.getD []) names).map fun last =>
        entries.put name (.tables (elements.dropLast ++ [last]))
    | some _ => none

/-- Opens the table of a header. It is new, or was made by the header of a table inside it. -/
def openTable? (entries : Entries) (key : String) : Option Entries :=
  match entries.lookup key with
  | none => some (entries.put key (.table .header []))
  | some (.table .within inner) => some (entries.put key (.table .header inner))
  | some _ => none

/-- Opens one more of the tables that share a header. -/
def openElement? (entries : Entries) (key : String) : Option Entries :=
  match entries.lookup key with
  | none => some (entries.put key (.tables [[]]))
  | some (.tables elements) => some (entries.put key (.tables (elements ++ [[]])))
  | some _ => none

end Entries

/-- A line of a document that says something. -/
inductive Line where
  | entry (path : List String) (key : String) (item : Item)
  | header (path : List String) (key : String)
  | elementHeader (path : List String) (key : String)

/-- The table that lines make, those behind a header seen from the table at `here`. -/
def Entries.ofLines? (entries : Entries) (here : List String) : List Line → Option Entries
  | [] => some entries
  | .entry path key item :: lines => do
    ofLines? (← entries.modify? (·.insert? path key item) here) here lines
  | .header path key :: lines => do
    ofLines? (← entries.modify? (·.openTable? key) path) (path ++ [key]) lines
  | .elementHeader path key :: lines => do
    ofLines? (← entries.modify? (·.openElement? key) path) (path ++ [key]) lines

end SchemaMigration.Toml
