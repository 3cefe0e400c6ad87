import SchemaMigration.Proofs.FileTree.Paths
import SchemaMigration.Source

/-!
# Scanning a directory again

A directory offers the same migrations after a file has been put somewhere, unless the file is put
into the directory under a name that means a migration.

* `Source.openDirectory_put_file`: opening the directory again gives the same source.
-/

namespace SchemaMigration.Source

open FileTree

/-- A name that is passed over when a directory is scanned. -/
def Passed (name : Bytes) : Prop :=
  ∀ text, name.text? = some text → FileName.read text = .ok none

theorem addEntry_of_passed {name : Bytes} (passed : Passed name) (directory : Path) (node : Node)
    (migrations : List (Version × VersionFiles)) :
    addEntry directory migrations (name, node) = .ok migrations := by
  cases node with
  | directory => rfl
  | link target => rfl
  | file content =>
      rw [addEntry]
      cases isText : name.text? with
      | none => rfl
      | some text =>
          simp only [passed text isText]
          rfl

/-- What a listed node is in a directory, if it is there. -/
def entryIn (place : Place) (listed : Place × Node) : Option (Bytes × Node) :=
  match listed.1.reverse with
  | name :: parent => if parent.reverse = place then some (name, listed.2) else none
  | [] => none

theorem entries_eq (tree : FileTree) (place : Place) :
    tree.entries place = tree.nodes.filterMap (entryIn place) :=
  rfl

/-- An entry is the last name of its place. -/
theorem of_entryIn {place there : Place} {node : Node} {entry : Bytes × Node}
    (isEntry : entryIn place (there, node) = some entry) :
    there = place ++ [entry.1] ∧ entry.2 = node := by
  rw [entryIn] at isEntry
  split at isEntry
  · next name parent reversed =>
    split at isEntry
    · next isParent =>
      cases isEntry
      refine ⟨?_, rfl⟩
      rw [← List.reverse_reverse there, reversed, List.reverse_cons, isParent]
    · cases isEntry
  · cases isEntry

section

variable {directory : Path} {here place : Place}

/-- Where the entries of a place are passed over, it makes no difference whether it is listed. -/
theorem scan_filter (passed : ∀ name, place = here ++ [name] → Passed name)
    (nodes : List (Place × Node)) (migrations : List (Version × VersionFiles)) :
    ((nodes.filter fun listed => listed.1 ≠ place).filterMap (entryIn here)).foldlM
        (addEntry directory) migrations =
      (nodes.filterMap (entryIn here)).foldlM (addEntry directory) migrations := by
  induction nodes generalizing migrations with
  | nil => rfl
  | cons listed nodes ih =>
      obtain ⟨there, node⟩ := listed
      by_cases other : there ≠ place
      · rw [List.filter_cons, if_pos (decide_eq_true other), List.filterMap_cons,
          List.filterMap_cons]
        cases entryIn here (there, node) with
        | none => exact ih migrations
        | some entry =>
            simp only [List.foldlM_cons]
            exact bind_congr ih
      · obtain rfl := not_not.mp other
        rw [List.filter_cons, if_neg (by simp), ih, List.filterMap_cons]
        cases isEntry : entryIn here (there, node) with
        | none => rfl
        | some entry =>
            obtain ⟨name, found⟩ := entry
            have skipped := addEntry_of_passed (passed name (of_entryIn isEntry).1) directory found
            simp only [List.foldlM_cons, skipped]
            rfl

theorem scan_put (tree : FileTree) (node : Node)
    (passed : ∀ name, place = here ++ [name] → Passed name) :
    ((tree.put place node).entries here).foldlM (addEntry directory) [] =
      (tree.entries here).foldlM (addEntry directory) [] := by
  have last : ∀ migrations,
      ([(place, node)].filterMap (entryIn here)).foldlM (addEntry directory) migrations =
        .ok migrations := by
    intro migrations
    rw [List.filterMap_cons]
    cases isEntry : entryIn here (place, node) with
    | none => rfl
    | some entry =>
        obtain ⟨name, found⟩ := entry
        have skipped := addEntry_of_passed (passed name (of_entryIn isEntry).1) directory found
        simp only [List.filterMap_nil, List.foldlM_cons, skipped]
        rfl
  rw [entries_eq, entries_eq, put, List.filterMap_append, List.foldlM_append, scan_filter passed]
  cases (tree.nodes.filterMap (entryIn here)).foldlM (addEntry directory) [] with
  | error e => rfl
  | ok migrations => exact last migrations

end

theorem directory_of_openDirectory {tree : FileTree} {directory : Path} {source : Source}
    (opened : openDirectory tree directory = .ok source) : source.directory = directory := by
  rw [openDirectory] at opened
  split at opened
  · next here found =>
    rw [ofEntries] at opened
    cases scan : (tree.entries here).foldlM (addEntry directory) [] with
    | error e => rw [scan] at opened; cases opened
    | ok migrations =>
        rw [scan] at opened
        cases opened
        rfl
  · cases opened

/-- **Scanning again.** A directory that was opened is opened again, with the same migrations, once
a file has been put that is passed over in it or is elsewhere. -/
theorem openDirectory_put_file {tree : FileTree} {place : Place} {directory : Path}
    {source : Source} (takesFile : tree.TakesFile place) (content : Content)
    (passed : ∀ here name, tree.stat directory = .ok (here, .directory) →
      place = here ++ [name] → Passed name)
    (opened : openDirectory tree directory = .ok source) :
    openDirectory (tree.put place (.file content)) directory = .ok source := by
  rw [openDirectory] at opened
  split at opened
  · next here found =>
    rw [openDirectory, stat_put_file takesFile content found]
    simp only [ofEntries, scan_put tree (.file content) fun name => passed here name found]
    exact opened
  · cases opened

end SchemaMigration.Source
