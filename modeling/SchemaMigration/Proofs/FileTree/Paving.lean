import SchemaMigration.Proofs.FileTree.Paths

/-!
# What making directories changes

Making a directory with its parents adds directories and nothing else, whether it succeeds or breaks
off: what stood somewhere stands there as it was, and what is new is a directory to which the path
or one of its parents leads.

* `Path.Lineage`: a path and its parents.
* `FileTree.Paved`: a tree with directories added for a path.
* `FileTree.createDirectories_paved`: making directories adds directories for the path.
* `FileTree.Paved.file_iff`: files are where they were.
-/

namespace SchemaMigration

/-- A path, its parent, the parent of that, and so on. -/
inductive Path.Lineage : Path → Path → Prop
  | self {path : Path} : Lineage path path
  | parent {path parent ancestor : Path} (parent? : path.parent? = some parent)
    (lineage : Lineage parent ancestor) : Lineage path ancestor

namespace FileTree

/-- A tree with directories added for a path, each at a place to which the path or one of its
parents leads. -/
structure Paved (tree : FileTree) (path : Path) (after : FileTree) : Prop extends
    tree.Within after where
  made : ∀ {place node}, tree.node? place = none → after.node? place = some node →
    node = .directory ∧
      ∃ ancestor, path.Lineage ancestor ∧ after.stat ancestor = .ok (place, .directory)

variable {tree middle after : FileTree} {path parent : Path} {place : Place}

theorem Paved.refl (tree : FileTree) (path : Path) : tree.Paved path tree :=
  ⟨.refl tree, fun vacant there => nomatch vacant.symm.trans there⟩

/-- What is paved for the parent and then for the path is paved for the path. -/
theorem Paved.trans (parent? : path.parent? = some parent) (first : tree.Paved parent middle)
    (second : middle.Paved path after) : tree.Paved path after := by
  refine ⟨first.toWithin.trans second.toWithin, fun {place node} vacant there => ?_⟩
  cases before : middle.node? place with
  | none => exact second.made before there
  | some earlier =>
      obtain ⟨rfl, ancestor, lineage, leads⟩ := first.made vacant before
      have stands := second.kept before
      refine ⟨Option.some.inj (there.symm.trans stands), ancestor, .parent parent? lineage, ?_⟩
      exact second.toWithin.stat_directory stands (stat_eq_ok_iff.mp leads)

/-- Files are where they were, and are what they were. -/
theorem Paved.file_iff (paved : tree.Paved path after) {content : Content} :
    after.node? place = some (.file content) ↔ tree.node? place = some (.file content) := by
  refine ⟨fun there => ?_, paved.kept⟩
  cases before : tree.node? place with
  | none => cases (paved.made before there).1
  | some node => exact (paved.kept before).symm.trans there

/-! ## Making directories -/

theorem makeDirectory_paved (made : tree.makeDirectory path = .ok after) :
    tree.Paved path after := by
  obtain ⟨there, leads, rfl⟩ := makeDirectory_eq_ok_iff.mp made
  refine ⟨within_put (node?_of_locate leads) _, fun {place node} vacant stands => ?_⟩
  by_cases atPlace : place = there
  · subst atPlace
    have directory := stat_put_directory leads
    cases stands.symm.trans (node?_of_locate (stat_eq_ok_iff.mp directory))
    exact ⟨rfl, path, .self, directory⟩
  · rw [node?_put_of_ne atPlace] at stands
    cases vacant.symm.trans stands

theorem ensureDirectory_paved (ensured : tree.ensureDirectory path = .ok after) :
    tree.Paved path after := by
  rw [ensureDirectory] at ensured
  split at ensured
  · next made => cases ensured; exact makeDirectory_paved made
  · split at ensured
    · cases ensured; exact .refl tree path
    · cases ensured

theorem ensureWithParents_paved (tree : FileTree) (path : Path) (depth : Nat) :
    tree.Paved path (tree.ensureWithParents path depth).1 := by
  induction depth generalizing path with
  | zero => exact .refl tree path
  | succ depth ih =>
      rw [ensureWithParents]
      split
      · exact .refl tree path
      · split
        · next made => exact makeDirectory_paved made
        · split
          · exact .refl tree path
          · next parent parent? =>
            have parents := ih parent
            split
            · next broken =>
              rw [broken] at parents
              exact .trans parent? parents (.refl _ path)
            · next middle there =>
              rw [there] at parents
              refine .trans parent? parents ?_
              split
              · next ensured => exact ensureDirectory_paved ensured
              · exact .refl middle path
        · split <;> exact .refl tree path

/-- **Making directories adds directories for the path, and nothing else**, also if it fails. -/
theorem createDirectories_paved (tree : FileTree) (path : Path) :
    tree.Paved path (tree.createDirectories path).1 :=
  ensureWithParents_paved tree path _

end FileTree

end SchemaMigration
