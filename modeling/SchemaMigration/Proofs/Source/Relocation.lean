import Mathlib.Data.List.Forall2
import Mathlib.Tactic.Common
import SchemaMigration.Proofs.FileTree.Directory
import SchemaMigration.Source

/-!
# One source under two paths

A source that is opened under two paths of one directory is the same but for the paths of its files.

* `Source.Alike`: sources that differ in nothing but the directory that their paths start with.
* `Source.openDirectory_alike`: opening under another path.
* `Source.Alike.versions_eq`, `Source.Alike.body?_eq`: the versions and the bodies are the same.
-/

namespace SchemaMigration

/-- A migration file has a name, not a path to one: it starts with a digit. -/
theorem FileName.startsName_of_read {bytes : Bytes} {text : String} {file : FileName}
    (isText : bytes.text? = some text) (read : FileName.read text = .ok (some file)) :
    FileTree.StartsName bytes := by
  have digit : text.toList.takeWhile Char.isDigit ≠ [] := fun empty => by
    have noSplit : FileName.split text.toList = none := by
      rw [FileName.split, empty]
      split
      · rw [if_pos (.inl rfl)]
      · rfl
    rw [FileName.read, noSplit] at read
    cases read
  rw [Bytes.text?] at isText
  cases bytes with
  | nil =>
      have none : Utf8.decode [] = .ok "" := Utf8.decode_ofString ""
      rw [none] at isText
      cases isText
      exact absurd rfl digit
  | cons first rest =>
      refine ⟨first, rest, rfl, ?_⟩
      rintro rfl
      have slash : Path.separator :: rest = String.utf8EncodeChar '/' ++ rest := rfl
      rw [slash, Utf8.decode, Utf8.decodeFrom_encode] at isText
      cases decoded : Utf8.decodeFrom (0 + (String.utf8EncodeChar '/').length) rest with
      | error fault =>
          rw [decoded] at isText
          cases isText
      | ok cs =>
          rw [decoded] at isText
          cases isText
          exact digit (by rw [String.toList_ofList]; rfl)

namespace Source

section

variable (first second : Path)

/-- One file in two directories. -/
structure SameFile (file other : MigrationFile) : Prop where
  version : file.version = other.version
  direction : file.direction = other.direction
  path : ∃ name, FileTree.StartsName name ∧
    file.path = first.join ⟨name⟩ ∧ other.path = second.join ⟨name⟩

/-- The files of one version in two directories. -/
structure SameFiles (entry other : Version × VersionFiles) : Prop where
  version : entry.1 = other.1
  get : ∀ direction,
    Option.Rel (SameFile first second) (entry.2.get direction) (other.2.get direction)

/-- Sources of two directories that have the same files. -/
def Alike (source other : Source) : Prop :=
  List.Forall₂ (SameFiles first second) source.migrations other.migrations

end

variable {first second : Path}

theorem SameFiles.set {entry other : Version × VersionFiles} {file twin : MigrationFile}
    (files : SameFiles first second entry other) (same : SameFile first second file twin) :
    SameFiles first second (entry.1, entry.2.set file) (other.1, other.2.set twin) where
  version := files.version
  get direction := by
    have up := files.get .up
    have down := files.get .down
    rw [VersionFiles.set, VersionFiles.set, ← same.direction]
    cases file.direction <;> cases direction <;> first | exact up | exact down | exact .some same

theorem sameFiles_empty (version : Version) :
    SameFiles first second (version, {}) (version, {}) where
  version := rfl
  get direction := by cases direction <;> exact .none

/-- Adding one file to the same files. -/
theorem insert_alike {file twin : MigrationFile} (same : SameFile first second file twin)
    {migrations others after : List (Version × VersionFiles)}
    (alike : List.Forall₂ (SameFiles first second) migrations others)
    (done : insert file migrations = .ok after) :
    ∃ twins, insert twin others = .ok twins ∧
      List.Forall₂ (SameFiles first second) after twins := by
  have alone : SameFiles first second (file.version, ({} : VersionFiles).set file)
      (file.version, ({} : VersionFiles).set twin) :=
    (sameFiles_empty file.version).set same
  induction alike generalizing after with
  | nil =>
      cases done
      rw [insert, ← same.version]
      exact ⟨_, rfl, .cons alone .nil⟩
  | @cons entry other rest others files alike ih =>
      obtain ⟨version, entryFiles⟩ := entry
      obtain ⟨otherVersion, otherFiles⟩ := other
      obtain rfl : version = otherVersion := files.version
      simp only [insert, ← same.version, ← same.direction] at done ⊢
      split at done
      · next below =>
        cases done
        rw [if_pos below]
        exact ⟨_, rfl, .cons alone (.cons files alike)⟩
      · next notBelow =>
        rw [if_neg notBelow]
        split at done
        · next equal =>
          rw [if_pos equal]
          have slot := files.get file.direction
          simp only at slot
          split at done
          · cases done
          · next empty =>
            cases done
            rw [empty] at slot
            cases taken : otherFiles.get file.direction with
            | some earlier => rw [taken] at slot; cases slot
            | none => exact ⟨_, rfl, .cons (files.set same) alike⟩
        · next different =>
          rw [if_neg different]
          cases added : insert file rest with
          | error e => rw [added] at done; cases done
          | ok grown =>
              rw [added] at done
              cases done
              obtain ⟨twins, twinAdded, twinsAlike⟩ := ih added
              rw [twinAdded]
              exact ⟨_, rfl, .cons files twinsAlike⟩

/-- Adding one directory entry to the same files. -/
theorem addEntry_alike {entry : Bytes × Node}
    {migrations others after : List (Version × VersionFiles)}
    (alike : List.Forall₂ (SameFiles first second) migrations others)
    (done : addEntry first migrations entry = .ok after) :
    ∃ twins, addEntry second others entry = .ok twins ∧
      List.Forall₂ (SameFiles first second) after twins := by
  obtain ⟨bytes, node⟩ := entry
  cases node with
  | directory => cases done; exact ⟨_, rfl, alike⟩
  | link target => cases done; exact ⟨_, rfl, alike⟩
  | file content =>
      rw [addEntry] at done ⊢
      cases isText : bytes.text? with
      | none => rw [isText] at done; cases done; exact ⟨_, rfl, alike⟩
      | some name =>
          rw [isText] at done
          simp only at done ⊢
          cases read : FileName.read name with
          | error e => rw [read] at done; cases done
          | ok parsed =>
              rw [read] at done
              cases parsed with
              | none => cases done; exact ⟨_, rfl, alike⟩
              | some name =>
                  have starts := FileName.startsName_of_read isText read
                  have same : SameFile first second
                      ⟨name.version, name.identifier, name.direction, first.join ⟨bytes⟩⟩
                      ⟨name.version, name.identifier, name.direction, second.join ⟨bytes⟩⟩ :=
                    ⟨rfl, rfl, bytes, starts, rfl, rfl⟩
                  exact insert_alike same alike done

theorem foldlM_alike {entries : List (Bytes × Node)}
    {migrations others after : List (Version × VersionFiles)}
    (alike : List.Forall₂ (SameFiles first second) migrations others)
    (done : entries.foldlM (addEntry first) migrations = .ok after) :
    ∃ twins, entries.foldlM (addEntry second) others = .ok twins ∧
      List.Forall₂ (SameFiles first second) after twins := by
  induction entries generalizing migrations others with
  | nil => cases done; exact ⟨_, rfl, alike⟩
  | cons entry entries ih =>
      rw [List.foldlM_cons] at done ⊢
      cases added : addEntry first migrations entry with
      | error e => rw [added] at done; cases done
      | ok next =>
          rw [added] at done
          obtain ⟨twins, twinAdded, twinsAlike⟩ := addEntry_alike alike added
          rw [twinAdded]
          exact ih twinsAlike done

/-- **One source under two paths.** Where a directory is opened under one path, it is under another
path of it, and has the same files there. -/
theorem openDirectory_alike {tree : FileTree} (same : tree.SameDirectory first second)
    {source : Source} (opened : openDirectory tree first = .ok source) :
    ∃ other, openDirectory tree second = .ok other ∧ Alike first second source other := by
  rw [openDirectory] at opened
  split at opened
  · next place stat =>
    rw [openDirectory, same.stat_iff.mp stat]
    rw [ofEntries] at opened
    simp only [ofEntries]
    cases scan : (tree.entries place).foldlM (addEntry first) [] with
    | error e => rw [scan] at opened; cases opened
    | ok migrations =>
        rw [scan] at opened
        cases opened
        obtain ⟨twins, twinScan, alike⟩ := foldlM_alike .nil scan
        rw [twinScan]
        exact ⟨_, rfl, alike⟩
  · cases opened

namespace Alike

variable {source other : Source} (alike : Alike first second source other)
include alike

theorem versions_eq : source.versions = other.versions := by
  rw [versions, versions]
  have entries : List.Forall₂ (SameFiles first second) source.migrations other.migrations := alike
  generalize source.migrations = migrations at entries
  generalize other.migrations = others at entries
  induction entries with
  | nil => rfl
  | cons files _ ih => rw [List.map_cons, List.map_cons, files.version, ih]

theorem file?_rel (version : Version) (direction : Direction) :
    Option.Rel (SameFile first second) (source.file? version direction)
      (other.file? version direction) := by
  rw [file?, file?, files, files]
  have entries : List.Forall₂ (SameFiles first second) source.migrations other.migrations := alike
  generalize source.migrations = migrations at entries
  generalize other.migrations = others at entries
  induction entries with
  | nil => exact (sameFiles_empty version).get direction
  | @cons entry twin _ _ files _ ih =>
      rw [List.lookup_cons, List.lookup_cons, ← files.version]
      split
      · exact files.get direction
      · exact ih

/-- The bodies are the same. The path that an error names is that under which the source was
opened. -/
theorem body?_eq {tree : FileTree} (same : tree.SameDirectory first second) (version : Version)
    (direction : Direction) :
    (source.body? tree version direction).toOption =
      (other.body? tree version direction).toOption := by
  have files := alike.file?_rel version direction
  rw [body?, body?]
  generalize source.file? version direction = found at files
  generalize other.file? version direction = twin at files
  cases files with
  | none => rfl
  | some sameFile =>
      obtain ⟨name, starts, path, twinPath⟩ := sameFile.path
      simp only [path, twinPath, same.readText_join starts]
      cases tree.readText (second.join ⟨name⟩) <;> rfl

end Alike

end Source

end SchemaMigration
