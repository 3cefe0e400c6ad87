import Mathlib.Data.List.Pairwise
import Mathlib.Data.List.Sort
import SchemaMigration.Proofs.Source.FileName
import SchemaMigration.Proofs.Source.Order
import SchemaMigration.Proofs.Source.Rescan

/-!
# Scanning loses nothing

What a directory offers is said of its entries as a set: which of them are migration files, and of
which version and direction. Scanning finds exactly these files, and fails exactly where a version
is too large or two files are for one version and direction; so the order in which the entries are
listed makes no difference.

* `Source.Tidy.ext`: a source is the files that are found in it.
* `Source.insert_cases`: what taking in one file does to what is found.
* `Source.scan_cases`: what scanning entries does, and when it fails.
* `Source.Offers.unique`: entries offer one source.
* `Source.openDirectory_unordered`: what opening a directory gives, in whatever order it is listed.
-/

namespace SchemaMigration

theorem VersionFiles.ext {files others : VersionFiles} (up : files.up = others.up)
    (down : files.down = others.down) : files = others := by
  cases files
  cases others
  cases up
  cases down
  rfl

theorem VersionFiles.get_set (files : VersionFiles) (file : MigrationFile)
    (direction : Direction) : (files.set file).get direction =
      if direction = file.direction then some file else files.get direction := by
  rw [set]
  cases file.direction <;> cases direction <;> rfl

namespace Source

open FileName (Denotes maxVersion)

/-! ## Migration files -/

/-- A directory entry is a migration file: a regular file with a text for its name, which denotes
one. -/
structure IsMigration (entry : Bytes × Node) (file : FileName) : Prop where
  regular : ∃ content, entry.2 = .file content
  named : ∃ name digits, entry.1 = Bytes.ofString name ∧ Denotes digits file name

/-- A migration file at its place in a directory. -/
def located (directory : Path) (name : Bytes) (file : FileName) : MigrationFile :=
  { version := file.version, identifier := file.identifier, direction := file.direction,
    path := directory.join ⟨name⟩ }

theorem IsMigration.unique {entry : Bytes × Node} {file other : FileName}
    (first : IsMigration entry file) (second : IsMigration entry other) : file = other := by
  obtain ⟨name, digits, bytes, denotes⟩ := first.named
  obtain ⟨name', digits', bytes', denotes'⟩ := second.named
  have same := Utf8.decode_eq_ok_iff.mpr bytes
  rw [Utf8.decode_eq_ok_iff.mpr bytes'] at same
  cases same
  exact (denotes.unique denotes').2

/-- What scanning makes of an entry. -/
inductive Met (directory : Path) (entry : Bytes × Node) : Prop
  | passed (none : ∀ file, ¬ IsMigration entry file)
      (scans : ∀ migrations, addEntry directory migrations entry = .ok migrations)
  | refused {file : FileName} {e : Error} (is : IsMigration entry file)
      (large : maxVersion < file.version) (kind : e.kind = .source)
      (scans : ∀ migrations, addEntry directory migrations entry = .error e)
  | taken {file : FileName} (is : IsMigration entry file) (small : file.version ≤ maxVersion)
      (scans : ∀ migrations,
        addEntry directory migrations entry = insert (located directory entry.1 file) migrations)

/-- An entry that is no migration file is passed over, one whose version is too large is refused,
and any other is taken. -/
theorem met (directory : Path) (entry : Bytes × Node) : Met directory entry := by
  obtain ⟨bytes, node⟩ := entry
  cases node with
  | directory => exact .passed (fun _ is => (nomatch is.regular.choose_spec)) fun _ => rfl
  | link => exact .passed (fun _ is => (nomatch is.regular.choose_spec)) fun _ => rfl
  | file content =>
      cases isText : bytes.text? with
      | none =>
          refine .passed (fun file is => ?_) fun _ => by rw [addEntry, isText]
          obtain ⟨name, -, same, -⟩ := is.named
          cases isText.symm.trans (Bytes.text?_eq_some_iff.mpr same)
      | some name =>
          have failed {e : Error} (read : FileName.read name = .error e) (migrations) :
              addEntry directory migrations (bytes, .file content) = .error e := by
            rw [addEntry, isText]
            simp only [read]
            rfl
          have taken {file : FileName} (read : FileName.read name = .ok (some file)) (migrations) :
              addEntry directory migrations (bytes, .file content) =
                insert (located directory bytes file) migrations := by
            rw [addEntry, isText, located]
            simp only [read]
            rfl
          rcases FileName.denotes_or_passed name with ⟨digits, file, denotes⟩ | ⟨readNone, none⟩
          · have is : IsMigration (bytes, .file content) file :=
              ⟨⟨content, rfl⟩, name, digits, Bytes.text?_eq_some_iff.mp isText, denotes⟩
            rcases Nat.lt_or_ge maxVersion file.version with large | small
            · obtain ⟨e, kind, readError⟩ := FileName.read_of_denotes_large denotes large
              exact .refused is large kind (failed readError)
            · exact .taken is small (taken (FileName.read_of_denotes_small denotes small))
          · have skipped : Passed bytes := fun text same => by
              cases isText.symm.trans same
              exact readNone
            refine .passed (fun file is => ?_) (addEntry_of_passed skipped directory _)
            obtain ⟨other, digits, same, denotes⟩ := is.named
            cases isText.symm.trans (Bytes.text?_eq_some_iff.mpr same)
            exact none digits file denotes.toSpells

/-! ## Looking files up -/

/-- The file for a version and a direction among migrations. -/
def fileAt (migrations : List (Version × VersionFiles)) (version : Version)
    (direction : Direction) : Option MigrationFile :=
  ((migrations.lookup version).getD {}).get direction

variable {migrations after : List (Version × VersionFiles)} {file : MigrationFile}
  {version : Version} {direction : Direction}

theorem fileAt_cons (other : Version) (files : VersionFiles) :
    fileAt ((other, files) :: migrations) version direction =
      if version = other then files.get direction else fileAt migrations version direction := by
  rw [fileAt, List.lookup_cons]
  by_cases same : version = other
  · rw [if_pos same, beq_iff_eq.mpr same]; rfl
  · rw [if_neg same, beq_eq_false_iff_ne.mpr same]; rfl

theorem fileAt_of_not_mem (missing : version ∉ migrations.map (·.1)) :
    fileAt migrations version direction = none := by
  have none : migrations.lookup version = none := by
    refine List.lookup_eq_none_iff.mpr fun entry member => ?_
    refine bne_iff_ne.mpr fun same => missing (same ▸ List.mem_map_of_mem member)
  rw [fileAt, none]
  cases direction <;> rfl

theorem mem_of_fileAt (found : fileAt migrations version direction = some file) :
    version ∈ migrations.map (·.1) := by
  by_contra missing
  cases found.symm.trans (fileAt_of_not_mem missing)

/-- Migrations as scanning leaves them: in ascending order, and each with a file. -/
structure Tidy (migrations : List (Version × VersionFiles)) : Prop where
  ascending : (migrations.map (·.1)).Pairwise (· < ·)
  filled : ∀ entry ∈ migrations, ∃ direction file, entry.2.get direction = some file

theorem tidy_nil : Tidy [] :=
  ⟨List.Pairwise.nil, fun _ member => nomatch member⟩

theorem Tidy.tail {entry : Version × VersionFiles} (tidy : Tidy (entry :: migrations)) :
    Tidy migrations :=
  ⟨(List.pairwise_cons.mp tidy.ascending).2,
    fun other member => tidy.filled other (List.mem_cons_of_mem _ member)⟩

theorem Tidy.inserted (tidy : Tidy migrations) (done : insert file migrations = .ok after)
    (filled : ∀ entry ∈ after, ∃ direction file, entry.2.get direction = some file) : Tidy after :=
  ⟨insert_ascending tidy.ascending done, filled⟩

/-- A version is among migrations if there is a file for it. -/
theorem Tidy.mem_iff (tidy : Tidy migrations) :
    version ∈ migrations.map (·.1) ↔
      ∃ direction file, fileAt migrations version direction = some file := by
  refine ⟨fun member => ?_, fun ⟨_, _, found⟩ => mem_of_fileAt found⟩
  induction migrations with
  | nil => cases member
  | cons entry rest ih =>
      obtain ⟨other, files⟩ := entry
      by_cases same : version = other
      · obtain ⟨direction, file, found⟩ := tidy.filled _ List.mem_cons_self
        exact ⟨direction, file, by rw [fileAt_cons, if_pos same]; exact found⟩
      · obtain ⟨direction, file, found⟩ :=
          ih tidy.tail ((List.mem_cons.mp member).resolve_left same)
        exact ⟨direction, file, by rw [fileAt_cons, if_neg same]; exact found⟩

theorem Tidy.fileAt_tail {other : Version} {files : VersionFiles}
    (tidy : Tidy ((other, files) :: migrations)) :
    fileAt migrations version direction =
      if version = other then none
      else fileAt ((other, files) :: migrations) version direction := by
  split
  · next same =>
    refine fileAt_of_not_mem fun member => ?_
    exact Nat.lt_irrefl _ (same ▸ (List.pairwise_cons.mp tidy.ascending).1 version member)
  · next different => rw [fileAt_cons, if_neg different]

/-- Migrations are determined by their files. -/
theorem Tidy.ext {others : List (Version × VersionFiles)} (tidy : Tidy migrations)
    (tidyOthers : Tidy others)
    (same : ∀ version direction,
      fileAt migrations version direction = fileAt others version direction) :
    migrations = others := by
  have versions : migrations.map (·.1) = others.map (·.1) := by
    refine tidy.ascending.eq_of_mem_iff tidyOthers.ascending fun version => ?_
    simp only [tidy.mem_iff, tidyOthers.mem_iff, same]
  induction migrations generalizing others with
  | nil => exact (List.map_eq_nil_iff.mp versions.symm).symm
  | cons entry rest ih =>
      cases others with
      | nil => cases versions
      | cons twin others =>
          obtain ⟨version, files⟩ := entry
          obtain ⟨version', twinFiles⟩ := twin
          rw [List.map_cons, List.map_cons, List.cons.injEq] at versions
          obtain ⟨rfl, versions⟩ : version = version' ∧ _ := versions
          have get : ∀ direction, files.get direction = twinFiles.get direction := by
            intro direction
            have here := same version direction
            rwa [fileAt_cons, fileAt_cons, if_pos rfl, if_pos rfl] at here
          obtain rfl : files = twinFiles := VersionFiles.ext (get .up) (get .down)
          rw [ih tidy.tail tidyOthers.tail (fun version direction => ?_) versions]
          rw [tidy.fileAt_tail, tidyOthers.fileAt_tail, same]

/-- A file in front of migrations that its version is not among. -/
theorem fileAt_new (missing : file.version ∉ migrations.map (·.1)) :
    fileAt ((file.version, ({} : VersionFiles).set file) :: migrations) version direction =
      if version = file.version ∧ direction = file.direction then some file
        else fileAt migrations version direction := by
  rw [fileAt_cons, VersionFiles.get_set]
  by_cases same : version = file.version
  · rw [same, fileAt_of_not_mem missing]
    cases direction <;> simp [VersionFiles.get]
  · rw [if_neg same, if_neg fun both => same both.1]

/-- A file among those of the first version. -/
theorem fileAt_set {files : VersionFiles} :
    fileAt ((file.version, files.set file) :: migrations) version direction =
      if version = file.version ∧ direction = file.direction then some file
        else fileAt ((file.version, files) :: migrations) version direction := by
  rw [fileAt_cons, fileAt_cons, VersionFiles.get_set]
  by_cases same : version = file.version
  · simp only [same, if_true, true_and]
  · rw [if_neg same, if_neg same, if_neg fun both => same both.1]

/-- **Inserting.** A file is refused where there is one for its version and direction already;
otherwise it is there afterwards, and all other files are as before. -/
theorem insert_cases (tidy : Tidy migrations) (file : MigrationFile) :
    (∃ earlier, fileAt migrations file.version file.direction = some earlier ∧
        insert file migrations = .error (.duplicateFile earlier.path file.path)) ∨
      fileAt migrations file.version file.direction = none ∧
        ∃ after, insert file migrations = .ok after ∧ Tidy after ∧
          ∀ version direction, fileAt after version direction =
            if version = file.version ∧ direction = file.direction then some file
              else fileAt migrations version direction := by
  have own : ∀ files : VersionFiles, ∃ direction twin, (files.set file).get direction = some twin :=
    fun files => ⟨file.direction, file, by rw [VersionFiles.get_set, if_pos rfl]⟩
  induction migrations with
  | nil =>
      refine .inr ⟨fileAt_of_not_mem List.not_mem_nil, _, rfl, tidy.inserted rfl ?_, fun _ _ => ?_⟩
      · exact fun entry member => List.mem_singleton.mp member ▸ own {}
      · exact fileAt_new List.not_mem_nil
  | cons entry rest ih =>
      obtain ⟨other, files⟩ := entry
      by_cases below : file.version < other
      · have missing : file.version ∉ ((other, files) :: rest).map (·.1) := by
          intro member
          rcases List.mem_cons.mp member with same | later
          · exact Nat.lt_irrefl _ (same ▸ below)
          · exact Nat.lt_asymm below ((List.pairwise_cons.mp tidy.ascending).1 _ later)
        have done : insert file ((other, files) :: rest) =
            .ok ((file.version, ({} : VersionFiles).set file) :: (other, files) :: rest) := by
          rw [insert, if_pos below]
        refine .inr ⟨fileAt_of_not_mem missing, _, done, tidy.inserted done ?_,
          fun _ _ => fileAt_new missing⟩
        exact List.forall_mem_cons.mpr ⟨own {}, tidy.filled⟩
      by_cases same : file.version = other
      · subst same
        cases held : files.get file.direction with
        | some earlier =>
            refine .inl ⟨earlier, by rw [fileAt_cons, if_pos rfl, held], ?_⟩
            rw [insert, if_neg below, if_pos rfl, held]
        | none =>
            have done : insert file ((file.version, files) :: rest) =
                .ok ((file.version, files.set file) :: rest) := by
              rw [insert, if_neg below, if_pos rfl, held]
            refine .inr ⟨by rw [fileAt_cons, if_pos rfl, held], _, done, tidy.inserted done ?_,
              fun _ _ => fileAt_set⟩
            exact List.forall_mem_cons.mpr ⟨own files, tidy.tail.filled⟩
      · rw [fileAt_cons, if_neg same]
        have deeper : insert file ((other, files) :: rest) =
            (insert file rest).map ((other, files) :: ·) := by
          rw [insert, if_neg below, if_neg same]
        rcases ih tidy.tail with ⟨earlier, held, failed⟩ | ⟨free, after, done, tidyAfter, lookup⟩
        · exact .inl ⟨earlier, held, by rw [deeper, failed]; rfl⟩
        · have done : insert file ((other, files) :: rest) = .ok ((other, files) :: after) := by
            rw [deeper, done]; rfl
          refine .inr ⟨free, _, done, tidy.inserted done ?_, fun version direction => ?_⟩
          · exact List.forall_mem_cons.mpr ⟨tidy.filled _ List.mem_cons_self, tidyAfter.filled⟩
          · rw [fileAt_cons, fileAt_cons, lookup]
            by_cases here : version = other
            · rw [if_pos here, if_pos here, if_neg fun both => same (both.1.symm.trans here)]
            · rw [if_neg here, if_neg here]

/-! ## Scanning -/

/-- Two entries that cannot be offered together: migration files for one version and direction. -/
def Clash (entry other : Bytes × Node) : Prop :=
  ∃ file twin, IsMigration entry file ∧ IsMigration other twin ∧
    file.version = twin.version ∧ file.direction = twin.direction

/-- A file that entries offer for a version and a direction. -/
def Offered (directory : Path) (entries : List (Bytes × Node)) (version : Version)
    (direction : Direction) (file : MigrationFile) : Prop :=
  ∃ entry ∈ entries, ∃ name, IsMigration entry name ∧ name.version = version ∧
    name.direction = direction ∧ file = located directory entry.1 name

/-- Entries whose migration files can all be added to migrations. -/
structure Fits (migrations : List (Version × VersionFiles)) (entries : List (Bytes × Node)) :
    Prop where
  small : ∀ entry ∈ entries, ∀ file, IsMigration entry file → file.version ≤ maxVersion
  apart : entries.Pairwise fun entry other => ¬ Clash entry other
  free : ∀ entry ∈ entries, ∀ file, IsMigration entry file →
    fileAt migrations file.version file.direction = none

section

variable {directory : Path} {entry : Bytes × Node} {entries : List (Bytes × Node)}
  {name : FileName}

theorem fits_cons_of_passed (none : ∀ file, ¬ IsMigration entry file) :
    Fits migrations (entry :: entries) ↔ Fits migrations entries := by
  refine ⟨fun fits => ⟨fun other member => fits.small other (List.mem_cons_of_mem _ member),
    (List.pairwise_cons.mp fits.apart).2,
    fun other member => fits.free other (List.mem_cons_of_mem _ member)⟩, fun fits => ⟨?_, ?_, ?_⟩⟩
  · exact List.forall_mem_cons.mpr ⟨fun file is => absurd is (none file), fits.small⟩
  · refine List.pairwise_cons.mpr ⟨fun _ _ ⟨file, _, is, _⟩ => none file is, fits.apart⟩
  · exact List.forall_mem_cons.mpr ⟨fun file is => absurd is (none file), fits.free⟩

/-- Once a file is taken, what has to fit are the other entries. -/
theorem fits_cons_of_taken (is : IsMigration entry name) (small : name.version ≤ maxVersion)
    (free : fileAt migrations name.version name.direction = none)
    (lookup : ∀ version direction, fileAt after version direction =
      if version = name.version ∧ direction = name.direction then some file
        else fileAt migrations version direction) :
    Fits migrations (entry :: entries) ↔ Fits after entries := by
  constructor
  · intro fits
    obtain ⟨apart, apartRest⟩ := List.pairwise_cons.mp fits.apart
    refine ⟨fun other member => fits.small other (List.mem_cons_of_mem _ member), apartRest,
      fun other member twin isTwin => ?_⟩
    have different : ¬ (twin.version = name.version ∧ twin.direction = name.direction) :=
      fun both => apart other member ⟨name, twin, is, isTwin, both.1.symm, both.2.symm⟩
    rw [lookup, if_neg different]
    exact fits.free other (List.mem_cons_of_mem _ member) twin isTwin
  · intro fits
    have others : ∀ other ∈ entries, ∀ twin, IsMigration other twin →
        ¬ (twin.version = name.version ∧ twin.direction = name.direction) ∧
          fileAt migrations twin.version twin.direction = none := by
      intro other member twin isTwin
      have unused := fits.free other member twin isTwin
      rw [lookup] at unused
      split at unused
      · cases unused
      · next different => exact ⟨different, unused⟩
    refine ⟨List.forall_mem_cons.mpr ⟨fun file isFile => ?_, fits.small⟩,
      List.pairwise_cons.mpr ⟨fun other member clash => ?_, fits.apart⟩,
      List.forall_mem_cons.mpr ⟨fun file isFile => ?_, fun other member twin isTwin =>
        (others other member twin isTwin).2⟩⟩
    · rwa [isFile.unique is]
    · obtain ⟨file, twin, isFile, isTwin, version, direction⟩ := clash
      rw [isFile.unique is] at version direction
      exact (others other member twin isTwin).1 ⟨version.symm, direction.symm⟩
    · rwa [isFile.unique is]

theorem fits_nil : Fits migrations [] :=
  ⟨fun _ member => (nomatch member), .nil, fun _ member => (nomatch member)⟩

theorem offered_nil : ¬ Offered directory [] version direction file :=
  fun ⟨_, member, _⟩ => nomatch member

theorem offered_cons : Offered directory (entry :: entries) version direction file ↔
    (∃ name, IsMigration entry name ∧ name.version = version ∧ name.direction = direction ∧
        file = located directory entry.1 name) ∨
      Offered directory entries version direction file := by
  simp only [Offered, List.exists_mem_cons_iff]

/-- **Scanning entries.** Where all migration files fit, they are there afterwards, next to those
from before; otherwise scanning fails. -/
theorem scan_cases (directory : Path) (entries : List (Bytes × Node)) (tidy : Tidy migrations) :
    Fits migrations entries ∧ (∃ after, entries.foldlM (addEntry directory) migrations = .ok after ∧
        Tidy after ∧ ∀ version direction file, fileAt after version direction = some file ↔
          fileAt migrations version direction = some file ∨
            Offered directory entries version direction file) ∨
      ¬ Fits migrations entries ∧ ∃ e : Error, e.kind = .source ∧
        entries.foldlM (addEntry directory) migrations = .error e := by
  induction entries generalizing migrations with
  | nil =>
      refine .inl ⟨fits_nil, migrations, rfl, tidy, fun version direction file => ?_⟩
      rw [or_iff_left offered_nil]
  | cons entry entries ih =>
      rw [List.foldlM_cons]
      cases met directory entry with
      | passed none scans =>
          rw [scans, fits_cons_of_passed none]
          simp only [offered_cons, none, false_and, exists_false, false_or]
          exact ih tidy
      | refused is large kind scans =>
          rw [scans]
          refine .inr ⟨fun fits => ?_, _, kind, rfl⟩
          exact Nat.not_le.mpr large (fits.small _ List.mem_cons_self _ is)
      | @taken name is small scans =>
          rw [scans]
          rcases insert_cases tidy (located directory entry.1 name) with
            ⟨earlier, held, failed⟩ | ⟨free, after, done, tidyAfter, lookup⟩
          · rw [failed]
            refine .inr ⟨fun fits => ?_, _, rfl, rfl⟩
            cases held.symm.trans (fits.free _ List.mem_cons_self _ is)
          · have own : ∀ version direction file, fileAt after version direction = some file ↔
                fileAt migrations version direction = some file ∨
                  ∃ name, IsMigration entry name ∧ name.version = version ∧
                    name.direction = direction ∧ file = located directory entry.1 name := by
              intro version direction file
              rw [lookup]
              constructor
              · intro found
                split at found
                · next same =>
                  cases found
                  exact .inr ⟨name, is, same.1.symm, same.2.symm, rfl⟩
                · exact .inl found
              · rintro (found | ⟨other, isOther, rfl, rfl, rfl⟩)
                · rw [if_neg, found]
                  rintro ⟨rfl, rfl⟩
                  cases free.symm.trans found
                · rw [isOther.unique is]
                  exact if_pos ⟨rfl, rfl⟩
            rw [done, fits_cons_of_taken is small free lookup]
            simp only [offered_cons, ← or_assoc, ← own]
            exact ih tidyAfter

theorem Clash.symm {other : Bytes × Node} (clash : Clash entry other) : Clash other entry :=
  have ⟨file, twin, is, isTwin, version, direction⟩ := clash
  ⟨twin, file, isTwin, is, version.symm, direction.symm⟩

/-- In an empty source everything fits but what is too large or clashes. -/
theorem fits_iff (distinct : entries.Nodup) : Fits [] entries ↔
    ¬ ((∃ entry ∈ entries, ∃ file, IsMigration entry file ∧ maxVersion < file.version) ∨
      ∃ entry ∈ entries, ∃ other ∈ entries, entry ≠ other ∧ Clash entry other) := by
  have : Std.Symm fun entry other => ¬ Clash entry other :=
    ⟨fun _ _ apart clash => apart clash.symm⟩
  rw [not_or]
  constructor
  · intro fits
    constructor
    · rintro ⟨entry, member, file, is, large⟩
      exact Nat.not_le.mpr large (fits.small entry member file is)
    · rintro ⟨entry, member, other, memberOther, ne, clash⟩
      exact fits.apart.forall member memberOther ne clash
  · rintro ⟨small, apart⟩
    refine ⟨fun entry member file is => ?_, ?_, fun _ _ _ _ => fileAt_of_not_mem List.not_mem_nil⟩
    · exact Nat.not_lt.mp fun large => small ⟨entry, member, file, is, large⟩
    · exact distinct.pairwise_of_forall_ne fun entry member other memberOther ne clash =>
        apart ⟨entry, member, other, memberOther, ne, clash⟩

theorem Fits.perm {others : List (Bytes × Node)} (fits : Fits migrations entries)
    (same : others.Perm entries) : Fits migrations others where
  small entry member := fits.small entry (same.mem_iff.mp member)
  apart := (same.pairwise_iff fun apart clash => apart clash.symm).mpr fits.apart
  free entry member := fits.free entry (same.mem_iff.mp member)

theorem offered_perm {others : List (Bytes × Node)} (same : others.Perm entries) :
    Offered directory others version direction file ↔
      Offered directory entries version direction file := by
  simp only [Offered, same.mem_iff]

/-- A source that has the files that entries offer, and no others. -/
structure Offers (directory : Path) (entries : List (Bytes × Node)) (source : Source) : Prop where
  here : source.directory = directory
  tidy : Tidy source.migrations
  files : ∀ version direction file,
    source.file? version direction = some file ↔ Offered directory entries version direction file

/-- What entries offer makes one source. -/
theorem Offers.unique {source other : Source} (first : Offers directory entries source)
    (second : Offers directory entries other) : source = other := by
  have migrations : source.migrations = other.migrations :=
    first.tidy.ext second.tidy fun version direction => Option.ext fun file =>
      (first.files version direction file).trans (second.files version direction file).symm
  have here := first.here.trans second.here.symm
  cases source
  cases other
  cases migrations
  cases here
  rfl

theorem Offers.perm {others : List (Bytes × Node)} {source : Source}
    (offers : Offers directory others source) (same : others.Perm entries) :
    Offers directory entries source :=
  { offers with files := fun _ _ _ => (offers.files _ _ _).trans (offered_perm same) }

theorem Offers.contains_iff {source : Source} (offers : Offers directory entries source)
    (version : Version) : source.contains version = true ↔
      ∃ entry ∈ entries, ∃ file, IsMigration entry file ∧ file.version = version := by
  rw [Source.contains, List.contains_iff_mem, versions, offers.tidy.mem_iff]
  constructor
  · rintro ⟨direction, file, found⟩
    obtain ⟨entry, member, name, is, same, -⟩ := (offers.files version direction file).mp found
    exact ⟨entry, member, name, is, same⟩
  · rintro ⟨entry, member, name, is, same⟩
    exact ⟨name.direction, _, (offers.files _ _ _).mpr ⟨entry, member, name, is, same, rfl, rfl⟩⟩

/-- **Scanning a directory.** Where all migration files fit, they are what the source offers. -/
theorem ofEntries_cases (directory : Path) (entries : List (Bytes × Node)) :
    Fits [] entries ∧ (∃ source, ofEntries directory entries = .ok source ∧
        Offers directory entries source) ∨
      ¬ Fits [] entries ∧ ∃ e : Error, e.kind = .source ∧
        ofEntries directory entries = .error e := by
  rw [ofEntries]
  rcases scan_cases directory entries tidy_nil with
    ⟨fits, migrations, done, tidy, lookup⟩ | ⟨noFit, e, kind, failed⟩
  · rw [done]
    refine .inl ⟨fits, _, rfl, rfl, tidy, fun version direction file => ?_⟩
    refine (lookup version direction file).trans (or_iff_right fun found => ?_)
    cases found.symm.trans (fileAt_of_not_mem List.not_mem_nil)
  · rw [failed]
    exact .inr ⟨noFit, e, kind, rfl⟩

end

variable {tree : FileTree} {directory : Path} {place : Place}

theorem openDirectory_eq (found : tree.stat directory = .ok (place, .directory)) :
    openDirectory tree directory = ofEntries directory (tree.entries place) := by
  rw [openDirectory, found]

/-- **The order of entries does not matter, and nothing is lost.** A directory is opened unless a
migration file in it has a version that no version table has room for, or two are for one version
and direction. However the same entries are listed, the same source is opened: it has the file of
each version and direction, and its versions are those of the files; the neighbours of any number
are the next versions on either side, and going from the first version to the next meets each
version once, in ascending order. -/
theorem openDirectory_unordered (found : tree.stat directory = .ok (place, .directory))
    (distinct : (tree.entries place).Nodup) :
    ((∃ e, openDirectory tree directory = .error e) ↔
        (∃ entry ∈ tree.entries place, ∃ file,
            IsMigration entry file ∧ 2 ^ 63 - 1 < file.version) ∨
          ∃ entry ∈ tree.entries place, ∃ other ∈ tree.entries place,
            entry ≠ other ∧ Clash entry other) ∧
      (∀ e, openDirectory tree directory = .error e → e.kind = .source) ∧
      ∀ source, openDirectory tree directory = .ok source →
        (∀ (other : FileTree) (there : Place), other.stat directory = .ok (there, .directory) →
          (other.entries there).Perm (tree.entries place) →
          openDirectory other directory = .ok source) ∧
        (∀ version direction file, source.file? version direction = some file ↔
          Offered directory (tree.entries place) version direction file) ∧
        (∀ version, source.contains version = true ↔
          ∃ entry ∈ tree.entries place, ∃ file, IsMigration entry file ∧ file.version = version) ∧
        (∀ version next, source.next? version = some next ↔
          IsLeast {other | source.contains other = true ∧ version < other} next) ∧
        (∀ version prev, source.prev? version = some prev ↔
          IsGreatest {other | source.contains other = true ∧ other < version} prev) ∧
        ∃ versions, (∀ walk, Walk source source.first? walk ↔ walk = versions) ∧
          versions.Pairwise (· < ·) ∧
          ∀ version, version ∈ versions ↔ source.contains version = true := by
  have fits := fits_iff distinct
  have opens := openDirectory_eq found
  rcases ofEntries_cases directory (tree.entries place) with
    ⟨fit, source, done, offers⟩ | ⟨noFit, e, kind, failed⟩
  · rw [opens, done]
    refine ⟨⟨fun ⟨_, failed⟩ => (nomatch failed), fun bad => absurd bad (fits.mp fit)⟩,
      fun _ failed => (nomatch failed), ?_⟩
    rintro _ ⟨⟩
    have ordered := openDirectory_ordered (opens.trans done)
    refine ⟨fun other there foundOther same => ?_, offers.files, offers.contains_iff,
      fun _ _ => ordered.next?_eq_some_iff, fun _ _ => ordered.prev?_eq_some_iff,
      source.versions, fun _ => ordered.walk_iff, ordered.ascending,
      fun _ => List.contains_iff_mem.symm⟩
    rw [openDirectory_eq foundOther]
    rcases ofEntries_cases directory (other.entries there) with
      ⟨-, twin, doneTwin, offersTwin⟩ | ⟨noFit, -⟩
    · rw [doneTwin, (offersTwin.perm same).unique offers]
    · exact absurd (fit.perm same) noFit
  · rw [opens, failed]
    refine ⟨⟨fun _ => not_not.mp fun fine => noFit (fits.mpr fine), fun _ => ⟨e, rfl⟩⟩, ?_,
      fun _ done => (nomatch done)⟩
    rintro _ ⟨⟩
    exact kind

/-- A directory listed in two orders: zeros in front of a version and different names keep two files
together, and neither a directory nor a name of another form is a migration. -/
theorem openDirectory_unordered_sample :
    let name := Bytes.ofString
    let empty : Node := .file (.plain [])
    let listed : List (Place × Node) := [([name "m", name "10_b.up.sql"], empty),
      ([name "m", name "002_a.up.sql"], empty), ([name "m", name "3_c.up.sql"], .directory),
      ([name "m", name "2_.x.down."], empty), ([name "m", name "notes"], empty)]
    let tree : FileTree := { nodes := ([name "m"], .directory) :: listed }
    let other : FileTree := { nodes := ([name "m"], .directory) :: listed.reverse }
    let directory := Path.ofString "/m"
    let source : Source :=
      { directory, migrations :=
        [(2, ⟨some ⟨2, "a", .up, Path.ofString "/m/002_a.up.sql"⟩,
            some ⟨2, ".x", .down, Path.ofString "/m/2_.x.down."⟩⟩),
          (10, ⟨some ⟨10, "b", .up, Path.ofString "/m/10_b.up.sql"⟩, none⟩)] }
    tree.stat directory = .ok ([name "m"], .directory) ∧ (tree.entries [name "m"]).Nodup ∧
      openDirectory tree directory = .ok source ∧ openDirectory other directory = .ok source ∧
      IsLeast {other | source.contains other = true ∧ 7 < other} 10 := by
  intro name empty listed tree other directory source
  have found : tree.stat directory = .ok ([name "m"], .directory) := by decide +kernel
  have distinct : (tree.entries [name "m"]).Nodup := by decide +kernel
  have opened : openDirectory tree directory = .ok source := by decide +kernel
  obtain ⟨again, -, -, next, -⟩ := (openDirectory_unordered found distinct).2.2 source opened
  have same : (other.entries [name "m"]).Perm (tree.entries [name "m"]) := by decide +kernel
  exact ⟨found, distinct, opened, again other [name "m"] (by decide +kernel) same,
    (next 7 10).mp (by decide)⟩

end Source

end SchemaMigration
