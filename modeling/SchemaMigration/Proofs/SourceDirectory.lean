import SchemaMigration.Proofs.Source.Relocation
import SchemaMigration.Proofs.SourceUrl

/-!
# What a source URL opens

Reading a URL takes each `..` off the text of its path, where the operating system follows it from
where the walk is. So the source URL of a configuration opens its migrations directory only if each
`..` in the directory leads back out of a real directory: behind a link to a directory it does not,
and another directory is opened, or none.

* `Locations.openUrl_iff_openDirectory`: the source URL opens the migrations directory.
* `Locations.openUrl_behind_link`: the source URL opens another directory.
-/

namespace SchemaMigration.Locations

open FileTree Source

/-- **The source URL opens the migrations directory.** For every tree and every absolute migrations
directory in whose path no drive is in the way and each `..` leads back out of a real directory: the
source URL opens exactly if the directory does, and the versions and bodies it then offers are those
of the directory. Links before and behind that are followed alike. -/
theorem openUrl_iff_openDirectory {tree : FileTree} {locations : Locations}
    (absolute : locations.migrations.isAbsolute = true)
    (driveFree : Url.DriveFree [] locations.migrations.names)
    (retraced : tree.Retraced [] locations.migrations.names) :
    ∃ url, locations.sourceUrl = .ok url ∧
      ((∃ source, openUrl tree url = .ok source) ↔
        ∃ source, openDirectory tree locations.migrations = .ok source) ∧
      ∀ detour direct, openUrl tree url = .ok detour →
          openDirectory tree locations.migrations = .ok direct →
          detour.versions = direct.versions ∧
            ∀ version direction, (detour.body? tree version direction).toOption =
              (direct.body? tree version direction).toOption := by
  have isName : ∀ name ∈ locations.migrations.names, Path.IsName name :=
    fun _ mem => Path.isName_of_mem_names mem
  have same := sameDirectory_lexical absolute retraced
  have detourOpens :=
    openUrl_of_directoryOfUrl (directoryOfUrl_directoryPath isName driveFree) tree
  refine ⟨_, sourceUrl_of_isAbsolute absolute, ?_, fun detour direct detourOpened opened => ?_⟩
  · rw [detourOpens]
    constructor
    · rintro ⟨source, opened⟩
      obtain ⟨other, otherOpened, -⟩ := openDirectory_alike same opened
      exact ⟨other, otherOpened⟩
    · rintro ⟨source, opened⟩
      obtain ⟨other, otherOpened, -⟩ := openDirectory_alike same.symm opened
      exact ⟨other, otherOpened⟩
  · rw [detourOpens] at detourOpened
    obtain ⟨other, otherOpened, alike⟩ := openDirectory_alike same detourOpened
    cases otherOpened.symm.trans opened
    exact ⟨alike.versions_eq, alike.body?_eq same⟩

/-- A directory behind a link, and a `..` that leads back out of a real directory in it. -/
theorem openUrl_iff_openDirectory_sample :
    let name := Bytes.ofString
    let body : Node := .file (.plain (name "SELECT 1;"))
    let tree : FileTree :=
      { nodes := [([name "w"], .directory), ([name "w", name "d"], .directory),
          ([name "w", name "m"], .directory), ([name "w", name "m", name "1_a.up.sql"], body),
          ([name "link"], .link (Path.ofString "w"))] }
    let migrations := Path.ofString "/link/./d/../m"
    let locations : Locations :=
      { home := migrations, database := migrations, migrations, options := {} }
    migrations.isAbsolute = true ∧ Url.DriveFree [] migrations.names ∧
      tree.Retraced [] migrations.names ∧
      ∃ url detour, locations.sourceUrl = .ok url ∧ openUrl tree url = .ok detour ∧
        detour.versions = [1] ∧
        (detour.body? tree 1 .up).toOption = some (some "SELECT 1;") := by
  intro name body tree migrations locations
  have absolute : locations.migrations.isAbsolute = true := by decide
  have driveFree : Url.DriveFree [] locations.migrations.names := by decide +kernel
  have retraced : tree.Retraced [] locations.migrations.names := by decide +kernel
  have direct : (openDirectory tree locations.migrations).toOption.map
        (fun source => (source.versions, (source.body? tree 1 .up).toOption)) =
      some ([1], some (some "SELECT 1;")) := by decide +kernel
  obtain ⟨source, opened, offered⟩ :
      ∃ source, openDirectory tree locations.migrations = .ok source ∧
        (source.versions, (source.body? tree 1 .up).toOption) = ([1], some (some "SELECT 1;")) := by
    cases opened : openDirectory tree locations.migrations with
    | error e => rw [opened] at direct; cases direct
    | ok source => rw [opened] at direct; exact ⟨source, rfl, Option.some.inj direct⟩
  obtain ⟨versions, body⟩ := Prod.mk.inj offered
  obtain ⟨url, made, iff, alike⟩ := openUrl_iff_openDirectory absolute driveFree retraced
  obtain ⟨detour, detourOpened⟩ := iff.mpr ⟨source, opened⟩
  obtain ⟨sameVersions, sameBodies⟩ := alike detour source detourOpened opened
  exact ⟨absolute, driveFree, retraced, url, detour, made, detourOpened,
    sameVersions.trans versions, (sameBodies 1 .up).trans body⟩

/-- Behind a link to a directory, `..` is the parent of that directory for the operating system. The
source URL opens another directory, the one that stands beside the link. -/
theorem openUrl_behind_link :
    let name := Bytes.ofString
    let body : Node := .file (.plain (name "SELECT 1;"))
    let tree : FileTree :=
      { nodes := [([name "real"], .directory), ([name "real", name "sub"], .directory),
          ([name "real", name "m"], .directory), ([name "real", name "m", name "1_a.up.sql"], body),
          ([name "w"], .directory), ([name "w", name "m"], .directory),
          ([name "w", name "m", name "2_b.up.sql"], body),
          ([name "w", name "link"], .link (Path.ofString "../real/sub"))] }
    let migrations := (Path.ofString "/w").join (Path.ofString "link/../m")
    let locations : Locations :=
      { home := migrations, database := migrations, migrations, options := {} }
    (openDirectory tree migrations).toOption.map versions = some [1] ∧
      ((locations.sourceUrl.bind (openUrl tree)).toOption).map versions = some [2] := by
  decide +kernel

end SchemaMigration.Locations
