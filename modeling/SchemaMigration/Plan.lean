import SchemaMigration.Source

/-!
Plans: the steps between two versions of a source. A step runs the file of one version and records
the version that the schema then has, so the steps of a plan chain.
-/

namespace SchemaMigration

/-- One planned move between versions. -/
structure Step where
  /-- The version whose file is run. -/
  version : Version
  direction : Direction
  /-- The version recorded once the step is done. -/
  target : Option Version
  deriving DecidableEq, Repr

namespace Source

/-- The steps up from `version` on, at most `bound` of them. -/
def ascend (source : Source) : Nat → Option Version → List Step
  | bound + 1, some version =>
    ⟨version, .up, some version⟩ :: source.ascend bound (source.next? version)
  | _, _ => []

/-- The steps down from `version` on, at most `bound` of them. -/
def descend (source : Source) : Nat → Option Version → List Step
  | bound + 1, some version =>
    let target := source.prev? version
    ⟨version, .down, target⟩ :: source.descend bound target
  | _, _ => []

/-- How many steps a plan can have under a limit: one for each version at most, and one more for a
version that the source does not have. -/
def stepBound (source : Source) (limit : Option Nat) : Nat :=
  let most := source.versions.length + 1
  limit.elim most (min · most)

/-- The steps that apply what comes after the current version. -/
def planUp (source : Source) (current : Option Version) (limit : Option Nat) : List Step :=
  source.ascend (source.stepBound limit) (match current with
    | some version => source.next? version
    | none => source.first?)

/-- The steps that revert the current version and what comes before it. -/
def planDown (source : Source) (current : Option Version) (limit : Option Nat) : List Step :=
  source.descend (source.stepBound limit) current

end Source

end SchemaMigration
