import SchemaMigration.DatabaseUrl
import SchemaMigration.Plan

/-!
The migrator: moves a store along the versions of a source. Each operation refuses a dirty store and
a version that the source does not have, makes a plan, and applies its steps one after the other. A
step marks the store dirty, runs the body, and records the version it reached.
-/

namespace SchemaMigration

/-- What a migrator can be asked to do. -/
inductive Operation where
  /-- Apply every migration above the current version. -/
  | up
  /-- Revert every applied migration. -/
  | down
  /-- Move to a version of the source. -/
  | goto (target : Version)
  /-- Move by so many versions, down if negative. -/
  | steps (count : Int)
  deriving DecidableEq, Repr

/-- A source and how the store that moves along it keeps its version. -/
structure Migrator where
  source : Source
  options : StoreOptions
  deriving DecidableEq, Repr

namespace Migrator

open Sql (Session)

/-- The current version, if the store is clean and the source has it. -/
def cleanVersion (migrator : Migrator) : Session Error (Option Version) := do
  let state ← migrator.options.state
  if state.dirty then throw (.dirty state.version)
  if let some version := state.version then
    if !migrator.source.contains version then
      throw (.versionNotInSource version migrator.source.directory)
  return state.version

/-- Applies one step. A version without a file for the direction is only recorded. -/
def applyStep (migrator : Migrator) (tree : FileTree) (step : Step) : Session Error Unit := do
  match migrator.source.body? tree step.version step.direction with
  | .error e => throw e
  | .ok none => pure ()
  | .ok (some body) =>
    migrator.options.record step.target true
    Session.mapError (.stepFailed step.version step.direction) (migrator.options.run body)
  migrator.options.record step.target false

/-- Applies a plan; an empty one is no change. -/
def apply (migrator : Migrator) (tree : FileTree) (plan : List Step) : Session Error Unit := do
  if plan.isEmpty then throw .noChange
  plan.forM (migrator.applyStep tree)

/-- The plan from the current version to a version of the source. -/
def planTo (source : Source) (current : Option Version) (target : Version) : List Step :=
  let ascending := (source.planUp current none).takeWhile (·.version ≤ target)
  match current with
  | some version =>
    if version = target then []
    else if target < version then
      (source.planDown current none).takeWhile (target < ·.version)
    else ascending
  | none => ascending

/-- The plan of a move by `count` versions. -/
def planSteps (source : Source) (current : Option Version) (count : Int) : List Step :=
  if count = 0 then []
  else if 0 < count then source.planUp current (some count.natAbs)
  else source.planDown current (some count.natAbs)

def up (migrator : Migrator) (tree : FileTree) : Session Error Unit := do
  let current ← migrator.cleanVersion
  migrator.apply tree (migrator.source.planUp current none)

def down (migrator : Migrator) (tree : FileTree) : Session Error Unit := do
  let current ← migrator.cleanVersion
  migrator.apply tree (migrator.source.planDown current none)

def goto (migrator : Migrator) (tree : FileTree) (target : Version) : Session Error Unit := do
  let current ← migrator.cleanVersion
  if !migrator.source.contains target then throw (.targetNotInSource target)
  migrator.apply tree (planTo migrator.source current target)

/-- Moves by so many versions; if fewer are there, moves by those and then says how many are
missing. -/
def steps (migrator : Migrator) (tree : FileTree) (count : Int) : Session Error Unit := do
  let current ← migrator.cleanVersion
  let plan := planSteps migrator.source current count
  migrator.apply tree plan
  let missing := count.natAbs - plan.length
  if 0 < missing then throw (.shortLimit missing)

/-- Does what is asked. -/
def perform (migrator : Migrator) (tree : FileTree) : Operation → Session Error Unit
  | .up => migrator.up tree
  | .down => migrator.down tree
  | .goto target => migrator.goto tree target
  | .steps count => migrator.steps tree count

end Migrator

end SchemaMigration
