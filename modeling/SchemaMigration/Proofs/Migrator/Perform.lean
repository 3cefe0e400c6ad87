import SchemaMigration.Proofs.Plan.Stretch
import SchemaMigration.Proofs.Sql.Session

/-!
# What an operation does

Every operation of a migrator goes one way: it looks at the recorded state once, refuses or makes a
plan, runs the steps of the plan one after the other, and gives a verdict on the number of steps.

* `Migrator.planned`: the plan, or what it is refused for, as a function of the content;
* `Operation.verdict`: what is said after a plan of so many steps;
* `Migrator.perform_eq`: an operation is the run of its plan and the verdict;
* `Operation.destination?`: the position that an operation heads for from a position;
* `Operation.plan_eq`: from a position of an ordered source it plans the stretch to there.
-/

namespace SchemaMigration

open Sql (Session Connection Database Outcome)

namespace Operation

/-- The steps that an operation plans from the current version. -/
def plan (source : Source) (current : Option Version) : Operation → List Step
  | .up => source.planUp current none
  | .down => source.planDown current none
  | .goto target => Migrator.planTo source current target
  | .steps count => Migrator.planSteps source current count

/-- What a target is refused for. -/
def refusal? (source : Source) : Operation → Option Error
  | .goto target => if source.contains target then none else some (.targetNotInSource target)
  | .up | .down | .steps _ => none

/-- What is said after a plan of so many steps. -/
def verdict (planned : Nat) : Operation → Except Error Unit
  | .steps count =>
    if 0 < count.natAbs - planned then .error (.shortLimit (count.natAbs - planned)) else .ok ()
  | .up | .down | .goto _ => .ok ()

/-- The outcome of an operation from the outcome of its steps. -/
def finish (operation : Operation) (planned : Nat) (outcome : Outcome Error Unit) :
    Outcome Error Unit :=
  { outcome with result := outcome.result >>= fun _ => operation.verdict planned }

theorem finish_of_error (operation : Operation) (planned : Nat) {e : Error} {stop : Connection}
    {trail : List Connection} :
    operation.finish planned ⟨.error e, stop, trail⟩ = ⟨.error e, stop, trail⟩ :=
  rfl

theorem finish_of_ok (operation : Operation) (planned : Nat) {stop : Connection}
    {trail : List Connection} :
    operation.finish planned ⟨.ok (), stop, trail⟩ = ⟨operation.verdict planned, stop, trail⟩ :=
  rfl

end Operation

namespace Migrator

/-- The current version that a content records, if it is clean and the source has it. -/
def cleanIn (migrator : Migrator) (db : Database) : Except Error (Option Version) :=
  match migrator.options.stateIn db with
  | .error e => .error e
  | .ok ⟨version, true⟩ => .error (.dirty version)
  | .ok ⟨none, false⟩ => .ok none
  | .ok ⟨some version, false⟩ =>
    if migrator.source.contains version then .ok (some version)
    else .error (.versionNotInSource version migrator.source.directory)

/-- The steps that an operation runs on a content, or what it is refused for. -/
def planned (migrator : Migrator) (operation : Operation) (db : Database) :
    Except Error (List Step) :=
  match migrator.cleanIn db with
  | .error e => .error e
  | .ok current =>
    match operation.refusal? migrator.source with
    | some e => .error e
    | none =>
      let plan := operation.plan migrator.source current
      if plan.isEmpty then .error .noChange else .ok plan

variable {migrator : Migrator} {tree : FileTree} {start : Connection}

theorem cleanVersion_eq :
    migrator.cleanVersion start = ⟨migrator.cleanIn start.content, start, []⟩ := by
  unfold cleanVersion cleanIn
  cases found : migrator.options.stateIn start.content with
  | error e =>
      have state : migrator.options.state start = ⟨.error e, start, []⟩ := by
        rw [StoreOptions.state, Session.query_apply, found]
      rw [Session.bind_of_error state]
  | ok recorded =>
      have state : migrator.options.state start = ⟨.ok recorded, start, []⟩ := by
        rw [StoreOptions.state, Session.query_apply, found]
      rw [Session.bind_of_answer state]
      obtain ⟨version, dirty⟩ := recorded
      cases dirty with
      | true => rfl
      | false =>
          cases version with
          | none => rfl
          | some number =>
              cases has : migrator.source.contains number with
              | true => simp [has]; rfl
              | false => simp [has]; rfl

theorem apply_of_empty {plan : List Step} (empty : plan.isEmpty = true) :
    migrator.apply tree plan start = ⟨.error .noChange, start, []⟩ := by
  unfold apply
  rw [if_pos empty]
  rfl

theorem apply_of_steps {plan : List Step} (steps : plan.isEmpty = false) :
    migrator.apply tree plan start = plan.forM (migrator.applyStep tree) start := by
  unfold apply
  rw [if_neg (by rw [steps]; exact Bool.false_ne_true)]

/-- Where nothing refuses it, an operation applies its plan and tells what is missing. -/
theorem perform_of_clean {operation : Operation} {current : Option Version}
    (clean : migrator.cleanIn start.content = .ok current)
    (allowed : operation.refusal? migrator.source = none) :
    migrator.perform tree operation start =
      operation.finish (operation.plan migrator.source current).length
        (migrator.apply tree (operation.plan migrator.source current) start) := by
  have looked : migrator.cleanVersion start = ⟨.ok current, start, []⟩ := by
    rw [cleanVersion_eq, clean]
  have silent : ∀ outcome : Outcome Error Unit,
      outcome = { outcome with result := outcome.result >>= fun _ => .ok () } := by
    intro outcome
    obtain ⟨result, stop, trail⟩ := outcome
    cases result <;> rfl
  cases operation with
  | up => exact (Session.bind_of_answer looked).trans (silent _)
  | down => exact (Session.bind_of_answer looked).trans (silent _)
  | goto target =>
      refine (Session.bind_of_answer looked).trans ?_
      cases has : migrator.source.contains target with
      | true => exact silent _
      | false => simp [Operation.refusal?, has] at allowed
  | steps count =>
      refine (Session.bind_of_answer looked).trans ?_
      let plan := planSteps migrator.source current count
      show (migrator.apply tree plan >>= fun _ => _) start =
        (Operation.steps count).finish plan.length (migrator.apply tree plan start)
      cases run : migrator.apply tree plan start with
      | mk result stop trail =>
          cases result with
          | error e =>
              rw [Session.bind_of_error run]
              rfl
          | ok _ =>
              rw [Session.bind_of_ok run, Operation.finish_of_ok, Operation.verdict]
              split
              · rw [Session.throw_apply, List.append_nil]
              · rw [Session.pure_apply, List.append_nil]

/-- **What an operation does.** It is refused on sight of the content and issues nothing, or it runs
its plan and tells what is missing. -/
theorem perform_eq (operation : Operation) :
    migrator.perform tree operation start =
      match migrator.planned operation start.content with
      | .error e => ⟨.error e, start, []⟩
      | .ok plan => operation.finish plan.length (plan.forM (migrator.applyStep tree) start) := by
  unfold planned
  cases clean : migrator.cleanIn start.content with
  | error e =>
      have looked : migrator.cleanVersion start = ⟨.error e, start, []⟩ := by
        rw [cleanVersion_eq, clean]
      cases operation with
      | up | down | goto | steps => exact Session.bind_of_error looked
  | ok current =>
      cases refused : operation.refusal? migrator.source with
      | some e =>
          have looked : migrator.cleanVersion start = ⟨.ok current, start, []⟩ := by
            rw [cleanVersion_eq, clean]
          cases operation with
          | up | down | steps => cases refused
          | goto target =>
              refine (Session.bind_of_answer looked).trans ?_
              cases has : migrator.source.contains target with
              | true => simp [Operation.refusal?, has] at refused
              | false =>
                  simp only [Operation.refusal?, has, Bool.false_eq_true, if_false,
                    Option.some.injEq] at refused
                  subst refused
                  rfl
      | none =>
          rw [perform_of_clean clean refused]
          cases empty : (operation.plan migrator.source current).isEmpty with
          | true =>
              rw [apply_of_empty empty, Operation.finish_of_error]
              simp only [empty, if_true]
          | false =>
              rw [apply_of_steps empty]
              simp only [empty, Bool.false_eq_true, if_false]

/-- The steps that an operation runs on a content; a refused one runs none. -/
def plannedSteps (migrator : Migrator) (operation : Operation) (db : Database) : List Step :=
  (migrator.planned operation db).toOption.getD []

/-- The outcome of an operation is that of its planned steps, but for what is said at the end. -/
theorem perform_run (operation : Operation) :
    (migrator.perform tree operation start).trail =
        ((migrator.plannedSteps operation start.content).forM (migrator.applyStep tree)
          start).trail ∧
      (migrator.perform tree operation start).connection =
        ((migrator.plannedSteps operation start.content).forM (migrator.applyStep tree)
          start).connection := by
  rw [perform_eq]
  unfold plannedSteps
  cases migrator.planned operation start.content with
  | error e => exact ⟨rfl, rfl⟩
  | ok plan => exact ⟨rfl, rfl⟩

end Migrator

/-! ## Where operations go -/

namespace Source

/-- The position of a version. -/
def position? (source : Source) (version : Version) : Option Nat :=
  (source.versions.idxOf? version).map (· + 1)

variable {source : Source} {version : Version}

theorem position?_eq_some {j : Nat} (found : source.position? version = some j) :
    j ≤ source.versions.length ∧ source.versionAt j = some version := by
  unfold position? at found
  cases index : source.versions.idxOf? version with
  | none =>
      rw [index] at found
      cases found
  | some k =>
      rw [index] at found
      cases found
      obtain ⟨bound, same, _⟩ := List.findIdx?_eq_some_iff_getElem.mp index
      refine ⟨bound, ?_⟩
      rw [versionAt, List.getElem?_eq_getElem bound, eq_of_beq same]

theorem position?_eq_none : source.position? version = none ↔ source.contains version = false := by
  unfold position? contains
  rw [Option.map_eq_none_iff, List.idxOf?_eq_none_iff]
  simp

end Source

namespace Operation

/-- The position that an operation heads for from a position; a target that the source does not have
is nowhere. -/
def destination? (source : Source) (i : Nat) : Operation → Option Nat
  | .up => some source.versions.length
  | .down => some 0
  | .goto target => source.position? target
  | .steps count => some (max 0 (min (i + count) source.versions.length)).toNat

variable {source : Source} {i j : Nat} {operation : Operation}

theorem destination?_le (heads : operation.destination? source i = some j) :
    j ≤ source.versions.length := by
  cases operation with
  | up =>
      cases heads
      exact Nat.le_refl _
  | down =>
      cases heads
      exact Nat.zero_le _
  | goto target => exact (Source.position?_eq_some heads).1
  | steps count =>
      cases heads
      omega

/-- An operation that heads for a position is not refused, and plans the stretch to there. -/
theorem plan_eq (ordered : source.Ordered) (within : i ≤ source.versions.length)
    (heads : operation.destination? source i = some j) :
    operation.refusal? source = none ∧
      operation.plan source (source.versionAt i) = source.stretch i j := by
  cases operation with
  | up =>
      cases heads
      exact ⟨rfl, Source.planUp_eq ordered within none⟩
  | down =>
      cases heads
      exact ⟨rfl, Source.planDown_eq ordered within none⟩
  | goto target =>
      obtain ⟨bound, at?⟩ := Source.position?_eq_some heads
      have has := Source.Ordered.contains_versionAt at?
      refine ⟨by rw [refusal?, has]; rfl, ?_⟩
      cases j with
      | zero => cases at?
      | succ k => exact Source.planTo_eq ordered within at?
  | steps count =>
      refine ⟨rfl, ?_⟩
      cases heads
      show Migrator.planSteps source (source.versionAt i) count = _
      unfold Migrator.planSteps
      split
      · rename_i none
        subst none
        have here : (max 0 (min ((i : Int) + 0) source.versions.length)).toNat = i := by omega
        rw [here, Source.stretch_self]
      · split
        · rw [Source.planUp_limit ordered within]
          congr 1
          omega
        · rw [Source.planDown_limit ordered within]
          congr 1
          omega

/-- Only a target that the source does not have is nowhere, and it is refused. -/
theorem refusal?_of_nowhere (nowhere : operation.destination? source i = none) :
    ∃ target, operation = .goto target ∧
      operation.refusal? source = some (.targetNotInSource target) := by
  cases operation with
  | up | down | steps => cases nowhere
  | goto target =>
      have missing := Source.position?_eq_none.mp nowhere
      exact ⟨target, rfl, by rw [refusal?, missing]; rfl⟩

end Operation

namespace Migrator

variable {migrator : Migrator} {operation : Operation} {db : Database} {i j : Nat}

theorem cleanIn_versionAt
    (recorded : migrator.options.stateIn db = .ok ⟨migrator.source.versionAt i, false⟩) :
    migrator.cleanIn db = .ok (migrator.source.versionAt i) := by
  unfold cleanIn
  rw [recorded]
  cases at? : migrator.source.versionAt i with
  | none => rfl
  | some version =>
      simp only
      rw [if_pos (Source.Ordered.contains_versionAt at?)]

/-- From a position, an operation that heads for a position runs the stretch to there, unless it is
there already. -/
theorem planned_versionAt (ordered : migrator.source.Ordered)
    (within : i ≤ migrator.source.versions.length)
    (recorded : migrator.options.stateIn db = .ok ⟨migrator.source.versionAt i, false⟩)
    (heads : operation.destination? migrator.source i = some j) :
    migrator.planned operation db =
      if i = j then .error .noChange else .ok (migrator.source.stretch i j) := by
  obtain ⟨allowed, plan⟩ := Operation.plan_eq ordered within heads
  have empty := Source.isEmpty_stretch within (Operation.destination?_le heads)
  unfold planned
  simp only [cleanIn_versionAt recorded, allowed, plan, empty, decide_eq_true_eq]

theorem planned_nowhere
    (recorded : migrator.options.stateIn db = .ok ⟨migrator.source.versionAt i, false⟩)
    (nowhere : operation.destination? migrator.source i = none) :
    ∃ target, operation = .goto target ∧
      migrator.planned operation db = .error (.targetNotInSource target) := by
  obtain ⟨target, isGoto, refused⟩ := Operation.refusal?_of_nowhere nowhere
  refine ⟨target, isGoto, ?_⟩
  unfold planned
  rw [cleanIn_versionAt recorded, refused]

/-- Whatever is asked for, the steps that are run from a position are a stretch. -/
theorem exists_plannedSteps_eq (ordered : migrator.source.Ordered)
    (within : i ≤ migrator.source.versions.length)
    (recorded : migrator.options.stateIn db = .ok ⟨migrator.source.versionAt i, false⟩)
    (operation : Operation) :
    ∃ j ≤ migrator.source.versions.length,
      migrator.plannedSteps operation db = migrator.source.stretch i j := by
  unfold plannedSteps
  cases heads : operation.destination? migrator.source i with
  | none =>
      obtain ⟨target, _, refused⟩ := planned_nowhere recorded heads
      refine ⟨i, within, ?_⟩
      rw [refused, Source.stretch_self]
      rfl
  | some j =>
      rw [planned_versionAt ordered within recorded heads]
      split
      · refine ⟨i, within, ?_⟩
        rw [Source.stretch_self]
        rfl
      · exact ⟨j, Operation.destination?_le heads, rfl⟩

end Migrator

end SchemaMigration
