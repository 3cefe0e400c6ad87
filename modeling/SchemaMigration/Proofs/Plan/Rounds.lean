import Mathlib.Logic.Relation
import SchemaMigration.Proofs.Plan.Stretch

/-!
# The planning loop

A planner stands at a version and plans in rounds. As long as it stands at one and its plan may
still grow, it adds the step of that version and goes on to the neighbour on the way up or down.

* `Planning.round_wellFounded`: the rounds come to an end, whatever order a source has its versions
  in;
* `Planning.ends_iff`: what the planners give is the plan at which the rounds end.
-/

namespace SchemaMigration

namespace Source

variable {source : Source} {direction : Direction} {version : Version} {step : Step}

/-! ## One way or the other -/

/-- The step that a version has in a direction. -/
def stepOf (source : Source) : Direction → Version → Step
  | .up => upStep
  | .down => source.downStep

/-- The version that comes next in a direction. -/
def neighbour? (source : Source) : Direction → Version → Option Version
  | .up => source.next?
  | .down => source.prev?

/-- The version whose step a plan starts with. -/
def start? (source : Source) : Direction → Option Version → Option Version
  | .up => source.after?
  | .down => id

/-- The plan from the current version in a direction. -/
def planFrom (source : Source) : Direction → Option Version → Option Nat → List Step
  | .up => source.planUp
  | .down => source.planDown

/-- The steps in a direction from a version on, at most `bound` of them. -/
def stepsFrom (source : Source) : Direction → Nat → Option Version → List Step
  | .up => source.ascend
  | .down => source.descend

theorem stepsFrom_none (bound : Nat) : source.stepsFrom direction bound none = [] := by
  cases direction <;> cases bound <;> rfl

theorem stepsFrom_zero (cursor : Option Version) : source.stepsFrom direction 0 cursor = [] := by
  cases direction <;> rfl

theorem stepsFrom_succ (bound : Nat) :
    source.stepsFrom direction (bound + 1) (some version) = source.stepOf direction version ::
      source.stepsFrom direction bound (source.neighbour? direction version) := by
  cases direction <;> rfl

theorem planFrom_eq (source : Source) (direction : Direction) (current : Option Version)
    (limit : Option Nat) :
    source.planFrom direction current limit =
      source.stepsFrom direction (source.stepBound limit) (source.start? direction current) := by
  cases direction with
  | up => exact planUp_eq_ascend source current limit
  | down => rfl

/-- Every step is the one that its version has in the direction. -/
theorem of_mem_stepsFrom {bound : Nat} {cursor : Option Version}
    (member : step ∈ source.stepsFrom direction bound cursor) :
    step = source.stepOf direction step.version := by
  induction bound generalizing cursor with
  | zero =>
      rw [stepsFrom_zero] at member
      cases member
  | succ bound ih =>
      cases cursor with
      | none =>
          rw [stepsFrom_none] at member
          cases member
      | some version =>
          rw [stepsFrom_succ] at member
          rcases List.mem_cons.mp member with rfl | later
          · cases direction <;> rfl
          · exact ih later

theorem of_mem_planFrom (direction : Direction) {current : Option Version} {limit : Option Nat}
    (member : step ∈ source.planFrom direction current limit) :
    step = source.stepOf direction step.version := by
  rw [planFrom_eq] at member
  exact of_mem_stepsFrom member

/-! ## What lies ahead -/

/-- A version comes behind another in a direction. -/
def beyond : Direction → Version → Version → Bool
  | .up, version, other => version < other
  | .down, version, other => other < version

theorem beyond_trans {first second third : Version} (one : beyond direction first second = true)
    (two : beyond direction second third = true) : beyond direction first third = true := by
  cases direction with
  | up => exact decide_eq_true (Nat.lt_trans (of_decide_eq_true one) (of_decide_eq_true two))
  | down => exact decide_eq_true (Nat.lt_trans (of_decide_eq_true two) (of_decide_eq_true one))

theorem beyond_self (version : Version) : beyond direction version version = false := by
  cases direction <;> simp [beyond]

theorem beyond_of_neighbour? {other : Version}
    (found : source.neighbour? direction version = some other) :
    other ∈ source.versions ∧ beyond direction version other = true := by
  cases direction with
  | up => exact ⟨List.mem_of_find?_eq_some found, List.find?_some (p := (version < ·)) found⟩
  | down =>
      exact ⟨List.mem_reverse.mp (List.mem_of_find?_eq_some found),
        List.find?_some (p := (· < version)) found⟩

/-- How many rounds a planner can have that stands here: one, and one for each version beyond. -/
def ahead (source : Source) (direction : Direction) : Option Version → Nat
  | none => 0
  | some version => (source.versions.filter (beyond direction version)).length + 1

theorem ahead_le (source : Source) (direction : Direction) (cursor : Option Version) :
    source.ahead direction cursor ≤ source.versions.length + 1 := by
  cases cursor with
  | none => exact Nat.zero_le _
  | some version => exact Nat.succ_le_succ (List.length_filter_le _ _)

/-- Going on, a planner has less ahead of it, also in a source that is not ordered. -/
theorem ahead_neighbour?_lt (source : Source) (direction : Direction) (version : Version) :
    source.ahead direction (source.neighbour? direction version) <
      source.ahead direction (some version) := by
  cases found : source.neighbour? direction version with
  | none => exact Nat.succ_pos _
  | some other =>
      obtain ⟨member, behind⟩ := beyond_of_neighbour? found
      have fewer : source.versions.filter (beyond direction other) =
          (source.versions.filter (beyond direction version)).filter (beyond direction other) := by
        rw [List.filter_filter]
        refine List.filter_congr fun third _ => ?_
        rw [Bool.eq_iff_iff, Bool.and_eq_true, iff_self_and]
        exact beyond_trans behind
      refine Nat.succ_lt_succ ?_
      rw [fewer]
      refine List.length_filter_lt_length_iff_exists.mpr
        ⟨other, List.mem_filter.mpr ⟨member, behind⟩, ?_⟩
      rw [beyond_self]
      exact Bool.false_ne_true

end Source

/-! ## Rounds -/

/-- A planner at work: the steps it has planned and the version at which it stands. -/
structure Planning where
  plan : List Step := []
  cursor : Option Version

namespace Planning

variable {source : Source} {direction : Direction} {limit : Option Nat} {before after : Planning}

/-- One round: the step of the version is planned, and the planner goes on to the next one. -/
inductive Round (source : Source) (direction : Direction) (limit : Option Nat) :
    Planning → Planning → Prop
  | step {plan : List Step} {version : Version} (room : ∀ most ∈ limit, plan.length < most) :
      Round source direction limit ⟨plan, some version⟩
        ⟨plan ++ [source.stepOf direction version], source.neighbour? direction version⟩

/-- There is no further round: no version is left, or the plan is as long as it may be. -/
inductive Halted (limit : Option Nat) : Planning → Prop
  | exhausted {plan : List Step} : Halted limit ⟨plan, none⟩
  | full {plan : List Step} {cursor : Option Version} {most : Nat} (bounded : limit = some most)
      (reached : most ≤ plan.length) : Halted limit ⟨plan, cursor⟩

/-- The rounds from a version on end with a plan. -/
def Ends (source : Source) (direction : Direction) (limit : Option Nat) (start : Option Version)
    (plan : List Step) : Prop :=
  ∃ cursor, Relation.ReflTransGen (Round source direction limit) ⟨[], start⟩ ⟨plan, cursor⟩ ∧
    Halted limit ⟨plan, cursor⟩

/-- **Planning ends.** There is no endless run of rounds. -/
theorem round_wellFounded (source : Source) (direction : Direction) (limit : Option Nat) :
    WellFounded fun after before => Round source direction limit before after := by
  refine Subrelation.wf ?_ (measure fun planning => source.ahead direction planning.cursor).wf
  intro after before round
  cases round with
  | step room => exact source.ahead_neighbour?_lt direction _

theorem Round.unique {other : Planning} (one : Round source direction limit before after)
    (two : Round source direction limit before other) : after = other := by
  cases one
  cases two
  rfl

theorem Halted.not_round (halted : Halted limit before) :
    ¬ Round source direction limit before after := by
  rintro ⟨room⟩
  cases halted with
  | full bounded reached => exact absurd (room _ bounded) (Nat.not_lt.mpr reached)

theorem Halted.eq_of_rounds (halted : Halted limit before)
    (rounds : Relation.ReflTransGen (Round source direction limit) before after) :
    before = after := by
  cases rounds.cases_head with
  | inl same => exact same
  | inr further =>
      obtain ⟨_, round, _⟩ := further
      exact absurd round halted.not_round

theorem Ends.unique {start : Option Version} {plan other : List Step}
    (one : Ends source direction limit start plan)
    (two : Ends source direction limit start other) : plan = other := by
  obtain ⟨_, rounds, halted⟩ := one
  obtain ⟨_, others, haltedToo⟩ := two
  have functional : Relator.RightUnique (Round source direction limit) :=
    fun _ _ _ => Round.unique
  have linear := Relation.ReflTransGen.total_of_right_unique functional rounds others
  rcases linear with further | further
  · exact congrArg Planning.plan (halted.eq_of_rounds further)
  · exact (congrArg Planning.plan (haltedToo.eq_of_rounds further)).symm

/-- As many rounds as the plan may still grow by add the steps from here on. Either no version is
left then, or each of the rounds took something of what lay ahead. -/
theorem rounds_stepsFrom (source : Source) (direction : Direction) (bound : Nat)
    (plan : List Step) (cursor : Option Version)
    (room : ∀ most ∈ limit, plan.length + bound ≤ most) :
    ∃ left, Relation.ReflTransGen (Round source direction limit) ⟨plan, cursor⟩
        ⟨plan ++ source.stepsFrom direction bound cursor, left⟩ ∧
      (left = none ∨ (source.stepsFrom direction bound cursor).length = bound ∧
        source.ahead direction left + bound ≤ source.ahead direction cursor) := by
  induction bound generalizing plan cursor with
  | zero =>
      rw [Source.stepsFrom_zero, List.append_nil]
      exact ⟨cursor, .refl, .inr ⟨rfl, Nat.le_refl _⟩⟩
  | succ bound ih =>
      cases cursor with
      | none =>
          rw [Source.stepsFrom_none, List.append_nil]
          exact ⟨none, .refl, .inl rfl⟩
      | some version =>
          have here : Round source direction limit ⟨plan, some version⟩
              ⟨plan ++ [source.stepOf direction version], source.neighbour? direction version⟩ :=
            .step fun most bounded => by
              have := room most bounded
              omega
          obtain ⟨left, rounds, rest⟩ := ih (plan ++ [source.stepOf direction version])
            (source.neighbour? direction version) fun most bounded => by
              have := room most bounded
              rw [List.length_append, List.length_singleton]
              omega
          rw [List.append_assoc, List.singleton_append] at rounds
          rw [Source.stepsFrom_succ]
          refine ⟨left, .head here rounds, rest.imp_right fun ⟨count, less⟩ => ?_⟩
          have := source.ahead_neighbour?_lt direction version
          rw [List.length_cons]
          omega

/-- The bound on the steps of a plan keeps none of them away: it is the limit, or above what can lie
ahead. -/
theorem ends_stepsFrom (source : Source) (direction : Direction) (limit : Option Nat)
    (start : Option Version) :
    Ends source direction limit start
      (source.stepsFrom direction (source.stepBound limit) start) := by
  have within : ∀ most ∈ limit, source.stepBound limit ≤ most := by
    rintro most ⟨⟩
    exact Nat.min_le_left _ _
  obtain ⟨left, rounds, rest⟩ :=
    rounds_stepsFrom source direction (source.stepBound limit) [] start fun most bounded => by
      rw [List.length_nil, Nat.zero_add]
      exact within most bounded
  refine ⟨left, rounds, ?_⟩
  rcases rest with rfl | ⟨count, less⟩
  · exact .exhausted
  cases left with
  | none => exact .exhausted
  | some version =>
      -- Less lies ahead than the bound would allow, so the bound is the limit.
      have most := source.ahead_le direction start
      have here : 0 < source.ahead direction (some version) := Nat.succ_pos _
      cases limit with
      | none =>
          have bound : source.stepBound none = source.versions.length + 1 := rfl
          omega
      | some limit =>
          have bound : source.stepBound (some limit) = min limit (source.versions.length + 1) := rfl
          exact .full rfl (show limit ≤ (source.stepsFrom direction _ start).length by omega)

/-- **What the planners give** is the plan at which the rounds end. -/
theorem ends_iff {current : Option Version} {plan : List Step} :
    Ends source direction limit (source.start? direction current) plan ↔
      plan = source.planFrom direction current limit := by
  have ends := ends_stepsFrom source direction limit (source.start? direction current)
  rw [← Source.planFrom_eq] at ends
  exact ⟨fun other => other.unique ends, fun same => same ▸ ends⟩

end Planning

end SchemaMigration
