import SchemaMigration.Proofs.Migrator.Refusal

/-!
# Operations as repeated single steps

An operation plans all its steps on sight of one recorded state. The same is reached by single
steps, each of which looks at the state that the one before it recorded: `Migrator.Repeats` is such
a repetition, while an operation is `Due` and until a step fails.

* `Migrator.Repeats.unique`: a repetition ends in one way;
* `Migrator.perform_single`: with one planned step an operation does what that step does;
* `Migrator.stretch_retraced`: the steps of a stretch are what is repeated along it;
* `Migrator.exists_summary`: at the end of the way the repetition ends as the operation says;
* `Migrator.perform_repeats`: an operation leaves what its repeated single steps leave, and ends as
  they end. -/

namespace SchemaMigration

open Sql (Session Connection Database Outcome)

namespace Operation

/-- An operation that can be asked to move: to a version of the source, or by some steps. -/
def IsMove (source : Source) : Operation → Prop
  | .up | .down => True
  | .goto target => target ∈ source.versions
  | .steps count => count ≠ 0

/-- What an operation says of so many single steps, after which another may have failed. A number of
steps is short if there is nothing left to do after the first. -/
def summary (operation : Operation) (count : Nat) : Option Error → Except Error Unit
  | none => if count = 0 then .error .noChange else .ok ()
  | some e =>
    match operation with
    | .steps number =>
      if e = .noChange ∧ 0 < count then .error (.shortLimit (number.natAbs - count)) else .error e
    | .up | .down | .goto _ => .error e

end Operation

namespace Migrator

/-! ## Repetitions -/

/-- An operation performed again and again while it is due and until it fails, counted from a number
on: the count of those that succeeded, the error if one failed, and the connection that is left. -/
inductive Repeats (migrator : Migrator) (tree : FileTree) (single : Operation)
    (Due : Nat → Database → Prop) : Nat → Connection → Nat → Option Error → Connection → Prop
  | enough {count : Nat} {start : Connection} (done : ¬ Due count start.content) :
      Repeats migrator tree single Due count start count none start
  | failed {count : Nat} {start stop : Connection} {e : Error} {trail : List Connection}
      (due : Due count start.content)
      (fails : migrator.perform tree single start = ⟨.error e, stop, trail⟩) :
      Repeats migrator tree single Due count start count (some e) stop
  | again {count total : Nat} {start middle stop : Connection} {error? : Option Error}
      {trail : List Connection} (due : Due count start.content)
      (succeeds : migrator.perform tree single start = ⟨.ok (), middle, trail⟩)
      (onward : Repeats migrator tree single Due (count + 1) middle total error? stop) :
      Repeats migrator tree single Due count start total error? stop

/-- The single step of an operation on a content: down if it heads below the recorded version. -/
def single (migrator : Migrator) (db : Database) : Operation → Operation
  | .up => .steps 1
  | .down => .steps (-1)
  | .goto target =>
    if ((migrator.options.stateIn db).toOption.bind (·.version)).any (target < ·) then .steps (-1)
    else .steps 1
  | .steps count => .steps count.sign

/-- After so many single steps an operation is not done: they are too few, or the version it heads
for is not recorded. -/
def Due (migrator : Migrator) (operation : Operation) (count : Nat) (db : Database) : Prop :=
  match operation with
  | .up => migrator.options.stateIn db ≠ .ok ⟨migrator.source.versions.getLast?, false⟩
  | .down => migrator.options.stateIn db ≠ .ok ⟨none, false⟩
  | .goto target => migrator.options.stateIn db ≠ .ok ⟨some target, false⟩
  | .steps number => count < number.natAbs

variable {migrator : Migrator} {tree : FileTree} {single operation : Operation}
  {Due : Nat → Database → Prop} {db : Database}

/-- There is one way in which a repetition ends. -/
theorem Repeats.unique {count total total' : Nat} {start stop stop' : Connection}
    {error? error?' : Option Error}
    (left : Repeats migrator tree single Due count start total error? stop)
    (right : Repeats migrator tree single Due count start total' error?' stop') :
    total = total' ∧ error? = error?' ∧ stop = stop' := by
  induction left with
  | enough done =>
      cases right with
      | enough => exact ⟨rfl, rfl, rfl⟩
      | failed due => exact absurd due done
      | again due => exact absurd due done
  | failed due fails =>
      cases right with
      | enough done => exact absurd due done
      | failed _ fails' =>
          cases fails.symm.trans fails'
          exact ⟨rfl, rfl, rfl⟩
      | again _ succeeds => cases fails.symm.trans succeeds
  | again due succeeds _ ih =>
      cases right with
      | enough done => exact absurd due done
      | failed _ fails => cases succeeds.symm.trans fails
      | again _ succeeds' onward =>
          cases succeeds.symm.trans succeeds'
          exact ih onward

end Migrator

/-! ## Positions -/

namespace Source

variable {source : Source} {i j : Nat}

theorem versionAt_length (source : Source) :
    source.versionAt source.versions.length = source.versions.getLast? := by
  rw [List.getLast?_eq_getElem?]
  cases bound : source.versions.length with
  | zero =>
      rw [List.length_eq_zero_iff.mp bound]
      rfl
  | succ k => rfl

/-- A version is above a target exactly if its position is. -/
theorem Ordered.any_lt_versionAt {target : Version} (ordered : source.Ordered)
    (within : i ≤ source.versions.length) (at? : source.versionAt j = some target) :
    (source.versionAt i).any (target < ·) = decide (j < i) := by
  cases i with
  | zero => rfl
  | succ k =>
      cases j with
      | zero => cases at?
      | succ l =>
          obtain ⟨version, here⟩ : ∃ version, source.versions[k]? = some version :=
            ⟨_, List.getElem?_eq_getElem within⟩
          have current : source.versionAt (k + 1) = some version := here
          rw [current, Option.any_some, decide_eq_decide, Nat.add_lt_add_iff_right]
          constructor
          · intro above
            by_contra notAbove
            rcases Nat.lt_or_eq_of_le (Nat.le_of_not_lt notAbove) with below | rfl
            · exact Nat.lt_asymm above (ordered.lt_of_index_lt here at? below)
            · cases here.symm.trans at?
              exact Nat.lt_irrefl _ above
          · exact ordered.lt_of_index_lt at? here

/-- A position stands for one version, or for none. -/
theorem Ordered.eq_of_versionAt_eq (ordered : source.Ordered)
    (left : i ≤ source.versions.length) (right : j ≤ source.versions.length)
    (same : source.versionAt i = source.versionAt j) : i = j := by
  cases at? : source.versionAt j with
  | none =>
      rw [at?] at same
      rw [(versionAt_eq_none_iff left).mp same, (versionAt_eq_none_iff right).mp at?]
  | some version => exact ordered.versionAt_inj (same.trans at?) at?

theorem length_stretch_eq_zero_iff (left : i ≤ source.versions.length)
    (right : j ≤ source.versions.length) :
    (source.stretch i j).length = 0 ↔ i = j := by
  rw [← List.isEmpty_iff_length_eq_zero, isEmpty_stretch left right, decide_eq_true_eq]

end Source

namespace Operation

variable {source : Source} {i j : Nat}

/-- The way of a move by some steps is at most that long, and shorter only up to the end of the list
or down to no version. -/
theorem length_stretch_steps {number : Int} (left : i ≤ source.versions.length)
    (heads : (steps number).destination? source i = some j) :
    (source.stretch i j).length ≤ number.natAbs ∧
      ((source.stretch i j).length < number.natAbs →
        (0 < number ∧ j = source.versions.length) ∨ (number < 0 ∧ j = 0)) := by
  have right := destination?_le heads
  rw [Source.length_stretch left right]
  simp only [destination?, Option.some.injEq] at heads
  split
  · omega
  · omega

end Operation

namespace Migrator

variable {migrator : Migrator} {tree : FileTree} {single operation : Operation}
  {Due : Nat → Database → Prop} {db : Database} {i j : Nat}

/-! ## Single steps -/

/-- A move by one step, up or down. -/
def IsSingle (operation : Operation) : Prop :=
  operation = .steps 1 ∨ operation = .steps (-1)

/-- From a position an operation runs the stretch to where it heads for, unless it is there
already. -/
theorem perform_versionAt (ordered : migrator.source.Ordered)
    (within : i ≤ migrator.source.versions.length)
    (recorded : migrator.options.stateIn db = .ok ⟨migrator.source.versionAt i, false⟩)
    (heads : operation.destination? migrator.source i = some j) :
    migrator.perform tree operation ⟨db, none⟩ =
      if i = j then ⟨.error .noChange, ⟨db, none⟩, []⟩
      else operation.finish (migrator.source.stretch i j).length
        ((migrator.source.stretch i j).forM (migrator.applyStep tree) ⟨db, none⟩) := by
  have planned : migrator.planned operation (Connection.content ⟨db, none⟩) = _ :=
    planned_versionAt ordered within recorded heads
  rw [perform_eq, planned]
  by_cases arrived : i = j
  · rw [if_pos arrived, if_pos arrived]
  · rw [if_neg arrived, if_neg arrived]

/-- With one planned step a move by one step does what that step does. -/
theorem perform_single {step : Step} {start : Connection} (one : IsSingle operation)
    (planned : migrator.planned operation start.content = .ok [step]) :
    migrator.perform tree operation start = migrator.applyStep tree step start := by
  have silent : operation.verdict 1 = .ok () := by
    rcases one with rfl | rfl
    · rfl
    · rfl
  rw [perform_eq, planned]
  simp only [List.length_singleton]
  rw [Session.forM_cons_apply]
  cases ran : migrator.applyStep tree step start with
  | mk result stop trail =>
      cases result with
      | error e =>
          rw [Session.bind_of_error ran]
          rfl
      | ok _ =>
          rw [Session.bind_of_ok ran,
            show [].forM (migrator.applyStep tree) = (pure () : Session Error Unit) from rfl,
            Session.pure_apply, Operation.finish_of_ok, silent, List.append_nil]

/-- What a move by one step plans from below a position. -/
theorem planned_one_up {version : Version} (ordered : migrator.source.Ordered)
    (at? : migrator.source.versions[i]? = some version)
    (recorded : migrator.options.stateIn db = .ok ⟨migrator.source.versionAt i, false⟩) :
    migrator.planned (.steps 1) db = .ok [Source.upStep version] := by
  have bound := (List.getElem?_eq_some_iff.mp at?).1
  have heads : (Operation.steps 1).destination? migrator.source i = some (i + 1) := by
    simp only [Operation.destination?, Option.some.injEq]
    omega
  rw [planned_versionAt ordered (Nat.le_of_lt bound) recorded heads, if_neg (by omega),
    Source.stretch_up at? (Nat.lt_succ_self i), Source.stretch_self]

theorem planned_one_down {version : Version} (ordered : migrator.source.Ordered)
    (at? : migrator.source.versions[i]? = some version)
    (recorded : migrator.options.stateIn db = .ok ⟨migrator.source.versionAt (i + 1), false⟩) :
    migrator.planned (.steps (-1)) db = .ok [migrator.source.downStep version] := by
  have bound := (List.getElem?_eq_some_iff.mp at?).1
  have heads : (Operation.steps (-1)).destination? migrator.source (i + 1) = some i := by
    simp only [Operation.destination?, Option.some.injEq]
    omega
  rw [planned_versionAt ordered bound recorded heads, if_neg (by omega),
    Source.stretch_down at? (Nat.le_refl i), Source.stretch_self]

/-! ## The way to a position -/

/-- What was run from a count on is what is repeated: it fails as the repetition does, or it arrives
at a target, and the repetition goes on from there with the total count. -/
inductive Retraced (migrator : Migrator) (tree : FileTree) (single : Operation)
    (Due : Nat → Database → Prop) (count : Nat) (db : Database) (total : Nat)
    (target : Option Version) : Outcome Error Unit → Prop
  | failed {e : Error} {stop : Connection} {trail : List Connection} {reached : Nat}
      (repeats : Repeats migrator tree single Due count ⟨db, none⟩ reached (some e) stop) :
      Retraced migrator tree single Due count db total target ⟨.error e, stop, trail⟩
  | arrived {after : Database} {trail : List Connection}
      (table : migrator.options.HasTable after)
      (clean : migrator.options.stateIn after = .ok ⟨target, false⟩)
      (onward : ∀ {reached error? stop},
        Repeats migrator tree single Due total ⟨after, none⟩ reached error? stop →
          Repeats migrator tree single Due count ⟨db, none⟩ reached error? stop) :
      Retraced migrator tree single Due count db total target ⟨.ok (), ⟨after, none⟩, trail⟩

/-- One step, and what is retraced from where it arrives. -/
theorem Retraced.step {step : Step} {rest : List Step} {count total : Nat}
    {target : Option Version} (apart : migrator.BodiesApart tree)
    (table : migrator.options.HasTable db) (one : IsSingle single) (due : Due count db)
    (planned : migrator.planned single db = .ok [step])
    (further : ∀ {after}, migrator.options.HasTable after →
      migrator.options.stateIn after = .ok ⟨step.target, false⟩ →
      Retraced migrator tree single Due (count + 1) after total target
        (rest.forM (migrator.applyStep tree) ⟨after, none⟩)) :
    Retraced migrator tree single Due count db total target
      ((step :: rest).forM (migrator.applyStep tree) ⟨db, none⟩) := by
  have performed : migrator.perform tree single ⟨db, none⟩ =
      migrator.applyStep tree step ⟨db, none⟩ := perform_single one planned
  have stepRun := applyStep_run step apart table
  rw [Session.forM_cons_apply]
  generalize ran : migrator.applyStep tree step ⟨db, none⟩ = outcome at stepRun performed
  cases stepRun with
  | stopped =>
      rw [Session.bind_of_error ran]
      exact .failed (.failed due performed)
  | broken =>
      rw [Session.bind_of_error ran]
      exact .failed (.failed due performed)
  | @finished quiet marked after _ _ clean =>
      rw [Session.bind_of_ok ran]
      have later := further (hasTable_of_rows clean) (StoreOptions.stateIn_rowsOf clean)
      generalize rest.forM (migrator.applyStep tree) ⟨after, none⟩ = outcome at later
      cases later with
      | failed repeats => exact .failed (.again due performed repeats)
      | arrived stopTable stopClean onward =>
          exact .arrived stopTable stopClean fun repeats => .again due performed (onward repeats)

/-- **The steps of a stretch are what is repeated along it**, if the repetition goes its way and is
due before its end. -/
theorem stretch_retraced {total : Nat} (ordered : migrator.source.Ordered)
    (apart : migrator.BodiesApart tree) (left : i ≤ migrator.source.versions.length)
    (right : j ≤ migrator.source.versions.length)
    (due : ∀ k ≤ migrator.source.versions.length, ∀ count db, k ≠ j →
      count + (migrator.source.stretch k j).length = total →
      migrator.options.stateIn db = .ok ⟨migrator.source.versionAt k, false⟩ → Due count db)
    {count : Nat} (table : migrator.options.HasTable db)
    (recorded : migrator.options.stateIn db = .ok ⟨migrator.source.versionAt i, false⟩)
    (counted : count + (migrator.source.stretch i j).length = total)
    (up : i < j → single = .steps 1) (down : j < i → single = .steps (-1)) :
    Retraced migrator tree single Due count db total (migrator.source.versionAt j)
      ((migrator.source.stretch i j).forM (migrator.applyStep tree) ⟨db, none⟩) := by
  revert db count
  -- A step records the next position, and from there the single step plans the next of the stretch.
  refine Source.stretch_induction (P := fun i => (i < j → single = .steps 1) →
    (j < i → single = .steps (-1)) → ∀ {db count}, migrator.options.HasTable db →
    migrator.options.stateIn db = .ok ⟨migrator.source.versionAt i, false⟩ →
    count + (migrator.source.stretch i j).length = total →
    Retraced migrator tree single Due count db total (migrator.source.versionAt j)
      ((migrator.source.stretch i j).forM (migrator.applyStep tree) ⟨db, none⟩))
    left right ?_ ?_ ?_ up down
  · intro _ _ db count table recorded counted
    rw [Source.stretch_self] at counted ⊢
    cases counted
    exact .arrived table recorded id
  · intro k version at? below further up _ db count table recorded counted
    cases up below
    have target : (Source.upStep version).target = migrator.source.versionAt (k + 1) := at?.symm
    have bound := (List.getElem?_eq_some_iff.mp at?).1
    have isDue := due k (Nat.le_of_lt bound) count db (Nat.ne_of_lt below) counted recorded
    rw [Source.stretch_up at? below] at counted ⊢
    rw [List.length_cons] at counted
    refine Retraced.step apart table (.inl rfl) isDue (planned_one_up ordered at? recorded)
      fun laterTable clean => ?_
    rw [target] at clean
    exact further (fun _ => rfl) (fun impossible => by omega) laterTable clean (by omega)
  · intro k version at? above further _ down db count table recorded counted
    cases down (Nat.lt_succ_of_le above)
    have target : (migrator.source.downStep version).target = migrator.source.versionAt k :=
      ordered.prev?_eq at?
    have bound := (List.getElem?_eq_some_iff.mp at?).1
    have isDue := due (k + 1) bound count db (by omega) counted recorded
    rw [Source.stretch_down at? above] at counted ⊢
    rw [List.length_cons] at counted
    refine Retraced.step apart table (.inr rfl) isDue (planned_one_down ordered at? recorded)
      fun laterTable clean => ?_
    rw [target] at clean
    exact further (fun impossible => by omega) (fun _ => rfl) laterTable clean (by omega)

/-! ## The end of the way -/

/-- An operation that heads for a version is due until that is recorded. -/
theorem due_iff_of_version {count : Nat}
    (heads : operation.destination? migrator.source i = some j)
    (notSteps : ∀ number, operation ≠ .steps number) :
    migrator.Due operation count db ↔
      migrator.options.stateIn db ≠ .ok ⟨migrator.source.versionAt j, false⟩ := by
  cases operation with
  | steps number => exact absurd rfl (notSteps number)
  | up =>
      cases heads
      rw [Source.versionAt_length]
      rfl
  | down =>
      cases heads
      rfl
  | goto target =>
      rw [(Source.position?_eq_some heads).2]
      rfl

/-- An operation that moves heads for a position. -/
theorem exists_destination (moves : operation.IsMove migrator.source) (i : Nat) :
    ∃ j, operation.destination? migrator.source i = some j := by
  cases heads : operation.destination? migrator.source i with
  | some j => exact ⟨j, rfl⟩
  | none =>
      obtain ⟨target, rfl, _⟩ := Operation.refusal?_of_nowhere heads
      have missing := Source.position?_eq_none.mp heads
      exact absurd (List.contains_iff_mem.mpr moves) (by rw [← Source.contains, missing]; simp)

/-- The single step goes towards the position that its operation heads for. -/
theorem single_toward (ordered : migrator.source.Ordered)
    (within : i ≤ migrator.source.versions.length)
    (recorded : migrator.options.stateIn db = .ok ⟨migrator.source.versionAt i, false⟩)
    (heads : operation.destination? migrator.source i = some j) :
    (i < j → migrator.single db operation = .steps 1) ∧
      (j < i → migrator.single db operation = .steps (-1)) := by
  cases operation with
  | up =>
      cases heads
      exact ⟨fun _ => rfl, fun above => absurd above (Nat.not_lt.mpr within)⟩
  | down =>
      cases heads
      exact ⟨fun below => absurd below (Nat.not_lt_zero _), fun _ => rfl⟩
  | goto target =>
      have above := ordered.any_lt_versionAt within (Source.position?_eq_some heads).2
      simp only [single, recorded, Except.toOption, Option.bind_some, above, decide_eq_true_eq]
      exact ⟨fun below => if_neg (Nat.lt_asymm below), fun above => if_pos above⟩
  | steps count =>
      cases heads
      simp only [single, Operation.steps.injEq]
      exact ⟨fun below => Int.sign_eq_one_of_pos (by omega),
        fun above => Int.sign_eq_neg_one_of_neg (by omega)⟩

/-- Before its destination an operation is due. -/
theorem due_before {k count : Nat} (ordered : migrator.source.Ordered)
    (left : i ≤ migrator.source.versions.length)
    (heads : operation.destination? migrator.source i = some j)
    (within : k ≤ migrator.source.versions.length) (before : k ≠ j)
    (counted : count + (migrator.source.stretch k j).length = (migrator.source.stretch i j).length)
    (recorded : migrator.options.stateIn db = .ok ⟨migrator.source.versionAt k, false⟩) :
    migrator.Due operation count db := by
  have right := Operation.destination?_le heads
  have apart : migrator.options.stateIn db ≠ .ok ⟨migrator.source.versionAt j, false⟩ := by
    intro arrived
    have both := recorded.symm.trans arrived
    injection both with same
    injection same with sameVersion
    exact before (ordered.eq_of_versionAt_eq within right sameVersion)
  cases operation with
  | up | down | goto => exact (due_iff_of_version heads (by simp)).mpr apart
  | steps number =>
      have further := mt (Source.length_stretch_eq_zero_iff within right).mp before
      have most := (Operation.length_stretch_steps left heads).1
      show count < number.natAbs
      omega

/-- **At its destination** a repetition ends, with nothing left to do if it was to take further
steps. What is said of it is what the operation says of a plan of that length. -/
theorem exists_summary (tree : FileTree) (db : Database) {after : Database} {total : Nat}
    (ordered : migrator.source.Ordered)
    (left : i ≤ migrator.source.versions.length)
    (heads : operation.destination? migrator.source i = some j)
    (moves : operation.IsMove migrator.source)
    (counted : (migrator.source.stretch i j).length = total)
    (clean : migrator.options.stateIn after = .ok ⟨migrator.source.versionAt j, false⟩) :
    ∃ error?, Repeats migrator tree (migrator.single db operation) (migrator.Due operation) total
        ⟨after, none⟩ total error? ⟨after, none⟩ ∧
      operation.summary total error? =
        if i = j then .error .noChange else operation.verdict total := by
  have right := Operation.destination?_le heads
  have empty := Source.length_stretch_eq_zero_iff left right
  rw [counted] at empty
  cases operation with
  | up | down | goto =>
      refine ⟨none, .enough fun due => ?_, ?_⟩
      · exact (due_iff_of_version heads (by simp)).mp due clean
      · simp only [Operation.summary, Operation.verdict, empty]
  | steps number =>
      obtain ⟨most, ends⟩ := Operation.length_stretch_steps left heads
      rw [counted] at most ends
      have moving : number ≠ 0 := moves
      rcases Nat.lt_or_eq_of_le most with short | enough
      · have stays : (Operation.steps number.sign).destination? migrator.source j = some j := by
          simp only [Operation.destination?, Option.some.injEq]
          rcases ends short with ⟨above, rfl⟩ | ⟨below, rfl⟩
          · rw [Int.sign_eq_one_of_pos above]
            omega
          · rw [Int.sign_eq_neg_one_of_neg below]
            omega
        have idle : migrator.perform tree (.steps number.sign) ⟨after, none⟩ =
            ⟨.error .noChange, ⟨after, none⟩, []⟩ := by
          rw [perform_versionAt ordered right clean stays, if_pos rfl]
        refine ⟨some .noChange, .failed short idle, ?_⟩
        by_cases arrived : i = j
        · rw [if_pos arrived]
          exact if_neg fun both => Nat.ne_of_gt both.2 (empty.mpr arrived)
        · have further : 0 < total := Nat.pos_of_ne_zero (mt empty.mp arrived)
          rw [if_neg arrived, Operation.verdict, if_pos (by omega)]
          exact if_pos ⟨rfl, further⟩
      · refine ⟨none, .enough fun due => ?_, ?_⟩
        · exact absurd enough (Nat.ne_of_lt due)
        · have further : total ≠ 0 := by omega
          rw [if_neg (mt empty.mpr further)]
          simp only [Operation.summary, Operation.verdict, if_neg further]
          rw [if_neg (by omega)]

/-! ## Operations -/

/-- An operation leaves what its repeated single steps leave, and its result is what it says of
them. -/
def EndsAsRepeated (migrator : Migrator) (tree : FileTree) (operation : Operation) (db : Database) :
    Prop :=
  ∃ count error?, Repeats migrator tree (migrator.single db operation) (migrator.Due operation) 0
      ⟨db, none⟩ count error? (migrator.perform tree operation ⟨db, none⟩).connection ∧
    (migrator.perform tree operation ⟨db, none⟩).result = operation.summary count error?

theorem stepKind_ne {e : Error} (kind : StepKind e) : e ≠ .noChange := by
  rintro rfl
  rcases kind with source | database | migration
  · cases source
  · cases database
  · cases migration

theorem summary_of_ne {count : Nat} {e : Error} (other : e ≠ .noChange) :
    operation.summary count (some e) = .error e := by
  cases operation with
  | up | down | goto => rfl
  | steps number => exact if_neg fun both => other both.1

/-- From a state that the source has no place for every operation is refused alike. -/
theorem planned_of_not_stands (nowhere : ∀ current, ¬ migrator.Stands db current) :
    ∃ e, ∀ operation, migrator.planned operation db = .error e := by
  cases recorded : migrator.options.stateIn db with
  | error e => exact ⟨e, fun _ => planned_of_unreadable recorded⟩
  | ok state =>
      obtain ⟨current, dirty⟩ := state
      cases dirty with
      | true => exact ⟨_, fun _ => planned_of_dirty recorded⟩
      | false =>
          have unknown : ¬ ∀ version ∈ current, version ∈ migrator.source.versions :=
            fun known => nowhere current ⟨recorded, known⟩
          simp only [not_forall] at unknown
          obtain ⟨version, rfl, absent⟩ := unknown
          exact ⟨_, fun _ => planned_of_unknown recorded absent⟩

/-- Where the source has no place for the state, an operation that moves is due. -/
theorem due_of_not_stands (nowhere : ∀ current, ¬ migrator.Stands db current)
    (moves : operation.IsMove migrator.source) : migrator.Due operation 0 db := by
  cases operation with
  | up =>
      refine fun clean => nowhere _ ⟨clean, fun version last => ?_⟩
      exact List.mem_of_getLast? last
  | down => exact fun clean => nowhere _ ⟨clean, fun _ member => nomatch member⟩
  | goto target => exact fun clean => nowhere _ ⟨clean, fun _ same => Option.some.inj same ▸ moves⟩
  | steps number => exact Int.natAbs_pos.mpr moves

/-- From where the source has no place for the state, the first single step is refused as the
operation is. -/
theorem endsAsRepeated_of_not_stands (tree : FileTree)
    (nowhere : ∀ current, ¬ migrator.Stands db current)
    (moves : operation.IsMove migrator.source) :
    migrator.EndsAsRepeated tree operation db := by
  unfold EndsAsRepeated
  obtain ⟨e, refused⟩ := planned_of_not_stands nowhere
  have fails : ∀ operation, migrator.perform tree operation ⟨db, none⟩ =
      ⟨.error e, ⟨db, none⟩, []⟩ := by
    intro operation
    rw [perform_eq, show migrator.planned operation (Connection.content ⟨db, none⟩) = _ from
      refused operation]
  rw [fails]
  refine ⟨0, some e, .failed (due_of_not_stands nowhere moves) (fails _), ?_⟩
  cases operation with
  | up | down | goto => rfl
  | steps number => exact (if_neg fun both => Nat.lt_irrefl 0 both.2).symm

/-- From where the source has a place for the state, the operation goes the way of its single
steps. -/
theorem endsAsRepeated_of_stands {current : Option Version} (ordered : migrator.source.Ordered)
    (apart : migrator.BodiesApart tree) (table : migrator.options.HasTable db)
    (stands : migrator.Stands db current) (moves : operation.IsMove migrator.source) :
    migrator.EndsAsRepeated tree operation db := by
  unfold EndsAsRepeated
  obtain ⟨i, left, rfl⟩ := stands.exists_versionAt
  obtain ⟨j, heads⟩ := exists_destination moves i
  have right := Operation.destination?_le heads
  obtain ⟨up, down⟩ := single_toward ordered left stands.clean heads
  have retraced :
      Retraced migrator tree (migrator.single db operation) (migrator.Due operation) 0 db
        (migrator.source.stretch i j).length (migrator.source.versionAt j)
      ((migrator.source.stretch i j).forM (migrator.applyStep tree) ⟨db, none⟩) :=
    stretch_retraced ordered apart left right
      (fun _ within _ _ before counted recorded =>
        due_before ordered left heads within before counted recorded)
      table stands.clean (Nat.zero_add _) up down
  rw [perform_versionAt ordered left stands.clean heads]
  by_cases arrived : i = j
  · subst arrived
    rw [if_pos rfl]
    obtain ⟨error?, repeats, told⟩ := exists_summary tree db ordered left heads moves
      (by rw [Source.stretch_self]) stands.clean
    rw [if_pos rfl] at told
    exact ⟨_, error?, repeats, told.symm⟩
  · rw [if_neg arrived]
    generalize ran : (migrator.source.stretch i j).forM (migrator.applyStep tree) ⟨db, none⟩ =
      outcome at retraced
    cases retraced with
    | @failed e stop trail reached repeats =>
        have failure := migrator.run_raises tree (migrator.source.stretch i j) ⟨db, none⟩ e
          (by rw [ran])
        exact ⟨reached, some e, repeats, (summary_of_ne (stepKind_ne failure)).symm⟩
    | arrived stopTable clean onward =>
        obtain ⟨error?, repeats, told⟩ := exists_summary tree db ordered left heads moves rfl clean
        rw [if_neg arrived] at told
        exact ⟨_, error?, onward repeats, told.symm⟩

/-- **An operation is its single steps.** Let a source be opened, let no body name the version
table, and let an operation that moves start without an open transaction on a content with a version
table, whatever its rows. The repetition of its single steps, each planned on the state that the one
before it recorded, ends in one way, and the operation leaves the same connection. It succeeds if
some single steps are due and all of these do, and there is no change if none is due. If one fails
the operation fails with the same error, unless it is a move by some steps of which one succeeded
and nothing is left to do: then it tells how many are missing. -/
theorem perform_repeats (migrator : Migrator) {files : FileTree} {directory : Path}
    (opened : Source.openDirectory files directory = .ok migrator.source) {tree : FileTree}
    (apart : migrator.BodiesApart tree) {db : Database} (table : migrator.options.HasTable db)
    {operation : Operation} (moves : operation.IsMove migrator.source) :
    let single := migrator.single db operation
    let outcome := migrator.perform tree operation ⟨db, none⟩
    (∃ count error? stop,
      Repeats migrator tree single (migrator.Due operation) 0 ⟨db, none⟩ count error? stop) ∧
    ∀ count error? stop,
      Repeats migrator tree single (migrator.Due operation) 0 ⟨db, none⟩ count error? stop →
        outcome.connection = stop ∧ outcome.result = operation.summary count error? := by
  intro single outcome
  have ordered := Source.openDirectory_ordered opened
  obtain ⟨count, error?, repeats, told⟩ : migrator.EndsAsRepeated tree operation db := by
    by_cases stands : ∃ current, migrator.Stands db current
    · obtain ⟨current, stands⟩ := stands
      exact endsAsRepeated_of_stands ordered apart table stands moves
    · exact endsAsRepeated_of_not_stands tree (not_exists.mp stands) moves
  refine ⟨⟨count, error?, _, repeats⟩, fun count' error?' stop other => ?_⟩
  obtain ⟨rfl, rfl, rfl⟩ := repeats.unique other
  exact ⟨rfl, told⟩

/-- Of five single steps up the sample directory the third finds nothing left to do. -/
theorem perform_repeats_sample :
    let once := (sampleMigrator.perform sampleTree (.steps 1) ⟨sampleContent, none⟩).connection
    let twice := (sampleMigrator.perform sampleTree (.steps 1) once).connection
    Repeats sampleMigrator sampleTree (.steps 1) (sampleMigrator.Due (.steps 5)) 0
        ⟨sampleContent, none⟩ 2 (some .noChange) twice ∧
      (sampleMigrator.perform sampleTree (.steps 5) ⟨sampleContent, none⟩).connection = twice ∧
      (sampleMigrator.perform sampleTree (.steps 5) ⟨sampleContent, none⟩).result =
        .error (.shortLimit 3) := by
  intro once twice
  have succeeds : ∀ start,
      (sampleMigrator.perform sampleTree (.steps 1) start).result = .ok () →
      sampleMigrator.perform sampleTree (.steps 1) start =
        ⟨.ok (), (sampleMigrator.perform sampleTree (.steps 1) start).connection,
          (sampleMigrator.perform sampleTree (.steps 1) start).trail⟩ :=
    fun start done => by rw [← done]
  have first := succeeds ⟨sampleContent, none⟩ (by decide +kernel)
  have second := succeeds once (by decide +kernel)
  have idle : sampleMigrator.planned (.steps 1) twice.content = .error .noChange := by
    decide +kernel
  have third : sampleMigrator.perform sampleTree (.steps 1) twice =
      ⟨.error .noChange, twice, []⟩ := by
    rw [perform_eq, idle]
  have due : ∀ count < 5, ∀ db, sampleMigrator.Due (.steps 5) count db := fun _ below _ => below
  have repeats : Repeats sampleMigrator sampleTree (.steps 1) (sampleMigrator.Due (.steps 5)) 0
      ⟨sampleContent, none⟩ 2 (some .noChange) twice :=
    .again (due 0 (by decide) _) first
      (.again (due 1 (by decide) _) second (.failed (due 2 (by decide) _) third))
  have moves : (Operation.steps 5).IsMove sampleMigrator.source := by
    show (5 : Int) ≠ 0
    decide
  exact ⟨repeats, (perform_repeats sampleMigrator sample_opened sample_apart sample_blank.hasTable
    moves).2 _ _ _ repeats⟩

end Migrator

end SchemaMigration
