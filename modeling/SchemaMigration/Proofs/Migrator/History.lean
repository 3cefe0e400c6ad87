import Mathlib.Logic.Relation
import SchemaMigration.Proofs.Migrator.Step

/-!
# Histories

A chronicle is what has been completed so far and the connection that it left. Operations of any
kind extend it, with whatever outcome, and so does starting anew on what is committed. The invariant
is that the completed steps make up the way from the first position to the recorded one.

* `Migrator.Applied`: the completed steps apply exactly the versions before a position;
* `Migrator.run_completed`: what a plan completes, and where it leaves the connection;
* `Migrator.history_applied`: no version is applied twice or reverted without having been applied,
  and nothing happens any more once the store is dirty.
-/

namespace SchemaMigration.Migrator

open Sql (Session Connection Database Outcome)
open StoreOptions (rowsOf)

/-! ## Turns of a version -/

/-- The directions in which a version was run, in the order in which that happened. -/
def turns (past : List Step) (version : Version) : List Direction :=
  (past.filter (·.version = version)).map (·.direction)

/-- Up, down, up, and so on. -/
def alternation (count : Nat) : List Direction :=
  (List.range count).map fun k => if k % 2 = 0 then .up else .down

theorem alternation_succ (count : Nat) :
    alternation (count + 1) = alternation count ++ [if count % 2 = 0 then .up else .down] := by
  unfold alternation
  rw [List.range_succ, List.map_append]
  rfl

/-- The last of so many turns is up exactly if their number is odd. -/
theorem getLast?_alternation (count : Nat) :
    (alternation count).getLast? = some .up ↔ count % 2 = 1 := by
  cases count with
  | zero => simp [alternation]
  | succ count =>
      rw [alternation_succ, List.getLast?_concat]
      split
      · simp
        omega
      · simp
        omega

theorem turns_append (past later : List Step) (version : Version) :
    turns (past ++ later) version = turns past version ++ turns later version := by
  unfold turns
  rw [List.filter_append, List.map_append]

theorem turns_of_other {step : Step} {version : Version} (other : step.version ≠ version) :
    turns [step] version = [] := by
  unfold turns
  rw [List.filter_cons_of_neg (by simpa using other)]
  rfl

theorem turns_of_same (step : Step) : turns [step] step.version = [step.direction] := by
  unfold turns
  rw [List.filter_cons_of_pos (by simp)]
  rfl

/-! ## Applied versions -/

/-- Every version was run up and down in turn, and those before the position have been run up
last. -/
def Applied (source : Source) (past : List Step) (i : Nat) : Prop :=
  ∀ version, turns past version = alternation (turns past version).length ∧
    ((turns past version).length % 2 = 1 ↔ version ∈ source.versions.take i)

variable {source : Source} {past : List Step} {i j : Nat} {version : Version}

theorem applied_nil (source : Source) : Applied source [] 0 := by
  intro version
  exact ⟨rfl, by simp [turns]⟩

/-- One more turn of one version, in the direction that is due. -/
theorem Applied.turn {step : Step} (applied : Applied source past i)
    (due : step.direction =
      if (turns past step.version).length % 2 = 0 then .up else .down)
    (others : ∀ version, version ≠ step.version →
      (version ∈ source.versions.take i ↔ version ∈ source.versions.take j))
    (own : step.version ∈ source.versions.take j ↔
      (turns past step.version).length % 2 = 0) :
    Applied source (past ++ [step]) j := by
  intro version
  rw [turns_append]
  obtain ⟨alternate, odd⟩ := applied version
  rcases eq_or_ne version step.version with rfl | other
  · rw [turns_of_same, List.length_append, List.length_singleton, alternation_succ, ← alternate,
      due, own]
    refine ⟨rfl, ?_⟩
    omega
  · rw [turns_of_other (Ne.symm other), List.append_nil]
    exact ⟨alternate, odd.trans (others version other)⟩

theorem Applied.up (applied : Applied source past i) (ordered : source.Ordered)
    (at? : source.versions[i]? = some version) :
    Applied source (past ++ [Source.upStep version]) (i + 1) := by
  have fresh : version ∉ source.versions.take i := fun member =>
    Nat.lt_irrefl _ (ordered.lt_of_mem i member (Source.Ordered.mem_drop at?))
  have even : (turns past version).length % 2 = 0 := by
    have odd := (applied version).2
    have parity := Nat.mod_two_eq_zero_or_one (turns past version).length
    rcases parity with even | isOdd
    · exact even
    · exact absurd (odd.mp isOdd) fresh
  refine applied.turn ?_ (fun other different => ?_) ?_
  · exact (if_pos even).symm
  · rw [List.take_add_one, at?, List.mem_append]
    have apart : other ∉ (some version).toList := fun member =>
      different (List.mem_singleton.mp member)
    exact ⟨.inl, fun member => member.resolve_right apart⟩
  · exact ⟨fun _ => even, fun _ => Source.Ordered.mem_take at?⟩

theorem Applied.down (applied : Applied source past (i + 1)) (ordered : source.Ordered)
    (at? : source.versions[i]? = some version) :
    Applied source (past ++ [source.downStep version]) i := by
  have odd := (applied version).2.mpr (Source.Ordered.mem_take at?)
  refine applied.turn ?_ (fun other different => ?_) ?_
  · exact (if_neg (by show ¬ (turns past version).length % 2 = 0; omega)).symm
  · rw [List.take_add_one, at?, List.mem_append]
    have apart : other ∉ (some version).toList := fun member =>
      different (List.mem_singleton.mp member)
    exact ⟨fun member => member.resolve_right apart, .inl⟩
  · constructor
    · intro member
      exact absurd (ordered.lt_of_mem i member (Source.Ordered.mem_drop at?)) (Nat.lt_irrefl _)
    · intro even
      have parity : (turns past version).length % 2 = 0 := even
      omega

/-- A stretch takes the applied versions from one position to another. -/
theorem Applied.stretch (applied : Applied source past i) (ordered : source.Ordered)
    (left : i ≤ source.versions.length) (right : j ≤ source.versions.length) :
    Applied source (past ++ source.stretch i j) j := by
  revert past
  refine Source.stretch_induction (P := fun i => ∀ {past : List Step}, Applied source past i →
    Applied source (past ++ source.stretch i j) j) left right ?_ ?_ ?_
  · intro past applied
    rw [Source.stretch_self, List.append_nil]
    exact applied
  · intro k version at? below further past applied
    rw [Source.stretch_up at? below, List.append_cons]
    exact further (applied.up ordered at?)
  · intro k version at? above further past applied
    rw [Source.stretch_down at? above, List.append_cons]
    exact further (applied.down ordered at?)

/-! ## What a plan completes -/

/-- The steps of a plan that are completed, their clean targets recorded, when it is run. -/
def completed (migrator : Migrator) (tree : FileTree) : List Step → Connection → List Step
  | [], _ => []
  | step :: rest, start =>
    let outcome := migrator.applyStep tree step start
    match outcome.result with
    | .ok _ => step :: migrator.completed tree rest outcome.connection
    | .error _ => []

variable {migrator : Migrator} {tree : FileTree} {db : Database}

/-- A plan completes some of its first steps, and leaves their last target clean or the store marked
dirty in every content. -/
theorem run_completed (plan : List Step) {current : Option Version}
    (apart : migrator.BodiesApart tree) (table : migrator.options.HasTable db)
    (clean : migrator.options.stateIn db = .ok ⟨current, false⟩) :
    ∃ count, migrator.completed tree plan ⟨db, none⟩ = plan.take count ∧
      ((∃ left, (plan.forM (migrator.applyStep tree) ⟨db, none⟩).connection = ⟨left, none⟩ ∧
        migrator.options.HasTable left ∧
        migrator.options.stateIn left = .ok ⟨Source.reached current (plan.take count), false⟩) ∨
      ∃ target, (plan.forM (migrator.applyStep tree) ⟨db, none⟩).connection.Has
        (migrator.options.HasRows · (rowsOf target true))) := by
  induction plan generalizing db current with
  | nil => exact ⟨0, rfl, .inl ⟨db, rfl, table, clean⟩⟩
  | cons step rest ih =>
      have stepRun := applyStep_run step apart table
      generalize ran : migrator.applyStep tree step ⟨db, none⟩ = outcome at stepRun
      rw [Session.forM_cons_apply]
      unfold completed
      rw [ran]
      cases stepRun with
      | stopped unchanged =>
          rw [Session.bind_of_error ran]
          exact ⟨0, rfl, .inl ⟨db, rfl, table, clean⟩⟩
      | broken unchanged dirty left =>
          rw [Session.bind_of_error ran]
          exact ⟨0, rfl, .inr ⟨_, left⟩⟩
      | finished unchanged dirty cleanAfter =>
          rw [Session.bind_of_ok ran]
          obtain ⟨count, same, ended⟩ :=
            ih (hasTable_of_rows cleanAfter) (StoreOptions.stateIn_rowsOf cleanAfter)
          refine ⟨count + 1, ?_, ?_⟩
          · rw [List.take_succ_cons, ← same]
          · rw [List.take_succ_cons, Source.reached_cons]
            exact ended

/-! ## Chronicles -/

/-- The steps completed so far, and the connection that they left. -/
structure Chronicle where
  past : List Step
  connection : Connection

/-- One event in the life of a store: an operation with any arguments and any outcome, on whatever
the files hold by then, or a new connection to what is committed. -/
inductive Chronicle.Next (migrator : Migrator) : Chronicle → Chronicle → Prop
  | performed (life : Chronicle) (tree : FileTree) (apart : migrator.BodiesApart tree)
      (operation : Operation) :
      Next migrator life
        ⟨life.past ++ migrator.completed tree
            (migrator.plannedSteps operation life.connection.content) life.connection,
          (migrator.perform tree operation life.connection).connection⟩
  | reopened (life : Chronicle) :
      Next migrator life ⟨life.past, { committed := life.connection.committed }⟩

/-- The events that follow one another from a chronicle. -/
abbrev Chronicle.Follows (migrator : Migrator) : Chronicle → Chronicle → Prop :=
  Relation.ReflTransGen (Chronicle.Next migrator)

/-- What every chronicle satisfies: the store is clean at a position up to which the completed steps
lead, or it is marked dirty in every content. -/
inductive Chronicle.Sound (migrator : Migrator) : Chronicle → Prop
  | clean {past : List Step} {db : Database} {i : Nat}
      (within : i ≤ migrator.source.versions.length)
      (table : migrator.options.HasTable db)
      (recorded : migrator.options.stateIn db = .ok ⟨migrator.source.versionAt i, false⟩)
      (applied : Applied migrator.source past i) :
      Sound migrator ⟨past, ⟨db, none⟩⟩
  | dirty {past : List Step} {connection : Connection} {target : Option Version} {i : Nat}
      (marked : connection.Has (migrator.options.HasRows · (rowsOf target true)))
      (applied : Applied migrator.source past i) :
      Sound migrator ⟨past, connection⟩

/-- A dirty store is left alone. -/
theorem perform_dirty {connection : Connection} {target : Option Version}
    (dirty : migrator.options.stateIn connection.content = .ok ⟨target, true⟩)
    (operation : Operation) :
    migrator.plannedSteps operation connection.content = [] ∧
      migrator.perform tree operation connection = ⟨.error (.dirty target), connection, []⟩ := by
  have refused : migrator.planned operation connection.content = .error (.dirty target) := by
    unfold planned cleanIn
    rw [dirty]
  constructor
  · unfold plannedSteps
    rw [refused]
    rfl
  · rw [perform_eq, refused]

/-- A mark of the store stays as it is, and nothing is completed any more. -/
theorem Chronicle.Next.of_marked {life next : Chronicle} {target : Option Version}
    (step : Chronicle.Next migrator life next)
    (marked : life.connection.Has (migrator.options.HasRows · (rowsOf target true))) :
    next.past = life.past ∧
      next.connection.Has (migrator.options.HasRows · (rowsOf target true)) := by
  cases step with
  | performed tree apart operation =>
      obtain ⟨none, same⟩ := @perform_dirty migrator tree life.connection target
        (StoreOptions.stateIn_rowsOf marked.content) operation
      rw [none, same]
      exact ⟨List.append_nil _, marked⟩
  | reopened => exact ⟨rfl, marked.closed⟩

/-- Every event keeps the invariant. -/
theorem Chronicle.Next.sound {life next : Chronicle} (step : Chronicle.Next migrator life next)
    (ordered : migrator.source.Ordered) (sound : Chronicle.Sound migrator life) :
    Chronicle.Sound migrator next := by
  cases sound with
  | @dirty past connection target i marked applied =>
      obtain ⟨same, still⟩ := step.of_marked marked
      obtain ⟨nextPast, nextConnection⟩ := next
      cases same
      exact .dirty still applied
  | @clean past db i within table recorded applied =>
      cases step with
      | reopened => exact .clean within table recorded applied
      | performed tree apart operation =>
          obtain ⟨j, bound, steps⟩ := exists_plannedSteps_eq ordered within recorded operation
          obtain ⟨count, done, ended⟩ := run_completed (migrator.source.stretch i j) apart table
            recorded
          have connection := (@perform_run migrator tree ⟨db, none⟩ operation).2
          have sameSteps : migrator.plannedSteps operation (Connection.content ⟨db, none⟩) =
              migrator.source.stretch i j := steps
          rw [sameSteps] at connection ⊢
          rw [connection, done]
          obtain ⟨k, kBound, taken⟩ : ∃ k ≤ migrator.source.versions.length,
              (migrator.source.stretch i j).take count = migrator.source.stretch i k :=
            ⟨_, by split <;> omega, Source.take_stretch within count⟩
          rw [taken] at ended ⊢
          have further := applied.stretch ordered within kBound
          rcases ended with ⟨left, atLeft, leftTable, clean⟩ | ⟨target, marked⟩
          · rw [atLeft]
            rw [Source.reached_stretch ordered within kBound] at clean
            exact .clean kBound leftTable clean further
          · exact .dirty marked further

theorem Chronicle.Follows.sound {life later : Chronicle}
    (follows : Chronicle.Follows migrator life later) (ordered : migrator.source.Ordered)
    (sound : Chronicle.Sound migrator life) : Chronicle.Sound migrator later := by
  induction follows with
  | refl => exact sound
  | tail _ step ih => exact step.sound ordered ih

/-- Once a store is marked dirty, whatever follows completes nothing, and every operation is refused
without a statement. -/
theorem Chronicle.Follows.of_marked {life later : Chronicle} {target : Option Version}
    (follows : Chronicle.Follows migrator life later)
    (marked : life.connection.Has (migrator.options.HasRows · (rowsOf target true))) :
    later.past = life.past ∧
      later.connection.Has (migrator.options.HasRows · (rowsOf target true)) := by
  induction follows with
  | refl => exact ⟨rfl, marked⟩
  | tail _ step ih =>
      obtain ⟨same, still⟩ := step.of_marked ih.2
      exact ⟨same.trans ih.1, still⟩

/-- **No version is applied twice or reverted without having been applied.** Take the life of a
store from a clean state without version on, over a fixed opened source. Each version was completed
up, down, up and so on, beginning with up; whenever the store is clean at a version, those whose
last completed step was up are the versions of the source up to it; and from a dirty state on
nothing is completed and no statement issued any more. -/
theorem history_applied (migrator : Migrator) {files : FileTree} {directory : Path}
    (opened : Source.openDirectory files directory = .ok migrator.source) {db : Database}
    (table : migrator.options.HasTable db) (nil : migrator.options.stateIn db = .ok ⟨none, false⟩)
    {life : Chronicle} (follows : Chronicle.Follows migrator ⟨[], ⟨db, none⟩⟩ life) :
    (∀ version, turns life.past version = alternation (turns life.past version).length) ∧
    (∀ current, migrator.options.stateIn life.connection.content = .ok ⟨current, false⟩ →
      ∀ version, (turns life.past version).getLast? = some .up ↔
        version ∈ migrator.source.versions ∧ current.any (version ≤ ·)) ∧
    (∀ target, migrator.options.stateIn life.connection.content = .ok ⟨target, true⟩ →
      ∀ later, Chronicle.Follows migrator life later →
        later.past = life.past ∧ ∀ tree operation,
          migrator.perform tree operation later.connection =
            ⟨.error (.dirty target), later.connection, []⟩) := by
  have ordered := Source.openDirectory_ordered opened
  have sound := follows.sound ordered
    (.clean (Nat.zero_le _) table nil (applied_nil migrator.source))
  cases sound with
  | @clean past db i within table recorded applied =>
      refine ⟨fun version => (applied version).1, fun current clean version => ?_, ?_⟩
      · have here : current = migrator.source.versionAt i := by
          have both := clean.symm.trans recorded
          injection both with same
          injection same
        obtain ⟨alternate, odd⟩ := applied version
        rw [alternate, getLast?_alternation, odd, here, ← ordered.filter_le_versionAt within,
          List.mem_filter]
      · intro target dirty
        cases dirty.symm.trans recorded
  | @dirty past connection target i marked applied =>
      have recorded := StoreOptions.stateIn_rowsOf marked.content
      refine ⟨fun version => (applied version).1, ?_, ?_⟩
      · intro current clean
        cases clean.symm.trans recorded
      · intro other dirty later continues
        cases dirty.symm.trans recorded
        obtain ⟨same, still⟩ := continues.of_marked marked
        refine ⟨same, fun tree operation => ?_⟩
        exact (perform_dirty (StoreOptions.stateIn_rowsOf still.content) operation).2

/-- The life of a store on the sample directory after going all the way up. -/
def sampleLife : Chronicle where
  past := [] ++ sampleMigrator.completed sampleTree
    (sampleMigrator.plannedSteps .up sampleContent) ⟨sampleContent, none⟩
  connection := (sampleMigrator.perform sampleTree .up ⟨sampleContent, none⟩).connection

theorem sampleLife_follows :
    Chronicle.Follows sampleMigrator ⟨[], ⟨sampleContent, none⟩⟩ sampleLife :=
  .single (.performed ⟨[], ⟨sampleContent, none⟩⟩ sampleTree sample_apart .up)

theorem history_applied_sample :
    sampleLife.past.map (·.version) = [1, 2] ∧
    (∀ version, turns sampleLife.past version =
      alternation (turns sampleLife.past version).length) ∧
    (∀ current, sampleMigrator.options.stateIn sampleLife.connection.content =
        .ok ⟨current, false⟩ →
      ∀ version, (turns sampleLife.past version).getLast? = some .up ↔
        version ∈ sampleMigrator.source.versions ∧ current.any (version ≤ ·)) ∧
    (∀ target, sampleMigrator.options.stateIn sampleLife.connection.content =
        .ok ⟨target, true⟩ →
      ∀ later, Chronicle.Follows sampleMigrator sampleLife later →
        later.past = sampleLife.past ∧ ∀ tree operation,
          sampleMigrator.perform tree operation later.connection =
            ⟨.error (.dirty target), later.connection, []⟩) :=
  ⟨by decide +kernel, history_applied sampleMigrator sample_opened
    sample_blank.hasTable (by decide +kernel) sampleLife_follows⟩

end SchemaMigration.Migrator
