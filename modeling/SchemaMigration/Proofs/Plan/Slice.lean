import Mathlib.Data.Finset.Sort
import Mathlib.Data.List.Chain
import SchemaMigration.Proofs.Plan.Rounds

/-!
# Plans as slices of the set of versions

Which versions a plan has, and in which order, is said here of the set of versions of a source:
`Source.above` and `Source.upTo` are its two parts, which a plan up and a plan down go through, in
ascending and in descending order, as far as the limit lets them.

* `Source.Ordered.exists_above`, `Source.Ordered.sort_upTo`: the two parts in the list of versions;
* `Source.Ordered.stretch_isChain`: each step starts where the one before it ends;
* `Source.plans_slice`: the rounds of a planner end, and with which plan.
-/

namespace SchemaMigration

namespace Source

/-- The versions above the current one, which are all where there is none. -/
def above (source : Source) (current : Option Version) : Finset Version :=
  source.versions.toFinset.filter fun version => ∀ reached ∈ current, reached < version

/-- The versions up to the current one, which are none where there is none. -/
def upTo (source : Source) (current : Option Version) : Finset Version :=
  source.versions.toFinset.filter fun version => ∃ reached ∈ current, version ≤ reached

/-- The versions that lie in a direction from the current one, the nearest first. -/
def way (source : Source) : Direction → Option Version → List Version
  | .up, current => (source.above current).sort
  | .down, current => (source.upTo current).sort (· ≥ ·)

/-- The version from which a step starts: its own if that is reverted, else the one below it. -/
def origin? (source : Source) (step : Step) : Option Version :=
  match step.direction with
  | .up => source.prev? step.version
  | .down => some step.version

/-- What a step has to record: its own version if that is applied, else the greatest version below
it, and none below the least. -/
def Records (source : Source) (step : Step) : Prop :=
  match step.direction with
  | .up => step.target = some step.version
  | .down => ∀ target, step.target = some target ↔
      IsGreatest {other | source.contains other = true ∧ other < step.version} target

/-- A plan is a slice of the versions in a direction. -/
structure Slice (source : Source) (direction : Direction) (current : Option Version)
    (limit : Option Nat) (plan : List Step) : Prop where
  /-- The rounds from the current version end with the plan, and with no other. -/
  ends : ∀ other, Planning.Ends source direction limit (source.start? direction current) other ↔
    other = plan
  versions : plan.map (·.version) = cut limit (source.way direction current)
  direction : ∀ step ∈ plan, step.direction = direction
  target : ∀ step ∈ plan, source.Records step
  chained : plan.IsChain fun first second => first.target = source.origin? second
  distinct : (plan.map (·.version)).Nodup

variable {source : Source} {i j : Nat} {limit : Option Nat} {current : Option Version}

/-! ## Ascending lists -/

section Ascending

variable {items : List Version}

theorem sort_toFinset_of_ascending (ascending : items.Pairwise (· < ·)) :
    items.toFinset.sort = items := by
  rw [List.toFinset_sort _ (ascending.imp Nat.ne_of_lt)]
  exact ascending.imp Nat.le_of_lt

theorem sort_ge_toFinset_of_ascending (ascending : items.Pairwise (· < ·)) :
    items.toFinset.sort (· ≥ ·) = items.reverse := by
  have descending : items.reverse.Pairwise (· > ·) := List.pairwise_reverse.mpr ascending
  rw [← List.toFinset_reverse, List.toFinset_sort _ (descending.imp Nat.ne_of_gt)]
  exact descending.imp Nat.le_of_lt

/-- The items that a condition holds of from somewhere on are the end of the list. -/
theorem exists_filter_eq_drop {p : Version → Bool} (ascending : items.Pairwise (· < ·))
    (upward : ∀ {low high}, low < high → p low = true → p high = true) :
    ∃ i ≤ items.length, items.filter p = items.drop i ∧ items.find? p = items[i]? := by
  induction items with
  | nil => exact ⟨0, Nat.le_refl 0, rfl, rfl⟩
  | cons item rest ih =>
      obtain ⟨least, ascending⟩ := List.pairwise_cons.mp ascending
      cases holds : p item with
      | true =>
          have all : ∀ other ∈ item :: rest, p other = true := by
            refine List.forall_mem_cons.mpr ⟨holds, fun other member => ?_⟩
            exact upward (least other member) holds
          exact ⟨0, Nat.zero_le _, List.filter_eq_self.mpr all, List.find?_cons_of_pos holds⟩
      | false =>
          obtain ⟨i, within, behind, first⟩ := ih ascending
          refine ⟨i + 1, Nat.succ_le_succ within, ?_, ?_⟩
          · rw [List.filter_cons_of_neg (Bool.not_eq_true _ ▸ holds), behind, List.drop_succ_cons]
          · rw [List.find?_cons_of_neg (Bool.not_eq_true _ ▸ holds), first, List.getElem?_cons_succ]

end Ascending

/-! ## The two parts of the set of versions -/

namespace Ordered

/-- The versions above the current one are the end of the list of versions, and the first of them
comes next, whether or not the source has the current one. -/
theorem exists_above (ordered : source.Ordered) (current : Option Version) :
    ∃ i ≤ source.versions.length, (source.above current).sort = source.versions.drop i ∧
      source.after? current = source.versions[i]? := by
  obtain ⟨i, within, behind, first⟩ := exists_filter_eq_drop
    (p := fun version => ∀ reached ∈ current, reached < version) ordered.ascending
    fun less holds => decide_eq_true fun reached member =>
      Nat.lt_trans (of_decide_eq_true holds reached member) less
  refine ⟨i, within, ?_, ?_⟩
  · have same : source.above current = (source.versions.drop i).toFinset := by
      ext version
      rw [above, Finset.mem_filter, List.mem_toFinset, List.mem_toFinset, ← behind, List.mem_filter,
        decide_eq_true_iff]
    rw [same, sort_toFinset_of_ascending ordered.ascending.drop]
  · rw [← first]
    cases current with
    | none => exact (find?_eq_head? fun _ _ => by simp).symm
    | some version => simp [after?, next?]

/-- The versions up to the one at a position are those before the position. -/
theorem sort_upTo (ordered : source.Ordered) (within : i ≤ source.versions.length) :
    (source.upTo (source.versionAt i)).sort (· ≥ ·) = (source.versions.take i).reverse := by
  have before := ordered.filter_le_versionAt within
  have same : source.upTo (source.versionAt i) = (source.versions.take i).toFinset := by
    ext version
    rw [upTo, Finset.mem_filter, List.mem_toFinset, List.mem_toFinset, ← before, List.mem_filter,
      Option.any_eq_true]
    simp only [decide_eq_true_eq, Option.mem_def]
  rw [same, sort_ge_toFinset_of_ascending ordered.ascending.take]

/-! ## Chains -/

/-- The first step of a stretch starts at its position. -/
theorem origin?_of_head (ordered : source.Ordered) (left : i ≤ source.versions.length)
    (right : j ≤ source.versions.length) :
    ∀ step ∈ (source.stretch i j).head?, source.origin? step = source.versionAt i := by
  rcases Nat.lt_trichotomy i j with below | rfl | above
  · have at? : source.versions[i]? = some source.versions[i] := List.getElem?_eq_getElem (by omega)
    rw [stretch_up at? below]
    rintro _ ⟨⟩
    exact ordered.prev?_eq at?
  · rw [stretch_self]
    rintro _ ⟨⟩
  · obtain ⟨k, rfl⟩ : ∃ k, i = k + 1 := ⟨i - 1, by omega⟩
    have at? : source.versions[k]? = some source.versions[k] := List.getElem?_eq_getElem left
    rw [stretch_down at? (Nat.le_of_lt_succ above)]
    rintro _ ⟨⟩
    exact at?.symm

/-- Each step of a stretch starts where the one before it ends. -/
theorem stretch_isChain (ordered : source.Ordered) (left : i ≤ source.versions.length)
    (right : j ≤ source.versions.length) :
    (source.stretch i j).IsChain fun first second => first.target = source.origin? second := by
  refine stretch_induction (P := fun i => (source.stretch i j).IsChain
    fun first second => first.target = source.origin? second) left right ?_ ?_ ?_
  · rw [stretch_self]
    exact .nil
  · intro k version at? below further
    have bound := (List.getElem?_eq_some_iff.mp at?).1
    have next : (upStep version).target = source.versionAt (k + 1) := at?.symm
    rw [stretch_up at? below, List.isChain_cons, next]
    exact ⟨fun step first => (ordered.origin?_of_head bound right step first).symm, further⟩
  · intro k version at? above further
    have bound := (List.getElem?_eq_some_iff.mp at?).1
    have previous : (source.downStep version).target = source.versionAt k := ordered.prev?_eq at?
    rw [stretch_down at? above, List.isChain_cons, previous]
    exact ⟨fun step first => (ordered.origin?_of_head bound.le right step first).symm, further⟩

/-! ## Slices -/

theorem records_stepOf (ordered : source.Ordered) (direction : Direction) (version : Version) :
    source.Records (source.stepOf direction version) := by
  cases direction with
  | up => exact rfl
  | down => exact fun _ => ordered.prev?_eq_some_iff

/-- A plan is a slice if it is the beginning, as far as the limit lets it, of a chain of the steps
on the whole way. -/
theorem planFrom_slice (ordered : source.Ordered) {direction : Direction} {whole : List Step}
    (plan : source.planFrom direction current limit = cut limit whole)
    (steps : whole = (source.way direction current).map (source.stepOf direction))
    (chained : whole.IsChain fun first second => first.target = source.origin? second) :
    source.Slice direction current limit (source.planFrom direction current limit) := by
  have versions : (source.planFrom direction current limit).map (·.version) =
      cut limit (source.way direction current) := by
    rw [plan, map_cut, steps, List.map_map]
    cases direction <;> exact congrArg (cut limit) (List.map_id _)
  refine ⟨fun _ => Planning.ends_iff, versions, fun step member => ?_, fun step member => ?_,
    ?_, ?_⟩
  · rw [of_mem_planFrom direction member]
    cases direction <;> rfl
  · rw [of_mem_planFrom direction member]
    exact ordered.records_stepOf direction _
  · rw [plan]
    exact chained.prefix (cut_isPrefix _ _)
  · rw [versions]
    refine List.Nodup.sublist (cut_isPrefix _ _).sublist ?_
    cases direction <;> exact Finset.sort_nodup _ _

theorem planUp_slice (ordered : source.Ordered) (current : Option Version) (limit : Option Nat) :
    source.Slice .up current limit (source.planUp current limit) := by
  obtain ⟨i, within, behind, first⟩ := ordered.exists_above current
  -- The plan is that from the position before what is above, where the source has a version.
  have plan : source.planUp current limit =
      cut limit (source.stretch i source.versions.length) := by
    rw [← planUp_eq ordered within, planUp_eq_ascend, planUp_eq_ascend, first,
      ordered.after?_versionAt within]
  have steps : source.stretch i source.versions.length = (source.way .up current).map upStep := by
    rw [stretch_last within, way, behind]
  exact ordered.planFrom_slice plan steps (ordered.stretch_isChain within (Nat.le_refl _))

theorem planDown_slice (ordered : source.Ordered) (known : source.Knows current)
    (limit : Option Nat) : source.Slice .down current limit (source.planDown current limit) := by
  obtain ⟨i, within, rfl⟩ := known.exists_versionAt
  have steps : source.stretch i 0 =
      (source.way .down (source.versionAt i)).map source.downStep := by
    rw [stretch_zero, way, ordered.sort_upTo within]
  exact ordered.planFrom_slice (planDown_eq ordered within limit) steps
    (ordered.stretch_isChain within (Nat.zero_le _))

/-- All versions are up to the greatest, as all are above none. -/
theorem way_down_eq_reverse (ordered : source.Ordered) {greatest : Version}
    (isGreatest : IsGreatest {version | source.contains version = true} greatest) :
    source.way .down (some greatest) = (source.way .up none).reverse := by
  have up : source.above none = source.versions.toFinset :=
    Finset.filter_true_of_mem fun _ _ _ member => nomatch member
  have down : source.upTo (some greatest) = source.versions.toFinset := by
    refine Finset.filter_true_of_mem fun version member => ⟨greatest, rfl, isGreatest.2 ?_⟩
    exact List.contains_iff_mem.mpr (List.mem_toFinset.mp member)
  rw [way, way, up, down, sort_toFinset_of_ascending ordered.ascending,
    sort_ge_toFinset_of_ascending ordered.ascending]

end Ordered

/-- **What the planners plan.** In a source that was opened, whatever the limit: the rounds of a
planner always end. From every current version, the plan up is the versions above it in ascending
order, cut off at the limit, each recording itself. From none and from every version of the source,
the plan down is the versions up to it in descending order, cut off at the limit, each recording the
next smaller version. Each step starts where the one before it ends, and no version comes twice.
Without a limit, the plan down from the greatest version goes back over the plan up from none. -/
theorem plans_slice {tree : FileTree} {directory : Path}
    (opened : openDirectory tree directory = .ok source) (limit : Option Nat) :
    (∀ direction, WellFounded fun after before =>
        Planning.Round source direction limit before after) ∧
      (∀ current, source.Slice .up current limit (source.planUp current limit)) ∧
      (∀ current, source.Knows current →
        source.Slice .down current limit (source.planDown current limit)) ∧
      ∀ greatest, IsGreatest {version | source.contains version = true} greatest →
        (source.planDown (some greatest) none).map (·.version) =
          ((source.planUp none none).map (·.version)).reverse := by
  have ordered := openDirectory_ordered opened
  refine ⟨fun direction => Planning.round_wellFounded source direction limit,
    fun current => ordered.planUp_slice current limit,
    fun current known => ordered.planDown_slice known limit, fun greatest isGreatest => ?_⟩
  have known : source.Knows (some greatest) := by
    rintro _ ⟨⟩
    exact List.contains_iff_mem.mp isGreatest.1
  rw [(ordered.planUp_slice none none).versions, (ordered.planDown_slice known none).versions]
  exact ordered.way_down_eq_reverse isGreatest

/-- A directory with three versions, of which the last has only a way down. -/
def gappedTree : FileTree where
  nodes := [([Bytes.ofString "m"], .directory),
    ([Bytes.ofString "m", Bytes.ofString "5_c.down.sql"], .file (.plain [])),
    ([Bytes.ofString "m", Bytes.ofString "1_a.up.sql"], .file (.plain [])),
    ([Bytes.ofString "m", Bytes.ofString "2_b.up.sql"], .file (.plain []))]

/-- The source of that directory. -/
def gappedSource : Source where
  directory := Path.ofString "/m"
  migrations := [(1, { up := some ⟨1, "a", .up, Path.ofString "/m/1_a.up.sql"⟩ }),
    (2, { up := some ⟨2, "b", .up, Path.ofString "/m/2_b.up.sql"⟩ }),
    (5, { down := some ⟨5, "c", .down, Path.ofString "/m/5_c.down.sql"⟩ })]

/-- One step up from a version that the source does not have, and all the way back from the last. -/
theorem plans_slice_gapped :
    openDirectory gappedTree (Path.ofString "/m") = .ok gappedSource ∧
      gappedSource.Slice .up (some 3) (some 1) [⟨5, .up, some 5⟩] ∧
      gappedSource.Slice .down (some 5) none
        [⟨5, .down, some 2⟩, ⟨2, .down, some 1⟩, ⟨1, .down, none⟩] ∧
      (gappedSource.planDown (some 5) none).map (·.version) =
        ((gappedSource.planUp none none).map (·.version)).reverse := by
  have opened : openDirectory gappedTree (Path.ofString "/m") = .ok gappedSource := by
    decide +kernel
  have greatest : IsGreatest {version | gappedSource.contains version = true} 5 := by
    have all : ∀ version ∈ gappedSource.versions, version ≤ 5 := by decide
    exact ⟨by decide, fun version member => all version (List.contains_iff_mem.mp member)⟩
  obtain ⟨-, up, -, -⟩ := plans_slice opened (some 1)
  obtain ⟨-, -, down, back⟩ := plans_slice opened none
  exact ⟨opened, up (some 3), down (some 5) (by rintro _ ⟨⟩; decide), back 5 greatest⟩

end Source

end SchemaMigration
