import SchemaMigration.Migrator
import SchemaMigration.Proofs.Source.Order

/-!
# Plans as stretches of the version list

`Source.stretch i j` is the way from position `i` to position `j`: up through the versions between
them, or down. Every operation plans such a stretch.

* `Source.stretch_up`, `Source.stretch_down`: a stretch is one step to the neighbouring position and
  the stretch from there;
* `Source.planUp_eq`, `Source.planDown_eq`, `Source.planTo_eq`: what the planners make from a
  position of an ordered source is a stretch, cut off at the limit, which is a shorter one.
-/

namespace SchemaMigration

namespace Source

/-- The step that applies a version. -/
def upStep (version : Version) : Step :=
  ⟨version, .up, some version⟩

/-- The step that reverts a version. -/
def downStep (source : Source) (version : Version) : Step :=
  ⟨version, .down, source.prev? version⟩

/-- The steps from a position to another. -/
def stretch (source : Source) (i j : Nat) : List Step :=
  if i ≤ j then ((source.versions.take j).drop i).map upStep
  else ((source.versions.take i).drop j).reverse.map source.downStep

/-- The first items, as many as a limit allows. -/
def cut {α : Type} (limit : Option Nat) (items : List α) : List α :=
  limit.elim items items.take

theorem cut_isPrefix {α : Type} (limit : Option Nat) (items : List α) :
    cut limit items <+: items := by
  cases limit with
  | none => exact List.prefix_rfl
  | some most => exact List.take_prefix most items

theorem map_cut {α β : Type} (f : α → β) (limit : Option Nat) (items : List α) :
    (cut limit items).map f = cut limit (items.map f) := by
  cases limit with
  | none => rfl
  | some most => exact List.map_take

variable {source : Source} {i j : Nat} {version : Version}

/-! ## Steps of a stretch -/

theorem stretch_self (source : Source) (i : Nat) : source.stretch i i = [] := by
  unfold stretch
  rw [if_pos (Nat.le_refl i)]
  simp

theorem stretch_up (at? : source.versions[i]? = some version) (below : i < j) :
    source.stretch i j = upStep version :: source.stretch (i + 1) j := by
  unfold stretch
  rw [if_pos (Nat.le_of_lt below), if_pos (Nat.succ_le_of_lt below),
    List.drop_eq_getElem?_toList_append, List.getElem?_take_of_lt below, at?]
  rfl

theorem stretch_down (at? : source.versions[i]? = some version) (above : j ≤ i) :
    source.stretch (i + 1) j = source.downStep version :: source.stretch i j := by
  unfold stretch
  rw [if_neg (by omega)]
  have last : ((source.versions.take (i + 1)).drop j).reverse =
      version :: ((source.versions.take i).drop j).reverse := by
    have bound := (List.getElem?_eq_some_iff.mp at?).1
    rw [List.take_add_one, at?, List.drop_append_of_le_length (by rw [List.length_take]; omega)]
    simp
  rw [last, List.map_cons]
  split
  · have same : i = j := by omega
    subst same
    simp
  · rfl

theorem length_stretch (left : i ≤ source.versions.length) (right : j ≤ source.versions.length) :
    (source.stretch i j).length = if i ≤ j then j - i else i - j := by
  unfold stretch
  split
  · rw [List.length_map, List.length_drop, List.length_take]
    omega
  · rw [List.length_map, List.length_reverse, List.length_drop, List.length_take]
    omega

theorem isEmpty_stretch (left : i ≤ source.versions.length) (right : j ≤ source.versions.length) :
    (source.stretch i j).isEmpty = decide (i = j) := by
  rw [Bool.eq_iff_iff, List.isEmpty_iff_length_eq_zero, length_stretch left right,
    decide_eq_true_iff]
  split
  · omega
  · omega

/-- What holds at the end of a stretch, and at a position if it holds one step further along, holds
at the start. -/
theorem stretch_induction {P : Nat → Prop} (left : i ≤ source.versions.length)
    (right : j ≤ source.versions.length) (here : P j)
    (up : ∀ k version, source.versions[k]? = some version → k < j → P (k + 1) → P k)
    (down : ∀ k version, source.versions[k]? = some version → j ≤ k → P k → P (k + 1)) : P i := by
  rcases Nat.le_total i j with below | above
  · induction below using Nat.decreasingInduction with
    | self => exact here
    | of_succ k below ih =>
        have bound : k < source.versions.length := by omega
        exact up k _ (List.getElem?_eq_getElem bound) below (ih bound)
  · induction i, above using Nat.le_induction with
    | base => exact here
    | succ k above ih =>
        exact down k _ (List.getElem?_eq_getElem left) above (ih (Nat.le_of_succ_le left))

/-- The first steps of a stretch are a stretch. -/
theorem take_stretch (left : i ≤ source.versions.length) (count : Nat) :
    (source.stretch i j).take count =
      source.stretch i (if i ≤ j then min (i + count) j else max (i - count) j) := by
  unfold stretch
  split
  · rw [if_pos (by omega), ← List.map_take, List.take_drop, List.take_take]
  · rename_i above
    have rest : j + (min i source.versions.length - j - count) = max (i - count) j := by omega
    rw [← List.map_take, List.take_reverse, List.length_drop, List.length_take, List.drop_drop,
      rest]
    split
    · have none : count = 0 := by omega
      subst none
      rw [show max (i - 0) j = i by omega]
      simp
    · rfl

/-- The version that is recorded after some steps from a version. -/
def reached (version : Option Version) (steps : List Step) : Option Version :=
  (steps.getLast?.map (·.target)).getD version

theorem reached_cons (version : Option Version) (step : Step) (steps : List Step) :
    reached version (step :: steps) = reached step.target steps := by
  cases steps <;> rfl

/-- A stretch records the version at its end. -/
theorem reached_stretch (ordered : source.Ordered) (left : i ≤ source.versions.length)
    (right : j ≤ source.versions.length) :
    reached (source.versionAt i) (source.stretch i j) = source.versionAt j := by
  refine stretch_induction (P := fun i =>
    reached (source.versionAt i) (source.stretch i j) = source.versionAt j) left right ?_ ?_ ?_
  · rw [stretch_self]
    rfl
  · intro k version at? below further
    have next : (upStep version).target = source.versionAt (k + 1) := at?.symm
    rw [stretch_up at? below, reached_cons, next]
    exact further
  · intro k version at? above further
    have previous : (source.downStep version).target = source.versionAt k := ordered.prev?_eq at?
    rw [stretch_down at? above, reached_cons, previous]
    exact further

/-! ## Targets -/

/-- No version, or one of the source. -/
def Knows (source : Source) (version : Option Version) : Prop :=
  ∀ number ∈ version, number ∈ source.versions

theorem knows_none (source : Source) : source.Knows none :=
  fun _ member => nomatch member

theorem knows_versionAt : source.Knows (source.versionAt i) := by
  intro number at?
  exact List.contains_iff_mem.mp (Ordered.contains_versionAt at?)

/-- What the source knows stands at a position. -/
theorem Knows.exists_versionAt {current : Option Version} (known : source.Knows current) :
    ∃ i ≤ source.versions.length, current = source.versionAt i := by
  cases current with
  | none => exact ⟨0, Nat.zero_le _, rfl⟩
  | some version =>
      obtain ⟨index, bound, same⟩ := List.getElem_of_mem (known version rfl)
      refine ⟨index + 1, bound, ?_⟩
      rw [versionAt, List.getElem?_eq_getElem bound, same]

/-- What the source knows fits into a cell. -/
theorem Ordered.fits (ordered : source.Ordered) {version : Option Version}
    (known : source.Knows version) :
    ∀ number, version = some number → number ≤ Numeral.signedMax :=
  fun number same => ordered.bounded number (known number same)

/-- What a step that applies or reverts a version of the source records is known. -/
theorem upStep_known (at? : source.versions[i]? = some version) :
    source.Knows (upStep version).target := by
  intro number target
  cases target
  exact List.mem_of_getElem? at?

theorem Ordered.downStep_known (ordered : source.Ordered)
    (at? : source.versions[i]? = some version) : source.Knows (source.downStep version).target := by
  have previous : (source.downStep version).target = source.versionAt i := ordered.prev?_eq at?
  rw [previous]
  exact knows_versionAt

theorem Ordered.stretch_known (ordered : source.Ordered) (left : i ≤ source.versions.length)
    (right : j ≤ source.versions.length) :
    ∀ step ∈ source.stretch i j, source.Knows step.target := by
  refine stretch_induction (P := fun i => ∀ step ∈ source.stretch i j, source.Knows step.target)
    left right ?_ ?_ ?_
  · rw [stretch_self]
    exact fun _ member => nomatch member
  · intro k version at? below further step member
    rw [stretch_up at? below] at member
    rcases List.mem_cons.mp member with rfl | later
    · exact upStep_known at?
    · exact further step later
  · intro k version at? above further step member
    rw [stretch_down at? above] at member
    rcases List.mem_cons.mp member with rfl | later
    · exact ordered.downStep_known at?
    · exact further step later

theorem Ordered.stretch_fits (ordered : source.Ordered) (left : i ≤ source.versions.length)
    (right : j ≤ source.versions.length) :
    ∀ step ∈ source.stretch i j, ∀ number, step.target = some number → number ≤ Numeral.signedMax :=
  fun step member => ordered.fits (ordered.stretch_known left right step member)

/-! ## What the planners make -/

theorem ascend_eq (ordered : source.Ordered) (bound : Nat) :
    source.ascend bound source.versions[i]? = ((source.versions.drop i).take bound).map upStep := by
  induction bound generalizing i with
  | zero => simp [ascend]
  | succ bound ih =>
      rw [List.drop_eq_getElem?_toList_append]
      cases at? : source.versions[i]? with
      | none =>
          have ended : source.versions.drop (i + 1) = [] := by
            rw [List.drop_eq_nil_iff]
            have := List.getElem?_eq_none_iff.mp at?
            omega
          simp [ascend, ended]
      | some version =>
          simp only [ascend, ordered.next?_eq at?, ih]
          rfl

theorem descend_eq (ordered : source.Ordered) (bound : Nat) (within : i ≤ source.versions.length) :
    source.descend bound (source.versionAt i) =
      ((source.versions.take i).reverse.take bound).map source.downStep := by
  induction bound generalizing i with
  | zero => simp [descend]
  | succ bound ih =>
      cases i with
      | zero => simp [versionAt, descend]
      | succ j =>
          obtain ⟨version, at?⟩ : ∃ version, source.versions[j]? = some version :=
            ⟨_, List.getElem?_eq_getElem within⟩
          have here : source.versionAt (j + 1) = some version := at?
          have reversed : (source.versions.take (j + 1)).reverse =
              version :: (source.versions.take j).reverse := by
            rw [List.take_add_one, at?]
            simp
          rw [here, reversed, List.take_succ_cons, List.map_cons]
          simp only [descend, ordered.prev?_eq at?, ih (Nat.le_of_succ_le within), downStep]

theorem stretch_last (within : i ≤ source.versions.length) :
    source.stretch i source.versions.length = (source.versions.drop i).map upStep := by
  rw [stretch, if_pos within, List.take_length]

theorem stretch_zero (source : Source) (i : Nat) :
    source.stretch i 0 = (source.versions.take i).reverse.map source.downStep := by
  unfold stretch
  split
  · have none : i = 0 := by omega
    subst none
    simp
  · rfl

/-- The bound on the steps of a plan keeps as many as the limit does. -/
theorem take_stepBound {α : Type} {items : List α} (few : items.length ≤ source.versions.length)
    (limit : Option Nat) : items.take (source.stepBound limit) = cut limit items := by
  cases limit with
  | none => exact List.take_of_length_le (Nat.le_succ_of_le few)
  | some most =>
      show items.take (min most (source.versions.length + 1)) = items.take most
      rw [List.take_eq_take_iff]
      omega

/-- Planning up goes by the version that comes next. -/
theorem planUp_eq_ascend (source : Source) (current : Option Version) (limit : Option Nat) :
    source.planUp current limit =
      source.ascend (source.stepBound limit) (source.after? current) := by
  cases current <;> rfl

theorem planUp_eq (ordered : source.Ordered) (within : i ≤ source.versions.length)
    (limit : Option Nat) :
    source.planUp (source.versionAt i) limit =
      cut limit (source.stretch i source.versions.length) := by
  have few : ((source.versions.drop i).map upStep).length ≤ source.versions.length := by
    rw [List.length_map, List.length_drop]
    exact Nat.sub_le _ _
  rw [planUp_eq_ascend, ordered.after?_versionAt within, ascend_eq ordered, List.map_take,
    take_stepBound few, stretch_last within]

theorem planDown_eq (ordered : source.Ordered) (within : i ≤ source.versions.length)
    (limit : Option Nat) :
    source.planDown (source.versionAt i) limit = cut limit (source.stretch i 0) := by
  have few : ((source.versions.take i).reverse.map source.downStep).length ≤
      source.versions.length := by
    rw [List.length_map, List.length_reverse, List.length_take]
    exact Nat.min_le_right _ _
  rw [planDown, descend_eq ordered _ within, List.map_take, take_stepBound few, stretch_zero]

theorem planUp_limit (ordered : source.Ordered) (within : i ≤ source.versions.length)
    (limit : Nat) :
    source.planUp (source.versionAt i) (some limit) =
      source.stretch i (min (i + limit) source.versions.length) := by
  rw [planUp_eq ordered within]
  exact (take_stretch within limit).trans (by rw [if_pos within])

theorem planDown_limit (ordered : source.Ordered) (within : i ≤ source.versions.length)
    (limit : Nat) :
    source.planDown (source.versionAt i) (some limit) = source.stretch i (i - limit) := by
  have ends : (if i ≤ 0 then min (i + limit) 0 else max (i - limit) 0) = i - limit := by
    split <;> omega
  rw [planDown_eq ordered within]
  exact (take_stretch within limit).trans (by rw [ends])

theorem takeWhile_eq_nil {α : Type} {p : α → Bool} {items : List α}
    (none : ∀ item ∈ items, p item = false) : items.takeWhile p = [] := by
  cases items with
  | nil => rfl
  | cons item rest =>
      apply List.takeWhile_cons_of_neg
      rw [none item List.mem_cons_self]
      exact Bool.false_ne_true

/-- Going up, what lies up to a version is what lies before the position behind it. -/
theorem takeWhile_le_eq (ordered : source.Ordered) (at? : source.versions[j]? = some version) :
    (source.versions.drop i).takeWhile (· ≤ version) = (source.versions.take (j + 1)).drop i := by
  have bound := (List.getElem?_eq_some_iff.mp at?).1
  have split : source.versions.drop i = (source.versions.take (j + 1)).drop i ++
      (source.versions.drop (j + 1)).drop (i - (j + 1)) := by
    conv_lhs => rw [← List.take_append_drop (j + 1) source.versions]
    rw [List.drop_append, List.length_take, Nat.min_eq_left bound]
  have low : ∀ other ∈ (source.versions.take (j + 1)).drop i, decide (other ≤ version) = true :=
    fun other member => decide_eq_true (ordered.le_of_mem_take at? (List.mem_of_mem_drop member))
  have high : ((source.versions.drop (j + 1)).drop (i - (j + 1))).takeWhile (· ≤ version) = [] := by
    refine takeWhile_eq_nil fun other member => decide_eq_false (Nat.not_le.mpr ?_)
    exact ordered.lt_of_mem (j + 1) (Ordered.mem_take at?) (List.mem_of_mem_drop member)
  rw [split, List.takeWhile_append_of_pos low, high, List.append_nil]

/-- Going down, what lies above a version is what lies behind its position. -/
theorem takeWhile_gt_eq (ordered : source.Ordered) (at? : source.versions[j]? = some version) :
    (source.versions.take i).reverse.takeWhile (version < ·) =
      ((source.versions.take i).drop (j + 1)).reverse := by
  have split : (source.versions.take i).reverse =
      ((source.versions.take i).drop (j + 1)).reverse ++
        ((source.versions.take i).take (j + 1)).reverse := by
    rw [← List.reverse_append, List.take_append_drop]
  have high : ∀ other ∈ ((source.versions.take i).drop (j + 1)).reverse,
      decide (version < other) = true := by
    intro other member
    have later : other ∈ source.versions.drop (j + 1) := by
      have inside := List.mem_reverse.mp member
      rw [List.drop_take] at inside
      exact List.mem_of_mem_take inside
    exact decide_eq_true (ordered.lt_of_mem (j + 1) (Ordered.mem_take at?) later)
  have low : ((source.versions.take i).take (j + 1)).reverse.takeWhile (version < ·) = [] := by
    refine takeWhile_eq_nil fun other member => decide_eq_false (Nat.not_lt.mpr ?_)
    have inside := List.mem_reverse.mp member
    rw [List.take_take, Nat.min_comm, ← List.take_take] at inside
    exact ordered.le_of_mem_take at? (List.mem_of_mem_take inside)
  rw [split, List.takeWhile_append_of_pos high, low, List.append_nil]

theorem planTo_eq (ordered : source.Ordered) (within : i ≤ source.versions.length)
    (at? : source.versions[j]? = some version) :
    Migrator.planTo source (source.versionAt i) version = source.stretch i (j + 1) := by
  have bound := (List.getElem?_eq_some_iff.mp at?).1
  have ascending : (source.planUp (source.versionAt i) none).takeWhile (·.version ≤ version) =
      ((source.versions.take (j + 1)).drop i).map upStep := by
    rw [planUp_eq ordered within none, cut, Option.elim_none, stretch_last within,
      List.takeWhile_map]
    exact congrArg (List.map upStep) (takeWhile_le_eq ordered at?)
  have descending : (source.planDown (source.versionAt i) none).takeWhile (version < ·.version) =
      ((source.versions.take i).drop (j + 1)).reverse.map source.downStep := by
    rw [planDown_eq ordered within none, cut, Option.elim_none, stretch_zero, List.takeWhile_map]
    exact congrArg (List.map source.downStep) (takeWhile_gt_eq ordered at?)
  cases i with
  | zero =>
      show (source.planUp none none).takeWhile (·.version ≤ version) = _
      rw [stretch, if_pos (Nat.zero_le _)]
      exact ascending
  | succ k =>
      obtain ⟨current, here⟩ : ∃ current, source.versions[k]? = some current :=
        ⟨_, List.getElem?_eq_getElem within⟩
      have currentAt : source.versionAt (k + 1) = some current := here
      rw [currentAt] at ascending descending ⊢
      unfold Migrator.planTo
      rw [stretch]
      simp only
      rcases Nat.lt_trichotomy k j with below | rfl | above
      · have less := ordered.lt_of_index_lt here at? below
        rw [if_neg (Nat.ne_of_lt less), if_neg (Nat.not_lt.mpr (Nat.le_of_lt less)),
          if_pos (by omega)]
        exact ascending
      · have same : current = version := Option.some.inj (here.symm.trans at?)
        rw [if_pos same, if_pos (Nat.le_refl _)]
        simp
      · have less := ordered.lt_of_index_lt at? here above
        rw [if_neg (Nat.ne_of_gt less), if_pos less, if_neg (by omega)]
        exact descending

end Source

end SchemaMigration
