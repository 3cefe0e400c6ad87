import Mathlib.Order.Bounds.Defs
import SchemaMigration.Proofs.Source.FileName
import SchemaMigration.Proofs.Sql.Change
import SchemaMigration.Source

/-!
# The order of a source

A source that was opened has its versions in ascending order, each once and small enough for a cell:
`Source.Ordered`. Positions then say everything about neighbours. Position 0 is before the first
version and position `i + 1` is at the version of index `i`.

* `Source.openDirectory_ordered`: every source that is opened is ordered;
* `Source.Ordered.after?_versionAt`, `Source.Ordered.prev?_eq`: the neighbours of a version are
  those at the neighbouring positions;
* `Source.Ordered.filter_le_versionAt`: the versions up to the one at a position are the first ones;
* `Source.Ordered.next?_eq_some_iff`, `Source.Ordered.prev?_eq_some_iff`: the neighbours of any
  version, whether it is in the source or not;
* `Source.Ordered.walk_iff`: going from each version to the next meets them all.
-/

namespace SchemaMigration

namespace Source

/-! ## Opened sources -/

/-- Versions ascend, and each fits into a cell. -/
structure Ordered (source : Source) : Prop where
  ascending : source.versions.Pairwise (· < ·)
  bounded : ∀ version ∈ source.versions, version ≤ Numeral.signedMax

section Insertion

variable {file : MigrationFile} {migrations after : List (Version × VersionFiles)}

/-- A file adds at most its own version. -/
theorem mem_of_insert (done : insert file migrations = .ok after) {version : Version}
    (member : version ∈ after.map (·.1)) :
    version = file.version ∨ version ∈ migrations.map (·.1) := by
  induction migrations generalizing after with
  | nil =>
      cases done
      exact .inl (List.mem_singleton.mp member)
  | cons entry rest ih =>
      obtain ⟨other, files⟩ := entry
      simp only [insert] at done
      split at done
      · cases done
        exact List.mem_cons.mp member
      · split at done
        · split at done
          · cases done
          · cases done
            exact .inr member
        · cases added : insert file rest with
          | error e =>
              rw [added] at done
              cases done
          | ok grown =>
              rw [added] at done
              cases done
              rcases List.mem_cons.mp member with same | later
              · exact .inr (List.mem_cons.mpr (.inl same))
              · exact (ih added later).imp_right (List.mem_cons_of_mem _)

theorem insert_ascending (sorted : (migrations.map (·.1)).Pairwise (· < ·))
    (done : insert file migrations = .ok after) : (after.map (·.1)).Pairwise (· < ·) := by
  induction migrations generalizing after with
  | nil =>
      cases done
      exact List.pairwise_singleton _ _
  | cons entry rest ih =>
      obtain ⟨other, files⟩ := entry
      obtain ⟨least, restSorted⟩ := List.pairwise_cons.mp sorted
      simp only [insert] at done
      split at done
      · rename_i below
        cases done
        refine List.pairwise_cons.mpr ⟨fun version member => ?_, sorted⟩
        rcases List.mem_cons.mp member with rfl | later
        · exact below
        · exact Nat.lt_trans below (least version later)
      · rename_i notBelow
        split at done
        · split at done
          · cases done
          · cases done
            exact sorted
        · rename_i different
          cases added : insert file rest with
          | error e =>
              rw [added] at done
              cases done
          | ok grown =>
              rw [added] at done
              cases done
              refine List.pairwise_cons.mpr ⟨fun version member => ?_, ih restSorted added⟩
              rcases mem_of_insert added member with rfl | later
              · exact Nat.lt_of_le_of_ne (Nat.not_lt.mp notBelow) (Ne.symm different)
              · exact least version later

end Insertion

theorem addEntry_ordered {directory : Path} {migrations after : List (Version × VersionFiles)}
    {entry : Bytes × Node}
    (ordered : Ordered ⟨directory, migrations⟩)
    (done : addEntry directory migrations entry = .ok after) : Ordered ⟨directory, after⟩ := by
  unfold addEntry at done
  split at done
  · split at done
    · cases done
      exact ordered
    · rename_i name _
      cases readName : FileName.read name with
      | error e =>
          rw [readName] at done
          cases done
      | ok parsed =>
          rw [readName] at done
          cases parsed with
          | none =>
              cases done
              exact ordered
          | some file =>
              refine ⟨insert_ascending ordered.ascending done, fun version member => ?_⟩
              rcases mem_of_insert done member with rfl | old
              · exact (FileName.read_eq_some_iff.mp readName).2
              · exact ordered.bounded version old
  · cases done
    exact ordered

/-- **Opened sources are ordered.** -/
theorem openDirectory_ordered {tree : FileTree} {directory : Path} {source : Source}
    (opened : openDirectory tree directory = .ok source) : source.Ordered := by
  unfold openDirectory at opened
  split at opened
  · rename_i place _
    unfold ofEntries at opened
    cases scan : (tree.entries place).foldlM (addEntry directory) [] with
    | error e =>
        rw [scan] at opened
        cases opened
    | ok migrations =>
        rw [scan] at opened
        cases opened
        refine Sql.foldlM_keeps (P := fun found => Ordered ⟨directory, found⟩) ?_ ?_ scan
        · exact fun entry _ before after ordered done => addEntry_ordered ordered done
        · exact ⟨List.Pairwise.nil, fun _ member => nomatch member⟩
  · cases opened

/-! ## Positions -/

/-- The version at a position: none before the first. -/
def versionAt (source : Source) : Nat → Option Version
  | 0 => none
  | i + 1 => source.versions[i]?

/-- The least version above the current one. -/
def after? (source : Source) : Option Version → Option Version
  | some version => source.next? version
  | none => source.first?

theorem find?_eq_head? {α : Type} {p : α → Bool} {items : List α} (all : ∀ item ∈ items, p item) :
    items.find? p = items.head? := by
  cases items with
  | nil => rfl
  | cons item rest => exact List.find?_cons_of_pos (all item List.mem_cons_self)

namespace Ordered

variable {source : Source} {i : Nat} {version : Version}

/-- What stands before a position is below what stands from there on. -/
theorem lt_of_mem (ordered : source.Ordered) (i : Nat) {low high : Version}
    (before : low ∈ source.versions.take i) (behind : high ∈ source.versions.drop i) :
    low < high := by
  have split := ordered.ascending
  rw [← List.take_append_drop i source.versions, List.pairwise_append] at split
  exact split.2.2 low before high behind

theorem mem_drop (at? : source.versions[i]? = some version) : version ∈ source.versions.drop i := by
  rw [List.drop_eq_getElem?_toList_append, at?]
  exact List.mem_cons_self

theorem mem_take (at? : source.versions[i]? = some version) :
    version ∈ source.versions.take (i + 1) := by
  rw [List.take_add_one, at?]
  exact List.mem_append_right _ (List.mem_singleton_self _)

theorem le_of_mem_take (ordered : source.Ordered) (at? : source.versions[i]? = some version)
    {low : Version} (member : low ∈ source.versions.take (i + 1)) : low ≤ version := by
  rw [List.take_add_one, at?] at member
  rcases List.mem_append.mp member with before | same
  · exact Nat.le_of_lt (ordered.lt_of_mem i before (mem_drop at?))
  · exact Nat.le_of_eq (List.mem_singleton.mp same)

theorem le_of_mem_drop (ordered : source.Ordered) (at? : source.versions[i]? = some version)
    {high : Version} (member : high ∈ source.versions.drop i) : version ≤ high := by
  rw [List.drop_eq_getElem?_toList_append, at?] at member
  rcases List.mem_cons.mp member with same | behind
  · exact Nat.le_of_eq same.symm
  · exact Nat.le_of_lt (ordered.lt_of_mem (i + 1) (mem_take at?) behind)

/-- Versions are ordered as their indexes are. -/
theorem lt_of_index_lt (ordered : source.Ordered) {j : Nat} {low high : Version}
    (lowAt : source.versions[i]? = some low) (highAt : source.versions[j]? = some high)
    (below : i < j) : low < high := by
  obtain ⟨lowBound, rfl⟩ := List.getElem?_eq_some_iff.mp lowAt
  obtain ⟨highBound, rfl⟩ := List.getElem?_eq_some_iff.mp highAt
  exact List.pairwise_iff_getElem.mp ordered.ascending i j lowBound highBound below

/-- The next version is at the next position. -/
theorem next?_eq (ordered : source.Ordered) (at? : source.versions[i]? = some version) :
    source.next? version = source.versions[i + 1]? := by
  unfold next?
  rw [← List.take_append_drop (i + 1) source.versions, List.find?_append]
  have none : (source.versions.take (i + 1)).find? (version < ·) = none := by
    refine List.find?_eq_none.mpr fun low member => ?_
    simpa using ordered.le_of_mem_take at? member
  rw [none, Option.none_or, find?_eq_head? fun high member =>
    decide_eq_true (ordered.lt_of_mem (i + 1) (mem_take at?) member), List.head?_drop,
    List.take_append_drop]

/-- The version before is at the position before. -/
theorem prev?_eq (ordered : source.Ordered) (at? : source.versions[i]? = some version) :
    source.prev? version = source.versionAt i := by
  unfold prev?
  have split : source.versions.reverse =
      (source.versions.drop i).reverse ++ (source.versions.take i).reverse := by
    rw [← List.reverse_append, List.take_append_drop]
  have none : ((source.versions.drop i).reverse).find? (· < version) = none := by
    refine List.find?_eq_none.mpr fun high member => ?_
    simpa using ordered.le_of_mem_drop at? (List.mem_reverse.mp member)
  rw [split, List.find?_append, none, Option.none_or, find?_eq_head? fun low member =>
    decide_eq_true (ordered.lt_of_mem i (List.mem_reverse.mp member) (mem_drop at?)),
    List.head?_reverse]
  cases i with
  | zero => rfl
  | succ j =>
      have bound : j < source.versions.length := by
        have := (List.getElem?_eq_some_iff.mp at?).1
        omega
      rw [List.getLast?_take, if_neg (Nat.succ_ne_zero j), Nat.add_sub_cancel,
        List.getElem?_eq_getElem bound, Option.some_or]
      exact (List.getElem?_eq_getElem bound).symm

/-- Above the version at a position comes the one at the next. -/
theorem after?_versionAt (ordered : source.Ordered) (bound : i ≤ source.versions.length) :
    source.after? (source.versionAt i) = source.versions[i]? := by
  cases i with
  | zero => exact List.head?_eq_getElem?
  | succ j =>
      have at? : source.versions[j]? = some source.versions[j] := List.getElem?_eq_getElem bound
      simp only [versionAt, at?]
      exact ordered.next?_eq at?

/-- The versions up to the one at a position are those before the next position. -/
theorem filter_le_versionAt (ordered : source.Ordered) (bound : i ≤ source.versions.length) :
    source.versions.filter (fun version => (source.versionAt i).any (version ≤ ·)) =
      source.versions.take i := by
  cases i with
  | zero => exact List.filter_eq_nil_iff.mpr fun _ _ => Bool.false_ne_true
  | succ j =>
      obtain ⟨version, at?⟩ : ∃ version, source.versions[j]? = some version :=
        ⟨_, List.getElem?_eq_getElem bound⟩
      have low : (source.versions.take (j + 1)).filter (· ≤ version) =
          source.versions.take (j + 1) :=
        List.filter_eq_self.mpr fun low member =>
          decide_eq_true (ordered.le_of_mem_take at? member)
      have high : (source.versions.drop (j + 1)).filter (· ≤ version) = [] := by
        refine List.filter_eq_nil_iff.mpr fun high member => ?_
        simpa using ordered.lt_of_mem (j + 1) (mem_take at?) member
      simp only [versionAt, at?, Option.any_some]
      conv_lhs => rw [← List.take_append_drop (j + 1) source.versions]
      rw [List.filter_append, low, high, List.append_nil]

theorem contains_versionAt (at? : source.versionAt i = some version) :
    source.contains version = true := by
  cases i with
  | zero => cases at?
  | succ j => exact List.contains_iff_mem.mpr (List.mem_of_getElem? at?)

end Ordered

/-! ## Neighbours of any version -/

/-- In a list that is in order, the first item of a kind stands before all others of the kind. -/
theorem find?_eq_some_iff_of_pairwise {α : Type} {before : α → α → Prop} {p : α → Bool}
    {items : List α} (sorted : items.Pairwise before)
    (asymm : ∀ a b, before a b → ¬ before b a) {found : α} :
    items.find? p = some found ↔
      (found ∈ items ∧ p found) ∧ ∀ item ∈ items, p item → item = found ∨ before found item := by
  induction items with
  | nil => simp
  | cons item items ih =>
      obtain ⟨first, rest⟩ := List.pairwise_cons.mp sorted
      have irrefl : ∀ a, ¬ before a a := fun a holds => asymm a a holds holds
      cases kind : p item with
      | true =>
          rw [List.find?_cons_of_pos kind]
          constructor
          · rintro ⟨⟩
            refine ⟨⟨List.mem_cons_self, kind⟩, fun other member _ => ?_⟩
            exact (List.mem_cons.mp member).imp_right (first other)
          · rintro ⟨⟨member, -⟩, least⟩
            rcases least item List.mem_cons_self kind with same | later
            · rw [same]
            · rcases List.mem_cons.mp member with same | member
              · rw [same]
              · exact absurd later (asymm _ _ (first found member))
      | false =>
          have other : ∀ {a}, p a = true → a ≠ item := fun holds same => by
            rw [same, kind] at holds
            cases holds
          rw [List.find?_cons_of_neg (by rw [kind]; exact Bool.false_ne_true), ih rest]
          refine and_congr (and_congr_left fun holds => ?_) ?_
          · rw [List.mem_cons, or_iff_right (other holds)]
          · rw [List.forall_mem_cons, and_iff_right fun holds => absurd rfl (other holds)]

namespace Ordered

variable {source : Source}

theorem next?_eq_some_iff (ordered : source.Ordered) {version next : Version} :
    source.next? version = some next ↔
      IsLeast {other | source.contains other = true ∧ version < other} next := by
  unfold next?
  rw [find?_eq_some_iff_of_pairwise ordered.ascending fun _ _ => Nat.lt_asymm]
  simp only [decide_eq_true_eq, IsLeast, lowerBounds, Set.mem_ofPred_eq, contains,
    List.contains_iff_mem, and_imp, Nat.le_iff_lt_or_eq, @eq_comm _ next, or_comm]

theorem prev?_eq_some_iff (ordered : source.Ordered) {version prev : Version} :
    source.prev? version = some prev ↔
      IsGreatest {other | source.contains other = true ∧ other < version} prev := by
  unfold prev?
  rw [find?_eq_some_iff_of_pairwise (List.pairwise_reverse.mpr ordered.ascending)
    fun _ _ => Nat.lt_asymm]
  simp only [decide_eq_true_eq, IsGreatest, upperBounds, Set.mem_ofPred_eq, contains,
    List.contains_iff_mem, List.mem_reverse, and_imp, Nat.le_iff_lt_or_eq, or_comm]

end Ordered

/-! ## Walks -/

/-- The versions that are met from one version on, each followed by the next. -/
inductive Walk (source : Source) : Option Version → List Version → Prop
  | done : Walk source none []
  | step {version : Version} {versions : List Version}
      (walk : Walk source (source.next? version) versions) :
      Walk source (some version) (version :: versions)

theorem Walk.unique {source : Source} {start : Option Version} {versions others : List Version}
    (first : Walk source start versions) (second : Walk source start others) :
    versions = others := by
  induction first generalizing others with
  | done => cases second; rfl
  | step _ ih => cases second with | step walk => rw [ih walk]

/-- From each index on, a walk meets the versions from there on. -/
theorem Ordered.walk_drop {source : Source} (ordered : source.Ordered) (i : Nat) :
    Walk source source.versions[i]? (source.versions.drop i) := by
  generalize left : source.versions.drop i = rest
  induction rest generalizing i with
  | nil =>
      rw [List.getElem?_eq_none (List.drop_eq_nil_iff.mp left)]
      exact .done
  | cons version rest ih =>
      have at? : source.versions[i]? = some version := by
        rw [← List.head?_drop, left, List.head?_cons]
      have behind : source.versions.drop (i + 1) = rest := by
        rw [← List.tail_drop, left, List.tail_cons]
      rw [at?]
      exact .step (ordered.next?_eq at? ▸ ih (i + 1) behind)

/-- **The walk through a source** meets its versions in their order. -/
theorem Ordered.walk_iff {source : Source} (ordered : source.Ordered) {versions : List Version} :
    Walk source source.first? versions ↔ versions = source.versions := by
  have walk := ordered.walk_drop 0
  rw [← List.head?_eq_getElem?, List.drop_zero] at walk
  exact ⟨fun other => other.unique walk, fun same => same ▸ walk⟩

end Source

end SchemaMigration
