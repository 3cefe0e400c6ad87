import SchemaMigration.Proofs.FileTree.Walk

/-!
# Putting nodes into a tree

What a file or a directory that is put at a place changes for those who look: a file that takes the
place of a file changes what is found there, and nothing else; a file where nothing stood can only
stop walks that found nothing.

* `FileTree.node?_put_self`, `FileTree.node?_put_of_ne`, `FileTree.put_put`: what is put is there.
* `FileTree.walk_put_file`: walks in a tree into which a file is put.
* `FileTree.Within.walk_directory`: a walk to a place finds the directory that is there now.
-/

namespace SchemaMigration.FileTree

/-! ## Nodes -/

theorem lookup_filter_self {nodes : List (Place × Node)} {place : Place} :
    (nodes.filter fun entry => entry.1 ≠ place).lookup place = none := by
  refine List.lookup_eq_none_iff.mpr fun entry mem => ?_
  have other : entry.1 ≠ place := of_decide_eq_true (List.mem_filter.mp mem).2
  exact bne_iff_ne.mpr other.symm

theorem lookup_filter_of_ne {nodes : List (Place × Node)} {place other : Place}
    (apart : other ≠ place) :
    (nodes.filter fun entry => entry.1 ≠ place).lookup other = nodes.lookup other := by
  induction nodes with
  | nil => rfl
  | cons entry nodes ih =>
      by_cases kept : entry.1 ≠ place
      · rw [List.filter_cons, if_pos (decide_eq_true kept), List.lookup_cons, List.lookup_cons, ih]
      · have missed : (other == entry.1) = false :=
          beq_eq_false_iff_ne.mpr fun same => apart (same.trans (not_not.mp kept))
        rw [List.filter_cons, if_neg (by simpa using kept), List.lookup_cons, missed, ih]

section Nodes

variable {tree : FileTree} {place other : Place} {node : Node}

/-- What is put at a place stands there; the root stays the root. -/
theorem node?_put_self (inside : place ≠ []) : (tree.put place node).node? place = some node := by
  rw [node?, if_neg inside, put]
  simp only [List.lookup_append, lookup_filter_self, List.lookup_cons, beq_self_eq_true,
    Option.none_or]

theorem node?_put_of_ne (apart : other ≠ place) :
    (tree.put place node).node? other = tree.node? other := by
  have missed : (other == place) = false := beq_eq_false_iff_ne.mpr apart
  rw [node?, node?, put]
  simp only [List.lookup_append, lookup_filter_of_ne apart, List.lookup_cons, missed,
    List.lookup_nil, Option.or_none]

/-- Only the last node put at a place counts. -/
theorem put_put (first second : Node) :
    (tree.put place first).put place second = tree.put place second := by
  rw [put, put, put]
  simp only [List.filter_append, List.filter_filter, Bool.and_self, List.filter_cons, ne_eq,
    not_true_eq_false, decide_false, Bool.false_eq_true, if_false, List.filter_nil, List.append_nil]

end Nodes

/-! ## Walks -/

/-- What a walk finds stands where it says. -/
theorem Walks.node? {tree : FileTree} {follow : Bool} {links : Nat} {here place : Place}
    {pieces : List Bytes} {node : Option Node}
    (walks : Walks tree follow links here pieces (.ok (place, node))) :
    tree.node? place = node := by
  generalize whole : Except.ok (place, node) = found at walks
  induction walks with
  | arrived => cases whole; rfl
  | outside inside => cases whole
  | blank directory blank walks ih => exact ih whole
  | up directory walks ih => exact ih whole
  | tooLong directory lookedUp long => cases whole
  | missing directory lookedUp short missing =>
      split at whole
      · cases whole; exact missing
      · cases whole
  | linkItself directory lookedUp short link last => cases whole; exact link
  | tooManyLinks directory lookedUp short link notLast => cases whole
  | through directory lookedUp short link notLast walks ih => exact ih whole
  | further directory lookedUp short there noLink walks ih => exact ih whole

/-- A place for a file: a file stands there, or nothing. -/
def TakesFile (tree : FileTree) (place : Place) : Prop :=
  ∀ node, tree.node? place = some node → ∃ content, node = .file content

theorem TakesFile.not_directory {tree : FileTree} {place here : Place}
    (takesFile : tree.TakesFile place) (directory : tree.node? here = some .directory) :
    here ≠ place := by
  rintro rfl
  obtain ⟨content, isFile⟩ := takesFile _ directory
  cases isFile

theorem TakesFile.inside {tree : FileTree} {place : Place} (takesFile : tree.TakesFile place) :
    place ≠ [] := by
  have root : tree.node? [] = some .directory := rfl
  exact (takesFile.not_directory root).symm

/-- What a walk finds once a file has been put at a place, by what it found before. -/
inductive Renewed (before after : FileTree) (place : Place) :
    Except IoFault (Place × Option Node) → Except IoFault (Place × Option Node) → Prop
  /-- It ends at the same place. -/
  | same {found : Except IoFault (Place × Option Node)} :
    Renewed before after place found (found.map fun result => (result.1, after.node? result.1))
  /-- It found nothing, and is stopped by the file now. -/
  | stopped {found : Except IoFault (Place × Option Node)} (vacant : before.node? place = none)
    (nothing : found = .error .notFound ∨ found = .ok (place, none)) :
    Renewed before after place found (.error .notDirectory)

/-- A walk in a tree into which a file is put. -/
theorem walk_put_file {tree : FileTree} {place : Place} (takesFile : tree.TakesFile place)
    (content : Content) (follow : Bool) (links : Nat) (here : Place) (pieces : List Bytes) :
    Renewed tree (tree.put place (.file content)) place (tree.walk follow links here pieces)
      ((tree.put place (.file content)).walk follow links here pieces) := by
  let after := tree.put place (.file content)
  have put : after.node? place = some (.file content) := node?_put_self takesFile.inside
  have others : ∀ {other}, other ≠ place → after.node? other = tree.node? other := node?_put_of_ne
  have directories : ∀ {here}, tree.node? here = some .directory →
      after.node? here = some .directory := fun directory =>
    (others (takesFile.not_directory directory)).trans directory
  have noOthers : ∀ {here}, tree.node? here ≠ some .directory →
      after.node? here ≠ some .directory := fun {here} inside directory => by
    by_cases atPlace : here = place
    · rw [atPlace, put] at directory
      cases directory
    · exact inside ((others atPlace).symm.trans directory)
  have notLink : ∀ {there target}, tree.node? there = some (.link target) →
      after.node? there = some (.link target) := fun {there target} link => by
    refine (others fun atPlace => ?_).trans link
    obtain ⟨content, isFile⟩ := takesFile _ (atPlace ▸ link)
    cases isFile
  have noLinkPut : ∀ target, Node.file content ≠ .link target := fun _ => nofun
  have walks := tree.walks follow links here pieces
  change Renewed tree after place _ (after.walk follow links here pieces)
  generalize tree.walk follow links here pieces = found at walks ⊢
  induction walks with
  | arrived =>
      rw [walk_nil]
      exact .same
  | outside inside =>
      rw [walk_notDirectory follow _ _ (noOthers inside)]
      exact .same
  | blank directory blank walks ih =>
      rw [walk_blank follow _ _ (directories directory) blank]
      exact ih
  | up directory walks ih =>
      rw [walk_up follow _ _ (directories directory)]
      exact ih
  | tooLong directory lookedUp long =>
      rw [walk_tooLong follow _ _ (directories directory) lookedUp long]
      exact .same
  | @missing links here piece rest directory lookedUp short missing =>
      by_cases atPlace : here ++ [piece] = place
      · rw [walk_further follow _ _ (directories directory) lookedUp short (atPlace ▸ put)
          noLinkPut]
        cases rest with
        | nil =>
            rw [walk_nil, List.all_nil, if_pos rfl]
            exact .same
        | cons next rest =>
            have noDirectory : after.node? (here ++ [piece]) ≠ some .directory := by
              intro directory
              rw [atPlace, put] at directory
              cases directory
            rw [walk_notDirectory follow _ _ noDirectory]
            refine .stopped (atPlace ▸ missing) ?_
            split_ifs
            · exact .inr (atPlace ▸ rfl)
            · exact .inl rfl
      · have stillMissing := (others atPlace).trans missing
        rw [walk_missing follow _ _ (directories directory) lookedUp short stillMissing]
        split_ifs
        · exact stillMissing ▸ Renewed.same
        · exact .same
  | linkItself directory lookedUp short link last =>
      rw [walk_link follow _ _ (directories directory) lookedUp short (notLink link),
        if_pos ⟨rfl, by rw [last]; rfl⟩]
      exact notLink link ▸ Renewed.same
  | tooManyLinks directory lookedUp short link notLast =>
      rw [walk_link follow _ _ (directories directory) lookedUp short (notLink link),
        if_neg notLast]
      exact .same
  | through directory lookedUp short link notLast walks ih =>
      rw [walk_link follow _ _ (directories directory) lookedUp short (notLink link),
        if_neg notLast]
      exact ih
  | @further links here piece rest node found directory lookedUp short there noLink walks ih =>
      obtain ⟨newNode, newThere, newNoLink⟩ : ∃ node, after.node? (here ++ [piece]) = some node ∧
          ∀ target, node ≠ .link target := by
        by_cases atPlace : here ++ [piece] = place
        · exact ⟨_, atPlace ▸ put, noLinkPut⟩
        · exact ⟨node, (others atPlace).trans there, noLink⟩
      rw [walk_further follow _ _ (directories directory) lookedUp short newThere newNoLink]
      exact ih

/-! ## More nodes -/

/-- A tree has everything that another one has. -/
structure Within (tree after : FileTree) : Prop where
  workingDirectory : after.workingDirectory = tree.workingDirectory
  kept : ∀ {place node}, tree.node? place = some node → after.node? place = some node

theorem Within.refl (tree : FileTree) : tree.Within tree :=
  ⟨rfl, id⟩

theorem Within.trans {tree middle after : FileTree} (first : tree.Within middle)
    (second : middle.Within after) : tree.Within after :=
  ⟨second.workingDirectory.trans first.workingDirectory,
    fun there => second.kept (first.kept there)⟩

/-- What is put where nothing stood takes nothing away. -/
theorem within_put {tree : FileTree} {place : Place} (vacant : tree.node? place = none)
    (node : Node) : tree.Within (tree.put place node) := by
  refine ⟨rfl, fun {other found} there => (node?_put_of_ne ?_).trans there⟩
  rintro rfl
  cases vacant.symm.trans there

/-- A walk to a place finds the directory there in a tree with more nodes, also if nothing stood
there before. -/
theorem Within.walk_directory {tree after : FileTree} (within : tree.Within after) {place : Place}
    (stands : after.node? place = some .directory) {follow : Bool} {links : Nat} {here : Place}
    {pieces : List Bytes} {found : Option Node}
    (reached : tree.walk follow links here pieces = .ok (place, found)) :
    after.walk true links here pieces = .ok (place, some .directory) := by
  have walks := tree.walks follow links here pieces
  rw [reached] at walks
  clear reached
  generalize whole : Except.ok (place, found) = result at walks
  induction walks with
  | @arrived links here =>
      obtain ⟨rfl, -⟩ := Prod.mk.inj (Except.ok.inj whole)
      rw [walk_nil, stands]
  | outside inside => cases whole
  | blank directory blank walks ih =>
      rw [walk_blank true _ _ (within.kept directory) blank]
      exact ih whole
  | up directory walks ih =>
      rw [walk_up true _ _ (within.kept directory)]
      exact ih whole
  | tooLong directory lookedUp long => cases whole
  | @missing links here piece rest directory lookedUp short missing =>
      split at whole
      · next blanks =>
        obtain ⟨rfl, -⟩ := Prod.mk.inj (Except.ok.inj whole)
        rw [walk_further true _ _ (within.kept directory) lookedUp short stands fun _ => nofun]
        -- Only empty pieces follow.
        clear whole
        induction rest with
        | nil => rw [walk_nil, stands]
        | cons next rest ih =>
            rw [List.all_cons, Bool.and_eq_true, decide_eq_true_eq] at blanks
            rw [walk_blank true _ _ stands (.inl blanks.1)]
            exact ih blanks.2
      · cases whole
  | linkItself directory lookedUp short link last =>
      obtain ⟨rfl, -⟩ := Prod.mk.inj (Except.ok.inj whole)
      cases (within.kept link).symm.trans stands
  | tooManyLinks directory lookedUp short link notLast => cases whole
  | @through links here piece rest target result directory lookedUp short link notLast walks ih =>
      rw [walk_link true _ _ (within.kept directory) lookedUp short (within.kept link),
        if_neg fun last => absurd last.2 (by decide)]
      exact ih whole
  | further directory lookedUp short there noLink walks ih =>
      rw [walk_further true _ _ (within.kept directory) lookedUp short (within.kept there) noLink]
      exact ih whole

/-- Only a link at the end is followed or not. -/
theorem walk_unfollowed (tree : FileTree) (links : Nat) (here : Place) (pieces : List Bytes) :
    tree.walk false links here pieces = tree.walk true links here pieces ∨
      ∃ place target, tree.walk false links here pieces = .ok (place, some (.link target)) := by
  have walks := tree.walks false links here pieces
  generalize tree.walk false links here pieces = found at walks ⊢
  induction walks with
  | arrived => exact .inl (walk_nil ..).symm
  | outside inside => exact .inl (walk_notDirectory _ _ _ inside).symm
  | blank directory blank walks ih =>
      rw [walk_blank true _ _ directory blank]
      exact ih
  | up directory walks ih =>
      rw [walk_up true _ _ directory]
      exact ih
  | tooLong directory lookedUp long => exact .inl (walk_tooLong _ _ _ directory lookedUp long).symm
  | missing directory lookedUp short missing =>
      exact .inl (walk_missing _ _ _ directory lookedUp short missing).symm
  | linkItself directory lookedUp short link last => exact .inr ⟨_, _, rfl⟩
  | tooManyLinks directory lookedUp short link notLast =>
      rw [walk_link true _ _ directory lookedUp short link,
        if_neg fun last => absurd last.2 (by decide)]
      exact .inl rfl
  | through directory lookedUp short link notLast walks ih =>
      rw [walk_link true _ _ directory lookedUp short link,
        if_neg fun last => absurd last.2 (by decide)]
      exact ih
  | further directory lookedUp short there noLink walks ih =>
      rw [walk_further true _ _ directory lookedUp short there noLink]
      exact ih

end SchemaMigration.FileTree
