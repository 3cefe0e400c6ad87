import SchemaMigration.Proofs.FileTree.Directory
import SchemaMigration.Proofs.FileTree.Put

/-!
# Paths in a tree into which a file is put

* `FileTree.stat_put_file`, `FileTree.readText_put_database`: what paths name, and texts of files.
* `FileTree.createDirectories_again`: directories that were made are not made again.
* `FileTree.storePlace_put_file`: a database engine still comes to the file, unless a path leads
  through the file itself, where nothing stood before.
-/

namespace SchemaMigration.FileTree

variable {tree : FileTree} {place : Place}

/-! ## What paths name -/

/-- What a path names once a file has been put at a place. -/
theorem locate_put_file (takesFile : tree.TakesFile place) (content : Content) (path : Path)
    (follow : Bool) :
    Renewed tree (tree.put place (.file content)) place (tree.locate path follow)
      ((tree.put place (.file content)).locate path follow) := by
  rw [locate, locate]
  split_ifs
  · exact .same
  · exact .same
  · exact walk_put_file takesFile content follow _ _ _
  · exact walk_put_file takesFile content follow _ _ _

theorem node?_of_locate {path : Path} {follow : Bool} {there : Place} {node : Option Node}
    (found : tree.locate path follow = .ok (there, node)) : tree.node? there = node := by
  rw [locate] at found
  split_ifs at found
  · exact (found ▸ tree.walks follow linkLimit [] path.pieces).node?
  · exact (found ▸ tree.walks follow linkLimit tree.workingDirectory path.pieces).node?

/-- A directory is found where it was. -/
theorem stat_put_file (takesFile : tree.TakesFile place) (content : Content) {path : Path}
    {there : Place} (directory : tree.stat path = .ok (there, .directory)) :
    (tree.put place (.file content)).stat path = .ok (there, .directory) := by
  rw [stat_eq_ok_iff] at directory ⊢
  have isDirectory := node?_of_locate directory
  have renewed := locate_put_file takesFile content path true
  rw [directory] at renewed
  generalize (tree.put place (.file content)).locate path true = found at renewed ⊢
  cases renewed with
  | same =>
      have unchanged : (tree.put place (.file content)).node? there = tree.node? there :=
        node?_put_of_ne (takesFile.not_directory isDirectory)
      rw [Except.map, unchanged, isDirectory]
  | stopped vacant nothing => rcases nothing with nothing | nothing <;> cases nothing

theorem isDirectory_iff {path : Path} :
    tree.isDirectory path = true ↔ ∃ there, tree.stat path = .ok (there, .directory) := by
  rw [isDirectory]
  split
  · next there found => exact iff_of_true rfl ⟨there, found⟩
  · next other =>
    refine iff_of_false Bool.false_ne_true ?_
    rintro ⟨there, found⟩
    exact other there found

theorem isDirectory_put_file (takesFile : tree.TakesFile place) (content : Content) {path : Path}
    (directory : tree.isDirectory path = true) :
    (tree.put place (.file content)).isDirectory path = true := by
  obtain ⟨there, found⟩ := isDirectory_iff.mp directory
  exact isDirectory_iff.mpr ⟨there, stat_put_file takesFile content found⟩

/-- The place of a database file. -/
def HoldsDatabase (tree : FileTree) (place : Place) : Prop :=
  ∃ content, tree.node? place = some (.file (.database content))

theorem HoldsDatabase.takesFile (holds : tree.HoldsDatabase place) : tree.TakesFile place := by
  obtain ⟨content, stands⟩ := holds
  intro node there
  cases stands.symm.trans there
  exact ⟨_, rfl⟩

/-- No text is another when a database takes the place of a database. -/
theorem readText_put_database (holds : tree.HoldsDatabase place) (content : Sql.Database)
    (path : Path) :
    (tree.put place (.file (.database content))).readText path = tree.readText path := by
  obtain ⟨old, stands⟩ := holds
  have takesFile := HoldsDatabase.takesFile ⟨old, stands⟩
  have renewed := locate_put_file takesFile (.database content) path true
  rw [readText, readText, stat, stat]
  generalize (tree.put place (.file (.database content))).locate path true = found at renewed ⊢
  cases renewed with
  | stopped vacant nothing => rw [stands] at vacant; cases vacant
  | same =>
      cases located : tree.locate path true with
      | error fault => rfl
      | ok result =>
          obtain ⟨there, node⟩ := result
          obtain rfl := node?_of_locate located
          by_cases atPlace : there = place
          · subst atPlace
            rw [Except.map, node?_put_self takesFile.inside, stands]
            rfl
          · rw [Except.map, node?_put_of_ne atPlace]

/-! ## Directories that are made -/

/-- What led to a place leads to the directory there in a tree with more nodes. -/
theorem Within.stat_directory {after : FileTree} (within : tree.Within after)
    (stands : after.node? place = some .directory) {path : Path} {follow : Bool}
    {found : Option Node} (reached : tree.locate path follow = .ok (place, found)) :
    after.stat path = .ok (place, .directory) := by
  rw [stat_eq_ok_iff]
  rw [locate] at reached ⊢
  split_ifs at reached ⊢
  · exact within.walk_directory stands reached
  · exact within.workingDirectory ▸ within.walk_directory stands reached

/-- A directory is made where the path leads and nothing stands. -/
theorem makeDirectory_eq_ok_iff {path : Path} {after : FileTree} :
    tree.makeDirectory path = .ok after ↔
      ∃ place, tree.locate path false = .ok (place, none) ∧ after = tree.put place .directory := by
  rw [makeDirectory]
  cases tree.locate path false with
  | error fault => exact iff_of_false nofun nofun
  | ok found =>
      obtain ⟨there, node⟩ := found
      cases node with
      | some node => exact iff_of_false nofun nofun
      | none =>
          constructor
          · intro made
            cases made
            exact ⟨there, rfl, rfl⟩
          · rintro ⟨place, same, rfl⟩
            cases same
            rfl

theorem stat_put_directory {path : Path} {follow : Bool}
    (vacant : tree.locate path follow = .ok (place, none)) :
    (tree.put place .directory).stat path = .ok (place, .directory) := by
  have nothing := node?_of_locate vacant
  have inside : place ≠ [] := by rintro rfl; cases nothing
  exact (within_put nothing .directory).stat_directory (node?_put_self inside) vacant

theorem isDirectory_makeDirectory {path : Path} {after : FileTree}
    (made : tree.makeDirectory path = .ok after) : after.isDirectory path = true := by
  obtain ⟨there, vacant, rfl⟩ := makeDirectory_eq_ok_iff.mp made
  exact isDirectory_iff.mpr ⟨there, stat_put_directory vacant⟩

theorem isDirectory_ensureDirectory {path : Path} {after : FileTree}
    (made : tree.ensureDirectory path = .ok after) : after.isDirectory path = true := by
  rw [ensureDirectory] at made
  split at made
  · next made' => cases made; exact isDirectory_makeDirectory made'
  · split at made
    · next already => cases made; exact already
    · cases made

/-- What was made with its parents is there. -/
theorem isDirectory_ensureWithParents {path : Path} {depth : Nat} {after : FileTree}
    (made : tree.ensureWithParents path depth = (after, .ok ())) :
    path.bytes = [] ∨ after.isDirectory path = true := by
  cases depth with
  | zero => cases made
  | succ depth =>
      by_cases empty : path.bytes = []
      · exact .inl empty
      rw [ensureWithParents, if_neg empty] at made
      refine .inr ?_
      split at made
      · next madeHere => cases made; exact isDirectory_makeDirectory madeHere
      · split at made
        · cases made
        · split at made
          · cases made
          · split at made
            · next ensured => cases made; exact isDirectory_ensureDirectory ensured
            · cases made
      · split at made
        · next already => cases made; exact already
        · cases made

/-- A directory that is there is not made again. -/
theorem createDirectories_of_isDirectory {path : Path} (directory : tree.isDirectory path = true) :
    tree.createDirectories path = (tree, .ok ()) := by
  obtain ⟨there, found⟩ := isDirectory_iff.mp directory
  rw [stat_eq_ok_iff] at found
  have refused : tree.makeDirectory path = .error .exists := by
    have unfollowed : tree.locate path false = tree.locate path true ∨
        ∃ there target, tree.locate path false = .ok (there, some (.link target)) := by
      rw [locate, locate]
      split_ifs
      · exact .inl rfl
      · exact .inl rfl
      · exact walk_unfollowed ..
      · exact walk_unfollowed ..
    rw [makeDirectory]
    rcases unfollowed with same | ⟨there, target, link⟩
    · rw [same, found]; rfl
    · rw [link]; rfl
  rw [createDirectories, ensureWithParents]
  by_cases empty : path.bytes = []
  · rw [if_pos empty]
  · simp only [if_neg empty, refused, directory, if_true]

/-- Directories that were made are not made again, also once a file has been put beside them. -/
theorem createDirectories_again {path : Path} {after : FileTree} {content : Content}
    (made : tree.createDirectories path = (after, .ok ())) (takesFile : after.TakesFile place) :
    (after.put place (.file content)).createDirectories path =
      (after.put place (.file content), .ok ()) := by
  rcases isDirectory_ensureWithParents made with empty | directory
  · rw [createDirectories, ensureWithParents, if_pos empty]
  · exact createDirectories_of_isDirectory (isDirectory_put_file takesFile content directory)

/-! ## Database files -/

/-- Where a database engine comes to once a file has been put at a place: where it came before, or
nowhere, if the path leads through the file. -/
def StoreRenewed (tree : FileTree) (place : Place) (before after : Option Place) : Prop :=
  after = before ∨ tree.node? place = none ∧ after = none

theorem storeWalkTo_put_file (takesFile : tree.TakesFile place) (content : Content)
    {through through' : Place → List Bytes → Option Place}
    (beyond : ∀ here pieces, tree.StoreRenewed place (through here pieces) (through' here pieces))
    (here : Place) (pieces : List Bytes) :
    tree.StoreRenewed place (tree.storeWalkTo through here pieces)
      ((tree.put place (.file content)).storeWalkTo through' here pieces) := by
  induction pieces generalizing here with
  | nil => exact .inl rfl
  | cons piece rest ih =>
      rw [storeWalkTo, storeWalkTo]
      by_cases blank : piece = [] ∨ piece = Path.dot
      · rw [if_pos blank, if_pos blank]
        exact ih here
      rw [if_neg blank, if_neg blank]
      by_cases up : piece = Path.dotDot
      · rw [if_pos up, if_pos up]
        exact ih _
      rw [if_neg up, if_neg up]
      have renewed := walk_put_file takesFile content false 0 [] (here ++ [piece])
      have walks := tree.walks false 0 [] (here ++ [piece])
      generalize tree.walk false 0 [] (here ++ [piece]) = before at renewed walks ⊢
      generalize (tree.put place (.file content)).walk false 0 [] (here ++ [piece]) = after
        at renewed ⊢
      cases renewed with
      | stopped vacant nothing => exact .inr ⟨vacant, rfl⟩
      | same =>
          cases before with
          | error fault => cases fault <;> first | exact ih _ | exact .inl rfl
          | ok found =>
              obtain ⟨there, node⟩ := found
              obtain rfl := walks.node?
              by_cases atPlace : there = place
              · subst atPlace
                simp only [Except.map, node?_put_self takesFile.inside]
                cases stands : tree.node? there with
                | none => exact ih _
                | some node =>
                    obtain ⟨content, rfl⟩ := takesFile node stands
                    exact ih _
              · simp only [Except.map, node?_put_of_ne atPlace]
                cases tree.node? there with
                | none => exact ih _
                | some node =>
                    cases node with
                    | directory => exact ih _
                    | file content => exact ih _
                    | link target => exact beyond _ _

theorem storeWalk_put_file (takesFile : tree.TakesFile place) (content : Content) (links : Nat)
    (here : Place) (pieces : List Bytes) :
    tree.StoreRenewed place (tree.storeWalk links here pieces)
      ((tree.put place (.file content)).storeWalk links here pieces) := by
  induction links generalizing here pieces with
  | zero => exact storeWalkTo_put_file takesFile content (fun _ _ => .inl rfl) here pieces
  | succ links ih => exact storeWalkTo_put_file takesFile content ih here pieces

/-- A database engine comes only to places for files. -/
theorem of_storePlace {path : Path} (found : tree.storePlace path = some place) :
    tree.storeWalk storeLinkLimit (if path.isAbsolute then [] else tree.workingDirectory)
        path.pieces = some place ∧
      tree.TakesFile place := by
  rw [storePlace] at found
  split at found
  · cases found
  · cases found
  · next there inside walked =>
    split at found
    · next content stands =>
      cases found
      exact ⟨walked, fun node there => ⟨content, Option.some.inj (there.symm.trans stands)⟩⟩
    · cases found
    · next vacant =>
      split at found
      · cases found
        refine ⟨walked, fun node there => ?_⟩
        cases vacant.symm.trans there
      · cases found

/-- A database engine that came to a place comes to the file that is put there, unless nothing stood
there and the path leads through the file. -/
theorem storePlace_put_file {path : Path} (found : tree.storePlace path = some place)
    (content : Content) :
    (tree.put place (.file content)).storePlace path = some place ∨
      tree.node? place = none ∧ (tree.put place (.file content)).storePlace path = none := by
  obtain ⟨walked, takesFile⟩ := of_storePlace found
  have stands : (tree.put place (.file content)).node? place = some (.file content) :=
    node?_put_self takesFile.inside
  rcases storeWalk_put_file takesFile content storeLinkLimit
      (if path.isAbsolute then [] else tree.workingDirectory) path.pieces with
    same | ⟨vacant, nowhere⟩
  · refine .inl ?_
    have again : (tree.put place (.file content)).storeWalk storeLinkLimit
        (if path.isAbsolute then [] else (tree.put place (.file content)).workingDirectory)
        path.pieces = some place := same.trans walked
    rw [storePlace, again]
    cases place with
    | nil => exact absurd rfl takesFile.inside
    | cons name names => simp only [stands]
  · refine .inr ⟨vacant, ?_⟩
    have lost : (tree.put place (.file content)).storeWalk storeLinkLimit
        (if path.isAbsolute then [] else (tree.put place (.file content)).workingDirectory)
        path.pieces = none := nowhere
    rw [storePlace, lost]

/-- The pieces that are names. -/
abbrev namesOf (pieces : List Bytes) : List Bytes :=
  pieces.filter fun piece => piece ≠ [] ∧ piece ≠ Path.dot

theorem storeWalkTo_namesOf (tree : FileTree) {through : Place → List Bytes → Option Place}
    (beyond : ∀ here pieces, through here pieces = through here (namesOf pieces))
    (here : Place) (pieces : List Bytes) :
    tree.storeWalkTo through here pieces = tree.storeWalkTo through here (namesOf pieces) := by
  have beyondBoth : ∀ here front rest,
      through here (front ++ rest) = through here (front ++ namesOf rest) :=
    fun here front rest => by
      rw [beyond, beyond here (front ++ namesOf rest), namesOf, namesOf, List.filter_append,
        List.filter_append, List.filter_filter]
      simp only [Bool.and_self]
  induction pieces generalizing here with
  | nil => rfl
  | cons piece rest ih =>
      by_cases blank : piece = [] ∨ piece = Path.dot
      · have skipped : namesOf (piece :: rest) = namesOf rest := by
          rw [namesOf, List.filter_cons, if_neg (by simpa [imp_iff_not_or] using blank)]
        rw [skipped, storeWalkTo, if_pos blank, ih]
      · have isName : piece ≠ [] ∧ piece ≠ Path.dot := not_or.mp blank
        have kept : namesOf (piece :: rest) = piece :: namesOf rest := by
          rw [namesOf, List.filter_cons, if_pos (decide_eq_true isName)]
        rw [kept, storeWalkTo, storeWalkTo]
        simp only [blank, if_false, ih, beyondBoth _ _ rest]

/-- Pieces that are no names mean nothing to a database engine. -/
theorem storeWalk_namesOf (tree : FileTree) (links : Nat) (here : Place) (pieces : List Bytes) :
    tree.storeWalk links here pieces = tree.storeWalk links here (namesOf pieces) := by
  induction links generalizing here pieces with
  | zero => exact storeWalkTo_namesOf tree (fun _ _ => rfl) here pieces
  | succ links ih => exact storeWalkTo_namesOf tree ih here pieces

theorem storePlace_congr {path other : Path} (absolute : path.isAbsolute = other.isAbsolute)
    (names : path.names = other.names) : tree.storePlace path = tree.storePlace other := by
  rw [Path.names, Path.names] at names
  rw [storePlace, storePlace, absolute, storeWalk_namesOf, namesOf, names, ← namesOf,
    ← storeWalk_namesOf]

end SchemaMigration.FileTree
