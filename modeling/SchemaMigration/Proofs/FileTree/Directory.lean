import SchemaMigration.Proofs.FileTree.Walk

/-!
# Paths of one directory

Two paths are paths of one directory if a walk goes on from them alike, whatever follows. Then both
name a directory or neither does, and the files in it are found under both.

* `FileTree.stat_eq_directory_iff`: a path names a directory if a walk can go on behind it.
* `FileTree.locate_join`: where a file of a directory is.
* `FileTree.SameDirectory.stat_iff`, `FileTree.SameDirectory.readText_join`: what two paths of one
  directory have in common.
* `FileTree.sameDirectory_lexical`: `..` may be taken off a path where it leads back out of a real
  directory.
-/

namespace SchemaMigration.FileTree

/-! ## Directories and the files in them -/

theorem locate_of_isAbsolute (tree : FileTree) {path : Path} (absolute : path.isAbsolute = true)
    (follow : Bool) :
    tree.locate path follow = if path.bytes.contains 0 then .error .nulInPath
      else tree.walk follow linkLimit [] path.pieces := by
  obtain ⟨rest, bytes⟩ := Path.isAbsolute_iff.mp absolute
  have nonempty : path.bytes ≠ [] := by rw [bytes]; exact List.cons_ne_nil _ _
  rw [locate, if_neg nonempty, absolute, if_pos rfl]

theorem stat_eq_ok_iff {tree : FileTree} {path : Path} {place : Place} {node : Node} :
    tree.stat path = .ok (place, node) ↔ tree.locate path true = .ok (place, some node) := by
  rw [stat]
  cases tree.locate path true with
  | error fault => exact iff_of_false nofun nofun
  | ok found =>
      obtain ⟨there, found⟩ := found
      cases found with
      | none => exact iff_of_false nofun nofun
      | some other =>
          refine ⟨fun reached => ?_, fun reached => ?_⟩ <;> cases reached <;> rfl

/-- An absolute path names a directory if a walk can go on behind it. -/
theorem stat_eq_directory_iff {tree : FileTree} {path : Path} {place : Place}
    (absolute : path.isAbsolute = true) :
    tree.stat path = .ok (place, .directory) ↔ path.bytes.contains 0 = false ∧
      tree.walk true linkLimit [] (path.names ++ [Path.dot]) = .ok (place, some .directory) := by
  rw [← walk_names tree true path goes_dot, stat_eq_ok_iff, locate_of_isAbsolute tree absolute,
    ← walk_eq_directory_iff]
  cases path.bytes.contains 0 with
  | true => exact iff_of_false nofun fun h => absurd h.1 (by decide)
  | false => rw [if_neg Bool.false_ne_true, eq_self_iff_true, true_and]

/-- The name of a file, not the path to one: it is not empty and starts with no separator. -/
def StartsName (name : Bytes) : Prop :=
  ∃ first rest, name = first :: rest ∧ first ≠ Path.separator

theorem StartsName.goes {name : Bytes} (starts : StartsName name) :
    Goes (Path.pieces ⟨name⟩) := by
  obtain ⟨first, rest, rfl, notSeparator⟩ := starts
  have other : (first == Path.separator) = false := beq_eq_false_iff_ne.mpr notSeparator
  rw [Path.pieces_eq, List.splitOn_cons_eq_if_modifyHead, other, if_neg Bool.false_ne_true]
  obtain ⟨piece, pieces, split⟩ :=
    List.exists_cons_of_ne_nil (List.splitOn_ne_nil Path.separator rest)
  rw [split, List.modifyHead_cons]
  exact ⟨_, List.mem_cons_self, List.cons_ne_nil _ _⟩

/-- A name follows a path behind one separator. -/
theorem join_of_startsName {path : Path} {name : Bytes} (absolute : path.isAbsolute = true)
    (starts : StartsName name) :
    ∃ front, path.join ⟨name⟩ = ⟨front ++ Path.separator :: name⟩ ∧
      path.names = Path.names ⟨front⟩ ∧ path.bytes.contains 0 = front.contains 0 := by
  obtain ⟨first, more, rfl, notSeparator⟩ := starts
  have relative : ¬ Path.isAbsolute ⟨first :: more⟩ = true := fun h => by
    obtain ⟨rest, bytes⟩ := Path.isAbsolute_iff.mp h
    exact notSeparator (List.head_eq_of_cons_eq bytes)
  obtain ⟨rest, bytes⟩ := Path.isAbsolute_iff.mp absolute
  have nonempty : path.bytes ≠ [] := by rw [bytes]; exact List.cons_ne_nil _ _
  rw [Path.join, if_neg relative]
  by_cases closed : path.bytes.getLast? = some Path.separator
  · obtain ⟨front, whole⟩ := List.getLast?_eq_some_iff.mp closed
    have same : path = ⟨front ++ [Path.separator]⟩ := by rw [← whole]
    refine ⟨front, ?_, ?_, ?_⟩
    · rw [if_pos (.inr closed), whole, List.append_assoc, List.singleton_append]
    · rw [same, Path.names_append]
      exact List.append_nil _
    · rw [whole, List.contains_eq_any_beq, List.any_append]
      exact (Bool.or_false _).trans (List.contains_eq_any_beq).symm
  · exact ⟨path.bytes, by rw [if_neg (not_or.mpr ⟨nonempty, closed⟩)], rfl, rfl⟩

/-- A file of a directory is found by walking on from the directory. -/
theorem locate_join (tree : FileTree) {path : Path} {name : Bytes}
    (absolute : path.isAbsolute = true) (starts : StartsName name) (follow : Bool) :
    tree.locate (path.join ⟨name⟩) follow =
      if path.bytes.contains 0 || name.contains 0 then .error .nulInPath
        else tree.walk follow linkLimit [] (path.names ++ Path.pieces ⟨name⟩) := by
  obtain ⟨front, join, names, nul⟩ := join_of_startsName absolute starts
  have nulJoined : (path.join ⟨name⟩).bytes.contains 0 =
      (path.bytes.contains 0 || name.contains 0) := by
    rw [join, nul]
    simp [Path.separator]
  rw [locate_of_isAbsolute tree (Path.isAbsolute_join absolute _), nulJoined, join, names,
    ← walk_names tree follow ⟨front⟩ starts.goes, Path.pieces_eq, Path.pieces_eq, Path.pieces_eq,
    List.splitOn_append_cons_self]

/-- Absolute paths of one directory: a walk goes on from them alike. -/
structure SameDirectory (tree : FileTree) (first second : Path) : Prop where
  absolute : first.isAbsolute = true ∧ second.isAbsolute = true
  nul : first.bytes.contains 0 = second.bytes.contains 0
  goesOn : ∀ follow rest, Goes rest → tree.walk follow linkLimit [] (first.names ++ rest) =
    tree.walk follow linkLimit [] (second.names ++ rest)

namespace SameDirectory

variable {tree : FileTree} {first second : Path} (same : tree.SameDirectory first second)
include same

theorem symm : tree.SameDirectory second first where
  absolute := same.absolute.symm
  nul := same.nul.symm
  goesOn follow rest goes := (same.goesOn follow rest goes).symm

theorem stat_iff {place : Place} :
    tree.stat first = .ok (place, .directory) ↔ tree.stat second = .ok (place, .directory) := by
  rw [stat_eq_directory_iff same.absolute.1, stat_eq_directory_iff same.absolute.2, same.nul,
    same.goesOn true _ goes_dot]

theorem readText_join {name : Bytes} (starts : StartsName name) :
    tree.readText (first.join ⟨name⟩) = tree.readText (second.join ⟨name⟩) := by
  rw [readText, readText, stat, stat, locate_join tree same.absolute.1 starts,
    locate_join tree same.absolute.2 starts, same.nul, same.goesOn true _ starts.goes]

end SameDirectory

/-! ## Taking `..` off -/

/-- Whether names lead to a real directory, one that is no link, from the root. -/
def isRealDirectory (tree : FileTree) (names : List Bytes) : Bool :=
  match tree.locate (Path.ofNames true names) false with
  | .ok (_, some .directory) => true
  | _ => false

/-- Each `..` among names that are followed one after the other, behind others, leads back out of a
real directory, or stays at the root. -/
def Retraced (tree : FileTree) : List Bytes → List Bytes → Prop
  | _, [] => True
  | names, name :: rest =>
    (name = Path.dotDot → names = [] ∨ tree.isRealDirectory names = true) ∧
      Retraced tree (Path.climb names name) rest

instance Retraced.decidable (tree : FileTree) :
    (names more : List Bytes) → Decidable (tree.Retraced names more)
  | _, [] => isTrue trivial
  | names, name :: rest =>
    have := Retraced.decidable tree (Path.climb names name) rest
    inferInstanceAs (Decidable
      ((name = Path.dotDot → names = [] ∨ tree.isRealDirectory names = true) ∧
        Retraced tree (Path.climb names name) rest))

variable {tree : FileTree}

/-- What is known of the names that lead to a real directory. -/
theorem of_isRealDirectory {names : List Bytes} (some : names ≠ [])
    (isName : ∀ name ∈ names, Path.IsName name) (real : tree.isRealDirectory names = true) :
    (∀ name ∈ names, (0 : UInt8) ∉ name) ∧
      ∃ place, tree.walk false linkLimit [] names = .ok (place, Option.some .directory) := by
  have absolute : (Path.ofNames true names).isAbsolute = true := Path.isAbsolute_iff.mpr ⟨_, rfl⟩
  rw [isRealDirectory, locate_of_isAbsolute tree absolute] at real
  cases nul : (Path.ofNames true names).bytes.contains 0 with
  | true => rw [nul] at real; cases real
  | false =>
      rw [nul, if_neg Bool.false_ne_true, Path.pieces_ofNames some isName,
        walk_blank false linkLimit names rfl (.inl rfl)] at real
      constructor
      · intro name mem within
        have among : name ∈ (Path.ofNames true names).names :=
          (Path.names_ofNames isName).symm ▸ mem
        have inside := (Path.mem_bytes_iff (by decide) (by decide)).mpr ⟨name, among, within⟩
        rw [← List.contains_iff_mem, nul] at inside
        cases inside
      · split at real
        next place walked => exact ⟨place, walked⟩
        next => cases real

/-- The names that are left lead where the names themselves lead. -/
theorem walk_retraced {start names : List Bytes}
    (isName : ∀ name ∈ start ++ names, Path.IsName name)
    (notUp : ∀ name ∈ start, name ≠ Path.dotDot) (retraced : tree.Retraced start names)
    (follow : Bool) {rest : List Bytes} (goes : Goes rest) :
    tree.walk follow linkLimit [] (start ++ (names ++ rest)) =
      tree.walk follow linkLimit [] (names.foldl Path.climb start ++ rest) := by
  -- `start` holds the names climbed so far.
  induction names generalizing start with
  | nil => rfl
  | cons name names ih =>
      obtain ⟨backOut, further⟩ := retraced
      have goesOn : Goes (names ++ rest) := goes.append names
      rw [List.foldl_cons]
      by_cases up : name = Path.dotDot
      · subst up
        rw [Path.climb, if_pos rfl] at further ⊢
        obtain rfl | ⟨front, last, rfl⟩ := List.eq_nil_or_concat' start
        · rw [List.dropLast_nil] at further ⊢
          rw [← ih (fun n mem => isName n (List.mem_cons_of_mem _ mem)) notUp further]
          exact walk_up follow linkLimit _ rfl
        · rw [List.dropLast_concat] at further ⊢
          have startName : ∀ n ∈ front ++ [last], Path.IsName n := fun n mem =>
            isName n (List.mem_append_left _ mem)
          have lastName := startName last List.mem_concat_self
          have lookedUp : LookedUp last :=
            ⟨lastName.nonempty, lastName.notDot, notUp last List.mem_concat_self⟩
          have some : front ++ [last] ≠ [] :=
            List.append_ne_nil_of_right_ne_nil _ (List.cons_ne_nil _ _)
          obtain ⟨-, place, real⟩ :=
            of_isRealDirectory some startName ((backOut rfl).resolve_left some)
          rw [← ih _ (fun n mem => notUp n (List.mem_append_left _ mem)) further, List.append_assoc,
            List.singleton_append, List.cons_append]
          · exact walk_dotDot lookedUp real follow goesOn
          · intro n mem
            obtain mem | mem := List.mem_append.mp mem
            · exact startName n (List.mem_append_left _ mem)
            · exact isName n (List.mem_append_right _ (List.mem_cons_of_mem _ mem))
      · rw [Path.climb, if_neg up] at further ⊢
        rw [← ih _ _ further, List.cons_append, List.append_assoc, List.singleton_append]
        · intro n mem
          rw [List.append_assoc] at mem
          exact isName n mem
        · intro n mem
          obtain mem | mem := List.mem_append.mp mem
          · exact notUp n mem
          · rw [List.mem_singleton.mp mem]
            exact up

/-- Names that are taken off hold no NUL, so that one that does is left. -/
theorem nul_retraced {start names : List Bytes} (isName : ∀ name ∈ start ++ names, Path.IsName name)
    (retraced : tree.Retraced start names) {name : Bytes} (mem : name ∈ start ++ names)
    (nul : (0 : UInt8) ∈ name) : ∃ left ∈ names.foldl Path.climb start, (0 : UInt8) ∈ left := by
  induction names generalizing start with
  | nil => exact ⟨name, (List.append_nil start) ▸ mem, nul⟩
  | cons next names ih =>
      obtain ⟨backOut, further⟩ := retraced
      rw [List.foldl_cons]
      by_cases up : next = Path.dotDot
      · subst up
        rw [Path.climb, if_pos rfl] at further ⊢
        have isNameLeft : ∀ n ∈ start.dropLast ++ names, Path.IsName n := fun n among => by
          obtain among | among := List.mem_append.mp among
          · exact isName n (List.mem_append_left _ ((List.dropLast_sublist start).subset among))
          · exact isName n (List.mem_append_right _ (List.mem_cons_of_mem _ among))
        refine ih isNameLeft further (List.mem_append_right _ ?_)
        obtain mem | mem := List.mem_append.mp mem
        · have some := List.ne_nil_of_mem mem
          have clean := (of_isRealDirectory some (fun n among =>
            isName n (List.mem_append_left _ among)) ((backOut rfl).resolve_left some)).1
          exact absurd nul (clean name mem)
        · refine (List.mem_cons.mp mem).resolve_left ?_
          rintro rfl
          exact absurd nul (by decide)
      · rw [Path.climb, if_neg up] at further ⊢
        refine ih ?_ further ?_ <;> rw [List.append_assoc, List.singleton_append] <;> assumption

/-- **`..` may be taken off** the names of a path where it leads back out of a real directory. -/
theorem sameDirectory_lexical {path : Path} (absolute : path.isAbsolute = true)
    (retraced : tree.Retraced [] path.names) :
    tree.SameDirectory
      ⟨Path.separator :: (Path.lexical path.names).flatMap (· ++ [Path.separator])⟩ path := by
  have isName : ∀ name ∈ path.names, Path.IsName name := fun _ mem => Path.isName_of_mem_names mem
  have names := Path.names_trailing fun name (mem : name ∈ Path.lexical path.names) =>
    isName name (Path.mem_of_mem_lexical mem)
  refine ⟨⟨Path.isAbsolute_iff.mpr ⟨_, rfl⟩, absolute⟩, ?_, fun follow rest goes => ?_⟩
  · rw [Bool.eq_iff_iff, List.contains_iff_mem, List.contains_iff_mem,
      Path.mem_bytes_iff (by decide) (by decide), Path.mem_bytes_iff (by decide) (by decide), names]
    constructor
    · rintro ⟨name, mem, nul⟩
      exact ⟨name, Path.mem_of_mem_lexical mem, nul⟩
    · rintro ⟨name, mem, nul⟩
      exact nul_retraced isName retraced mem nul
  · rw [names]
    exact (walk_retraced isName (fun _ mem => absurd mem List.not_mem_nil) retraced follow
      goes).symm

end SchemaMigration.FileTree
