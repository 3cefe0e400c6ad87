import Mathlib.Data.List.Basic
import Mathlib.Tactic.Common
import SchemaMigration.FileTree
import SchemaMigration.Proofs.Path.Names

/-!
# Walking along paths

A walk along the pieces of a path either leads to a place, from which whatever follows is walked, or
fails, whatever follows.

* `FileTree.walk_cons`: one piece of a walk.
* `FileTree.leads_or_fails`: a walk is put together of the walks along its parts.
* `FileTree.walk_names`: pieces that are no names change nothing on the way.
* `FileTree.walk_dotDot`: a real directory and the `..` behind it change nothing on the way.
-/

namespace SchemaMigration.FileTree

/-! ## One piece -/

/-- A walk that goes on behind a link, through at most so many links, that one included. -/
def beyond (tree : FileTree) (follow : Bool) :
    Nat → Place → List Bytes → Except IoFault (Place × Option Node)
  | 0, _, _ => .error .tooManyLinks
  | links + 1, here, pieces => tree.walk follow links here pieces

theorem walk_eq (tree : FileTree) (follow : Bool) (links : Nat) :
    tree.walk follow links = tree.walkTo follow (tree.beyond follow links) := by
  cases links <;> rfl

theorem walk_nil (tree : FileTree) (follow : Bool) (links : Nat) (here : Place) :
    tree.walk follow links here [] = .ok (here, tree.node? here) := by
  rw [walk_eq, walkTo]

/-- A name that a walk looks up: not one that stands for a directory it has been to. -/
structure LookedUp (piece : Bytes) : Prop where
  nonempty : piece ≠ []
  notDot : piece ≠ Path.dot
  notUp : piece ≠ Path.dotDot

section Piece

variable {tree : FileTree} {here : Place} {piece : Bytes}
variable (follow : Bool) (links : Nat) (rest : List Bytes)

theorem walk_notDirectory (inside : tree.node? here ≠ some .directory) :
    tree.walk follow links here (piece :: rest) = .error .notDirectory := by
  rw [walk_eq, walkTo, if_pos inside]

theorem walk_blank (directory : tree.node? here = some .directory)
    (blank : piece = [] ∨ piece = Path.dot) :
    tree.walk follow links here (piece :: rest) = tree.walk follow links here rest := by
  rw [walk_eq, walkTo, if_neg (not_not_intro directory), if_pos blank]

theorem walk_up (directory : tree.node? here = some .directory) :
    tree.walk follow links here (Path.dotDot :: rest) =
      tree.walk follow links here.dropLast rest := by
  rw [walk_eq, walkTo, if_neg (not_not_intro directory), if_neg (by decide), if_pos rfl]

theorem walk_tooLong (directory : tree.node? here = some .directory) (lookedUp : LookedUp piece)
    (long : nameLimit < piece.length) :
    tree.walk follow links here (piece :: rest) = .error .nameTooLong := by
  rw [walk_eq, walkTo, if_neg (not_not_intro directory),
    if_neg (not_or.mpr ⟨lookedUp.nonempty, lookedUp.notDot⟩), if_neg lookedUp.notUp, if_pos long]

section LookUp

variable (directory : tree.node? here = some .directory) (lookedUp : LookedUp piece)
  (short : ¬ nameLimit < piece.length)
include directory lookedUp short

theorem walk_missing (missing : tree.node? (here ++ [piece]) = none) :
    tree.walk follow links here (piece :: rest) =
      if rest.all (· = []) then .ok (here ++ [piece], none) else .error .notFound := by
  rw [walk_eq, walkTo, if_neg (not_not_intro directory),
    if_neg (not_or.mpr ⟨lookedUp.nonempty, lookedUp.notDot⟩), if_neg lookedUp.notUp, if_neg short]
  simp only [missing]

theorem walk_link {target : Path} (link : tree.node? (here ++ [piece]) = some (.link target)) :
    tree.walk follow links here (piece :: rest) =
      if rest = [] ∧ !follow then .ok (here ++ [piece], some (.link target))
        else tree.beyond follow links (if target.isAbsolute then [] else here)
          (target.pieces ++ rest) := by
  rw [walk_eq, walkTo, if_neg (not_not_intro directory),
    if_neg (not_or.mpr ⟨lookedUp.nonempty, lookedUp.notDot⟩), if_neg lookedUp.notUp, if_neg short]
  simp only [link]

theorem walk_further {node : Node} (there : tree.node? (here ++ [piece]) = some node)
    (noLink : ∀ target, node ≠ .link target) :
    tree.walk follow links here (piece :: rest) =
      tree.walk follow links (here ++ [piece]) rest := by
  rw [walk_eq, walkTo, if_neg (not_not_intro directory),
    if_neg (not_or.mpr ⟨lookedUp.nonempty, lookedUp.notDot⟩), if_neg lookedUp.notUp, if_neg short]
  cases node with
  | directory => simp only [there]
  | file content => simp only [there]
  | link target => exact absurd rfl (noLink target)

end LookUp

end Piece

/-- What the first piece of a walk does. -/
inductive FirstPiece (tree : FileTree) (here : Place) (piece : Bytes) : Prop
  | outside (inside : tree.node? here ≠ some .directory)
  | blank (directory : tree.node? here = some .directory) (blank : piece = [] ∨ piece = Path.dot)
  | up (directory : tree.node? here = some .directory) (up : piece = Path.dotDot)
  | tooLong (directory : tree.node? here = some .directory) (lookedUp : LookedUp piece)
      (long : nameLimit < piece.length)
  | missing (directory : tree.node? here = some .directory) (lookedUp : LookedUp piece)
      (short : ¬ nameLimit < piece.length) (missing : tree.node? (here ++ [piece]) = none)
  | link (directory : tree.node? here = some .directory) (lookedUp : LookedUp piece)
      (short : ¬ nameLimit < piece.length) (target : Path)
      (link : tree.node? (here ++ [piece]) = some (.link target))
  | further (directory : tree.node? here = some .directory) (lookedUp : LookedUp piece)
      (short : ¬ nameLimit < piece.length) (node : Node)
      (there : tree.node? (here ++ [piece]) = some node) (noLink : ∀ target, node ≠ .link target)

theorem firstPiece (tree : FileTree) (here : Place) (piece : Bytes) :
    FirstPiece tree here piece := by
  by_cases directory : tree.node? here = some .directory
  · by_cases blank : piece = [] ∨ piece = Path.dot
    · exact .blank directory blank
    by_cases up : piece = Path.dotDot
    · exact .up directory up
    have lookedUp : LookedUp piece := ⟨(not_or.mp blank).1, (not_or.mp blank).2, up⟩
    by_cases long : nameLimit < piece.length
    · exact .tooLong directory lookedUp long
    cases there : tree.node? (here ++ [piece]) with
    | none => exact .missing directory lookedUp long there
    | some node =>
        cases node with
        | directory => exact .further directory lookedUp long _ there fun _ => nofun
        | file content => exact .further directory lookedUp long _ there fun _ => nofun
        | link target => exact .link directory lookedUp long target there
  · exact .outside directory

/-- A walk as a relation, one constructor for each way in which it goes on or stops. -/
inductive Walks (tree : FileTree) (follow : Bool) :
    Nat → Place → List Bytes → Except IoFault (Place × Option Node) → Prop
  | arrived {links : Nat} {here : Place} :
    Walks tree follow links here [] (.ok (here, tree.node? here))
  | outside {links : Nat} {here : Place} {piece : Bytes} {rest : List Bytes}
    (inside : tree.node? here ≠ some .directory) :
    Walks tree follow links here (piece :: rest) (.error .notDirectory)
  | blank {links : Nat} {here : Place} {piece : Bytes} {rest : List Bytes}
    {found : Except IoFault (Place × Option Node)} (directory : tree.node? here = some .directory)
    (blank : piece = [] ∨ piece = Path.dot) (walks : Walks tree follow links here rest found) :
    Walks tree follow links here (piece :: rest) found
  | up {links : Nat} {here : Place} {rest : List Bytes}
    {found : Except IoFault (Place × Option Node)} (directory : tree.node? here = some .directory)
    (walks : Walks tree follow links here.dropLast rest found) :
    Walks tree follow links here (Path.dotDot :: rest) found
  | tooLong {links : Nat} {here : Place} {piece : Bytes} {rest : List Bytes}
    (directory : tree.node? here = some .directory) (lookedUp : LookedUp piece)
    (long : nameLimit < piece.length) :
    Walks tree follow links here (piece :: rest) (.error .nameTooLong)
  | missing {links : Nat} {here : Place} {piece : Bytes} {rest : List Bytes}
    (directory : tree.node? here = some .directory) (lookedUp : LookedUp piece)
    (short : ¬ nameLimit < piece.length) (missing : tree.node? (here ++ [piece]) = none) :
    Walks tree follow links here (piece :: rest)
      (if rest.all (· = []) then .ok (here ++ [piece], none) else .error .notFound)
  | linkItself {links : Nat} {here : Place} {piece : Bytes} {target : Path}
    (directory : tree.node? here = some .directory) (lookedUp : LookedUp piece)
    (short : ¬ nameLimit < piece.length)
    (link : tree.node? (here ++ [piece]) = some (.link target)) (last : follow = false) :
    Walks tree follow links here [piece] (.ok (here ++ [piece], some (.link target)))
  | tooManyLinks {here : Place} {piece : Bytes} {rest : List Bytes} {target : Path}
    (directory : tree.node? here = some .directory) (lookedUp : LookedUp piece)
    (short : ¬ nameLimit < piece.length)
    (link : tree.node? (here ++ [piece]) = some (.link target))
    (notLast : ¬ (rest = [] ∧ !follow)) :
    Walks tree follow 0 here (piece :: rest) (.error .tooManyLinks)
  | through {links : Nat} {here : Place} {piece : Bytes} {rest : List Bytes} {target : Path}
    {found : Except IoFault (Place × Option Node)}
    (directory : tree.node? here = some .directory) (lookedUp : LookedUp piece)
    (short : ¬ nameLimit < piece.length)
    (link : tree.node? (here ++ [piece]) = some (.link target))
    (notLast : ¬ (rest = [] ∧ !follow))
    (walks : Walks tree follow links (if target.isAbsolute then [] else here)
      (target.pieces ++ rest) found) :
    Walks tree follow (links + 1) here (piece :: rest) found
  | further {links : Nat} {here : Place} {piece : Bytes} {rest : List Bytes} {node : Node}
    {found : Except IoFault (Place × Option Node)}
    (directory : tree.node? here = some .directory) (lookedUp : LookedUp piece)
    (short : ¬ nameLimit < piece.length) (there : tree.node? (here ++ [piece]) = some node)
    (noLink : ∀ target, node ≠ .link target)
    (walks : Walks tree follow links (here ++ [piece]) rest found) :
    Walks tree follow links here (piece :: rest) found

/-- A walk is one of these if walks behind links are. -/
theorem walks_of_beyond {tree : FileTree} {follow : Bool} {links : Nat}
    (behind : ∀ {here : Place} {piece : Bytes} {rest : List Bytes} {target : Path},
      tree.node? here = some .directory → LookedUp piece → ¬ nameLimit < piece.length →
      tree.node? (here ++ [piece]) = some (.link target) → ¬ (rest = [] ∧ !follow) →
      Walks tree follow links here (piece :: rest) (tree.beyond follow links
        (if target.isAbsolute then [] else here) (target.pieces ++ rest)))
    (here : Place) (pieces : List Bytes) :
    Walks tree follow links here pieces (tree.walk follow links here pieces) := by
  induction pieces generalizing here with
  | nil => exact walk_nil tree follow links here ▸ .arrived
  | cons piece rest ih =>
      cases tree.firstPiece here piece with
      | outside inside => exact walk_notDirectory follow links rest inside ▸ .outside inside
      | blank directory blank =>
          exact walk_blank follow links rest directory blank ▸ .blank directory blank (ih here)
      | up directory up =>
          subst up
          exact walk_up follow links rest directory ▸ .up directory (ih _)
      | tooLong directory lookedUp long =>
          exact walk_tooLong follow links rest directory lookedUp long
            ▸ .tooLong directory lookedUp long
      | missing directory lookedUp short missing =>
          exact walk_missing follow links rest directory lookedUp short missing
            ▸ .missing directory lookedUp short missing
      | link directory lookedUp short target link =>
          rw [walk_link follow links rest directory lookedUp short link]
          by_cases last : rest = [] ∧ !follow
          · rw [if_pos last]
            obtain ⟨rfl, unfollowed⟩ := last
            rw [Bool.not_eq_true'] at unfollowed
            exact .linkItself directory lookedUp short link unfollowed
          · rw [if_neg last]
            exact behind directory lookedUp short link last
      | further directory lookedUp short node there noLink =>
          exact walk_further follow links rest directory lookedUp short there noLink
            ▸ .further directory lookedUp short there noLink (ih _)

/-- Every walk is one of these. -/
theorem walks (tree : FileTree) (follow : Bool) (links : Nat) (here : Place)
    (pieces : List Bytes) :
    Walks tree follow links here pieces (tree.walk follow links here pieces) := by
  induction links generalizing here pieces with
  | zero =>
      exact walks_of_beyond (fun directory lookedUp short link notLast =>
        .tooManyLinks directory lookedUp short link notLast) here pieces
  | succ links ih =>
      exact walks_of_beyond (fun directory lookedUp short link notLast =>
        .through directory lookedUp short link notLast (ih _ _)) here pieces

/-! ## Parts of a walk -/

/-- Pieces on which a walk goes on: one of them is not empty. -/
def Goes (pieces : List Bytes) : Prop :=
  ∃ piece ∈ pieces, piece ≠ []

theorem Goes.append {pieces : List Bytes} (goes : Goes pieces) (before : List Bytes) :
    Goes (before ++ pieces) :=
  let ⟨piece, mem, nonempty⟩ := goes
  ⟨piece, List.mem_append_right _ mem, nonempty⟩

theorem Goes.ne_nil {pieces : List Bytes} (goes : Goes pieces) : pieces ≠ [] := by
  rintro rfl
  obtain ⟨piece, mem, -⟩ := goes
  cases mem

theorem Goes.all_eq_false {pieces : List Bytes} (goes : Goes pieces) :
    pieces.all (· = []) = false := by
  obtain ⟨piece, mem, nonempty⟩ := goes
  exact List.all_eq_false.mpr ⟨piece, mem, by simpa using nonempty⟩

/-- A way to walk: on links at the end or not, from a place, along pieces. -/
abbrev Walker :=
  Bool → Place → List Bytes → Except IoFault (Place × Option Node)

section Parts

variable (tree : FileTree) (walker : Walker) (here : Place) (pieces : List Bytes)

/-- Pieces lead to a place: they end there, and what goes on behind them is walked from there,
through the links that are left. -/
structure Leads (left : Nat) (there : Place) : Prop where
  goesOn : ∀ follow rest, Goes rest →
    walker follow here (pieces ++ rest) = tree.walk follow left there rest
  ends : walker true here pieces = .ok (there, tree.node? there)

/-- Pieces lead nowhere: nothing is at their end, and what goes on behind them fails. -/
structure Fails (fault : IoFault) : Prop where
  goesOn : ∀ follow rest, Goes rest → walker follow here (pieces ++ rest) = .error fault
  ends : ∀ place node, walker true here pieces ≠ .ok (place, some node)

/-- Pieces lead to one place or nowhere, whatever follows them. -/
def Settles : Prop :=
  (∃ left there, tree.Leads walker here pieces left there) ∨
    ∃ fault, Fails walker here pieces fault

end Parts

/-- What is walked alike, whatever follows, settles alike. -/
theorem Settles.congr {tree : FileTree} {walker walker' : Walker} {here here' : Place}
    {pieces pieces' : List Bytes} (settles : tree.Settles walker here pieces)
    (goesOn : ∀ follow rest, Goes rest →
      walker' follow here' (pieces' ++ rest) = walker follow here (pieces ++ rest))
    (ends : walker' true here' pieces' = walker true here pieces) :
    tree.Settles walker' here' pieces' := by
  obtain ⟨left, there, leads⟩ | ⟨fault, fails⟩ := settles
  · exact .inl ⟨left, there, fun follow rest goes =>
      (goesOn follow rest goes).trans (leads.goesOn follow rest goes), ends.trans leads.ends⟩
  · exact .inr ⟨fault, fun follow rest goes =>
      (goesOn follow rest goes).trans (fails.goesOn follow rest goes), fun place node reached =>
        fails.ends place node (ends.symm.trans reached)⟩

/-- Walks settle if those behind a link do. -/
theorem settles_of_beyond {tree : FileTree} {links : Nat}
    (behind : ∀ start pieces, tree.Settles (tree.beyond · links) start pieces)
    (here : Place) (pieces : List Bytes) : tree.Settles (tree.walk · links) here pieces := by
  induction pieces generalizing here with
  | nil => exact .inl ⟨links, here, fun _ _ _ => rfl, walk_nil tree true links here⟩
  | cons piece pieces ih =>
      -- Where the first piece only moves the walk, the rest is walked from the next place.
      have moved : ∀ next : Place, (∀ follow rest, tree.walk follow links here (piece :: rest) =
            tree.walk follow links next rest) →
          tree.Settles (tree.walk · links) here (piece :: pieces) := fun next step =>
        (ih next).congr (fun follow rest _ => step follow _) (step true pieces)
      cases tree.firstPiece here piece with
      | outside inside =>
          have stops : ∀ follow rest, tree.walk follow links here (piece :: rest) =
              .error .notDirectory := fun follow rest => walk_notDirectory follow links rest inside
          exact .inr ⟨_, fun follow rest _ => stops follow _, fun _ _ reached => by
            rw [stops true pieces] at reached
            cases reached⟩
      | blank directory blank =>
          exact moved here fun follow rest => walk_blank follow links rest directory blank
      | up directory up =>
          subst up
          exact moved _ fun follow rest => walk_up follow links rest directory
      | tooLong directory lookedUp long =>
          have stops : ∀ follow rest, tree.walk follow links here (piece :: rest) =
              .error .nameTooLong := fun follow rest =>
            walk_tooLong follow links rest directory lookedUp long
          exact .inr ⟨_, fun follow rest _ => stops follow _, fun _ _ reached => by
            rw [stops true pieces] at reached
            cases reached⟩
      | missing directory lookedUp short missing =>
          have stops : ∀ follow rest, tree.walk follow links here (piece :: rest) =
              if rest.all (· = []) then .ok (here ++ [piece], none) else .error .notFound :=
            fun follow rest => walk_missing follow links rest directory lookedUp short missing
          refine .inr ⟨.notFound, fun follow rest goes => ?_, fun _ _ reached => ?_⟩
          · rw [List.cons_append, stops, (goes.append pieces).all_eq_false,
              if_neg Bool.false_ne_true]
          · rw [stops] at reached
            split_ifs at reached
            cases reached
      | link directory lookedUp short target link =>
          have step : ∀ follow rest, ¬ (rest = [] ∧ !follow) →
              tree.walk follow links here (piece :: rest) =
                tree.beyond follow links (if target.isAbsolute then [] else here)
                    (target.pieces ++ rest) := fun follow rest notLast => by
            rw [walk_link follow links rest directory lookedUp short link, if_neg notLast]
          refine (behind _ (target.pieces ++ pieces)).congr (fun follow rest goes => ?_)
            (step true pieces fun last => absurd last.2 (by decide))
          rw [List.cons_append, step follow _ fun last => (goes.append pieces).ne_nil last.1,
            List.append_assoc]
      | further directory lookedUp short node there noLink =>
          exact moved _ fun follow rest =>
            walk_further follow links rest directory lookedUp short there noLink

/-- **Every walk settles**: its pieces lead to one place or nowhere, whatever follows them. -/
theorem settles (tree : FileTree) (links : Nat) (here : Place) (pieces : List Bytes) :
    tree.Settles (tree.walk · links) here pieces := by
  induction links generalizing here pieces with
  | zero =>
      refine settles_of_beyond (fun start pieces => .inr ⟨.tooManyLinks, fun _ _ _ => rfl, ?_⟩)
        here pieces
      intro place node reached
      cases reached
  | succ links further =>
      exact settles_of_beyond (fun start pieces => further start pieces) here pieces

theorem goes_dot : Goes [Path.dot] :=
  ⟨Path.dot, List.mem_cons_self, by decide⟩

/-- A walk ends in a directory if it can go on there. -/
theorem walk_eq_directory_iff {tree : FileTree} {links : Nat} {here place : Place}
    {pieces : List Bytes} :
    tree.walk true links here pieces = .ok (place, some .directory) ↔
      tree.walk true links here (pieces ++ [Path.dot]) = .ok (place, some .directory) := by
  obtain ⟨left, there, leads⟩ | ⟨fault, fails⟩ := tree.settles links here pieces
  · have ends : tree.walk true links here pieces = _ := leads.ends
    have goesOn : tree.walk true links here (pieces ++ [Path.dot]) = _ :=
      leads.goesOn true _ goes_dot
    rw [ends, goesOn]
    by_cases directory : tree.node? there = some .directory
    · rw [walk_blank true left [] directory (.inr rfl), walk_nil]
    · rw [walk_notDirectory true left [] directory]
      refine iff_of_false (fun reached => directory ?_) nofun
      exact (Prod.mk.inj (Except.ok.inj reached)).2
  · have goesOn : tree.walk true links here (pieces ++ [Path.dot]) = _ :=
      fails.goesOn true _ goes_dot
    rw [goesOn]
    exact iff_of_false (fails.ends place .directory) nofun

/-- What is walked alike from everywhere is walked alike behind anything. -/
theorem walk_append_congr {tree : FileTree} {follow : Bool} {pieces pieces' : List Bytes}
    (goes : Goes pieces) (goes' : Goes pieces')
    (alike : ∀ links here, tree.walk follow links here pieces = tree.walk follow links here pieces')
    (links : Nat) (here : Place) (before : List Bytes) :
    tree.walk follow links here (before ++ pieces) =
      tree.walk follow links here (before ++ pieces') := by
  obtain ⟨left, there, leads⟩ | ⟨fault, fails⟩ := tree.settles links here before
  · exact (leads.goesOn follow _ goes).trans
      ((alike left there).trans (leads.goesOn follow _ goes').symm)
  · exact (fails.goesOn follow _ goes).trans (fails.goesOn follow _ goes').symm

/-! ## What changes nothing -/

theorem walk_skip (tree : FileTree) (follow : Bool) {piece : Bytes} {rest : List Bytes}
    (goes : Goes rest) (blank : piece = [] ∨ piece = Path.dot) (links : Nat) (here : Place) :
    tree.walk follow links here (piece :: rest) = tree.walk follow links here rest := by
  by_cases directory : tree.node? here = some .directory
  · exact walk_blank follow links rest directory blank
  · obtain ⟨next, rest, rfl⟩ := List.exists_cons_of_ne_nil goes.ne_nil
    rw [walk_notDirectory follow links _ directory, walk_notDirectory follow links _ directory]

/-- A walk along a path that goes on behind it is a walk along its names. -/
theorem walk_names (tree : FileTree) (follow : Bool) (path : Path) {rest : List Bytes}
    (goes : Goes rest) (links : Nat) (here : Place) :
    tree.walk follow links here (path.pieces ++ rest) =
      tree.walk follow links here (path.names ++ rest) := by
  rw [Path.names]
  induction path.pieces generalizing links here with
  | nil => rfl
  | cons piece pieces ih =>
      by_cases blank : piece = [] ∨ piece = Path.dot
      · rw [List.filter_cons_of_neg (by simpa [imp_iff_not_or] using blank), List.cons_append,
          walk_skip tree follow (goes.append pieces) blank, ih]
      · have isName : piece ≠ [] ∧ piece ≠ Path.dot := not_or.mp blank
        rw [List.filter_cons, if_pos (decide_eq_true isName)]
        exact walk_append_congr (goes.append _) (goes.append _) ih links here [piece]

/-- **A real directory and the `..` behind it change nothing.** The directory must be no link: `..`
behind a link is the parent of what the link stands for. -/
theorem walk_dotDot {tree : FileTree} {links : Nat} {here place : Place} {front : List Bytes}
    {name : Bytes} (lookedUp : LookedUp name)
    (real : tree.walk false links here (front ++ [name]) = .ok (place, some .directory))
    (follow : Bool) {rest : List Bytes} (goes : Goes rest) :
    tree.walk follow links here (front ++ name :: Path.dotDot :: rest) =
      tree.walk follow links here (front ++ rest) := by
  have named : Goes [name] := ⟨name, List.mem_cons_self, lookedUp.nonempty⟩
  have goesBack : Goes (name :: Path.dotDot :: rest) := goes.append [name, Path.dotDot]
  obtain ⟨left, there, leads⟩ | ⟨fault, fails⟩ := tree.settles links here front
  · have last := (leads.goesOn false _ named).symm.trans real
    refine (leads.goesOn follow _ goesBack).trans ((?_ : _ = _).trans
      (leads.goesOn follow _ goes).symm)
    cases tree.firstPiece there name with
    | outside inside =>
        rw [walk_notDirectory false left _ inside] at last
        cases last
    | blank directory blank => exact absurd blank (not_or.mpr ⟨lookedUp.nonempty, lookedUp.notDot⟩)
    | up directory up => exact absurd up lookedUp.notUp
    | tooLong directory lookedUp long =>
        rw [walk_tooLong false left _ directory lookedUp long] at last
        cases last
    | missing directory lookedUp short missing =>
        rw [walk_missing false left _ directory lookedUp short missing] at last
        cases last
    | link directory lookedUp short target link =>
        rw [walk_link false left _ directory lookedUp short link, if_pos ⟨rfl, rfl⟩] at last
        cases last
    | further directory lookedUp short node entry noLink =>
        rw [walk_further false left _ directory lookedUp short entry noLink, walk_nil] at last
        obtain ⟨rfl, isDirectory⟩ := Prod.mk.inj (Except.ok.inj last)
        rw [walk_further follow left _ directory lookedUp short entry noLink,
          walk_up follow left rest isDirectory, List.dropLast_concat]
  · have last := (fails.goesOn false _ named).symm.trans real
    cases last

end SchemaMigration.FileTree
