import Mathlib.Data.List.Basic
import Mathlib.Tactic.Common
import SchemaMigration.Path
import SchemaMigration.Proofs.Text.Form

/-!
# The names of a path

* `Path.names_append`, `Path.names_ofNames`: what the names of a path put together are.
* `Path.isAbsolute_join`: a path seen from an absolute one is absolute.
* `Path.IsText`: paths that are UTF-8, and that their names are.
* `Path.lexical`: the names that are left when each `..` takes off the name before it.
-/

namespace SchemaMigration.Path

/-! ## Names -/

/-- What a path goes through: something, other than the directory it is in, and in one piece. -/
structure IsName (name : Bytes) : Prop where
  nonempty : name ≠ []
  notDot : name ≠ dot
  whole : separator ∉ name

instance (name : Bytes) : Decidable (IsName name) :=
  decidable_of_iff (name ≠ [] ∧ name ≠ dot ∧ separator ∉ name)
    ⟨fun ⟨nonempty, notDot, whole⟩ => ⟨nonempty, notDot, whole⟩,
      fun isName => ⟨isName.nonempty, isName.notDot, isName.whole⟩⟩

theorem pieces_eq (path : Path) : path.pieces = path.bytes.splitOn separator :=
  Form.splitOn_eq_splitOnP _ _

theorem isName_of_mem_names {path : Path} {name : Bytes} (mem : name ∈ path.names) :
    IsName name := by
  obtain ⟨piece, kept⟩ := List.mem_filter.mp mem
  obtain ⟨nonempty, notDot⟩ := of_decide_eq_true kept
  refine ⟨nonempty, notDot, fun within => ?_⟩
  have other := Form.not_separates_of_mem_splitOn piece separator within
  rw [beq_self_eq_true] at other
  cases other

theorem names_of_isName {name : Bytes} (isName : IsName name) : names ⟨name⟩ = [name] := by
  rw [names, pieces_eq, List.splitOn_eq_singleton isName.whole]
  exact List.filter_cons_of_pos (decide_eq_true ⟨isName.nonempty, isName.notDot⟩)

/-- The names of a path that is split at one of its separators. -/
theorem names_append (before after : Bytes) :
    names ⟨before ++ separator :: after⟩ = names ⟨before⟩ ++ names ⟨after⟩ := by
  simp only [names, pieces_eq, List.splitOn_append_cons_self, List.filter_append]

theorem names_separator (after : Bytes) : names ⟨separator :: after⟩ = names ⟨after⟩ :=
  names_append [] after

theorem names_intercalate {ns : List Bytes} (all : ∀ name ∈ ns, IsName name) :
    names ⟨[separator].intercalate ns⟩ = ns := by
  induction ns with
  | nil => rfl
  | cons name ns ih =>
      have tail := ih fun name mem => all name (List.mem_cons_of_mem _ mem)
      cases ns with
      | nil =>
          rw [List.intercalate_singleton]
          exact names_of_isName (all name List.mem_cons_self)
      | cons next ns =>
          rw [List.intercalate_cons_cons, List.append_assoc, List.singleton_append, names_append,
            tail, names_of_isName (all name List.mem_cons_self), List.singleton_append]

/-- An absolute path goes through the names that it was made of. -/
theorem names_ofNames {ns : List Bytes} (all : ∀ name ∈ ns, IsName name) :
    (ofNames true ns).names = ns :=
  (names_separator _).trans (names_intercalate all)

/-- The pieces of a path made of names: an empty one in front. -/
theorem pieces_ofNames {ns : List Bytes} (some : ns ≠ []) (all : ∀ name ∈ ns, IsName name) :
    (ofNames true ns).pieces = [] :: ns := by
  have split := List.splitOn_intercalate separator (fun name mem => (all name mem).whole) some
  rw [pieces_eq, ofNames, if_pos rfl, List.singleton_append, List.splitOn_cons_eq_if_modifyHead,
    beq_self_eq_true, if_pos rfl, split]

/-- A slash before each name is a slash between each two of them and one in front. -/
theorem bytes_ofNames {ns : List Bytes} (some : ns ≠ []) :
    (ofNames true ns).bytes = ns.flatMap (separator :: ·) := by
  change separator :: [separator].intercalate ns = _
  induction ns with
  | nil => exact absurd rfl some
  | cons name ns ih =>
      cases ns with
      | nil => rw [List.intercalate_singleton, List.flatMap_singleton]
      | cons next ns =>
          rw [List.intercalate_cons_cons, List.flatMap_cons, ← ih (List.cons_ne_nil _ _),
            List.append_assoc]
          rfl

/-- The names of a path that is written with a slash behind each of them. -/
theorem names_trailing {ns : List Bytes} (all : ∀ name ∈ ns, IsName name) :
    names ⟨separator :: ns.flatMap (· ++ [separator])⟩ = ns := by
  rw [names_separator]
  induction ns with
  | nil => rfl
  | cons name ns ih =>
      rw [List.flatMap_cons, List.append_assoc, List.singleton_append, names_append,
        names_of_isName (all name List.mem_cons_self),
        ih fun name mem => all name (List.mem_cons_of_mem _ mem), List.singleton_append]

/-- A byte that is neither a separator nor a dot is in a path if it is in a name. -/
theorem mem_bytes_iff {path : Path} {byte : UInt8} (notSeparator : byte ≠ separator)
    (notDot : byte ∉ dot) : byte ∈ path.bytes ↔ ∃ name ∈ path.names, byte ∈ name := by
  have split : ∀ bytes : Bytes,
      byte ∈ bytes ↔ ∃ piece ∈ bytes.splitOn separator, byte ∈ piece := fun bytes => by
    induction bytes with
    | nil => exact iff_of_false List.not_mem_nil (by rintro ⟨piece, mem, within⟩; simp_all)
    | cons first bytes ih =>
        rw [List.splitOn_cons_eq_if_modifyHead, List.mem_cons, ih]
        obtain ⟨piece, pieces, pieced⟩ :=
          List.exists_cons_of_ne_nil (List.splitOn_ne_nil separator bytes)
        by_cases same : first = separator
        · subst same
          simp [notSeparator]
        · simp [pieced, same, or_assoc]
  rw [split, names, pieces_eq]
  refine exists_congr fun piece => and_congr_left fun within => ?_
  rw [List.mem_filter, decide_eq_true_eq]
  refine (and_iff_left ⟨?_, ?_⟩).symm
  · rintro rfl
    cases within
  · rintro rfl
    exact notDot within

/-! ## Absolute paths -/

theorem isAbsolute_iff {path : Path} :
    path.isAbsolute = true ↔ ∃ rest, path.bytes = separator :: rest := by
  rw [isAbsolute, beq_iff_eq, List.head?_eq_some_iff]

/-- A path seen from an absolute one is absolute, whether or not it is so by itself. -/
theorem isAbsolute_join {base : Path} (absolute : base.isAbsolute = true) (tail : Path) :
    (base.join tail).isAbsolute = true := by
  obtain ⟨rest, bytes⟩ := isAbsolute_iff.mp absolute
  rw [join]
  split_ifs with alone
  · exact alone
  · exact isAbsolute_iff.mpr ⟨rest ++ tail.bytes, congrArg (· ++ tail.bytes) bytes⟩
  · exact isAbsolute_iff.mpr
      ⟨rest ++ separator :: tail.bytes, congrArg (· ++ separator :: tail.bytes) bytes⟩

/-! ## Paths that are text -/

/-- A path that is UTF-8. -/
def IsText (path : Path) : Prop :=
  ∃ text, path = ofString text

theorem IsText.join {base tail : Path} (baseText : base.IsText) (tailText : tail.IsText) :
    (base.join tail).IsText := by
  obtain ⟨b, rfl⟩ := baseText
  obtain ⟨t, rfl⟩ := tailText
  rw [Path.join]
  split_ifs
  · exact ⟨t, rfl⟩
  · exact ⟨b ++ t, congrArg mk (Bytes.ofString_append b t).symm⟩
  · refine ⟨b ++ ("/" ++ t), congrArg mk ?_⟩
    rw [Bytes.ofString_append, Bytes.ofString_append]
    rfl

/-- The separator is part of no other character. -/
theorem eq_of_separator_mem {c : Char} (mem : separator ∈ String.utf8EncodeChar c) : c = '/' := by
  refine Char.toNat_inj.mp ?_
  simp only [String.utf8EncodeChar, separator] at mem
  split_ifs at mem <;>
    simp only [List.mem_cons, List.not_mem_nil, or_false, ← UInt8.toNat_inj, UInt8.toNat_ofNat',
      UInt8.reduceToNat, Char.toNat_val] at mem <;>
    simp only [Char.toNat_val, Char.reduceToNat] at * <;>
    omega

theorem splitOn_append_of_not_mem {α : Type} [BEq α] [LawfulBEq α] {x : α} {before : List α}
    (absent : x ∉ before) (after : List α) :
    (before ++ after).splitOn x = (after.splitOn x).modifyHead (before ++ ·) := by
  induction before with
  | nil => exact (congrFun List.modifyHead_id _).symm
  | cons y before ih =>
      have other : (y == x) = false :=
        beq_eq_false_iff_ne.mpr fun h => absent (h ▸ List.mem_cons_self)
      rw [List.cons_append, List.splitOn_cons_eq_if_modifyHead, other, if_neg Bool.false_ne_true,
        ih fun mem => absent (List.mem_cons_of_mem _ mem), List.modifyHead_modifyHead]
      rfl

/-- Splitting the bytes of a text is splitting the text. -/
theorem splitOn_flatMap (cs : List Char) :
    (cs.flatMap String.utf8EncodeChar).splitOn separator =
      (cs.splitOn '/').map fun piece => piece.flatMap String.utf8EncodeChar := by
  induction cs with
  | nil => rfl
  | cons c cs ih =>
      rw [List.flatMap_cons, List.splitOn_cons_eq_if_modifyHead]
      by_cases slash : c = '/'
      · subst slash
        have bytes : String.utf8EncodeChar '/' = [] ++ [separator] := rfl
        rw [bytes, List.append_assoc, List.singleton_append, List.splitOn_append_cons_self, ih]
        rfl
      · rw [splitOn_append_of_not_mem fun mem => slash (eq_of_separator_mem mem), ih,
          if_neg (by rwa [beq_iff_eq])]
        cases pieces : cs.splitOn '/' with
        | nil => exact absurd pieces (List.splitOn_ne_nil _ _)
        | cons first more => rfl

/-- The names of a path that is text are texts. -/
theorem IsText.names {path : Path} (isText : path.IsText) :
    ∃ texts : List String, path.names = texts.map Bytes.ofString := by
  obtain ⟨text, rfl⟩ := isText
  refine ⟨((text.toList.splitOn '/').map String.ofList).filter fun piece =>
    Bytes.ofString piece ≠ [] ∧ Bytes.ofString piece ≠ dot, ?_⟩
  rw [Path.names, pieces_eq, ofString, Bytes.ofString, splitOn_flatMap, List.filter_map,
    List.filter_map, List.map_map]
  simp only [Function.comp_def, Bytes.ofString_ofList]

theorem isText_ofNames (texts : List String) :
    (ofNames true (texts.map Bytes.ofString)).IsText := by
  refine ⟨"/" ++ "/".intercalate texts, congrArg mk ?_⟩
  rw [Bytes.ofString_append, Bytes.ofString_intercalate]
  rfl

/-! ## Lexical paths -/

/-- Follows one more name: `..` goes back to where the last name was followed, and stays at the
root. -/
def climb (names : List Bytes) (name : Bytes) : List Bytes :=
  if name = dotDot then names.dropLast else names ++ [name]

/-- The names that are left when each `..` takes off the name before it. -/
def lexical (names : List Bytes) : List Bytes :=
  names.foldl climb []

theorem mem_of_mem_climb {names : List Bytes} {name x : Bytes} (mem : x ∈ climb names name) :
    x ∈ names ∨ x = name := by
  rw [climb] at mem
  split_ifs at mem
  · exact .inl ((List.dropLast_sublist names).subset mem)
  · obtain mem | mem := List.mem_append.mp mem
    · exact .inl mem
    · exact .inr (List.mem_singleton.mp mem)

theorem mem_of_mem_lexical {names : List Bytes} {x : Bytes} (mem : x ∈ lexical names) :
    x ∈ names := by
  -- The walk may have started anywhere.
  have walk : ∀ start : List Bytes, x ∈ names.foldl climb start → x ∈ start ∨ x ∈ names := by
    clear mem
    induction names with
    | nil => exact fun _ mem => .inl mem
    | cons name names ih =>
        intro start mem
        obtain mem | mem := ih (climb start name) mem
        · obtain mem | rfl := mem_of_mem_climb mem
          · exact .inl mem
          · exact .inr List.mem_cons_self
        · exact .inr (List.mem_cons_of_mem _ mem)
  exact (walk [] mem).resolve_left List.not_mem_nil

theorem foldl_climb_of_not_dotDot {names : List Bytes} (notUp : ∀ name ∈ names, name ≠ dotDot)
    (start : List Bytes) : names.foldl climb start = start ++ names := by
  induction names generalizing start with
  | nil => exact (List.append_nil start).symm
  | cons name names ih =>
      rw [List.foldl_cons, climb, if_neg (notUp name List.mem_cons_self),
        ih fun n mem => notUp n (List.mem_cons_of_mem _ mem), List.append_assoc,
        List.singleton_append]

/-- Names without `..` are all left. -/
theorem lexical_of_not_dotDot {names : List Bytes} (notUp : ∀ name ∈ names, name ≠ dotDot) :
    lexical names = names :=
  foldl_climb_of_not_dotDot notUp []

end SchemaMigration.Path
