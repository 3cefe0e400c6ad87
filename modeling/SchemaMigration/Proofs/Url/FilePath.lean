import Mathlib.Data.List.Basic
import Mathlib.Tactic.Common
import SchemaMigration.Proofs.Path.Names
import SchemaMigration.Url.FilePath

/-!
# Paths in URLs

* `Url.encodePath?_of_isAbsolute`, `Url.decode_encodedPath`: the path of a URL holds the names of a
  path, and is decoded to the path through them.
* `Url.ofDirectory?_of_isAbsolute`: the URL of a directory is `file://`, a slash, and each of its
  names with a slash behind it.
-/

namespace SchemaMigration.Url

/-! ## The path part -/

/-- A name as a URL holds it. -/
abbrev encodeName (name : Bytes) : List Char :=
  Percent.encode Percent.segment name

theorem segmentChar_of_mem_encodeName {name : Bytes} {c : Char} (mem : c ∈ encodeName name) :
    Percent.SegmentChar c :=
  Percent.encode_segment_forall name c mem

/-- Names, encoded, with a slash before each. -/
def slashed (names : List Bytes) : List Char :=
  names.flatMap fun name => '/' :: encodeName name

/-- Names, encoded, with a slash behind each. -/
def trailing (names : List Bytes) : List Char :=
  names.flatMap fun name => encodeName name ++ ['/']

/-- A slash, and names, encoded, with a slash behind each. -/
def directoryPath (names : List Bytes) : List Char :=
  '/' :: trailing names

/-- The path part of the URL of the absolute path through some names. -/
def encodedPath (names : List Bytes) : List Char :=
  if names = [] then ['/'] else slashed names

theorem trailing_cons (name : Bytes) (names : List Bytes) :
    trailing (name :: names) = encodeName name ++ '/' :: trailing names := by
  rw [trailing, List.flatMap_cons, List.append_assoc, List.singleton_append, ← trailing]

theorem slashed_append_slash (names : List Bytes) :
    slashed names ++ ['/'] = directoryPath names := by
  induction names with
  | nil => rfl
  | cons name names ih =>
      rw [slashed, List.flatMap_cons, List.append_assoc, ← slashed, ih, directoryPath,
        directoryPath, trailing_cons]
      rfl

theorem encodePath?_of_isAbsolute {path : Path} (absolute : path.isAbsolute = true) :
    encodePath? path = some (String.ofList (encodedPath path.names)) := by
  rw [encodePath?, if_pos absolute, encodedPath]
  cases path.names with
  | nil => rfl
  | cons name names => rfl

/-- No character of it starts the query or the fragment of a URL. -/
theorem ne_of_mem_encodedPath {names : List Bytes} {c : Char} (mem : c ∈ encodedPath names) :
    c ≠ '?' ∧ c ≠ '#' := by
  have slash : '/' ≠ '?' ∧ '/' ≠ '#' := by decide
  rw [encodedPath] at mem
  split_ifs at mem
  · exact List.mem_singleton.mp mem ▸ slash
  · obtain ⟨name, -, mem⟩ := List.mem_flatMap.mp mem
    obtain rfl | mem := List.mem_cons.mp mem
    · exact slash
    · exact (segmentChar_of_mem_encodeName mem).ne.2.2

/-! ## Decoding -/

theorem decode_slash (rest : Bytes) :
    Percent.decode (Path.separator :: rest) = Path.separator :: Percent.decode rest :=
  Percent.decode_cons (by decide) rest

theorem decode_slashed (names : List Bytes) :
    Percent.decode ((slashed names).flatMap String.utf8EncodeChar) =
      names.flatMap (Path.separator :: ·) := by
  induction names with
  | nil => exact Percent.decode.eq_1
  | cons name names ih =>
      rw [slashed] at ih ⊢
      rw [List.flatMap_cons, List.flatMap_append, List.flatMap_cons, List.flatMap_cons, ← ih,
        List.append_assoc]
      exact (decode_slash _).trans
        (congrArg (Path.separator :: ·) (Percent.decode_encode Percent.covers_segment name _))

theorem decode_trailing (names : List Bytes) :
    Percent.decode ((trailing names).flatMap String.utf8EncodeChar) =
      names.flatMap (· ++ [Path.separator]) := by
  induction names with
  | nil => exact Percent.decode.eq_1
  | cons name names ih =>
      rw [trailing_cons, List.flatMap_append, List.flatMap_cons,
        Percent.decode_encode Percent.covers_segment, List.flatMap_cons, List.append_assoc, ← ih]
      exact congrArg (name ++ ·) (decode_slash _)

theorem decode_directoryPath (names : List Bytes) :
    Percent.decode ((directoryPath names).flatMap String.utf8EncodeChar) =
      Path.separator :: names.flatMap (· ++ [Path.separator]) := by
  rw [directoryPath, List.flatMap_cons, ← decode_trailing]
  exact decode_slash _

/-- The path of a URL is decoded to the path through the names that it holds. -/
theorem decode_encodedPath (names : List Bytes) :
    Percent.decode ((encodedPath names).flatMap String.utf8EncodeChar) =
      (Path.ofNames true names).bytes := by
  rw [encodedPath]
  split_ifs with none
  · subst none
    exact decode_directoryPath []
  · rw [decode_slashed, Path.bytes_ofNames none]

/-! ## Directories -/

theorem endsWith_slash_iff {cs : List Char} :
    (String.ofList cs).endsWith "/" = true ↔ ['/'] <:+ cs := by
  rw [String.endsWith_eq_endsWith_toSlice, String.Slice.endsWith_string_iff, String.copy_toSlice,
    @String.toList_ofList cs]
  rfl

/-- The last character of a name is no slash. -/
theorem not_slash_suffix_slashed {names : List Bytes} (some : names ≠ [])
    (nonempty : ∀ name ∈ names, name ≠ []) : ¬ ['/'] <:+ slashed names := by
  obtain rfl | ⟨front, last, rfl⟩ := List.eq_nil_or_concat' names
  · exact absurd rfl some
  have lastNonempty : encodeName last ≠ [] :=
    Percent.encode_ne_nil (nonempty last (List.mem_append_right _ List.mem_cons_self))
  obtain encoded | ⟨cs, c, encoded⟩ := List.eq_nil_or_concat' (encodeName last)
  · exact absurd encoded lastNonempty
  have plain : Percent.SegmentChar c := segmentChar_of_mem_encodeName
    (encoded ▸ List.mem_append_right cs List.mem_cons_self)
  rintro ⟨before, whole⟩
  rw [slashed, List.flatMap_append, List.flatMap_singleton, encoded, ← List.cons_append,
    ← List.append_assoc] at whole
  exact plain.ne.1 (List.head_eq_of_cons_eq (List.append_inj_right' whole rfl)).symm

/-- The URL of a directory holds the names of its path, with a slash behind each. -/
theorem ofDirectory?_of_isAbsolute {path : Path} (absolute : path.isAbsolute = true) :
    ofDirectory? path = some ("file://" ++ String.ofList (directoryPath path.names)) := by
  rw [ofDirectory?, encodePath?_of_isAbsolute absolute, Option.map_some, encodedPath]
  refine congrArg (fun text => some ("file://" ++ text)) ?_
  split_ifs with none ends ends
  · rw [none]; rfl
  · exact absurd (endsWith_slash_iff.mpr (List.suffix_refl _)) ends
  · exact absurd (endsWith_slash_iff.mp ends) (not_slash_suffix_slashed none fun name mem =>
      (Path.isName_of_mem_names mem).nonempty)
  · rw [← slashed_append_slash, String.ofList_append]

end SchemaMigration.Url
