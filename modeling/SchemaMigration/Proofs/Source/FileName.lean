import Mathlib.Algebra.Group.Nat.Defs
import SchemaMigration.Proofs.Text.Numeral
import SchemaMigration.Source.FileName

/-!
# The grammar of migration file names

A name may be taken apart in several ways, one for each direction mark behind its digits: the
grammar `FileName.Spells` holds of all of them. The one at the last mark counts, `FileName.Denotes`;
marks may overlap in a dot, and the last one is the one that leaves the longest identifier.

* `FileName.splitAtLastMark_eq_some_iff`: splitting finds the last mark.
* `FileName.split_eq_some_iff`: the parts of a name.
* `FileName.denotes_iff`: what a name denotes, in terms of its parts.
* `FileName.read_grammar`: reading accepts the grammar and nothing else.
-/

namespace SchemaMigration.FileName

open Numeral (IsDigits)

/-! ## Direction marks -/

/-- What stands between identifier and extension: `.up.` or `.down.`. -/
def mark (direction : Direction) : List Char :=
  '.' :: direction.name.toList ++ ['.']

/-- The last direction mark of a text, with what stands before it and behind it. -/
structure LastMark (text before : List Char) (direction : Direction) (behind : List Char) :
    Prop where
  around : text = before ++ mark direction ++ behind
  last : ∀ earlier other later, text = earlier ++ mark other ++ later →
    earlier.length ≤ before.length

variable {text before behind : List Char} {direction : Direction}

theorem markAt_eq_some_iff :
    markAt text = some (direction, behind) ↔ text = mark direction ++ behind := by
  constructor
  · intro found
    unfold markAt at found
    split at found
    · cases found; rfl
    · cases found; rfl
    · cases found
  · rintro rfl
    cases direction <;> rfl

theorem eq_of_mark_append_eq {other : Direction} {later : List Char}
    (same : mark direction ++ behind = mark other ++ later) :
    direction = other ∧ behind = later := by
  have found : markAt (mark direction ++ behind) = some (direction, behind) :=
    markAt_eq_some_iff.mpr rfl
  rw [same, markAt_eq_some_iff.mpr rfl] at found
  cases found
  exact ⟨rfl, rfl⟩

/-- A text has one last mark. -/
theorem LastMark.unique {before' behind' : List Char} {other : Direction}
    (first : LastMark text before direction behind) (second : LastMark text before' other behind') :
    before = before' ∧ direction = other ∧ behind = behind' := by
  have length : before.length = before'.length :=
    Nat.le_antisymm (second.last _ _ _ first.around) (first.last _ _ _ second.around)
  have same := first.around.symm.trans second.around
  rw [List.append_assoc, List.append_assoc] at same
  obtain ⟨rfl, marks⟩ := List.append_inj same length
  exact ⟨rfl, eq_of_mark_append_eq marks⟩

/-- The last mark stays the last one behind a further character. -/
theorem LastMark.cons (c : Char) (found : LastMark text before direction behind) :
    LastMark (c :: text) (c :: before) direction behind where
  around := by rw [found.around, List.cons_append, List.cons_append]
  last earlier other later around := by
    cases earlier with
    | nil => exact Nat.zero_le _
    | cons d earlier =>
        exact Nat.succ_le_succ (found.last earlier other later (List.cons.inj around).2)

theorem LastMark.append (front : List Char) (found : LastMark text before direction behind) :
    LastMark (front ++ text) (front ++ before) direction behind := by
  induction front with
  | nil => exact found
  | cons c front ih => exact ih.cons c

/-! ## Texts without a mark -/

/-- A text that holds no direction mark. -/
def Unmarked (text : List Char) : Prop :=
  ∀ direction, ¬ mark direction <:+: text

theorem unmarked_nil : Unmarked [] := by
  intro direction within
  cases direction <;> exact absurd within.length_le (by decide)

theorem unmarked_cons_iff {c : Char} :
    Unmarked (c :: text) ↔ markAt (c :: text) = none ∧ Unmarked text := by
  have here : markAt (c :: text) = none ↔ ∀ direction, ¬ mark direction <+: c :: text := by
    rw [Option.eq_none_iff_forall_ne_some]
    constructor
    · rintro none direction ⟨behind, around⟩
      exact none (direction, behind) (markAt_eq_some_iff.mpr around.symm)
    · rintro none ⟨direction, behind⟩ found
      exact none direction ⟨behind, (markAt_eq_some_iff.mp found).symm⟩
  rw [here, Unmarked, Unmarked, ← forall_and]
  refine forall_congr' fun direction => ?_
  rw [List.infix_cons_iff, not_or]

theorem unmarked_cons_of_ne {c : Char} (other : c ≠ '.') (unmarked : Unmarked text) :
    Unmarked (c :: text) := by
  refine unmarked_cons_iff.mpr ⟨?_, unmarked⟩
  unfold markAt
  split
  · next same => exact absurd (List.cons.inj same).1 other
  · next same => exact absurd (List.cons.inj same).1 other
  · rfl

/-- A mark at the front of a text is the last one if none follows its first dot. -/
theorem lastMark_front {c : Char} (here : c :: text = mark direction ++ behind)
    (unmarked : Unmarked text) : LastMark (c :: text) [] direction behind where
  around := here
  last earlier other later around := by
    cases earlier with
    | nil => exact Nat.le_refl _
    | cons d earlier =>
        exact absurd ⟨earlier, later, (List.cons.inj around).2.symm⟩ (unmarked other)

/-- A mark is the last one if no mark follows. The dot that ends the mark counts as following, since
two marks may share it. -/
theorem lastMark_of_unmarked (before : List Char) (direction : Direction)
    (unmarked : Unmarked ('.' :: behind)) :
    LastMark (before ++ mark direction ++ behind) before direction behind := by
  have name : Unmarked (direction.name.toList ++ '.' :: behind) := by
    cases direction with
    | up => exact unmarked_cons_of_ne (by decide) (unmarked_cons_of_ne (by decide) unmarked)
    | down =>
        exact unmarked_cons_of_ne (by decide) (unmarked_cons_of_ne (by decide)
          (unmarked_cons_of_ne (by decide) (unmarked_cons_of_ne (by decide) unmarked)))
  have here : '.' :: (direction.name.toList ++ '.' :: behind) = mark direction ++ behind := by
    rw [mark, List.cons_append, List.cons_append, List.append_assoc, List.singleton_append]
  have found := (lastMark_front here name).append before
  rwa [here, ← List.append_assoc, List.append_nil] at found

/-! ## Splitting -/

/-- Splitting finds nothing in unmarked text, and the last mark in any other. -/
theorem splitAtLastMark_cases (text : List Char) :
    splitAtLastMark text = none ∧ Unmarked text ∨
      ∃ before direction behind, splitAtLastMark text = some (before, direction, behind) ∧
        LastMark text before direction behind := by
  induction text with
  | nil => exact .inl ⟨rfl, unmarked_nil⟩
  | cons c rest ih =>
      rw [splitAtLastMark]
      obtain ⟨split, unmarked⟩ | ⟨before, direction, behind, split, found⟩ := ih
      · rw [split]
        cases here : markAt (c :: rest) with
        | none => exact .inl ⟨rfl, unmarked_cons_iff.mpr ⟨here, unmarked⟩⟩
        | some parts =>
            exact .inr ⟨[], _, _, rfl, lastMark_front (markAt_eq_some_iff.mp here) unmarked⟩
      · rw [split]
        exact .inr ⟨_, _, _, rfl, found.cons c⟩

theorem splitAtLastMark_eq_some_iff :
    splitAtLastMark text = some (before, direction, behind) ↔
      LastMark text before direction behind := by
  obtain ⟨split, unmarked⟩ | ⟨_, _, _, split, found⟩ := splitAtLastMark_cases text
  · rw [split]
    exact ⟨fun found => (nomatch found),
      fun found => absurd ⟨before, behind, found.around.symm⟩ (unmarked direction)⟩
  · rw [split]
    constructor
    · rintro ⟨⟩
      exact found
    · intro other
      obtain ⟨rfl, rfl, rfl⟩ := found.unique other
      rfl

/-- The line end is in no direction mark. -/
theorem newline_notMem_iff {before behind : List Char} {direction : Direction} :
    '\n' ∉ before ++ mark direction ++ behind ↔ '\n' ∉ before ∧ '\n' ∉ behind := by
  have noLineEnd : '\n' ∉ mark direction := by cases direction <;> decide
  simp only [List.mem_append, not_or, noLineEnd, not_false_iff, and_true]

/-- **The parts of a name.** A name is split where its digits end and at the last mark behind. -/
theorem split_eq_some_iff {name digits : List Char} :
    split name = some (digits, before, direction, behind) ↔
      IsDigits digits ∧ '\n' ∉ before ∧ '\n' ∉ behind ∧
        ∃ text, name = digits ++ '_' :: text ∧ LastMark text before direction behind := by
  constructor
  · intro done
    unfold split at done
    split at done
    · next text rest =>
      split at done
      · cases done
      · next form =>
        rw [not_or] at form
        obtain ⟨parts, split, same⟩ := Option.map_eq_some_iff.mp done
        cases same
        have found := splitAtLastMark_eq_some_iff.mp split
        have newline := found.around ▸ form.2
        rw [newline_notMem_iff] at newline
        refine ⟨⟨form.1, List.all_eq_true.mp (List.all_takeWhile)⟩, newline.1, newline.2, text, ?_,
          found⟩
        rw [← rest, List.takeWhile_append_dropWhile]
    · cases done
  · rintro ⟨isDigits, noBefore, noBehind, text, rfl, found⟩
    have newline : '\n' ∉ text := found.around ▸ newline_notMem_iff.mpr ⟨noBefore, noBehind⟩
    have digitsPart : (digits ++ '_' :: text).takeWhile Char.isDigit = digits := by
      rw [List.takeWhile_append_of_pos isDigits.all, List.takeWhile_cons_of_neg (by decide),
        List.append_nil]
    have rest : (digits ++ '_' :: text).dropWhile Char.isDigit = '_' :: text := by
      rw [List.dropWhile_append_of_pos isDigits.all, List.dropWhile_cons_of_neg (by decide)]
    simp only [split, rest, digitsPart, isDigits.nonempty, newline, or_self, if_false,
      splitAtLastMark_eq_some_iff.mpr found, Option.map_some]

/-! ## The grammar -/

/-- A name is made of digits and the parts of a file name: this is one way to take it apart. -/
structure Spells (digits : String) (file : FileName) (name : String) : Prop where
  text : name = file.render digits
  isDigits : IsDigits digits.toList
  identifier : '\n' ∉ file.identifier.toList
  extension : '\n' ∉ file.extension.toList
  version : file.version = Numeral.value digits.toList

/-- The way to take a name apart that counts: no direction mark comes later than the one it is taken
apart at. -/
structure Denotes (digits : String) (file : FileName) (name : String) : Prop
    extends Spells digits file name where
  last : ∀ other, Spells digits other name → other.identifier.length ≤ file.identifier.length

variable {digits name : String} {file : FileName}

theorem toList_render (digits : String) (file : FileName) :
    (file.render digits).toList = digits.toList ++
      '_' :: (file.identifier.toList ++ mark file.direction ++ file.extension.toList) := by
  have signs : "_".toList = ['_'] ∧ ".".toList = ['.'] := ⟨rfl, rfl⟩
  simp only [render, String.toList_append, signs, mark, List.append_assoc, List.cons_append,
    List.nil_append]

/-- The parts of a name, and the number that its digits write, are what it denotes. -/
theorem denotes_iff : Denotes digits file name ↔
    split name.toList = some (digits.toList, file.identifier.toList, file.direction,
        file.extension.toList) ∧
      file.version = Numeral.value digits.toList := by
  rw [split_eq_some_iff]
  constructor
  · intro denotes
    refine ⟨⟨denotes.isDigits, denotes.identifier, denotes.extension, _,
      denotes.text ▸ toList_render digits file, rfl, fun earlier other later around => ?_⟩,
      denotes.version⟩
    have newline := around ▸ newline_notMem_iff.mpr ⟨denotes.identifier, denotes.extension⟩
    rw [newline_notMem_iff] at newline
    let twin : FileName := ⟨file.version, .ofList earlier, other, .ofList later⟩
    have spells : Spells digits twin name := by
      refine ⟨?_, denotes.isDigits, ?_, ?_, denotes.version⟩
      · refine String.toList_injective ?_
        rw [denotes.text, toList_render, toList_render, around, String.toList_ofList,
          String.toList_ofList]
      · rw [String.toList_ofList]; exact newline.1
      · rw [String.toList_ofList]; exact newline.2
    have length := denotes.last twin spells
    rwa [← String.length_toList, ← String.length_toList, String.toList_ofList] at length
  · rintro ⟨⟨isDigits, identifier, extension, text, spelled, found⟩, version⟩
    refine ⟨⟨String.toList_injective ?_, isDigits, identifier, extension, version⟩,
      fun other spells => ?_⟩
    · rw [toList_render, spelled, found.around]
    · have same := spells.text ▸ toList_render digits other
      rw [spelled, List.append_cancel_left_eq, List.cons.injEq] at same
      rw [← String.length_toList, ← String.length_toList]
      exact found.last _ _ _ same.2

/-! ## Reading -/

/-- What is read where a name denotes something. -/
theorem read_of_denotes (denotes : Denotes digits file name) : read name =
    if Numeral.unsignedMax < file.version then .error (.versionNotNumber name)
    else if maxVersion < file.version then .error (.versionOutOfRange name)
    else .ok (some file) := by
  obtain ⟨parts, version⟩ := denotes_iff.mp denotes
  have same : Numeral.accumulate 0 digits.toList = file.version := by
    rw [version, Numeral.value, Numeral.accumulate_eq_ofDigitChars]
  simp only [read, parts, same, String.ofList_toList]

theorem read_of_denotes_small (denotes : Denotes digits file name)
    (small : file.version ≤ maxVersion) : read name = .ok (some file) := by
  have fits : maxVersion ≤ Numeral.unsignedMax := by decide
  rw [read_of_denotes denotes, if_neg (Nat.not_lt.mpr (Nat.le_trans small fits)),
    if_neg (Nat.not_lt.mpr small)]

theorem read_of_denotes_large (denotes : Denotes digits file name)
    (large : maxVersion < file.version) : ∃ e : Error, e.kind = .source ∧ read name = .error e := by
  rw [read_of_denotes denotes, if_pos large]
  split
  · exact ⟨_, rfl, rfl⟩
  · exact ⟨_, rfl, rfl⟩

theorem Denotes.unique {digits' : String} {other : FileName} (first : Denotes digits file name)
    (second : Denotes digits' other name) : digits = digits' ∧ file = other := by
  obtain ⟨parts, version⟩ := denotes_iff.mp first
  obtain ⟨parts', version'⟩ := denotes_iff.mp second
  have same := parts.symm.trans parts'
  simp only [Option.some.injEq, Prod.mk.injEq, String.toList_inj] at same
  obtain ⟨rfl, identifier, direction, extension⟩ := same
  obtain ⟨_, _, _, _⟩ := file
  obtain ⟨_, _, _, _⟩ := other
  obtain ⟨rfl, rfl, rfl⟩ : _ ∧ _ ∧ _ := ⟨identifier, direction, extension⟩
  cases version.trans version'.symm
  exact ⟨rfl, rfl⟩

/-- A name of the grammar denotes something, and any other name is passed over. -/
theorem denotes_or_passed (name : String) :
    (∃ digits file, Denotes digits file name) ∨
      read name = .ok none ∧ ∀ digits file, ¬ Spells digits file name := by
  cases parts : split name.toList with
  | some found =>
      obtain ⟨digits, identifier, direction, extension⟩ := found
      refine .inl ⟨.ofList digits, ⟨Numeral.value digits, .ofList identifier, direction,
        .ofList extension⟩, denotes_iff.mpr ⟨?_, ?_⟩⟩
      · simpa only [String.toList_ofList] using parts
      · rw [String.toList_ofList]
  | none =>
      refine .inr ⟨by rw [read, parts], fun digits file spells => ?_⟩
      -- Some mark is there, so there is a last one, at which the name would have been split.
      obtain ⟨-, unmarked⟩ | ⟨before, direction, behind, -, found⟩ := splitAtLastMark_cases
        (file.identifier.toList ++ mark file.direction ++ file.extension.toList)
      · exact unmarked file.direction ⟨_, _, rfl⟩
      · have newline := found.around ▸
          newline_notMem_iff.mpr ⟨spells.identifier, spells.extension⟩
        rw [newline_notMem_iff] at newline
        have done := split_eq_some_iff.mpr ⟨spells.isDigits, newline.1, newline.2, _,
          spells.text ▸ toList_render digits file, found⟩
        rw [parts] at done
        cases done

theorem read_eq_none_iff : read name = .ok none ↔ ¬ ∃ digits file, Spells digits file name := by
  obtain ⟨digits, file, denotes⟩ | ⟨passed, none⟩ := denotes_or_passed name
  · refine ⟨fun passed => ?_, fun none => absurd ⟨digits, file, denotes.toSpells⟩ none⟩
    rcases Nat.lt_or_ge maxVersion file.version with large | small
    · obtain ⟨e, -, failed⟩ := read_of_denotes_large denotes large
      cases passed.symm.trans failed
    · cases passed.symm.trans (read_of_denotes_small denotes small)
  · exact ⟨fun _ ⟨digits, file, spells⟩ => none digits file spells, fun _ => passed⟩

theorem read_eq_some_iff : read name = .ok (some file) ↔
    (∃ digits, Denotes digits file name) ∧ file.version ≤ maxVersion := by
  refine ⟨fun done => ?_, fun ⟨⟨digits, denotes⟩, small⟩ => read_of_denotes_small denotes small⟩
  obtain ⟨digits, other, denotes⟩ | ⟨passed, -⟩ := denotes_or_passed name
  · rcases Nat.lt_or_ge maxVersion other.version with large | small
    · obtain ⟨e, -, failed⟩ := read_of_denotes_large denotes large
      cases done.symm.trans failed
    · cases done.symm.trans (read_of_denotes_small denotes small)
      exact ⟨⟨digits, denotes⟩, small⟩
  · cases done.symm.trans passed

theorem read_eq_error_iff : (∃ e, read name = .error e) ↔
    ∃ digits file, Denotes digits file name ∧ maxVersion < file.version := by
  constructor
  · rintro ⟨e, failed⟩
    obtain ⟨digits, file, denotes⟩ | ⟨passed, -⟩ := denotes_or_passed name
    · refine ⟨digits, file, denotes, Nat.lt_of_not_le fun small => ?_⟩
      cases failed.symm.trans (read_of_denotes_small denotes small)
    · cases failed.symm.trans passed
  · rintro ⟨digits, file, denotes, large⟩
    obtain ⟨e, -, failed⟩ := read_of_denotes_large denotes large
    exact ⟨e, failed⟩

theorem kind_of_read_eq_error {e : Error} (failed : read name = .error e) : e.kind = .source := by
  obtain ⟨digits, file, denotes, large⟩ := read_eq_error_iff.mp ⟨e, failed⟩
  obtain ⟨e', kind, failed'⟩ := read_of_denotes_large denotes large
  cases failed.symm.trans failed'
  exact kind

/-- What is put into a name is what it denotes, if no mark follows the one that is put there. -/
theorem denotes_render (isDigits : IsDigits digits.toList)
    (identifier : '\n' ∉ file.identifier.toList) (extension : '\n' ∉ file.extension.toList)
    (unmarked : Unmarked ('.' :: file.extension.toList))
    (version : file.version = Numeral.value digits.toList) :
    Denotes digits file (file.render digits) :=
  denotes_iff.mpr ⟨split_eq_some_iff.mpr ⟨isDigits, identifier, extension, _,
    toList_render digits file, lastMark_of_unmarked _ _ unmarked⟩, version⟩

/-- **The grammar of file names.** A name that no way of taking it apart fits is passed over. Any
other denotes one version, identifier, direction and extension, by its last direction mark, and is
read as these if a version table has room for the version, and as a fault of the source if not.
Whatever is put into a name, behind any zeros and in front of an extension that no mark reaches
into, is read back. -/
theorem read_grammar (name : String) :
    (read name = .ok none ↔ ¬ ∃ digits file, Spells digits file name) ∧
      (∀ file, read name = .ok (some file) ↔
        (∃ digits, Denotes digits file name) ∧ file.version ≤ 2 ^ 63 - 1) ∧
      ((∃ e, read name = .error e) ↔
        ∃ digits file, Denotes digits file name ∧ 2 ^ 63 - 1 < file.version) ∧
      (∀ e, read name = .error e → e.kind = .source) ∧
      ∀ (zeros : Nat) (file : FileName), file.version ≤ 2 ^ 63 - 1 →
        '\n' ∉ file.identifier.toList → '\n' ∉ file.extension.toList →
        Unmarked ('.' :: file.extension.toList) →
        read (file.render (String.ofList (List.replicate zeros '0') ++ toString file.version)) =
          .ok (some file) := by
  refine ⟨read_eq_none_iff, fun _ => read_eq_some_iff, read_eq_error_iff,
    fun _ => kind_of_read_eq_error, fun zeros file small identifier extension unmarked => ?_⟩
  have digits : (String.ofList (List.replicate zeros '0') ++ toString file.version).toList =
      List.replicate zeros '0' ++ (toString file.version).toList := by
    rw [String.toList_append, String.toList_ofList]
  refine read_of_denotes_small (denotes_render ?_ identifier extension unmarked ?_) small
  · rw [digits]
    exact Numeral.isDigits_append (Numeral.isDigits_toString file.version)
  · rw [digits, Numeral.value_padded]

/-- Of two marks that share a dot the later one counts, and an extension may begin like a mark.
Identifier and extension may be empty, and the greatest version is read back behind zeros. -/
theorem read_grammar_overlap :
    (∃ digits, Denotes digits ⟨7, "a.up", .down, "up"⟩ "007_a.up.down.up") ∧
      (∃ digits file, Denotes digits file "9223372036854775808_.up." ∧ 2 ^ 63 - 1 < file.version) ∧
      let file : FileName := ⟨2 ^ 63 - 1, ".down.", .up, "up"⟩
      Unmarked ('.' :: file.extension.toList) ∧
        read (file.render (String.ofList (List.replicate 3 '0') ++ toString file.version)) =
          .ok (some file) := by
  have unmarked : Unmarked ".up".toList := by
    intro direction
    cases direction <;> decide
  have refused : read "9223372036854775808_.up." =
      .error (.versionOutOfRange "9223372036854775808_.up.") := by decide +kernel
  exact ⟨(((read_grammar _).2.1 _).mp (by decide +kernel)).1,
    (read_grammar _).2.2.1.mp ⟨_, refused⟩, unmarked,
    (read_grammar "").2.2.2.2 3 _ (Nat.le_refl _) (by decide) (by decide) unmarked⟩

end SchemaMigration.FileName
