import Mathlib.Data.List.TakeWhile
import Mathlib.Tactic.Common
import SchemaMigration.Proofs.Url.FilePath

/-!
# Reading the URL of a directory

The URL of a directory is not taken for anything else when it is read: its encoded names hold no
blank, slash, question mark or hash, they are encoded no second time, and an encoded name is a dot
segment or a drive only if the name itself is one.

* `Url.addSegment_encodeName`: one name, followed by a slash.
* `Url.readPath_directoryPath`: all names; each `..` takes off the name before it.
* `Url.read_directoryPath`: the whole URL.
-/

namespace SchemaMigration.Url

/-! ## One segment -/

/-- The bytes that name a drive: a letter and a colon or bar. -/
def isDriveName (name : Bytes) : Bool :=
  match name with
  | [letter, mark] => (Char.ofNat letter.toNat).isAlpha && (mark == 0x3A || mark == 0x7C)
  | _ => false

theorem decode_encodeName (name : Bytes) :
    Percent.decode ((encodeName name).flatMap String.utf8EncodeChar) = name := by
  have decoded := Percent.decode_encode Percent.covers_segment name []
  rwa [List.append_nil, Percent.decode, List.append_nil] at decoded

theorem encodeSegment_encodeName (name : Bytes) :
    encodeSegment (encodeName name) = encodeName name := by
  rw [encodeSegment, Bytes.ofString_ofList]
  exact Percent.encode_path_of_segmentChars (Percent.encode_segment_forall name)

/-- An encoded name is the text of a segment only if the segment is decoded to the name. -/
theorem eq_of_encodeName_eq {name : Bytes} {text : String}
    (eq : String.ofList (encodeName name) = text) :
    Percent.decode (Bytes.ofString text) = name := by
  rw [← eq, Bytes.ofString_ofList, decode_encodeName]

/-- Only `..` is encoded as a segment that stands for the parent. -/
theorem isDoubleDot_encodeName {name : Bytes} :
    isDoubleDot (encodeName name) = true ↔ name = Path.dotDot := by
  have dots : ∀ text ∈ ["..", "%2e%2e", "%2e%2E", "%2E%2e", "%2E%2E", "%2e.", "%2E.", ".%2e",
      ".%2E"], Percent.decode (Bytes.ofString text) = Path.dotDot := by decide +kernel
  constructor
  · intro isDots
    rw [isDoubleDot, List.contains_iff_mem] at isDots
    exact (eq_of_encodeName_eq rfl).symm.trans (dots _ isDots)
  · rintro rfl
    rfl

/-- Only `.` is encoded as a segment that stands for nothing. -/
theorem isSingleDot_encodeName {name : Bytes} (other : name ≠ Path.dot) :
    isSingleDot (encodeName name) = false := by
  have dots : ∀ text ∈ [".", "%2e", "%2E"],
      Percent.decode (Bytes.ofString text) = Path.dot := by decide +kernel
  refine Bool.eq_false_iff.mpr fun isDot => other ?_
  rw [isSingleDot, List.contains_iff_mem] at isDot
  exact (eq_of_encodeName_eq rfl).symm.trans (dots _ isDot)

theorem exists_of_isDrive {segment : List Char} (drive : isDrive segment = true) :
    ∃ letter mark, segment = [letter, mark] ∧ letter.isAlpha = true ∧
      (mark = ':' ∨ mark = '|') := by
  unfold isDrive at drive
  split at drive
  next letter mark =>
    rw [Bool.and_eq_true, Bool.or_eq_true, beq_iff_eq, beq_iff_eq] at drive
    exact ⟨letter, mark, rfl, drive⟩
  next => cases drive

/-- Only the name of a drive is encoded as a drive. -/
theorem isDrive_encodeName {name : Bytes} (other : isDriveName name = false) :
    isDrive (encodeName name) = false := by
  refine Bool.eq_false_iff.mpr fun drive => ?_
  obtain ⟨letter, mark, segment, alpha, isMark⟩ := exists_of_isDrive drive
  have decoded := decode_encodeName name
  obtain ⟨byte, kept, -, -, rfl⟩ : Percent.SegmentChar letter :=
    segmentChar_of_mem_encodeName (segment ▸ List.mem_cons_self)
  rw [segment] at decoded
  -- Neither a letter nor a mark starts an escape, so both stand for their bytes.
  have notPercent : byte ≠ 0x25 := by
    rintro rfl
    exact absurd alpha (by decide)
  have letterUtf8 := Utf8.encode_ofNat (Percent.ascii_of_path_eq_false kept)
  obtain ⟨markByte, markUtf8, isMark⟩ : ∃ markByte : UInt8,
      String.utf8EncodeChar mark = [markByte] ∧ (markByte = 0x3A ∨ markByte = 0x7C) := by
    obtain rfl | rfl := isMark
    · exact ⟨0x3A, rfl, .inl rfl⟩
    · exact ⟨0x7C, rfl, .inr rfl⟩
  have notPercentMark : markByte ≠ 0x25 := by obtain rfl | rfl := isMark <;> decide
  rw [List.flatMap_cons, List.flatMap_singleton, letterUtf8, markUtf8, List.singleton_append,
    Percent.decode_cons notPercent, Percent.decode_cons notPercentMark, Percent.decode] at decoded
  rw [← decoded, isDriveName, alpha, Bool.true_and, Bool.or_eq_false_iff] at other
  obtain rfl | rfl := isMark
  · exact absurd other.1 (by decide)
  · exact absurd other.2 (by decide)

/-! ## The path so far -/

theorem slash_not_mem_encodeName (name : Bytes) : '/' ∉ encodeName name :=
  fun mem => (segmentChar_of_mem_encodeName mem).ne.1 rfl

/-- The last slash parts a path into its last segment and what is before that. -/
theorem split_lastSlash (front : List Char) {segment : List Char} (whole : '/' ∉ segment) :
    lastSegment (front ++ '/' :: segment) = segment ∧
      upToLastSlash (front ++ '/' :: segment) = front ++ ['/'] := by
  have kept : ∀ c ∈ segment.reverse, decide (c ≠ '/') = true := fun c mem =>
    decide_eq_true fun h => whole (h ▸ List.mem_reverse.mp mem)
  have backwards : (front ++ '/' :: segment).reverse = segment.reverse ++ '/' :: front.reverse := by
    rw [List.reverse_append, List.reverse_cons, List.append_assoc, List.singleton_append]
  constructor
  · rw [lastSegment, backwards, List.takeWhile_append_of_pos kept,
      List.takeWhile_cons_of_neg (by decide), List.append_nil, List.reverse_reverse]
  · rw [upToLastSlash, backwards, List.dropWhile_append_of_pos kept,
      List.dropWhile_cons_of_neg (by decide), List.reverse_cons, List.reverse_reverse]

theorem directoryPath_append (names : List Bytes) (name : Bytes) :
    directoryPath (names ++ [name]) = directoryPath names ++ encodeName name ++ ['/'] := by
  rw [directoryPath, directoryPath, trailing, List.flatMap_append, List.flatMap_singleton,
    ← trailing, List.cons_append, List.cons_append, List.append_assoc]

theorem isNormalDrive_eq_false {segment : List Char} (other : isDrive segment = false) :
    isNormalDrive segment = false := by
  unfold isNormalDrive
  split
  next letter =>
    rw [isDrive, Bool.and_eq_false_iff] at other
    exact other.resolve_right (by decide)
  next => rfl

/-- Taking the last segment off a path takes off its last name, unless that is a drive, and nothing
off the root. -/
theorem shorten_directoryPath {names : List Bytes}
    (noDrive : ∀ last ∈ names.getLast?, isDriveName last = false) :
    shorten (directoryPath names) = directoryPath names.dropLast := by
  obtain rfl | ⟨front, last, rfl⟩ := List.eq_nil_or_concat' names
  · rfl
  have notDrive := isDrive_encodeName (noDrive last List.getLast?_concat)
  have shape : directoryPath front ++ encodeName last =
      slashed front ++ '/' :: encodeName last := by
    rw [← slashed_append_slash, List.append_assoc, List.singleton_append]
  obtain ⟨segment, before⟩ := split_lastSlash (slashed front) (slash_not_mem_encodeName last)
  rw [← shape] at segment before
  rw [slashed_append_slash] at before
  have inside : (directoryPath front ++ encodeName last).contains '/' = true :=
    List.contains_iff_mem.mpr (List.mem_append_left _ List.mem_cons_self)
  rw [shorten, directoryPath_append, List.dropLast_concat, List.dropLast_concat,
    List.getLast?_concat]
  simp only [segment, inside, notDrive, isNormalDrive_eq_false notDrive, before, Bool.not_false,
    and_self, if_true, Bool.false_eq_true, if_false]

/-- Only the path of the root is a single slash. -/
theorem directoryPath_eq_slash {names : List Bytes} : directoryPath names = ['/'] ↔ names = [] := by
  constructor
  · intro root
    obtain rfl | ⟨front, last, rfl⟩ := List.eq_nil_or_concat' names
    · rfl
    have length := congrArg List.length root
    rw [directoryPath_append, directoryPath] at length
    simp at length
  · rintro rfl
    rfl

/-- No drive is in the way of one more name: `..` takes off no drive, and no drive stands at the
root. -/
def Passable (names : List Bytes) (name : Bytes) : Prop :=
  if name = Path.dotDot then ∀ last ∈ names.getLast?, isDriveName last = false
  else names = [] → isDriveName name = false

/-- No drive is in the way of names that are followed one after the other, behind others. -/
def DriveFree : List Bytes → List Bytes → Prop
  | _, [] => True
  | names, name :: rest => Passable names name ∧ DriveFree (Path.climb names name) rest

instance (names : List Bytes) (name : Bytes) : Decidable (Passable names name) :=
  inferInstanceAs (Decidable (if name = Path.dotDot then
    ∀ last ∈ names.getLast?, isDriveName last = false else names = [] → isDriveName name = false))

instance DriveFree.decidable : (names more : List Bytes) → Decidable (DriveFree names more)
  | _, [] => isTrue trivial
  | names, name :: rest =>
    have := DriveFree.decidable (Path.climb names name) rest
    inferInstanceAs (Decidable (Passable names name ∧ DriveFree (Path.climb names name) rest))

/-- Names none of which is a drive have no drive in their way. -/
theorem driveFree_of_forall {names start : List Bytes}
    (noDrive : ∀ name ∈ names, isDriveName name = false)
    (startNoDrive : ∀ name ∈ start, isDriveName name = false) : DriveFree start names := by
  induction names generalizing start with
  | nil => trivial
  | cons name names ih =>
      refine ⟨?_, ih (fun n mem => noDrive n (List.mem_cons_of_mem _ mem)) fun n mem => ?_⟩
      · rw [Passable]
        split_ifs
        · exact fun last mem => startNoDrive last (List.mem_of_getLast? mem)
        · exact fun _ => noDrive name List.mem_cons_self
      · obtain mem | rfl := Path.mem_of_mem_climb mem
        · exact startNoDrive n mem
        · exact noDrive n List.mem_cons_self

/-- Without `..` only a drive at the root is in the way. -/
theorem driveFree_of_not_dotDot {names start : List Bytes}
    (plain : ∀ name ∈ names, name ≠ Path.dotDot)
    (atRoot : start = [] → ∀ first ∈ names.head?, isDriveName first = false) :
    DriveFree start names := by
  induction names generalizing start with
  | nil => trivial
  | cons name names ih =>
      have notUp := plain name List.mem_cons_self
      have further : Path.climb start name = start ++ [name] := if_neg notUp
      refine ⟨?_, ih (fun n mem => plain n (List.mem_cons_of_mem _ mem)) fun empty => ?_⟩
      · rw [Passable, if_neg notUp]
        exact fun root => atRoot root name rfl
      · rw [further] at empty
        cases List.append_ne_nil_of_right_ne_nil start (List.cons_ne_nil name []) empty

/-- One name of a directory, with the slash behind it. -/
theorem addSegment_encodeName {names : List Bytes} {name : Bytes} (isName : Path.IsName name)
    (passable : Passable names name) :
    addSegment (directoryPath names) (encodeName name) true =
      directoryPath (Path.climb names name) := by
  have slash : ∀ names : List Bytes, (directoryPath names).getLast? = some '/' := fun names => by
    rw [← slashed_append_slash, List.getLast?_concat]
  rw [addSegment, Path.climb]
  by_cases up : name = Path.dotDot
  · rw [Passable, if_pos up] at passable
    rw [if_pos (isDoubleDot_encodeName.mpr up), if_pos up, shorten_directoryPath passable]
    exact if_neg fun h => h.2 (slash _)
  · rw [Passable, if_neg up] at passable
    have noDrive : ¬ (directoryPath names = ['/'] ∧ isDrive (encodeName name) = true) := by
      rintro ⟨root, drive⟩
      have other := isDrive_encodeName (passable (directoryPath_eq_slash.mp root))
      exact Bool.false_ne_true (other.symm.trans drive)
    rw [if_neg (mt isDoubleDot_encodeName.mp up), isSingleDot_encodeName isName.notDot,
      if_neg Bool.false_ne_true, if_neg noDrive, if_neg up, if_pos rfl, directoryPath_append]

/-! ## The whole path -/

/-- The names of a directory, one after the other, and the end behind the last slash. -/
theorem addSegments_encodeName {names : List Bytes} (isName : ∀ name ∈ names, Path.IsName name)
    {start : List Bytes} (driveFree : DriveFree start names) :
    addSegments (directoryPath start) (names.map encodeName ++ [[]]) =
      directoryPath (names.foldl Path.climb start) := by
  -- `start` holds the names climbed so far; the path is always that of their directory.
  induction names generalizing start with
  | nil =>
      have empty : ∀ path : List Char, addSegment path [] false = path := fun path => by
        rw [addSegment, if_neg (by decide), if_neg (by decide),
          if_neg fun h => absurd h.2 (by decide), List.append_nil]
        exact List.append_nil path
      exact empty _
  | cons name names ih =>
      have more : names.map encodeName ++ [[]] ≠ [] :=
        List.append_ne_nil_of_right_ne_nil _ (List.cons_ne_nil _ _)
      rw [List.map_cons, List.cons_append, List.foldl_cons, addSegments,
        encodeSegment_encodeName,
        addSegment_encodeName (isName name List.mem_cons_self) driveFree.1]
      · exact ih (fun n mem => isName n (List.mem_cons_of_mem _ mem)) driveFree.2
      · exact more

theorem of_mem_directoryPath {names : List Bytes} {c : Char} (mem : c ∈ directoryPath names) :
    c = '/' ∨ Percent.SegmentChar c := by
  obtain rfl | mem := List.mem_cons.mp mem
  · exact .inl rfl
  obtain ⟨name, -, mem⟩ := List.mem_flatMap.mp mem
  obtain mem | mem := List.mem_append.mp mem
  · exact .inr (segmentChar_of_mem_encodeName mem)
  · exact .inl (List.mem_singleton.mp mem)

theorem splitOn_trailing (names : List Bytes) :
    Form.splitOn isSlash (trailing names) = names.map encodeName ++ [[]] := by
  have noSlash : ∀ name : Bytes, ∀ c ∈ encodeName name, isSlash c = false := fun name c mem => by
    have plain := (segmentChar_of_mem_encodeName mem).ne
    rw [isSlash, beq_eq_false_iff_ne.mpr plain.1, beq_eq_false_iff_ne.mpr plain.2.1, Bool.or_self]
  rw [Form.splitOn_eq_splitOnP]
  induction names with
  | nil => rfl
  | cons name names ih =>
      rw [trailing_cons, List.splitOnP_append_cons_of_forall_mem (noSlash name) _ rfl, ih]
      rfl

theorem splitOn_directoryPath (names : List Bytes) :
    Form.splitOn isSlash (directoryPath names) = [] :: (names.map encodeName ++ [[]]) := by
  rw [← splitOn_trailing, Form.splitOn_eq_splitOnP, Form.splitOn_eq_splitOnP, directoryPath,
    List.splitOnP_cons_eq_if_modifyHead, if_pos (show isSlash '/' = true from rfl)]

/-- A path has no more than one slash in front. -/
theorem dropWhile_slash_directoryPath {names : List Bytes}
    (isName : ∀ name ∈ names, Path.IsName name) :
    '/' :: (directoryPath names).dropWhile (· = '/') = directoryPath names := by
  cases names with
  | nil => rfl
  | cons name names =>
      cases encoded : encodeName name with
      | nil =>
          exact absurd encoded (Percent.encode_ne_nil (isName name List.mem_cons_self).nonempty)
      | cons c cs =>
          have plain : Percent.SegmentChar c :=
            segmentChar_of_mem_encodeName (encoded ▸ List.mem_cons_self)
          rw [directoryPath, trailing_cons, encoded, List.dropWhile_cons_of_pos (by decide),
            List.cons_append,
            List.dropWhile_cons_of_neg (by rw [decide_eq_true_eq]; exact plain.ne.1)]

/-- The path of a directory ends nowhere before its last slash. -/
theorem takeWhile_directoryPath (names : List Bytes) :
    (directoryPath names).takeWhile (fun c => c ≠ '?' ∧ c ≠ '#') = directoryPath names := by
  refine List.takeWhile_eq_self_iff.mpr fun c mem => ?_
  obtain rfl | plain := of_mem_directoryPath mem
  · decide
  · exact decide_eq_true plain.ne.2.2

theorem takeWhile_trailing (names : List Bytes) :
    (trailing names).takeWhile (fun c => c ≠ '?' ∧ c ≠ '#') = trailing names :=
  List.tail_eq_of_cons_eq (takeWhile_directoryPath names)

/-- **The path of a directory is read back** as the path through its names, each `..` taking off the
name before it. -/
theorem readPath_trailing {names : List Bytes} (isName : ∀ name ∈ names, Path.IsName name)
    (driveFree : DriveFree [] names) :
    readPath ['/'] (trailing names) = directoryPath (Path.lexical names) := by
  have root : ['/'] = directoryPath [] := rfl
  rw [readPath, takeWhile_trailing, splitOn_trailing, root, addSegments_encodeName isName driveFree]
  exact dropWhile_slash_directoryPath fun name mem => isName name (Path.mem_of_mem_lexical mem)

/-- A slash in front changes nothing. -/
theorem readPath_directoryPath {names : List Bytes} (isName : ∀ name ∈ names, Path.IsName name)
    (driveFree : DriveFree [] names) :
    readPath [] (directoryPath names) = directoryPath (Path.lexical names) := by
  have more : names.map encodeName ++ [[]] ≠ [] :=
    List.append_ne_nil_of_right_ne_nil _ (List.cons_ne_nil _ _)
  have root : addSegment [] (encodeSegment []) true = ['/'] := rfl
  rw [← readPath_trailing isName driveFree, readPath, readPath, takeWhile_directoryPath,
    takeWhile_trailing, splitOn_directoryPath, splitOn_trailing, addSegments, root]
  exact more

/-! ## The whole URL -/

/-- Nothing is stripped from a file URL without blanks and controls. -/
theorem stripped_of_printable {cs : List Char} (printable : ∀ c ∈ cs, 0x20 < c.toNat) :
    stripped ("file://" ++ String.ofList cs) = "file://".toList ++ cs := by
  have kept : ∀ c ∈ cs, decide (c ≠ '\t' ∧ c ≠ '\n' ∧ c ≠ '\r') = true := fun c mem => by
    have above := printable c mem
    refine decide_eq_true ⟨?_, ?_, ?_⟩ <;> rintro rfl <;> revert above <;> decide
  have front : ∀ cs : List Char, ("file://".toList ++ cs).dropWhile (fun c => c.toNat ≤ 0x20) =
      "file://".toList ++ cs := fun _ => rfl
  have back : (("file://".toList ++ cs).reverse.dropWhile fun c => c.toNat ≤ 0x20) =
      ("file://".toList ++ cs).reverse := by
    obtain rfl | ⟨before, last, rfl⟩ := List.eq_nil_or_concat' cs
    · rfl
    have above := printable last (List.mem_append_right _ List.mem_cons_self)
    rw [← List.append_assoc, List.reverse_append, List.reverse_singleton, List.singleton_append,
      List.dropWhile_cons_of_neg (by rw [decide_eq_true_eq]; omega)]
  rw [stripped, String.toList_append, @String.toList_ofList cs]
  simp only [front, back, List.reverse_reverse]
  rw [List.filter_append, List.filter_eq_self.mpr kept]
  rfl

theorem printable_of_mem_directoryPath {names : List Bytes} {c : Char}
    (mem : c ∈ directoryPath names) : 0x20 < c.toNat := by
  obtain rfl | plain := of_mem_directoryPath mem
  · decide
  · exact plain.printable.1

/-- **The URL of a directory is read as a file URL without a host**, whose path is the path of the
directory. -/
theorem read_directoryPath {names : List Bytes} (isName : ∀ name ∈ names, Path.IsName name)
    (driveFree : DriveFree [] names) :
    read ("file://" ++ String.ofList (directoryPath names)) =
      .ok (.file none (directoryPath (Path.lexical names))) := by
  have scheme : splitScheme? ("file://".toList ++ directoryPath names) =
      some ("file", '/' :: '/' :: directoryPath names) := rfl
  have authority : readFileAuthority (directoryPath names) =
      .ok (.file none (readPath [] (directoryPath names))) := rfl
  rw [read, stripped_of_printable fun c mem => printable_of_mem_directoryPath mem, scheme]
  change readFileAuthority (directoryPath names) = _
  rw [authority, readPath_directoryPath isName driveFree]

/-! ## Back to a path -/

theorem endsWithDrive_separator (bytes : Bytes) :
    endsWithDrive (bytes ++ [Path.separator]) = false := by
  rw [endsWithDrive, List.reverse_append, List.reverse_singleton]
  cases bytes.reverse with
  | nil => rfl
  | cons letter before => cases before <;> rfl

/-- The path in the URL of a directory is the path through its names. -/
theorem filePath_directoryPath (names : List Bytes) :
    filePath (directoryPath names) = ⟨Path.separator :: names.flatMap (· ++ [Path.separator])⟩ := by
  have noDrive : endsWithDrive (Path.separator :: names.flatMap (· ++ [Path.separator])) =
      false := by
    obtain rfl | ⟨front, last, rfl⟩ := List.eq_nil_or_concat' names
    · exact endsWithDrive_separator []
    · rw [List.flatMap_append, List.flatMap_singleton, ← List.append_assoc, ← List.cons_append,
        endsWithDrive_separator]
  rw [filePath, Bytes.ofString_ofList, decode_directoryPath]
  simp only [noDrive, Bool.false_eq_true, if_false]

end SchemaMigration.Url
