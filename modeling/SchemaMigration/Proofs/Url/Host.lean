import Mathlib.Tactic.Common
import Mathlib.Tactic.IntervalCases
import SchemaMigration.Proofs.Url.Reading

/-!
# File URLs with a host

A host of lower-case letters is read as it is, unless it is `localhost`, which stands for no host.
The path behind it is read like that of a URL without a host, but a drive in front of it takes the
host away.

* `Url.Host.read_letters`: the host.
* `Url.leadsWithDrive_trailing`: the drive.
* `Url.read_host`, `Url.read_host_drive`: the whole URL.
-/

namespace SchemaMigration.Url

/-! ## Lower-case letters -/

/-- The letters in lower case. -/
def letters : List Char :=
  "abcdefghijklmnopqrstuvwxyz".toList

theorem mem_letters_of_isLower {c : Char} (lower : c.isLower = true) : c ∈ letters := by
  have range : (decide (c.val ≥ 97) && decide (c.val ≤ 122)) = true := lower
  rw [Bool.and_eq_true, decide_eq_true_eq, decide_eq_true_eq] at range
  obtain ⟨low, high⟩ : 97 ≤ c.toNat ∧ c.toNat ≤ 122 := range
  have back : Char.ofNat c.toNat = c := Char.ofNat_toNat c
  generalize c.toNat = n at back low high
  subst back
  interval_cases n <;> decide

/-- What holds of each letter holds of every character of a host of letters. -/
theorem forall_of_isLower {host : List Char} (lower : ∀ c ∈ host, c.isLower = true)
    {test : Char → Bool} (each : letters.all test = true) : ∀ c ∈ host, test c = true :=
  fun c mem => List.all_eq_true.mp each c (mem_letters_of_isLower (lower c mem))

/-- Hosts of lower-case letters hold nothing that a URL has to escape. -/
theorem encodeName_letters {host : List Char} (lower : ∀ c ∈ host, c.isLower = true) :
    encodeName (Bytes.ofString (String.ofList host)) = host := by
  have plainByte : letters.all (fun c => String.utf8EncodeChar c = [UInt8.ofNat c.toNat] ∧
      Percent.segment (UInt8.ofNat c.toNat) = false ∧
      Char.ofNat (UInt8.ofNat c.toNat).toNat = c) = true := by decide +kernel
  rw [Bytes.ofString_ofList]
  induction host with
  | nil => rfl
  | cons c cs ih =>
      obtain ⟨encoded, kept, back⟩ :=
        of_decide_eq_true (forall_of_isLower lower plainByte c List.mem_cons_self)
      have tail := ih fun c mem => lower c (List.mem_cons_of_mem _ mem)
      rw [encodeName, Percent.encode] at tail ⊢
      rw [List.flatMap_cons, encoded, List.singleton_append, List.flatMap_cons, kept,
        if_neg Bool.false_ne_true, back, tail, List.singleton_append]

/-- The mark of a drive is no letter. -/
theorem isDrive_letters {host : List Char} (lower : ∀ c ∈ host, c.isLower = true) :
    isDrive host = false := by
  refine Bool.eq_false_iff.mpr fun drive => ?_
  obtain ⟨letter, mark, rfl, -, isMark⟩ := exists_of_isDrive drive
  have markLower := lower mark (List.mem_cons_of_mem _ List.mem_cons_self)
  obtain rfl | rfl := isMark <;> exact absurd markLower (by decide)

namespace Domain

theorem compose_letters {cs : List Char} (lower : ∀ c ∈ cs, c.isLower = true) :
    compose cs = cs := by
  have noMark : letters.all (fun c =>
      (baseLetters.find? fun marked => marked.1 = c).isNone) = true := by decide
  fun_induction compose cs with
  | case1 a b rest c composed ih =>
      have mark := forall_of_isLower lower noMark b (List.mem_cons_of_mem _ List.mem_cons_self)
      rw [compose?, Option.isNone_iff_eq_none.mp mark] at composed
      cases composed
  | case2 a b rest _ ih => rw [ih fun c mem => lower c (List.mem_cons_of_mem _ mem)]
  | case3 cs => rfl

/-- A domain of lower-case letters is in its ASCII form. -/
theorem toAscii?_letters {cs : List Char} (lower : ∀ c ∈ cs, c.isLower = true) :
    toAscii? cs = some cs := by
  have kept : cs.filter (!isIgnored ·) = cs :=
    List.filter_eq_self.mpr (forall_of_isLower lower (by decide))
  have eachMapped : letters.all (fun c => mapped c = c) = true := by decide
  have same : cs.map mapped = cs :=
    (List.map_congr_left fun c mem => of_decide_eq_true
      (forall_of_isLower lower eachMapped c mem)).trans (List.map_id cs)
  have eachAllowed : letters.all (fun c => !(isForbidden c || isDisallowed c)) = true := by decide
  have allowed : (cs.any fun c => isForbidden c || isDisallowed c) = false :=
    List.any_eq_false.mpr fun c mem => by
      have passed := forall_of_isLower lower eachAllowed c mem
      rw [Bool.not_eq_true'] at passed
      exact Bool.eq_false_iff.mp passed
  have eachAscii : letters.all (fun c => !decide (128 ≤ c.toNat)) = true := by decide
  have ascii : cs.any (128 ≤ ·.toNat) = false :=
    List.any_eq_false.mpr fun c mem => by
      have passed := forall_of_isLower lower eachAscii c mem
      rw [Bool.not_eq_true'] at passed
      exact Bool.eq_false_iff.mp passed
  have oneLabel : Form.splitOn (· == '.') cs = [cs] := by
    rw [Form.splitOn_eq_splitOnP]
    exact List.splitOn_eq_singleton fun mem => absurd (lower '.' mem) (by decide)
  have plain : "xn--".toList.isPrefixOf cs = false := Bool.eq_false_iff.mpr fun lead => by
    obtain ⟨rest, rfl⟩ := List.isPrefixOf_iff_prefix.mp lead
    exact absurd (lower '-' (by simp)) (by decide)
  rw [toAscii?, kept, same, compose_letters lower, allowed]
  simp only [Bool.false_eq_true, if_false, oneLabel, List.mapM_cons, List.mapM_nil, labelToAscii?,
    ascii, plain, Option.pure_def, Option.bind_eq_bind, Option.bind_some,
    List.intercalate_singleton]

end Domain

namespace Host

/-- Letters are no address. -/
theorem endsInNumber_letters {host : List Char} (some : host ≠ [])
    (lower : ∀ c ∈ host, c.isLower = true) : endsInNumber host = false := by
  obtain ⟨first, rest, rfl⟩ := List.exists_cons_of_ne_nil some
  have onePart : Form.splitOn (· == '.') (first :: rest) = [first :: rest] := by
    rw [Form.splitOn_eq_splitOnP]
    exact List.splitOn_eq_singleton fun mem => absurd (lower '.' mem) (by decide)
  have noDigits : letters.all (fun c =>
      c.isDigit = false ∧ Digit.value? 10 c = none ∧ c ≠ '0') = true := by decide
  obtain ⟨notDigit, noValue, notZero⟩ :=
    of_decide_eq_true (forall_of_isLower lower noDigits first List.mem_cons_self)
  have noNumber : addressNumber? (first :: rest) = none := by
    unfold addressNumber?
    split
    · rfl
    · next h => exact absurd (List.head_eq_of_cons_eq h) notZero
    · next h => exact absurd (List.head_eq_of_cons_eq h) notZero
    · next h => exact absurd (List.head_eq_of_cons_eq h) notZero
    · rw [Digit.number?, List.foldlM_cons, noValue]
      rfl
  simp only [endsInNumber, onePart, List.reverse_singleton, List.all_cons, notDigit, noNumber,
    Bool.false_and, Bool.false_eq_true, and_false, decide_false, Option.isSome_none, Bool.or_self]

/-- **A host of lower-case letters is the domain that it spells.** -/
theorem read_letters {host : List Char} (some : host ≠ [])
    (lower : ∀ c ∈ host, c.isLower = true) :
    Host.read host = .ok (.domain (String.ofList host)) := by
  have noBracket : ¬ host.head? = Option.some '[' := fun head => by
    exact absurd (lower '[' (List.mem_of_head? head)) (by decide)
  have decoded := decode_encodeName (Bytes.ofString (String.ofList host))
  rw [encodeName_letters lower, ← Bytes.ofString_ofList] at decoded
  have isText : (Bytes.ofString (String.ofList host)).text? = Option.some (String.ofList host) := by
    rw [Bytes.text?, Utf8.decode_ofString]
    rfl
  obtain ⟨first, rest, rfl⟩ := List.exists_cons_of_ne_nil some
  rw [Host.read, if_neg noBracket, decoded, isText]
  simp only [String.toList_ofList, Domain.toAscii?_letters lower,
    endsInNumber_letters some lower, Bool.false_eq_true, if_false]

end Host

/-! ## Drives -/

/-- The name of a drive stands for itself in a URL. -/
theorem isDrive_encodeName_drive {name : Bytes} (drive : isDriveName name = true) :
    isDrive (encodeName name) = true := by
  have keptLetter : ∀ n < 256, (Char.ofNat n).isAlpha = true →
      Percent.segment (UInt8.ofNat n) = false := by decide +kernel
  unfold isDriveName at drive
  split at drive
  next letter mark =>
    rw [Bool.and_eq_true, Bool.or_eq_true, beq_iff_eq, beq_iff_eq] at drive
    obtain ⟨alpha, isMark⟩ := drive
    have kept := keptLetter letter.toNat letter.toNat_lt alpha
    rw [UInt8.ofNat_toNat] at kept
    have keptMark : Percent.segment mark = false ∧
        (Char.ofNat mark.toNat == ':' || Char.ofNat mark.toNat == '|') = true := by
      obtain rfl | rfl := isMark <;> decide
    simp only [encodeName, Percent.encode, List.flatMap_cons, List.flatMap_nil, kept, keptMark.1,
      Bool.false_eq_true, if_false, List.singleton_append, List.append_nil]
    rw [isDrive, alpha, keptMark.2, Bool.and_self]
  next => cases drive

/-- A drive leads names if the first of them is one. -/
theorem leadsWithDrive_of_head {names : List Bytes} {first : Bytes}
    (head : names.head? = some first)
    (drive : isDriveName first = true) : leadsWithDrive ['/'] (trailing names) = true := by
  obtain ⟨rest, rfl⟩ := List.head?_eq_some_iff.mp head
  rw [leadsWithDrive, takeWhile_trailing, splitOn_trailing, List.map_cons, List.cons_append,
    leadsWithDrive.go, isDrive_encodeName_drive drive]
  rfl

/-- No drive leads names, behind others, that no drive is in the way of. -/
theorem leadsWithDrive_go_encodeName {names start : List Bytes}
    (isName : ∀ name ∈ names, Path.IsName name)
    (driveFree : DriveFree start names) :
    leadsWithDrive.go (directoryPath start) (names.map encodeName ++ [[]]) = false := by
  induction names generalizing start with
  | nil =>
      rw [List.map_nil, List.nil_append, leadsWithDrive.go, leadsWithDrive.go, Bool.or_false]
      exact Bool.and_eq_false_imp.mpr fun _ => rfl
  | cons name names ih =>
      have more : (names.map encodeName ++ [[]]).isEmpty = false := by
        rw [List.isEmpty_eq_false_iff]
        exact List.append_ne_nil_of_right_ne_nil _ (List.cons_ne_nil _ _)
      have noDrive : (directoryPath start = ['/'] && isDrive (encodeName name)) = false := by
        refine Bool.and_eq_false_imp.mpr fun root => isDrive_encodeName ?_
        by_cases up : name = Path.dotDot
        · rw [up]; rfl
        · have passable := driveFree.1
          rw [Passable, if_neg up] at passable
          exact passable (directoryPath_eq_slash.mp (of_decide_eq_true root))
      rw [List.map_cons, List.cons_append, leadsWithDrive.go, noDrive, Bool.false_or, more,
        encodeSegment_encodeName, Bool.not_false,
        addSegment_encodeName (isName name List.mem_cons_self) driveFree.1]
      exact ih (fun n mem => isName n (List.mem_cons_of_mem _ mem)) driveFree.2

/-- No drive leads names that no drive is in the way of. -/
theorem leadsWithDrive_trailing {names : List Bytes} (isName : ∀ name ∈ names, Path.IsName name)
    (driveFree : DriveFree [] names) : leadsWithDrive ['/'] (trailing names) = false := by
  rw [leadsWithDrive, takeWhile_trailing, splitOn_trailing]
  exact leadsWithDrive_go_encodeName isName driveFree

/-! ## The whole URL -/

section

variable {host : List Char} {names : List Bytes}

/-- A URL with a host of letters is read as its host and its path. -/
theorem read_letters (nonempty : host ≠ []) (lower : ∀ c ∈ host, c.isLower = true)
    (notLocal : String.ofList host ≠ "localhost") :
    read ("file://" ++ String.ofList (host ++ directoryPath names)) =
      .ok (.file
          (if leadsWithDrive ['/'] (trailing names) then none else some (String.ofList host))
          (readPath ['/'] (trailing names))) := by
  have eachPrintable : letters.all (fun c => 0x20 < c.toNat) = true := by decide
  have printable : ∀ c ∈ host ++ directoryPath names, 0x20 < c.toNat := fun c mem => by
    obtain mem | mem := List.mem_append.mp mem
    · exact of_decide_eq_true (forall_of_isLower lower eachPrintable c mem)
    · exact printable_of_mem_directoryPath mem
  have scheme : splitScheme? ("file://".toList ++ (host ++ directoryPath names)) =
      some ("file", '/' :: '/' :: (host ++ directoryPath names)) := rfl
  let inHost (c : Char) : Bool := !(isSlash c || c == '?' || c == '#')
  have isHost : ∀ c ∈ host, inHost c = true := forall_of_isLower lower (by decide)
  have slashEnds : ¬ inHost '/' = true := by decide
  have hostText : (host ++ directoryPath names).takeWhile inHost = host := by
    rw [directoryPath, List.takeWhile_append_of_pos isHost, List.takeWhile_cons_of_neg slashEnds,
      List.append_nil]
  have behind : (host ++ directoryPath names).dropWhile inHost = directoryPath names := by
    rw [directoryPath, List.dropWhile_append_of_pos isHost, List.dropWhile_cons_of_neg slashEnds]
  have notLocalhost : Host.domain (String.ofList host) ≠ .domain "localhost" :=
    fun eq => notLocal (Host.domain.inj eq)
  rw [read, stripped_of_printable printable, scheme]
  change readFileAuthority (host ++ directoryPath names) = _
  simp only [inHost] at hostText behind
  simp only [readFileAuthority, hostText, behind, isDrive_letters lower, nonempty,
    Host.read_letters nonempty lower, notLocalhost, pure, Except.pure, bind, Except.bind,
    Bool.false_eq_true, if_false]
  rfl

end

end SchemaMigration.Url
