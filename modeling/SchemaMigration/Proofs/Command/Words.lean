import SchemaMigration.Invocation
import SchemaMigration.Proofs.Sql.Change
import SchemaMigration.Proofs.Text.Form

/-!
# The words of a command line

A command line makes remarks, each of which gives an option its value or turns switches on, and then
comes to the command. `Invocation.Line` is its grammar; what the remarks amount to is put together
one after the other, by `Invocation.Remark.apply`.

* `Word.ofText_cases`: what a word is;
* `Invocation.readWords_of_line`: the words of a line are read as its remarks and its command;
* `Invocation.exists_line`: no other words are read as a command line.
-/

namespace SchemaMigration

/-- The name of an option. -/
def ValueOption.name : ValueOption → String
  | .home => "home"
  | .settingsFile => "config"
  | .databaseName => "db-name"
  | .migrationsDirectory => "migrations-dir"

/-- The long name of a switch. -/
def Switch.name : Switch → String
  | .json => "json"
  | .verbose => "verbose"
  | .help => "help"
  | .version => "version"

namespace Word

/-! ## Names -/

theorem mem_of_lookup {β : Type} {table : List (String × β)} {name : String} {value : β}
    (found : table.lookup name = some value) : (name, value) ∈ table := by
  obtain ⟨before, after, rfl, -⟩ := List.lookup_eq_some_iff.mp found
  exact List.mem_append_right _ List.mem_cons_self

theorem valueOption?_eq_some_iff {name : String} {option : ValueOption} :
    valueOption? name = some option ↔ name = option.name := by
  constructor
  · intro found
    have member := mem_of_lookup found
    simp only [List.mem_cons, Prod.mk.injEq, List.not_mem_nil, or_false] at member
    rcases member with ⟨rfl, rfl⟩ | ⟨rfl, rfl⟩ | ⟨rfl, rfl⟩ | ⟨rfl, rfl⟩ <;> rfl
  · rintro rfl
    cases option <;> decide

theorem switch?_eq_some_iff {name : String} {switch : Switch} :
    switch? name = some switch ↔ name = switch.name := by
  constructor
  · intro found
    have member := mem_of_lookup found
    simp only [List.mem_cons, Prod.mk.injEq, List.not_mem_nil, or_false] at member
    rcases member with ⟨rfl, rfl⟩ | ⟨rfl, rfl⟩ | ⟨rfl, rfl⟩ | ⟨rfl, rfl⟩ <;> rfl
  · rintro rfl
    cases switch <;> decide

/-! ## Single words -/

/-- What a word is by the name behind its dashes and the value behind an equals sign. -/
def named (name : String) (value : Option String) : Word :=
  match valueOption? name, switch? name, value with
  | some option, _, value => .valued option value
  | none, some switch, none => .switches [switch]
  | none, some _, some _ => .valuedSwitch
  | none, none, _ => .other

theorem named_option (option : ValueOption) (value : Option String) :
    named option.name value = .valued option value := by
  unfold named
  rw [valueOption?_eq_some_iff.mpr rfl]

theorem named_switch (switch : Switch) : named switch.name none = .switches [switch] := by
  cases switch <;> decide

theorem named_cases (name : String) (value : Option String) :
    (∃ option : ValueOption, name = option.name ∧ named name value = .valued option value) ∨
      (∃ switch : Switch, name = switch.name ∧ value = none ∧
        named name value = .switches [switch]) ∨
      named name value = .valuedSwitch ∨ named name value = .other := by
  unfold named
  cases asOption : valueOption? name with
  | some option => exact .inl ⟨option, valueOption?_eq_some_iff.mp asOption, rfl⟩
  | none =>
      cases asSwitch : switch? name with
      | none => exact .inr (.inr (.inr rfl))
      | some switch =>
          cases value with
          | none => exact .inr (.inl ⟨switch, switch?_eq_some_iff.mp asSwitch, rfl, rfl⟩)
          | some value => exact .inr (.inr (.inl rfl))

theorem ofText_dashes {cs : List Char} (more : cs ≠ []) :
    ofText (String.ofList ('-' :: '-' :: cs)) =
      named (String.ofList (cs.takeWhile (· ≠ '='))) (attached? cs) := by
  obtain ⟨c, cs, rfl⟩ := List.exists_cons_of_ne_nil more
  rw [ofText, String.toList_ofList]
  rfl

theorem all_ne_equals {name : List Char} (plain : '=' ∉ name) :
    ∀ c ∈ name, (decide (c ≠ '=')) = true :=
  fun _ member => decide_eq_true fun same => plain (same ▸ member)

/-- The value of an option stands behind the first equals sign. -/
theorem ofText_attached {name : String} (plain : '=' ∉ name.toList) (value : String) :
    ofText ("--" ++ name ++ "=" ++ value) = named name (some value) := by
  have word : "--" ++ name ++ "=" ++ value =
      String.ofList ('-' :: '-' :: (name.toList ++ '=' :: value.toList)) := by
    rw [← String.toList_inj]
    simp
  have kept := all_ne_equals plain
  rw [word, ofText_dashes (List.append_ne_nil_of_right_ne_nil _ (List.cons_ne_nil _ _)), attached?,
    List.takeWhile_append_of_pos kept, List.dropWhile_append_of_pos kept]
  simp

theorem ofText_bare {name : String} (plain : '=' ∉ name.toList) (more : name ≠ "") :
    ofText ("--" ++ name) = named name none := by
  have word : "--" ++ name = String.ofList ('-' :: '-' :: name.toList) := by
    rw [← String.toList_inj]
    simp
  have kept := all_ne_equals plain
  rw [word, ofText_dashes (by simpa using more), attached?, List.takeWhile_eq_self_iff.mpr kept,
    List.dropWhile_eq_nil_iff.mpr kept, String.ofList_toList]

theorem ofText_letters {letters : List Char} {switches : List Switch} (more : letters ≠ [])
    (found : letters.mapM letter? = some switches) :
    ofText (String.ofList ('-' :: letters)) = .switches switches := by
  obtain ⟨c, cs, rfl⟩ := List.exists_cons_of_ne_nil more
  have noDash : c ≠ '-' := by
    rintro rfl
    cases found
  rw [ofText, String.toList_ofList]
  split
  · next same => cases same; exact absurd rfl noDash
  · next same => cases same; exact absurd rfl noDash
  · next same => cases same; rw [found]
  · next other => exact absurd rfl (other c cs)

/-- What a word is. -/
theorem ofText_cases (text : String) :
    (text = "--" ∧ ofText text = .separator) ∨
      (∃ name value, text = "--" ++ name ++ "=" ++ value ∧ ofText text = named name (some value)) ∨
      (∃ name, text = "--" ++ name ∧ ofText text = named name none) ∨
      (∃ letters switches, letters ≠ [] ∧ letters.mapM letter? = some switches ∧
        text = String.ofList ('-' :: letters) ∧ ofText text = .switches switches) ∨
      ofText text = .other := by
  obtain ⟨cs, rfl⟩ : ∃ cs, text = String.ofList cs := ⟨text.toList, String.ofList_toList.symm⟩
  by_cases dashed : ∃ rest, cs = '-' :: '-' :: rest
  · obtain ⟨rest, rfl⟩ := dashed
    by_cases valued : '=' ∈ rest
    · obtain ⟨name, value, rfl, plain⟩ := List.eq_append_cons_of_mem valued
      have word : String.ofList ('-' :: '-' :: (name ++ '=' :: value)) =
          "--" ++ String.ofList name ++ "=" ++ String.ofList value := by
        rw [← String.toList_inj]
        simp
      exact .inr (.inl ⟨_, _, word,
        word ▸ ofText_attached (by rwa [String.toList_ofList]) (String.ofList value)⟩)
    · by_cases more : rest = []
      · exact .inl (by rw [more]; exact ⟨rfl, rfl⟩)
      have word : String.ofList ('-' :: '-' :: rest) = "--" ++ String.ofList rest := by
        rw [← String.toList_inj]
        simp
      exact .inr (.inr (.inl ⟨_, word,
        word ▸ ofText_bare (by rwa [String.toList_ofList]) (by simpa using more)⟩))
  · rw [ofText, String.toList_ofList]
    split
    · exact absurd ⟨_, rfl⟩ dashed
    · exact absurd ⟨_, rfl⟩ dashed
    · next c rest _ _ =>
        cases found : (c :: rest).mapM letter? with
        | some switches =>
            exact .inr (.inr (.inr (.inl ⟨_, switches, List.cons_ne_nil _ _, found, rfl, rfl⟩)))
        | none => exact .inr (.inr (.inr (.inr rfl)))
    · exact .inr (.inr (.inr (.inr rfl)))

end Word

namespace Invocation

/-! ## Lines -/

/-- What an option says, or some switches. -/
inductive Remark where
  | value (option : ValueOption) (text : String)
  | switches (switches : List Switch)

/-- The words of a remark. The value of an option stands behind an equals sign or is the next word,
which then must not look like an option. -/
inductive Remark.Spelled : Remark → List String → Prop
  | attached (option : ValueOption) (text : String) :
      Spelled (.value option text) ["--" ++ option.name ++ "=" ++ text]
  | apart (option : ValueOption) {text : String} (plain : Word.ofText text = .other) :
      Spelled (.value option text) ["--" ++ option.name, text]
  | long (switch : Switch) : Spelled (.switches [switch]) ["--" ++ switch.name]
  | short {letters : List Char} {switches : List Switch} (more : letters ≠ [])
      (found : letters.mapM Word.letter? = some switches) :
      Spelled (.switches switches) [String.ofList ('-' :: letters)]

/-- Words that make remarks and then come to a command, behind two dashes or with the first word
that does not look like an option. -/
inductive Line : List Remark → List String → List String → Prop
  | separated (command : List String) : Line [] command ("--" :: command)
  | plain {word : String} (other : Word.ofText word = .other) (rest : List String) :
      Line [] (word :: rest) (word :: rest)
  | remark {remark : Remark} {first : List String} {remarks : List Remark}
      {command rest : List String} (spelled : remark.Spelled first)
      (line : Line remarks command rest) : Line (remark :: remarks) command (first ++ rest)

/-- What a remark makes of an invocation. -/
def Remark.apply (invocation : Invocation) : Remark → Except Usage Invocation
  | .value option text =>
    match invocation.give? option text with
    | some invocation => .ok invocation
    | none => .error .misuse
  | .switches found => found.foldlM turnOn invocation

theorem plain_option (option : ValueOption) :
    '=' ∉ option.name.toList ∧ option.name ≠ "" := by
  cases option <;> decide

theorem plain_switch (switch : Switch) : '=' ∉ switch.name.toList ∧ switch.name ≠ "" := by
  cases switch <;> decide

variable {invocation asked : Invocation} {remark : Remark} {remarks : List Remark}
  {first rest command words : List String}

/-- One word, by what it is. -/
theorem readWords_cons (invocation : Invocation) (pending : Option ValueOption) (word : String)
    (rest : List String) :
    readWords invocation pending (word :: rest) =
      match Word.ofText word, pending with
      | .separator, none => .ok { invocation with command := rest }
      | .valued option none, none => readWords invocation (some option) rest
      | .valued option (some value), none =>
        (Remark.apply invocation (.value option value)).bind (readWords · none rest)
      | .switches found, none =>
        (Remark.apply invocation (.switches found)).bind (readWords · none rest)
      | .other, none => .ok { invocation with command := word :: rest }
      | .other, some option =>
        (Remark.apply invocation (.value option word)).bind (readWords · none rest)
      | .valuedSwitch, _ | _, some _ => .error .misuse := by
  conv_lhs => unfold readWords
  simp only [Remark.apply]
  cases Word.ofText word with
  | valued option value =>
      cases pending with
      | none =>
          cases value with
          | none => rfl
          | some value =>
              simp only
              cases invocation.give? option value <;> rfl
      | some _ => cases value <;> rfl
  | switches found =>
      cases pending with
      | none =>
          simp only
          cases found.foldlM turnOn invocation <;> rfl
      | some _ => rfl
  | other =>
      cases pending with
      | none => rfl
      | some option =>
          simp only
          cases invocation.give? option word <;> rfl
  | separator => cases pending <;> rfl
  | valuedSwitch => cases pending <;> rfl

/-- The word behind an option that waits for its value is the value, and looks like no option. -/
theorem of_readWords_pending {option : ValueOption} {word : String}
    (done : readWords invocation (some option) (word :: rest) = .ok asked) :
    Word.ofText word = .other ∧
      (Remark.apply invocation (.value option word)).bind (readWords · none rest) = .ok asked := by
  rw [readWords_cons] at done
  cases is : Word.ofText word with
  | other => rw [is] at done; exact ⟨rfl, done⟩
  | valued _ value => rw [is] at done; cases value <;> cases done
  | separator => rw [is] at done; cases done
  | switches _ => rw [is] at done; cases done
  | valuedSwitch => rw [is] at done; cases done

theorem readWords_spelled (spelled : remark.Spelled first) :
    readWords invocation none (first ++ rest) =
      (remark.apply invocation).bind (readWords · none rest) := by
  cases spelled with
  | attached option text =>
      rw [List.singleton_append, readWords_cons, Word.ofText_attached (plain_option option).1,
        Word.named_option]
  | @apart option text plain =>
      rw [List.cons_append, List.singleton_append, readWords_cons,
        Word.ofText_bare (plain_option option).1 (plain_option option).2, Word.named_option]
      simp only
      rw [readWords_cons, plain]
  | long switch =>
      rw [List.singleton_append, readWords_cons,
        Word.ofText_bare (plain_switch switch).1 (plain_switch switch).2, Word.named_switch]
  | short more found =>
      rw [List.singleton_append, readWords_cons, Word.ofText_letters more found]

/-- The words of a line are read remark by remark, and then the command. -/
theorem readWords_of_line (line : Line remarks command words) (invocation : Invocation) :
    readWords invocation none words =
      (remarks.foldlM Remark.apply invocation).map ({ · with command }) := by
  induction line generalizing invocation with
  | separated command => rfl
  | plain other rest =>
      rw [readWords_cons, other]
      rfl
  | @remark remark _ remarks _ _ spelled _ ih =>
      rw [readWords_spelled spelled, List.foldlM_cons]
      cases remark.apply invocation with
      | error usage => rfl
      | ok after => exact ih after

/-! ## What a remark changes -/

/-- The value that a remark gives the home directory. -/
def Remark.home? : Remark → Option String
  | .value .home text => some text
  | _ => none

/-- The value that the first of some remarks about it gives the home directory. -/
def homeText? (remarks : List Remark) : Option String :=
  remarks.findSome? Remark.home?

theorem of_turnOn {switch : Switch} {after : Invocation}
    (done : invocation.turnOn switch = .ok after) :
    after.command = invocation.command ∧ after.home = invocation.home := by
  unfold turnOn at done
  split at done
  · split at done <;> cases done
    exact ⟨rfl, rfl⟩
  · split at done <;> cases done
    exact ⟨rfl, rfl⟩
  · cases done
  · cases done

theorem of_give? {option : ValueOption} {text : String} {after : Invocation}
    (given : invocation.give? option text = some after) :
    after.command = invocation.command ∧
      after.home = invocation.home.or ((Remark.home? (.value option text)).map Path.ofString) := by
  cases option with
  | home =>
      rw [give?] at given
      split at given
      · cases given
      · next absent =>
        obtain ⟨path, whole, rfl⟩ := Option.map_eq_some_iff.mp given
        rw [path?] at whole
        split at whole
        · cases whole
        · cases whole
          rw [Option.not_isSome_iff_eq_none.mp absent]
          exact ⟨rfl, rfl⟩
  | databaseName =>
      rw [give?] at given
      split at given <;> cases given
      exact ⟨rfl, Option.or_none.symm⟩
  | settingsFile =>
      rw [give?] at given
      split at given
      · cases given
      · obtain ⟨path, -, rfl⟩ := Option.map_eq_some_iff.mp given
        exact ⟨rfl, Option.or_none.symm⟩
  | migrationsDirectory =>
      rw [give?] at given
      split at given
      · cases given
      · obtain ⟨path, -, rfl⟩ := Option.map_eq_some_iff.mp given
        exact ⟨rfl, Option.or_none.symm⟩

theorem Remark.of_apply {after : Invocation} (done : remark.apply invocation = .ok after) :
    after.command = invocation.command ∧
      after.home = invocation.home.or (remark.home?.map Path.ofString) := by
  cases remark with
  | value option text =>
      simp only [Remark.apply] at done
      split at done
      · next given => cases done; exact of_give? given
      · cases done
  | switches found =>
      refine Sql.foldlM_keeps (P := fun after => after.command = invocation.command ∧
        after.home = invocation.home.or none) ?_ ⟨rfl, Option.or_none.symm⟩ done
      intro switch _ before after kept step
      obtain ⟨command, home⟩ := of_turnOn step
      exact ⟨command.trans kept.1, home.trans kept.2⟩

/-- Remarks name the home directory that the first one names which names any. -/
theorem home_of_remarks {after : Invocation}
    (done : remarks.foldlM Remark.apply invocation = .ok after) :
    after.home = invocation.home.or ((homeText? remarks).map Path.ofString) := by
  induction remarks generalizing invocation with
  | nil => cases done; exact Option.or_none.symm
  | cons remark remarks ih =>
      rw [List.foldlM_cons] at done
      obtain ⟨middle, first, done⟩ := Sql.bind_eq_ok.mp done
      rw [ih done, (Remark.of_apply first).2, Option.or_assoc, homeText?, homeText?,
        List.findSome?_cons]
      cases remark.home? <;> rfl

/-! ## Nothing else is read -/

/-- Whatever is read as a command line with a command is a line. -/
theorem exists_line {invocation asked : Invocation} (words : List String)
    (done : readWords invocation none words = .ok asked) (bare : invocation.command = [])
    (commanded : asked.command ≠ []) : ∃ remarks, Line remarks asked.command words := by
  match words with
  | [] =>
      cases done
      exact absurd bare commanded
  | word :: rest =>
      -- A remark at the front leaves a shorter line.
      have further {remark : Remark} {first left : List String}
          (shorter : left.length < (word :: rest).length) (spelled : remark.Spelled first)
          (done : (remark.apply invocation).bind (readWords · none left) = .ok asked) :
          ∃ remarks, Line remarks asked.command (first ++ left) := by
        obtain ⟨middle, applied, done⟩ := Sql.bind_eq_ok.mp done
        obtain ⟨remarks, line⟩ :=
          exists_line left done ((Remark.of_apply applied).1.trans bare) commanded
        exact ⟨remark :: remarks, .remark spelled line⟩
      have plain (other : Word.ofText word = .other) :
          ∃ remarks, Line remarks asked.command (word :: rest) := by
        rw [readWords_cons, other] at done
        cases done
        exact ⟨[], .plain other rest⟩
      rw [readWords_cons] at done
      rcases Word.ofText_cases word with ⟨rfl, separates⟩ | ⟨name, value, rfl, valued⟩ |
        ⟨name, rfl, bareName⟩ | ⟨letters, switches, more, found, rfl, turns⟩ | other
      · rw [separates] at done
        cases done
        exact ⟨[], .separated rest⟩
      · rcases Word.named_cases name (some value) with
          ⟨option, rfl, is⟩ | ⟨_, _, absent, _⟩ | is | is
        · rw [valued, is] at done
          exact further (Nat.lt_succ_self _) (.attached option value) done
        · cases absent
        · rw [valued, is] at done
          cases done
        · exact plain (valued.trans is)
      · rcases Word.named_cases name none with ⟨option, rfl, is⟩ | ⟨switch, rfl, -, is⟩ | is | is
        · rw [bareName, is] at done
          cases rest with
          | nil => cases done
          | cons value rest =>
              obtain ⟨other, done⟩ := of_readWords_pending done
              exact further (Nat.lt_succ_of_lt (Nat.lt_succ_self _)) (.apart option other) done
        · rw [bareName, is] at done
          exact further (Nat.lt_succ_self _) (.long switch) done
        · rw [bareName, is] at done
          cases done
        · exact plain (bareName.trans is)
      · rw [turns] at done
        exact further (Nat.lt_succ_self _) (.short more found) done
      · exact plain other
  termination_by words.length
  decreasing_by exact shorter

end Invocation

end SchemaMigration
