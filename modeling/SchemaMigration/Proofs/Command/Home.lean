import SchemaMigration.Proofs.Command.Words
import SchemaMigration.Proofs.Text.Utf8
import SchemaMigration.Run

/-!
# The home directory of a run

The environment variable is looked at twice. Reading a command line takes its value for the option
that is missing, and choosing a home directory comes back to it. Both agree, except on the empty
text: the choice passes over it, and as the value of the option it is refused.

* `Invocation.runIn`: what an invocation does in a home directory;
* `Invocation.read_of_readWords`: what the variable makes of a command line;
* `Home.choose_or`: when it does not matter that the variable stands in for the option;
* `runWords_home`: in which home directory a command line is carried out.
-/

namespace SchemaMigration

/-- Asking for the directory that the environment names, where none is asked for, changes nothing,
unless that directory has the empty name. -/
theorem Home.choose_or {asked environment : Option Path} (user : Option Path)
    (named : asked = none → ∀ path ∈ environment, path.bytes ≠ []) :
    choose (asked.or environment) environment user = choose asked environment user := by
  cases asked with
  | some path => rfl
  | none =>
      cases environment with
      | none => rfl
      | some path =>
          have kept : (some path).filter (·.bytes ≠ []) = some path :=
            Option.filter_some_pos (decide_eq_true (named rfl path rfl))
          show .ok path = choose none (some path) user
          unfold choose
          rw [kept]

namespace Invocation

variable {words : List String} {asked : Invocation}

/-! ## Runs in a home directory -/

/-- What an invocation does in a home directory: its settings are those of the configuration file
there, unless it names another file, and its database is there. -/
def runIn (invocation : Invocation) (home workingDirectory : Path) (tree : FileTree) :
    FileTree × Report :=
  match Settings.load tree home invocation.settingsFile with
  | .error e => (tree, .ofSettingsError e)
  | .ok settings =>
    let locations : Locations := .resolve (invocation.adjust settings) home workingDirectory
    let format := if invocation.json then OutputFormat.json else .text
    match locations.runOptions tree invocation.command format {} with
    | (tree, sink, .ok _) => (tree, { code := 0, output := sink.written })
    | (tree, sink, .error e) => (tree, .ofError sink.written e)

/-- A run chooses its home directory and then does what it does there. -/
theorem run_eq (invocation : Invocation) (surroundings : Surroundings) (tree : FileTree) :
    invocation.run surroundings tree =
      match invocation.chooseHome surroundings with
      | .error e => (tree, .ofError "" e)
      | .ok home => invocation.runIn home surroundings.workingDirectory tree := by
  rw [run, locations]
  cases invocation.chooseHome surroundings with
  | error e => rfl
  | ok home =>
      simp only [runIn]
      cases Settings.load tree home invocation.settingsFile <;> rfl

/-! ## The variable -/

/-- The variable stands in for an option that is missing, for which the empty text is no value. -/
theorem read_of_readWords (done : readWords {} none words = .ok asked) (value? : Option String) :
    read words value? =
      if (asked.home = none ∧ value? = some "") ∨ asked.command = [] then .error .misuse
      else .ok { asked with home := asked.home.or (value?.map Path.ofString) } := by
  rw [read, done]
  obtain ⟨home, file, name, directory, json, verbose, command⟩ := asked
  cases home with
  | some path => cases value? <;> cases command <;> rfl
  | none =>
      cases value? with
      | none => cases command <;> rfl
      | some value =>
          by_cases empty : value = ""
          · rw [empty]
            rfl
          · have given : path? value = some (Path.ofString value) := if_neg empty
            simp only [bind, Except.bind, give?, given]
            cases command with
            | nil => simp; rfl
            | cons word rest => simp [empty]; rfl

theorem read_none_eq_ok_iff :
    read words none = .ok asked ↔ readWords {} none words = .ok asked ∧ asked.command ≠ [] := by
  cases done : readWords {} none words with
  | error usage =>
      rw [read, done]
      exact ⟨nofun, fun other => nomatch other.1⟩
  | ok invocation =>
      have whole : { invocation with home := invocation.home.or none } = invocation := by
        rw [Option.or_none]
      rw [read_of_readWords done, Option.map_none, whole]
      split
      · next bare =>
        refine ⟨nofun, ?_⟩
        rintro ⟨⟨⟩, commanded⟩
        exact absurd (bare.resolve_left nofun) commanded
      · next commanded =>
        refine ⟨?_, And.left⟩
        rintro ⟨⟩
        exact ⟨rfl, fun bare => commanded (.inr bare)⟩

/-- The home directory of an invocation is the one that its remarks name. -/
theorem home_of_line {remarks : List Remark} {command : List String}
    (line : Line remarks command words) (done : readWords {} none words = .ok asked) :
    asked.home = (homeText? remarks).map Path.ofString := by
  rw [readWords_of_line line] at done
  cases together : remarks.foldlM Remark.apply {} with
  | error usage => rw [together] at done; cases done
  | ok invocation =>
      rw [together] at done
      cases done
      exact (home_of_remarks together).trans Option.none_or

end Invocation

/-! ## Whole runs -/

/-- **The home directory of a run.** A command line that is right while the variable is not set
makes remarks, which may name a home directory. If they name none and the variable is set to the
empty text, the command line is refused and nothing is touched. Otherwise the run is that in the
home directory which is chosen from the one that the remarks name, the variable and the home of the
user. -/
theorem runWords_home {words : List String} {asked : Invocation}
    (valid : Invocation.read words none = .ok asked) (surroundings : Surroundings)
    (tree : FileTree) :
    (∃ remarks, Invocation.Line remarks asked.command words) ∧
      ∀ remarks command, Invocation.Line remarks command words →
        let flag := (Invocation.homeText? remarks).map Path.ofString
        runWords words surroundings tree =
          if flag = none ∧ surroundings.homeVariable = some "" then (tree, .ofUsage .misuse)
          else match Home.choose flag (surroundings.homeVariable.map Path.ofString)
              surroundings.userHome with
            | .error e => (tree, .ofError "" e)
            | .ok home => asked.runIn home surroundings.workingDirectory tree := by
  obtain ⟨done, commanded⟩ := Invocation.read_none_eq_ok_iff.mp valid
  refine ⟨Invocation.exists_line words done rfl commanded, fun remarks command line => ?_⟩
  rw [← Invocation.home_of_line line done, runWords, Invocation.read_of_readWords done]
  simp only [commanded, or_false]
  by_cases emptied : asked.home = none ∧ surroundings.homeVariable = some ""
  · rw [if_pos emptied, if_pos emptied]
  · rw [if_neg emptied, if_neg emptied]
    have named : asked.home = none →
        ∀ path ∈ surroundings.homeVariable.map Path.ofString, path.bytes ≠ [] := by
      intro unnamed path member empty
      obtain ⟨value, set, rfl⟩ := Option.map_eq_some_iff.mp member
      exact emptied ⟨unnamed, Bytes.ofString_eq_nil_iff.mp empty ▸ set⟩
    simp only [Invocation.run_eq, Invocation.chooseHome, Home.choose_or surroundings.userHome named]
    rfl

/-- A working directory `/w` with one migration where migrations usually are. -/
def workplace : FileTree where
  nodes := [([Bytes.ofString "w"], .directory),
    ([Bytes.ofString "w", Bytes.ofString "db"], .directory),
    ([Bytes.ofString "w", Bytes.ofString "db", Bytes.ofString "migrations"], .directory),
    (["w", "db", "migrations", "1_a.up.sql"].map Bytes.ofString, .file (.plain []))]

/-- A user at that place, for whom the variable is set or not. -/
def atWorkplace (homeVariable : Option String) : Surroundings where
  homeVariable
  userHome := some (Path.ofString "/u")
  workingDirectory := Path.ofString "/w"

/-- With the option an empty variable is passed over, and without the option a variable that is not
empty counts before the home of the user. -/
theorem runWords_home_sample :
    runWords ["-v", "--home=/f", "--migrate-version"] (atWorkplace (some "")) workplace =
        Invocation.runIn { command := ["--migrate-version"] } (Path.ofString "/f")
          (Path.ofString "/w") workplace ∧
      runWords ["--json", "--", "--migrate-version"] (atWorkplace (some "e")) workplace =
        Invocation.runIn { json := true, command := ["--migrate-version"] } (Path.ofString "e")
          (Path.ofString "/w") workplace := by
  have flagged : Invocation.Line [.switches [.verbose], .value .home "/f"] ["--migrate-version"]
      ["-v", "--home=/f", "--migrate-version"] :=
    .remark (.short (List.cons_ne_nil _ _) rfl)
      (.remark (.attached .home "/f") (.plain (by decide +kernel) []))
  have bare : Invocation.Line [.switches [.json]] ["--migrate-version"]
      ["--json", "--", "--migrate-version"] :=
    .remark (.long .json) (.separated _)
  have asksFlagged : Invocation.read ["-v", "--home=/f", "--migrate-version"] none =
      .ok { home := some (Path.ofString "/f"), verbose := true
            command := ["--migrate-version"] } := by
    decide +kernel
  have asksBare : Invocation.read ["--json", "--", "--migrate-version"] none =
      .ok { json := true, command := ["--migrate-version"] } := by
    decide +kernel
  constructor
  · exact (runWords_home asksFlagged (atWorkplace (some "")) workplace).2 _ _ flagged
  · exact (runWords_home asksBare (atWorkplace (some "e")) workplace).2 _ _ bare

/-- An empty variable is not like one that is not set: the choice passes over it and the home of the
user would do, but the run is refused. -/
theorem runWords_home_emptied :
    Invocation.read ["--migrate-version"] none = .ok { command := ["--migrate-version"] } ∧
      Home.choose none (some (Path.ofString "")) (some (Path.ofString "/u")) =
        .ok (Path.ofString "/u/.sstore") ∧
      runWords ["--migrate-version"] (atWorkplace (some "")) workplace =
        (workplace, { code := 2, complaint := "Usage: sstore [OPTIONS] <COMMAND>...\n" }) ∧
      (runWords ["--migrate-version"] (atWorkplace none) workplace).2 =
        { code := 0, output := "[db] version=none\n" } ∧
      (Invocation.runIn { command := ["--migrate-version"] } (Path.ofString "/u/.sstore")
          (Path.ofString "/w") workplace).2 =
        { code := 0, output := "[db] version=none\n" } := by
  decide +kernel

end SchemaMigration
