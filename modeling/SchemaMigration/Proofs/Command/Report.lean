import SchemaMigration.Proofs.Command.Opening
import SchemaMigration.Proofs.Text.Numeral

/-!
# What a command reports

A script that reads the line of a command may trust it: the line stands for a clean state, which the
database holds, and a command that fails leaves no line.

* `OutputFormat.line_inj`: different versions are reported by different lines.
* `Locations.Records`: the database that the locations lead to holds a state.
* `Locations.ReportsFaithfully`: what a command promises about its output.
* `Locations.runOptions_reportsFaithfully`: every command keeps the promise.
-/

namespace SchemaMigration

open Sql (Session Database)

/-! ## Lines -/

/-- The decimal digits of a number stand for no other number. -/
theorem toString_inj {m n : Nat} (same : toString m = toString n) : m = n := by
  rw [← Numeral.value_toString m, same, Numeral.value_toString]

namespace OutputFormat

/-- The word for a database without version. -/
def absence : OutputFormat → String
  | .text => "none"
  | .json => "null"

/-- A version in a report. -/
def versionText (format : OutputFormat) : Option Version → String
  | some version => toString version
  | none => format.absence

/-- The line that reports a version of a clean database, without its end. -/
def line (format : OutputFormat) (version : Option Version) : String :=
  match format with
  | .text => "[db] version=" ++ format.versionText version
  | .json => "\x7b\"version\":" ++ format.versionText version ++ ",\"dirty\":false\x7d"

theorem line_of_clean (format : OutputFormat) (version : Option Version) :
    SchemaState.line ⟨version, false⟩ format = format.line version ++ "\n" := by
  cases format with
  | text =>
      have lead : "[db] " ++ "version=" = "[db] version=" := by decide
      have shown : Version.display version = OutputFormat.text.versionText version := by
        cases version <;> rfl
      rw [SchemaState.line, SchemaState.text, if_neg Bool.false_ne_true, line, shown,
        String.append_empty, ← lead]
      simp only [String.append_assoc]
  | json =>
      rw [SchemaState.line, SchemaState.json, if_neg Bool.false_ne_true, line]
      cases version <;> simp [versionText, absence, String.append_assoc]

/-- The word for no version does not begin with a digit. -/
theorem absence_ne_toString (format : OutputFormat) (n : Nat) : format.absence ≠ toString n := by
  intro same
  have digit : ∀ c ∈ format.absence.toList, c.isDigit = true := fun c mem =>
    (Numeral.isDigits_toString _).all c (same ▸ mem)
  cases format with
  | text => exact absurd (digit 'n' (by decide)) (by decide)
  | json => exact absurd (digit 'n' (by decide)) (by decide)

theorem versionText_inj {format : OutputFormat} {version other : Option Version}
    (same : format.versionText version = format.versionText other) : version = other := by
  cases version with
  | none =>
      cases other with
      | none => rfl
      | some n => exact absurd same (format.absence_ne_toString n)
  | some m =>
      cases other with
      | none => exact absurd same.symm (format.absence_ne_toString m)
      | some n => exact congrArg some (toString_inj same)

/-- Different versions are reported by different lines. -/
theorem line_inj {format : OutputFormat} {version other : Option Version}
    (same : format.line version = format.line other) : version = other := by
  cases format with
  | text => exact versionText_inj ((String.append_right_inj _).mp same)
  | json =>
      exact versionText_inj ((String.append_right_inj _).mp ((String.append_left_inj _).mp same))

theorem newline_notMem_line (format : OutputFormat) (version : Option Version) :
    '\n' ∉ (format.line version).toList := by
  have text : '\n' ∉ (format.versionText version).toList := by
    cases version with
    | none => cases format <;> decide
    | some n => exact fun mem => absurd ((Numeral.isDigits_toString n).all _ mem) (by decide)
  cases format with
  | text =>
      rw [line, String.toList_append, List.mem_append]
      exact not_or.mpr ⟨by decide, text⟩
  | json =>
      rw [line, String.toList_append, String.toList_append, List.mem_append, List.mem_append]
      exact not_or.mpr ⟨not_or.mpr ⟨by decide, text⟩, by decide⟩

end OutputFormat

/-! ## The recorded state -/

namespace Locations

variable {locations : Locations} {tree after : FileTree} {state : SchemaState}

/-- The database that the locations lead to holds a state: it was written where a database engine
came to, and whoever still comes to a place finds it there. -/
structure Records (locations : Locations) (after : FileTree) (state : SchemaState) : Prop where
  written : ∃ (before : FileTree) (place : Place) (content : Database),
    before.storePlace locations.database = some place ∧
      after = before.put place (.file (.database content)) ∧
      locations.options.stateIn content = .ok state
  found : ∀ place, after.storePlace locations.database = some place →
    ∃ content, after.node? place = some (.file (.database content)) ∧
      locations.options.stateIn content = .ok state

/-- The state that is answered is recorded. -/
theorem records_of_state (answered : locations.state tree = (after, .ok state)) :
    locations.Records after state := by
  obtain ⟨base, source, place, content, opens⟩ := of_withMigrator_ok answered
  have left := withMigrator_of_opens opens fun _ migrator => migrator.options.state
  rw [show locations.withMigrator tree _ = _ from answered] at left
  obtain ⟨rfl, recorded⟩ := Prod.mk.inj left
  have leads := opens.store.leads
  have inside := (FileTree.of_storePlace leads).2.inside
  refine ⟨⟨base, place, _, leads, rfl, recorded.symm⟩, fun other found => ?_⟩
  rcases FileTree.storePlace_put_file leads
      (.database (locations.options.prepared content)) with again | ⟨-, nowhere⟩
  · obtain rfl : place = other := Option.some.inj (again.symm.trans found)
    exact ⟨_, FileTree.node?_put_self inside, recorded.symm⟩
  · cases nowhere.symm.trans found

/-! ## The promise -/

/-- A run of a command: how its result is reported, and where. -/
abbrev Reporter : Type :=
  OutputFormat → Sink → FileTree × Sink × Except Error SchemaState

/-- What a command promises about its output. -/
structure ReportsFaithfully (locations : Locations) (run : Reporter) : Prop where
  /-- It succeeds exactly if it writes one line, that of the clean state it answers. -/
  line_iff : ∀ format sink after sink' result, run format sink = (after, sink', result) →
    sink.refusal = none → ∀ state, result = .ok state ↔
      state.dirty = false ∧ sink'.written = sink.written ++ (format.line state.version ++ "\n")
  /-- The state it answers is recorded. -/
  records : ∀ format sink after sink' state, run format sink = (after, sink', .ok state) →
    locations.Records after state
  /-- It writes nothing if it fails. -/
  silent : ∀ format sink after sink' e, run format sink = (after, sink', .error e) → sink' = sink
  /-- How and where it reports makes no difference to the files. -/
  sameFiles : ∀ format format' sink sink', (run format sink).1 = (run format' sink').1

/-- What is written behind a text is seen. -/
theorem append_line_ne (written line : String) : written ≠ written ++ (line ++ "\n") := by
  intro same
  have length := congrArg String.length same
  rw [String.length_append, String.length_append] at length
  have newline : "\n".length = 1 := by decide
  omega

/-- What fails without writing keeps the promise. -/
theorem reportsFaithfully_failure (tree : FileTree) (e : Error) :
    locations.ReportsFaithfully fun _ sink => (tree, sink, .error e) where
  line_iff format sink after sink' result ran accepts state := by
    cases ran
    exact iff_of_false nofun fun written => append_line_ne _ _ written.2
  records format sink after sink' state ran := by cases ran
  silent format sink after sink' e ran := by cases ran; rfl
  sameFiles format format' sink sink' := rfl

/-- Reporting a clean state that is recorded keeps the promise. -/
theorem reportsFaithfully_clean {version : Option Version}
    (recorded : locations.Records after ⟨version, false⟩) :
    locations.ReportsFaithfully fun format sink =>
      match sink.report format ⟨version, false⟩ with
      | (sink, .error e) => (after, sink, .error e)
      | (sink, .ok ()) => (after, sink, .ok ⟨version, false⟩) where
  line_iff format sink after' sink' result ran accepts state := by
    rw [Sink.report, accepts, OutputFormat.line_of_clean] at ran
    cases ran
    constructor
    · intro same
      cases same
      exact ⟨rfl, rfl⟩
    · rintro ⟨clean, written⟩
      have lines := (String.append_left_inj _).mp ((String.append_right_inj _).mp written)
      obtain ⟨other, dirty⟩ := state
      cases clean
      cases OutputFormat.line_inj lines
      rfl
  records format sink after' sink' state ran := by
    rw [Sink.report] at ran
    cases refusal : sink.refusal with
    | none => rw [refusal] at ran; cases ran; exact recorded
    | some reason => rw [refusal] at ran; cases ran
  silent format sink after' sink' e ran := by
    rw [Sink.report] at ran
    cases refusal : sink.refusal with
    | none => rw [refusal] at ran; cases ran
    | some reason => rw [refusal] at ran; cases ran; rfl
  sameFiles format format' sink sink' := by
    simp only [Sink.report]
    cases sink.refusal <;> cases sink'.refusal <;> rfl

/-- Reporting the recorded state keeps the promise. -/
theorem reportsFaithfully_report (locations : Locations) (tree : FileTree) :
    locations.ReportsFaithfully (locations.report tree) := by
  cases answered : locations.state tree with
  | mk after result =>
      cases result with
      | error e =>
          have fails : locations.report tree =
              fun _ sink => (after, sink, .error (.versionNotReported e)) := by
            funext format sink
            rw [report, answered]
          exact fails ▸ reportsFaithfully_failure after _
      | ok state =>
          obtain ⟨version, dirty⟩ := state
          have reports : locations.report tree = fun format sink =>
              if dirty then (after, sink, .error (.dirty version))
              else match sink.report format ⟨version, dirty⟩ with
                | (sink, .error e) => (after, sink, .error e)
                | (sink, .ok ()) => (after, sink, .ok ⟨version, dirty⟩) := by
            funext format sink
            rewrite [report, answered]
            rfl
          rw [reports]
          cases dirty with
          | true => exact reportsFaithfully_failure after _
          | false => exact reportsFaithfully_clean (records_of_state answered)

/-- An operation and a report, which come apart only where the operation fails. -/
theorem reportsFaithfully_migrateAndReport (locations : Locations) (tree : FileTree)
    (operation : Operation) :
    locations.ReportsFaithfully (locations.migrateAndReport tree operation) := by
  cases done : locations.migrate tree operation with
  | mk after result =>
      by_cases goesOn : result = .ok () ∨ result = .error .noChange
      · have reports : locations.migrateAndReport tree operation = locations.report after := by
          funext format sink
          rw [migrateAndReport, done]
          rcases goesOn with rfl | rfl <;> rfl
        exact reports ▸ reportsFaithfully_report locations after
      · rw [not_or] at goesOn
        cases result with
        | ok value => exact absurd rfl goesOn.1
        | error e =>
            have fails : locations.migrateAndReport tree operation =
                fun _ sink => (after, sink, .error e) := by
              funext format sink
              exact migrateAndReport_of_error done
                (fun same => goesOn.2 (congrArg Except.error same)) format sink
            exact fails ▸ reportsFaithfully_failure after e

/-- **The output contract.** Every command, and bringing the schema up to date, keeps the promise
about its output, for all locations, all options, every tree and every sink; what is written as a
line is one. -/
theorem runOptions_reportsFaithfully (locations : Locations) (tree : FileTree)
    (options : List String) :
    locations.ReportsFaithfully (locations.runOptions tree options) ∧
      locations.ReportsFaithfully (locations.bringUpToDate tree) ∧
      ∀ (format : OutputFormat) (version : Option Version),
        '\n' ∉ (format.line version).toList := by
  refine ⟨?_, reportsFaithfully_migrateAndReport locations tree .up,
    OutputFormat.newline_notMem_line⟩
  cases read : Command.read options with
  | error e =>
      have fails : locations.runOptions tree options = fun _ sink => (tree, sink, .error e) := by
        funext format sink
        rw [runOptions, read]
      exact fails ▸ reportsFaithfully_failure tree e
  | ok command =>
      cases command with
      | migrate operation =>
          have migrates : locations.runOptions tree options =
              locations.migrateAndReport tree operation := by
            funext format sink
            rw [runOptions, read]
          exact migrates ▸ reportsFaithfully_migrateAndReport locations tree operation
      | version =>
          have reports : locations.runOptions tree options = locations.report tree := by
            funext format sink
            rw [runOptions, read]
          exact reports ▸ reportsFaithfully_report locations tree

/-- A step further than there are migrations is carried out, and nothing is written about it; the
version is reported when it is asked for. -/
example :
    let name := Bytes.ofString
    let tree : FileTree :=
      { nodes := [([name "m"], .directory),
          ([name "m", name "1_a.up.sql"], .file (.plain (name "SELECT 1;")))] }
    let locations : Locations :=
      { home := Path.ofString "/h", database := Path.ofString "/h/session.db",
        migrations := Path.ofString "/m", options := {} }
    let (after, sink, result) := locations.runOptions tree ["--migrate-steps", "2"] .text {}
    let (_, sink', result') := locations.runOptions after ["--migrate-version"] .text sink
    result = .error (.shortLimit 1) ∧ sink.written = "" ∧
      result' = .ok ⟨some 1, false⟩ ∧ sink'.written = "[db] version=1\n" := by
  decide +kernel

end Locations

end SchemaMigration
