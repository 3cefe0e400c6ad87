import Mathlib.Algebra.Group.Int.Defs
import Mathlib.Algebra.Group.Nat.Defs
import SchemaMigration.Command
import SchemaMigration.Proofs.Text.Numeral

/-!
# The grammar of commands

Which options name a command is said by a relation with one rule for each command. Reading follows
that relation in both directions: whatever names a command is read as that command, and any other
options are refused, before anything is looked at or written.

* `Command.Requests`: the grammar.
* `Command.read_eq_ok_iff`: what is read.
* `Command.kind_of_read_eq_error`: how anything else is refused.
* `Command.options_grammar`: both, with printing and with what a refused command leaves alone.
-/

namespace SchemaMigration

open Numeral (Signed Unsigned)

namespace Command

/-- The options that name a command. -/
inductive Requests : List String → Command → Prop
  | up : Requests ["--migrate-up"] (.migrate .up)
  | down : Requests ["--migrate-down"] (.migrate .down)
  | version : Requests ["--migrate-version"] .version
  | goto {argument : String} {target : Nat} (writes : Unsigned argument.toList target)
      (fits : target ≤ 2 ^ 64 - 1) :
      Requests ["--migrate-goto", argument] (.migrate (.goto target))
  | steps {argument : String} {count : Int} (writes : Signed argument.toList count)
      (fits : -2 ^ 63 ≤ count ∧ count ≤ 2 ^ 63 - 1) (moves : count ≠ 0) :
      Requests ["--migrate-steps", argument] (.migrate (.steps count))

/-! ## Arguments -/

theorem readTarget_eq_some_iff {argument : String} {target : Nat} :
    Numeral.unsigned? argument.toList = some target ↔
      Unsigned argument.toList target ∧ target ≤ 2 ^ 64 - 1 :=
  Numeral.unsigned?_eq_some_iff

theorem readCount_eq_some_iff {argument : String} {count : Int} :
    (Numeral.signed? argument.toList).filter (· ≠ 0) = some count ↔
      Signed argument.toList count ∧ (-2 ^ 63 ≤ count ∧ count ≤ 2 ^ 63 - 1) ∧ count ≠ 0 := by
  rw [Option.filter_eq_some_iff, Numeral.signed?_eq_some_iff, decide_eq_true_eq, and_assoc]
  rfl

/-! ## Commands -/

/-- The options that a command takes name it. -/
theorem requests_of_readFirst {option : String} {rest more : List String} {command : Command}
    (done : readFirst option rest = .ok (command, more)) :
    ∃ taken, rest = taken ++ more ∧ Requests (option :: taken) command := by
  unfold readFirst at done
  split at done
  · next name => cases name; cases done; exact ⟨[], rfl, .up⟩
  split at done
  · next name => cases name; cases done; exact ⟨[], rfl, .down⟩
  split at done
  · next name => cases name; cases done; exact ⟨[], rfl, .version⟩
  split at done
  · next name =>
    cases name
    split at done
    · cases done
    · next argument rest =>
      split at done
      · next target read =>
        cases done
        obtain ⟨writes, fits⟩ := readTarget_eq_some_iff.mp read
        exact ⟨[argument], rfl, .goto writes fits⟩
      · cases done
  split at done
  · next name =>
    cases name
    split at done
    · cases done
    · next argument rest =>
      split at done
      · next count read =>
        cases done
        obtain ⟨writes, fits, moves⟩ := readCount_eq_some_iff.mp read
        exact ⟨[argument], rfl, .steps writes fits moves⟩
      · cases done
  · cases done

/-- **What is read.** Options are read as a command exactly if they name it. -/
theorem read_eq_ok_iff {options : List String} {command : Command} :
    read options = .ok command ↔ Requests options command := by
  constructor
  · intro done
    cases options with
    | nil => cases done
    | cons option rest =>
        rw [read] at done
        split at done
        · cases done
        · next first =>
          cases done
          obtain ⟨taken, rfl, requests⟩ := requests_of_readFirst first
          rwa [List.append_nil]
        · cases done
  · intro requests
    cases requests with
    | up => rfl
    | down => rfl
    | version => rfl
    | goto writes fits =>
        simp only [read, readFirst, readTarget_eq_some_iff.mpr ⟨writes, fits⟩, String.reduceEq,
          if_true, if_false]
    | steps writes fits moves =>
        simp only [read, readFirst, readCount_eq_some_iff.mpr ⟨writes, fits, moves⟩,
          String.reduceEq, if_true, if_false]

theorem kind_of_readFirst_eq_error {option : String} {rest : List String} {e : Error}
    (failed : readFirst option rest = .error e) : e.kind = .invalidCommand := by
  unfold readFirst at failed
  repeat' split at failed
  all_goals cases failed
  all_goals rfl

/-- Whatever is no command is an invalid one. -/
theorem kind_of_read_eq_error {options : List String} {e : Error}
    (failed : read options = .error e) : e.kind = .invalidCommand := by
  cases options with
  | nil => cases failed; rfl
  | cons option rest =>
      rw [read] at failed
      split at failed
      · next first => cases failed; exact kind_of_readFirst_eq_error first
      · cases failed
      · cases failed; rfl

/-- **The grammar of commands.** Options are read as a command exactly if they name it, and are an
invalid command otherwise, which writes nothing and leaves every file as it was. The options printed
for a target or a count of 64 bits are read as that target or count again. -/
theorem options_grammar :
    (∀ options command, read options = .ok command ↔ Requests options command) ∧
      (∀ options, (∀ command, ¬ Requests options command) →
        ∃ e : Error, e.kind = .invalidCommand ∧ read options = .error e ∧
          ∀ (locations : Locations) (tree : FileTree) (format : OutputFormat) (sink : Sink),
            locations.runOptions tree options format sink = (tree, sink, .error e)) ∧
      (∀ target : Nat, target ≤ 2 ^ 64 - 1 →
        read (render (.migrate (.goto target))) = .ok (.migrate (.goto target))) ∧
      ∀ count : Int, -2 ^ 63 ≤ count → count ≤ 2 ^ 63 - 1 → count ≠ 0 →
        read (render (.migrate (.steps count))) = .ok (.migrate (.steps count)) := by
  refine ⟨fun _ _ => read_eq_ok_iff, fun options none => ?_, fun target fits => ?_,
    fun count low high moves => ?_⟩
  · cases done : read options with
    | ok command => exact absurd (read_eq_ok_iff.mp done) (none command)
    | error e =>
        refine ⟨e, kind_of_read_eq_error done, rfl, fun locations tree format sink => ?_⟩
        rw [Locations.runOptions, done]
  · exact read_eq_ok_iff.mpr (.goto (Numeral.unsigned_toString target) fits)
  · exact read_eq_ok_iff.mpr (.steps (Numeral.signed_toString count) ⟨low, high⟩ moves)

/-- The least count is a command, also when it is printed and read again; no count is, whatever its
sign and however many digits it has. -/
theorem options_grammar_least :
    Requests ["--migrate-steps", "-09223372036854775808"] (.migrate (.steps (-2 ^ 63))) ∧
      read (render (.migrate (.steps (-2 ^ 63)))) = .ok (.migrate (.steps (-2 ^ 63))) ∧
      read (render (.migrate (.goto (2 ^ 64 - 1)))) = .ok (.migrate (.goto (2 ^ 64 - 1))) ∧
      ∃ e : Error, e.kind = .invalidCommand ∧ read ["--migrate-steps", "-000"] = .error e ∧
        ∀ (locations : Locations) (tree : FileTree) (format : OutputFormat) (sink : Sink),
          locations.runOptions tree ["--migrate-steps", "-000"] format sink =
            (tree, sink, .error e) := by
  obtain ⟨reads, refuses, targets, counts⟩ := options_grammar
  have zero : read ["--migrate-steps", "-000"] = .error (.stepsArgument "-000") := by
    decide +kernel
  refine ⟨(reads _ _).mp (by decide +kernel), counts _ (by decide) (by decide) (by decide),
    targets _ (by decide), refuses _ fun command requests => ?_⟩
  rw [← reads, zero] at requests
  cases requests

end Command

end SchemaMigration
