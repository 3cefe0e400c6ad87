import SchemaMigration.Proofs.Sql.Session
import SchemaMigration.Store

/-!
# What goes wrong in a store

`Session.Raises` says which errors a program can fail with, whatever connection it runs over.

* `Session.Raises.bind`, `Session.Raises.transaction`: the errors of a program are those of its
  parts;
* `StoreOptions.stateIn_kind`, `StoreOptions.record_raises`, `StoreOptions.run_raises`: reading the
  state, recording one and running a body fail with errors of the database and no others;
* `StoreOptions.record_raises_of_fits`: a state that fits is not refused for its size.
-/

namespace SchemaMigration

namespace Sql.Session

variable {ε ε' α β : Type} {P : ε → Prop}

/-- Every error that a program fails with has a property. -/
def Raises (P : ε → Prop) (program : Session ε α) : Prop :=
  ∀ start e, (program start).result = .error e → P e

theorem raises_pure (value : α) : Raises P (pure value : Session ε α) := by
  intro start e failed
  cases failed

theorem raises_throw {e : ε} (holds : P e) : Raises P (throw e : Session ε α) := by
  intro start other failed
  cases failed
  exact holds

/-- Closing a transaction does not fail. -/
theorem raises_abandon : Raises P (abandon : Session ε Unit) := by
  intro start e failed
  unfold abandon at failed
  split at failed
  · cases failed
  · cases failed

/-- Errors told in other terms have what these terms have. -/
theorem raises_mapError {f : ε' → ε} (holds : ∀ e, P (f e)) (program : Session ε' α) :
    Raises P (mapError f program) := by
  intro start e failed
  rw [mapError_apply] at failed
  cases run : (program start).result with
  | error cause =>
      rw [run] at failed
      cases failed
      exact holds cause
  | ok value =>
      rw [run] at failed
      cases failed

theorem Raises.mono {Q : ε → Prop} {program : Session ε α} (raises : Raises P program)
    (weaker : ∀ e, P e → Q e) : Raises Q program :=
  fun start e failed => weaker e (raises start e failed)

theorem Raises.bind {first : Session ε α} {next : α → Session ε β} (left : Raises P first)
    (right : ∀ value, Raises P (next value)) : Raises P (first >>= next) := by
  intro start e failed
  cases run : first start with
  | mk result middle trail =>
      cases result with
      | error cause =>
          rw [bind_of_error run] at failed
          cases failed
          exact left start e (by rw [run])
      | ok value =>
          rw [bind_of_ok run] at failed
          exact right value middle e failed

/-- An error that is caught and thrown anew is an error of the program. -/
theorem Raises.tryCatch {program : Session ε α} {handle : ε → Session ε α}
    (left : Raises P program) (right : ∀ e, P e → Raises P (handle e)) :
    Raises P (tryCatch program handle) := by
  intro start e failed
  simp only [MonadExcept.tryCatch] at failed
  split at failed
  · rename_i value done
    rw [done] at failed
    cases failed
  · rename_i cause thrown
    exact right cause (left start cause thrown) _ e failed

theorem Raises.forM {items : List β} {f : β → Session ε PUnit}
    (each : ∀ item ∈ items, Raises P (f item)) : Raises P (items.forM f) := by
  induction items with
  | nil => exact raises_pure _
  | cons item rest ih =>
      exact (each item List.mem_cons_self).bind fun _ =>
        ih fun other member => each other (List.mem_cons_of_mem _ member)

/-- A transaction adds the errors of its first and its last statement. -/
theorem Raises.transaction {onBegin onCommit : Fault → ε} {program : Session ε Unit}
    (raises : Raises P program) (begins : ∀ fault, P (onBegin fault))
    (commits : ∀ fault, P (onCommit fault)) :
    Raises P (Session.transaction onBegin onCommit program) := by
  unfold Session.transaction
  refine (raises_mapError begins _).bind fun _ => Raises.tryCatch ?_ fun e holds => ?_
  · exact raises.bind fun _ => raises_mapError commits _
  · exact raises_abandon.bind fun _ => raises_throw holds

end Sql.Session

namespace StoreOptions

open Sql (Database Session)

/-- The error is one of the database. -/
abbrev OfDatabase (e : Error) : Prop :=
  e.kind = .database

/-- The error is one of the database, and not that a version is too large. -/
structure OfStatement (e : Error) : Prop where
  kind : OfDatabase e
  fits : ∀ version, e ≠ .versionTooLarge version

theorem integerCell_error {index : Nat} {column : String} {value : Sql.Value} {e : Error}
    (failed : integerCell index column value = .error e) : OfStatement e := by
  unfold integerCell at failed
  split at failed
  · cases failed
  · cases failed
    exact ⟨rfl, fun _ impossible => nomatch impossible⟩

theorem mapError_versionUnreadable {α : Type} {reading : Except Sql.Fault α} {e : Error}
    (failed : reading.mapError .versionUnreadable = .error e) : OfStatement e := by
  cases reading with
  | ok _ => cases failed
  | error fault =>
      cases failed
      exact ⟨rfl, fun _ impossible => nomatch impossible⟩

theorem stateIn_error {options : StoreOptions} {db : Database} {e : Error}
    (failed : options.stateIn db = .error e) : OfStatement e := by
  unfold stateIn at failed
  cases named : (db.readable options.table).mapError Error.versionUnreadable with
  | error cause =>
      rw [named] at failed
      cases failed
      exact mapError_versionUnreadable named
  | ok table =>
      rw [named] at failed
      simp only [bind, Except.bind] at failed
      split at failed
      · rename_i cause columns
        cases failed
        exact mapError_versionUnreadable columns
      · split at failed
        · cases failed
        · split at failed
          · rename_i cause cell
            cases failed
            exact integerCell_error cell
          · split at failed
            · rename_i cause cell
              cases failed
              exact integerCell_error cell
            · cases failed

/-- **Reading the state fails for the database only.** -/
theorem stateIn_kind {options : StoreOptions} {db : Database} {e : Error}
    (failed : options.stateIn db = .error e) : OfDatabase e :=
  (stateIn_error failed).kind

theorem checkSize_raises (version : Option Version) :
    Session.Raises OfDatabase (checkSize version) := by
  cases version with
  | none => exact Session.raises_pure _
  | some number =>
      simp only [checkSize]
      split
      · exact Session.raises_throw (P := OfDatabase) rfl
      · exact Session.raises_pure _

theorem replaceRow_raises (options : StoreOptions) (version : Option Version) (dirty : Bool) :
    Session.Raises OfStatement (options.replaceRow version dirty) := by
  unfold replaceRow
  refine (Session.raises_mapError
    (fun _ => ⟨rfl, fun _ impossible => nomatch impossible⟩) _).bind fun _ => ?_
  split
  · exact Session.raises_mapError (fun _ => ⟨rfl, fun _ impossible => nomatch impossible⟩) _
  · exact Session.raises_pure _

theorem replace_raises (options : StoreOptions) (version : Option Version) (dirty : Bool) :
    Session.Raises OfStatement (Session.transaction .transactionRefused .versionNotCommitted
      (options.replaceRow version dirty)) :=
  (options.replaceRow_raises version dirty).transaction
    (fun _ => ⟨rfl, fun _ impossible => nomatch impossible⟩)
    (fun _ => ⟨rfl, fun _ impossible => nomatch impossible⟩)

/-- **Recording a state fails for the database only.** -/
theorem record_raises (options : StoreOptions) (version : Option Version) (dirty : Bool) :
    Session.Raises OfDatabase (options.record version dirty) :=
  (checkSize_raises version).bind fun _ =>
    (options.replace_raises version dirty).mono fun _ => OfStatement.kind

/-- A state that fits is not refused for its size. -/
theorem record_raises_of_fits (options : StoreOptions) {version : Option Version} (dirty : Bool)
    (fits : ∀ number, version = some number → number ≤ Numeral.signedMax) :
    Session.Raises OfStatement (options.record version dirty) := by
  have size : Session.Raises OfStatement (checkSize version) := by
    cases version with
    | none => exact Session.raises_pure _
    | some number =>
        simp only [checkSize]
        rw [if_neg (Nat.not_lt.mpr (fits number rfl))]
        exact Session.raises_pure _
  exact size.bind fun _ => options.replace_raises version dirty

/-- **Running a body fails for the database only.** -/
theorem run_raises (options : StoreOptions) (body : String) :
    Session.Raises OfDatabase (options.run body) := by
  have statements : Session.Raises OfDatabase
      (Session.mapError Error.bodyFailed (Session.batch (Sql.Batch.read body))) :=
    Session.raises_mapError (P := OfDatabase) (fun _ => rfl) _
  unfold run
  split
  · exact statements
  · exact statements.transaction (fun _ => rfl) (fun _ => rfl)

end StoreOptions

end SchemaMigration
