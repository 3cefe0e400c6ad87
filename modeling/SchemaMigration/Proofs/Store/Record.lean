import SchemaMigration.Proofs.Sql.Independence
import SchemaMigration.Proofs.Store.VersionTable

/-!
# Recording a state

A store replaces its version row in a transaction of its own, so the committed content changes at
the last statement or not at all.

* `StoreOptions.record_atomic`: whatever the content and the connection, the committed content stays
  as it was until the last statement, which commits exactly the new row;
* `StoreOptions.record_eq`: if nothing refers to the version table, recording succeeds;
* `StoreOptions.record_of_ok`: whatever refers to it, a recording that succeeds goes the same way.
-/

namespace SchemaMigration.StoreOptions

open Sql (Session Connection Database Row Statement Value Outcome sameName)

variable {options : StoreOptions} {db after : Database} {rows : List Row}

/-! ## The two statements -/

theorem changeable_of_found {refusal : String → Sql.Fault} {name : String} {table : Sql.Table}
    (found : db.table? name = some table) : db.changeable refusal name = .ok table := by
  unfold Database.changeable
  rw [found]

/-- Clearing the version table takes its rows unless a reference forbids it. -/
theorem delete_eq {spelling : String}
    (found : db.table? options.table = some (versionTable spelling rows)) :
    db.delete options.table none =
      (Sql.checkChildren db (versionTable spelling rows)
          (db.referencesTo (versionTable spelling rows)) >>= fun _ =>
        Sql.keepReferences db (options.withVersionRows [] db)) := by
  unfold Database.delete
  rw [changeable_of_found found, withVersionRows_of_found found]
  have noRows : (rows.filter fun row => !Sql.selects (versionTable spelling rows) none row) = [] :=
    List.filter_eq_nil_iff.mpr fun row _ => Bool.false_ne_true
  show (Sql.checkChildren _ _ _ >>= fun _ => Sql.deleteRows _ _ _) = _
  unfold Sql.deleteRows
  rw [rows_versionTable, noRows]
  rfl

theorem namesRowNumber_versionTable (rows : List Row) (spelling : String) {name : String} {i : Nat}
    (found : (versionTable spelling rows).columnIndex? name = some i) :
    (versionTable spelling rows).namesRowNumber name = false := by
  unfold Sql.Table.namesRowNumber
  rw [found]
  rfl

theorem givenId_versionTable (spelling : String) (version dirty : Value)
    (next : Except Sql.Fault Int) :
    Sql.givenId (versionTable spelling rows) ["version", "dirty"] [version, dirty] next = next := by
  have first := namesRowNumber_versionTable rows spelling (columnIndex?_version spelling)
  have second := namesRowNumber_versionTable rows spelling (columnIndex?_dirty spelling)
  simp [Sql.givenId, first, second]

theorem newCells_versionTable (spelling : String) (version dirty : Value) :
    Sql.newCells (versionTable spelling rows) ["version", "dirty"] [version, dirty] =
      [version.coerce .integer, dirty.coerce .numeric] := by
  have apart : sameName "version" "dirty" = false := by decide +kernel
  simp [Sql.newCells, versionTable, versionColumns, apart]

theorem row_versionTable (spelling : String) (id : Int) (cells : List Value) :
    (versionTable spelling rows).row id cells = ⟨id, cells⟩ :=
  rfl

/-- A row of two cells may always go into an empty version table. -/
theorem checkRow_versionTable (spelling : String) (sets : List (List String)) (id : Int)
    (version dirty : Value) :
    Sql.checkRow (versionTable spelling rows) sets [] ⟨id, [version, dirty]⟩ = .ok () := by
  have noKey : sets.find? (fun _ => false) = none :=
    List.find?_eq_none.mpr fun _ _ => Bool.false_ne_true
  simp [Sql.checkRow, Sql.nullFault?, Sql.numberFault?, Sql.keyFault?, versionTable,
    versionColumns, Sql.Fault.raise, noKey]

theorem constant_rowOf (version : Option Version) (dirty : Bool) :
    (rowOf version dirty).map Sql.Expr.constant =
      [.integer (version.elim nilVersion Int.ofNat), .ofBool dirty] :=
  rfl

theorem insertRow_versionTable (spelling : String) (sets : List (List String))
    (version : Option Version) (dirty : Bool) :
    Sql.insertRow sets ["version", "dirty"] (versionTable spelling [])
        ((rowOf version dirty).map Sql.Expr.constant) =
      .ok (versionTable spelling
        [⟨1, [.integer (version.elim nilVersion Int.ofNat), .ofBool dirty]⟩]) := by
  unfold Sql.insertRow
  have next : (versionTable spelling []).nextId = .ok 1 := rfl
  simp only [constant_rowOf, rows_versionTable, givenId_versionTable, next, newCells_versionTable,
    row_versionTable, checkRow_versionTable, bind, Except.bind]
  rfl

theorem insertRows_eq {spelling : String} (version : Option Version) (dirty : Bool) :
    Sql.insertRows db (versionTable spelling []) ["version", "dirty"]
        [(rowOf version dirty).map Sql.Expr.constant] =
      Sql.keepReferences db (db.put (versionTable spelling
        [⟨1, [.integer (version.elim nilVersion Int.ofNat), .ofBool dirty]⟩])) := by
  unfold Sql.insertRows
  rw [List.foldlM_cons, insertRow_versionTable]
  rfl

/-- Filling an empty version table gives it the row unless a reference forbids it. -/
theorem insert_eq {spelling : String}
    (found : db.table? options.table = some (versionTable spelling [])) (version : Option Version)
    (dirty : Bool) :
    db.insert options.table (some ["version", "dirty"]) [rowOf version dirty] =
      Sql.keepReferences db (options.withVersionRows
        [⟨1, [.integer (version.elim nilVersion Int.ofNat), .ofBool dirty]⟩] db) := by
  have first := namesRowNumber_versionTable [] spelling (columnIndex?_version spelling)
  have second := namesRowNumber_versionTable [] spelling (columnIndex?_dirty spelling)
  have columns : (["version", "dirty"].filter fun name =>
      !(versionTable spelling []).namesRowNumber name) = ["version", "dirty"] := by
    simp [first, second]
  have widths : Database.constantWidthsDiffer [rowOf version dirty] = false := rfl
  unfold Database.insert
  rw [withVersionRows_of_found found, ← insertRows_eq]
  simp only [widths, changeable_of_found found, Option.getD_some, columns,
    checkColumns_versionTable, Sql.Fault.raiseIf, bind, Except.bind]
  rfl

/-! ## Replacing the row inside a transaction -/

theorem issue_inside {statement : Statement} (ordinary : statement.isTransactionControl = false) :
    Session.Keeps (fun connection => ∃ content, connection = ⟨db, some content⟩)
      (Session.issue statement) := by
  refine Session.keeps_issue fun before after inside done => ?_
  obtain ⟨content, rfl⟩ := inside
  obtain ⟨changed, _, rfl⟩ := Connection.of_execute_ok ordinary done
  exact ⟨changed, rfl⟩

theorem replaceRow_inside (version : Option Version) (dirty : Bool) :
    Session.Keeps (fun connection => ∃ content, connection = ⟨db, some content⟩)
      (options.replaceRow version dirty) := by
  unfold replaceRow
  refine (Session.Keeps.mapError _ (issue_inside rfl)).bind fun _ => ?_
  split
  · exact Session.Keeps.mapError _ (issue_inside rfl)
  · exact Session.keeps_pure _

theorem of_delete_ok (has : options.HasTable db)
    (done : db.delete options.table none = .ok after) : after = options.withVersionRows [] db := by
  obtain ⟨rows, spelling, found⟩ := has
  rw [delete_eq found] at done
  obtain ⟨_, _, kept⟩ := Sql.bind_eq_ok.mp done
  exact Sql.Database.keepReferences_eq_ok kept

theorem of_insert_ok {version : Option Version} {dirty : Bool} (empty : options.HasRows db [])
    (done : db.insert options.table (some ["version", "dirty"]) [rowOf version dirty] = .ok after) :
    after = options.withVersionRows
      [⟨1, [.integer (version.elim nilVersion Int.ofNat), .ofBool dirty]⟩] db := by
  obtain ⟨spelling, found⟩ := empty
  rw [insert_eq found] at done
  exact Sql.Database.keepReferences_eq_ok done

/-- If the rows are replaced at all, they are those of the state. -/
theorem replaceRow_content {version : Option Version} {dirty : Bool} (has : options.HasTable db)
    (done : (options.replaceRow version dirty ⟨db, some db⟩).result = .ok ()) :
    (options.replaceRow version dirty ⟨db, some db⟩).connection.content =
      options.recorded version dirty db := by
  obtain ⟨_, cleared, filled, stop⟩ := Session.of_bind_ok done
  have clearing := Connection.content_of_execute rfl
    (Session.of_issue_ok (Session.of_mapError_ok cleared))
  have empty := of_delete_ok has clearing
  refine (congrArg Connection.content stop).trans ?_
  unfold recorded rowsOf
  cases present : version.isSome || dirty with
  | false =>
      rw [present] at filled
      exact empty
  | true =>
      rw [present] at filled
      have filling := Connection.content_of_execute rfl
        (Session.of_issue_ok (Session.of_mapError_ok filled))
      refine (of_insert_ok ?_ filling).trans ?_
      · exact empty ▸ has.withVersionRows []
      · exact (congrArg _ empty).trans (withVersionRows_withVersionRows has _ _)

/-! ## All or nothing -/

/-- A program was refused and left the connection, or its last statement committed a content; before
that the committed content was as at the start. -/
inductive Atomic (start : Connection) (after : Database) : Outcome Error Unit → Prop
  | refused {e : Error} {trail : List Connection}
      (quiet : ∀ point ∈ trail, point.committed = start.committed) :
      Atomic start after ⟨.error e, start, trail⟩
  | done {trail : List Connection}
      (quiet : ∀ point ∈ trail, point.committed = start.committed) :
      Atomic start after ⟨.ok (), ⟨after, none⟩, trail ++ [⟨after, none⟩]⟩

theorem checkSize_cases (version : Option Version) (start : Connection) :
    checkSize version start = ⟨.ok (), start, []⟩ ∨
      ∃ e, checkSize version start = ⟨.error e, start, []⟩ := by
  cases version with
  | none => exact .inl rfl
  | some number =>
      simp only [checkSize]
      split
      · exact .inr ⟨_, rfl⟩
      · exact .inl rfl

/-- **Recording is atomic.** The committed content changes at the last statement, to the content
with the new row, or not at all. -/
theorem record_atomic (has : options.HasTable db) (version : Option Version) (dirty : Bool) :
    Atomic ⟨db, none⟩ (options.recorded version dirty db)
      (options.record version dirty ⟨db, none⟩) := by
  unfold record
  rcases checkSize_cases version ⟨db, none⟩ with fits | ⟨e, tooLarge⟩
  · rw [Session.bind_of_answer fits]
    cases run : options.replaceRow version dirty ⟨db, some db⟩ with
    | mk result stop trail =>
        have inside := @replaceRow_inside options db version dirty ⟨db, some db⟩ ⟨db, rfl⟩
        rw [run] at inside
        obtain ⟨⟨content, rfl⟩, points⟩ := inside
        have quiet : ∀ point ∈ (⟨db, some db⟩ : Connection) :: trail, point.committed = db := by
          intro point member
          rcases List.mem_cons.mp member with rfl | later
          · rfl
          · obtain ⟨_, rfl⟩ := points point later
            rfl
        cases result with
        | error e =>
            rw [Session.transaction_of_error run]
            refine Atomic.refused fun point member => ?_
            rcases List.mem_append.mp member with earlier | last
            · exact quiet point earlier
            · exact List.mem_singleton.mp last ▸ rfl
        | ok value =>
            have written := @replaceRow_content options db version dirty has (by rw [run])
            rw [run] at written
            cases written
            rw [Session.transaction_of_ok run]
            exact Atomic.done quiet
  · rw [Session.bind_of_error tooLarge]
    exact Atomic.refused fun _ member => nomatch member

/-- Nothing is recorded while a transaction is open. -/
theorem record_within (content : Database) (version : Option Version) (dirty : Bool) :
    ∃ e trail, options.record version dirty ⟨db, some content⟩ =
        ⟨.error e, ⟨db, some content⟩, trail⟩ ∧
      ∀ point ∈ trail, point = ⟨db, some content⟩ := by
  unfold record
  rcases checkSize_cases version ⟨db, some content⟩ with fits | ⟨e, tooLarge⟩
  · rw [Session.bind_of_answer fits, Session.transaction_nested]
    exact ⟨_, _, rfl, fun point member => List.mem_singleton.mp member⟩
  · rw [Session.bind_of_error tooLarge]
    exact ⟨_, _, rfl, fun _ member => nomatch member⟩

/-! ## A version table to which nothing refers -/

/-- The content has a version table as a store makes it, and no reference goes to it. -/
structure Free (options : StoreOptions) (db : Database) : Prop where
  hasTable : options.HasTable db
  unreferenced : db.Unreferenced options.table

theorem Free.withVersionRows (free : options.Free db) (others : List Row) :
    options.Free (options.withVersionRows others db) := by
  refine ⟨⟨others, free.hasTable.withVersionRows others⟩, ?_⟩
  obtain ⟨rows, spelling, found⟩ := free.hasTable
  rw [withVersionRows_of_found found]
  exact free.unreferenced.put rfl

theorem Free.recorded (free : options.Free db) (version : Option Version) (dirty : Bool) :
    options.Free (options.recorded version dirty db) :=
  free.withVersionRows _

/-- A statement that does not name the version table keeps it free. -/
theorem execute_keeps_free {statement : Statement}
    (apart : ¬ Sql.Mentions statement.tables options.table) (before after : Database)
    (free : options.Free before) (done : before.execute statement = .ok after) :
    options.Free after := by
  refine ⟨execute_keeps_table apart before after free.hasTable done, ?_⟩
  exact (Database.execute_change done).unreferenced apart free.unreferenced

theorem Free.keepReferences (free : options.Free db) (others : List Row) :
    Sql.keepReferences db (options.withVersionRows others db) =
      .ok (options.withVersionRows others db) := by
  obtain ⟨rows, spelling, found⟩ := free.hasTable
  have same : sameName options.table spelling = true := by
    rw [Sql.sameName_comm]
    exact HasRows.sameName found
  rw [withVersionRows_of_found found]
  exact Database.keepReferences_put (free.unreferenced.congr same) rfl

theorem Free.delete (free : options.Free db) :
    db.delete options.table none = .ok (options.withVersionRows [] db) := by
  obtain ⟨rows, spelling, found⟩ := free.hasTable
  have same : sameName options.table (versionTable spelling rows).name = true := by
    rw [Sql.sameName_comm]
    exact HasRows.sameName found
  rw [delete_eq found, Database.referencesTo_eq_nil (free.unreferenced.congr same)]
  exact free.keepReferences []

theorem Free.insert (free : options.Free db) (empty : options.HasRows db [])
    (version : Option Version) (dirty : Bool) :
    db.insert options.table (some ["version", "dirty"]) [rowOf version dirty] =
      .ok (options.withVersionRows
        [⟨1, [.integer (version.elim nilVersion Int.ofNat), .ofBool dirty]⟩] db) := by
  obtain ⟨spelling, found⟩ := empty
  rw [insert_eq found]
  exact free.keepReferences _

/-- The connections that recording a state on a content passes through. -/
def recording (options : StoreOptions) (version : Option Version) (dirty : Bool) (db : Database) :
    List Connection :=
  let cleared : Connection := ⟨db, some (options.withVersionRows [] db)⟩
  let filled : Connection := ⟨db, some (options.recorded version dirty db)⟩
  ⟨db, some db⟩ :: cleared :: (if version.isSome || dirty then [filled] else []) ++
    [⟨options.recorded version dirty db, none⟩]

theorem replaceRow_eq (free : options.Free db) (version : Option Version) (dirty : Bool) :
    options.replaceRow version dirty ⟨db, some db⟩ =
      ⟨.ok (), ⟨db, some (options.recorded version dirty db)⟩,
        ⟨db, some (options.withVersionRows [] db)⟩ ::
          if version.isSome || dirty then [⟨db, some (options.recorded version dirty db)⟩]
          else []⟩ := by
  have clearing : Connection.execute ⟨db, some db⟩ (.delete options.table none) =
      .ok ⟨db, some (options.withVersionRows [] db)⟩ := by
    show Except.map _ (db.delete options.table none) = _
    rw [free.delete]
    rfl
  have cleared : Session.mapError Error.versionNotCleared
      (Session.issue (.delete options.table none)) ⟨db, some db⟩ =
        ⟨.ok (), ⟨db, some (options.withVersionRows [] db)⟩,
          [⟨db, some (options.withVersionRows [] db)⟩]⟩ := by
    rw [Session.mapError_apply, Session.issue_of_ok clearing]
    rfl
  unfold replaceRow
  rw [Session.bind_of_ok cleared]
  unfold StoreOptions.recorded rowsOf
  cases present : version.isSome || dirty with
  | false => rfl
  | true =>
      have filling : Connection.execute ⟨db, some (options.withVersionRows [] db)⟩
          (.insert options.table (some ["version", "dirty"]) [rowOf version dirty]) =
            .ok ⟨db, some (options.withVersionRows
              [⟨1, [.integer (version.elim nilVersion Int.ofNat), .ofBool dirty]⟩] db)⟩ := by
        show Except.map _ ((options.withVersionRows [] db).insert options.table _ _) = _
        rw [(free.withVersionRows []).insert (free.hasTable.withVersionRows []),
          withVersionRows_withVersionRows free.hasTable]
        rfl
      simp only [if_true, Session.mapError_apply, Session.issue_of_ok filling]
      rfl

/-- **Recording succeeds.** When no reference goes to the version table, any version that fits into
a cell is recorded. -/
theorem record_eq (free : options.Free db) {version : Option Version} (dirty : Bool)
    (fits : ∀ number, version = some number → number ≤ Numeral.signedMax) :
    options.record version dirty ⟨db, none⟩ =
      ⟨.ok (), ⟨options.recorded version dirty db, none⟩, options.recording version dirty db⟩ := by
  have size : checkSize version ⟨db, none⟩ = ⟨.ok (), ⟨db, none⟩, []⟩ := by
    cases version with
    | none => rfl
    | some number =>
        simp only [checkSize]
        rw [if_neg (Nat.not_lt.mpr (fits number rfl))]
        rfl
  unfold record
  rw [Session.bind_of_answer size, Session.transaction_of_ok (replaceRow_eq free version dirty)]
  rfl

/-! ## Recordings that succeed -/

/-- What a statement makes of the content inside a transaction. -/
theorem issue_inside_of_ok {statement : Statement}
    (ordinary : statement.isTransactionControl = false) {start : Database}
    (done : (Session.issue statement ⟨db, some start⟩).result = .ok ()) :
    ∃ after, start.execute statement = .ok after ∧
      Session.issue statement ⟨db, some start⟩ =
        ⟨.ok (), ⟨db, some after⟩, [⟨db, some after⟩]⟩ := by
  have executed := Session.of_issue_ok done
  have content := Connection.content_of_execute ordinary executed
  obtain ⟨⟨after, same⟩, _⟩ := issue_inside ordinary ⟨db, some start⟩ ⟨start, rfl⟩
  rw [same] at executed content
  exact ⟨after, content, Session.issue_of_ok executed⟩

theorem replaceRow_of_ok {version : Option Version} {dirty : Bool} (has : options.HasTable db)
    (done : (options.replaceRow version dirty ⟨db, some db⟩).result = .ok ()) :
    options.replaceRow version dirty ⟨db, some db⟩ =
      ⟨.ok (), ⟨db, some (options.recorded version dirty db)⟩,
        ⟨db, some (options.withVersionRows [] db)⟩ ::
          if version.isSome || dirty then [⟨db, some (options.recorded version dirty db)⟩]
          else []⟩ := by
  obtain ⟨_, cleared, filled, _⟩ := Session.of_bind_ok done
  obtain ⟨emptied, deleted, clearing⟩ := issue_inside_of_ok rfl (Session.of_mapError_ok cleared)
  cases of_delete_ok has deleted
  have clear : Session.mapError Error.versionNotCleared
      (Session.issue (.delete options.table none)) ⟨db, some db⟩ =
        ⟨.ok (), ⟨db, some (options.withVersionRows [] db)⟩,
          [⟨db, some (options.withVersionRows [] db)⟩]⟩ := by
    rw [Session.mapError_apply, clearing]
    rfl
  rw [clear] at filled
  unfold replaceRow
  rw [Session.bind_of_ok clear]
  unfold StoreOptions.recorded rowsOf
  cases present : version.isSome || dirty with
  | false => rfl
  | true =>
      rw [present] at filled
      obtain ⟨full, inserted, filling⟩ := issue_inside_of_ok rfl (Session.of_mapError_ok filled)
      cases of_insert_ok (has.withVersionRows []) inserted
      rw [withVersionRows_withVersionRows has] at filling
      simp only [if_true, Session.mapError_apply, filling]
      rfl

/-- A recording that succeeds, whatever refers to the version table, goes the one way. -/
theorem record_of_ok {version : Option Version} {dirty : Bool} (has : options.HasTable db)
    (done : (options.record version dirty ⟨db, none⟩).result = .ok ()) :
    options.record version dirty ⟨db, none⟩ =
      ⟨.ok (), ⟨options.recorded version dirty db, none⟩, options.recording version dirty db⟩ := by
  unfold record at done ⊢
  rcases checkSize_cases version ⟨db, none⟩ with fits | ⟨e, tooLarge⟩
  · rw [Session.bind_of_answer fits] at done ⊢
    cases run : options.replaceRow version dirty ⟨db, some db⟩ with
    | mk result stop trail =>
        cases result with
        | error e =>
            obtain ⟨⟨content, inside⟩, _⟩ :=
              @replaceRow_inside options db version dirty ⟨db, some db⟩ ⟨db, rfl⟩
            rw [run] at inside
            cases inside
            rw [Session.transaction_of_error run] at done
            cases done
        | ok value =>
            rw [Session.transaction_of_ok (replaceRow_of_ok has (by rw [run]))]
            rfl
  · rw [Session.bind_of_error tooLarge] at done
    cases done

end SchemaMigration.StoreOptions
