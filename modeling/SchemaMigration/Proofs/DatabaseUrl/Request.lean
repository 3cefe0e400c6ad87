import Mathlib.Tactic.Common
import SchemaMigration.Proofs.DatabaseUrl

/-!
# What a database URL asks for

Every text is either refused, before a file is looked at, or asks for one path and one set of
options. Both are said here of the text alone: where its path ends, what its escapes stand for and
what pairs its query holds.

* `DatabaseUrl.parts_iff`: a text with one of the schemes has one path part and one query.
* `DatabaseUrl.readOptions_cases`: of several pairs with one key the last counts, but each of them
  can be refused.
* `DatabaseUrl.openStore_request`: what is refused, and what is opened otherwise.
-/

namespace SchemaMigration.DatabaseUrl

/-- What a database URL starts with. -/
def schemes : List String :=
  ["sqlite3://", "sqlite://"]

/-- The path part and the query of a URL: the first question mark behind the scheme ends the path
part, and a URL without one has the empty query. -/
inductive Parts : String → String → String → Prop
  | queried {lead encoded query : String} (scheme : lead ∈ schemes)
      (first : '?' ∉ encoded.toList) : Parts (lead ++ encoded ++ "?" ++ query) encoded query
  | bare {lead encoded : String} (scheme : lead ∈ schemes) (none : '?' ∉ encoded.toList) :
      Parts (lead ++ encoded) encoded ""

/-- The value of the last pair with a key. -/
def lastValue? (key : String) (pairs : List (String × String)) : Option String :=
  (pairs.filter (·.1 = key)).getLast?.map (·.2)

/-- The options that pairs ask for: what no pair names is left as it is at the start. -/
def requested (start : StoreOptions) (pairs : List (String × String)) : StoreOptions where
  table := (lastValue? tableKey pairs).getD start.table
  unwrapped := ((lastValue? unwrappedKey pairs).map (decide <| · = "true")).getD start.unwrapped

/-- URLs that name no database. -/
inductive Rejected (url : String) : Prop
  | scheme (other : ∀ lead ∈ schemes, ∀ rest, url ≠ lead ++ rest)
  | noPath {query : String} (parts : Parts url "" query)
  | notText {encoded query : String} {decoded : Bytes} (parts : Parts url encoded query)
      (decodes : Percent.Decodes (Bytes.ofString encoded) decoded)
      (noText : ∀ text, decoded ≠ Bytes.ofString text)
  | notBool {encoded query value : String} {pairs : List (String × String)}
      (parts : Parts url encoded query) (reads : Form.Reads query pairs)
      (mem : (unwrappedKey, value) ∈ pairs) (notTrue : value ≠ "true") (notFalse : value ≠ "false")

/-- The path and the options that a URL asks for. -/
def Asks (url : String) (path : Path) (options : StoreOptions) : Prop :=
  ∃ encoded query pairs, Parts url encoded query ∧
    Percent.Decodes (Bytes.ofString encoded) path.bytes ∧
    Form.Reads query pairs ∧ options = requested {} pairs

/-! ## The parts of a URL -/

theorem after?_eq_some_iff {lead text : String} {rest : List Char} :
    after? lead text = some rest ↔ text = lead ++ String.ofList rest := by
  constructor
  · intro found
    rw [after?] at found
    split_ifs at found with starts
    cases found
    obtain ⟨rest, whole⟩ := List.isPrefixOf_iff_prefix.mp starts
    rw [← String.toList_inj, String.toList_append, String.toList_ofList, ← whole,
      ← String.length_toList, List.drop_left]
  · rintro rfl
    rw [after?_append, String.toList_ofList]

/-- What follows the scheme of a URL. No text starts with both schemes. -/
theorem after?_schemes_eq_some_iff {url : String} {rest : List Char} :
    (after? "sqlite3://" url <|> after? "sqlite://" url) = some rest ↔
      ∃ lead ∈ schemes, url = lead ++ String.ofList rest := by
  have exclusive : after? "sqlite3://" ("sqlite://" ++ String.ofList rest) = none := by
    -- The schemes differ in their seventh character.
    rw [after?, String.toList_append]
    rfl
  simp only [Option.orElse_eq_orElse, Option.orElse_eq_or, Option.or_eq_some_iff,
    after?_eq_some_iff, schemes, List.mem_cons, List.not_mem_nil, or_false, exists_eq_or_imp,
    exists_eq_left]
  refine or_congr_right ⟨And.right, ?_⟩
  rintro rfl
  exact ⟨exclusive, rfl⟩

theorem parts_iff {url encoded query : String} :
    Parts url encoded query ↔
      ∃ rest, (after? "sqlite3://" url <|> after? "sqlite://" url) = some rest ∧
        encoded.toList = rest.takeWhile (· ≠ '?') ∧
        query.toList = (rest.dropWhile (· ≠ '?')).drop 1 := by
  have queried (lead : String) : lead ++ String.ofList (encoded.toList ++ '?' :: query.toList) =
      lead ++ encoded ++ "?" ++ query := by
    rw [← String.toList_inj]
    simp only [String.toList_append, String.toList_ofList, List.append_assoc]
    rfl
  simp only [after?_schemes_eq_some_iff,
    Form.cut_iff '?' fun _ => decide_eq_true_iff]
  constructor
  · rintro (⟨scheme, first⟩ | ⟨scheme, none⟩)
    · exact ⟨_, ⟨_, scheme, (queried _).symm⟩, first, .inl rfl⟩
    · exact ⟨_, ⟨_, scheme, by rw [String.ofList_toList]⟩, none, .inr ⟨rfl, rfl⟩⟩
  · rintro ⟨rest, ⟨lead, scheme, rfl⟩, first, rfl | ⟨rfl, noQuery⟩⟩
    · rw [queried]
      exact .queried scheme first
    · rw [String.ofList_toList, String.toList_eq_nil_iff.mp noQuery]
      exact .bare scheme first

/-! ## The options in a query -/

theorem lastValue?_cons (key : String) (pair : String × String) (rest : List (String × String)) :
    lastValue? key (pair :: rest) =
      (lastValue? key rest).or (if pair.1 = key then some pair.2 else none) := by
  rw [lastValue?, List.filter_cons]
  by_cases same : pair.1 = key
  · rw [if_pos (decide_eq_true same), if_pos same, List.getLast?_cons, lastValue?]
    cases (rest.filter (·.1 = key)).getLast? <;> rfl
  · rw [if_neg (by rwa [decide_eq_true_iff]), if_neg same, Option.or_none, lastValue?]

/-- Options after one pair. -/
def given (options : StoreOptions) (key value : String) : StoreOptions :=
  if key = tableKey then { options with table := value }
  else if key = unwrappedKey then { options with unwrapped := value = "true" }
  else options

theorem requested_cons (start : StoreOptions) (key value : String) (rest : List (String × String)) :
    requested start ((key, value) :: rest) = requested (given start key value) rest := by
  have otherKey : unwrappedKey ≠ tableKey := by decide
  rw [requested, requested, lastValue?_cons, lastValue?_cons, Option.getD_or, Option.map_or,
    Option.getD_or, given]
  by_cases table : key = tableKey
  · rw [if_pos table, if_pos table, if_neg (table ▸ otherKey.symm)]
    rfl
  by_cases unwrapped : key = unwrappedKey
  · rw [if_neg table, if_neg table, if_pos unwrapped, if_pos unwrapped]
    rfl
  · rw [if_neg table, if_neg table, if_neg unwrapped, if_neg unwrapped]
    rfl

theorem readOptions_cons (start : StoreOptions) {key value : String}
    (isBool : key = unwrappedKey → value = "true" ∨ value = "false")
    (rest : List (String × String)) :
    readOptions start ((key, value) :: rest) = readOptions (given start key value) rest := by
  rw [readOptions, given]
  split_ifs with table unwrapped yes no
  · rfl
  · rw [yes, decide_eq_true rfl]
  · rw [no]
    rfl
  · exact absurd (isBool unwrapped) (not_or.mpr ⟨yes, no⟩)
  · rfl

/-- Of several pairs with one key the last counts, and a value that is neither `true` nor `false` is
refused wherever it stands. -/
theorem readOptions_cases (start : StoreOptions) (pairs : List (String × String)) :
    (∃ value, (unwrappedKey, value) ∈ pairs ∧ value ≠ "true" ∧ value ≠ "false" ∧
        readOptions start pairs = .error (.unwrappedNotBool value)) ∨
      ((∀ value, (unwrappedKey, value) ∈ pairs → value = "true" ∨ value = "false") ∧
        readOptions start pairs = .ok (requested start pairs)) := by
  induction pairs generalizing start with
  | nil => exact .inr ⟨fun _ mem => (nomatch mem), rfl⟩
  | cons pair rest ih =>
      obtain ⟨key, value⟩ := pair
      by_cases isBool : key = unwrappedKey → value = "true" ∨ value = "false"
      · rw [readOptions_cons start isBool, requested_cons]
        obtain ⟨bad, mem, refused⟩ | ⟨bools, done⟩ := ih (given start key value)
        · exact .inl ⟨bad, List.mem_cons_of_mem _ mem, refused⟩
        · refine .inr ⟨fun other mem => ?_, done⟩
          obtain ⟨⟩ | ⟨_, mem⟩ := mem
          · exact isBool rfl
          · exact bools other mem
      · -- The value is refused before the rest of the query is looked at.
        obtain ⟨rfl, notBool⟩ := Classical.not_imp.mp isBool
        obtain ⟨notTrue, notFalse⟩ := not_or.mp notBool
        have otherKey : unwrappedKey ≠ tableKey := by decide
        refine .inl ⟨value, List.mem_cons_self, notTrue, notFalse, ?_⟩
        rw [readOptions, if_neg otherKey, if_pos rfl, if_neg notTrue, if_neg notFalse]

/-! ## Whole URLs -/

theorem Parts.unique {url encoded encoded' query query' : String} (one : Parts url encoded query)
    (other : Parts url encoded' query') : encoded = encoded' ∧ query = query' := by
  obtain ⟨rest, found, path, options⟩ := parts_iff.mp one
  obtain ⟨rest', found', path', options'⟩ := parts_iff.mp other
  cases found.symm.trans found'
  exact ⟨String.toList_inj.mp (path.trans path'.symm),
    String.toList_inj.mp (options.trans options'.symm)⟩

/-- A URL with one of the schemes has its parts. -/
theorem exists_parts {lead : String} (scheme : lead ∈ schemes) (rest : String) :
    ∃ encoded query, Parts (lead ++ rest) encoded query := by
  have found := after?_schemes_eq_some_iff.mpr
    ⟨lead, scheme, congrArg (lead ++ ·) (String.ofList_toList (s := rest)).symm⟩
  exact ⟨_, _, parts_iff.mpr ⟨_, found, String.toList_ofList, String.toList_ofList⟩⟩

theorem read_of_parts {url encoded query : String} (parts : Parts url encoded query) :
    read url = if encoded = "" then .error (.databaseUrlWithoutPath url)
      else match Utf8.decode (Percent.decode (Bytes.ofString encoded)) with
        | .error fault => .error (.databasePathNotUtf8 url fault)
        | .ok _ => (readOptions {} (Form.pairs query)).map
            (⟨Percent.decode (Bytes.ofString encoded)⟩, ·) := by
  obtain ⟨rest, found, path, options⟩ := parts_iff.mp parts
  rw [read, found]
  cases decoded : Utf8.decode (Percent.decode (Bytes.ofString encoded)) with
  | error fault =>
      simp only [← path, String.ofList_toList, String.toList_eq_nil_iff, decoded]
  | ok text =>
      simp only [← path, ← options, String.ofList_toList, String.toList_eq_nil_iff, decoded]

/-- Each reason to refuse a URL is an error, whichever of them is found first. -/
theorem Rejected.read_eq_error {url : String} (rejected : Rejected url) :
    ∃ e : Error, e.kind = .database ∧ read url = .error e := by
  cases rejected with
  | scheme other =>
      have none : (after? "sqlite3://" url <|> after? "sqlite://" url) = none := by
        rw [Option.eq_none_iff_forall_ne_some]
        intro rest found
        obtain ⟨lead, scheme, whole⟩ := after?_schemes_eq_some_iff.mp found
        exact other lead scheme _ whole
      exact ⟨.unsupportedDatabaseUrl url, rfl, by rw [read, none]⟩
  | noPath parts => exact ⟨.databaseUrlWithoutPath url, rfl, read_of_parts parts⟩
  | notText parts decodes noText =>
      cases Percent.decodes_iff.mp decodes
      obtain ⟨fault, failed⟩ := Utf8.decode_eq_error_iff.mpr noText
      rw [read_of_parts parts, failed]
      split_ifs
      · exact ⟨_, rfl, rfl⟩
      · exact ⟨_, rfl, rfl⟩
  | @notBool _ _ value _ parts reads mem notTrue notFalse =>
      cases Form.reads_iff.mp reads
      obtain ⟨bad, -, -, -, refused⟩ | ⟨bools, -⟩ := readOptions_cases {} (Form.pairs _)
      · rw [read_of_parts parts, refused]
        split_ifs
        · exact ⟨_, rfl, rfl⟩
        · split
          · exact ⟨_, rfl, rfl⟩
          · exact ⟨_, rfl, rfl⟩
      · exact absurd (bools value mem) (not_or.mpr ⟨notTrue, notFalse⟩)

theorem Asks.unique {url : String} {path path' : Path} {options options' : StoreOptions}
    (one : Asks url path options) (other : Asks url path' options') :
    path' = path ∧ options' = options := by
  obtain ⟨_, _, _, parts, decodes, reads, rfl⟩ := one
  obtain ⟨_, _, _, parts', decodes', reads', rfl⟩ := other
  obtain ⟨rfl, rfl⟩ := parts.unique parts'
  cases (Form.reads_iff.mp reads).trans (Form.reads_iff.mp reads').symm
  exact ⟨congrArg Path.mk (decodes'.unique decodes), rfl⟩

/-- What is not refused is read as what it asks for. -/
theorem rejected_or_asks (url : String) :
    Rejected url ∨ ∃ path options, Asks url path options ∧ read url = .ok (path, options) := by
  by_cases scheme : ∃ lead ∈ schemes, ∃ rest, url = lead ++ rest
  · obtain ⟨lead, scheme, rest, rfl⟩ := scheme
    obtain ⟨encoded, query, parts⟩ := exists_parts scheme rest
    have reads := read_of_parts parts
    by_cases empty : encoded = ""
    · exact .inl (.noPath (empty ▸ parts))
    rw [if_neg empty] at reads
    cases decoded : Utf8.decode (Percent.decode (Bytes.ofString encoded)) with
    | error fault =>
        exact .inl (.notText parts (Percent.decodes_decode _)
          (Utf8.decode_eq_error_iff.mp ⟨fault, decoded⟩))
    | ok text =>
        have values := readOptions_cases {} (Form.pairs query)
        obtain ⟨value, mem, notTrue, notFalse, -⟩ | ⟨-, done⟩ := values
        · exact .inl (.notBool parts (Form.reads_iff.mpr rfl) mem notTrue notFalse)
        · rw [decoded, done] at reads
          exact .inr ⟨_, _,
            ⟨_, _, _, parts, Percent.decodes_decode _, Form.reads_iff.mpr rfl, rfl⟩, reads⟩
  · exact .inl (.scheme fun lead mem rest whole => scheme ⟨lead, mem, rest, whole⟩)

/-- **What a database URL asks for.** Every text is of one of two kinds. Either it is refused, with
one error of the database for every tree of files, and the tree is left as it is; or the store is
opened at the one path and with the one set of options that the text asks for. -/
theorem openStore_request (url : String) :
    (Rejected url ∧ ∃ e : Error, e.kind = .database ∧ read url = .error e ∧
        ∀ tree, openStore tree url = (tree, .error e)) ∨
      (¬ Rejected url ∧ ∃ path options,
        (∀ path' options', Asks url path' options' ↔ path' = path ∧ options' = options) ∧
        read url = .ok (path, options) ∧
        ∀ tree, openStore tree url = Store.openPath tree path options) := by
  obtain rejected | ⟨path, options, asks, reads⟩ := rejected_or_asks url
  · obtain ⟨e, kind, failed⟩ := rejected.read_eq_error
    exact .inl ⟨rejected, e, kind, failed, fun tree => by rw [openStore, failed]⟩
  · have accepted : ¬ Rejected url := by
      intro rejected
      obtain ⟨e, -, failed⟩ := rejected.read_eq_error
      cases reads.symm.trans failed
    refine .inr ⟨accepted, path, options, fun path' options' => ⟨asks.unique, ?_⟩, reads,
      openStore_of_read reads⟩
    rintro ⟨rfl, rfl⟩
    exact asks

/-- A path with an escaped question mark, a plus sign, a percent sign that starts no escape and a
hash, and a query with a key in escapes and both keys twice. -/
theorem openStore_request_sample :
    let url := "sqlite://a%3Fb+c%2#?x-no-tx-wrap=false&x%2Dmigrations-table=t&&a=b" ++
      "&x-no-tx-wrap=true&x-migrations-table"
    let options : StoreOptions := { table := "", unwrapped := true }
    Asks url (Path.ofString "a?b+c%2#") options ∧
      ∀ tree, openStore tree url = Store.openPath tree (Path.ofString "a?b+c%2#") options := by
  intro url options
  have reads : read url = .ok (Path.ofString "a?b+c%2#", options) := by decide +kernel
  obtain ⟨-, e, -, failed, -⟩ | ⟨-, path, options, asks, done, opens⟩ := openStore_request url
  · cases reads.symm.trans failed
  · cases reads.symm.trans done
    exact ⟨(asks _ _).mpr ⟨rfl, rfl⟩, opens⟩

end SchemaMigration.DatabaseUrl
