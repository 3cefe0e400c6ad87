import Mathlib.Data.List.Basic
import Mathlib.Data.List.Forall2
import Mathlib.Data.List.TakeWhile
import Mathlib.Tactic.Common
import SchemaMigration.Proofs.Text.Percent
import SchemaMigration.Text.Form

/-!
# Form-encoded queries are read back

* `Form.splitOn_eq_splitOnP`: splitting is the splitting of the library, whose lemmas apply.
* `Form.decodePart_encodePart`: one key or value is read back.
* `Form.reads_iff`: any text is read as the pairs between its `&`, in their order.
* `Form.pairs_encode`: a query is read back as the pairs it was made of, in their order.
-/

namespace SchemaMigration.Form

/-! ## Splitting -/

theorem splitOn_eq_splitOnP {α : Type} (separates : α → Bool) (l : List α) :
    splitOn separates l = l.splitOnP separates := by
  induction l with
  | nil => rfl
  | cons x l ih =>
      rw [splitOn, List.splitOnP_cons_eq_if_modifyHead, ih]
      cases h : l.splitOnP separates with
      | nil => exact absurd h (List.splitOnP_ne_nil separates l)
      | cons first more => rfl

/-- No piece holds a separator. -/
theorem not_separates_of_mem_splitOn {α : Type} {separates : α → Bool} {l piece : List α}
    (mem : piece ∈ splitOn separates l) : ∀ x ∈ piece, separates x = false := by
  fun_induction splitOn separates l generalizing piece with
  | case1 =>
      cases List.mem_singleton.mp mem
      exact fun _ h => nomatch h
  | case2 x rest h ih =>
      obtain rfl | mem := List.mem_cons.mp mem
      · exact fun _ h => nomatch h
      · exact ih mem
  | case3 x rest h none ih =>
      cases List.mem_singleton.mp mem
      exact fun y hy => List.mem_singleton.mp hy ▸ Bool.eq_false_iff.mpr h
  | case4 x rest h first more pieces ih =>
      rw [pieces] at ih
      obtain rfl | mem := List.mem_cons.mp mem
      · intro y hy
        obtain rfl | hy := List.mem_cons.mp hy
        · exact Bool.eq_false_iff.mpr h
        · exact ih List.mem_cons_self y hy
      · exact ih (List.mem_cons_of_mem _ mem)

/-- A list is cut at the first separator, which belongs to neither part; without one, nothing is
left behind the cut. -/
theorem cut_iff {α : Type} {keeps : α → Bool} (separator : α)
    (only : ∀ x, keeps x = true ↔ x ≠ separator) (l before after : List α) :
    (before = l.takeWhile keeps ∧ after = (l.dropWhile keeps).drop 1) ↔
      separator ∉ before ∧ (l = before ++ separator :: after ∨ l = before ∧ after = []) := by
  have ends : ¬ keeps separator = true := fun kept => (only separator).mp kept rfl
  constructor
  · rintro ⟨rfl, rfl⟩
    refine ⟨fun mem => ends (List.mem_takeWhile_imp mem), ?_⟩
    have whole := List.takeWhile_append_dropWhile (p := keeps) (l := l)
    cases follows : l.dropWhile keeps with
    | nil =>
        rw [follows, List.append_nil] at whole
        exact .inr ⟨whole.symm, rfl⟩
    | cons x after =>
        have stopped := List.head_dropWhile_not keeps (l := l) (by simp [follows])
        have same : x = separator := by
          simpa [follows, ← Bool.not_eq_true, only] using stopped
        rw [follows, same] at whole
        exact .inl whole.symm
  · rintro ⟨first, split⟩
    have kept : ∀ x ∈ before, keeps x = true :=
      fun x mem => (only x).mpr fun same => first (same ▸ mem)
    obtain rfl | ⟨rfl, rfl⟩ := split
    · rw [List.takeWhile_append_of_pos kept, List.dropWhile_append_of_pos kept,
        List.takeWhile_cons_of_neg ends, List.dropWhile_cons_of_neg ends, List.append_nil]
      exact ⟨rfl, rfl⟩
    · rw [List.takeWhile_eq_self_iff.mpr kept, List.dropWhile_eq_nil_iff.mpr kept]
      exact ⟨rfl, rfl⟩

/-! ## One key or value -/

/-- Bytes that are written as `%XX`. -/
def escaped (byte : UInt8) : Bool :=
  !(byte == 0x20 || isPlain byte)

/-- The character that stands for a character in a query. -/
def plus (c : Char) : Char :=
  if c = ' ' then '+' else c

/-- The byte that a byte of a query stands for. -/
def blank (byte : UInt8) : UInt8 :=
  if byte == 0x2B then 0x20 else byte

theorem of_isPlain {byte : UInt8} (plain : isPlain byte = true) :
    byte < 0x80 ∧ byte ≠ 0x20 ∧ byte ≠ 0x25 ∧ byte ≠ 0x26 ∧ byte ≠ 0x2B ∧ byte ≠ 0x3D := by
  simp only [isPlain, Bool.or_eq_true, Bool.and_eq_true, decide_eq_true_eq, List.map_cons,
    List.map_nil, List.mem_cons, List.not_mem_nil, or_false, UInt8.lt_iff_toNat_lt,
    UInt8.le_iff_toNat_le, ne_eq, ← UInt8.toNat_inj, Char.reduceToNat, UInt8.reduceToNat]
    at plain ⊢
  omega

theorem escaped_eq_false {byte : UInt8} (kept : escaped byte = false) :
    byte = 0x20 ∨ isPlain byte = true := by
  simpa only [escaped, Bool.not_eq_false', Bool.or_eq_true, beq_iff_eq] using kept

theorem covers_escaped : Percent.Covers escaped where
  percent := rfl
  ascii byte kept := by
    obtain rfl | plain := escaped_eq_false kept
    · decide
    · exact (of_isPlain plain).1

theorem plus_ofNat {byte : UInt8} (ascii : byte < 0x80) (other : byte ≠ 0x20) :
    plus (Char.ofNat byte.toNat) = Char.ofNat byte.toNat := by
  refine if_neg fun h => other ?_
  have bytes := congrArg String.utf8EncodeChar h
  rw [Utf8.encode_ofNat ascii] at bytes
  exact List.head_eq_of_cons_eq bytes

/-- The bytes of an encoded part hold no `&` and no `=`, and stand for the bytes of the text with
its blanks. -/
theorem exists_of_mem_encode {bytes : Bytes} {c : Char}
    (mem : c ∈ Percent.encode escaped bytes) :
    ∃ byte, String.utf8EncodeChar (plus c) = [byte] ∧ String.utf8EncodeChar c = [blank byte] ∧
      byte ≠ 0x26 ∧ byte ≠ 0x3D := by
  have other : ∀ byte : UInt8, byte < 0x80 → byte ≠ 0x20 → byte ≠ 0x2B →
      String.utf8EncodeChar (plus (Char.ofNat byte.toNat)) = [byte] ∧
        String.utf8EncodeChar (Char.ofNat byte.toNat) = [blank byte] := by
    intro byte ascii notBlank notPlus
    rw [plus_ofNat ascii notBlank, Utf8.encode_ofNat ascii, blank,
      if_neg (by rwa [beq_iff_eq])]
    exact ⟨rfl, rfl⟩
  obtain ⟨byte, rfl, rfl | ⟨value, digit⟩ | kept⟩ := Percent.exists_of_mem_encode mem
  · exact ⟨0x25, rfl, rfl, by decide, by decide⟩
  · have range := Percent.of_hexValue? digit
    have ne : ∀ b : UInt8, b.toNat < 48 ∨ b.toNat = 0x3D → byte ≠ b := by
      rintro b h rfl
      omega
    obtain ⟨written, read⟩ := other byte (Percent.ascii_of_hexValue? digit) (ne _ (by decide))
      (ne _ (by decide))
    exact ⟨byte, written, read, ne _ (by decide), ne _ (by decide)⟩
  · obtain rfl | plain := escaped_eq_false kept
    · exact ⟨0x2B, rfl, rfl, by decide, by decide⟩
    · obtain ⟨ascii, notBlank, -, notAnd, notPlus, notIs⟩ := of_isPlain plain
      obtain ⟨written, read⟩ := other byte ascii notBlank notPlus
      exact ⟨byte, written, read, notAnd, notIs⟩

theorem encodePart_eq (text : String) :
    encodePart text =
      String.ofList ((Percent.encode escaped (Bytes.ofString text)).map plus) := by
  rw [encodePart, Percent.encode, List.map_flatMap]
  -- An escape holds no blank, so only a blank that stands for itself becomes a plus sign.
  refine congrArg String.ofList (List.flatMap_congr fun byte _ => ?_)
  have small : byte.toNat < 256 := byte.toNat_lt
  by_cases isBlank : byte = 0x20
  · subst isBlank
    rfl
  rw [if_neg (by rwa [beq_iff_eq])]
  cases plain : isPlain byte with
  | true =>
      rw [if_pos rfl, escaped, plain, Bool.or_true, Bool.not_true, if_neg Bool.false_ne_true,
        List.map_singleton, plus_ofNat (of_isPlain plain).1 isBlank]
  | false =>
      have digit : ∀ value < 16, plus (Percent.hexDigit value) = Percent.hexDigit value := by decide
      have isEscaped : escaped byte = true := by
        rw [escaped, plain, Bool.or_false, beq_eq_false_iff_ne.mpr isBlank, Bool.not_false]
      rw [if_neg Bool.false_ne_true, isEscaped, if_pos rfl, Percent.escape, List.map_cons,
        List.map_cons, List.map_singleton, digit _ (by omega), digit _ (by omega)]
      rfl

theorem ofString_encodePart (text : String) :
    (Bytes.ofString (encodePart text)).map blank =
      (Percent.encode escaped (Bytes.ofString text)).flatMap String.utf8EncodeChar := by
  rw [encodePart_eq, Bytes.ofString_ofList, List.flatMap_map, List.map_flatMap]
  refine List.flatMap_congr fun c mem => ?_
  obtain ⟨byte, written, read, -⟩ := exists_of_mem_encode mem
  rw [written, read, List.map_singleton]

/-- One key or value is read back. -/
theorem decodePart_encodePart (text : String) :
    decodePart (Bytes.ofString (encodePart text)) = text := by
  have decoded := Percent.decode_encode covers_escaped (Bytes.ofString text) []
  rw [List.append_nil, Percent.decode, List.append_nil] at decoded
  rw [decodePart, show (fun byte => if byte == 0x2B then 0x20 else byte) = blank from rfl,
    ofString_encodePart, decoded, Utf8.lossy_ofString]

theorem of_mem_encodePart {text : String} {byte : UInt8}
    (mem : byte ∈ Bytes.ofString (encodePart text)) : byte ≠ 0x26 ∧ byte ≠ 0x3D := by
  rw [encodePart_eq, Bytes.ofString_ofList, List.flatMap_map] at mem
  obtain ⟨c, written, mem⟩ := List.mem_flatMap.mp mem
  obtain ⟨b, bytes, -, separators⟩ := exists_of_mem_encode written
  rw [bytes] at mem
  exact List.mem_singleton.mp mem ▸ separators

/-! ## Any query -/

/-- The bytes of one key or value, and the text that they are read as: a plus sign is a blank, and
what is left is percent-decoded. -/
def Part (bytes : Bytes) (text : String) : Prop :=
  ∃ decoded, Percent.Decodes (bytes.map blank) decoded ∧ text = Utf8.lossy decoded

theorem part_iff {bytes : Bytes} {text : String} : Part bytes text ↔ text = decodePart bytes := by
  simp only [Part, Percent.decodes_iff, exists_eq_left]
  rfl

/-- What a piece between two `&` is read as: the first `=` ends the key, and a piece without one is
a key with the empty value. -/
inductive Pair : Bytes → String × String → Prop
  | valued {key value : Bytes} {k v : String} (first : 0x3D ∉ key) (keyReads : Part key k)
      (valueReads : Part value v) : Pair (key ++ 0x3D :: value) (k, v)
  | bare {key : Bytes} {k : String} (none : 0x3D ∉ key) (keyReads : Part key k) : Pair key (k, "")

/-- What a query is read as: it is cut at every `&`, and the pieces with something in them are the
pairs. -/
def Reads (query : String) (pairs : List (String × String)) : Prop :=
  ∃ pieces, pieces ≠ [] ∧ (∀ piece ∈ pieces, 0x26 ∉ piece) ∧
    Bytes.ofString query = [0x26].intercalate pieces ∧
    List.Forall₂ Pair (pieces.filter (· ≠ [])) pairs

theorem decodePart_nil : decodePart [] = "" :=
  decodePart_encodePart ""

/-- The pair that a piece is read as. -/
def pairOf (piece : Bytes) : String × String :=
  (decodePart (piece.takeWhile (· != 0x3D)), decodePart ((piece.dropWhile (· != 0x3D)).drop 1))

theorem pair_iff {piece : Bytes} {pair : String × String} :
    Pair piece pair ↔ pair = pairOf piece := by
  have cut := cut_iff (0x3D : UInt8) (fun _ => bne_iff_ne) piece
  constructor
  · rintro (⟨first, keyReads, valueReads⟩ | ⟨none, keyReads⟩)
    · obtain ⟨key, value⟩ := (cut _ _).mpr ⟨first, .inl rfl⟩
      rw [pairOf, ← key, ← value, part_iff.mp keyReads, part_iff.mp valueReads]
    · obtain ⟨key, value⟩ := (cut _ _).mpr ⟨none, .inr ⟨rfl, rfl⟩⟩
      rw [pairOf, ← key, ← value, part_iff.mp keyReads, decodePart_nil]
  · rintro rfl
    obtain ⟨first, split⟩ := (cut _ _).mp ⟨rfl, rfl⟩
    rw [pairOf]
    generalize piece.takeWhile (· != 0x3D) = key at first split ⊢
    generalize (piece.dropWhile (· != 0x3D)).drop 1 = value at split ⊢
    obtain rfl | ⟨rfl, rfl⟩ := split
    · exact .valued first (part_iff.mpr rfl) (part_iff.mpr rfl)
    · rw [decodePart_nil]
      exact .bare first (part_iff.mpr rfl)

theorem pieces_iff {bytes : Bytes} {pieces : List Bytes} :
    (pieces ≠ [] ∧ (∀ piece ∈ pieces, 0x26 ∉ piece) ∧ bytes = [0x26].intercalate pieces) ↔
      pieces = splitOn (· == 0x26) bytes := by
  rw [splitOn_eq_splitOnP, ← List.splitOn_eq_splitOnP]
  constructor
  · rintro ⟨some, separated, rfl⟩
    exact (List.splitOn_intercalate _ separated some).symm
  · rintro rfl
    refine ⟨List.splitOnP_ne_nil _ _, fun piece mem => ?_, (List.intercalate_splitOn _).symm⟩
    rw [List.splitOn_eq_splitOnP, ← splitOn_eq_splitOnP] at mem
    exact fun within => absurd (not_separates_of_mem_splitOn mem _ within) (by decide)

/-- **Every text is read as one list of pairs.** -/
theorem reads_iff {query : String} {ps : List (String × String)} :
    Reads query ps ↔ ps = pairs query := by
  have each (pieces : List Bytes) :
      List.Forall₂ Pair pieces ps ↔ ps = pieces.map pairOf := by
    have relation : Pair = fun piece pair => pairOf piece = pair :=
      funext₂ fun _ _ => propext (pair_iff.trans eq_comm)
    rw [eq_comm, ← List.forall₂_eq_eq_eq, List.forall₂_map_left_iff, relation]
  calc Reads query ps ↔
      ∃ pieces, pieces = splitOn (· == 0x26) (Bytes.ofString query) ∧
          ps = (pieces.filter (· ≠ [])).map pairOf := by
        simp only [Reads, each, ← pieces_iff, and_assoc]
    _ ↔ ps = pairs query := by
        rw [exists_eq_left]
        rfl

/-! ## Written queries -/

/-- The bytes of one pair. -/
def piece (pair : String × String) : Bytes :=
  Bytes.ofString (encodePart pair.1) ++ 0x3D :: Bytes.ofString (encodePart pair.2)

theorem ofString_encode (pairs : List (String × String)) :
    Bytes.ofString (encode pairs) = [0x26].intercalate (pairs.map piece) := by
  rw [encode, Bytes.ofString_intercalate, List.map_map]
  refine congrArg [0x26].intercalate (List.map_congr_left fun pair _ => ?_)
  have sign : Bytes.ofString "=" = [0x3D] := rfl
  rw [Function.comp_apply, Bytes.ofString_append, Bytes.ofString_append, List.append_assoc, sign,
    List.singleton_append, piece]

theorem pairOf_piece (pair : String × String) : pairOf (piece pair) = pair := by
  have first : 0x3D ∉ Bytes.ofString (encodePart pair.1) := fun mem => (of_mem_encodePart mem).2 rfl
  exact (pair_iff.mp (.valued first (part_iff.mpr (decodePart_encodePart _).symm)
    (part_iff.mpr (decodePart_encodePart _).symm))).symm

/-- **A query is read back** as the pairs that it was made of, whatever texts they hold. -/
theorem pairs_encode (query : List (String × String)) : pairs (encode query) = query := by
  have separated : ∀ bytes ∈ query.map piece, (0x26 : UInt8) ∉ bytes := by
    intro bytes mem within
    obtain ⟨pair, -, rfl⟩ := List.mem_map.mp mem
    obtain key | value := List.mem_append.mp within
    · exact (of_mem_encodePart key).1 rfl
    · obtain is | value := List.mem_cons.mp value
      · exact absurd is (by decide)
      · exact (of_mem_encodePart value).1 rfl
  have nonempty : ∀ bytes ∈ query.map piece, decide (bytes ≠ []) = true := by
    intro bytes mem
    obtain ⟨pair, -, rfl⟩ := List.mem_map.mp mem
    exact decide_eq_true (List.append_ne_nil_of_right_ne_nil _ (List.cons_ne_nil _ _))
  rw [pairs, ofString_encode, splitOn_eq_splitOnP]
  cases query with
  | nil => rfl
  | cons pair query =>
      rw [← List.splitOn_eq_splitOnP, List.splitOn_intercalate _ separated (List.cons_ne_nil _ _),
        List.filter_eq_self.mpr nonempty, List.map_map]
      exact (List.map_congr_left fun pair _ => pairOf_piece pair).trans (List.map_id _)

end SchemaMigration.Form
