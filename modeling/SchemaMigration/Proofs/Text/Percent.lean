import Mathlib.Tactic.Common
import Mathlib.Tactic.IntervalCases
import SchemaMigration.Proofs.Text.Utf8
import SchemaMigration.Text.Percent

/-!
# Percent-encoding is undone

A set that covers the percent sign and everything outside ASCII loses nothing: what `encode` writes
with it, `decode` reads back byte for byte.

* `Percent.decode_encode`: the round trip, in front of any further bytes.
* `Percent.decodes_iff`: `decode` replaces the escapes and keeps every other byte.
* `Percent.exists_of_mem_encode`: what the characters of an encoded text are.
* `Percent.encode_eq_self_iff`: which bytes are written as they are.
* `Percent.encode_segment_forall`, `Percent.encode_path_of_segmentChars`: an encoded segment holds
  no slash, and is left as it is when it is encoded for a path once more.
-/

namespace SchemaMigration.Percent

/-- A set of bytes whose escapes can be told from the rest of an encoded text. -/
structure Covers (escaped : UInt8 → Bool) : Prop where
  percent : escaped 0x25 = true
  ascii : ∀ byte : UInt8, escaped byte = false → byte < 0x80

/-! ## One byte -/

/-- A hexadecimal digit is a byte of its own and has the value it was made for. -/
theorem exists_hexDigit {value : Nat} (small : value < 16) :
    ∃ digit : UInt8, hexDigit value = Char.ofNat digit.toNat ∧ hexValue? digit = some value := by
  refine ⟨UInt8.ofNat (hexDigit value).toNat, ?_, ?_⟩ <;> interval_cases value <;> rfl

theorem of_hexValue? {byte : UInt8} {value : Nat} (digit : hexValue? byte = some value) :
    48 ≤ byte.toNat ∧ byte.toNat ≤ 57 ∨ 65 ≤ byte.toNat ∧ byte.toNat ≤ 70 ∨
      97 ≤ byte.toNat ∧ byte.toNat ≤ 102 := by
  simp only [hexValue?] at digit
  split_ifs at digit <;> omega

theorem ascii_of_hexValue? {byte : UInt8} {value : Nat} (digit : hexValue? byte = some value) :
    byte < 0x80 := by
  have range := of_hexValue? digit
  simp only [UInt8.lt_iff_toNat_lt, UInt8.reduceToNat]
  omega

theorem decode_cons {byte : UInt8} (other : byte ≠ 0x25) (rest : Bytes) :
    decode (byte :: rest) = byte :: decode rest := by
  rw [decode]
  exact fun _ _ _ percent _ => other percent

theorem decode_escape (byte : UInt8) (rest : Bytes) :
    decode ((escape byte).flatMap String.utf8EncodeChar ++ rest) = byte :: decode rest := by
  have small : byte.toNat < 256 := byte.toNat_lt
  obtain ⟨high, highChar, highValue⟩ := exists_hexDigit (show byte.toNat / 16 < 16 by omega)
  obtain ⟨low, lowChar, lowValue⟩ := exists_hexDigit (show byte.toNat % 16 < 16 by omega)
  have whole : byte.toNat / 16 * 16 + byte.toNat % 16 = byte.toNat := by omega
  have percent : String.utf8EncodeChar '%' = [0x25] := rfl
  simp only [escape, highChar, lowChar, List.flatMap_cons, List.flatMap_nil, percent,
    Utf8.encode_ofNat (ascii_of_hexValue? highValue),
    Utf8.encode_ofNat (ascii_of_hexValue? lowValue), List.cons_append, List.nil_append]
  rw [decode, highValue, lowValue]
  simp only [whole, UInt8.ofNat_toNat]

/-! ## Whole texts -/

/-- **Round trip.** What is encoded with a set that covers the percent sign and everything outside
ASCII is decoded to the bytes it was made of. -/
theorem decode_encode {escaped : UInt8 → Bool} (covers : Covers escaped) (bytes rest : Bytes) :
    decode ((encode escaped bytes).flatMap String.utf8EncodeChar ++ rest) =
      bytes ++ decode rest := by
  induction bytes with
  | nil => rfl
  | cons byte bytes ih =>
      have tail := ih
      simp only [encode] at tail
      simp only [encode, List.flatMap_cons, List.flatMap_append, List.append_assoc,
        List.cons_append]
      cases kept : escaped byte with
      | true => rw [if_pos rfl, decode_escape, tail]
      | false =>
          have notPercent : byte ≠ 0x25 := fun h => by
            rw [h, covers.percent] at kept; cases kept
          rw [if_neg Bool.false_ne_true, List.flatMap_singleton,
            Utf8.encode_ofNat (covers.ascii byte kept), List.singleton_append,
            decode_cons notPercent, tail]

theorem encode_ne_nil {escaped : UInt8 → Bool} {bytes : Bytes} (some : bytes ≠ []) :
    encode escaped bytes ≠ [] := by
  cases bytes with
  | nil => exact absurd rfl some
  | cons byte bytes =>
      rw [encode, List.flatMap_cons]
      split_ifs <;> exact List.cons_ne_nil _ _

/-- Every character of an encoded text is a percent sign, a digit or a byte that stands for
itself. -/
theorem exists_of_mem_encode {escaped : UInt8 → Bool} {bytes : Bytes} {c : Char}
    (mem : c ∈ encode escaped bytes) :
    ∃ byte : UInt8, c = Char.ofNat byte.toNat ∧
      (byte = 0x25 ∨ (∃ value, hexValue? byte = some value) ∨ escaped byte = false) := by
  obtain ⟨byte, -, mem⟩ := List.mem_flatMap.mp mem
  have small : byte.toNat < 256 := byte.toNat_lt
  obtain ⟨high, highChar, highValue⟩ := exists_hexDigit (show byte.toNat / 16 < 16 by omega)
  obtain ⟨low, lowChar, lowValue⟩ := exists_hexDigit (show byte.toNat % 16 < 16 by omega)
  cases h : escaped byte with
  | true =>
      rw [h, if_pos rfl, escape, highChar, lowChar] at mem
      simp only [List.mem_cons, List.not_mem_nil, or_false] at mem
      obtain rfl | rfl | rfl := mem
      · exact ⟨0x25, rfl, .inl rfl⟩
      · exact ⟨high, rfl, .inr (.inl ⟨_, highValue⟩)⟩
      · exact ⟨low, rfl, .inr (.inl ⟨_, lowValue⟩)⟩
  | false =>
      rw [h, if_neg Bool.false_ne_true] at mem
      exact ⟨byte, List.mem_singleton.mp mem, .inr (.inr h)⟩

/-! ## What is decoded -/

/-- `bytes` start with a percent sign and two hexadecimal digits that stand for `byte`; `rest`
follows them. -/
def Escape (bytes : Bytes) (byte : UInt8) (rest : Bytes) : Prop :=
  ∃ high low h l, bytes = 0x25 :: high :: low :: rest ∧ hexValue? high = some h ∧
    hexValue? low = some l ∧ byte = UInt8.ofNat (h * 16 + l)

/-- `decoded` is what `bytes` are decoded to: an escape becomes its byte, and any other byte is
kept, a percent sign that starts no escape too. -/
inductive Decodes : Bytes → Bytes → Prop
  | nil : Decodes [] []
  | escape {bytes rest decoded : Bytes} {byte : UInt8} (here : Escape bytes byte rest)
      (tail : Decodes rest decoded) : Decodes bytes (byte :: decoded)
  | kept {byte : UInt8} {rest decoded : Bytes} (none : ∀ b r, ¬ Escape (byte :: rest) b r)
      (tail : Decodes rest decoded) : Decodes (byte :: rest) (byte :: decoded)

theorem Escape.unique {bytes rest rest' : Bytes} {byte byte' : UInt8}
    (one : Escape bytes byte rest) (other : Escape bytes byte' rest') :
    byte = byte' ∧ rest = rest' := by
  obtain ⟨_, _, _, _, rfl, highValue, lowValue, rfl⟩ := one
  obtain ⟨_, _, _, _, same, highValue', lowValue', rfl⟩ := other
  cases same
  cases highValue.symm.trans highValue'
  cases lowValue.symm.trans lowValue'
  exact ⟨rfl, rfl⟩

theorem Decodes.unique {bytes decoded decoded' : Bytes} (one : Decodes bytes decoded)
    (other : Decodes bytes decoded') : decoded = decoded' := by
  induction one generalizing decoded' with
  | nil =>
      cases other with
      | nil => rfl
      | escape here _ => obtain ⟨_, _, _, _, same, -⟩ := here; cases same
  | escape here _ ih =>
      cases other with
      | nil => obtain ⟨_, _, _, _, same, -⟩ := here; cases same
      | escape here' tail =>
          obtain ⟨rfl, rfl⟩ := here.unique here'
          rw [ih tail]
      | kept none _ => exact absurd here (none _ _)
  | kept none _ ih =>
      cases other with
      | escape here _ => exact absurd here (none _ _)
      | kept _ tail => rw [ih tail]

theorem decodes_decode (bytes : Bytes) : Decodes bytes (decode bytes) := by
  fun_induction decode bytes with
  | case1 => exact .nil
  | case2 high low rest h l lowValue highValue ih =>
      exact .escape ⟨high, low, h, l, rfl, highValue, lowValue, rfl⟩ ih
  | case3 high low rest noValue ih =>
      refine .kept ?_ ih
      rintro _ _ ⟨_, _, h, l, same, highValue, lowValue, -⟩
      cases same
      exact noValue h l highValue lowValue
  | case4 byte rest noDigits ih =>
      refine .kept ?_ ih
      rintro _ r ⟨high, low, _, _, same, -⟩
      cases same
      exact noDigits high low r rfl rfl

/-- **Decoding is one reading from left to right**: all bytes have it, and only one. -/
theorem decodes_iff {bytes decoded : Bytes} : Decodes bytes decoded ↔ decoded = decode bytes :=
  ⟨fun read => read.unique (decodes_decode bytes), fun same => same ▸ decodes_decode bytes⟩

/-! ## What is escaped -/

theorem length_escape (byte : UInt8) :
    ((escape byte).flatMap String.utf8EncodeChar).length = 3 := by
  have small : byte.toNat < 256 := byte.toNat_lt
  obtain ⟨high, highChar, highValue⟩ := exists_hexDigit (show byte.toNat / 16 < 16 by omega)
  obtain ⟨low, lowChar, lowValue⟩ := exists_hexDigit (show byte.toNat % 16 < 16 by omega)
  rw [escape, highChar, lowChar, List.flatMap_cons, List.flatMap_cons, List.flatMap_singleton,
    Utf8.encode_ofNat (ascii_of_hexValue? highValue),
    Utf8.encode_ofNat (ascii_of_hexValue? lowValue)]
  rfl

/-- Bytes are two longer with each of them that is escaped. -/
theorem length_encode {escaped : UInt8 → Bool} (covers : Covers escaped) (bytes : Bytes) :
    ((encode escaped bytes).flatMap String.utf8EncodeChar).length =
      bytes.length + 2 * bytes.countP escaped := by
  induction bytes with
  | nil => rfl
  | cons byte bytes ih =>
      rw [encode] at ih ⊢
      rw [List.flatMap_cons, List.flatMap_append, List.length_append, ih, List.length_cons]
      cases h : escaped byte with
      | true =>
          rw [if_pos rfl, length_escape, List.countP_cons_of_pos h]
          omega
      | false =>
          rw [if_neg Bool.false_ne_true, List.flatMap_singleton,
            Utf8.encode_ofNat (covers.ascii byte h), List.countP_cons_of_neg (by simp [h]),
            List.length_singleton]
          omega

/-- Bytes are written as they are if none of them has to be escaped, and only then. -/
theorem encode_eq_self_iff {escaped : UInt8 → Bool} (covers : Covers escaped) {bytes : Bytes} :
    (encode escaped bytes).flatMap String.utf8EncodeChar = bytes ↔
      ∀ byte ∈ bytes, escaped byte = false := by
  constructor
  · intro same byte mem
    have length := length_encode covers bytes
    rw [same] at length
    have none : bytes.countP escaped = 0 := by omega
    exact Bool.eq_false_iff.mpr (List.countP_eq_zero.mp none byte mem)
  · intro plain
    induction bytes with
    | nil => rfl
    | cons byte bytes ih =>
        have kept := plain byte List.mem_cons_self
        have tail := ih fun b mem => plain b (List.mem_cons_of_mem _ mem)
        rw [encode] at tail ⊢
        rw [List.flatMap_cons, kept, if_neg Bool.false_ne_true, List.flatMap_append, tail,
          List.flatMap_singleton, Utf8.encode_ofNat (covers.ascii byte kept), List.singleton_append]

/-! ## Segments -/

/-- What a URL path holds as it is is a printable ASCII character, and starts no query and no
fragment. -/
theorem of_path_eq_false {byte : UInt8} (kept : path byte = false) :
    0x20 < byte.toNat ∧ byte.toNat < 0x7F ∧ byte ≠ 0x23 ∧ byte ≠ 0x3F := by
  simp only [path, control, Bool.or_eq_false_iff, decide_eq_false_iff_not, List.map_cons,
    List.map_nil, List.mem_cons, UInt8.lt_iff_toNat_lt, UInt8.le_iff_toNat_le, ne_eq,
    ← UInt8.toNat_inj, Char.reduceToNat, UInt8.reduceToNat] at kept ⊢
  omega

theorem ascii_of_path_eq_false {byte : UInt8} (kept : path byte = false) : byte < 0x80 := by
  have printable := of_path_eq_false kept
  simp only [UInt8.lt_iff_toNat_lt, UInt8.reduceToNat]
  omega

/-- Digits stand for themselves in a URL path. -/
theorem path_of_hexValue? {byte : UInt8} {value : Nat} (digit : hexValue? byte = some value) :
    path byte = false := by
  have range := of_hexValue? digit
  simp only [path, control, Bool.or_eq_false_iff, decide_eq_false_iff_not, List.map_cons,
    List.map_nil, List.mem_cons, List.not_mem_nil, or_false, UInt8.lt_iff_toNat_lt,
    UInt8.le_iff_toNat_le, Char.reduceToNat, UInt8.reduceToNat]
  omega

theorem of_segment_eq_false {byte : UInt8} (kept : segment byte = false) :
    path byte = false ∧ byte ≠ 0x25 ∧ byte ≠ 0x2F ∧ byte ≠ 0x5C := by
  simp only [segment, Bool.or_eq_false_iff, decide_eq_false_iff_not, List.map_cons,
    List.map_nil, List.mem_cons, List.not_mem_nil, ne_eq, ← UInt8.toNat_inj, Char.reduceToNat,
    UInt8.reduceToNat] at kept ⊢
  exact ⟨kept.1, by omega⟩

theorem covers_segment : Covers segment where
  percent := rfl
  ascii byte kept := by
    exact ascii_of_path_eq_false (of_segment_eq_false kept).1

/-- A character that a URL path holds as it is and that does not end a segment. -/
def SegmentChar (c : Char) : Prop :=
  ∃ byte, path byte = false ∧ byte ≠ 0x2F ∧ byte ≠ 0x5C ∧ c = Char.ofNat byte.toNat

theorem SegmentChar.printable {c : Char} (plain : SegmentChar c) :
    0x20 < c.toNat ∧ c.toNat < 0x7F := by
  obtain ⟨byte, kept, -, -, rfl⟩ := plain
  rw [Utf8.toNat_ofNat (ascii_of_path_eq_false kept)]
  exact ⟨(of_path_eq_false kept).1, (of_path_eq_false kept).2.1⟩

/-- It ends neither the segment nor the path. -/
theorem SegmentChar.ne {c : Char} (plain : SegmentChar c) :
    c ≠ '/' ∧ c ≠ '\\' ∧ c ≠ '?' ∧ c ≠ '#' := by
  obtain ⟨byte, kept, notSlash, notBackslash, rfl⟩ := plain
  have bytes := Utf8.encode_ofNat (ascii_of_path_eq_false kept)
  obtain ⟨-, -, notHash, notQuestion⟩ := of_path_eq_false kept
  refine ⟨?_, ?_, ?_, ?_⟩ <;> intro h <;> rw [h] at bytes <;>
    cases List.head_eq_of_cons_eq bytes <;> contradiction

/-- An encoded segment has nothing in it that a URL path would not hold as it is. -/
theorem encode_segment_forall (bytes : Bytes) : ∀ c ∈ encode segment bytes, SegmentChar c := by
  intro c mem
  obtain ⟨byte, rfl, rfl | ⟨value, digit⟩ | kept⟩ := exists_of_mem_encode mem
  · exact ⟨0x25, rfl, by decide, by decide, rfl⟩
  · have range := of_hexValue? digit
    refine ⟨byte, path_of_hexValue? digit, ?_, ?_, rfl⟩ <;> rintro rfl <;> revert range <;> decide
  · obtain ⟨plain, -, notSlash, notBackslash⟩ := of_segment_eq_false kept
    exact ⟨byte, plain, notSlash, notBackslash, rfl⟩

/-- Encoding for a path leaves the characters of encoded segments as they are. -/
theorem encode_path_of_segmentChars {cs : List Char} (plain : ∀ c ∈ cs, SegmentChar c) :
    encode path (cs.flatMap String.utf8EncodeChar) = cs := by
  induction cs with
  | nil => rfl
  | cons c cs ih =>
      obtain ⟨byte, kept, -, -, rfl⟩ := plain c List.mem_cons_self
      have tail := ih fun c mem => plain c (List.mem_cons_of_mem _ mem)
      rw [encode] at tail ⊢
      rw [List.flatMap_cons, Utf8.encode_ofNat (ascii_of_path_eq_false kept),
        List.singleton_append, List.flatMap_cons, kept,
        if_neg Bool.false_ne_true, tail, List.singleton_append]

end SchemaMigration.Percent
