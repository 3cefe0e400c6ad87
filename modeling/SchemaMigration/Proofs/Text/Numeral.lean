import Mathlib.Tactic.Common
import SchemaMigration.Text.Numeral

/-!
# Numerals are read as the numbers they write

What a run of digits writes is said with the library's own reading of digits, `Nat.ofDigitChars`,
and which texts are numerals by two relations without any bound on their length. Reading answers
those numerals whose number has room in 64 bits, and no others.

* `Numeral.accumulate_eq_ofDigitChars`: the value of a run of digits.
* `Numeral.unsigned?_eq_some_iff`, `Numeral.signed?_eq_some_iff`: which texts are read, and as what.
* `Numeral.value_padded`: the digits of a number, behind any zeros, write that number.
-/

namespace SchemaMigration.Numeral

/-! ## What is written -/

/-- One or more ASCII digits. -/
structure IsDigits (text : List Char) : Prop where
  nonempty : text ≠ []
  all : ∀ c ∈ text, c.isDigit = true

/-- The number that digits write. -/
def value (digits : List Char) : Nat :=
  Nat.ofDigitChars 10 digits 0

/-- Digits, behind a plus sign or none, and the number they write. -/
inductive Unsigned : List Char → Nat → Prop
  | bare {digits : List Char} (isDigits : IsDigits digits) : Unsigned digits (value digits)
  | plus {digits : List Char} (isDigits : IsDigits digits) : Unsigned ('+' :: digits) (value digits)

/-- Digits, behind a sign or none, and the number they write. -/
inductive Signed : List Char → Int → Prop
  | unsigned {text : List Char} {n : Nat} (writes : Unsigned text n) : Signed text n
  | minus {digits : List Char} (isDigits : IsDigits digits) :
      Signed ('-' :: digits) (-(value digits : Int))

theorem IsDigits.head {c : Char} {rest : List Char} (isDigits : IsDigits (c :: rest)) :
    c.isDigit = true :=
  isDigits.all c List.mem_cons_self

theorem unsigned_plus_iff {rest : List Char} {n : Nat} :
    Unsigned ('+' :: rest) n ↔ IsDigits rest ∧ n = value rest := by
  constructor
  · intro writes
    cases writes with
    | plus isDigits => exact ⟨isDigits, rfl⟩
    | bare isDigits => exact absurd isDigits.head (by decide)
  · rintro ⟨isDigits, rfl⟩
    exact .plus isDigits

theorem unsigned_bare_iff {text : List Char} (noPlus : ∀ rest, text ≠ '+' :: rest) {n : Nat} :
    Unsigned text n ↔ IsDigits text ∧ n = value text := by
  constructor
  · intro writes
    cases writes with
    | plus => exact absurd rfl (noPlus _)
    | bare isDigits => exact ⟨isDigits, rfl⟩
  · rintro ⟨isDigits, rfl⟩
    exact .bare isDigits

theorem signed_minus_iff {rest : List Char} {n : Int} :
    Signed ('-' :: rest) n ↔ IsDigits rest ∧ n = -(value rest : Int) := by
  constructor
  · intro writes
    cases writes with
    | minus isDigits => exact ⟨isDigits, rfl⟩
    | unsigned writes =>
        cases writes with
        | bare isDigits => exact absurd isDigits.head (by decide)
  · rintro ⟨isDigits, rfl⟩
    exact .minus isDigits

theorem signed_iff_unsigned {text : List Char} (noMinus : ∀ rest, text ≠ '-' :: rest) {n : Int} :
    Signed text n ↔ ∃ m : Nat, Unsigned text m ∧ n = m := by
  constructor
  · intro writes
    cases writes with
    | unsigned writes => exact ⟨_, writes, rfl⟩
    | minus => exact absurd rfl (noMinus _)
  · rintro ⟨m, writes, rfl⟩
    exact .unsigned writes

/-! ## What is read -/

theorem accumulate_cons (start : Nat) (digit : Char) (rest : List Char) :
    accumulate start (digit :: rest) =
      accumulate (start * 10 + (digit.toNat - '0'.toNat)) rest := by
  -- At default transparency the subtraction is evaluated, which does not come to an end.
  delta accumulate
  with_reducible rfl

theorem accumulate_eq_ofDigitChars (start : Nat) (digits : List Char) :
    accumulate start digits = Nat.ofDigitChars 10 digits start := by
  induction digits generalizing start with
  | nil => rfl
  | cons digit rest ih => rw [accumulate_cons, ih, Nat.ofDigitChars_cons, Nat.mul_comm start]

theorem digits?_eq_some_iff {text : List Char} {n : Nat} :
    digits? text = some n ↔ IsDigits text ∧ n = value text := by
  rw [digits?, accumulate_eq_ofDigitChars]
  constructor
  · intro read
    split at read
    · next form => exact ⟨⟨form.1, List.all_eq_true.mp form.2⟩, (Option.some.inj read).symm⟩
    · cases read
  · rintro ⟨isDigits, rfl⟩
    exact if_pos ⟨isDigits.nonempty, List.all_eq_true.mpr isDigits.all⟩

/-- Digits, read as a number up to a bound. -/
theorem filter_digits?_eq_some_iff {text : List Char} {bound n : Nat} :
    (digits? text).filter (· ≤ bound) = some n ↔ (IsDigits text ∧ n = value text) ∧ n ≤ bound := by
  rw [Option.filter_eq_some_iff, digits?_eq_some_iff, decide_eq_true_eq]

/-- **Unsigned numerals.** What is written is what is read, if 64 bits have room for it. -/
theorem unsigned?_eq_some_iff {text : List Char} {n : Nat} :
    unsigned? text = some n ↔ Unsigned text n ∧ n ≤ unsignedMax := by
  unfold unsigned?
  split
  · rw [filter_digits?_eq_some_iff, unsigned_plus_iff]
  · next noPlus => rw [filter_digits?_eq_some_iff, unsigned_bare_iff noPlus]

/-- A number without a sign is in range when it is not too large. -/
theorem exists_ofNat_iff {P : Nat → Prop} {bound : Nat} {n : Int} :
    (∃ m, (P m ∧ m ≤ bound) ∧ Int.ofNat m = n) ↔
      (∃ m : Nat, P m ∧ n = m) ∧ -(bound + 1 : Int) ≤ n ∧ n ≤ bound := by
  constructor
  · rintro ⟨m, ⟨holds, small⟩, rfl⟩
    exact ⟨⟨m, holds, rfl⟩, by simp only [Int.ofNat_eq_natCast]; omega⟩
  · rintro ⟨⟨m, holds, rfl⟩, -, small⟩
    exact ⟨m, ⟨holds, Int.ofNat_le.mp small⟩, rfl⟩

/-- **Signed numerals.** What is written is what is read, if 64 bits with a sign have room for
it. -/
theorem signed?_eq_some_iff {text : List Char} {n : Int} :
    signed? text = some n ↔ Signed text n ∧ -(signedMax + 1 : Int) ≤ n ∧ n ≤ signedMax := by
  unfold signed?
  split
  · next rest =>
    rw [signed_iff_unsigned fun _ => by simp, ← exists_ofNat_iff]
    simp only [Option.map_eq_some_iff, filter_digits?_eq_some_iff, unsigned_plus_iff]
  · next rest =>
    rw [signed_minus_iff]
    simp only [Option.map_eq_some_iff, filter_digits?_eq_some_iff]
    constructor
    · rintro ⟨_, ⟨⟨isDigits, rfl⟩, small⟩, rfl⟩
      exact ⟨⟨isDigits, rfl⟩, by simp only [Int.ofNat_eq_natCast]; omega⟩
    · rintro ⟨⟨isDigits, rfl⟩, small, -⟩
      exact ⟨_, ⟨⟨isDigits, rfl⟩, by omega⟩, rfl⟩
  · next noPlus noMinus =>
    rw [signed_iff_unsigned noMinus, ← exists_ofNat_iff]
    simp only [Option.map_eq_some_iff, filter_digits?_eq_some_iff, unsigned_bare_iff noPlus]

/-! ## Printed numbers -/

theorem isDigits_append {zeros : Nat} {digits : List Char} (isDigits : IsDigits digits) :
    IsDigits (List.replicate zeros '0' ++ digits) where
  nonempty := List.append_ne_nil_of_right_ne_nil _ isDigits.nonempty
  all c mem := by
    obtain zero | digit := List.mem_append.mp mem
    · rw [List.eq_of_mem_replicate zero]
      decide
    · exact isDigits.all c digit

theorem toList_toString (n : Nat) : (toString n).toList = Nat.toDigits 10 n := by
  rw [Nat.toString_eq_ofList_toDigits, String.toList_ofList]

theorem isDigits_toString (n : Nat) : IsDigits (toString n).toList where
  nonempty := toList_toString n ▸ Nat.toDigits_ne_nil
  all c mem := by
    rw [toList_toString] at mem
    exact Nat.isDigit_of_mem_toDigits (by decide) (by decide) mem

/-- **Printed numbers.** The digits of a number, behind any zeros, write that number. -/
theorem value_padded (zeros n : Nat) :
    value (List.replicate zeros '0' ++ (toString n).toList) = n := by
  have nothing : Nat.ofDigitChars 10 (List.replicate zeros '0') 0 = 0 := by
    induction zeros with
    | zero => rfl
    | succ zeros ih => exact ih
  rw [value, Nat.ofDigitChars_append, nothing, toList_toString, Nat.ofDigitChars_ten_toDigits]

theorem value_toString (n : Nat) : value (toString n).toList = n :=
  value_padded 0 n

theorem unsigned_toString (n : Nat) : Unsigned (toString n).toList n := by
  have writes : Unsigned (toString n).toList (value (toString n).toList) :=
    .bare (isDigits_toString n)
  rwa [value_toString] at writes

theorem signed_toString (n : Int) : Signed (toString n).toList n := by
  cases n with
  | ofNat n => exact .unsigned (unsigned_toString n)
  | negSucc n =>
      have writes :
          Signed ('-' :: (toString (n + 1)).toList) (-(value (toString (n + 1)).toList)) :=
        .minus (isDigits_toString (n + 1))
      have shown : toString (Int.negSucc n) = "-" ++ toString (n + 1) := rfl
      rw [value_toString] at writes
      rw [shown, String.toList_append]
      exact writes

end SchemaMigration.Numeral
