import Mathlib.Tactic.Common
import SchemaMigration.Text.Utf8

/-!
# UTF-8 is read back

What a text is encoded as is decoded to that text, with and without replacement characters, and
whatever is decoded to a text without them is what that text is encoded as.

* `Utf8.front_encode`: the front of the bytes of a character is that character.
* `Utf8.decode_ofString`, `Utf8.lossy_ofString`: the bytes of a text are read as that text.
* `Utf8.decode_eq_ok_iff`: no other bytes are.
-/

namespace SchemaMigration

namespace Utf8

/-! ## One character, by the number of its bytes -/

/-- The bits of a continuation byte. -/
theorem payload_ofNat (bits : Nat) : payload (UInt8.ofNat (bits % 64 + 128)) = bits % 64 := by
  simp only [payload, UInt8.toNat_ofNat']
  omega

theorem isContinuation_ofNat (bits : Nat) :
    isContinuation (UInt8.ofNat (bits % 64 + 128)) = true := by
  simp only [isContinuation, Bool.and_eq_true, decide_eq_true_eq, UInt8.le_iff_toNat_le,
    UInt8.toNat_ofNat', UInt8.reduceToNat]
  omega

theorem toNat_ofNat_of_lt {n : Nat} (small : n < 256) : (UInt8.ofNat n).toNat = n := by
  simp only [UInt8.toNat_ofNat']
  omega

theorem front_one {n : Nat} (low : n ≤ 127) (rest : Bytes) :
    front (UInt8.ofNat n) rest = .char (Char.ofNat n) 0 := by
  have byte : (UInt8.ofNat n).toNat = n := toNat_ofNat_of_lt (by omega)
  have ascii : UInt8.ofNat n < 0x80 := by
    simp only [UInt8.lt_iff_toNat_lt, byte, UInt8.reduceToNat]; omega
  simp only [front, if_pos ascii, byte]

theorem front_two {n : Nat} (above : 128 ≤ n) (low : n ≤ 2047) (rest : Bytes) :
    front (UInt8.ofNat (n / 64 % 32 + 192)) (UInt8.ofNat (n % 64 + 128) :: rest) =
      .char (Char.ofNat n) 1 := by
  have first : (UInt8.ofNat (n / 64 % 32 + 192)).toNat = n / 64 % 32 + 192 :=
    toNat_ofNat_of_lt (by omega)
  have notOne : ¬ n / 64 % 32 + 192 < 128 := by omega
  have two : 194 ≤ n / 64 % 32 + 192 ∧ n / 64 % 32 + 192 ≤ 223 := by omega
  have value : (n / 64 % 32 + 192) % 32 * 64 + n % 64 = n := by omega
  simp only [front, UInt8.lt_iff_toNat_lt, UInt8.le_iff_toNat_le, first, UInt8.reduceToNat, notOne,
    two, isContinuation_ofNat, payload_ofNat, value, decide_true, Bool.and_self, if_true, if_false]

theorem front_three {n : Nat} (above : 2048 ≤ n) (low : n ≤ 65535)
    (valid : n < 0xD800 ∨ 0xDFFF < n) (rest : Bytes) :
    front (UInt8.ofNat (n / 4096 % 16 + 224))
        (UInt8.ofNat (n / 64 % 64 + 128) :: UInt8.ofNat (n % 64 + 128) :: rest) =
      .char (Char.ofNat n) 2 := by
  have first : (UInt8.ofNat (n / 4096 % 16 + 224)).toNat = n / 4096 % 16 + 224 :=
    toNat_ofNat_of_lt (by omega)
  have second : (UInt8.ofNat (n / 64 % 64 + 128)).toNat = n / 64 % 64 + 128 :=
    toNat_ofNat_of_lt (by omega)
  have notOne : ¬ n / 4096 % 16 + 224 < 128 := by omega
  have notTwo : ¬ n / 4096 % 16 + 224 ≤ 223 := by omega
  have three : 224 ≤ n / 4096 % 16 + 224 ∧ n / 4096 % 16 + 224 ≤ 239 := by omega
  -- The smallest and the surrogates are cut off by the bounds on the second byte.
  have follows : followsThree (UInt8.ofNat (n / 4096 % 16 + 224))
      (UInt8.ofNat (n / 64 % 64 + 128)) = true := by
    simp only [followsThree, isContinuation, beq_iff_eq, ← UInt8.toNat_inj, UInt8.le_iff_toNat_le,
      first, second, UInt8.reduceToNat]
    split_ifs <;> simp only [Bool.and_eq_true, decide_eq_true_eq] <;> omega
  have value : (n / 4096 % 16 + 224) % 16 * 4096 + n / 64 % 64 * 64 + n % 64 = n := by omega
  simp only [front, UInt8.lt_iff_toNat_lt, UInt8.le_iff_toNat_le, first, UInt8.reduceToNat, notOne,
    notTwo, three, follows, isContinuation_ofNat, payload_ofNat, value, decide_true, decide_false,
    Bool.and_false, Bool.and_self, if_true, if_false, Bool.false_eq_true]

theorem front_four {n : Nat} (above : 65536 ≤ n) (low : n < 0x110000) (rest : Bytes) :
    front (UInt8.ofNat (n / 262144 % 8 + 240))
        (UInt8.ofNat (n / 4096 % 64 + 128) :: UInt8.ofNat (n / 64 % 64 + 128) ::
          UInt8.ofNat (n % 64 + 128) :: rest) =
      .char (Char.ofNat n) 3 := by
  have first : (UInt8.ofNat (n / 262144 % 8 + 240)).toNat = n / 262144 % 8 + 240 :=
    toNat_ofNat_of_lt (by omega)
  have second : (UInt8.ofNat (n / 4096 % 64 + 128)).toNat = n / 4096 % 64 + 128 :=
    toNat_ofNat_of_lt (by omega)
  have notOne : ¬ n / 262144 % 8 + 240 < 128 := by omega
  have notTwo : ¬ n / 262144 % 8 + 240 ≤ 223 := by omega
  have notThree : ¬ n / 262144 % 8 + 240 ≤ 239 := by omega
  have four : 240 ≤ n / 262144 % 8 + 240 ∧ n / 262144 % 8 + 240 ≤ 244 := by omega
  have follows : followsFour (UInt8.ofNat (n / 262144 % 8 + 240))
      (UInt8.ofNat (n / 4096 % 64 + 128)) = true := by
    simp only [followsFour, isContinuation, beq_iff_eq, ← UInt8.toNat_inj, UInt8.le_iff_toNat_le,
      first, second, UInt8.reduceToNat]
    split_ifs <;> simp only [Bool.and_eq_true, decide_eq_true_eq] <;> omega
  have value : (n / 262144 % 8 + 240) % 8 * 262144 + n / 4096 % 64 * 4096 + n / 64 % 64 * 64 +
      n % 64 = n := by omega
  simp only [front, UInt8.lt_iff_toNat_lt, UInt8.le_iff_toNat_le, first, UInt8.reduceToNat, notOne,
    notTwo, notThree, four, follows, isContinuation_ofNat, payload_ofNat, value, decide_true,
    decide_false, Bool.and_false, Bool.and_self, if_true, if_false, Bool.false_eq_true]

theorem toNat_ofNat {byte : UInt8} (ascii : byte < 0x80) :
    (Char.ofNat byte.toNat).toNat = byte.toNat := by
  have small : byte.toNat < 0x80 := ascii
  rw [Char.ofNat, dif_pos (Or.inl (by omega))]
  rfl

/-- A byte below 0x80 is a character of its own. -/
theorem encode_ofNat {byte : UInt8} (ascii : byte < 0x80) :
    String.utf8EncodeChar (Char.ofNat byte.toNat) = [byte] := by
  have small : byte.toNat < 0x80 := ascii
  rw [String.utf8EncodeChar, Char.toNat_val, toNat_ofNat ascii, if_pos (by omega),
    UInt8.ofNat_toNat]

/-- The bytes of a character are at least one, and what they start is that character. -/
theorem front_encode (c : Char) (rest : Bytes) :
    ∃ first more, String.utf8EncodeChar c = first :: more ∧
      front first (more ++ rest) = .char c more.length := by
  have back : Char.ofNat c.val.toNat = c := Char.ofNat_toNat c
  have valid : c.val.toNat < 0xD800 ∨ 0xDFFF < c.val.toNat ∧ c.val.toNat < 0x110000 := c.valid
  simp only [String.utf8EncodeChar]
  generalize c.val.toNat = n at back valid
  subst back
  split_ifs with one two three
  · exact ⟨_, _, rfl, front_one one rest⟩
  · exact ⟨_, _, rfl, front_two (by omega) two rest⟩
  · exact ⟨_, _, rfl, front_three (by omega) three (by omega) rest⟩
  · exact ⟨_, _, rfl, front_four (by omega) (by omega) rest⟩

/-! ## Whole texts -/

theorem decodeFrom_encode (index : Nat) (c : Char) (rest : Bytes) :
    decodeFrom index (String.utf8EncodeChar c ++ rest) =
      (c :: ·) <$> decodeFrom (index + (String.utf8EncodeChar c).length) rest := by
  obtain ⟨first, more, bytes, read⟩ := front_encode c rest
  rw [bytes, List.cons_append, decodeFrom, read, List.length_cons, ← Nat.add_assoc]
  simp only [List.drop_left]

theorem lossyChars_encode (c : Char) (rest : Bytes) :
    lossyChars (String.utf8EncodeChar c ++ rest) = c :: lossyChars rest := by
  obtain ⟨first, more, bytes, read⟩ := front_encode c rest
  rw [bytes, List.cons_append, lossyChars, read]
  simp only [List.drop_left]

theorem decodeFrom_flatMap (index : Nat) (cs : List Char) :
    decodeFrom index (cs.flatMap String.utf8EncodeChar) = .ok cs := by
  induction cs generalizing index with
  | nil => rw [List.flatMap_nil, decodeFrom]
  | cons c cs ih => rw [List.flatMap_cons, decodeFrom_encode, ih]; rfl

theorem lossyChars_flatMap (cs : List Char) :
    lossyChars (cs.flatMap String.utf8EncodeChar) = cs := by
  induction cs with
  | nil => rw [List.flatMap_nil, lossyChars]
  | cons c cs ih => rw [List.flatMap_cons, lossyChars_encode, ih]

/-- The bytes of a text decode to that text. -/
theorem decode_ofString (text : String) : decode (Bytes.ofString text) = .ok text := by
  rw [decode, Bytes.ofString, decodeFrom_flatMap]
  exact congrArg Except.ok (String.ofList_toList)

/-- A text has no ill-formed sequence to replace. -/
theorem lossy_ofString (text : String) : lossy (Bytes.ofString text) = text := by
  rw [lossy, Bytes.ofString, lossyChars_flatMap, String.ofList_toList]

/-! ## Bytes that are read -/

theorem ofNat_eq (byte : UInt8) {n : Nat} (same : n = byte.toNat) : UInt8.ofNat n = byte := by
  rw [same, UInt8.ofNat_toNat]

theorem val_ofNat {n : Nat} (valid : n < 0xD800 ∨ 0xDFFF < n ∧ n < 0x110000) :
    (Char.ofNat n).val.toNat = n := by
  rw [Char.toNat_val, Char.ofNat, dif_pos valid]
  rfl

theorem of_isContinuation {byte : UInt8} (continues : isContinuation byte = true) :
    128 ≤ byte.toNat ∧ byte.toNat ≤ 191 := by
  simpa only [isContinuation, Bool.and_eq_true, decide_eq_true_eq, UInt8.le_iff_toNat_le,
    UInt8.reduceToNat] using continues

theorem of_followsThree {first second : UInt8} (follows : followsThree first second = true) :
    128 ≤ second.toNat ∧ second.toNat ≤ 191 ∧ (first.toNat = 224 → 160 ≤ second.toNat) ∧
      (first.toNat = 237 → second.toNat ≤ 159) := by
  simp only [followsThree, isContinuation, beq_iff_eq, ← UInt8.toNat_inj, UInt8.le_iff_toNat_le,
    UInt8.reduceToNat] at follows
  split_ifs at follows <;> simp only [Bool.and_eq_true, decide_eq_true_eq] at follows <;> omega

theorem of_followsFour {first second : UInt8} (follows : followsFour first second = true) :
    128 ≤ second.toNat ∧ second.toNat ≤ 191 ∧ (first.toNat = 240 → 144 ≤ second.toNat) ∧
      (first.toNat = 244 → second.toNat ≤ 143) := by
  simp only [followsFour, isContinuation, beq_iff_eq, ← UInt8.toNat_inj, UInt8.le_iff_toNat_le,
    UInt8.reduceToNat] at follows
  split_ifs at follows <;> simp only [Bool.and_eq_true, decide_eq_true_eq] at follows <;> omega

section

variable {a b c d : UInt8}

theorem encode_two (first : 194 ≤ a.toNat ∧ a.toNat ≤ 223) (second : isContinuation b = true) :
    String.utf8EncodeChar (Char.ofNat (a.toNat % 32 * 64 + payload b)) = [a, b] := by
  have second := of_isContinuation second
  rw [payload, String.utf8EncodeChar, val_ofNat (by omega), if_neg (by omega), if_pos (by omega),
    ofNat_eq a (by omega), ofNat_eq b (by omega)]

theorem encode_three (first : 224 ≤ a.toNat ∧ a.toNat ≤ 239) (second : followsThree a b = true)
    (third : isContinuation c = true) :
    String.utf8EncodeChar (Char.ofNat (a.toNat % 16 * 4096 + payload b * 64 + payload c)) =
      [a, b, c] := by
  have second := of_followsThree second
  have third := of_isContinuation third
  rw [payload, payload, String.utf8EncodeChar, val_ofNat (by omega), if_neg (by omega),
    if_neg (by omega), if_pos (by omega), ofNat_eq a (by omega),
    ofNat_eq b (by omega), ofNat_eq c (by omega)]

theorem encode_four (first : 240 ≤ a.toNat ∧ a.toNat ≤ 244) (second : followsFour a b = true)
    (third : isContinuation c = true) (fourth : isContinuation d = true) :
    String.utf8EncodeChar
        (Char.ofNat (a.toNat % 8 * 262144 + payload b * 4096 + payload c * 64 + payload d)) =
      [a, b, c, d] := by
  have second := of_followsFour second
  have third := of_isContinuation third
  have fourth := of_isContinuation fourth
  rw [payload, payload, payload, String.utf8EncodeChar, val_ofNat (by omega), if_neg (by omega),
    if_neg (by omega), if_neg (by omega), ofNat_eq a (by omega),
    ofNat_eq b (by omega), ofNat_eq c (by omega),
    ofNat_eq d (by omega)]

end

/-- A character that is read is the one whose bytes stand at the front. -/
theorem encode_of_front {first : UInt8} {rest : Bytes} {c : Char} {more : Nat}
    (read : front first rest = .char c more) :
    String.utf8EncodeChar c ++ rest.drop more = first :: rest := by
  have range : ∀ {low high : UInt8}, (decide (low ≤ first) && decide (first ≤ high)) = true →
      low.toNat ≤ first.toNat ∧ first.toNat ≤ high.toNat := by
    intro low high within
    simpa only [Bool.and_eq_true, decide_eq_true_eq, UInt8.le_iff_toNat_le] using within
  unfold front at read
  repeat' split at read
  all_goals cases read
  · next ascii => rw [encode_ofNat ascii]; rfl
  · next two _ _ _ second => rw [encode_two (range two) second]; rfl
  · next three _ _ second _ _ _ third => rw [encode_three (range three) second third]; rfl
  · next four _ _ second _ _ third _ _ _ fourth =>
    rw [encode_four (range four) second third fourth]; rfl

/-- The characters that are read have the bytes that they are read from. -/
theorem flatMap_of_decodeFrom {index : Nat} {bytes : Bytes} {cs : List Char}
    (done : decodeFrom index bytes = .ok cs) : cs.flatMap String.utf8EncodeChar = bytes := by
  fun_induction decodeFrom index bytes generalizing cs with
  | case1 => cases done; rfl
  | case2 index first rest c more read ih =>
      cases others : decodeFrom (index + more + 1) (rest.drop more) with
      | error fault => rw [others] at done; cases done
      | ok tail =>
          rw [others] at done
          cases done
          rw [List.flatMap_cons, ih others, encode_of_front read]
  | case3 => cases done
  | case4 => cases done

/-- **Bytes are read as the text that they encode**, and not at all if they encode none. -/
theorem decode_eq_ok_iff {bytes : Bytes} {text : String} :
    decode bytes = .ok text ↔ bytes = Bytes.ofString text := by
  refine ⟨fun done => ?_, fun same => same ▸ decode_ofString text⟩
  rw [decode] at done
  cases read : decodeFrom 0 bytes with
  | error fault => rw [read] at done; cases done
  | ok cs =>
      rw [read] at done
      cases done
      rw [Bytes.ofString, String.toList_ofList, flatMap_of_decodeFrom read]

theorem decode_eq_error_iff {bytes : Bytes} :
    (∃ fault, decode bytes = .error fault) ↔ ∀ text, bytes ≠ Bytes.ofString text := by
  cases done : decode bytes with
  | error fault =>
      refine ⟨fun _ text same => ?_, fun _ => ⟨fault, rfl⟩⟩
      cases done.symm.trans (decode_eq_ok_iff.mpr same)
  | ok text =>
      exact ⟨fun ⟨_, failed⟩ => (nomatch failed),
        fun none => absurd (decode_eq_ok_iff.mp done) (none text)⟩

end Utf8

theorem Bytes.text?_eq_some_iff {bytes : Bytes} {text : String} :
    bytes.text? = some text ↔ bytes = Bytes.ofString text := by
  rw [text?, ← Utf8.decode_eq_ok_iff]
  cases Utf8.decode bytes <;> simp [Except.toOption]

/-- The bytes of a list of characters. -/
theorem Bytes.ofString_ofList (cs : List Char) :
    Bytes.ofString (String.ofList cs) = cs.flatMap String.utf8EncodeChar := by
  rw [Bytes.ofString, String.toList_ofList]

/-- Only the empty text has no bytes. -/
theorem Bytes.ofString_eq_nil_iff {text : String} : Bytes.ofString text = [] ↔ text = "" := by
  have encoded (c : Char) : String.utf8EncodeChar c ≠ [] := by
    refine List.ne_nil_of_length_pos ?_
    rw [String.length_utf8EncodeChar]
    exact Char.utf8Size_pos c
  rw [Bytes.ofString, List.flatMap_eq_nil_iff, ← String.toList_eq_nil_iff,
    List.eq_nil_iff_forall_not_mem]
  exact forall_congr' fun c => imp_congr_right fun _ => iff_false_intro (encoded c)

theorem Bytes.ofString_append (s t : String) :
    Bytes.ofString (s ++ t) = Bytes.ofString s ++ Bytes.ofString t := by
  simp only [Bytes.ofString, String.toList_append, List.flatMap_append]

theorem Bytes.ofString_intercalate (separator : String) (texts : List String) :
    Bytes.ofString (separator.intercalate texts) =
      (Bytes.ofString separator).intercalate (texts.map Bytes.ofString) := by
  induction texts with
  | nil => rfl
  | cons text texts ih =>
      cases texts with
      | nil => rw [String.intercalate_singleton, List.map_singleton, List.intercalate_singleton]
      | cons next texts =>
          rw [String.intercalate_cons_cons, Bytes.ofString_append, Bytes.ofString_append, ih]
          exact List.intercalate_cons_cons.symm

end SchemaMigration
