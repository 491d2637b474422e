import Dotenv.Text.Utf8.RoundTrip

/-!
# Nothing but encoded text is read

The reader takes a character only where the bytes of that very character stand: the ranges
of the first two bytes leave out the overlong forms, the surrogates and the codes above the
last character.  So bytes are read as a text exactly when they are the bytes of it.
-/

namespace Dotenv

namespace Utf8

theorem within_iff {low high : Nat} {byte : UInt8} :
    within low high byte = true ↔ low ≤ byte.toNat ∧ byte.toNat ≤ high := by
  simp [within]

theorem isContinuation_iff {byte : UInt8} :
    isContinuation byte = true ↔ 0x80 ≤ byte.toNat ∧ byte.toNat ≤ 0xBF :=
  within_iff

/-- What is assembled is the character of the code that is assembled. -/
theorem toNat_assemble {leading : Nat} {continuation : List UInt8} {code : Nat}
    (joined : continuation.foldl (fun code byte => code * 64 + byte.toNat % 64) leading = code)
    (valid : code < 0xD800 ∨ 0xDFFF < code ∧ code < 0x110000) :
    (assemble leading continuation).val.toNat = code := by
  have isValid : code.isValidChar := valid
  rw [assemble, joined, Char.ofNat, dif_pos isValid]
  rfl

section Bytes

variable {first second third fourth : UInt8}

theorem encodeChar_assemble_one (isFirst : within 0x00 0x7F first = true) :
    String.utf8EncodeChar (assemble first.toNat []) = [first] := by
  rw [within_iff] at isFirst
  have own : (assemble first.toNat []).val.toNat = first.toNat :=
    toNat_assemble rfl (by omega)
  unfold String.utf8EncodeChar
  simp only [own, if_pos isFirst.2, UInt8.ofNat_toNat]

theorem encodeChar_assemble_two (isFirst : within 0xC2 0xDF first = true)
    (isSecond : isContinuation second = true) :
    String.utf8EncodeChar (assemble (first.toNat % 32) [second]) = [first, second] := by
  rw [within_iff] at isFirst
  rw [isContinuation_iff] at isSecond
  generalize joined : first.toNat % 32 * 64 + second.toNat % 64 = code
  have own : (assemble (first.toNat % 32) [second]).val.toNat = code :=
    toNat_assemble joined (by omega)
  have notOne : ¬ code ≤ 0x7F := by omega
  have two : code ≤ 0x7FF := by omega
  have firstEqual : code / 64 % 0x20 + 0xC0 = first.toNat := by omega
  have secondEqual : code % 0x40 + 0x80 = second.toNat := by omega
  unfold String.utf8EncodeChar
  simp only [own, if_neg notOne, if_pos two, firstEqual, secondEqual, UInt8.ofNat_toNat]

/-- The second byte of three excludes the codes that two bytes are enough for and those of
the surrogates. -/
theorem bounds_of_isSecondOfThree (isSecond : isSecondOfThree first second = true) :
    0x80 ≤ second.toNat ∧ second.toNat ≤ 0xBF ∧ (first.toNat = 0xE0 → 0xA0 ≤ second.toNat) ∧
      (first.toNat = 0xED → second.toNat ≤ 0x9F) := by
  have lowest : first = 0xE0 ↔ first.toNat = 0xE0 := UInt8.toNat_inj.symm
  have highest : first = 0xED ↔ first.toNat = 0xED := UInt8.toNat_inj.symm
  simp only [isSecondOfThree, within_iff, lowest, highest] at isSecond
  obtain ⟨lower, upper⟩ := isSecond
  split at lower <;> split at upper <;> omega

theorem encodeChar_assemble_three (isFirst : within 0xE0 0xEF first = true)
    (isSecond : isSecondOfThree first second = true)
    (isThird : isContinuation third = true) :
    String.utf8EncodeChar (assemble (first.toNat % 16) [second, third]) =
      [first, second, third] := by
  rw [within_iff] at isFirst
  rw [isContinuation_iff] at isThird
  obtain ⟨lower, upper, lowest, highest⟩ := bounds_of_isSecondOfThree isSecond
  generalize joined :
    (first.toNat % 16 * 64 + second.toNat % 64) * 64 + third.toNat % 64 = code
  have own : (assemble (first.toNat % 16) [second, third]).val.toNat = code :=
    toNat_assemble joined (by omega)
  have notOne : ¬ code ≤ 0x7F := by omega
  have notTwo : ¬ code ≤ 0x7FF := by omega
  have three : code ≤ 0xFFFF := by omega
  have firstEqual : code / 4096 % 0x10 + 0xE0 = first.toNat := by omega
  have secondEqual : code / 64 % 0x40 + 0x80 = second.toNat := by omega
  have thirdEqual : code % 0x40 + 0x80 = third.toNat := by omega
  unfold String.utf8EncodeChar
  simp only [own, if_neg notOne, if_neg notTwo, if_pos three, firstEqual, secondEqual,
    thirdEqual, UInt8.ofNat_toNat]

/-- The second byte of four excludes the codes that three bytes are enough for and those
that no character has. -/
theorem bounds_of_isSecondOfFour (isSecond : isSecondOfFour first second = true) :
    0x80 ≤ second.toNat ∧ second.toNat ≤ 0xBF ∧ (first.toNat = 0xF0 → 0x90 ≤ second.toNat) ∧
      (first.toNat = 0xF4 → second.toNat ≤ 0x8F) := by
  have lowest : first = 0xF0 ↔ first.toNat = 0xF0 := UInt8.toNat_inj.symm
  have highest : first = 0xF4 ↔ first.toNat = 0xF4 := UInt8.toNat_inj.symm
  simp only [isSecondOfFour, within_iff, lowest, highest] at isSecond
  obtain ⟨lower, upper⟩ := isSecond
  split at lower <;> split at upper <;> omega

theorem encodeChar_assemble_four (isFirst : within 0xF0 0xF4 first = true)
    (isSecond : isSecondOfFour first second = true)
    (isThird : isContinuation third = true)
    (isFourth : isContinuation fourth = true) :
    String.utf8EncodeChar (assemble (first.toNat % 8) [second, third, fourth]) =
      [first, second, third, fourth] := by
  rw [within_iff] at isFirst
  rw [isContinuation_iff] at isThird isFourth
  obtain ⟨lower, upper, lowest, highest⟩ := bounds_of_isSecondOfFour isSecond
  generalize joined :
    ((first.toNat % 8 * 64 + second.toNat % 64) * 64 + third.toNat % 64) * 64 +
      fourth.toNat % 64 = code
  have own : (assemble (first.toNat % 8) [second, third, fourth]).val.toNat = code :=
    toNat_assemble joined (by omega)
  have notOne : ¬ code ≤ 0x7F := by omega
  have notTwo : ¬ code ≤ 0x7FF := by omega
  have notThree : ¬ code ≤ 0xFFFF := by omega
  have firstEqual : code / 262144 % 0x08 + 0xF0 = first.toNat := by omega
  have secondEqual : code / 4096 % 0x40 + 0x80 = second.toNat := by omega
  have thirdEqual : code / 64 % 0x40 + 0x80 = third.toNat := by omega
  have fourthEqual : code % 0x40 + 0x80 = fourth.toNat := by omega
  unfold String.utf8EncodeChar
  simp only [own, if_neg notOne, if_neg notTwo, if_neg notThree, firstEqual, secondEqual,
    thirdEqual, fourthEqual, UInt8.ofNat_toNat]

end Bytes

/-- A character that was read joins the text after it with its bytes. -/
theorem encode_of_map_cons {character : Char} {own rest : List UInt8}
    {later : Except Fault Text} {text : Text}
    (read : later.map (character :: ·) = .ok text)
    (ownBytes : String.utf8EncodeChar character = own)
    (laterBytes : ∀ {text}, later = .ok text → encode text = rest) :
    encode text = own ++ rest := by
  cases later with
  | error fault => cases read
  | ok later =>
      cases read
      rw [encode_cons, ownBytes, laterBytes rfl]

theorem encode_of_decodeFrom {offset : Nat} {bytes : List UInt8} {text : Text}
    (read : decodeFrom offset bytes = .ok text) : encode text = bytes := by
  fun_induction decodeFrom offset bytes generalizing text with
  | case1 =>
      cases read
      rfl
  | case2 offset first rest isFirst ih =>
      exact encode_of_map_cons read (encodeChar_assemble_one isFirst) ih
  | case4 offset first _ isFirst second rest isSecond ih =>
      exact encode_of_map_cons read (encodeChar_assemble_two isFirst isSecond) ih
  | case8 offset first _ _ isFirst second isSecond third rest isThird ih =>
      exact encode_of_map_cons read
        (encodeChar_assemble_three isFirst isSecond isThird) ih
  | case14 offset first _ _ _ isFirst second isSecond third isThird fourth rest isFourth ih =>
      exact encode_of_map_cons read
        (encodeChar_assemble_four isFirst isSecond isThird isFourth) ih
  -- in all other cases the bytes are refused
  | _ => cases read

/-- Bytes are read as a text exactly when they are the bytes of that text. -/
theorem decode_eq_ok_iff {bytes : List UInt8} {text : Text} :
    decode bytes = .ok text ↔ bytes = encode text := by
  constructor
  · intro read
    exact (encode_of_decodeFrom read).symm
  · intro equal
    rw [equal, decode_encode]

end Utf8

end Dotenv
