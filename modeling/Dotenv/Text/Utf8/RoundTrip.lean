import Dotenv.Text.Utf8

/-!
# Reading back what was encoded

The bytes of a text are read back as that text.  Each length of a character has one
equation of the reader, and the bytes of a character satisfy the conditions of
theirs.
-/

namespace Dotenv

namespace Utf8

theorem within_ofNat {low high code : Nat} (small : code < 256) :
    within low high (UInt8.ofNat code) = (decide (low ≤ code) && decide (code ≤ high)) := by
  simp [within, Nat.mod_eq_of_lt small]

theorem toNat_ofNat {code : Nat} (small : code < 256) : (UInt8.ofNat code).toNat = code := by
  simp [Nat.mod_eq_of_lt small]

theorem ofNat_eq_ofNat_iff {code other : Nat} (small : code < 256)
    (smallOther : other < 256) : UInt8.ofNat code = UInt8.ofNat other ↔ code = other := by
  constructor
  · intro equal
    have values := congrArg UInt8.toNat equal
    rwa [toNat_ofNat small, toNat_ofNat smallOther] at values
  · intro equal
    rw [equal]

/-- A byte between two bounds does not lie between two other ones below them. -/
theorem within_eq_false_of_within {low high higher : Nat} {byte : UInt8} (lower : Nat)
    (inside : within low high byte = true) (below : higher < low) :
    within lower higher byte = false := by
  simp only [within, Bool.and_eq_true, decide_eq_true_eq] at inside
  simp only [within, Bool.and_eq_false_iff, decide_eq_false_iff_not]
  omega

theorem decodeFrom_one {first : UInt8} (isFirst : within 0x00 0x7F first = true)
    (offset : Nat) (rest : List UInt8) :
    decodeFrom offset (first :: rest) =
      (decodeFrom (offset + 1) rest).map (assemble first.toNat [] :: ·) := by
  rw [decodeFrom.eq_def]
  simp only [isFirst, if_true]

theorem decodeFrom_two {first second : UInt8} (isFirst : within 0xC2 0xDF first = true)
    (isSecond : isContinuation second = true) (offset : Nat) (rest : List UInt8) :
    decodeFrom offset (first :: second :: rest) =
      (decodeFrom (offset + 2) rest).map (assemble (first.toNat % 32) [second] :: ·) := by
  have notOne := within_eq_false_of_within 0x00 isFirst (show 0x7F < 0xC2 by decide)
  rw [decodeFrom.eq_def]
  simp only [notOne, isFirst, isSecond, if_true, if_false, Bool.false_eq_true]

theorem decodeFrom_three {first second third : UInt8}
    (isFirst : within 0xE0 0xEF first = true)
    (isSecond : isSecondOfThree first second = true)
    (isThird : isContinuation third = true) (offset : Nat) (rest : List UInt8) :
    decodeFrom offset (first :: second :: third :: rest) =
      (decodeFrom (offset + 3) rest).map
        (assemble (first.toNat % 16) [second, third] :: ·) := by
  have notOne := within_eq_false_of_within 0x00 isFirst (show 0x7F < 0xE0 by decide)
  have notTwo := within_eq_false_of_within 0xC2 isFirst (show 0xDF < 0xE0 by decide)
  rw [decodeFrom.eq_def]
  simp only [notOne, notTwo, isFirst, isSecond, isThird, if_true, if_false,
    Bool.false_eq_true]

theorem decodeFrom_four {first second third fourth : UInt8}
    (isFirst : within 0xF0 0xF4 first = true)
    (isSecond : isSecondOfFour first second = true)
    (isThird : isContinuation third = true)
    (isFourth : isContinuation fourth = true) (offset : Nat) (rest : List UInt8) :
    decodeFrom offset (first :: second :: third :: fourth :: rest) =
      (decodeFrom (offset + 4) rest).map
        (assemble (first.toNat % 8) [second, third, fourth] :: ·) := by
  have notOne := within_eq_false_of_within 0x00 isFirst (show 0x7F < 0xF0 by decide)
  have notTwo := within_eq_false_of_within 0xC2 isFirst (show 0xDF < 0xF0 by decide)
  have notThree :=
    within_eq_false_of_within 0xE0 isFirst (show 0xEF < 0xF0 by decide)
  rw [decodeFrom.eq_def]
  simp only [notOne, notTwo, notThree, isFirst, isSecond, isThird, isFourth, if_true,
    if_false, Bool.false_eq_true]

theorem isContinuation_low (code : Nat) :
    isContinuation (UInt8.ofNat (code % 0x40 + 0x80)) = true := by
  rw [isContinuation, within_ofNat (by omega)]
  simp only [Bool.and_eq_true, decide_eq_true_eq]
  omega

section Code

variable {code : Nat} (offset : Nat) (rest : List UInt8)

theorem decodeFrom_code_one (upper : code ≤ 0x7F) :
    decodeFrom offset (UInt8.ofNat code :: rest) =
      (decodeFrom (offset + 1) rest).map (Char.ofNat code :: ·) := by
  have isFirst : within 0x00 0x7F (UInt8.ofNat code) = true := by
    rw [within_ofNat (by omega)]
    simpa using upper
  rw [decodeFrom_one isFirst, assemble, List.foldl_nil, toNat_ofNat (by omega)]

theorem decodeFrom_code_two (lower : 0x7F < code) (upper : code ≤ 0x7FF) :
    decodeFrom offset (UInt8.ofNat (code / 64 % 0x20 + 0xC0) ::
        UInt8.ofNat (code % 0x40 + 0x80) :: rest) =
      (decodeFrom (offset + 2) rest).map (Char.ofNat code :: ·) := by
  have isFirst : within 0xC2 0xDF (UInt8.ofNat (code / 64 % 0x20 + 0xC0)) = true := by
    rw [within_ofNat (by omega)]
    simp only [Bool.and_eq_true, decide_eq_true_eq]
    omega
  have joined :
      (code / 64 % 0x20 + 0xC0) % 32 * 64 + (code % 0x40 + 0x80) % 64 = code := by
    omega
  rw [decodeFrom_two isFirst (isContinuation_low code), assemble, List.foldl_cons,
    List.foldl_nil, toNat_ofNat (by omega), toNat_ofNat (by omega), joined]

theorem isSecondOfThree_code (lower : 0x7FF < code) (upper : code ≤ 0xFFFF)
    (valid : code < 0xD800 ∨ 0xDFFF < code) :
    isSecondOfThree (UInt8.ofNat (code / 4096 % 0x10 + 0xE0))
      (UInt8.ofNat (code / 64 % 0x40 + 0x80)) = true := by
  have small : code / 4096 % 0x10 + 0xE0 < 256 := by omega
  have lowest := ofNat_eq_ofNat_iff small (show 0xE0 < 256 by decide)
  have highest := ofNat_eq_ofNat_iff small (show 0xED < 256 by decide)
  rw [isSecondOfThree, within_ofNat (by omega)]
  simp only [Bool.and_eq_true, decide_eq_true_eq]
  constructor
  · split
    · rename_i equal
      have start := lowest.mp equal
      omega
    · omega
  · split
    · rename_i equal
      have start := highest.mp equal
      omega
    · omega

theorem decodeFrom_code_three (lower : 0x7FF < code) (upper : code ≤ 0xFFFF)
    (valid : code < 0xD800 ∨ 0xDFFF < code) :
    decodeFrom offset (UInt8.ofNat (code / 4096 % 0x10 + 0xE0) ::
        UInt8.ofNat (code / 64 % 0x40 + 0x80) :: UInt8.ofNat (code % 0x40 + 0x80) :: rest) =
      (decodeFrom (offset + 3) rest).map (Char.ofNat code :: ·) := by
  have isFirst : within 0xE0 0xEF (UInt8.ofNat (code / 4096 % 0x10 + 0xE0)) = true := by
    rw [within_ofNat (by omega)]
    simp only [Bool.and_eq_true, decide_eq_true_eq]
    omega
  have joined :
      ((code / 4096 % 0x10 + 0xE0) % 16 * 64 + (code / 64 % 0x40 + 0x80) % 64) * 64 +
        (code % 0x40 + 0x80) % 64 = code := by
    omega
  rw [decodeFrom_three isFirst (isSecondOfThree_code lower upper valid)
      (isContinuation_low code),
    assemble, List.foldl_cons, List.foldl_cons, List.foldl_nil, toNat_ofNat (by omega),
    toNat_ofNat (by omega), toNat_ofNat (by omega), joined]

theorem isSecondOfFour_code (lower : 0xFFFF < code) (upper : code < 0x110000) :
    isSecondOfFour (UInt8.ofNat (code / 262144 % 0x08 + 0xF0))
      (UInt8.ofNat (code / 4096 % 0x40 + 0x80)) = true := by
  have small : code / 262144 % 0x08 + 0xF0 < 256 := by omega
  have lowest := ofNat_eq_ofNat_iff small (show 0xF0 < 256 by decide)
  have highest := ofNat_eq_ofNat_iff small (show 0xF4 < 256 by decide)
  rw [isSecondOfFour, within_ofNat (by omega)]
  simp only [Bool.and_eq_true, decide_eq_true_eq]
  constructor
  · split
    · rename_i equal
      have start := lowest.mp equal
      omega
    · omega
  · split
    · rename_i equal
      have start := highest.mp equal
      omega
    · omega

theorem decodeFrom_code_four (lower : 0xFFFF < code) (upper : code < 0x110000) :
    decodeFrom offset (UInt8.ofNat (code / 262144 % 0x08 + 0xF0) ::
        UInt8.ofNat (code / 4096 % 0x40 + 0x80) :: UInt8.ofNat (code / 64 % 0x40 + 0x80) ::
        UInt8.ofNat (code % 0x40 + 0x80) :: rest) =
      (decodeFrom (offset + 4) rest).map (Char.ofNat code :: ·) := by
  have isFirst : within 0xF0 0xF4 (UInt8.ofNat (code / 262144 % 0x08 + 0xF0)) = true := by
    rw [within_ofNat (by omega)]
    simp only [Bool.and_eq_true, decide_eq_true_eq]
    omega
  have joined :
      (((code / 262144 % 0x08 + 0xF0) % 8 * 64 + (code / 4096 % 0x40 + 0x80) % 64) * 64 +
        (code / 64 % 0x40 + 0x80) % 64) * 64 + (code % 0x40 + 0x80) % 64 = code := by
    omega
  rw [decodeFrom_four isFirst (isSecondOfFour_code lower upper) (isContinuation_low _)
      (isContinuation_low code),
    assemble, List.foldl_cons, List.foldl_cons, List.foldl_cons, List.foldl_nil,
    toNat_ofNat (by omega), toNat_ofNat (by omega), toNat_ofNat (by omega),
    toNat_ofNat (by omega), joined]

end Code

/-- The bytes of a character are read as that character. -/
theorem decodeFrom_append_encoded (offset : Nat) (character : Char) (rest : List UInt8) :
    decodeFrom offset (String.utf8EncodeChar character ++ rest) =
      (decodeFrom (offset + character.utf8Size) rest).map (character :: ·) := by
  have valid := character.valid
  simp only [UInt32.isValidChar, Nat.isValidChar] at valid
  have same : Char.ofNat character.val.toNat = character := Char.ofNat_toNat character
  have size : character.utf8Size =
      if character.val.toNat ≤ 0x7F then 1
      else if character.val.toNat ≤ 0x7FF then 2
      else if character.val.toNat ≤ 0xFFFF then 3 else 4 := rfl
  rw [size]
  unfold String.utf8EncodeChar
  dsimp only
  generalize character.val.toNat = code at *
  rw [← same]
  split
  · rename_i one
    exact decodeFrom_code_one offset rest one
  split
  · rename_i notOne two
    exact decodeFrom_code_two offset rest (by omega) two
  split
  · rename_i notOne notTwo three
    exact decodeFrom_code_three offset rest (by omega) three (by omega)
  · rename_i notOne notTwo notThree
    exact decodeFrom_code_four offset rest (by omega) (by omega)

/-- The bytes of a text, wherever they stand, are read as that text. -/
theorem decodeFrom_encode (offset : Nat) (text : Text) :
    decodeFrom offset (encode text) = .ok text := by
  induction text generalizing offset with
  | nil => rfl
  | cons character rest ih =>
    rw [encode_cons, decodeFrom_append_encoded, ih]
    rfl

/-- The bytes of a text are read back as that text. -/
@[simp]
theorem decode_encode (text : Text) : decode (encode text) = .ok text :=
  decodeFrom_encode 0 text

theorem encode_inj {first second : Text} (equal : encode first = encode second) :
    first = second := by
  have decoded := congrArg decode equal
  rw [decode_encode, decode_encode] at decoded
  exact Except.ok.inj decoded

end Utf8

end Dotenv
