import Dotenv.Text

/-!
# UTF-8

Text is written as bytes and read back from them.  Bytes that are no UTF-8 are
refused with the place where the longest valid part ends, and with the length
of the maximal part there that could have begun a character.
-/

namespace Dotenv

namespace Utf8

/-- Why bytes are no UTF-8: after `offset` valid bytes stand `length` bytes that
begin no character, or the bytes end inside a character. -/
inductive Fault where
  | invalid (length offset : Nat)
  | incomplete (offset : Nat)
  deriving DecidableEq, Repr

def Fault.message : Fault → Text
  | .invalid length offset =>
    "invalid utf-8 sequence of ".toList ++ Text.decimal length ++
      " bytes from index ".toList ++ Text.decimal offset
  | .incomplete offset =>
    "incomplete utf-8 byte sequence from index ".toList ++ Text.decimal offset

/-- The UTF-8 form of a text. -/
def encode (text : Text) : List UInt8 := text.flatMap String.utf8EncodeChar

@[simp]
theorem encode_nil : encode [] = [] := rfl

@[simp]
theorem encode_cons (character : Char) (rest : Text) :
    encode (character :: rest) = String.utf8EncodeChar character ++ encode rest := rfl

@[simp]
theorem encode_append (first second : Text) :
    encode (first ++ second) = encode first ++ encode second :=
  List.flatMap_append

/-- Whether a byte lies between two bounds, both included. -/
def within (low high : Nat) (byte : UInt8) : Bool :=
  low ≤ byte.toNat && byte.toNat ≤ high

/-- Whether a byte may follow the first byte of a character. -/
def isContinuation (byte : UInt8) : Bool := within 0x80 0xBF byte

/-- Whether a byte may stand second in a character of three bytes. -/
def isSecondOfThree (first second : UInt8) : Bool :=
  within (if first = 0xE0 then 0xA0 else 0x80) (if first = 0xED then 0x9F else 0xBF) second

/-- Whether a byte may stand second in a character of four bytes. -/
def isSecondOfFour (first second : UInt8) : Bool :=
  within (if first = 0xF0 then 0x90 else 0x80) (if first = 0xF4 then 0x8F else 0xBF) second

/-- The character with the code that the six low bits of continuation bytes add
to the leading bits. -/
def assemble (leading : Nat) (continuation : List UInt8) : Char :=
  Char.ofNat (continuation.foldl (fun code byte => code * 64 + byte.toNat % 64) leading)

/-- Read the bytes that stand at an offset. -/
def decodeFrom (offset : Nat) : List UInt8 → Except Fault Text
  | [] => .ok []
  | first :: afterFirst =>
    if within 0x00 0x7F first then
      (decodeFrom (offset + 1) afterFirst).map (assemble first.toNat [] :: ·)
    else if within 0xC2 0xDF first then
      match afterFirst with
      | [] => .error (.incomplete offset)
      | second :: rest =>
        if isContinuation second then
          (decodeFrom (offset + 2) rest).map (assemble (first.toNat % 32) [second] :: ·)
        else
          .error (.invalid 1 offset)
    else if within 0xE0 0xEF first then
      match afterFirst with
      | [] => .error (.incomplete offset)
      | second :: afterSecond =>
        if isSecondOfThree first second then
          match afterSecond with
          | [] => .error (.incomplete offset)
          | third :: rest =>
            if isContinuation third then
              (decodeFrom (offset + 3) rest).map
                (assemble (first.toNat % 16) [second, third] :: ·)
            else
              .error (.invalid 2 offset)
        else
          .error (.invalid 1 offset)
    else if within 0xF0 0xF4 first then
      match afterFirst with
      | [] => .error (.incomplete offset)
      | second :: afterSecond =>
        if isSecondOfFour first second then
          match afterSecond with
          | [] => .error (.incomplete offset)
          | third :: afterThird =>
            if isContinuation third then
              match afterThird with
              | [] => .error (.incomplete offset)
              | fourth :: rest =>
                if isContinuation fourth then
                  (decodeFrom (offset + 4) rest).map
                    (assemble (first.toNat % 8) [second, third, fourth] :: ·)
                else
                  .error (.invalid 3 offset)
            else
              .error (.invalid 2 offset)
        else
          .error (.invalid 1 offset)
    else
      .error (.invalid 1 offset)

/-- The text that bytes encode. -/
def decode (bytes : List UInt8) : Except Fault Text := decodeFrom 0 bytes

end Utf8

end Dotenv
