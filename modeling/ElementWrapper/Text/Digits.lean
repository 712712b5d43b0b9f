import ElementWrapper.Text.Blank

/-!
Numbers written in a text. `digitZeros` is the Unicode property "decimal digit" as a table: the
digits of each script stand in a row of ten, and the table holds the zero of each row.

`readDecimal` and `readHex` read an integer as freely as their callers allow: blanks around it, a
sign, in base sixteen the mark `0x`, single underscores between digits, and digits of any script.
-/

namespace ElementWrapper.Text

/-- The numbers of the zeros of all scripts. -/
def digitZeros : List Nat :=
  [0x0030, 0x0660, 0x06F0, 0x07C0, 0x0966, 0x09E6, 0x0A66, 0x0AE6, 0x0B66, 0x0BE6, 0x0C66, 0x0CE6,
   0x0D66, 0x0DE6, 0x0E50, 0x0ED0, 0x0F20, 0x1040, 0x1090, 0x17E0, 0x1810, 0x1946, 0x19D0,
   0x1A80, 0x1A90, 0x1B50, 0x1BB0, 0x1C40, 0x1C50, 0xA620, 0xA8D0, 0xA900, 0xA9D0, 0xA9F0,
   0xAA50, 0xABF0, 0xFF10, 0x104A0, 0x10D30, 0x11066, 0x110F0, 0x11136, 0x111D0, 0x112F0,
   0x11450, 0x114D0, 0x11650, 0x116C0, 0x11730, 0x118E0, 0x11950, 0x11C50, 0x11D50, 0x11DA0,
   0x16A60, 0x16AC0, 0x16B50, 0x1D7CE, 0x1D7D8, 0x1D7E2, 0x1D7EC, 0x1D7F6, 0x1E140, 0x1E2F0,
   0x1E950, 0x1FBF0]

/-- The value of a decimal digit of any script. -/
def decimalDigit? (c : CodePoint) : Option Nat :=
  (digitZeros.find? fun start => start ≤ c.toNat ∧ c.toNat < start + 10).map (c.toNat - ·)

/-- The value of a hexadecimal digit: a decimal digit of any script or a letter up to `f`. -/
def hexDigit? : CodePoint → Option Nat
  | .surrogate _ => none
  | .scalar c =>
    if 'a' ≤ c ∧ c ≤ 'f' then some (c.toNat - 'a'.toNat + 10)
    else if 'A' ≤ c ∧ c ≤ 'F' then some (c.toNat - 'A'.toNat + 10)
    else decimalDigit? c

/-- The number written by digits in a base, single underscores between them passed over. The flag
tells that an underscore may stand next. -/
def readDigits (base : Nat) (digit? : CodePoint → Option Nat) :
    (value : Nat) → (joint : Bool) → Text → Option Nat
  | value, joint, [] => if joint then some value else none
  | value, joint, c :: rest =>
    match digit? c with
    | some digit =>
      if digit < base then readDigits base digit? (value * base + digit) true rest else none
    | none => if joint && c = .scalar '_' then readDigits base digit? value false rest else none

/-- A character that is skipped around a number. -/
def isNumberBlank (c : CodePoint) : Bool :=
  isBlank c && !(0x1C ≤ c.toNat && c.toNat ≤ 0x1F)

/-- The integer that a text writes as a sign and a body, blanks around it being skipped. -/
def readSigned (body? : Text → Option Nat) (text : Text) : Option Int :=
  match trimEnd isNumberBlank (text.dropWhile isNumberBlank) with
  | .scalar '-' :: rest => (body? rest).map fun value => -(value : Int)
  | .scalar '+' :: rest => (body? rest).map fun value => (value : Int)
  | rest => (body? rest).map fun value => (value : Int)

/-- The integer that a text writes in base ten. -/
def readDecimal : Text → Option Int := readSigned (readDigits 10 decimalDigit? 0 false)

/-- The number that a text without a sign writes in base sixteen. -/
def readHexBody (body : Text) : Option Nat :=
  match body with
  | .scalar '0' :: .scalar 'x' :: rest | .scalar '0' :: .scalar 'X' :: rest =>
    readDigits 16 hexDigit? 0 false (match rest with
      | .scalar '_' :: digits => digits
      | _ => rest)
  | _ => readDigits 16 hexDigit? 0 false body

/-- The integer that a text writes in base sixteen. -/
def readHex : Text → Option Int := readSigned readHexBody

end ElementWrapper.Text
