/-!
Text of a module. A cooked string may hold half of a surrogate pair, so text is a list of code
points and not of characters; every other module of the library works on this one type.

`CodePoint.ofNat?` reads a code point from its number and `CodePoint.toNat` gives the number back.
-/

namespace ElementWrapper

/-- A code point is a character or a surrogate that stands alone. -/
inductive CodePoint where
  | scalar (c : Char)
  | surrogate (offset : Fin 2048)
  deriving DecidableEq, Repr, Inhabited

namespace CodePoint

instance : Coe Char CodePoint := ⟨.scalar⟩

/-- The number of the first surrogate. -/
def firstSurrogate : Nat := 0xD800

/-- The number of a code point. -/
def toNat : CodePoint → Nat
  | .scalar c => c.toNat
  | .surrogate offset => firstSurrogate + offset

/-- The code point with a number; there is none above `0x10FFFF`. -/
def ofNat? (n : Nat) : Option CodePoint :=
  if valid : n.isValidChar then some (.scalar (Char.ofNatAux n valid))
  else if low : firstSurrogate ≤ n ∧ n < firstSurrogate + 2048 then
    some (.surrogate ⟨n - firstSurrogate, by omega⟩)
  else none

/-- A code point satisfies a test on characters; no surrogate does. -/
def all (test : Char → Bool) : CodePoint → Bool
  | .scalar c => test c
  | .surrogate _ => false

/-- The character of a code point that is not a surrogate. -/
def toChar? : CodePoint → Option Char
  | .scalar c => some c
  | .surrogate _ => none

end CodePoint

/-- Text is a list of code points. -/
abbrev Text := List CodePoint

instance : LawfulBEq Text := inferInstance

namespace Text

/-- The text of a list of characters. -/
def ofChars (chars : List Char) : Text := chars.map .scalar

/-- The text of a string. -/
def ofString (s : String) : Text := ofChars s.toList

instance : Coe String Text := ⟨ofString⟩

/-- The characters of a text without surrogates. -/
def toChars? (text : Text) : Option (List Char) := text.mapM CodePoint.toChar?

/-- The decimal digits of a number. -/
def ofNat (n : Nat) : Text := ofChars (Nat.toDigits 10 n)

/-- The decimal digits of an integer, after a minus sign if it is negative. -/
def ofInt : Int → Text
  | .ofNat n => ofNat n
  | .negSucc n => .scalar '-' :: ofNat (n + 1)

/-- The texts one after the other with a separator between neighbours. -/
def join (separator : Text) : List Text → Text
  | [] => []
  | [text] => text
  | text :: rest => text ++ separator ++ join separator rest

/-- The pieces between the occurrences of a code point; there is always at least one. -/
def splitOn (separator : CodePoint) : Text → List Text
  | [] => [[]]
  | c :: rest =>
    if c = separator then [] :: splitOn separator rest
    else match splitOn separator rest with
      | piece :: pieces => (c :: piece) :: pieces
      | [] => [[c]]

/-- The text without a given beginning, if it begins so. -/
def dropStart? (start text : Text) : Option Text :=
  if start.isPrefixOf text then some (text.drop start.length) else none

/-- The text repeated a number of times. -/
def times (count : Nat) (text : Text) : Text := (List.replicate count text).flatten

/-- The order of texts by the numbers of their code points. -/
def le : Text → Text → Bool
  | [], _ => true
  | _ :: _, [] => false
  | a :: as, b :: bs =>
    if a.toNat < b.toNat then true
    else if b.toNat < a.toNat then false
    else le as bs

end Text

end ElementWrapper
