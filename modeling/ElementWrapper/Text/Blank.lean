import ElementWrapper.Text.Basic

/-!
Blank characters and ends of lines. `isBlank` is the Unicode property "white space" together with
the four separators of ASCII; `lines` cuts a text at every character that ends a line on a terminal
or a page, of which the line feed is only one.
-/

namespace ElementWrapper.Text

/-- The numbers of the blank characters beyond ASCII. -/
def wideBlanks : List Nat :=
  [0x85, 0xA0, 0x1680, 0x2000, 0x2001, 0x2002, 0x2003, 0x2004, 0x2005, 0x2006, 0x2007, 0x2008,
   0x2009, 0x200A, 0x2028, 0x2029, 0x202F, 0x205F, 0x3000]

/-- A blank character. -/
def isBlank (c : CodePoint) : Bool :=
  let n := c.toNat
  (9 ≤ n && n ≤ 13) || (0x1C ≤ n && n ≤ 0x20) || wideBlanks.contains n

/-- The text without the characters of a class at its end. -/
def trimEnd (drop : CodePoint → Bool) (text : Text) : Text :=
  (text.reverse.dropWhile drop).reverse

/-- The text without the blanks at its two ends. -/
def trim (text : Text) : Text := trimEnd isBlank (text.dropWhile isBlank)

/-- A character that ends a line. -/
def isLineEnd (c : CodePoint) : Bool :=
  let n := c.toNat
  (10 ≤ n && n ≤ 13) || (0x1C ≤ n && n ≤ 0x1E) || n == 0x85 || n == 0x2028 || n == 0x2029

/-- The lines of a text without their ends; a carriage return and a line feed end one line together,
and a last line without an end counts only if it is not empty. -/
def lines : Text → List Text
  | [] => []
  | .scalar '\r' :: .scalar '\n' :: rest => [] :: lines rest
  | c :: rest =>
    if isLineEnd c then [] :: lines rest
    else match rest, lines rest with
      | [], _ => [[c]]
      | _, line :: more => (c :: line) :: more
      | _, [] => [[c]]

end ElementWrapper.Text
