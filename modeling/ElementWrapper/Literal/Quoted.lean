import ElementWrapper.Text.Basic

/-!
Double-quoted string literals. `quote` writes any text as one literal: the quote, the backslash and
every character that would end the line or be lost are escaped.
-/

namespace ElementWrapper.Literal

/-- How a code point stands between double quotes. -/
def escape : CodePoint → Text
  | .scalar '\\' => "\\\\"
  | .scalar '"' => "\\\""
  | .scalar '\n' => "\\n"
  | .scalar '\r' => "\\r"
  | .scalar '\t' => "\\t"
  | .scalar '\x08' => "\\b"
  | .scalar '\x0c' => "\\f"
  | .scalar '\x0b' => "\\v"
  | .scalar '\x00' => "\\x00"
  | .scalar '\u2028' => "\\u2028"
  | .scalar '\u2029' => "\\u2029"
  | c => [c]

/-- The body of the literal of a text. -/
def quoteBody (value : Text) : Text := value.flatMap escape

/-- The double-quoted literal of a text. -/
def quote (value : Text) : Text := .scalar '"' :: quoteBody value ++ [.scalar '"']

/-- A character that an identifier may begin with. -/
def isNameStart (c : Char) : Bool := c.isAlpha || c == '_' || c == '$'

/-- A character that an identifier may go on with. -/
def isNamePart (c : Char) : Bool := isNameStart c || c.isDigit

/-- A text that is an identifier of ASCII characters; one line feed after it is let pass. -/
def isPlainName : Text → Bool
  | [] => false
  | c :: rest =>
    c.all isNameStart &&
      let tail : Text := rest.dropWhile (·.all isNamePart)
      tail = [] || tail = [.scalar '\n']

end ElementWrapper.Literal
