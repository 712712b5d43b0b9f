import ElementWrapper.Text.Printable

/-!
Quotations, the texts that stand for other texts in messages. A quotation stands between quotes and
shows what cannot be printed as an escape, so that a text and its quotation determine each other.
-/

namespace ElementWrapper.Text

/-- A number in hexadecimal with at least so many digits. -/
def hex (width n : Nat) : Text :=
  let digits := Nat.toDigits 16 n
  ofChars (List.replicate (width - digits.length) '0' ++ digits)

/-- The escape that stands for a code point without a print image. -/
def numericEscape (c : CodePoint) : Text :=
  let n := c.toNat
  if n < 0x100 then "\\x" ++ hex 2 n
  else if n < 0x10000 then "\\u" ++ hex 4 n
  else "\\U" ++ hex 8 n

/-- What stands for a code point between two quotes. -/
def quotationOf (quote c : CodePoint) : Text :=
  if c = quote ∨ c = .scalar '\\' then [.scalar '\\', c]
  else if c = .scalar '\n' then "\\n"
  else if c = .scalar '\r' then "\\r"
  else if c = .scalar '\t' then "\\t"
  else if isPrintable c then [c]
  else numericEscape c

/-- The quote around a text: single quotes, unless the text holds them and no double quotes. -/
def quoteFor (text : Text) : CodePoint :=
  if text.contains (.scalar '\'') && !text.contains (.scalar '"') then '"' else '\''

/-- The quotation of a text. -/
def quotation (text : Text) : Text :=
  let quote := quoteFor text
  [quote] ++ text.flatMap (quotationOf quote) ++ [quote]

end ElementWrapper.Text
