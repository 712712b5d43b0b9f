import ElementWrapper.Metadata
import ElementWrapper.Text.Quotation

/-!
Metadata as JSON. `JsonValue.render` writes a value in ASCII, two blanks deeper on each level, with
the entries of an object in the order in which they were put in.
-/

namespace ElementWrapper

/-- A value of JSON, as far as metadata needs them. -/
inductive JsonValue where
  | null
  | bool (value : Bool)
  | text (value : Text)
  | object (entries : List (Text × JsonValue))

namespace JsonValue

/-- Half of the escape of a code point beyond the first plane, or the whole escape of another
one. -/
def unit (n : Nat) : Text := "\\u" ++ Text.hex 4 n

/-- What stands for a code point between quotes. -/
def escape (c : CodePoint) : Text :=
  let n := c.toNat
  if c = .scalar '"' ∨ c = .scalar '\\' then [.scalar '\\', c]
  else if c = .scalar '\n' then "\\n"
  else if c = .scalar '\r' then "\\r"
  else if c = .scalar '\t' then "\\t"
  else if n = 0x08 then "\\b"
  else if n = 0x0C then "\\f"
  else if 0x20 ≤ n ∧ n < 0x7F then [c]
  else if n < 0x10000 then unit n
  else unit (0xD800 + (n - 0x10000) / 0x400) ++ unit (0xDC00 + (n - 0x10000) % 0x400)

/-- A text between quotes. -/
def quoted (text : Text) : Text := "\"" ++ text.flatMap escape ++ "\""

/-- A line feed and the blanks at the beginning of a line. -/
def newLine (depth : Nat) : Text := "\n" ++ Text.times depth "  "

mutual

/-- The text of a value. -/
def renderAt (depth : Nat) : JsonValue → Text
  | null => "null"
  | bool value => if value then "true" else "false"
  | text value => quoted value
  | object [] => "\x7b\x7d"
  | object (first :: rest) =>
    "\x7b" ++ renderEntries (depth + 1) (first :: rest) ++ newLine depth ++ "\x7d"

/-- The text of entries, each on its own line. -/
def renderEntries (depth : Nat) : List (Text × JsonValue) → Text
  | [] => []
  | entry :: rest =>
    newLine depth ++ renderEntry depth entry ++ (if rest.isEmpty then [] else ",") ++
      renderEntries depth rest

/-- The text of an entry. -/
def renderEntry (depth : Nat) : Text × JsonValue → Text
  | (name, value) => quoted name ++ ": " ++ renderAt depth value

end

/-- The text of a value. -/
def render (value : JsonValue) : Text := renderAt 0 value

/-- The value of a text that may be missing. -/
def ofText? (text : Option Text) : JsonValue := text.elim null .text

/-- The value of an attribute policy. -/
def ofPolicy : AttributePolicy → JsonValue
  | .unspecified => null
  | .flag present => bool present
  | .named name => text name

/-- The value of a table. -/
def ofTable {α : Type} (value : α → JsonValue) (table : Table α) : JsonValue :=
  object (table.map fun entry => (entry.1, value entry.2))

end JsonValue

/-- The metadata of a module as a value of JSON. -/
def Summary.toJson (summary : Summary) : JsonValue :=
  .object [
    ("file", .text summary.filename),
    ("className", .ofText? summary.className),
    ("customElementName", .ofText? summary.elementName),
    ("declaredProps", .ofTable property summary.properties),
    ("customEvents", .ofTable .text summary.events),
    ("parentDescriptorSource", .ofText? summary.parentSource),
    ("namedExportsSources", .ofTable (.ofTable .text) summary.reexports)]
where
  /-- The type of a property and what becomes of its attribute. -/
  property (p : Option Text × AttributePolicy) : JsonValue :=
    .object [("type", .ofText? p.1), ("attribute", .ofPolicy p.2)]

end ElementWrapper
