import ElementWrapper.Module.Node
import ElementWrapper.Text.Utf8

/-!
Concrete trees: every token of a source text and every construct of the grammar, each with the span
of bytes it covers. A tree keeps no text; `Document.text` cuts the text of a tree out of the bytes
of the source, and `Document.location` counts the code points before it in its line.
-/

namespace ElementWrapper.Source

/-- A position between two bytes: how many bytes are before it, how many line feeds, and how many
bytes since the last line feed. -/
structure Point where
  byte : Nat
  row : Nat
  column : Nat
  deriving DecidableEq, Repr

/-- The position before the first byte. -/
def Point.zero : Point := ⟨0, 0, 0⟩

/-- A construct or a token. `named` tells constructs of the grammar from punctuation and keywords,
`missing` marks a token that is not in the text, and `field` is the part it plays in its parent. -/
inductive Tree where
  | node (kind : String) (named missing : Bool) (field : Option String) (start stop : Point)
      (children : List Tree)

namespace Tree

/-- The kind of a construct, or the text of a keyword or of punctuation. -/
def kind : Tree → String
  | node kind .. => kind

/-- Whether the tree is a construct of the grammar. -/
def named : Tree → Bool
  | node _ named .. => named

/-- Whether the tree stands for a token that is not in the text. -/
def missing : Tree → Bool
  | node _ _ missing .. => missing

/-- The part the tree plays in its parent. -/
def field : Tree → Option String
  | node _ _ _ field .. => field

/-- Where the tree begins. -/
def start : Tree → Point
  | node _ _ _ _ start .. => start

/-- Where the tree ends. -/
def stop : Tree → Point
  | node _ _ _ _ _ stop _ => stop

/-- The parts of the tree in order. -/
def children : Tree → List Tree
  | node _ _ _ _ _ _ children => children

/-- The tree in another part of its parent. -/
def withField (name : String) : Tree → Tree
  | node kind named missing _ start stop children =>
    node kind named missing (some name) start stop children

/-- The kind of a comment. -/
def commentKind : String := "comment"

/-- Whether the tree is a comment. -/
def isComment (tree : Tree) : Bool := tree.kind = commentKind

/-- The parts that are constructs. -/
def namedChildren (tree : Tree) : List Tree := tree.children.filter (·.named)

/-- The parts that are constructs and no comments. -/
def operands (tree : Tree) : List Tree := tree.namedChildren.filter (!·.isComment)

/-- The first child that plays a part. -/
def child? (tree : Tree) (name : String) : Option Tree :=
  tree.children.find? (·.field = some name)

/-- Whether a keyword or a punctuation is among the parts. -/
def hasToken (tree : Tree) (token : String) : Bool :=
  tree.children.any fun child => !child.named && child.kind = token

mutual

/-- The number of levels of a tree. -/
def height : Tree → Nat
  | node _ _ _ _ _ _ children => heights children + 1

/-- The number of levels of the highest tree of a list. -/
def heights : List Tree → Nat
  | [] => 0
  | tree :: rest => max tree.height (heights rest)

end

end Tree

/-- The bytes of a source text. -/
structure Document where
  bytes : List UInt8

namespace Document

/-- The document of a source text. -/
def ofChars (source : List Char) : Document := ⟨Utf8.encode source⟩

/-- The characters between two bytes. -/
def slice (d : Document) (start stop : Nat) : List Char :=
  Utf8.decodeLossy ((d.bytes.drop start).take (stop - start))

/-- The text of a tree. -/
def text (d : Document) (tree : Tree) : Text :=
  Text.ofChars (d.slice tree.start.byte tree.stop.byte)

/-- The location of a position. -/
def locationOf (d : Document) (p : Point) : Location :=
  ⟨p.row + 1, (d.slice (p.byte - p.column) p.byte).length⟩

/-- The location where a tree begins. -/
def location (d : Document) (tree : Tree) : Location := d.locationOf tree.start

end Document

end ElementWrapper.Source
