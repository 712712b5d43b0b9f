import ElementWrapper.Text.Basic

/-!
Globs, the patterns of file names. In a glob `*` stands for any text, `?` for one code point and
brackets for one code point of a set, or outside of it if `!` comes first; all else stands for
itself. `Glob.read` reads a glob and `Glob.accepts` matches a whole name.

A set lists code points and ranges `a-z`. A range that runs backward is empty, and then its two ends
are no members of the set either.
-/

namespace ElementWrapper

/-- A part of a glob. -/
inductive GlobPart where
  /-- Any text. -/
  | any
  /-- One code point that passes a test. -/
  | one (test : CodePoint → Bool)

/-- A pattern of file names. -/
abbrev Glob := List GlobPart

namespace Glob

/-! ## Sets -/

/-- The hyphen between the ends of a range. -/
def hyphen : CodePoint := '-'

/-- The pieces of a set between the hyphens of its ranges. A hyphen makes no range before `skip`
code points of its piece; the piece begun so far is given in reverse. -/
def cut (skip : Nat) (piece : Text) : Text → List Text
  | [] => [piece.reverse]
  | c :: rest =>
    if c = hyphen ∧ skip = 0 then piece.reverse :: cut 2 [] rest
    else cut (skip - 1) (c :: piece) rest

/-- The pieces with a hyphen at the end of a set taken for itself. -/
def keepLastHyphen : List Text → List Text
  | [] => []
  | [piece, []] => [piece ++ [hyphen]]
  | piece :: rest => piece :: keepLastHyphen rest

/-- Whether one text ends with a code point that comes after the one that another text begins
with. -/
def runsBackward (before after : Text) : Bool :=
  match before.getLast?, after.head? with
  | some low, some high => high.toNat < low.toNat
  | _, _ => false

/-- The pieces without the ends of ranges that run backward. -/
def dropBackward : List Text → List Text
  | [] => []
  | piece :: rest =>
    match dropBackward rest with
    | [] => [piece]
    | next :: more =>
      if runsBackward piece next then (piece.dropLast ++ next.tail) :: more
      else piece :: next :: more

/-- A sign in a set. -/
inductive Sign where
  | point (c : CodePoint)
  /-- The hyphen of a range. -/
  | to

/-- The code point of a sign. -/
def Sign.toNat : Sign → Nat
  | .point c => c.toNat
  | .to => hyphen.toNat

/-- The signs of pieces. -/
def signs : List Text → List Sign
  | [] => []
  | [piece] => piece.map .point
  | piece :: rest => piece.map .point ++ .to :: signs rest

/-- Whether a code point is in a set of signs. -/
def isMember (c : CodePoint) : List Sign → Bool
  | low :: .to :: high :: rest =>
    (low.toNat ≤ c.toNat && c.toNat ≤ high.toNat) || isMember c rest
  | sign :: rest => c.toNat == sign.toNat || isMember c rest
  | [] => false

/-- The mark of a set that is given by what is not in it. -/
def outside : CodePoint := '!'

/-- The test of a set. -/
def setTest (content : Text) : CodePoint → Bool :=
  let skip := if content.head? = some outside then 2 else 1
  match signs (dropBackward (keepLastHyphen (cut skip [] content))) with
  | .point (.scalar '!') :: rest => fun c => !isMember c rest
  | all => fun c => isMember c all

/-- The length of the content of a set: up to a bracket that is not the first code point of it. -/
def setLength? (text : Text) : Option Nat :=
  let first := if text.head? = some outside then 1 else 0
  let skip := if (text.drop first).head? = some (.scalar ']') then first + 1 else first
  ((text.drop skip).findIdx? (· = .scalar ']')).map (· + skip)

/-! ## Globs -/

/-- The glob that a text describes. -/
def read : Text → Glob
  | [] => []
  | .scalar '*' :: rest =>
    match read rest with
    | .any :: more => .any :: more
    | parts => .any :: parts
  | .scalar '?' :: rest => .one (fun _ => true) :: read rest
  | .scalar '[' :: rest =>
    match setLength? rest with
    | some length => .one (setTest (rest.take length)) :: read (rest.drop (length + 1))
    | none => .one (· = .scalar '[') :: read rest
  | c :: rest => .one (· = c) :: read rest
termination_by text => text.length

/-- The texts that a text ends with. -/
def endings : Text → List Text
  | [] => [[]]
  | c :: rest => (c :: rest) :: endings rest

/-- Whether a glob stands for a name. -/
def accepts : Glob → Text → Bool
  | [], name => name.isEmpty
  | .any :: glob, name => (endings name).any (accepts glob)
  | .one test :: glob, c :: name => test c && accepts glob name
  | .one _ :: _, [] => false

end Glob

end ElementWrapper
