import ElementWrapper.Pattern.Reading

/-!
Replacement of the first match of a pattern. In the text that takes its place a backslash refers to
the groups of the match: by number, or by number or name after a `g`.
-/

namespace ElementWrapper

/-- Why a pattern or a replacement is useless. -/
inductive PatternError where
  /-- It breaks the rules of spelling. -/
  | malformed
  /-- A part is to be repeated too often. -/
  | tooLarge
  /-- It names a group that does not exist. -/
  | unknownGroup (name : Text)
  deriving DecidableEq

/-- What a pattern suffers from when it is applied. The rules of a project have been read before, so
that faults of a number or of the alphabets, which end the loading of a project, are not told apart
from those of the spelling. -/
def PatternError.ofFault : Regex.Fault → PatternError
  | .tooLarge => .tooLarge
  | _ => .malformed

namespace Regex

/-- A piece of a replacement: a text, or the text of a group. -/
inductive Insert where
  | literal (value : Text)
  | group (index : Nat)

/-- The group with a number, which must exist. -/
def groupInsert (regex : Regex) (index : Nat) : Except PatternError Insert :=
  if index ≤ regex.groups then .ok (.group index) else .error .malformed

/-- The group that is written by name or number. -/
def namedInsert (regex : Regex) (name : Text) : Except PatternError Insert :=
  if Text.isIdentifier name then
    match regex.names.lookup name with
    | some index => .ok (.group index)
    | none => .error (.unknownGroup name)
  else
    match Text.readDecimal name with
    | some (.ofNat index) => groupInsert regex index
    | _ => .error .malformed

/-- What a backslash stands for in a replacement, and what follows it. That a backslash ends the
replacement is noticed before the name in front of it is looked up. -/
def readInsert (regex : Regex) : Text → Except PatternError (Insert × Text)
  | [] => .error .malformed
  | .scalar 'g' :: rest =>
    match rest with
    | .scalar '<' :: rest => do
      let name := rest.takeWhile (· ≠ .scalar '>')
      if name.isEmpty || name.length = rest.length then throw .malformed
      let rest := rest.drop (name.length + 1)
      if rest = "\\" then throw .malformed
      return (← namedInsert regex name, rest)
    | _ => .error .malformed
  | .scalar '0' :: rest =>
    let digits := (rest.take 2).takeWhile isOctal
    let c := (CodePoint.ofNat? (value 8 digits % 256)).toList
    .ok (.literal c, rest.drop digits.length)
  | c :: rest => do
    if isDigit c then
      let second := (rest.take 1).takeWhile isDigit
      let more := rest.drop second.length
      let third := if isOctal c && !second.isEmpty && second.all isOctal
        then (more.take 1).takeWhile isOctal else []
      if third.isEmpty then return (← groupInsert regex (value 10 (c :: second)), more)
      else
        let n := value 8 (c :: second ++ third)
        if 0o377 < n then throw .malformed
        return (.literal (CodePoint.ofNat? n).toList, more.drop 1)
    else
      match control? c with
      | some n => return (.literal (CodePoint.ofNat? n).toList, rest)
      | none =>
        if c.all Char.isAlpha then throw .malformed
        return (.literal [.scalar '\\', c], rest)

/-- The pieces of a replacement, at most `fuel` of them. -/
def readInserts (regex : Regex) : Nat → Text → Except PatternError (List Insert)
  | 0, _ => .ok []
  | _ + 1, [] => .ok []
  | fuel + 1, .scalar '\\' :: rest => do
    let (insert, rest) ← readInsert regex rest
    return insert :: (← readInserts regex fuel rest)
  | fuel + 1, c :: rest => do return .literal [c] :: (← readInserts regex fuel rest)

/-- The text of a piece for a match; a group that was not found has none. -/
def Insert.expand (start stop : Site) : Insert → Text
  | literal value => value
  | group 0 => stop.since start
  | group index => (stop.group? index).getD []

/-- The text with the first match of a pattern replaced. -/
def replaceFirst (regex : Regex) (inserts : List Insert) (text : Text) : Text :=
  match regex.pattern.search text with
  | none => text
  | some (start, stop) =>
    start.before.reverse ++ inserts.flatMap (·.expand start stop) ++ stop.rest

end Regex

/-- A rule that replaces the first match of a pattern. -/
structure Substitution where
  pattern : Text
  replacement : Text
  deriving DecidableEq

namespace Substitution

/-- The text after a rule. -/
def apply (rule : Substitution) (text : Text) : Except PatternError Text := do
  let regex ← (Regex.read rule.pattern).mapError .ofFault
  let inserts ← regex.readInserts (rule.replacement.length + 1) rule.replacement
  return regex.replaceFirst inserts text

/-- The text after a list of rules, one after the other. -/
def applyAll (rules : List Substitution) (text : Text) : Except PatternError Text :=
  rules.foldlM (fun text rule => rule.apply text) text

end Substitution

end ElementWrapper
