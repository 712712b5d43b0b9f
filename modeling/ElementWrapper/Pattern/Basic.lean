import ElementWrapper.Text.Basic

/-!
Patterns of text and how they match. A `Pattern` is tried at a `Site`, a place in a text together
with the groups found so far; alternatives are tried in order and a match is the first way through.

`Pattern.run` takes what is to match afterwards as an argument, so that a choice made inside of a
pattern is taken back when the rest does not match.
-/

namespace ElementWrapper

/-- A place in a text: the code points before it, last first, those after it, and the texts of the
groups found so far. -/
structure Site where
  before : Text
  rest : Text
  groups : List (Nat × Text)

namespace Site

/-- The beginning of a text. -/
def start (text : Text) : Site := ⟨[], text, []⟩

/-- The text of a group. -/
def group? (s : Site) (index : Nat) : Option Text := s.groups.lookup index

/-- The site a number of code points further on. -/
def forward : Nat → Site → Site
  | 0, s => s
  | n + 1, s => match s.rest with
    | [] => s
    | c :: rest => forward n ⟨c :: s.before, rest, s.groups⟩

/-- The site a number of code points further back. -/
def back (n : Nat) (s : Site) : Site :=
  ⟨s.before.drop n, (s.before.take n).reverse ++ s.rest, s.groups⟩

/-- The text between an earlier site and this one. -/
def since (s earlier : Site) : Text :=
  (s.before.take (s.before.length - earlier.before.length)).reverse

end Site

/-- A pattern of text. -/
inductive Pattern where
  /-- Nothing. -/
  | empty
  /-- One code point of a class. -/
  | one (test : CodePoint → Bool)
  /-- A condition on the code points before and after the place. -/
  | edge (test : (before rest : Text) → Bool)
  | seq (first second : Pattern)
  | alt (first second : Pattern)
  /-- A part whose text is kept under a number. -/
  | group (index : Nat) (body : Pattern)
  /-- The text of a group once more, code points being compared by `same`. -/
  | again (index : Nat) (same : CodePoint → CodePoint → Bool)
  /-- A part repeated from `least` to `most` times, as often as possible or as seldom. -/
  | many (least : Nat) (most : Option Nat) (greedy : Bool) (body : Pattern)
  /-- A part for which only the first way to match counts. -/
  | atomic (body : Pattern)
  /-- A condition on what follows. -/
  | ahead (negated : Bool) (body : Pattern)
  /-- A condition on the `width` code points before. -/
  | behind (negated : Bool) (width : Nat) (body : Pattern)
  /-- One of two parts, depending on whether a group was found. -/
  | choice (index : Nat) (yes no : Pattern)

namespace Pattern

/-- A match goes on with what is to match afterwards. -/
abbrev Matcher := (Site → Option Site) → Site → Option Site

/-- A part repeated. A repetition that is not required and that matches nothing is the last one. -/
def iterate (body : Matcher) (greedy : Bool) (next : Site → Option Site) :
    (fuel least : Nat) → (most : Option Nat) → Site → Option Site
  | 0, _, _, s => next s
  | fuel + 1, least, most, s =>
    let onward (t : Site) : Option Site :=
      if least = 0 ∧ t.rest.length = s.rest.length then next t
      else iterate body greedy next fuel (least - 1) (most.map (· - 1)) t
    if 0 < least then body onward s
    else if most = some 0 then next s
    else if greedy then body onward s <|> next s
    else next s <|> body onward s

/-- The text at a site without a beginning that is compared by `same`. -/
def dropSame (same : CodePoint → CodePoint → Bool) : Text → Text → Bool
  | [], _ => true
  | _ :: _, [] => false
  | a :: as, b :: bs => same a b && dropSame same as bs

/-- The first way to match a pattern and then what follows. -/
def run : Pattern → Matcher
  | empty, next, s => next s
  | one test, next, s =>
    match s.rest with
    | c :: rest => if test c then next ⟨c :: s.before, rest, s.groups⟩ else none
    | [] => none
  | edge test, next, s => if test s.before s.rest then next s else none
  | seq first second, next, s => first.run (second.run next) s
  | alt first second, next, s => first.run next s <|> second.run next s
  | group index body, next, s =>
    body.run (fun t => next { t with groups := (index, t.since s) :: t.groups }) s
  | again index same, next, s =>
    match s.group? index with
    | some text => if dropSame same text s.rest then next (s.forward text.length) else none
    | none => none
  | many least most greedy body, next, s =>
    iterate body.run greedy next (least + s.rest.length + 2) least most s
  | atomic body, next, s => (body.run some s).bind next
  | ahead negated body, next, s =>
    match body.run some s, negated with
    | some t, false => next { s with groups := t.groups }
    | none, true => next s
    | _, _ => none
  | behind negated width body, next, s =>
    let found := if s.before.length < width then none else body.run some (s.back width)
    match found, negated with
    | some t, false => next { s with groups := t.groups }
    | none, true => next s
    | _, _ => none
  | choice index yes no, next, s =>
    if (s.group? index).isSome then yes.run next s else no.run next s

/-- The first place at or after a site where a pattern matches, and where the match ends. -/
def searchWithin (pattern : Pattern) : Nat → Site → Option (Site × Site)
  | 0, _ => none
  | fuel + 1, s =>
    match pattern.run some s with
    | some t => some (s, t)
    | none => if s.rest.isEmpty then none else searchWithin pattern fuel (s.forward 1)

/-- The first match in a text: the sites where it begins and ends. -/
def search (pattern : Pattern) (text : Text) : Option (Site × Site) :=
  searchWithin pattern (text.length + 1) (.start text)

end Pattern

end ElementWrapper
