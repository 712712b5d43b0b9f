import ElementWrapper.Text.Digits

/-!
The cooked value of the body of a string literal or of a template. `cook` replaces every escape by
the code point that it stands for; an escape whose digits give no code point is an `EscapeError`.
-/

namespace ElementWrapper.Literal

/-- Why an escape stands for no code point. -/
inductive EscapeError where
  /-- The digits write no number. -/
  | digits
  /-- The brace after `\u` is never closed. -/
  | unclosed
  /-- The number lies outside the range of code points. -/
  | range
  /-- The number is too far outside to be kept in a machine word. -/
  | width
  deriving DecidableEq, Repr

/-- The character that a letter stands for after a backslash. -/
def letterEscape? : CodePoint → Option CodePoint
  | .scalar 'n' => some '\n'
  | .scalar 'r' => some '\r'
  | .scalar 't' => some '\t'
  | .scalar 'b' => some '\x08'
  | .scalar 'f' => some '\x0c'
  | .scalar 'v' => some '\x0b'
  | .scalar '0' => some '\x00'
  | _ => none

/-- The code point whose number is written by the digits of an escape. -/
def numericEscape (digits : Text) : Except EscapeError CodePoint :=
  match Text.readHex digits with
  | none => .error .digits
  | some n =>
    if n < -0x80000000 ∨ 0x7FFFFFFF < n then .error .width
    else match n with
      | .ofNat n => match CodePoint.ofNat? n with
        | some c => .ok c
        | none => .error .range
      | .negSucc _ => .error .range

/-- What is written after a backslash. -/
inductive Escape where
  /-- It stands for one code point. -/
  | plain (value : CodePoint)
  /-- It stands for the code point with a number. -/
  | numeric (digits : Text)
  /-- It continues the line and stands for nothing. -/
  | continuation
  /-- It opens a brace that is never closed. -/
  | unclosed

/-- The text that an escape stands for. -/
def Escape.value : Escape → Except EscapeError Text
  | plain c => .ok [c]
  | numeric digits => (fun c => [c]) <$> numericEscape digits
  | continuation => .ok []
  | unclosed => .error .unclosed

/-- The escape that a code point after a backslash begins, and what follows the escape. -/
def readEscape (c : CodePoint) (rest : Text) : Escape × Text :=
  match letterEscape? c with
  | some value => (.plain value, rest)
  | none =>
    match c, rest with
    | .scalar 'x', high :: low :: after => (.numeric [high, low], after)
    | .scalar 'u', .scalar '\x7b' :: after =>
      let digits := after.takeWhile (· ≠ .scalar '\x7d')
      match after.drop digits.length with
      | [] => (.unclosed, [])
      | _ :: after => (.numeric digits, after)
    | .scalar 'u', digits => (.numeric (digits.take 4), digits.drop 4)
    | .scalar '\n', after => (.continuation, after)
    | c, after => (.plain c, after)

theorem readEscape_shorter (c : CodePoint) (rest : Text) :
    (readEscape c rest).2.length ≤ rest.length := by
  unfold readEscape
  split
  · simp
  · split
    · simp; omega
    · next after _ _ =>
      simp only [List.length_cons]
      split
      · simp
      · next after' h =>
        have := congrArg List.length h
        simp at this
        simp; omega
    · simp
    · simp
    · simp

/-- The cooked value of a body. A backslash with nothing after it stands for itself. -/
def cook : Text → Except EscapeError Text
  | [] => .ok []
  | [c] => .ok [c]
  | .scalar '\\' :: c :: rest => do
    let value ← (readEscape c rest).1.value
    return value ++ (← cook (readEscape c rest).2)
  | c :: rest => do return c :: (← cook rest)
termination_by text => text.length
decreasing_by
  · have := readEscape_shorter c rest
    simp; omega
  · simp

end ElementWrapper.Literal
