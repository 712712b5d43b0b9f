/-!
Binary floating-point numbers with a mantissa of 53 bits, from zero upwards. Every operation is the
exact one on ratios of natural numbers, followed by `Double.ofRatio`, which rounds a ratio to the
nearest number, and to an even mantissa when two are equally near.
-/

namespace ElementWrapper

/-- A number that is not negative: a mantissa times a power of two, or more than all of them. -/
inductive Double where
  | finite (mantissa : Nat) (exponent : Int)
  | infinite
  deriving DecidableEq, Repr

namespace Double

/-- The number of bits of a mantissa. -/
def precision : Nat := 53

/-- The least exponent. -/
def leastExponent : Int := -1074

/-- The greatest exponent. -/
def greatestExponent : Int := 971

/-- Zero. -/
def zero : Double := .finite 0 leastExponent

/-- A power of a natural number. -/
def power (base exponent : Nat) : Nat := base.pow exponent

/-- A ratio times a power of two as a ratio. -/
def scale (exponent : Int) (num den : Nat) : Nat × Nat :=
  match exponent with
  | .ofNat e => (num * power 2 e, den)
  | .negSucc e => (num, den * power 2 (e + 1))

/-- The natural number nearest to a ratio, the even one of two. -/
def roundHalfEven (num den : Nat) : Nat :=
  let quotient := num / den
  let twice := 2 * (num % den)
  if twice < den then quotient
  else if den < twice then quotient + 1
  else quotient + quotient % 2

/-- The number nearest to a ratio. -/
def ofRatio (num den : Nat) : Double :=
  if num = 0 then zero
  else
    let guess : Int := (num.log2 : Int) - den.log2 - precision
    let fits (exponent : Int) : Bool :=
      let (num, den) := scale (-exponent) num den
      num / den < power 2 precision
    let exponent := if fits guess then guess else guess + 1
    let exponent := max exponent leastExponent
    let (num, den) := scale (-exponent) num den
    let mantissa := roundHalfEven num den
    let (mantissa, exponent) :=
      if mantissa = power 2 precision then (power 2 (precision - 1), exponent + 1)
      else (mantissa, exponent)
    if greatestExponent < exponent then .infinite else .finite mantissa exponent

/-- The ratio that a number is; what is more than all numbers has none. -/
def toRatio? : Double → Option (Nat × Nat)
  | finite mantissa exponent => some (scale exponent mantissa 1)
  | infinite => none

/-- The sum of two numbers. -/
def add (a b : Double) : Double :=
  match a.toRatio?, b.toRatio? with
  | some (n, d), some (m, e) => ofRatio (n * e + m * d) (d * e)
  | _, _ => .infinite

/-- The product of two numbers. -/
def mul (a b : Double) : Double :=
  match a.toRatio?, b.toRatio? with
  | some (n, d), some (m, e) => ofRatio (n * m) (d * e)
  | _, _ => .infinite

/-- The number nearest to digits times a power of ten. -/
def ofDecimal (digits : Nat) (exponent : Int) : Double :=
  let size := (Nat.toDigits 10 digits).length + exponent
  if digits = 0 || size < -400 then zero
  else if 400 < size then .infinite
  else match exponent with
    | .ofNat e => ofRatio (digits * power 10 e) 1
    | .negSucc e => ofRatio digits (power 10 (e + 1))

end Double

end ElementWrapper
