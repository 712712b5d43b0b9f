/-!
What the rules of the grammar ask of each other. Rules call one another in cycles, and every cycle
goes through a `Goal`. A goal is plain data: what was read for it at a place of the text can be kept
and looked up when another rule asks for the same goal at the same place.
-/

namespace ElementWrapper.Source

/-- How an expression is bounded by the place it stands in. -/
structure Context where
  /-- A statement may end after the expression, so that a new line can end it. -/
  ends : Bool := false
  /-- The word `in` is an operator. -/
  operatorIn : Bool := true
  /-- A colon after parameters in brackets can only announce a type. -/
  returnTypes : Bool := true
  /-- A type argument list after the expression belongs to the class that extends it. -/
  heritage : Bool := false
  deriving DecidableEq

/-- A construct that rules refer to. -/
inductive Goal where
  | statement
  | block (inExpression : Bool)
  | expression (context : Context) (level : Nat)
  | leftHand
  | pattern
  | type (ends : Bool)
  | primaryType (ends : Bool)
  | classBody
  deriving DecidableEq

end ElementWrapper.Source
