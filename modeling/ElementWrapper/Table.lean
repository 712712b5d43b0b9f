import ElementWrapper.Text.Basic

/-!
Tables from names to values in the order in which the names were first put in. Putting a name in
again changes its value and keeps its place.
-/

namespace ElementWrapper

/-- The entries of a table in order. -/
abbrev Table (α : Type) := List (Text × α)

namespace Table

variable {α : Type}

/-- The names of a table in order. -/
def names (table : Table α) : List Text := table.map (·.1)

/-- The value of a name. -/
def get? : Table α → Text → Option α
  | [], _ => none
  | (key, value) :: rest, name => if key = name then some value else get? rest name

/-- The table with a new value for a name, which keeps its place or is added at the end. -/
def put (name : Text) (value : α) : Table α → Table α
  | [] => [(name, value)]
  | (key, old) :: rest =>
    if key = name then (key, value) :: rest else (key, old) :: put name value rest

/-- The table of a list of names with values, where a later value of a name replaces the earlier. -/
def ofList (entries : List (Text × α)) : Table α :=
  entries.foldl (fun table entry => table.put entry.1 entry.2) []

theorem names_put (name : Text) (value : α) (table : Table α) :
    (table.put name value).names =
      if name ∈ table.names then table.names else table.names ++ [name] := by
  induction table with
  | nil => simp [put, names]
  | cons entry rest ih =>
    simp only [names] at ih
    grind [put, names]

theorem get?_put (name other : Text) (value : α) (table : Table α) :
    (table.put name value).get? other = if other = name then some value else table.get? other := by
  induction table with
  | nil => grind [put, get?]
  | cons entry rest ih => grind [put, get?]

end Table

end ElementWrapper
