import ElementWrapper.Module.Node

/-!
The names that a module imports. An `ImportTable` keeps one binding for each local name: the last
one written, at the place of the first. Imports of types bind nothing.
-/

namespace ElementWrapper

/-- A local name bound by an import declaration. -/
structure ImportBinding where
  binding : Text
  source : Text
  imported : Text
  deriving DecidableEq, Repr

namespace ImportBinding

/-- The name under which a module exports its default. -/
def defaultName : Text := "default"

/-- The name that stands for a whole module. -/
def namespaceName : Text := "*"

/-- The binding of the default of a module. -/
def isDefault (b : ImportBinding) : Bool := b.imported = defaultName

/-- The binding of a whole module. -/
def isNamespace (b : ImportBinding) : Bool := b.imported = namespaceName

end ImportBinding

/-- The bindings of a module, one for each local name. -/
abbrev ImportTable := List ImportBinding

namespace ImportTable

/-- The table with a binding added, or put in place of the one with its name. -/
def insert (table : ImportTable) (b : ImportBinding) : ImportTable :=
  if table.any (·.binding = b.binding) then
    table.map fun old => if old.binding = b.binding then b else old
  else table ++ [b]

/-- The table of a sequence of bindings. -/
def ofBindings (bindings : List ImportBinding) : ImportTable := bindings.foldl insert []

/-- The binding of a local name. -/
def lookup (table : ImportTable) (name : Text) : Option ImportBinding :=
  table.find? (·.binding = name)

/-- A local name is bound to `imported` of one of the sources. -/
def isNamedImport (table : ImportTable) (name : Text) (sources : List Text) (imported : Text) :
    Bool :=
  match table.lookup name with
  | some b => b.imported = imported && sources.contains b.source
  | none => false

/-- The binding of a specifier of an import declaration. -/
def ofSpecifier? (source : Text) (specifier : Node) : Option ImportBinding :=
  match specifier.form with
  | .importDefault binding => some ⟨binding.name, source, ImportBinding.defaultName⟩
  | .importNamespace binding => some ⟨binding.name, source, ImportBinding.namespaceName⟩
  | .importSpecifier binding imported => some ⟨binding.name, source, imported.name⟩
  | _ => none

/-- The bindings of a statement. -/
def ofStatement (statement : Node) : List ImportBinding :=
  match statement.form with
  | .importDeclaration specifiers source false =>
    specifiers.filterMap (ofSpecifier? (source.stringValue?.getD []))
  | _ => []

/-- The table of the statements of a module. -/
def ofProgram (program : Node) : ImportTable :=
  ofBindings (program.statements.flatMap ofStatement)

end ImportTable

end ElementWrapper
