import ElementWrapper.Proofs.Harvest.Findings
import ElementWrapper.Proofs.Source.Bodies

/-!
The names in the import and the export clauses of a source text, and what becomes of them when the
text is read. `Tree.importNames` and `Tree.exportNames` find the names in the concrete tree of a
statement.
-/

namespace ElementWrapper.Source

open Literal (EscapeError cook)

/-! ## Names in a concrete tree -/

/-- What an import refers to in the other module: its default, all of it, or one of its names. -/
inductive Imported where
  | default
  | whole
  | named (name : Tree)

/-- A name that an import binds. -/
structure ImportName where
  binding : Tree
  imported : Imported
  source : Tree

/-- A name that an export clause exports. -/
structure ExportName where
  name : Tree
  exported : Tree
  source : Option Tree

namespace Tree

/-- The two names of a specifier, which may be the same; a specifier for a type has none. -/
def specifierNames? (kind : String) (tree : Tree) : Option (Tree × Tree) :=
  if tree.kind ≠ kind ∨ tree.hasToken "type" then none
  else (tree.child? "name").map fun name => (name, (tree.child? "alias").getD name)

/-- The names that a part of an import binds. -/
def partNames (source part : Tree) : List ImportName :=
  match part.kind with
  | "identifier" => [⟨part, .default, source⟩]
  | "namespace_import" => (part.operands.take 1).map fun name => ⟨name, .whole, source⟩
  | "named_imports" => part.namedChildren.filterMap fun specifier =>
    (specifier.specifierNames? "import_specifier").map fun (name, binding) =>
      ⟨binding, .named name, source⟩
  | _ => []

/-- The names that an import of values binds. -/
def importNames (tree : Tree) : List ImportName :=
  if tree.kind ≠ "import_statement" ∨ tree.hasToken "type" ∨ tree.hasToken "typeof" then []
  else (tree.child? "source").toList.flatMap fun source =>
    (tree.namedChildren.filter (·.kind = "import_clause")).flatMap fun clause =>
      clause.namedChildren.flatMap (partNames source)

/-- An export that has a declaration or a default instead of a clause. -/
def exportsValue (tree : Tree) : Bool :=
  (tree.child? "declaration").isSome || tree.hasToken "default" && (tree.child? "value").isSome

/-- The names that an export of values exports. -/
def exportNames (tree : Tree) : List ExportName :=
  if tree.kind ≠ "export_statement" ∨ tree.exportsValue ∨ tree.hasToken "type" then []
  else (tree.namedChildren.find? (·.kind = "export_clause")).toList.flatMap fun clause =>
    clause.namedChildren.filterMap fun specifier =>
      (specifier.specifierNames? "export_specifier").map fun (name, exported) =>
        ⟨name, exported, tree.child? "source"⟩

/-- The names that the statements of a module import. -/
def allImports (root : Tree) : List ImportName := root.namedChildren.flatMap (·.importNames)

/-- The names that the statements of a module export. -/
def allExports (root : Tree) : List ExportName := root.namedChildren.flatMap (·.exportNames)

end Tree

namespace Document

variable (d : Document)

/-- The value of a string literal. -/
def stringValue (tree : Tree) : Text :=
  let spelling := d.text tree
  (cook ((spelling.drop 1).take (spelling.length - 2))).toOption.getD []

/-- The name that a reader keeps for a name: a string without its quotes, or else the text. -/
def keptName (tree : Tree) : Text :=
  if tree.kind = "string" then d.stringValue tree else d.text tree

/-- The binding that a reader keeps for an import. -/
def keptImport (i : ImportName) : ImportBinding where
  binding := d.text i.binding
  source := d.stringValue i.source
  imported := match i.imported with
    | .default => ImportBinding.defaultName
    | .whole => ImportBinding.namespaceName
    | .named name => d.keptName name

/-- The name of another module that an export of two names exports again: one of the module that it
names, or one that was imported before. -/
def reexportOf? (imports : ImportTable) (source : Option Text) (name exported : Text) :
    Option Reexport :=
  match source with
  | some source => some ⟨source, exported, name⟩
  | none => do
    let found ← imports.lookup name
    if found.isNamespace then none else some ⟨found.source, exported, found.imported⟩

/-- The name of another module that a reader lets an export export again. -/
def keptReexport? (imports : ImportTable) (e : ExportName) : Option Reexport :=
  reexportOf? imports (e.source.map d.stringValue) (d.keptName e.name) (d.keptName e.exported)

/-- The names of an export specifier. -/
def specifierPair? (specifier : Node) : Option (Text × Text) :=
  match specifier.form with
  | .exportSpecifier binding exported => some (binding.name, exported.name)
  | _ => none

variable {d} {tree : Tree}

/-! ## Reading names -/

theorem string_ensures : (d.string tree).Ensures fun node =>
    node.stringValue?.getD [] = d.stringValue tree := by
  intro node h
  obtain ⟨value, cooked, same⟩ := Except.bind_eq_ok.1 h
  obtain rfl := Except.pure_eq_ok.1 same
  rw [stringValue, cooked]
  rfl

theorem optionString_ensures (tree : Option Tree) : (tree.mapM d.string).Ensures fun node =>
    node.map (fun node => node.stringValue?.getD []) = tree.map d.stringValue := by
  cases tree with
  | none => exact .pure rfl
  | some tree => exact string_ensures.map fun node value => congrArg some value

theorem moduleName_ensures :
    (d.moduleName tree).Ensures fun node => node.name = d.keptName tree := by
  unfold moduleName keptName
  split
  · exact string_ensures.bind fun _ value => .pure value
  · exact .pure rfl

theorem reexport?_eq_bind (imports : ImportTable) (source : Option Node) (specifier : Node) :
    Harvest.reexport? imports source specifier =
      (specifierPair? specifier).bind fun (name, exported) =>
        reexportOf? imports (source.map fun node => node.stringValue?.getD []) name exported := by
  obtain ⟨_, _, form⟩ := specifier
  cases form <;> cases source <;> rfl

/-- A specifier of an export is read with its two names, and one for a type is left out. -/
theorem exportSpecifier_ensures : (d.exportSpecifier tree).Ensures fun nodes =>
    nodes.filterMap specifierPair? =
      ((tree.specifierNames? "export_specifier").map fun (name, exported) =>
        (d.keptName name, d.keptName exported)).toList := by
  unfold exportSpecifier Tree.specifierNames?
  split
  · exact .pure rfl
  cases tree.child? "name" with
  | none => exact .pure rfl
  | some name =>
    refine moduleName_ensures.bind fun binding hb => ?_
    have found {exported : Node} {other : Tree} (he : exported.name = d.keptName other) :
        [d.place tree (.exportSpecifier binding exported)].filterMap specifierPair? =
          [(d.keptName name, d.keptName other)] := by
      rw [← hb, ← he]
      rfl
    cases tree.child? "alias" with
    | none => exact .pure (found hb)
    | some other => exact moduleName_ensures.bind fun exported he => .pure (found he)

section

variable {source : Tree}

/-- A specifier of an import binds its name, and one for a type binds none. The name is no string,
so a reader keeps it as it is written. -/
theorem importSpecifier_ensures
    (written : ∀ i ∈ tree.specifierNames? "import_specifier", d.keptName i.2 = d.text i.2) :
    (d.importSpecifier tree).Ensures fun nodes =>
      nodes.filterMap (ImportTable.ofSpecifier? (d.stringValue source)) =
        ((tree.specifierNames? "import_specifier").map fun (name, binding) =>
          d.keptImport ⟨binding, .named name, source⟩).toList := by
  unfold importSpecifier
  unfold Tree.specifierNames? at written ⊢
  split
  · exact .pure rfl
  · next clear =>
    rw [if_neg clear] at written
    cases hn : tree.child? "name" with
    | none => exact .pure rfl
    | some name =>
      simp only [hn, Option.map_some, Option.mem_some_iff, forall_eq'] at written
      refine moduleName_ensures.bind fun imported hi => .pure ?_
      have found (binding : Text) :
          [d.place tree (.importSpecifier (.identifier binding) imported)].filterMap
            (ImportTable.ofSpecifier? (d.stringValue source)) =
          [⟨binding, d.stringValue source, d.keptName name⟩] := by
        rw [← hi]
        rfl
      cases ha : tree.child? "alias" with
      | none =>
        rw [ha, Option.getD_none] at written
        refine (found _).trans ?_
        rw [hi, written]
        simp [keptImport, written]
      | some other => exact found _

/-- The bindings of a part of an import. -/
theorem importPart_ensures
    (written : ∀ i ∈ Tree.partNames source tree, d.keptName i.binding = d.text i.binding) :
    (d.importPart tree).Ensures fun nodes =>
      nodes.filterMap (ImportTable.ofSpecifier? (d.stringValue source)) =
        (Tree.partNames source tree).map d.keptImport := by
  unfold importPart
  unfold Tree.partNames at written ⊢
  by_cases default : tree.kind = "identifier"
  · rw [default]
    exact .pure rfl
  by_cases whole : tree.kind = "namespace_import"
  · rw [whole]
    refine .pure ?_
    cases tree.operands <;> rfl
  by_cases named : tree.kind = "named_imports"
  · rw [named] at written ⊢
    have each : ∀ specifier ∈ tree.namedChildren, (d.importSpecifier specifier).Ensures fun nodes =>
        nodes.filterMap (ImportTable.ofSpecifier? (d.stringValue source)) =
          ((specifier.specifierNames? "import_specifier").map fun (name, binding) =>
            d.keptImport ⟨binding, .named name, source⟩).toList := by
      refine fun specifier mem => importSpecifier_ensures fun names found => ?_
      exact written _ (List.mem_filterMap.2 ⟨specifier, mem, by rw [found]; rfl⟩)
    refine (Except.Ensures.flatMap_mapM each).bind fun nodes kept => .pure ?_
    change _ = List.map d.keptImport (tree.namedChildren.filterMap _)
    rw [List.filterMap_flatten, ← List.flatMap_def, kept, List.filterMap_eq_flatMap_toList,
      List.map_flatMap]
    refine List.flatMap_congr fun specifier _ => ?_
    cases specifier.specifierNames? "import_specifier" <;> rfl
  · split
    · exact absurd ‹_› default
    · exact absurd ‹_› whole
    · exact absurd ‹_› named
    · exact .pure (by simp)

end

/-! ## Reading statements -/

section

variable {read : Tree → Except EscapeError Node}

/-- A node that imports nothing and exports nothing by name. -/
structure IsInert (node : Node) : Prop where
  imports : ImportTable.ofStatement node = []
  exports : ∀ imports parent, Harvest.reexports imports ⟨node, parent⟩ = []

/-- What a node imports and exports is what a reader keeps of the names of its tree. -/
structure Keeps (d : Document) (tree : Tree) (node : Node) : Prop where
  imports : ImportTable.ofStatement node = tree.importNames.map d.keptImport
  exports : ∀ imports parent, Harvest.reexports imports ⟨node, parent⟩ =
    tree.exportNames.filterMap (d.keptReexport? imports)

theorem inert_raw : (d.raw read tree).Ensures IsInert :=
  Except.Ensures.bind_of_forall fun _ => .pure ⟨rfl, fun _ _ => rfl⟩

theorem IsInert.keeps {node : Node} (h : IsInert node) (imports : tree.importNames = [])
    (exports : tree.exportNames = []) : Keeps d tree node :=
  ⟨by rw [h.imports, imports]; rfl, fun _ _ => by rw [h.exports, exports]; rfl⟩

/-- What an import binds is what a reader keeps of the names in its clauses. -/
theorem keeps_importStatement (kind : tree.kind = "import_statement")
    (written : ∀ i ∈ tree.importNames, d.keptName i.binding = d.text i.binding) :
    (d.importStatement read tree).Ensures (Keeps d tree) := by
  have noExports : tree.exportNames = [] := by simp [Tree.exportNames, kind]
  unfold importStatement
  cases hs : tree.child? "source" with
  | none =>
    have noImports : tree.importNames = [] := by simp [Tree.importNames, hs]
    exact fun node h => (inert_raw node h).keeps noImports noExports
  | some source =>
    cases types : tree.hasToken "type" || tree.hasToken "typeof" with
    | true =>
      have noImports : tree.importNames = [] := by
        rw [Bool.or_eq_true] at types
        rw [Tree.importNames, if_pos (.inr types)]
      refine .bind_of_forall fun _ => .bind_of_forall fun _ => .pure ?_
      exact IsInert.keeps ⟨rfl, fun _ _ => rfl⟩ noImports noExports
    | false =>
      let parts := ((tree.namedChildren.filter (·.kind = "import_clause")).map
        (·.namedChildren)).flatten
      have names : tree.importNames = parts.flatMap (Tree.partNames source) := by
        obtain ⟨value, typeOf⟩ := Bool.or_eq_false_iff.1 types
        rw [Tree.importNames, if_neg (by simp [kind, value, typeOf]), hs]
        simp [parts, List.flatMap_def, List.flatten_flatten, Function.comp_def]
      have each : ∀ part ∈ parts, (d.importPart part).Ensures fun nodes =>
          nodes.filterMap (ImportTable.ofSpecifier? (d.stringValue source)) =
            (Tree.partNames source part).map d.keptImport := fun part mem =>
        importPart_ensures fun i found =>
          written i (names ▸ List.mem_flatMap.2 ⟨part, mem, found⟩)
      refine (Except.Ensures.flatMap_mapM each).bind fun specifiers kept =>
        string_ensures.bind fun node value => .pure ⟨?_, fun _ _ => by rw [noExports]; rfl⟩
      change specifiers.flatten.filterMap (ImportTable.ofSpecifier? (node.stringValue?.getD [])) = _
      rw [value, List.filterMap_flatten, ← List.flatMap_def, kept, names, List.map_flatMap]

/-- What the specifiers of a clause export again is what a reader keeps of their names. -/
theorem filterMap_reexport? {clause : Tree} {source : Option Tree} {node : Option Node}
    {specifiers : List (List Node)}
    (value : node.map (fun node => node.stringValue?.getD []) = source.map d.stringValue)
    (kept : specifiers.flatMap (·.filterMap specifierPair?) =
      clause.namedChildren.flatMap fun specifier =>
        ((specifier.specifierNames? "export_specifier").map fun (name, exported) =>
          (d.keptName name, d.keptName exported)).toList)
    (imports : ImportTable) :
    specifiers.flatten.filterMap (Harvest.reexport? imports node) =
      (clause.namedChildren.filterMap fun specifier =>
        (specifier.specifierNames? "export_specifier").map fun (name, exported) =>
          ⟨name, exported, source⟩).filterMap (d.keptReexport? imports) := by
  simp only [funext (reexport?_eq_bind imports node), value]
  rw [← List.filterMap_filterMap, List.filterMap_flatten, ← List.flatMap_def, kept,
    List.filterMap_filterMap, List.filterMap_flatMap, List.filterMap_eq_flatMap_toList]
  refine List.flatMap_congr fun specifier _ => ?_
  cases specifier.specifierNames? "export_specifier" with
  | none => rfl
  | some pair =>
    simp only [Option.map_some, Option.toList_some, Option.bind_some]
    exact List.filterMap_cons .. |>.trans (by
      simp only [keptReexport?, List.filterMap_nil]
      cases reexportOf? imports _ _ _ <;> rfl)

theorem exportsValue_eq_false (undeclared : tree.child? "declaration" = none)
    (noValue : ∀ value, tree.hasToken "default" = true → tree.child? "value" = some value → False) :
    tree.exportsValue = false := by
  rw [Tree.exportsValue, undeclared, Option.isSome_none, Bool.false_or]
  cases found : tree.child? "value" with
  | none => exact Bool.and_false _
  | some value =>
    rw [Option.isSome_some, Bool.and_true]
    exact Bool.eq_false_iff.2 fun default => noValue value default found

/-- What an export of other modules exports again is what a reader keeps of the names in its clause,
and it binds nothing. A declaration, a default and a whole module beside the keyword export no name
of another module. -/
theorem keeps_exportStatement (kind : tree.kind = "export_statement") :
    (d.exportStatement read tree).Ensures (Keeps d tree) := by
  have noImports : tree.importNames = [] := by simp [Tree.importNames, kind]
  refine .bind_of_forall fun _ => ?_
  dsimp only
  split
  · next declaration found =>
    have noExports : tree.exportNames = [] := by simp [Tree.exportNames, Tree.exportsValue, found]
    refine .bind_of_forall fun _ => ?_
    split <;> exact .pure (IsInert.keeps ⟨rfl, fun _ _ => rfl⟩ noImports noExports)
  · next undeclared =>
    split
    · next value default found =>
      have noExports : tree.exportNames = [] := by
        simp [Tree.exportNames, Tree.exportsValue, found, default]
      exact .bind_of_forall fun _ => .pure (IsInert.keeps ⟨rfl, fun _ _ => rfl⟩ noImports noExports)
    · next noValue =>
      split
      · next none =>
        have noExports : tree.exportNames = [] := by simp [Tree.exportNames, none]
        exact fun node h => (inert_raw node h).keeps noImports noExports
      · next clause found =>
        refine (Except.Ensures.flatMap_mapM fun _ _ => exportSpecifier_ensures).bind
          fun specifiers kept => ?_
        refine (optionString_ensures (tree.child? "source")).bind fun source value => .pure ?_
        refine ⟨by rw [noImports]; rfl, fun imports parent => ?_⟩
        cases types : tree.hasToken "type" with
        | true =>
          have noExports : tree.exportNames = [] := by simp [Tree.exportNames, types]
          rw [noExports]
          rfl
        | false =>
          have noDefault := exportsValue_eq_false undeclared noValue
          rw [Tree.exportNames, if_neg (by simp [kind, types, noDefault]), found,
            Option.toList_some, List.flatMap_singleton]
          exact filterMap_reexport? value kept imports

/-! ### Other constructs -/

theorem inert_place {form : Form Node} (h : IsInert (.of form)) :
    Except.Ensures (pure (d.place tree form) : Except EscapeError Node) IsInert :=
  .pure ⟨h.imports, h.exports⟩

/-- Whatever is neither an import nor an export is read as a node of another form. -/
theorem inert_construct (notImport : tree.kind ≠ "import_statement")
    (notExport : tree.kind ≠ "export_statement") : (d.construct read tree).Ensures IsInert := by
  unfold construct
  split
  all_goals first
    | exact absurd ‹_› notImport
    | exact absurd ‹_› notExport
    | unfold classDeclaration
    | unfold method
    | unfold classField
    | unfold decorator
    | unfold block
    | unfold returnStatement
    | unfold expressionStatement
    | unfold variableDeclaration
    | unfold declarator
    | unfold call
    | unfold access
    | unfold assignment
    | unfold object
    | unfold string
    | unfold template
    | skip
  -- What the parts are read as does not matter, nor which parts there are.
  all_goals repeat' first
    | exact inert_place ⟨rfl, fun _ _ => rfl⟩
    | exact inert_raw
    | refine .bind_of_forall fun _ => ?_
    | split

/-- What a statement imports and exports is what a reader keeps of its names. -/
theorem keeps_read (written : ∀ i ∈ tree.importNames, d.keptName i.binding = d.text i.binding) :
    (d.read tree).Ensures (Keeps d tree) := by
  obtain ⟨levels, height⟩ : ∃ levels, tree.height = levels + 1 := by
    cases tree
    exact ⟨_, rfl⟩
  rw [Document.read, height, readWithin]
  by_cases imports : tree.kind = "import_statement"
  · rw [construct.eq_def, imports]
    exact keeps_importStatement imports written
  · by_cases exports : tree.kind = "export_statement"
    · rw [construct.eq_def, exports]
      exact keeps_exportStatement exports
    · have noImports : tree.importNames = [] := by simp [Tree.importNames, imports]
      have noExports : tree.exportNames = [] := by simp [Tree.exportNames, exports]
      exact fun node h => (inert_construct imports exports node h).keeps noImports noExports

end

/-! ## Reading a module -/

theorem ofStatement_shareComments (comments : List Comment) (node : Node) :
    ImportTable.ofStatement (Item.shareComments (Item.commented comments node)) =
      ImportTable.ofStatement node := by
  obtain ⟨_, _, form⟩ := node
  cases form <;> rfl

theorem reexports_shareComments (comments : List Comment) (node : Node) (imports : ImportTable)
    (parent : Option Node) :
    Harvest.reexports imports ⟨Item.shareComments (Item.commented comments node), parent⟩ =
      Harvest.reexports imports ⟨node, parent⟩ := by
  obtain ⟨_, _, form⟩ := node
  cases form with
  | exportNamed _ _ _ typeOnly => cases typeOnly <;> rfl
  | _ => rfl

/-- What is gathered from the statements is gathered from their items, if comments make no
difference to it. -/
theorem flatMap_statements {α : Type} {f : Node → List α}
    (same : ∀ comments node, f (Item.shareComments (Item.commented comments node)) = f node)
    (comments : List Comment) (items : List Item) :
    (Item.statements comments items).flatMap f =
      items.flatMap fun item => item.statement?.toList.flatMap f := by
  induction items generalizing comments with
  | nil => rfl
  | cons item items ih =>
    cases item with
    | comment value => exact ih _
    | decorator node | member node =>
      rw [Item.statements, List.flatMap_cons, List.flatMap_cons, same, ih]
      simp [Item.statement?]

/-- What the items of a statement bind and export again is what a reader keeps of its names. -/
theorem keeps_item (written : ∀ i ∈ tree.importNames, d.keptName i.binding = d.text i.binding) :
    (d.item d.read tree).Ensures fun item =>
      item.statement?.toList.flatMap ImportTable.ofStatement =
        tree.importNames.map d.keptImport ∧
      ∀ imports parent,
        (item.statement?.toList.flatMap fun node => Harvest.reexports imports ⟨node, parent⟩) =
          tree.exportNames.filterMap (d.keptReexport? imports) := by
  unfold item
  split
  · next comment =>
    have kind : tree.kind = "comment" := of_decide_eq_true comment
    exact .pure ⟨by simp [Item.statement?, Tree.importNames, kind],
      by simp [Item.statement?, Tree.exportNames, kind]⟩
  · refine (keeps_read written).bind fun node kept => .pure ⟨?_, fun imports parent => ?_⟩
    · rw [← kept.imports]
      exact List.flatMap_singleton ..
    · rw [← kept.exports imports parent]
      exact List.flatMap_singleton ..

/-- **What a module imports and exports**, as a reader keeps it: the names in the clauses of its
statements. -/
theorem keeps_readProgram {root : Tree}
    (written : ∀ i ∈ root.allImports, d.keptName i.binding = d.text i.binding) :
    (d.readProgram root).Ensures fun program =>
      ImportTable.ofProgram program = ImportTable.ofBindings (root.allImports.map d.keptImport) ∧
      ∀ imports parent,
        (program.statements.flatMap fun node => Harvest.reexports imports ⟨node, parent⟩) =
          root.allExports.filterMap (d.keptReexport? imports) := by
  have each : ∀ tree ∈ root.namedChildren, _ := fun tree mem =>
    @keeps_item d tree fun i found =>
      written i (List.mem_flatMap.2 ⟨tree, mem, found⟩)
  intro program h
  obtain ⟨statements, read, same⟩ := Except.bind_eq_ok.1 h
  obtain rfl := Except.pure_eq_ok.1 same
  obtain ⟨items, itemized, same⟩ := Except.bind_eq_ok.1 read
  obtain rfl := Except.pure_eq_ok.1 same
  constructor
  · change ImportTable.ofBindings ((Item.statements [] items).flatMap ImportTable.ofStatement) = _
    rw [flatMap_statements ofStatement_shareComments, Tree.allImports, List.map_flatMap]
    exact congrArg _ (Except.Ensures.flatMap_mapM
      (fun tree mem item read => (each tree mem item read).1) items itemized)
  · intro imports parent
    change (Item.statements [] items).flatMap _ = _
    rw [flatMap_statements
        fun comments node => reexports_shareComments comments node imports parent,
      Tree.allExports, List.filterMap_flatMap]
    exact Except.Ensures.flatMap_mapM
      (fun tree mem item read => (each tree mem item read).2 imports parent) items itemized

end Document

end ElementWrapper.Source
