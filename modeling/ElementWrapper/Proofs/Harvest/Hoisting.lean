import ElementWrapper.Proofs.Harvest.Content
import ElementWrapper.Proofs.Module.Recursion
import ElementWrapper.Wrapper

/-!
Where the imports of a module stand does not matter to its harvest. The table of imports is made
before the walk and from the import declarations alone (`ImportTable.ofProgram_eq`). The walk learns
nothing from them, so that it is the walk through the other statements (`walk_eq_others`). Both are
the same for two modules that differ only in how the imports lie between the other statements
(`harvest_of_rearranges`).
-/

namespace ElementWrapper

/-- A statement that imports something. -/
def Node.isImport (statement : Node) : Bool :=
  match statement.form with
  | .importDeclaration .. => true
  | _ => false

/-- A specifier of an import declaration whose names are identifiers. -/
inductive IsImportSpecifier : Node → Prop where
  | default {location comments binding} : binding.identifierName?.isSome →
    IsImportSpecifier (.mk location comments (.importDefault binding))
  | whole {location comments binding} : binding.identifierName?.isSome →
    IsImportSpecifier (.mk location comments (.importNamespace binding))
  | named {location comments binding imported} : binding.identifierName?.isSome →
    imported.identifierName?.isSome →
    IsImportSpecifier (.mk location comments (.importSpecifier binding imported))

/-- If a statement is an import declaration, it holds specifiers and a string for their source. -/
def IsPlainImport (statement : Node) : Prop :=
  ∀ specifiers source typeOnly, statement.form = .importDeclaration specifiers source typeOnly →
    (∀ specifier ∈ specifiers, IsImportSpecifier specifier) ∧ source.stringValue?.isSome

/-- Two programs whose statements are the same but for the places of the imports: the imports come
in one order, and so do the other statements. Where the program itself stands counts only if one of
its statements is a decorator. -/
structure Rearranges (p q : Node) : Prop where
  programs : (∃ body, p.form = .program body) ∧ ∃ body, q.form = .program body
  imports : p.statements.filter Node.isImport = q.statements.filter Node.isImport
  others : p.statements.filter (!·.isImport) = q.statements.filter (!·.isImport)
  location : (∃ statement ∈ p.statements, ∃ expression, statement.form = .decorator expression) →
    p.location = q.location

/-! ## The table of imports -/

theorem ImportTable.ofStatement_eq_nil {statement : Node} (h : statement.isImport = false) :
    ofStatement statement = [] := by
  obtain ⟨location, comments, form⟩ := statement
  cases form with
  | importDeclaration => cases h
  | _ => rfl

/-- Only the import declarations of a program go into its table of imports. -/
theorem ImportTable.ofProgram_eq (program : Node) :
    ofProgram program =
      ofBindings ((program.statements.filter Node.isImport).flatMap ofStatement) := by
  have kept (statements : List Node) :
      statements.flatMap ofStatement = (statements.filter Node.isImport).flatMap ofStatement := by
    induction statements with
    | nil => rfl
    | cons statement rest ih =>
      cases h : statement.isImport with
      | true => rw [List.filter_cons_of_pos h, List.flatMap_cons, List.flatMap_cons, ih]
      | false =>
        have other : ¬ statement.isImport = true := Bool.eq_false_iff.1 h
        rw [List.filter_cons_of_neg other, List.flatMap_cons, ofStatement_eq_nil h, ih]
        rfl
  rw [ofProgram, kept]

namespace Harvest

variable {config : WrapperConfig} {imports : ImportTable}

/-! ## Import declarations -/

/-- A tree without a node that a harvest takes notice of. -/
inductive Inert : Node → Prop where
  | mk {location comments form} :
    (∀ config imports m parent,
      step config imports m ⟨.mk location comments form, parent⟩ = .ok m) →
    (∀ child ∈ form.children, Inert child) → Inert (.mk location comments form)

/-- A walk through a node that is inert, and so through all below it, leaves the metadata as they
are. -/
theorem foldlM_of_inert {node : Node} (h : Inert node) (parent : Option Node) (m : Metadata) :
    (node.visitsBelow parent).foldlM (step config imports) m = .ok m := by
  induction h generalizing parent m with
  | @mk location comments form silent _ ih =>
    have below (children : List Node) (mem : ∀ child ∈ children, child ∈ form.children) :
        (children.flatMap fun child =>
          child.visitsBelow (some (.mk location comments form))).foldlM (step config imports) m =
            .ok m := by
      induction children with
      | nil => rfl
      | cons child rest ihr =>
        obtain ⟨first, others⟩ := List.forall_mem_cons.1 mem
        rw [List.flatMap_cons, List.foldlM_append, ih child first]
        exact ihr others
    rw [Node.visitsBelow_eq, List.foldlM_cons, silent]
    exact below form.children fun _ => id

theorem Inert.of_identifier {node : Node} (h : node.identifierName?.isSome) : Inert node := by
  obtain ⟨location, comments, form⟩ := node
  cases form with
  | identifier => exact .mk (fun _ _ _ _ => rfl) nofun
  | _ => cases h

theorem Inert.of_string {node : Node} (h : node.stringValue?.isSome) : Inert node := by
  obtain ⟨location, comments, form⟩ := node
  cases form with
  | string => exact .mk (fun _ _ _ _ => rfl) nofun
  | _ => cases h

/-- Nothing is learned from a specifier and the names in it. -/
theorem Inert.of_specifier {specifier : Node} (h : IsImportSpecifier specifier) :
    Inert specifier := by
  cases h with
  | default hb | whole hb =>
    refine .mk (fun _ _ _ _ => rfl) fun child mem => ?_
    rw [List.mem_singleton.1 mem]
    exact .of_identifier hb
  | named hb hi =>
    refine .mk (fun _ _ _ _ => rfl) fun child mem => ?_
    obtain rfl | mem := List.mem_cons.1 mem
    · exact .of_identifier hb
    · rw [List.mem_singleton.1 mem]
      exact .of_identifier hi

/-- Nothing is learned from an import declaration and what it holds. -/
theorem Inert.of_import {statement : Node} (h : statement.isImport)
    (plain : IsPlainImport statement) : Inert statement := by
  obtain ⟨location, comments, form⟩ := statement
  cases form with
  | importDeclaration specifiers source typeOnly =>
    obtain ⟨specifiers, source⟩ := plain _ _ _ rfl
    refine .mk (fun _ _ _ _ => rfl) fun child mem => ?_
    obtain mem | mem := List.mem_append.1 mem
    · exact .of_specifier (specifiers child mem)
    · rw [List.mem_singleton.1 mem]
      exact .of_string source
  | _ => cases h

/-! ## The program around a statement -/

/-- A property that stands beside the statements of a program is complained about, at the place of
the program. -/
theorem visitProperty_in_program {m : Metadata} {location : Option Location} {p : Node}
    {body arguments : List Node} (hp : p.form = .program body) :
    visitProperty m location (some p) arguments =
      (optionEntries arguments).foldlM addOption { location } >>= fun _ =>
        .error (.complaint targetMessage p.location) := by
  have key : (some p).bind propertyKey? = none := by
    rw [Option.bind_some, propertyKey?, hp]
  rw [visitProperty, key, propertyOf_def, bind_assoc]
  rfl

/-- Of the program above it a statement shows no trace, unless the statement is a decorator, which
is told the place of the program. -/
theorem step_in_program {m : Metadata} {statement p q : Node} {body other : List Node}
    (hp : p.form = .program body) (hq : q.form = .program other)
    (h : (∃ expression, statement.form = .decorator expression) → p.location = q.location) :
    step config imports m ⟨statement, some p⟩ = step config imports m ⟨statement, some q⟩ := by
  obtain ⟨location, comments, form⟩ := statement
  cases form with
  | decorator expression =>
    have place : p.location = q.location := h ⟨expression, rfl⟩
    change visitDecorator config imports m ⟨_, some p⟩ expression =
      visitDecorator config imports m ⟨_, some q⟩ expression
    simp only [visitDecorator, visitProperty_in_program hp, visitProperty_in_program hq, place]
  | classMethod key kind static computed decorators body =>
    cases kind <;> cases static <;> cases computed <;> rfl
  | classField key value static computed decorators =>
    cases static <;> cases computed <;> rfl
  | exportNamed declaration specifiers source typeOnly => cases typeOnly <;> rfl
  | _ => rfl

/-! ## The walk -/

/-- The walk through one statement of a program. -/
def walk (config : WrapperConfig) (imports : ImportTable) (program : Node) (m : Metadata)
    (statement : Node) : Except Failure Metadata :=
  (statement.visitsBelow (some program)).foldlM (step config imports) m

theorem walk_in_program {m : Metadata} {statement p q : Node} {body other : List Node}
    (hp : p.form = .program body) (hq : q.form = .program other)
    (h : (∃ expression, statement.form = .decorator expression) → p.location = q.location) :
    walk config imports p m statement = walk config imports q m statement := by
  rw [walk, walk, Node.visitsBelow_eq, Node.visitsBelow_eq, List.foldlM_cons, List.foldlM_cons,
    step_in_program hp hq h]

theorem foldlM_walk_congr {p q : Node} {statements : List Node}
    (h : ∀ statement ∈ statements, ∀ m,
      walk config imports p m statement = walk config imports q m statement) (m : Metadata) :
    statements.foldlM (walk config imports p) m = statements.foldlM (walk config imports q) m := by
  induction statements generalizing m with
  | nil => rfl
  | cons statement rest ih =>
    obtain ⟨first, others⟩ := List.forall_mem_cons.1 h
    rw [List.foldlM_cons, List.foldlM_cons, first]
    exact bind_congr (ih others)

/-- The harvest of a program is the walk through its statements, one after the other. -/
theorem harvest_eq_walk {p : Node} {body : List Node} (hp : p.form = .program body)
    (filename : Text) :
    harvest config filename p =
      p.statements.foldlM (walk config (ImportTable.ofProgram p) p) { filename } := by
  obtain ⟨location, comments, form⟩ := p
  obtain rfl : form = _ := hp
  have below (imports : ImportTable) (statements : List Node) (m : Metadata) :
      (statements.flatMap fun statement => statement.visitsBelow
        (some (.mk location comments (.program body)))).foldlM (step config imports) m =
      statements.foldlM (walk config imports (.mk location comments (.program body))) m := by
    induction statements generalizing m with
    | nil => rfl
    | cons statement rest ih =>
      rw [List.flatMap_cons, List.foldlM_append, List.foldlM_cons]
      exact bind_congr ih
  rw [harvest, Node.visits, Node.visitsBelow_eq, List.foldlM_cons]
  exact below _ body { filename }

/-- The walk through the statements is the walk through those that import nothing. -/
theorem walk_eq_others {p : Node} {statements : List Node}
    (plain : ∀ statement ∈ statements, IsPlainImport statement) (m : Metadata) :
    statements.foldlM (walk config imports p) m =
      (statements.filter (!·.isImport)).foldlM (walk config imports p) m := by
  induction statements generalizing m with
  | nil => rfl
  | cons statement rest ih =>
    obtain ⟨first, others⟩ := List.forall_mem_cons.1 plain
    cases h : statement.isImport with
    | true =>
      have silent : walk config imports p m statement = .ok m :=
        foldlM_of_inert (.of_import h first) (some p) m
      rw [List.filter_cons, h, List.foldlM_cons, silent]
      exact ih others m
    | false =>
      rw [List.filter_cons, h, List.foldlM_cons]
      exact bind_congr (ih others)

end Harvest

open Harvest

/-- **Imports are hoisted.** Two programs that differ only in how their imports lie between the
other statements have the same harvest, be it metadata or a failure, and so the same wrapper. -/
theorem harvest_of_rearranges {p q : Node} (h : Rearranges p q)
    (plain : ∀ statement ∈ p.statements, IsPlainImport statement) (config : WrapperConfig)
    (filename : Text) :
    harvest config filename p = harvest config filename q ∧
      ∀ target, (do synthesize config (← harvest config filename p) target) =
        (do synthesize config (← harvest config filename q) target) := by
  obtain ⟨⟨⟨body, hp⟩, ⟨other, hq⟩⟩, imports, others, location⟩ := h
  have plainOther : ∀ statement ∈ q.statements, IsPlainImport statement := by
    intro statement mem specifiers source typeOnly form
    -- An import of the one program is an import of the other.
    have isImport : statement.isImport := by rw [Node.isImport, form]
    have found : statement ∈ p.statements.filter Node.isImport := by
      rw [imports]
      exact List.mem_filter.2 ⟨mem, isImport⟩
    exact plain statement (List.mem_filter.1 found).1 specifiers source typeOnly form
  have table : ImportTable.ofProgram p = ImportTable.ofProgram q := by
    rw [ImportTable.ofProgram_eq, ImportTable.ofProgram_eq, imports]
  have same : harvest config filename p = harvest config filename q := by
    rw [harvest_eq_walk hp, harvest_eq_walk hq, walk_eq_others plain, walk_eq_others plainOther,
      ← others, table]
    refine foldlM_walk_congr (fun statement mem m => ?_) { filename }
    have stands : statement ∈ p.statements := (List.mem_filter.1 mem).1
    exact walk_in_program hp hq fun decorator => location ⟨statement, stands, decorator⟩
  exact ⟨same, fun target => by rw [same]⟩

/-- A module with imports after the exports that need them. -/
def scatteredModule (early late : List Node) : Node :=
  let specifier (name exported : Text) : Node :=
    .of (.exportSpecifier (.identifier name) (.identifier exported))
  .of (.program (early ++
    [.of (.exportNamed none [specifier "base" "Base", specifier "step" "Step"] none false)] ++
    late))

/-- An import of the default of a module. -/
def defaultImport (name source : Text) : Node :=
  .of (.importDeclaration [.of (.importDefault (.identifier name))] (.string source) false)

theorem isPlainImport_defaultImport (name source : Text) :
    IsPlainImport (defaultImport name source) := by
  rintro _ _ _ ⟨⟩
  refine ⟨fun specifier mem => ?_, rfl⟩
  rw [List.mem_singleton.1 mem]
  exact .default rfl

/-- The two imports lie before the exports in one module and on both sides of them in the other. -/
theorem harvest_scatteredModule :
    let base := defaultImport "base" "./base"
    let step := defaultImport "step" "./steps"
    ∃ m, harvest {} "index.ts" (scatteredModule [base, step] []) = .ok m ∧
      harvest {} "index.ts" (scatteredModule [base] [step]) = .ok m ∧
      m.reexports.names = [("./base" : Text), ("./steps" : Text)] := by
  intro base step
  have rearranges : Rearranges (scatteredModule [base, step] []) (scatteredModule [base] [step]) :=
    ⟨⟨⟨_, rfl⟩, ⟨_, rfl⟩⟩, rfl, rfl, fun _ => rfl⟩
  have plain : ∀ statement ∈ (scatteredModule [base, step] []).statements,
      IsPlainImport statement := by
    intro statement mem
    obtain rfl | rfl | rfl : statement = base ∨ statement = step ∨ statement = _ := by
      simpa [scatteredModule, Node.of, Node.statements] using mem
    · exact isPlainImport_defaultImport _ _
    · exact isPlainImport_defaultImport _ _
    · nofun
  have success : ∃ m, harvest {} "index.ts" (scatteredModule [base, step] []) = .ok m := ⟨_, rfl⟩
  obtain ⟨m, h⟩ := success
  have same := (harvest_of_rearranges rearranges plain {} "index.ts").1
  refine ⟨m, h, same.symm.trans h, ?_⟩
  cases h
  rfl

end ElementWrapper
