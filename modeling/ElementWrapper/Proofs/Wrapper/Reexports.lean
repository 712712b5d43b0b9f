import ElementWrapper.Proofs.Harvest.Content
import ElementWrapper.Proofs.Wrapper.Statements

/-!
What a wrapper exports again. The statements in front of it denote the same names of the same
modules as those of the component module (`reexports_of_synthesize`). Between the two stands a table
by module and name, which loses nothing as long as no name is exported twice
(`ofTable_grouped`).
-/

namespace ElementWrapper

namespace Reexport

/-- The export of a name of a module that takes the place of another. -/
def relocate (move : Text → Text) (e : Reexport) : Reexport := { e with source := move e.source }

/-- What a statement exports again. -/
def ofStatement (statement : Node) : List Reexport :=
  match statement.form with
  | .exportNamed none specifiers (some source) false => specifiers.filterMap fun specifier =>
    match specifier.form with
    | .exportSpecifier binding exported =>
      some ⟨source.stringValue?.getD [], exported.name, binding.name⟩
    | _ => none
  | _ => []

/-- A statement that exports names of another module. -/
def IsReexport (statement : Node) : Prop :=
  ∃ specifiers source, statement.form = .exportNamed none specifiers (some source) false

/-- The module of which a statement exports names again. -/
def sourceOf? (statement : Node) : Option Text :=
  match statement.form with
  | .exportNamed none _ (some source) false => source.stringValue?
  | _ => none

/-- The name that an export specifier exports. -/
def exportedName? (specifier : Node) : Option Text :=
  match specifier.form with
  | .exportSpecifier _ exported => some exported.name
  | _ => none

/-- The names of the export specifiers of values. -/
def exportedNames (visit : Visit) : List Text :=
  match visit.node.form with
  | .exportNamed _ specifiers _ false => specifiers.filterMap exportedName?
  | _ => []

/-- The exports that a table by module and name stands for. -/
def ofTable (table : Table (Table Text)) : List Reexport :=
  table.flatMap fun entry => entry.2.map fun name => ⟨entry.1, name.1, name.2⟩

theorem names_of_nodup {exports : List Reexport} (distinct : (exports.map (·.exported)).Nodup) :
    names exports = exports.map fun e => (e.exported, e.imported) := by
  rw [names, ← Table.ofList_eq_latest]
  exact Table.ofList_of_nodup (by rwa [List.map_map])

/-- **Grouping loses nothing** as long as no name is exported twice. -/
theorem ofTable_grouped {exports : List Reexport}
    (distinct : (exports.map (·.exported)).Nodup) :
    ofTable (grouped exports) = (exports.map (·.source)).eraseDups.flatMap fun source =>
      exports.filter (·.source = source) := by
  rw [ofTable, grouped, List.flatMap_map]
  refine List.flatMap_congr fun source _ => ?_
  rw [names_of_nodup (distinct.sublist (List.filter_sublist.map _)), List.map_map]
  refine (List.map_congr_left fun e mem => ?_).trans (List.map_id _)
  obtain ⟨_, same⟩ := List.mem_filter.1 mem
  simp [← of_decide_eq_true same]

theorem mem_ofTable_grouped {exports : List Reexport}
    (distinct : (exports.map (·.exported)).Nodup) (e : Reexport) :
    e ∈ ofTable (grouped exports) ↔ e ∈ exports := by
  rw [ofTable_grouped distinct]
  simp only [List.mem_flatMap, List.mem_eraseDups, List.mem_filter, decide_eq_true_eq]
  constructor
  · rintro ⟨_, _, mem, _⟩
    exact mem
  · intro mem
    exact ⟨e.source, List.mem_map_of_mem mem, mem, rfl⟩

/-- A specifier is exported again under the name that it exports. -/
theorem exportedName?_of_reexport? {imports : ImportTable} {source : Option Node}
    {specifier : Node} {e : Reexport} (h : Harvest.reexport? imports source specifier = some e) :
    exportedName? specifier = some e.exported := by
  obtain ⟨_, _, form⟩ := specifier
  cases form with
  | exportSpecifier binding exported =>
    cases source with
    | some source =>
      cases h
      rfl
    | none =>
      obtain ⟨found, _, h⟩ := Option.bind_eq_some_iff.1 h
      split at h <;> cases h
      rfl
  | _ => cases h

/-- Some specifiers are exported again, in their order; those that refer to no other module are
not. -/
theorem exported_specifiers_sublist (imports : ImportTable) (source : Option Node)
    (specifiers : List Node) :
    ((specifiers.filterMap (Harvest.reexport? imports source)).map (·.exported)).Sublist
      (specifiers.filterMap exportedName?) := by
  induction specifiers with
  | nil => exact .slnil
  | cons specifier specifiers ih =>
    cases h : Harvest.reexport? imports source specifier with
    | none =>
      rw [List.filterMap_cons_none h, ← List.singleton_append, List.filterMap_append]
      exact ih.trans (List.sublist_append_right _ _)
    | some e =>
      rw [List.filterMap_cons_some h, List.filterMap_cons_some (exportedName?_of_reexport? h)]
      exact ih.cons_cons _

/-- What is exported again takes its names from the export specifiers. -/
theorem exported_sublist (imports : ImportTable) (visits : List Visit) :
    ((visits.flatMap (Harvest.reexports imports)).map (·.exported)).Sublist
      (visits.flatMap exportedNames) := by
  induction visits with
  | nil => exact .slnil
  | cons visit visits ih =>
    rw [List.flatMap_cons, List.flatMap_cons, List.map_append]
    refine List.Sublist.append ?_ ih
    obtain ⟨⟨location, comments, form⟩, parent⟩ := visit
    cases form with
    | exportNamed declaration specifiers source typeOnly =>
      cases typeOnly with
      | true => exact .slnil
      | false => exact exported_specifiers_sublist imports source specifiers
    | _ => exact .slnil

/-! ## Statements -/

theorem ofStatement_exportFrom (names : List (Text × Text)) (source : Text) :
    ofStatement (Wrapper.exportFrom names source) =
      names.map fun (exported, imported) => ⟨source, exported, imported⟩ := by
  simp only [ofStatement, Wrapper.exportFrom, Node.of, Node.form, List.filterMap_map]
  rw [← List.filterMap_eq_map]
  rfl

theorem exportFrom_templateFree (names : List (Text × Text)) (source : Text) :
    TemplateFree (Wrapper.exportFrom names source) := by
  refine templateFree_of.2 ⟨rfl, fun child mem => ?_⟩
  simp only [Form.children, Option.toList, List.nil_append, List.mem_append, List.mem_map,
    List.mem_singleton] at mem
  rcases mem with ⟨⟨exported, imported⟩, -, rfl⟩ | rfl
  · simp [Form.isTemplate, Form.children]
  · exact templateFree_string source

theorem ofStatement_eq_nil {statement : Node} (h : ¬ IsReexport statement) :
    ofStatement statement = [] := by
  obtain ⟨location, comments, form⟩ := statement
  cases form with
  | exportNamed declaration specifiers source typeOnly =>
    match declaration, source, typeOnly with
    | none, some source, false => exact absurd ⟨specifiers, source, rfl⟩ h
    | some _, _, _ | none, none, _ | none, some _, true => rfl
  | _ => rfl

/-- Lowering makes no statement export anything again. -/
theorem not_isReexport_of_lower {statement result : Node}
    (h : Lowering.lower statement = .ok result) (plain : ¬ IsReexport statement) :
    ¬ IsReexport result := by
  rintro ⟨specifiers, source, hr⟩
  obtain ⟨location, comments, form⟩ := statement
  obtain ⟨quasis, expressions, rfl⟩ | ne := form.template_or_ne
  · obtain ⟨_, _, hf⟩ | ⟨_, _, hf⟩ := Lowering.isStringOrCall_of_lower h <;>
      rw [hf] at hr <;> cases hr
  · obtain rfl := Except.ok.inj ((Lowering.lower_of_ne ne (Lowering.lower_children h)).symm.trans h)
    cases form with
    | exportNamed declaration specifiers source typeOnly =>
      match declaration, source, typeOnly with
      | none, some source, false => exact plain ⟨specifiers, source, rfl⟩
      | some _, _, _ | none, none, _ | none, some _, true => cases hr
    | _ => cases hr

end Reexport

/-! ## The front and the rest -/

namespace Wrapper

open Reexport

variable {config : WrapperConfig} {m : Metadata}

/-- What the wrapper of an element exports of the element itself. -/
def exposed (config : WrapperConfig) (m : Metadata) (filename : Text) : List Reexport :=
  if m.elementName.isSome && config.upgradable then
    [{ source := Specifier.through config.elementPath config.start filename config.componentsRoot
         config.outputExtension
       exported := elementExport
       imported := ImportBinding.defaultName }]
  else []

/-- Before the wrapper itself stand the exports of other modules and the imports of the parent. -/
theorem preamble_eq : ∃ parents, preamble config m =
    (m.reexports.map fun entry =>
      exportFrom entry.2 (Specifier.relativeWithExtension entry.1 config.outputExtension)) ++
      parents ∧ ∀ statement ∈ parents, ∃ imported name source,
        statement = importOf [namedSpecifier imported name] source := by
  refine ⟨_, rfl, ?_⟩
  split
  · nofun
  · nofun
  · intro statement mem
    simp only [List.mem_cons, List.not_mem_nil, or_false] at mem
    obtain rfl | rfl := mem <;> exact ⟨_, _, _, rfl⟩

/-- Of the own statements only the first exports something of another module, the element, and only
if it is to be upgraded. -/
theorem ownBody_eq (filename : Text) (serializers : List Text) (descriptor checks : Node) :
    ∃ others, ownBody config m filename serializers descriptor checks =
      (exposed config m filename).map (fun e => exportFrom [(e.exported, e.imported)] e.source) ++
        others ∧ ∀ statement ∈ others, ¬ IsReexport statement := by
  cases name : m.elementName with
  | some name =>
    simp only [ownBody, name, elementBody, List.append_assoc]
    refine ⟨_, congrArg₂ (· ++ ·) ?_ rfl, ?_⟩
    · cases up : config.upgradable <;> simp [exposed, name, up]
    · intro statement mem
      simp only [metadataExports, List.mem_append, List.mem_cons, List.mem_map, List.not_mem_nil,
        or_false] at mem
      obtain (rfl | rfl) | ⟨_, _, rfl⟩ | ⟨_, _, rfl⟩ | (rfl | rfl) | rfl | rfl | rfl := mem <;>
        rintro ⟨_, _, ⟨⟩⟩
  | none =>
    refine ⟨_, by simp only [exposed, name]; rfl, ?_⟩
    intro statement mem
    cases hc : m.className with
    | none => simp [name, hc] at mem
    | some =>
      simp only [name, hc, abstractBody, metadataExports, List.mem_append, List.mem_cons,
        List.mem_ite_nil_left, List.not_mem_nil, or_false] at mem
      obtain (⟨_, rfl⟩ | ⟨_, rfl⟩) | rfl | rfl := mem <;> rintro ⟨_, _, ⟨⟩⟩

/-! ## The whole -/

theorem settle_exportFrom (names : List (Text × Text)) (source : Text) :
    settle config (exportFrom names source) = exportFrom names source :=
  settle_of_templateFree (exportFrom_templateFree names source)

/-- Settling makes no statement export something again. -/
theorem flatMap_ofStatement_settle {statements : List Node}
    (kept : config.templates = .concat →
      ∀ statement ∈ statements, Lowering.lower statement = .ok (Lowering.lowered statement))
    (h : ∀ statement ∈ statements, ¬ IsReexport statement) :
    (statements.map (settle config)).flatMap ofStatement = [] := by
  rw [List.flatMap_map, List.flatMap_eq_nil_iff]
  intro statement mem
  apply ofStatement_eq_nil
  cases ht : config.templates with
  | concat =>
    rw [settle, ht]
    exact not_isReexport_of_lower (kept ht statement mem) (h statement mem)
  | preserve =>
    rw [settle, ht]
    exact h statement mem

/-- The statements of a wrapper are the exports of other modules, by module, and statements that
export nothing again but the element. -/
theorem synthesize_eq_front {filename : Text} {wrapper : Node}
    (h : synthesize config m filename = .ok wrapper) :
    ∃ rest, wrapper.statements =
      (m.reexports.map fun entry =>
        exportFrom entry.2 (Specifier.relativeWithExtension entry.1 config.outputExtension)) ++
        rest ∧
      rest.flatMap ofStatement =
        exposed config m (if filename.isEmpty then m.filename else filename) := by
  obtain ⟨statements, hb, hs, kept⟩ := synthesize_eq_ok h
  obtain ⟨entries, serializers, checks, _, _, rfl⟩ := body_eq_ok hb
  obtain ⟨parents, hp, imports⟩ := @preamble_eq config m
  have np : ∀ statement ∈ parents, ¬ IsReexport statement := by
    intro statement mem
    obtain ⟨_, _, _, rfl⟩ := imports statement mem
    rintro ⟨_, _, ⟨⟩⟩
  obtain ⟨others, ho, no⟩ := @ownBody_eq config m
    (if filename.isEmpty then m.filename else filename) serializers
    (inherited m parentDescriptor (object (entries ++ eventEntries m.events)))
    (inherited m parentChecks (object (checks ++ eventChecks m.events)))
  rw [hp, ho, List.append_assoc] at hs kept
  refine ⟨_, hs.trans (List.map_append.trans (congrArg (· ++ _) ?_)), ?_⟩
  · rw [List.map_map]
    exact List.map_congr_left fun entry _ => settle_exportFrom _ _
  · have keptParents := fun concat statement mem =>
      kept concat statement (List.mem_append_right _ (List.mem_append_left _ mem))
    have keptOthers := fun concat statement mem =>
      kept concat statement
        (List.mem_append_right _ (List.mem_append_right _ (List.mem_append_right _ mem)))
    rw [List.map_append, List.map_append, List.flatMap_append, List.flatMap_append,
      flatMap_ofStatement_settle keptParents np, flatMap_ofStatement_settle keptOthers no,
      List.map_map, List.nil_append, List.append_nil]
    simp [Function.comp_def, settle_exportFrom, List.flatMap_map, ofStatement_exportFrom]

end Wrapper

open Reexport Wrapper

/-- **A wrapper exports again what its component exports again**, as long as no name is exported
twice: the statements in front denote the same names of the same modules, one statement for each
module in the order in which the modules are met. The other statements export nothing again but the
element. -/
theorem reexports_of_synthesize {config : WrapperConfig} {file filename : Text}
    {program wrapper : Node} {m : Metadata}
    (distinct : (program.visits.flatMap exportedNames).Nodup)
    (hm : harvest config file program = .ok m)
    (hw : synthesize config m filename = .ok wrapper) :
    let exports := program.visits.flatMap (Harvest.reexports (ImportTable.ofProgram program))
    let moved (source : Text) := Specifier.relativeWithExtension source config.outputExtension
    ∃ front rest, wrapper.statements = front ++ rest ∧
      (∀ e, e ∈ front.flatMap ofStatement ↔ e ∈ exports.map (relocate moved)) ∧
      front.map sourceOf? = (exports.map (·.source)).eraseDups.map (some ∘ moved) ∧
      rest.flatMap ofStatement =
        exposed config m (if filename.isEmpty then m.filename else filename) := by
  intro exports moved
  have content : m.reexports = grouped exports := by rw [(Harvest.content_of_harvest hm).1]; rfl
  have nodup : (exports.map (·.exported)).Nodup := distinct.sublist (exported_sublist _ _)
  obtain ⟨rest, hs, hr⟩ := synthesize_eq_front hw
  refine ⟨_, rest, hs, fun e => ?_, ?_, hr⟩
  · have front : (m.reexports.map fun entry => exportFrom entry.2 (moved entry.1)).flatMap
        ofStatement = (ofTable m.reexports).map (relocate moved) := by
      rw [ofTable, List.flatMap_map, List.map_flatMap]
      simp [ofStatement_exportFrom, relocate, Function.comp_def]
    rw [front, content, List.mem_map, List.mem_map]
    simp only [mem_ofTable_grouped nodup]
  · rw [content, grouped, List.map_map, List.map_map]
    rfl

/-- A module that exports a name of one module and the default of another. -/
def barrelModule : Node :=
  let specifier (name exported : Text) : Node :=
    .of (.exportSpecifier (.identifier name) (.identifier exported))
  .of (.program [
    .of (.importDeclaration [.of (.importDefault (.identifier "base"))] (.string "./base.ts")
      false),
    .of (.exportNamed none [specifier "base" "Base"] none false),
    .of (.exportNamed none [specifier "start" "begin"] (some (.string "./steps.ts")) false)])

/-- Names of two modules, one of them a default that is exported by name. -/
theorem reexports_barrelModule :
    ∃ m wrapper front rest, harvest {} "index.ts" barrelModule = .ok m ∧
      synthesize {} m "" = .ok wrapper ∧ wrapper.statements = front ++ rest ∧
      (⟨"./steps.js", "begin", "start"⟩ : Reexport) ∈ front.flatMap ofStatement ∧
      front.map sourceOf? = [some ("./base.js" : Text), some ("./steps.js" : Text)] := by
  have success : ∃ m wrapper, harvest {} "index.ts" barrelModule = .ok m ∧
      synthesize {} m "" = .ok wrapper := ⟨_, _, rfl, rfl⟩
  obtain ⟨m, wrapper, hm, hw⟩ := success
  have distinct : (barrelModule.visits.flatMap exportedNames).Nodup := by decide
  obtain ⟨front, rest, hs, mem, sources, _⟩ := reexports_of_synthesize distinct hm hw
  exact ⟨m, wrapper, front, rest, hm, hw, hs, (mem _).2 (by decide), sources.trans (by decide)⟩

end ElementWrapper
