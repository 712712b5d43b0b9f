import ElementWrapper.Proofs.Module.Names
import ElementWrapper.Proofs.Wrapper.Settled

/-!
What a wrapper exports under which names.

The metadata of a module are exported just if a class of it has a name or a decorator names the
element (`exportedVariables_of_synthesize`): what a class without a name declares is dropped. The
names of the exports are distinct unless the default of another module is exported again beside an
element (`nodup_exportNames_iff`).
-/

namespace ElementWrapper

namespace Wrapper

variable {config : WrapperConfig} {m : Metadata}

/-! ## Exported variables -/

/-- The variable that a statement exports, with its value. -/
def exportedVariable? (statement : Node) : Option (Text × Node) :=
  match statement.form with
  | .exportNamed (some (.mk _ _ (.variables _ [.mk _ _ (.declarator id (some value))]))) _ _
      false => some (id.name, value)
  | _ => none

/-- The variables that a module exports, with their values. -/
def exportedVariables (program : Node) : List (Text × Node) :=
  program.statements.filterMap exportedVariable?

/-- A wrapper exports the metadata of its module: two objects that describe them, and nothing else
as a variable. What they are merged over comes from the module of the parent. -/
structure ExportsMetadata (config : WrapperConfig) (m : Metadata) (wrapper : Node) : Prop where
  objects : ∃ descriptor checks,
    exportedVariables wrapper = [(descriptorExport, descriptor), (checksExport, checks)] ∧
      Describes m parentDescriptor descriptor ∧ Describes m parentChecks checks
  parent : ∀ source, m.parentSource = some source → source ≠ [] →
    let moved := Specifier.relativeWithExtension source config.outputExtension
    importOf [namedSpecifier descriptorExport parentDescriptor] moved ∈ wrapper.statements ∧
      importOf [namedSpecifier checksExport parentChecks] moved ∈ wrapper.statements

theorem exportedVariable?_importOf (specifiers : List Node) (source : Text) :
    exportedVariable? (importOf specifiers source) = none := rfl

theorem exportedVariable?_exportFrom (names : List (Text × Text)) (source : Text) :
    exportedVariable? (exportFrom names source) = none := rfl

/-- What stands ahead of the own statements of a wrapper exports no variables. -/
theorem filterMap_exportedVariable?_preamble :
    (preamble config m).filterMap exportedVariable? = [] := by
  obtain ⟨parents, hp, imports⟩ := @preamble_eq config m
  rw [hp, List.filterMap_eq_nil_iff, List.forall_mem_append]
  constructor
  · intro statement mem
    obtain ⟨entry, -, rfl⟩ := List.mem_map.1 mem
    exact exportedVariable?_exportFrom _ _
  · intro statement mem
    obtain ⟨imported, name, source, rfl⟩ := imports statement mem
    exact exportedVariable?_importOf _ _

theorem filterMap_exportedVariable?_metadataExports (descriptor checks : Node) :
    (metadataExports descriptor checks).filterMap exportedVariable? =
      [(descriptorExport, descriptor), (checksExport, checks)] := rfl

/-- The own statements export two variables, the descriptor and the checks, whatever kind of wrapper
it is. -/
theorem filterMap_exportedVariable?_ownBody {filename : Text} {serializers : List Text}
    {descriptor checks : Node} (h : m.elementName.isSome ∨ m.className.isSome) :
    (ownBody config m filename serializers descriptor checks).filterMap exportedVariable? =
      [(descriptorExport, descriptor), (checksExport, checks)] := by
  cases he : m.elementName with
  | some name =>
    have imports : (config.settings.map fun s =>
        importOf [defaultSpecifier s.name] s.source).filterMap exportedVariable? = [] := by
      simp [exportedVariable?_importOf]
    have bindings : (config.settings.map fun s =>
        declare "var" s.binding (.memberNamed s.name s.field)).filterMap exportedVariable? =
          [] := by
      simp [List.filterMap_map, exportedVariable?, declare, Node.of, Node.form]
    simp only [ownBody, he, elementBody, List.filterMap_append, imports, bindings,
      filterMap_exportedVariable?_metadataExports]
    split <;> rfl
  | none =>
    obtain ⟨name, hc⟩ : ∃ name, m.className = some name := by
      simpa [he, Option.isSome_iff_exists] using h
    simp only [ownBody, he, hc, abstractBody, List.filterMap_append,
      filterMap_exportedVariable?_metadataExports]
    split <;> split <;> rfl

theorem mem_preamble_of_parentSource (config : WrapperConfig) {source : Text}
    (h : m.parentSource = some source) (ne : source ≠ []) :
    let moved := Specifier.relativeWithExtension source config.outputExtension
    importOf [namedSpecifier descriptorExport parentDescriptor] moved ∈ preamble config m ∧
      importOf [namedSpecifier checksExport parentChecks] moved ∈ preamble config m := by
  obtain ⟨first, rest, rfl⟩ := List.exists_cons_of_ne_nil ne
  simp [preamble, h]

end Wrapper

/-! ## The exports of a module with a class -/

namespace Harvest

variable {config : WrapperConfig}

/-- A class of the module has a name, or a decorator names the element. -/
def Names (config : WrapperConfig) (program : Node) : Prop :=
  ∃ visit ∈ program.visits, (className? visit).isSome ∨ (elementArguments? config visit).isSome

theorem isSome_lastOf {α : Type} (find : Visit → Option α) (visits : List Visit) :
    (lastOf find visits).isSome ↔ ∃ visit ∈ visits, (find visit).isSome := by
  rw [lastOf, Option.isSome_iff_ne_none, ne_eq, List.getLast?_eq_none_iff,
    List.filterMap_eq_nil_iff]
  simp [Option.isSome_iff_ne_none]

/-- A harvest has found an element or a class just if some visit names one. -/
theorem isSome_of_harvest {filename : Text} {program : Node} {m : Metadata}
    (h : harvest config filename program = .ok m) :
    m.elementName.isSome ∨ m.className.isSome ↔ Names config program := by
  obtain ⟨rfl, sound⟩ := content_of_harvest h
  have element : ((lastOf (elementArguments? config) program.visits).bind List.head?).isSome ↔
      ∃ visit ∈ program.visits, (elementArguments? config visit).isSome := by
    rw [← lastOf_elementArguments? sound, isSome_lastOf]
    refine exists_congr fun visit => and_congr_right fun mem => ?_
    cases found : elementArguments? config visit with
    | none => rfl
    | some arguments =>
      cases arguments with
      | nil => exact absurd found (sound visit mem).element
      | cons => rfl
  change (Option.isSome (Option.bind _ _) ∨ Option.isSome (lastOf _ _)) ↔ _
  rw [element, isSome_lastOf]
  constructor
  · rintro (⟨visit, mem, found⟩ | ⟨visit, mem, found⟩)
    · exact ⟨visit, mem, .inr found⟩
    · exact ⟨visit, mem, .inl found⟩
  · rintro ⟨visit, mem, found | found⟩
    · exact .inr ⟨visit, mem, found⟩
    · exact .inl ⟨visit, mem, found⟩

end Harvest

open Wrapper

/-- **Which metadata are exported**: those of a module in which a class has a name or a decorator
names the element. Otherwise nothing is exported as a variable, whatever the classes declare. -/
theorem exportedVariables_of_synthesize {config : WrapperConfig} {file filename : Text}
    {program wrapper : Node} {m : Metadata} (hm : harvest config file program = .ok m)
    (hw : synthesize config m filename = .ok wrapper) :
    (Harvest.Names config program → ExportsMetadata config m wrapper) ∧
      (¬ Harvest.Names config program → exportedVariables wrapper = []) := by
  obtain ⟨name, serializers, descriptor, checks, same, lists, statements⟩ :=
    synthesize_eq_settled hw
  have variables_eq : exportedVariables wrapper = (ownBody config { m with elementName := name }
      (if filename.isEmpty then m.filename else filename) serializers descriptor
      checks).filterMap exportedVariable? := by
    rw [exportedVariables, statements, List.filterMap_append, filterMap_exportedVariable?_preamble,
      List.nil_append]
  rw [variables_eq]
  constructor
  · intro named
    have described := (Harvest.isSome_of_harvest hm).2 named
    have describes := (lists described).imp Lists.describes Lists.describes
    refine ⟨⟨descriptor, checks, ?_, describes⟩, fun source hs ne => ?_⟩
    · rw [variables_eq]
      exact filterMap_exportedVariable?_ownBody (same ▸ described)
    · rw [statements]
      obtain ⟨first, second⟩ := mem_preamble_of_parentSource config hs ne
      exact ⟨List.mem_append_left _ first, List.mem_append_left _ second⟩
  · intro nameless
    rw [← Harvest.isSome_of_harvest hm, ← same, not_or, Option.not_isSome_iff_eq_none,
      Option.not_isSome_iff_eq_none] at nameless
    obtain ⟨rfl, noClass⟩ := nameless
    simp only [ownBody, noClass]
    rfl

/-- A module whose class has a property and no name. -/
def namelessModule : Node :=
  .of (.program [
    .of (.importDeclaration
      [.of (.importSpecifier (.identifier "property") (.identifier "property"))]
      (.string "lit-element") false),
    .of (.exportDefault (.of (.classDeclaration none (some (.identifier "Base")) []
      [.of (.classField (.identifier "open") none false false
        [.of (.decorator (.of (.call (.identifier "property") [])))])])))])

/-- The class has a property but no name, and the wrapper exports nothing. -/
theorem exportedVariables_namelessModule :
    ∃ m wrapper, harvest {} "panel.ts" namelessModule = .ok m ∧ synthesize {} m "" = .ok wrapper ∧
      m.properties.names = [("open" : Text)] ∧ exportedVariables wrapper = [] := by
  have success : ∃ m wrapper, harvest {} "panel.ts" namelessModule = .ok m ∧
      synthesize {} m "" = .ok wrapper := ⟨_, _, rfl, rfl⟩
  obtain ⟨m, wrapper, hm, hw⟩ := success
  have nameless : ¬ Harvest.Names {} namelessModule := by
    rintro ⟨visit, mem, found⟩
    revert visit
    decide
  refine ⟨m, wrapper, hm, hw, ?_, (exportedVariables_of_synthesize hm hw).2 nameless⟩
  cases hm
  rfl

/-! ## The names of exports -/

namespace Reexport

/-- Exports with different names keep them when they are grouped by their sources. -/
theorem nodup_ofTable_grouped {exports : List Reexport}
    (distinct : (exports.map (·.exported)).Nodup) :
    ((ofTable (grouped exports)).map (·.exported)).Nodup := by
  rw [ofTable_grouped distinct, List.map_flatMap, List.nodup_flatMap]
  constructor
  · intro source _
    exact distinct.sublist (List.filter_sublist.map _)
  · refine (Table.nodup_eraseDups _).imp fun {source other} ne name here there => ?_
    obtain ⟨e, he, rfl⟩ := List.mem_map.1 here
    obtain ⟨f, hf, same⟩ := List.mem_map.1 there
    simp only [List.mem_filter, decide_eq_true_eq] at he hf
    -- An export of two modules would have one name twice.
    obtain rfl := List.inj_on_of_nodup_map distinct hf.1 he.1 same
    exact ne (he.2.symm.trans hf.2)

end Reexport

namespace Wrapper

open Reexport

variable {config : WrapperConfig} {m : Metadata}

/-- The names that a declaration declares. -/
def declaredNames (declaration : Node) : List Text :=
  match declaration.form with
  | .classDeclaration id .. => id.toList.map Node.name
  | _ => declaration.binds

/-- The names under which a statement exports values. -/
def exportNames (statement : Node) : List Text :=
  match statement.form with
  | .exportNamed declaration specifiers _ false =>
    (declaration.map declaredNames).getD [] ++ specifiers.filterMap exportedName?
  | .exportDefault _ => [ImportBinding.defaultName]
  | _ => []

theorem exportNames_importOf (specifiers : List Node) (source : Text) :
    exportNames (importOf specifiers source) = [] := rfl

theorem exportNames_exportFrom (names : List (Text × Text)) (source : Text) :
    exportNames (exportFrom names source) = names.map (·.1) := by
  simp only [exportNames, exportFrom, Node.of, Node.form, Option.map_none, Option.getD_none,
    List.nil_append, List.filterMap_map]
  exact congrFun List.filterMap_eq_map names

/-- What stands ahead of the own statements exports the names that are exported again. -/
theorem flatMap_exportNames_preamble :
    (preamble config m).flatMap exportNames = (ofTable m.reexports).map (·.exported) := by
  obtain ⟨parents, hp, imports⟩ := @preamble_eq config m
  have none : parents.flatMap exportNames = [] := by
    rw [List.flatMap_eq_nil_iff]
    intro statement mem
    obtain ⟨imported, name, source, rfl⟩ := imports statement mem
    exact exportNames_importOf _ _
  rw [hp, List.flatMap_append, none, List.append_nil, List.flatMap_map, ofTable, List.map_flatMap]
  refine List.flatMap_congr fun entry _ => ?_
  rw [exportNames_exportFrom, List.map_map]
  rfl

/-- The names that a wrapper exports beside those of other modules. -/
def ownExportNames (config : WrapperConfig) (m : Metadata) : List Text :=
  match m.elementName, m.className with
  | some _, _ => (if config.upgradable then [elementExport] else []) ++
      [descriptorExport, checksExport, ImportBinding.defaultName]
  | none, some _ => [descriptorExport, checksExport]
  | none, none => []

/-- The names that the own statements export depend on nothing but the kind of wrapper. -/
theorem flatMap_exportNames_ownBody (filename : Text) (serializers : List Text)
    (descriptor checks : Node) :
    (ownBody config m filename serializers descriptor checks).flatMap exportNames =
      ownExportNames config m := by
  cases he : m.elementName with
  | some name =>
    have imports : (config.settings.map fun s =>
        importOf [defaultSpecifier s.name] s.source).flatMap exportNames = [] := by
      simp [List.flatMap_map, exportNames_importOf]
    have bindings : (config.settings.map fun s =>
        declare "var" s.binding (.memberNamed s.name s.field)).flatMap exportNames = [] := by
      simp [List.flatMap_map, exportNames, declare, Node.of, Node.form]
    simp only [ownBody, he, elementBody, ownExportNames, List.flatMap_append, imports, bindings]
    split <;> rfl
  | none =>
    cases hc : m.className with
    | some name =>
      simp only [ownBody, he, hc, abstractBody, ownExportNames, List.flatMap_append]
      split <;> split <;> rfl
    | none =>
      simp only [ownBody, ownExportNames, he, hc]
      rfl

theorem nodup_ownExportNames : (ownExportNames config m).Nodup := by
  rw [ownExportNames]
  split
  · split <;> decide
  · decide
  · decide

/-- The names that a wrapper may export beside those of other modules, whatever its module. -/
def reservedNames : List Text := [elementExport, descriptorExport, checksExport]

/-- An own name is one of the reserved ones, or the default of an element. -/
theorem mem_ownExportNames {name : Text} (h : name ∈ ownExportNames config m) :
    name ∈ reservedNames ∨ (m.elementName.isSome ∧ name = ImportBinding.defaultName) := by
  cases he : m.elementName with
  | some element =>
    simp only [ownExportNames, he] at h
    rw [Option.isSome_some, eq_self, true_and]
    split at h <;> revert name <;> decide
  | none =>
    cases hc : m.className with
    | some className =>
      simp only [ownExportNames, he, hc] at h
      exact .inl (List.mem_cons_of_mem _ h)
    | none =>
      simp only [ownExportNames, he, hc] at h
      cases h

theorem default_mem_ownExportNames (h : m.elementName.isSome) :
    ImportBinding.defaultName ∈ ownExportNames config m := by
  obtain ⟨name, he⟩ := Option.isSome_iff_exists.1 h
  simp [ownExportNames, he]

end Wrapper

open Reexport Wrapper

/-- **The names of the exports are distinct** unless the default of another module is exported again
beside an element, whose component is the default export of the wrapper. -/
theorem nodup_exportNames_iff {config : WrapperConfig} {file filename : Text}
    {program wrapper : Node} {m : Metadata}
    (distinct : (program.visits.flatMap exportedNames).Nodup)
    (fresh : ∀ name ∈ reservedNames, name ∉ program.visits.flatMap exportedNames)
    (hm : harvest config file program = .ok m)
    (hw : synthesize config m filename = .ok wrapper) :
    let exports := program.visits.flatMap (Harvest.reexports (ImportTable.ofProgram program))
    (wrapper.statements.flatMap exportNames).Nodup ↔
      ¬ (m.elementName.isSome ∧ ImportBinding.defaultName ∈ exports.map (·.exported)) := by
  intro exports
  have content : m.reexports = grouped exports := by rw [(Harvest.content_of_harvest hm).1]; rfl
  have sublist : (exports.map (·.exported)).Sublist (program.visits.flatMap exportedNames) :=
    exported_sublist _ _
  have nodup : (exports.map (·.exported)).Nodup := distinct.sublist sublist
  have front (name : Text) :
      name ∈ (ofTable m.reexports).map (·.exported) ↔ name ∈ exports.map (·.exported) := by
    simp only [content, List.mem_map, mem_ofTable_grouped nodup]
  obtain ⟨name, serializers, descriptor, checks, same, -, statements⟩ := synthesize_eq_settled hw
  have own : ownExportNames config { m with elementName := name } = ownExportNames config m := by
    cases he : m.elementName with
    | none =>
      obtain rfl : name = none := by simpa [he] using same
      simp only [ownExportNames, he]
    | some element =>
      obtain ⟨given, rfl⟩ : ∃ given, name = some given := by
        simpa [he, Option.isSome_iff_exists] using same
      simp only [ownExportNames, he]
  rw [statements, List.flatMap_append, flatMap_exportNames_preamble, flatMap_exportNames_ownBody,
    own, List.nodup_append']
  constructor
  · rintro ⟨-, -, disjoint⟩ ⟨element, again⟩
    exact disjoint ((front _).2 again) (default_mem_ownExportNames element)
  · intro apart
    have again : ((ofTable m.reexports).map (·.exported)).Nodup := by
      rw [content]
      exact nodup_ofTable_grouped nodup
    refine ⟨again, nodup_ownExportNames, ?_⟩
    intro name here there
    have again : name ∈ exports.map (·.exported) := (front name).1 here
    rcases mem_ownExportNames there with reserved | ⟨element, rfl⟩
    · exact fresh name reserved (sublist.subset again)
    · exact apart ⟨element, again⟩

/-- A module that exports the default of another module again beside an element. -/
def tileModule : Node :=
  .of (.program [
    .of (.exportNamed none
      [.of (.exportSpecifier (.identifier "default") (.identifier "default"))]
      (some (.string "./base")) false),
    .of (.classDeclaration (some (.identifier "Tile")) none
      [.of (.decorator (.of (.call (.identifier "customElement") [.string "x-tile"])))] [])])

/-- A component with an element that exports the default of its base again: there are two
defaults. -/
theorem not_nodup_exportNames_tileModule :
    let config : WrapperConfig := { templates := .preserve }
    ∃ m wrapper, harvest config "tile.ts" tileModule = .ok m ∧
      synthesize config m "" = .ok wrapper ∧ ¬ (wrapper.statements.flatMap exportNames).Nodup := by
  intro config
  have success : ∃ m wrapper, harvest config "tile.ts" tileModule = .ok m ∧
      synthesize config m "" = .ok wrapper := ⟨_, _, rfl, rfl⟩
  obtain ⟨m, wrapper, hm, hw⟩ := success
  have distinct : (tileModule.visits.flatMap exportedNames).Nodup := by decide
  have fresh : ∀ name ∈ reservedNames, name ∉ tileModule.visits.flatMap exportedNames := by decide
  refine ⟨m, wrapper, hm, hw, fun nodup => ?_⟩
  apply (nodup_exportNames_iff distinct fresh hm hw).1 nodup
  cases hm
  decide

end ElementWrapper
