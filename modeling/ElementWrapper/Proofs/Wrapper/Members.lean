import ElementWrapper.Proofs.Harvest.Names
import ElementWrapper.Proofs.Wrapper.Exports

/-!
The members that a wrapper describes. The two objects that it exports have entries for the same
members in the same order: first those for the properties, then those for the handlers of the events
(`keyNames_of_synthesize`). A harvest finds no property and no event twice (`isTabular_of_harvest`),
and two events never share a handler (`Event.propName_injective`); but the handler of an event can
have the name of a property, and then the objects have two entries for it.
-/

namespace ElementWrapper

/-! ## Handlers -/

namespace Event

theorem propName_append (rest : Text) : propName (memberStart ++ rest) = handlerStart ++ rest := by
  rw [propName, Text.dropStart?, if_pos (List.isPrefixOf_iff_prefix.2 (List.prefix_append _ _)),
    List.drop_left]

/-- The handlers of different events have different names. -/
theorem propName_injective {name other : Text} (h : memberStart <+: name)
    (h' : memberStart <+: other) (same : propName name = propName other) : name = other := by
  obtain ⟨rest, rfl⟩ := h
  obtain ⟨rest', rfl⟩ := h'
  rw [propName_append, propName_append] at same
  rw [List.append_cancel_left same]

end Event

/-! ## Tables of members -/

namespace Metadata

/-- The tables have no name twice, and the names of events are those of members for one. -/
structure IsTabular (m : Metadata) : Prop where
  properties : m.properties.names.Nodup
  events : m.events.names.Nodup
  members : ∀ name ∈ m.events.names, Event.memberStart <+: name

theorem IsTabular.nodup_handlers {m : Metadata} (h : m.IsTabular) :
    (m.events.names.map Event.propName).Nodup :=
  h.events.map_on fun name mem other mem' =>
    Event.propName_injective (h.members name mem) (h.members other mem')

end Metadata

namespace Harvest

/-- The tables of a harvest are without repetitions, since an entry takes the place of one with the
same name. -/
theorem isTabular_of_harvest {config : WrapperConfig} {filename : Text} {program : Node}
    {m : Metadata} (h : harvest config filename program = .ok m) : m.IsTabular := by
  have nodup {α : Type} (entries : List (Text × α)) : (Table.latest entries).names.Nodup := by
    rw [← Table.ofList_eq_latest, Table.names_ofList]
    exact Table.nodup_eraseDups _
  obtain ⟨rfl, -⟩ := content_of_harvest h
  refine ⟨nodup _, nodup _, fun name mem => ?_⟩
  obtain ⟨visit, -, found⟩ := mem_names_latest_iff.1 mem
  rw [map_event?] at found
  obtain ⟨key, -, named⟩ := Option.bind_eq_some_iff.1 found
  exact List.isPrefixOf_iff_prefix.1 (Option.filter_eq_some_iff.1 named).2

end Harvest

/-! ## The entries of the exported objects -/

namespace Wrapper

variable {config : WrapperConfig} {m : Metadata}

/-- The entries of an object. -/
def objectEntries (node : Node) : List Node :=
  match node.form with
  | .object entries => entries
  | _ => []

/-- The names of the keys in the object that a value is, or that a call puts over others as its last
argument. -/
def keyNames (value : Node) : List (Option Text) :=
  match value.form with
  | .call _ arguments => (arguments.getLast?.map objectEntries).getD [] |>.map entryName?
  | _ => (objectEntries value).map entryName?

theorem Lists.keyNames_eq {parent : Text} {value : Node} (h : Lists m parent value) :
    keyNames value = (entryNames m).map some := by
  obtain ⟨entries, rfl, named⟩ := h
  rw [← map_entryName? named, inherited]
  split <;> rfl

/-- A wrapper that exports a variable has a description of the metadata in both of its objects. -/
theorem exportedVariables_eq {filename name : Text} {wrapper value : Node}
    (h : synthesize config m filename = .ok wrapper)
    (mem : (name, value) ∈ exportedVariables wrapper) : ∃ descriptor checks,
      exportedVariables wrapper = [(descriptorExport, descriptor), (checksExport, checks)] ∧
        Lists m parentDescriptor descriptor ∧ Lists m parentChecks checks := by
  obtain ⟨element, serializers, descriptor, checks, same, lists, statements⟩ :=
    synthesize_eq_settled h
  have variables_eq : exportedVariables wrapper = (ownBody config { m with elementName := element }
      (if filename.isEmpty then m.filename else filename) serializers descriptor
      checks).filterMap exportedVariable? := by
    rw [exportedVariables, statements, List.filterMap_append, filterMap_exportedVariable?_preamble,
      List.nil_append]
  by_cases described : m.elementName.isSome ∨ m.className.isSome
  · refine ⟨descriptor, checks, ?_, lists described⟩
    rw [variables_eq]
    exact filterMap_exportedVariable?_ownBody (same ▸ described)
  · rw [← same, not_or, Option.not_isSome_iff_eq_none, Option.not_isSome_iff_eq_none] at described
    obtain ⟨rfl, noClass⟩ := described
    simp only [variables_eq, ownBody, noClass] at mem
    cases mem

/-- What two lists without repetitions have in common stands twice in them together. -/
theorem count_append_of_nodup {first second : List Text} (h : first.Nodup) (h' : second.Nodup)
    (key : Text) : (first ++ second).count key ≤ 2 ∧
      ((first ++ second).count key = 2 ↔ key ∈ first ∧ key ∈ second) := by
  rw [List.count_append, h.count, h'.count]
  split <;> split <;> simp_all

/-- **Both objects describe the same members**: their keys are the names of the properties and then
those of the handlers of the events. A key stands in them twice just if it is the name of a property
and that of a handler, and never more often. -/
theorem keyNames_of_synthesize {filename : Text} {wrapper descriptor checks : Node}
    (tabular : m.IsTabular) (hw : synthesize config m filename = .ok wrapper)
    (hd : (descriptorExport, descriptor) ∈ exportedVariables wrapper)
    (hc : (checksExport, checks) ∈ exportedVariables wrapper) :
    let keys := m.properties.names ++ m.events.names.map Event.propName
    keyNames descriptor = keys.map some ∧ keyNames checks = keys.map some ∧
      ∀ key, keys.count key ≤ 2 ∧ (keys.count key = 2 ↔
        key ∈ m.properties.names ∧ ∃ name ∈ m.events.names, Event.propName name = key) := by
  obtain ⟨first, second, variables_eq, lists, lists'⟩ := exportedVariables_eq hw hd
  have apart : descriptorExport ≠ checksExport := by decide
  rw [variables_eq] at hd hc
  obtain rfl : descriptor = first := by simpa [apart] using hd
  obtain rfl : checks = second := by simpa [apart.symm] using hc
  refine ⟨lists.keyNames_eq, lists'.keyNames_eq, fun key => ?_⟩
  rw [← List.mem_map]
  exact count_append_of_nodup tabular.properties tabular.nodup_handlers key

/-- A module whose class has a property with the name of a handler. -/
def handlerModule : Node :=
  let property : Node := .of (.decorator (.of (.call (.identifier "property") [])))
  .of (.program [
    .of (.importDeclaration
      [.of (.importSpecifier (.identifier "property") (.identifier "property"))]
      (.string "lit-element") false),
    .of (.classDeclaration (some (.identifier "Panel")) none [] [
      .of (.classField (.identifier "onToggle") none false false [property]),
      .of (.classField (.string "is-open") none false false [property]),
      .of (.classField (.identifier "eventToggle") (some (.string "toggled")) true false [])])])

/-- A property with the name of an event: its key is there twice. -/
theorem keyNames_handlerModule :
    ∃ m wrapper descriptor checks, harvest {} "panel.ts" handlerModule = .ok m ∧
      synthesize {} m "" = .ok wrapper ∧
      exportedVariables wrapper = [(descriptorExport, descriptor), (checksExport, checks)] ∧
      keyNames descriptor = [some ("onToggle" : Text), some "is-open", some "onToggle"] ∧
      keyNames checks = keyNames descriptor := by
  have success : ∃ m wrapper descriptor checks, harvest {} "panel.ts" handlerModule = .ok m ∧
      synthesize {} m "" = .ok wrapper ∧
      exportedVariables wrapper = [(descriptorExport, descriptor), (checksExport, checks)] :=
    ⟨_, _, _, _, rfl, rfl, rfl⟩
  obtain ⟨m, wrapper, descriptor, checks, hm, hw, variables_eq⟩ := success
  obtain ⟨first, second, -⟩ := keyNames_of_synthesize (Harvest.isTabular_of_harvest hm) hw
    (by rw [variables_eq]; exact List.mem_cons_self)
    (by rw [variables_eq]; exact List.mem_cons_of_mem _ (List.mem_singleton_self _))
  refine ⟨m, wrapper, descriptor, checks, hm, hw, variables_eq, first.trans ?_,
    second.trans first.symm⟩
  cases hm
  rfl

end Wrapper

end ElementWrapper
