import ElementWrapper.Proofs.Wrapper.Members
import ElementWrapper.Proofs.Wrapper.Refusals

/-!
What a wrapper imports for itself. The serializers that the entries of the properties use are noted
while the entries are made, each at its first use (`propertyEntries_serializers`), and the import of
the wrapper module is made of what was noted. As long as nothing else is imported from there, a
wrapper imports just the serializers that it uses, and the checks just if it has some
(`imports_of_synthesize`).
-/

namespace ElementWrapper

namespace Wrapper

variable {config : WrapperConfig} {m : Metadata}

/-! ## Serializers in use -/

/-- The entries of the object that a value is, or that a call puts over others as its last
argument. -/
def ownEntries (value : Node) : List Node :=
  match value.form with
  | .call _ arguments => (arguments.getLast?.map objectEntries).getD []
  | _ => objectEntries value

theorem ownEntries_inherited (parent : Text) (entries : List Node) :
    ownEntries (inherited m parent (object entries)) = entries := by
  rw [inherited]
  split <;> rfl

/-- The name of the option that holds the serializer of a property. -/
def serializeKey : Text := "serialize"

/-- The identifier that an option of a property gives as its serializer. -/
def serializerName? (option : Node) : Option Text :=
  match option.form with
  | .property key value false =>
    if key.keyName? = some serializeKey then value.identifierName? else none
  | _ => none

/-- The serializers that the description of a member uses. -/
def entrySerializers (member : Node) : List Text :=
  match member.form with
  | .property _ value _ => (objectEntries value).filterMap serializerName?
  | _ => []

theorem serializerName?_entry (name : Text) (value : Node) :
    serializerName? (entry (.identifier name) value []) =
      if name = serializeKey then value.identifierName? else none := by
  simp [serializerName?, entry, Node.form, Node.identifier, Node.of, Node.keyName?]

theorem entrySerializers_entry (key : Node) (options : List Node) :
    entrySerializers (entry key (object options) []) = options.filterMap serializerName? := rfl

/-- The serializers that the descriptions of members use, in order. -/
def usedSerializers (value : Node) : List Text := (ownEntries value).flatMap entrySerializers

/-- The serializers that go with the types of properties, as far as these have an attribute. -/
def neededSerializers (properties : Table PropertyMetadata) : List Text :=
  (properties.filter fun entry => entry.2.policy ≠ .flag false).filterMap fun entry =>
    entry.2.type.bind PropertyType.serializer?

/-- A property without an attribute has no serializer; any other has the one of its type, if there
is one. -/
theorem serializer?_eq_ok {property : PropertyMetadata} {serializer : Option Text}
    (h : serializer? property = .ok serializer) :
    serializer = if property.policy = .flag false then none
      else property.type.bind PropertyType.serializer? := by
  by_cases policy : property.policy = .flag false
  · rw [serializer?_of_flag policy] at h
    rw [if_pos policy, Except.ok.inj h]
  rw [if_neg policy]
  by_cases untyped : property.type = none ∨ property.type = some []
  · rw [serializer?_of_untyped untyped] at h
    obtain none | empty := untyped
    · rw [none, ← Except.ok.inj h]
      rfl
    · rw [empty, ← Except.ok.inj h]
      rfl
  · obtain ⟨type, named, nonempty⟩ := PropertyMetadata.exists_type untyped
    rw [serializer?_of_typed policy named nonempty] at h
    rw [named, Option.bind_some]
    by_cases standard : type = PropertyType.standard
    · rw [if_pos standard] at h
      rw [standard, ← Except.ok.inj h]
      decide
    · rw [if_neg standard] at h
      cases found : PropertyType.serializer? type with
      | none => simp [found] at h
      | some name => simpa [found, eq_comm] using h

theorem neededSerializers_cons {name : Text} {property : PropertyMetadata}
    {rest : Table PropertyMetadata} {serializer : Option Text}
    (h : serializer? property = .ok serializer) :
    neededSerializers ((name, property) :: rest) = serializer.toList ++ neededSerializers rest := by
  rw [serializer?_eq_ok h]
  by_cases policy : property.policy = .flag false
  · simp [neededSerializers, policy]
  · cases found : property.type.bind PropertyType.serializer? <;>
      simp [neededSerializers, policy, found]

/-- The description of a property uses the serializer that it is made with. -/
theorem entrySerializers_describe {property : PropertyMetadata} {serializer : Option Text}
    (h : serializer? property = .ok serializer) (name : Text) :
    entrySerializers (entry (key name) (describe property serializer) []) = serializer.toList := by
  have other (value : Node) :
      serializerName? (entry (.identifier "attribute") value []) = none := by
    rw [serializerName?_entry, if_neg (by decide)]
  have serialize : (serializer.toList.map fun name =>
      entry (.identifier "serialize") (.identifier name) []).filterMap serializerName? =
        serializer.toList := by
    rw [List.filterMap_map]
    cases serializer <;> rfl
  rw [describe]
  split
  · next policy =>
    rw [serializer?_of_flag policy] at h
    rw [← Except.ok.inj h]
    rw [entrySerializers_entry, List.filterMap_cons, other]
    rfl
  · rw [entrySerializers_entry, List.filterMap_append, serialize, List.filterMap_cons, other]
    exact List.append_nil _
  · exact serialize

theorem append_fresh (known : List Text) (serializer : Option Text) :
    known.eraseDups ++ serializer.toList.filter (!known.eraseDups.contains ·) =
      (known ++ serializer.toList).eraseDups := by
  cases serializer with
  | none => simp
  | some name =>
    rw [Option.toList_some, Table.eraseDups_concat]
    split <;> simp [*]

/-- **Each serializer is noted once**, at its first use: to make the entries of properties is to
note the serializers that these use. -/
theorem propertyEntries_serializers {properties : Table PropertyMetadata}
    {known serializers : List Text} {entries : List Node}
    (h : propertyEntries properties known.eraseDups = .ok (entries, serializers)) :
    entries.flatMap entrySerializers = neededSerializers properties ∧
      serializers = (known ++ neededSerializers properties).eraseDups := by
  induction properties generalizing known serializers entries with
  | nil =>
    obtain ⟨rfl, rfl⟩ := Prod.mk.inj (Except.ok.inj h)
    simp [neededSerializers]
  | cons property rest ih =>
    obtain ⟨name, property⟩ := property
    simp only [propertyEntries, Except.bind_eq_ok, Except.pure_eq_ok, Prod.mk.injEq] at h
    obtain ⟨serializer, made, ⟨others, all⟩, onward, rfl, rfl⟩ := h
    rw [append_fresh] at onward
    obtain ⟨used, noted⟩ := ih onward
    rw [neededSerializers_cons made, List.flatMap_cons, entrySerializers_describe made, used, noted,
      List.append_assoc]
    exact ⟨rfl, rfl⟩

/-! ## Settled entries -/

/-- The description of a property holds no template. -/
theorem templateFree_describe (property : PropertyMetadata) (serializer : Option Text) :
    TemplateFree (describe property serializer) := by
  have free {name : Text} {value : Node} (h : TemplateFree value) :
      TemplateFree (entry (.identifier name) value []) :=
    .mk rfl (by simp [Form.children, h])
  have boolean (value : Bool) : TemplateFree (.of (.boolean value)) :=
    .mk rfl (List.forall_mem_nil _)
  have serialize : ∀ option ∈ serializer.toList.map fun name =>
      entry (.identifier "serialize") (.identifier name) [], TemplateFree option := by
    intro option mem
    obtain ⟨name, -, rfl⟩ := List.mem_map.1 mem
    exact free (templateFree_identifier name)
  rw [describe]
  split
  · exact .mk rfl (List.forall_mem_singleton.2 (free (boolean false)))
  · exact .mk rfl (List.forall_mem_append.2
      ⟨serialize, List.forall_mem_singleton.2 (free (templateFree_string _))⟩)
  · exact .mk rfl serialize

/-- The entries of properties hold no templates. -/
theorem propertyEntries_templateFree {properties : Table PropertyMetadata}
    {known serializers : List Text} {entries : List Node}
    (h : propertyEntries properties known = .ok (entries, serializers)) :
    ∀ member ∈ entries, TemplateFree member := by
  induction properties generalizing known serializers entries with
  | nil =>
    obtain ⟨rfl, rfl⟩ := Prod.mk.inj (Except.ok.inj h)
    nofun
  | cons property rest ih =>
    simp only [propertyEntries, Except.bind_eq_ok, Except.pure_eq_ok, Prod.mk.injEq] at h
    obtain ⟨serializer, -, ⟨others, all⟩, onward, rfl, -⟩ := h
    refine List.forall_mem_cons.2 ⟨.mk rfl ?_, ih onward⟩
    simp [Form.children, templateFree_key, templateFree_describe]

/-- The description of an event uses no serializer, whatever becomes of the name of the event. -/
theorem entrySerializers_event (name : Text) (event : EventMetadata)
    (h : Settles config
      (entry (key name) (object [entry (.identifier "event") event.name []]) [])) :
    entrySerializers (settle config
      (entry (key name) (object [entry (.identifier "event") event.name []]) [])) = [] := by
  have value : Settles config (object [entry (.identifier "event") event.name []]) :=
    h.child (List.mem_cons_of_mem _ (List.mem_singleton_self _))
  have option : Settles config (entry (.identifier "event") event.name []) :=
    value.child (List.mem_singleton_self _)
  rw [entry, h.settle_eq rfl, Form.map, settle_object value, List.map_singleton, entry,
    option.settle_eq rfl, Form.map, settle_of_templateFree (templateFree_identifier _)]
  change [entry (.identifier "event") (settle config event.name) []].filterMap serializerName? = []
  rw [List.filterMap_cons, serializerName?_entry, if_neg (by decide)]
  rfl

/-- The serializers that the description of a class uses are those that its properties need. -/
theorem usedSerializers_settle {entries : List Node} {serializers : List Text}
    (h : propertyEntries m.properties [] = .ok (entries, serializers))
    (settles : Settles config
      (inherited m parentDescriptor (object (entries ++ eventEntries m.events)))) :
    usedSerializers (settle config
        (inherited m parentDescriptor (object (entries ++ eventEntries m.events)))) =
      neededSerializers m.properties := by
  have own : ∀ member ∈ entries ++ eventEntries m.events, Settles config member :=
    fun _ mem => settles.of_inherited.child mem
  have events : ((eventEntries m.events).map (settle config)).flatMap entrySerializers = [] := by
    rw [List.flatMap_eq_nil_iff]
    intro member mem
    obtain ⟨made, among, rfl⟩ := List.mem_map.1 mem
    have settled := own made (List.mem_append_right _ among)
    obtain ⟨⟨name, event⟩, -, rfl⟩ := List.mem_map.1 among
    exact entrySerializers_event _ event settled
  rw [settle_inherited settles, usedSerializers, ownEntries_inherited, List.map_append,
    List.flatMap_append, events, List.append_nil,
    map_settle_of_templateFree (propertyEntries_templateFree h)]
  exact (@propertyEntries_serializers _ [] _ _ h).1

/-! ## Imports -/

/-- What a statement imports from a module, if it does. -/
def importedFrom? (module : Text) (statement : Node) : Option (List Node) :=
  match statement.form with
  | .importDeclaration specifiers source _ =>
    if source.stringValue? = some module then some specifiers else none
  | _ => none

/-- What a program imports from a module: the specifiers of each statement that imports from it. -/
def importsFrom (module : Text) (program : Node) : List (List Node) :=
  program.statements.filterMap (importedFrom? module)

variable {module : Text}

theorem importedFrom?_importOf (specifiers : List Node) (source : Text) :
    importedFrom? module (importOf specifiers source) =
      if source = module then some specifiers else none := by
  simp [importedFrom?, importOf, Node.of, Node.form, Node.string, Node.stringValue?]

/-- Nothing that stands before a wrapper is an import, apart from those of the parent. -/
theorem filterMap_importedFrom?_preamble
    (parent : ∀ source ∈ m.parentSource, source ≠ [] →
      Specifier.relativeWithExtension source config.outputExtension ≠ module) :
    (preamble config m).filterMap (importedFrom? module) = [] := by
  have reexports (entry : Text × Table Text) : importedFrom? module (exportFrom entry.2
      (Specifier.relativeWithExtension entry.1 config.outputExtension)) = none := rfl
  rw [preamble, List.filterMap_append, List.filterMap_map, List.append_eq_nil_iff]
  refine ⟨by simp [reexports], ?_⟩
  cases named : m.parentSource with
  | none => rfl
  | some source =>
    cases source with
    | nil => rfl
    | cons c source =>
      have elsewhere := parent _ named (List.cons_ne_nil c source)
      simp [importedFrom?_importOf, elsewhere]

theorem filterMap_importedFrom?_metadataExports (descriptor checks : Node) :
    (metadataExports descriptor checks).filterMap (importedFrom? module) = [] := rfl

/-- The wrapper of an element imports the factory and the serializers in one statement, and the
checks in another. -/
theorem filterMap_importedFrom?_elementBody {filename : Text} {name : Node}
    {serializers : List Text} {descriptor checks : Node}
    (settings : ∀ setting ∈ config.settings, setting.source ≠ module) :
    (elementBody config filename name serializers descriptor checks).filterMap
        (importedFrom? module) =
      (if config.wrapperModule = module then
          [defaultSpecifier factory :: serializerSpecifiers serializers] else []) ++
        if config.propTypesModule = module then [[defaultSpecifier propTypes]] else [] := by
  have imported : (config.settings.map fun s =>
      importOf [defaultSpecifier s.name] s.source).filterMap (importedFrom? module) = [] := by
    rw [List.filterMap_map, List.filterMap_eq_nil_iff]
    intro setting mem
    rw [Function.comp_apply, importedFrom?_importOf, if_neg (settings setting mem)]
  have bound : (config.settings.map fun s =>
      declare "var" s.binding (.memberNamed s.name s.field)).filterMap (importedFrom? module) =
        [] := by
    simp [List.filterMap_map, Function.comp_def, importedFrom?, declare, Node.of, Node.form]
  have element (names : List (Text × Text)) (source : Text) : (if config.upgradable then
      [exportFrom names source] else []).filterMap (importedFrom? module) = [] := by
    split <;> rfl
  have last (value name other : Node) : [declare "const" component value,
      .of (.expressionStatement name), .of (.exportDefault other)].filterMap
        (importedFrom? module) = [] := rfl
  simp only [elementBody, List.filterMap_append, imported, bound, element, last,
    filterMap_importedFrom?_metadataExports, factoryImport, checksImport, List.filterMap_cons,
    importedFrom?_importOf, List.filterMap_nil, List.append_nil, List.nil_append]
  by_cases factoryThere : config.wrapperModule = module <;>
    by_cases checksThere : config.propTypesModule = module <;> simp [factoryThere, checksThere]

/-- The wrapper of a class without an element imports serializers and checks only if it uses any. -/
theorem filterMap_importedFrom?_abstractBody {serializers : List Text} {descriptor checks : Node} :
    (abstractBody config m serializers descriptor checks).filterMap (importedFrom? module) =
      (if config.wrapperModule = module ∧ serializers ≠ [] then
          [serializerSpecifiers serializers] else []) ++
        if config.propTypesModule = module ∧ entryNames m ≠ [] then
          [[defaultSpecifier propTypes]] else [] := by
  have members : entryNames m = [] ↔ m.properties = [] ∧ m.events = [] := by
    simp [entryNames, Table.names]
  have optional {missing : Bool} {specifiers : List Node} {source : Text} :
      (if missing then [] else [importOf specifiers source]).filterMap (importedFrom? module) =
        if source = module ∧ missing = false then [specifiers] else [] := by
    cases missing with
    | true => simp
    | false => by_cases there : source = module <;> simp [importedFrom?_importOf, there]
  simp only [abstractBody, List.filterMap_append, filterMap_importedFrom?_metadataExports,
    serializersImport, checksImport, optional, List.append_nil, List.isEmpty_eq_false_iff,
    ne_eq, members, Bool.and_eq_false_iff, not_and_or]

/-- What the own statements import from a module, for both kinds of wrappers. -/
theorem filterMap_importedFrom?_ownBody {filename : Text} {serializers : List Text}
    {descriptor checks : Node} (settings : ∀ setting ∈ config.settings, setting.source ≠ module)
    (described : m.elementName.isSome ∨ m.className.isSome) :
    (ownBody config m filename serializers descriptor checks).filterMap (importedFrom? module) =
      (if config.wrapperModule = module ∧ (m.elementName.isSome ∨ serializers ≠ []) then
          [(if m.elementName.isSome then [defaultSpecifier factory] else []) ++
            serializerSpecifiers serializers] else []) ++
        if config.propTypesModule = module ∧ (m.elementName.isSome ∨ entryNames m ≠ []) then
          [[defaultSpecifier propTypes]] else [] := by
  cases element : m.elementName with
  | some name =>
    rw [ownBody, element]
    simpa using filterMap_importedFrom?_elementBody settings
  | none =>
    obtain ⟨name, named⟩ : ∃ name, m.className = some name := by
      simpa [element, Option.isSome_iff_exists] using described
    rw [ownBody, element, named]
    simpa using filterMap_importedFrom?_abstractBody

/-- **What a wrapper imports.** If the wrapper module and that of the checks are two modules, and
neither the settings nor the metadata of the parent are imported from them, then a wrapper of an
element or of a class imports from the wrapper module the factory, if there is an element, and each
serializer that its descriptions use, once and in the order of first use; a property without an
attribute uses none. Without an element nothing is imported from there unless a serializer is used,
and the checks are imported just if one is made. -/
theorem imports_of_synthesize {filename : Text} {wrapper : Node}
    (apart : config.wrapperModule ≠ config.propTypesModule)
    (settings : ∀ setting ∈ config.settings,
      setting.source ≠ config.wrapperModule ∧ setting.source ≠ config.propTypesModule)
    (parent : ∀ source ∈ m.parentSource, source ≠ [] →
      Specifier.relativeWithExtension source config.outputExtension ≠ config.wrapperModule ∧
        Specifier.relativeWithExtension source config.outputExtension ≠ config.propTypesModule)
    (described : m.className.isSome ∨ m.elementName.isSome)
    (h : synthesize config m filename = .ok wrapper) :
    ∃ descriptor checks,
      exportedVariables wrapper = [(descriptorExport, descriptor), (checksExport, checks)] ∧
      usedSerializers descriptor = neededSerializers m.properties ∧
      (importsFrom config.wrapperModule wrapper).flatten =
        (if m.elementName.isSome then [defaultSpecifier factory] else []) ++
          (usedSerializers descriptor).eraseDups.map (fun name => namedSpecifier name name) ∧
      (m.elementName = none →
        (importsFrom config.wrapperModule wrapper = [] ↔ usedSerializers descriptor = []) ∧
        importsFrom config.propTypesModule wrapper =
          if keyNames checks = [] then [] else [[defaultSpecifier propTypes]]) := by
  obtain ⟨entries, serializers, made, entriesMade, checksMade, settles, statements⟩ :=
    synthesize_eq_parts h
  obtain ⟨descriptorSettles, checksSettle⟩ := settles described.symm
  have used := usedSerializers_settle entriesMade descriptorSettles
  have noted : serializers = (neededSerializers m.properties).eraseDups :=
    (@propertyEntries_serializers _ [] _ _ entriesMade).2
  have lists : Lists m parentChecks
      (settle config (inherited m parentChecks (object (made ++ eventChecks m.events)))) :=
    lists_settle (List.rel_append (propertyChecks_named checksMade) (eventChecks_named m.events))
      checksSettle
  have kind : (m.elementName.map (settle config)).isSome ∨ m.className.isSome := by
    simpa using described.symm
  have fromWrapper := filterMap_importedFrom?_preamble fun source mem nonempty =>
    (parent source mem nonempty).1
  have fromChecks := filterMap_importedFrom?_preamble fun source mem nonempty =>
    (parent source mem nonempty).2
  refine ⟨_, settle config (inherited m parentChecks (object (made ++ eventChecks m.events))), ?_,
    used, ?_⟩
  · rw [exportedVariables, statements, List.filterMap_append,
      filterMap_exportedVariable?_preamble, List.nil_append]
    exact filterMap_exportedVariable?_ownBody kind
  rw [importsFrom, importsFrom, statements, List.filterMap_append, List.filterMap_append,
    fromWrapper, fromChecks, List.nil_append, List.nil_append, used, lists.keyNames_eq,
    filterMap_importedFrom?_ownBody (fun setting mem => (settings setting mem).1) kind,
    filterMap_importedFrom?_ownBody (fun setting mem => (settings setting mem).2) kind, noted]
  have members : entryNames { m with elementName := m.elementName.map (settle config) } =
      entryNames m := rfl
  have nothing : (neededSerializers m.properties).eraseDups = [] ↔
      neededSerializers m.properties = [] := by
    cases neededSerializers m.properties <;> simp [List.eraseDups_cons]
  simp only [Option.isSome_map, members, apart, apart.symm, true_and, false_and, if_false,
    List.append_nil, List.nil_append, List.map_eq_nil_iff]
  cases element : m.elementName with
  | some name => simp [serializerSpecifiers]
  | none =>
    refine ⟨?_, fun _ => ⟨?_, ?_⟩⟩
    · by_cases unused : neededSerializers m.properties = [] <;>
        simp [unused, nothing, serializerSpecifiers]
    · simp [nothing]
    · by_cases empty : entryNames m = [] <;> simp [empty]

/-- A class with a parent that needs two serializers, one of them twice, and none for a property
without an attribute. -/
def panelMetadata : Metadata where
  filename := "panel.ts"
  className := some "Panel"
  properties := [("open", { type := some "Boolean" }),
    ("items", { type := some "Object", policy := .flag false }),
    ("offset", { type := some "Number", policy := .named "data-offset" }),
    ("modal", { type := some "Boolean" }), ("label", {})]
  parentSource := some "./base"

/-- Two properties of different types: both serializers come in one import. -/
theorem imports_panelMetadata :
    let config : WrapperConfig := {}
    ∃ wrapper, synthesize config panelMetadata "" = .ok wrapper ∧
      (importsFrom config.wrapperModule wrapper).flatten =
        [namedSpecifier "booleanSerializer" "booleanSerializer",
          namedSpecifier "numberSerializer" "numberSerializer"] ∧
      importsFrom config.propTypesModule wrapper = [[defaultSpecifier propTypes]] := by
  intro config
  have success : ∃ wrapper descriptor checks, synthesize config panelMetadata "" = .ok wrapper ∧
      exportedVariables wrapper = [(descriptorExport, descriptor), (checksExport, checks)] ∧
      keyNames checks ≠ [] := ⟨_, _, _, rfl, rfl, nofun⟩
  obtain ⟨wrapper, _, checks, hw, variables_eq, some⟩ := success
  obtain ⟨_, _, same, used, imported, abstract⟩ :=
    @imports_of_synthesize config panelMetadata _ _ (by decide) (by decide) (by decide) (.inl rfl)
      hw
  cases variables_eq.symm.trans same
  have needed : (neededSerializers panelMetadata.properties).eraseDups =
      [("booleanSerializer" : Text), ("numberSerializer" : Text)] := by decide
  refine ⟨wrapper, hw, ?_, ?_⟩
  · rw [imported, used, needed]
    rfl
  · rw [(abstract rfl).2, if_neg some]

/-- The specifier of a parent that gets the extension of wrappers can turn out to be that of the
wrapper module. The metadata of the parent are then imported from there, although no serializer is
used. -/
theorem imports_parentAtWrapper :
    let config : WrapperConfig := { wrapperModule := "./wrapper.js" }
    let m : Metadata :=
      { filename := "a.ts", className := some "A", parentSource := some "./wrapper" }
    config.wrapperModule ≠ config.propTypesModule ∧
    (∀ setting ∈ config.settings,
      setting.source ≠ config.wrapperModule ∧ setting.source ≠ config.propTypesModule) ∧
    (∀ source ∈ m.parentSource,
      source ≠ config.wrapperModule ∧ source ≠ config.propTypesModule) ∧
    m.className.isSome ∧
    ∃ wrapper descriptor checks, synthesize config m "" = .ok wrapper ∧
      exportedVariables wrapper = [(descriptorExport, descriptor), (checksExport, checks)] ∧
      usedSerializers descriptor = [] ∧
      (importsFrom config.wrapperModule wrapper).flatten =
        [namedSpecifier descriptorExport parentDescriptor,
          namedSpecifier checksExport parentChecks] := by
  refine ⟨by decide, by decide, by decide, rfl, _, _, _, rfl, rfl, rfl, ?_⟩
  rfl

end Wrapper

end ElementWrapper
