import ElementWrapper.Proofs.Module.Names
import ElementWrapper.Proofs.Wrapper.Statements

/-!
Whether a wrapper is closed. What it uses and what it binds is put together from its building
blocks; each use of the blocks has its import or its variable. The names of events come from the
component module, and what these use is bound by the settings, which only the wrapper of an element
imports (`closed_iff_of_synthesize`).
-/

namespace ElementWrapper

open Node

namespace Wrapper

/-! ## Building blocks -/

section

variable (kind name source parent imported : Text) (key value own callee : Node)
  (comments : List Comment) (nodes : List Node) (names : List (Text × Text))

@[simp] theorem uses_entry : (entry key value comments).uses = value.uses := rfl

@[simp] theorem uses_object : (object nodes).uses = nodes.flatMap uses := by
  rw [List.flatMap_def]
  exact uses_mk none [] (.object nodes)

@[simp] theorem uses_callOf : (call callee nodes).uses = callee.uses ++ nodes.flatMap uses :=
  uses_call none [] callee nodes

@[simp] theorem uses_importOf : (importOf nodes source).uses = [] := rfl

@[simp] theorem uses_exportFrom : (exportFrom names source).uses = [] := rfl

@[simp] theorem uses_declare : (declare kind name value).uses = value.uses := by
  simp [declare, Node.of, uses_mk, Form.map, Form.used, Form.children]

@[simp] theorem uses_exported : (exported name value).uses = value.uses := by
  simp [exported, Node.of, uses_mk, Form.map, Form.used, Form.children]

@[simp] theorem uses_merged :
    (merged parent own).uses = ("Object" : Text) :: parent :: own.uses := by
  simp [merged]

@[simp] theorem binds_importOf : (importOf nodes source).binds = nodes.flatMap binds := by
  rw [List.flatMap_def]
  exact binds_mk none [] (.importDeclaration nodes (.string source) false)

@[simp] theorem binds_defaultSpecifier : (defaultSpecifier name).binds = [name] := rfl

@[simp] theorem binds_namedSpecifier : (namedSpecifier imported name).binds = [name] := rfl

@[simp] theorem binds_exportFrom : (exportFrom names source).binds = [] := rfl

@[simp] theorem binds_declare : (declare kind name value).binds = [name] := rfl

@[simp] theorem binds_exported : (exported name value).binds = [name] := rfl

@[simp] theorem binds_serializerSpecifiers (serializers : List Text) :
    (serializerSpecifiers serializers).flatMap binds = serializers := by
  simp [serializerSpecifiers, List.flatMap_map]

end

/-! ## Properties and events -/

/-- The serializers that some properties need. -/
def needed (properties : Table PropertyMetadata) : List Text :=
  properties.filterMap fun entry => (serializer? entry.2).toOption.join

theorem uses_eventEntries (events : Table EventMetadata) :
    (eventEntries events).flatMap uses = events.flatMap fun entry => entry.2.name.uses := by
  simp [eventEntries, List.flatMap_map]

theorem uses_eventChecks (events : Table EventMetadata) :
    (eventChecks events).flatMap uses = events.map fun _ => propTypes := by
  rw [eventChecks, List.flatMap_map, List.map_eq_flatMap]
  rfl

/-- Each check of a property uses the module of the checks, and nothing else. -/
theorem uses_propertyChecks {properties : Table PropertyMetadata} {checks : List Node}
    (h : propertyChecks properties = .ok checks) :
    checks.flatMap uses = properties.map fun _ => propTypes := by
  induction properties generalizing checks with
  | nil =>
    obtain rfl := Except.ok.inj h
    rfl
  | cons entry rest ih =>
    simp only [propertyChecks, List.mapM_cons, Except.bind_eq_ok, Except.pure_eq_ok] at h
    obtain ⟨first, ⟨check, hc, rfl⟩, others, ho, rfl⟩ := h
    have used : check.uses = [propTypes] := by
      rw [Wrapper.check] at hc
      split at hc <;> cases hc
      rfl
    rw [List.flatMap_cons, ih ho, uses_entry, used]
    rfl

/-- The description of a property uses the serializer that it names. -/
theorem uses_describe {property : PropertyMetadata} {serializer : Option Text}
    (h : serializer? property = .ok serializer) :
    (describe property serializer).uses = serializer.toList := by
  have boolean : (Node.of (.boolean false)).uses = [] := rfl
  obtain ⟨type, policy, comments, location⟩ := property
  match policy with
  | .flag false =>
    obtain rfl : none = serializer := by simpa [serializer?] using h
    simp [describe, boolean]
  | .unspecified | .flag true => cases serializer <;> simp [describe]
  | .named name => cases serializer <;> simp [describe]

/-- The entries of properties use the serializers that they need, and these are the ones that are
collected. -/
theorem uses_propertyEntries {properties : Table PropertyMetadata} {known serializers : List Text}
    {entries : List Node} (h : propertyEntries properties known = .ok (entries, serializers)) :
    entries.flatMap uses = needed properties ∧
      ∀ name, name ∈ serializers ↔ name ∈ known ∨ name ∈ needed properties := by
  induction properties generalizing known serializers entries with
  | nil =>
    obtain ⟨rfl, rfl⟩ := Prod.mk.inj (Except.ok.inj h)
    simp [needed]
  | cons entry rest ih =>
    obtain ⟨name, property⟩ := entry
    simp only [propertyEntries, Except.bind_eq_ok, Except.pure_eq_ok, Prod.mk.injEq] at h
    obtain ⟨serializer, hs, ⟨others, all⟩, ho, rfl, rfl⟩ := h
    obtain ⟨used, mem⟩ := ih ho
    have needs : needed ((name, property) :: rest) = serializer.toList ++ needed rest := by
      cases serializer <;> simp [needed, hs, Except.toOption]
    refine ⟨?_, fun other => ?_⟩
    · rw [List.flatMap_cons, used, uses_entry, uses_describe hs, needs]
    · rw [mem, needs]
      simp only [List.mem_append, List.mem_filter, Bool.not_eq_true', List.contains_eq_mem,
        decide_eq_false_iff_not]
      tauto

/-! ## Statements -/

variable (config : WrapperConfig) (m : Metadata)

/-- The names that the metadata of the parent are imported under, if there is a parent. -/
def parentNames : List Text :=
  if m.parentSource.any (!·.isEmpty) then [parentDescriptor, parentChecks] else []

theorem mem_parentNames (name : Text) :
    name ∈ parentNames m ↔
      m.parentSource.any (!·.isEmpty) ∧ (name = parentDescriptor ∨ name = parentChecks) := by
  rw [parentNames]
  split <;> simp_all

theorem mem_uses_inherited (name parent : Text) (own : Node) :
    name ∈ (inherited m parent own).uses ↔
      (m.parentSource.any (!·.isEmpty) ∧ (name = ("Object" : Text) ∨ name = parent)) ∨
        name ∈ own.uses := by
  rw [inherited]
  split <;> simp_all [or_assoc]

theorem uses_preamble : (preamble config m).flatMap uses = [] := by
  rw [preamble]
  split <;> simp [List.flatMap_map]

theorem binds_preamble : (preamble config m).flatMap binds = parentNames m := by
  obtain h | h | ⟨c, source, h⟩ : m.parentSource = none ∨ m.parentSource = some [] ∨
      ∃ c source, m.parentSource = some (c :: source) := by
    cases m.parentSource with
    | none => simp
    | some source => cases source <;> simp
  all_goals simp [preamble, parentNames, h, List.flatMap_map]

/-- The assignment of the checks to the component. -/
theorem uses_assignment : (Node.of (.expressionStatement (.of (.assignment
    (memberNamed component checksExport) (identifier checksExport) "=")))).uses =
      [component, checksExport] := rfl

theorem uses_elementBody (filename : Text) (name : Node) (serializers : List Text)
    (descriptor checks : Node) :
    (elementBody config filename name serializers descriptor checks).flatMap uses =
      config.settings.map (·.name) ++ descriptor.uses ++ checks.uses ++
        factory :: name.uses ++ [descriptorExport, component, checksExport, component] := by
  have last : (Node.of (.exportDefault (identifier component))).uses = [component] := rfl
  have imports : config.settings.flatMap (fun _ => ([] : List Text)) = [] :=
    List.flatMap_eq_nil_iff.2 fun _ _ => rfl
  simp [elementBody, metadataExports, factoryImport, checksImport, List.flatMap_map,
    uses_assignment, last, imports, ← List.map_eq_flatMap]

theorem binds_elementBody (filename : Text) (name : Node) (serializers : List Text)
    (descriptor checks : Node) :
    (elementBody config filename name serializers descriptor checks).flatMap binds =
      factory :: serializers ++ [propTypes] ++ config.settings.map (·.name) ++
        config.settings.map (·.binding) ++ [descriptorExport, checksExport, component] := by
  have assignment {expression : Node} : (Node.of (.expressionStatement expression)).binds = [] :=
    rfl
  have last {expression : Node} : (Node.of (.exportDefault expression)).binds = [] := rfl
  simp [elementBody, metadataExports, factoryImport, checksImport, List.flatMap_map,
    assignment, last, ← List.map_eq_flatMap]

theorem uses_abstractBody (serializers : List Text) (descriptor checks : Node) :
    (abstractBody config m serializers descriptor checks).flatMap uses =
      descriptor.uses ++ checks.uses := by
  have optional (empty : Prop) [Decidable empty] (nodes : List Node) (source : Text) :
      (if empty then [] else [importOf nodes source]).flatMap uses = [] := by
    split <;> simp
  simp [abstractBody, metadataExports, serializersImport, checksImport, optional]

/-- The wrapper of an abstract class binds its serializers, the checks if it has any, and its two
exports. -/
theorem binds_abstractBody (serializers : List Text) (descriptor checks : Node) :
    (abstractBody config m serializers descriptor checks).flatMap binds =
      serializers ++ (if m.properties.isEmpty && m.events.isEmpty then [] else [propTypes]) ++
        [descriptorExport, checksExport] := by
  have optional (empty : Prop) [Decidable empty] (nodes : List Node) (source : Text) :
      (if empty then [] else [importOf nodes source]).flatMap binds =
        if empty then [] else nodes.flatMap binds := by
    split <;> simp
  have all : (if serializers = [] then [] else serializers) = serializers := by
    split <;> simp_all
  simp [abstractBody, metadataExports, serializersImport, checksImport, optional, all]

/-! ## The whole -/

variable {config m}

/-- The names that the names of events use. -/
def eventUses (m : Metadata) : List Text := m.events.flatMap fun entry => entry.2.name.uses

/-- The names that the wrapper of an abstract class with events binds. -/
def abstractNames (m : Metadata) : List Text :=
  [propTypes, descriptorExport, checksExport] ++ parentNames m ++ needed m.properties

/-- A list of own statements binds what it uses, given the statements before them. -/
def Covers (m : Metadata) (own : List Node) : Prop :=
  ∀ name ∈ own.flatMap uses,
    name = ("Object" : Text) ∨ name ∈ parentNames m ∨ name ∈ own.flatMap binds

/-- Settling changes neither the names that statements use nor those that they bind. -/
theorem uses_settle {statements : List Node}
    (kept : config.templates = .concat →
      ∀ statement ∈ statements, Lowering.lower statement = .ok (Lowering.lowered statement)) :
    (statements.map (settle config)).flatMap uses = statements.flatMap uses ∧
      (statements.map (settle config)).flatMap binds = statements.flatMap binds := by
  rw [List.flatMap_map, List.flatMap_map]
  cases ht : config.templates with
  | preserve => simp only [settle, ht, and_self]
  | concat =>
    simp only [settle, ht]
    exact ⟨List.flatMap_congr fun statement mem => Lowering.uses_of_lower (kept ht statement mem),
      List.flatMap_congr fun statement mem => Lowering.binds_of_lower (kept ht statement mem)⟩

/-- What the two exported objects use: serializers and what the names of events use, the checks, and
the metadata of the parent. -/
structure Objects (m : Metadata) (serializers : List Text) (descriptor checks : Node) : Prop where
  serializers (name : Text) : name ∈ serializers ↔ name ∈ needed m.properties
  descriptor (name : Text) : name ∈ descriptor.uses ↔
    (m.parentSource.any (!·.isEmpty) ∧ (name = ("Object" : Text) ∨ name = parentDescriptor)) ∨
      name ∈ needed m.properties ∨ name ∈ eventUses m
  checks (name : Text) : name ∈ checks.uses ↔
    (m.parentSource.any (!·.isEmpty) ∧ (name = ("Object" : Text) ∨ name = parentChecks)) ∨
      name = propTypes ∧ (m.properties.isEmpty && m.events.isEmpty) = false

/-- A wrapper is closed just if its own statements are: those ahead of them use nothing and bind the
metadata of the parent. -/
theorem closed_iff_covers {filename : Text} {wrapper : Node}
    (h : synthesize config m filename = .ok wrapper) :
    ∃ serializers descriptor checks, Objects m serializers descriptor checks ∧
      (wrapper.Closed ↔ Covers m (ownBody config m
        (if filename.isEmpty then m.filename else filename) serializers descriptor checks)) := by
  obtain ⟨statements, hb, hs, kept⟩ := synthesize_eq_ok h
  obtain ⟨entries, serializers, checks, he, hc, rfl⟩ := body_eq_ok hb
  obtain ⟨used, mem⟩ := uses_propertyEntries he
  refine ⟨serializers, inherited m parentDescriptor (object (entries ++ eventEntries m.events)),
    inherited m parentChecks (object (checks ++ eventChecks m.events)), ⟨?_, ?_, ?_⟩, ?_⟩
  · simpa using mem
  · intro name
    rw [mem_uses_inherited, uses_object, List.flatMap_append, used, uses_eventEntries,
      List.mem_append, eventUses]
  · intro name
    rw [mem_uses_inherited, uses_object, List.flatMap_append, uses_propertyChecks hc,
      uses_eventChecks, List.mem_append]
    have constant {α : Type} (l : List α) :
        name ∈ l.map (fun _ => propTypes) ↔ name = propTypes ∧ l.isEmpty = false := by
      cases l <;> simp
    rw [constant, constant, Bool.and_eq_false_iff, ← and_or_left]
  · obtain ⟨su, sb⟩ := uses_settle kept
    rw [Closed, hs, su, sb, List.flatMap_append, List.flatMap_append, uses_preamble,
      binds_preamble]
    simp only [Covers, List.nil_append, List.mem_append]

variable {serializers : List Text} {descriptor checks : Node}

/-- The wrapper of an element binds all that its objects use, if the settings bind what its name and
those of the events use. -/
theorem covers_elementBody {filename : Text} {name : Node}
    (element : ∀ used ∈ name.uses, used ∈ config.settings.map (·.binding))
    (events : ∀ used ∈ eventUses m, used ∈ config.settings.map (·.binding))
    (h : Objects m serializers descriptor checks) :
    Covers m (elementBody config filename name serializers descriptor checks) := by
  intro used mem
  rw [uses_elementBody] at mem
  rw [binds_elementBody]
  simp only [List.mem_append, List.mem_cons, h.descriptor, h.checks, h.serializers,
    mem_parentNames] at mem ⊢
  -- A name is either bound by the wrapper whatever its parts are, or comes from one of the parts.
  have := element used
  have := events used
  grind

/-- The wrapper of an abstract class imports no settings, so that the names of its events have to do
with the other names. -/
theorem covers_abstractBody_iff (h : Objects m serializers descriptor checks) :
    Covers m (abstractBody config m serializers descriptor checks) ↔
      ∀ name ∈ eventUses m, name = ("Object" : Text) ∨ name ∈ abstractNames m := by
  have nonempty {name : Text} (mem : name ∈ eventUses m) : m.events.isEmpty = false := by
    cases he : m.events with
    | nil => simp [eventUses, he] at mem
    | cons => rfl
  rw [Covers, uses_abstractBody, binds_abstractBody]
  simp only [List.mem_append, List.mem_cons, List.not_mem_nil, or_false, h.descriptor, h.checks,
    h.serializers, mem_parentNames, abstractNames]
  constructor
  · intro covers name mem
    -- The names of events are used by the descriptor.
    have := covers name (.inl (.inr (.inr mem)))
    grind
  · intro bound name mem
    -- If an event uses a name, there is an event, so that the checks are imported.
    have := bound name
    have := @nonempty name
    grind

end Wrapper

open Wrapper

/-- **When a wrapper is closed**, if what the names of the element and of the events use is bound by
the settings: always, but for an abstract class, whose wrapper does not import the settings. There
the names of events may use no more than what the wrapper binds for itself. -/
theorem closed_iff_of_synthesize {config : WrapperConfig} {m : Metadata} {filename : Text}
    {wrapper : Node}
    (element : ∀ name ∈ m.elementName, ∀ used ∈ name.uses, used ∈ config.settings.map (·.binding))
    (events : ∀ used ∈ eventUses m, used ∈ config.settings.map (·.binding))
    (h : synthesize config m filename = .ok wrapper) :
    wrapper.Closed ↔ (m.elementName = none → m.className ≠ none →
      ∀ used ∈ eventUses m, used = ("Object" : Text) ∨ used ∈ abstractNames m) := by
  obtain ⟨serializers, descriptor, checks, objects, closed⟩ := closed_iff_covers h
  rw [closed, ownBody]
  cases he : m.elementName with
  | some name => simpa using covers_elementBody (element name he) events objects
  | none =>
    cases hc : m.className with
    | some => simpa using covers_abstractBody_iff objects
    | none => simp [Covers]

/-- An abstract class with an event whose name begins with a setting. -/
def prefixedEvent : Metadata where
  filename := "toggle.ts"
  className := some "Toggle"
  events := [("eventToggle", {
    name := .of (.template [.of (.quasi [] false), .of (.quasi "-toggled" true)]
      [.identifier "ddsPrefix"]) })]

/-- An abstract class with an event whose name uses the prefix. -/
theorem prefixedEvent_not_closed :
    ∃ wrapper, synthesize {} prefixedEvent "" = .ok wrapper ∧ ¬ wrapper.Closed := by
  have success : ∃ wrapper, synthesize {} prefixedEvent "" = .ok wrapper := by
    have isSome : (synthesize {} prefixedEvent "").toOption.isSome = true := by cbv
    cases h : synthesize {} prefixedEvent "" with
    | ok wrapper => exact ⟨wrapper, rfl⟩
    | error failure => simp [h, Except.toOption] at isSome
  obtain ⟨wrapper, h⟩ := success
  refine ⟨wrapper, h, fun closed => ?_⟩
  have := (closed_iff_of_synthesize (by simp [prefixedEvent]) (by decide) h).1 closed rfl
    (by simp [prefixedEvent])
  revert this
  decide

end ElementWrapper
