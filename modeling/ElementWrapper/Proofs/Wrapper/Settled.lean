import ElementWrapper.Proofs.Wrapper.Reexports

/-!
What becomes of the parts of a wrapper when it is settled. Only the two objects that it exports and
the name of its element can hold a template, and so settling a wrapper settles these and nothing
else (`synthesize_eq_settled`). The entries of the objects keep their names and their order.
-/

namespace ElementWrapper

namespace Wrapper

variable {config : WrapperConfig} {m : Metadata}

/-! ## Settled statements -/

/-- The node can be lowered if the configuration asks for it. -/
def Settles (config : WrapperConfig) (node : Node) : Prop :=
  config.templates = .concat → Lowering.lower node = .ok (Lowering.lowered node)

section

variable {location : Option Location} {comments : List Comment} {form : Form Node}

theorem Settles.child (h : Settles config (.mk location comments form)) {child : Node}
    (mem : child ∈ form.children) : Settles config child :=
  fun concat => Lowering.lower_children (h concat) child mem

/-- Settling a node other than a template settles its parts. -/
theorem Settles.settle_eq (h : Settles config (.mk location comments form))
    (ne : form.isTemplate = false) :
    settle config (.mk location comments form) =
      .mk location comments (form.map (settle config)) := by
  cases ht : config.templates with
  | preserve =>
    have same : settle config = id := funext fun node => by rw [settle, ht]; rfl
    rw [same, Form.map_eq_self (f := id) fun _ _ => rfl]
    rfl
  | concat =>
    have same : settle config = Lowering.lowered := funext fun node => by rw [settle, ht]
    rw [same, Lowering.lowered_of_ne ne (Lowering.lower_children (h ht))]

end

section

variable {name source kind : Text} {specifiers : List Node} {value : Node}

@[simp] theorem templateFree_defaultSpecifier : TemplateFree (defaultSpecifier name) := by
  simp [defaultSpecifier, Form.isTemplate, Form.children]

@[simp] theorem templateFree_namedSpecifier : TemplateFree (namedSpecifier source name) := by
  simp [namedSpecifier, Form.isTemplate, Form.children]

@[simp] theorem templateFree_importOf :
    TemplateFree (importOf specifiers source) ↔
      ∀ specifier ∈ specifiers, TemplateFree specifier := by
  simp [importOf, Form.isTemplate, Form.children, or_imp, forall_and]

@[simp] theorem templateFree_declare :
    TemplateFree (declare kind name value) ↔ TemplateFree value := by
  simp [declare, Form.isTemplate, Form.children]

end

theorem settle_declare {kind name : Text} {value : Node}
    (h : Settles config (declare kind name value)) :
    settle config (declare kind name value) = declare kind name (settle config value) := by
  have declarator : Settles config (.of (.declarator (.identifier name) (some value))) :=
    h.child (List.mem_singleton_self _)
  rw [declare, Node.of, h.settle_eq rfl, Form.map, List.map_singleton, Node.of,
    declarator.settle_eq rfl, Form.map, settle_of_templateFree (templateFree_identifier name)]
  rfl

theorem Settles.of_declare {kind name : Text} {value : Node}
    (h : Settles config (declare kind name value)) : Settles config value := by
  have declarator : Settles config (.of (.declarator (.identifier name) (some value))) :=
    h.child (List.mem_singleton_self _)
  exact declarator.child (List.mem_cons_of_mem _ (List.mem_singleton_self _))

theorem Settles.of_exported {name : Text} {value : Node}
    (h : Settles config (exported name value)) : Settles config value := by
  have declaration : Settles config (declare "var" name value) :=
    h.child (List.mem_singleton_self _)
  exact declaration.of_declare

theorem settle_exported {name : Text} {value : Node} (h : Settles config (exported name value)) :
    settle config (exported name value) = exported name (settle config value) := by
  have declaration : Settles config (declare "var" name value) :=
    h.child (List.mem_singleton_self _)
  rw [exported, Node.of, h.settle_eq rfl, Form.map, Option.map_some, settle_declare declaration]
  rfl

theorem settle_object {entries : List Node} (h : Settles config (object entries)) :
    settle config (object entries) = object (entries.map (settle config)) :=
  h.settle_eq rfl

theorem settle_call {callee : Node} {arguments : List Node}
    (h : Settles config (call callee arguments)) :
    settle config (call callee arguments) =
      call (settle config callee) (arguments.map (settle config)) :=
  h.settle_eq rfl

theorem Settles.of_inherited {parent : Text} {own : Node}
    (h : Settles config (inherited m parent own)) : Settles config own := by
  rw [inherited] at h
  split at h
  · have last : own ∈ [object [], .identifier parent, own] := by simp
    exact h.child (List.mem_cons_of_mem _ last)
  · exact h

/-- Settling an object that inherits comes to settling its entries. -/
theorem settle_inherited {parent : Text} {entries : List Node}
    (h : Settles config (inherited m parent (object entries))) :
    settle config (inherited m parent (object entries)) =
      inherited m parent (object (entries.map (settle config))) := by
  have own : Settles config (object entries) := h.of_inherited
  rw [inherited] at h ⊢
  rw [inherited]
  split
  · next hasParent =>
    rw [if_pos hasParent] at h
    have empty : TemplateFree (object []) := .mk rfl nofun
    rw [merged, settle_call h, List.map_cons, List.map_cons, List.map_singleton, settle_object own,
      settle_of_templateFree (templateFree_memberNamed _ _), settle_of_templateFree empty,
      settle_of_templateFree (templateFree_identifier parent)]
    rfl
  · exact settle_object own

/-- The name under which an object has an entry. -/
def entryName? (entry : Node) : Option Text :=
  match entry.form with
  | .property key _ false => key.keyName?
  | _ => none

theorem templateFree_key (name : Text) : TemplateFree (key name) := by
  rw [key]
  split
  · exact templateFree_identifier name
  · exact templateFree_string name

theorem entryName?_key (name : Text) (value : Node) (comments : List Comment) :
    entryName? (entry (key name) value comments) = some name := by
  change (key name).keyName? = some name
  rw [key]
  split <;> rfl

/-- The entry for a name. -/
def IsEntryOf (name : Text) (node : Node) : Prop :=
  ∃ value comments, node = entry (key name) value comments

theorem IsEntryOf.entryName? {name : Text} {node : Node} (h : IsEntryOf name node) :
    entryName? node = some name := by
  obtain ⟨value, comments, rfl⟩ := h
  exact entryName?_key name value comments

theorem IsEntryOf.settle {name : Text} {node : Node} (h : IsEntryOf name node)
    (settles : Settles config node) : IsEntryOf name (settle config node) := by
  obtain ⟨value, comments, rfl⟩ := h
  refine ⟨Wrapper.settle config value, comments, ?_⟩
  rw [entry, settles.settle_eq rfl, Form.map, settle_of_templateFree (templateFree_key name)]
  rfl

theorem isEntryOf_map_settle {names : List Text} {entries : List Node}
    (h : List.Forall₂ IsEntryOf names entries) (settles : ∀ entry ∈ entries, Settles config entry) :
    List.Forall₂ IsEntryOf names (entries.map (settle config)) := by
  induction h with
  | nil => exact .nil
  | cons first _ ih =>
    obtain ⟨head, tail⟩ := List.forall_mem_cons.1 settles
    exact .cons (first.settle head) (ih tail)

/-- The entries of properties have their names, in the same order. -/
theorem propertyEntries_named {properties : Table PropertyMetadata} {known serializers : List Text}
    {entries : List Node} (h : propertyEntries properties known = .ok (entries, serializers)) :
    List.Forall₂ IsEntryOf properties.names entries := by
  induction properties generalizing known serializers entries with
  | nil =>
    obtain ⟨rfl, rfl⟩ := Prod.mk.inj (Except.ok.inj h)
    exact .nil
  | cons property rest ih =>
    simp only [propertyEntries, Except.bind_eq_ok, Except.pure_eq_ok, Prod.mk.injEq] at h
    obtain ⟨serializer, -, ⟨others, all⟩, ho, rfl, -⟩ := h
    exact .cons ⟨_, _, rfl⟩ (ih ho)

/-- The checks of properties have their names, in the same order. -/
theorem propertyChecks_named {properties : Table PropertyMetadata} {checks : List Node}
    (h : propertyChecks properties = .ok checks) :
    List.Forall₂ IsEntryOf properties.names checks := by
  induction properties generalizing checks with
  | nil =>
    obtain rfl := Except.ok.inj h
    exact .nil
  | cons property rest ih =>
    simp only [propertyChecks, List.mapM_cons, Except.bind_eq_ok, Except.pure_eq_ok] at h
    obtain ⟨first, ⟨check, -, rfl⟩, others, ho, rfl⟩ := h
    exact .cons ⟨_, _, rfl⟩ (ih ho)

theorem eventEntries_named (events : Table EventMetadata) :
    List.Forall₂ IsEntryOf (events.names.map Event.propName) (eventEntries events) := by
  induction events with
  | nil => exact .nil
  | cons event rest ih => exact .cons ⟨_, _, rfl⟩ ih

theorem eventChecks_named (events : Table EventMetadata) :
    List.Forall₂ IsEntryOf (events.names.map Event.propName) (eventChecks events) := by
  induction events with
  | nil => exact .nil
  | cons event rest ih => exact .cons ⟨_, _, rfl⟩ ih

/-! ## The settled wrapper -/

/-- An object with an entry for each property and then one for each event, merged over the object of
the parent if there is a parent. -/
def Describes (m : Metadata) (parent : Text) (value : Node) : Prop :=
  ∃ entries, value = inherited m parent (object entries) ∧
    entries.map entryName? = (m.properties.names ++ m.events.names.map Event.propName).map some

/-- The names of the entries in the objects that a wrapper exports. -/
def entryNames (m : Metadata) : List Text := m.properties.names ++ m.events.names.map Event.propName

/-- An object that describes the metadata, with the entries as they are made for its names. -/
def Lists (m : Metadata) (parent : Text) (value : Node) : Prop :=
  ∃ entries, value = inherited m parent (object entries) ∧
    List.Forall₂ IsEntryOf (entryNames m) entries

theorem map_entryName? {names : List Text} {entries : List Node}
    (h : List.Forall₂ IsEntryOf names entries) : entries.map entryName? = names.map some := by
  induction h with
  | nil => rfl
  | cons first _ ih =>
    rw [List.map_cons, first.entryName?, ih]
    rfl

theorem Lists.describes {parent : Text} {value : Node} (h : Lists m parent value) :
    Describes m parent value := by
  obtain ⟨entries, eq, named⟩ := h
  exact ⟨entries, eq, map_entryName? named⟩

theorem lists_settle {parent : Text} {entries : List Node}
    (named : List.Forall₂ IsEntryOf (entryNames m) entries)
    (h : Settles config (inherited m parent (object entries))) :
    Lists m parent (settle config (inherited m parent (object entries))) :=
  ⟨entries.map (settle config), settle_inherited h,
    isEntryOf_map_settle named fun _ mem => h.of_inherited.child mem⟩

theorem map_settle_of_templateFree {statements : List Node}
    (h : ∀ statement ∈ statements, TemplateFree statement) :
    statements.map (settle config) = statements := by
  refine (List.map_congr_left fun statement mem => ?_).trans (List.map_id statements)
  exact settle_of_templateFree (h statement mem)

theorem templateFree_preamble : ∀ statement ∈ preamble config m, TemplateFree statement := by
  obtain ⟨parents, hp, imports⟩ := @preamble_eq config m
  rw [hp, List.forall_mem_append]
  constructor
  · intro statement mem
    obtain ⟨entry, -, rfl⟩ := List.mem_map.1 mem
    exact Reexport.exportFrom_templateFree _ _
  · intro statement mem
    obtain ⟨imported, name, source, rfl⟩ := imports statement mem
    simp

theorem templateFree_serializersImport (serializers : List Text) :
    TemplateFree (serializersImport config serializers) := by
  simp [serializersImport, serializerSpecifiers]

theorem templateFree_factoryImport (serializers : List Text) :
    TemplateFree (factoryImport config serializers) := by
  simp [factoryImport, serializerSpecifiers]

theorem templateFree_checksImport : TemplateFree (checksImport config) := by
  simp [checksImport]

theorem templateFree_assignment : TemplateFree (.of (.expressionStatement (.of (.assignment
    (.memberNamed component checksExport) (.identifier checksExport) "=")))) := by
  simp [Form.isTemplate, Form.children]

theorem templateFree_exportComponent :
    TemplateFree (.of (.exportDefault (.identifier component))) := by
  simp [Form.isTemplate, Form.children]

theorem settle_metadataExports {descriptor checks : Node}
    (h : ∀ statement ∈ metadataExports descriptor checks, Settles config statement) :
    (metadataExports descriptor checks).map (settle config) =
      metadataExports (settle config descriptor) (settle config checks) := by
  obtain ⟨hd, hc⟩ := List.forall_mem_cons.1 h
  rw [metadataExports, List.map_cons, List.map_singleton, settle_exported hd,
    settle_exported (List.forall_mem_singleton.1 hc)]
  rfl

/-- Settling the statements of an abstract class comes to settling its two objects. -/
theorem settle_abstractBody {serializers : List Text} {descriptor checks : Node}
    (h : ∀ statement ∈ abstractBody config m serializers descriptor checks,
      Settles config statement) :
    (abstractBody config m serializers descriptor checks).map (settle config) =
      abstractBody config m serializers (settle config descriptor) (settle config checks) := by
  obtain ⟨-, exports⟩ := List.forall_mem_append.1 h
  have optional {empty : Prop} [Decidable empty] {statement : Node}
      (free : TemplateFree statement) :
      (if empty then [] else [statement]).map (settle config) =
        if empty then [] else [statement] := by
    apply map_settle_of_templateFree
    split
    · nofun
    · exact List.forall_mem_singleton.2 free
  rw [abstractBody, List.map_append, List.map_append, settle_metadataExports exports,
    optional (templateFree_serializersImport serializers),
    optional templateFree_checksImport]
  rfl

/-- Settling the statements of an element comes to settling its name and its two objects. -/
theorem settle_elementBody {filename : Text} {name : Node} {serializers : List Text}
    {descriptor checks : Node}
    (h : ∀ statement ∈ elementBody config filename name serializers descriptor checks,
      Settles config statement) :
    (elementBody config filename name serializers descriptor checks).map (settle config) =
      elementBody config filename (settle config name) serializers (settle config descriptor)
        (settle config checks) := by
  simp only [elementBody, List.forall_mem_append, List.forall_mem_cons] at h
  obtain ⟨⟨-, exports⟩, last, -⟩ := h
  have made : settle config (declare "const" component
      (call (.identifier factory) [name, .identifier descriptorExport])) =
        declare "const" component
          (call (.identifier factory) [settle config name, .identifier descriptorExport]) := by
    rw [settle_declare last, settle_call last.of_declare, List.map_cons, List.map_singleton,
      settle_of_templateFree (templateFree_identifier _),
      settle_of_templateFree (templateFree_identifier _)]
  have imported (setting : SettingImport) :
      settle config (importOf [defaultSpecifier setting.name] setting.source) =
        importOf [defaultSpecifier setting.name] setting.source := settle_of_templateFree (by simp)
  have bound (setting : SettingImport) :
      settle config (declare "var" setting.binding (.memberNamed setting.name setting.field)) =
        declare "var" setting.binding (.memberNamed setting.name setting.field) :=
    settle_of_templateFree (by simp)
  simp only [elementBody, List.map_append, List.map_cons, List.map_nil, List.map_map,
    Function.comp_def, apply_ite (List.map (settle config)), settle_exportFrom,
    settle_metadataExports exports, made,
    settle_of_templateFree (templateFree_factoryImport _),
    settle_of_templateFree templateFree_checksImport,
    imported, bound, settle_of_templateFree templateFree_assignment,
    settle_of_templateFree templateFree_exportComponent]

/-- Settling the own statements comes to settling the name of the element and the two objects. -/
theorem settle_ownBody {filename : Text} {serializers : List Text} {descriptor checks : Node}
    (h : ∀ statement ∈ ownBody config m filename serializers descriptor checks,
      Settles config statement) :
    (ownBody config m filename serializers descriptor checks).map (settle config) =
      ownBody config { m with elementName := m.elementName.map (settle config) } filename
        serializers (settle config descriptor) (settle config checks) := by
  cases he : m.elementName with
  | some name =>
    simp only [ownBody, he, Option.map_some] at h ⊢
    exact settle_elementBody h
  | none =>
    cases hc : m.className with
    | some =>
      simp only [ownBody, he, hc, Option.map_none] at h ⊢
      exact settle_abstractBody h
    | none =>
      simp only [ownBody, he, hc, Option.map_none]
      rfl

/-- The exports of metadata are among the own statements. -/
theorem mem_ownBody_of_metadataExports {filename : Text} {serializers : List Text}
    {descriptor checks : Node} (h : m.elementName.isSome ∨ m.className.isSome) {statement : Node}
    (mem : statement ∈ metadataExports descriptor checks) :
    statement ∈ ownBody config m filename serializers descriptor checks := by
  cases he : m.elementName with
  | some name =>
    simp only [ownBody, he, elementBody, List.mem_append]
    exact .inl (.inr mem)
  | none =>
    obtain ⟨name, hc⟩ : ∃ name, m.className = some name := by
      simpa [he, Option.isSome_iff_exists] using h
    simp only [ownBody, he, hc, abstractBody, List.mem_append]
    exact .inr mem

/-- A wrapper is put together from its parts, each of them settled. -/
theorem synthesize_eq_parts {filename : Text} {wrapper : Node}
    (h : synthesize config m filename = .ok wrapper) :
    ∃ entries serializers checks, propertyEntries m.properties [] = .ok (entries, serializers) ∧
      propertyChecks m.properties = .ok checks ∧
      let descriptor := inherited m parentDescriptor (object (entries ++ eventEntries m.events))
      let checks := inherited m parentChecks (object (checks ++ eventChecks m.events))
      (m.elementName.isSome ∨ m.className.isSome →
        Settles config descriptor ∧ Settles config checks) ∧
      wrapper.statements = preamble config m ++
        ownBody config { m with elementName := m.elementName.map (settle config) }
          (if filename.isEmpty then m.filename else filename) serializers
          (settle config descriptor) (settle config checks) := by
  obtain ⟨statements, hb, hs, kept⟩ := synthesize_eq_ok h
  obtain ⟨entries, serializers, checks, he, hc, rfl⟩ := body_eq_ok hb
  have settles := List.forall_mem_append.1 fun statement mem =>
    show Settles config statement from fun concat => kept concat statement mem
  refine ⟨entries, serializers, checks, he, hc, fun described => ?_, ?_⟩
  · have exports := fun statement mem =>
      settles.2 statement (mem_ownBody_of_metadataExports described mem)
    obtain ⟨descriptor, rest⟩ := List.forall_mem_cons.1 exports
    obtain ⟨checksOf, -⟩ := List.forall_mem_cons.1 rest
    exact ⟨descriptor.of_exported, checksOf.of_exported⟩
  · rw [hs, List.map_append, map_settle_of_templateFree templateFree_preamble,
      settle_ownBody settles.2]

/-- A wrapper is put together from objects that list the metadata. -/
theorem synthesize_eq_settled {filename : Text} {wrapper : Node}
    (h : synthesize config m filename = .ok wrapper) :
    ∃ name serializers descriptor checks, name.isSome = m.elementName.isSome ∧
      (m.elementName.isSome ∨ m.className.isSome →
        Lists m parentDescriptor descriptor ∧ Lists m parentChecks checks) ∧
      wrapper.statements = preamble config m ++ ownBody config { m with elementName := name }
        (if filename.isEmpty then m.filename else filename) serializers descriptor checks := by
  obtain ⟨entries, serializers, checks, he, hc, settles, statements⟩ := synthesize_eq_parts h
  refine ⟨_, serializers, _, _, Option.isSome_map, fun described => ?_, statements⟩
  obtain ⟨descriptor, checksOf⟩ := settles described
  refine ⟨lists_settle ?_ descriptor, lists_settle ?_ checksOf⟩
  · exact List.rel_append (propertyEntries_named he) (eventEntries_named m.events)
  · exact List.rel_append (propertyChecks_named hc) (eventChecks_named m.events)

end Wrapper

end ElementWrapper
