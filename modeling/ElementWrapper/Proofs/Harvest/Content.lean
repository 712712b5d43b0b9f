import ElementWrapper.Proofs.Harvest.Findings
import ElementWrapper.Proofs.Result

/-!
A harvest that ends without a complaint gives the content of the visits. `absorb` says what one
visit changes, and `step_eq_absorb` that a step which complains about nothing does no more and no
less. Each part of the metadata is then the fold of its own findings (`foldl_absorb`), whatever the
other visits change.
-/

namespace ElementWrapper.Harvest

variable (config : WrapperConfig) (imports : ImportTable)

/-- The table of exports with one more. -/
def addReexport (table : Table (Table Text)) (e : Reexport) : Table (Table Text) :=
  table.put e.source (((table.get? e.source).getD []).put e.exported e.imported)

/-- A table with one more entry. -/
def addEntry (table : Table α) (entry : Text × α) : Table α := table.put entry.1 entry.2

/-- The metadata with what a visit contributes. -/
def absorb (m : Metadata) (visit : Visit) : Metadata where
  filename := m.filename
  className := (className? visit).or m.className
  classComments := (classComments? visit).getD m.classComments
  elementName := ((elementArguments? config visit).bind List.head?).or m.elementName
  properties := (declaration? config imports visit).toList.foldl addEntry m.properties
  events := (event? visit).toList.foldl addEntry m.events
  parentSource := (parentSource? config imports m.filename visit).or m.parentSource
  reexports := (reexports imports visit).foldl addReexport m.reexports

variable {config imports}

/-! ## Classes -/

section

variable {id superClass : Option Node} {decorators body : List Node}

/-- The module of a parent class is kept if it is named and lies inside the tree of components. -/
theorem parentSource?_eq {filename : Text} {visit : Visit} {found : Option (Text × Bool)}
    (hf : visit.node.form = .classDeclaration id superClass decorators body)
    (h : parentModule config imports filename superClass = .ok found) :
    parentSource? config imports filename visit =
      found.bind fun (source, inside) => if source ≠ [] ∧ inside then some source else none := by
  cases superClass with
  | none =>
    obtain rfl : none = found := by simpa [parentModule] using h
    simp [parentSource?, hf]
  | some superClass =>
    cases hb : (superclassTarget superClass).bind imports.lookup with
    | none =>
      obtain rfl : none = found := by simpa [parentModule, hb] using h
      simp [parentSource?, hf, hb]
    | some binding =>
      cases hd : binding.isDefault with
      | false =>
        obtain rfl : none = found := by simpa [parentModule, hb, hd] using h
        simp [parentSource?, hf, hb, hd]
      | true =>
        simp only [parentModule, Option.bind_some, hb, hd, Bool.not_true, Bool.false_eq_true,
          if_false, Except.bind_eq_ok, Except.mapError_eq_ok, Except.pure_eq_ok] at h
        obtain ⟨source, hs, rfl⟩ := h
        simp [parentSource?, hf, hb, hd, hs, Except.toOption]

/-- What a visit of a class changes is what is absorbed from it. -/
theorem visitClass_eq_absorb {m next : Metadata} {visit : Visit}
    (hf : visit.node.form = .classDeclaration id superClass decorators body)
    (h : visitClass config imports m visit.node.comments id superClass = .ok next) :
    next = absorb config imports m visit := by
  simp only [visitClass, Except.bind_eq_ok, Except.pure_eq_ok] at h
  obtain ⟨found, hp, rfl⟩ := h
  have nothing : elementArguments? config visit = none ∧ declaration? config imports visit = none ∧
      event? visit = none ∧ reexports imports visit = [] := by
    simp [elementArguments?, declaration?, decoratorCall?, event?, staticKey?, reexports, hf]
  rw [absorb, parentSource?_eq hf hp]
  simp only [nothing, className?, classComments?, hf]
  obtain _ | ⟨_ | ⟨_, _⟩, _ | _⟩ := found <;> cases id <;> cases visit.node.comments <;> rfl

end

/-! ## Exports -/

/-- An export adds what it takes from other modules, specifier by specifier. -/
theorem visitExport_eq (m : Metadata) (specifiers : List Node) (source : Option Node) :
    visitExport imports m specifiers source =
      { m with
        reexports := (specifiers.filterMap (reexport? imports source)).foldl addReexport
          m.reexports } := by
  induction specifiers generalizing m with
  | nil => rfl
  | cons specifier specifiers ih =>
    rw [visitExport, List.foldl_cons]
    refine (ih _).trans ?_
    rw [List.filterMap_cons]
    cases hf : specifier.form with
    | exportSpecifier binding exported =>
      cases source with
      | some source => simp [reexport?, hf, Metadata.addExport, addReexport]
      | none =>
        cases hb : imports.lookup binding.name with
        | none => simp [reexport?, hf, hb]
        | some found =>
          cases hn : found.isNamespace <;>
            simp [reexport?, hf, hb, hn, Metadata.addExport, addReexport]
    | _ => simp [reexport?, hf]

/-! ## Events -/

/-- A member with a static key is an event just if its key names one. -/
theorem event?_eq {visit : Visit} {key : Node} (h : staticKey? visit.node = some key) :
    event? visit = (eventName? key).map fun name =>
      (name, {
        name := (heldValue? visit.node).getD visit.node
        comments := visit.node.comments
        location := visit.node.location }) := by
  cases hk : key.keyName? with
  | none => simp [event?, h, eventName?, hk]
  | some name =>
    by_cases he : Event.memberStart <+: name
    · simp [event?, h, eventName?, hk, Event.isMember, Option.filter, he]
    · simp [event?, h, eventName?, hk, Event.isMember, Option.filter, he]

/-- What a getter returns is the value that it holds, and it is a string or a template. -/
theorem heldValue?_of_returned {node key value : Node} {decorators : List Node} {body : Option Node}
    (hf : node.form = .classMethod key kind static computed decorators body)
    (h : returned location body = .ok value) :
    heldValue? node = some value ∧ value.isStringLike := by
  cases body with
  | none => simp [returned] at h
  | some body =>
    cases hs : body.statements with
    | nil => simp [returned, hs] at h
    | cons statement rest =>
      obtain ⟨_, _, form⟩ := statement
      cases rest with
      | cons => simp [returned, hs] at h
      | nil =>
        cases form <;> simp [returned, hs, Node.form] at h
        case returnStatement argument =>
          cases argument with
          | none => simp at h
          | some argument =>
            obtain ⟨like, rfl⟩ := Except.guard_eq_ok.1 h
            simp [heldValue?, hf, hs, like]

theorem heldValue?_of_fieldValue {node key value : Node} {decorators : List Node}
    {init : Option Node} (hf : node.form = .classField key init static computed decorators)
    (h : fieldValue location init = .ok value) :
    heldValue? node = some value ∧ value.isStringLike := by
  cases init with
  | none => simp [fieldValue] at h
  | some init =>
    obtain ⟨like, rfl⟩ := Except.guard_eq_ok.1 h
    simp [heldValue?, hf, like]

/-! ## Decorators -/

theorem getLast?_filterMap_cons {α β : Type} (f : α → Option β) (a : α) (as : List α) :
    ((a :: as).filterMap f).getLast? = (as.filterMap f).getLast?.or (f a) := by
  cases h : f a with
  | none => simp [h]
  | some b => cases h' : (as.filterMap f).getLast? <;> simp [h, h', List.getLast?_cons]

/-- An option sets the type, the attribute or nothing, by its key. -/
theorem addOption_eq {property next : PropertyMetadata} {option : Node}
    (h : addOption property option = .ok next) :
    next = { property with
      type := ((optionValue? "type" option).map Node.identifierName?).getD property.type
      policy := ((optionValue? "attribute" option).map policyOf).getD property.policy } := by
  obtain ⟨_, _, form⟩ := option
  cases form <;> simp [addOption, Node.form] at h <;> simp [optionValue?, Node.form, ← h]
  case property key value computed =>
    have different : ("type" : Text) ≠ "attribute" := by decide
    obtain ⟨_, _, form⟩ := value
    cases computed with
    | true =>
      simp at h
      simp [h]
    | false =>
      by_cases isType : key.keyName? = some ("type" : Text)
      · cases form <;> simp [isType] at h
        simp [isType, different, Node.identifierName?, ← h]
      · by_cases isAttribute : key.keyName? = some ("attribute" : Text)
        · cases form <;> simp [isAttribute, different.symm] at h <;>
            simp [isAttribute, different.symm, policyOf, Node.form, ← h]
        · simp [isType, isAttribute] at h
          simp [isType, isAttribute, h]

/-- Of the options with one key the last counts. -/
theorem foldlM_addOption_eq {options : List Node} {property next : PropertyMetadata}
    (h : options.foldlM addOption property = .ok next) :
    next = { property with
      type := ((lastValue? "type" options).map Node.identifierName?).getD property.type
      policy := ((lastValue? "attribute" options).map policyOf).getD property.policy } := by
  induction options generalizing property with
  | nil =>
    simp at h
    simp [lastValue?, h]
  | cons option options ih =>
    simp only [List.foldlM_cons, Except.bind_eq_ok] at h
    obtain ⟨middle, hm, h⟩ := h
    rw [ih h, addOption_eq hm]
    simp only [lastValue?, getLast?_filterMap_cons]
    simp [Option.map_or, Option.getD_or]

theorem propertyOf_def (location : Option Location) (parent : Option Node) (arguments : List Node) :
    propertyOf location parent arguments = (do
      let property ← (optionEntries arguments).foldlM addOption { location }
      return { property with comments := (parent.map Node.comments).getD [] }) := by
  match arguments with
  | [] => rfl
  | .mk _ _ form :: _ => cases form <;> rfl

/-- A property is made of the last options with each key and the comments before its member. -/
theorem propertyOf_eq {location : Option Location} {parent : Option Node} {arguments : List Node}
    {property : PropertyMetadata} (h : propertyOf location parent arguments = .ok property) :
    property = {
      type := (lastValue? "type" (optionEntries arguments)).bind Node.identifierName?
      policy := ((lastValue? "attribute" (optionEntries arguments)).map policyOf).getD .unspecified
      comments := (parent.map Node.comments).getD []
      location } := by
  simp only [propertyOf_def, Except.bind_eq_ok, Except.pure_eq_ok] at h
  obtain ⟨found, hf, rfl⟩ := h
  rw [foldlM_addOption_eq hf]
  cases lastValue? "type" (optionEntries arguments) <;> rfl

section

variable {m next : Metadata} {visit : Visit} {name : Text} {arguments : List Node}

/-- The name of an element replaces one that was found before. -/
theorem element_eq {call : Node} (hc : decoratorCall? visit = some (name, arguments))
    (h : (if name = config.elementDecorator then visitElement m call arguments else pure m) =
      .ok next) :
    next = { m with
      elementName := ((elementArguments? config visit).bind List.head?).or m.elementName } ∧
    elementArguments? config visit ≠ some [] := by
  by_cases hn : name = config.elementDecorator
  · cases arguments with
    | nil => simp [hn, visitElement] at h
    | cons first rest =>
      rw [if_pos hn, visitElement, Except.guard_eq_ok] at h
      simp [elementArguments?, hc, hn, ← h.2]
  · rw [if_neg hn, Except.pure_eq_ok] at h
    simp [elementArguments?, hc, hn, h]

theorem declaresProperty_iff :
    declaresProperty config imports name ↔ ∃ binding, imports.lookup name = some binding ∧
      binding.imported = propertyDecorator ∧ binding.source ∈ config.propertySources := by
  cases h : imports.lookup name <;> simp [declaresProperty, ImportTable.isNamedImport, h]

/-- A decorator that declares a property adds one entry to the properties, or none if the member has
no name. -/
theorem property_eq (hc : decoratorCall? visit = some (name, arguments))
    (h : (if declaresProperty config imports name then
      visitProperty m visit.node.location visit.parent arguments else pure m) = .ok next) :
    next = { m with
      properties := (declaration? config imports visit).toList.foldl addEntry m.properties } := by
  by_cases hd : declaresProperty config imports name
  · obtain ⟨binding, hb, declares⟩ := declaresProperty_iff.1 hd
    rw [if_pos hd] at h
    simp only [visitProperty, Except.bind_eq_ok] at h
    obtain ⟨property, hp, h⟩ := h
    cases hk : visit.parent.bind propertyKey? with
    | none => simp [hk, throw, throwThe, MonadExceptOf.throw] at h
    | some key =>
      simp only [hk, Except.pure_eq_ok] at h
      obtain ⟨parent, hv, hk⟩ := Option.bind_eq_some_iff.1 hk
      cases hn : key.keyName? with
      | none => simp [declaration?, hc, hv, hk, hn, ← h]
      | some property =>
        simp [declaration?, hc, hb, hv, hk, hn, declares, ← h, propertyOf_eq hp, addEntry,
          Metadata.putProperty]
  · rw [if_neg hd, Except.pure_eq_ok] at h
    have nothing : declaration? config imports visit = none := by
      rw [declaresProperty_iff] at hd
      simp only [declaration?, hc, Option.bind_eq_bind, Option.bind_some,
        Option.bind_eq_none_iff]
      intro binding hb _ _ _ _ _ _
      rw [if_neg fun declares => hd ⟨binding, hb, declares⟩]
    simp [nothing, h]

theorem decoratorCall?_eq {expression : Node} (hf : visit.node.form = .decorator expression) :
    decoratorCall? visit = namedCall? expression := by
  rw [decoratorCall?, hf]
  obtain ⟨_, _, form⟩ := expression
  cases form with
  | call callee arguments =>
    obtain ⟨_, _, form⟩ := callee
    cases form <;> rfl
  | _ => rfl

theorem visitDecorator_of_call {expression : Node}
    (h : namedCall? expression = some (name, arguments)) :
    visitDecorator config imports m visit expression =
      (if name = config.elementDecorator then visitElement m expression arguments else pure m) >>=
        fun m => if declaresProperty config imports name then
          visitProperty m visit.node.location visit.parent arguments else pure m := by
  rw [visitDecorator, h]
  by_cases hn : name = config.elementDecorator <;> simp [hn]

/-- What a visit of a decorator changes: the name of the element and the properties. -/
theorem visitDecorator_eq {expression : Node} (hf : visit.node.form = .decorator expression)
    (h : visitDecorator config imports m visit expression = .ok next) :
    next = { m with
      elementName := ((elementArguments? config visit).bind List.head?).or m.elementName
      properties := (declaration? config imports visit).toList.foldl addEntry m.properties } ∧
    elementArguments? config visit ≠ some [] := by
  have hc := decoratorCall?_eq hf
  cases hn : namedCall? expression with
  | none =>
    simp only [visitDecorator, hn, Except.ok.injEq] at h
    simp [elementArguments?, declaration?, hc, hn, ← h]
  | some call =>
    obtain ⟨name, arguments⟩ := call
    rw [visitDecorator_of_call hn, Except.bind_eq_ok] at h
    obtain ⟨named, he, h⟩ := h
    obtain ⟨rfl, nonempty⟩ := element_eq (hc.trans hn) he
    exact ⟨property_eq (hc.trans hn) h, nonempty⟩

end

/-! ## Runs -/

/-- What holds of a visit that a step accepts: a call for the name of an element has arguments, and
the member that declares an event holds a string or a template. -/
structure Sound (config : WrapperConfig) (visit : Visit) : Prop where
  element : elementArguments? config visit ≠ some []
  event : ∀ entry ∈ event? visit,
    heldValue? visit.node = some entry.2.name ∧ entry.2.name.isStringLike

/-- What a visit of a static member changes: the events, by one entry at most. -/
theorem step_eq_of_staticKey? {m next : Metadata} {visit : Visit} {key : Node}
    {value : Except Failure Node} (hk : staticKey? visit.node = some key)
    (hv : ∀ name, value = .ok name → heldValue? visit.node = some name ∧ name.isStringLike)
    (h : (match eventName? key with
      | some name => do
        return m.putEvent name ⟨← value, visit.node.comments, visit.node.location⟩
      | none => .ok m) = .ok next) :
    next = { m with events := (event? visit).toList.foldl addEntry m.events } ∧
      ∀ entry ∈ event? visit,
        heldValue? visit.node = some entry.2.name ∧ entry.2.name.isStringLike := by
  rw [event?_eq hk]
  cases hn : eventName? key with
  | none =>
    simp [hn] at h
    simp [h]
  | some event =>
    simp [hn] at h
    obtain ⟨name, rfl, rfl⟩ := h
    obtain ⟨held, like⟩ := hv name rfl
    simp [held, like, addEntry, Metadata.putEvent]

/-- **What a step does**: a step that complains about nothing adds what the visit contributes. -/
theorem step_eq_absorb {m next : Metadata} {visit : Visit}
    (h : step config imports m visit = .ok next) :
    next = absorb config imports m visit ∧ Sound config visit := by
  obtain ⟨⟨location, comments, form⟩, parent⟩ := visit
  cases form with
  | classDeclaration id superClass decorators body =>
    exact ⟨visitClass_eq_absorb rfl h, nofun, nofun⟩
  | decorator expression =>
    obtain ⟨rfl, nonempty⟩ := visitDecorator_eq rfl h
    exact ⟨rfl, nonempty, nofun⟩
  | exportNamed declaration specifiers source typeOnly =>
    cases typeOnly with
    | true => exact ⟨(Except.ok.inj h).symm, nofun, nofun⟩
    | false =>
      exact ⟨(Except.ok.inj h).symm.trans (visitExport_eq m specifiers source), nofun, nofun⟩
  | classMethod key kind static computed decorators body =>
    match kind, static, computed with
    | .get, true, false =>
      exact And.imp_right (fun held => ⟨nofun, held⟩)
        (step_eq_of_staticKey? rfl (fun _ => heldValue?_of_returned rfl) h)
    | .get, true, true | .get, false, _ | .method, _, _ | .set, _, _ | .constructor, _, _ =>
      exact ⟨(Except.ok.inj h).symm, nofun, nofun⟩
  | classField key value static computed decorators =>
    match static, computed with
    | true, false =>
      exact And.imp_right (fun held => ⟨nofun, held⟩)
        (step_eq_of_staticKey? rfl (fun _ => heldValue?_of_fieldValue rfl) h)
    | true, true | false, _ => exact ⟨(Except.ok.inj h).symm, nofun, nofun⟩
  | _ => exact ⟨(Except.ok.inj h).symm, nofun, nofun⟩

theorem lastOf_cons {α : Type} (find : Visit → Option α) (visit : Visit) (visits : List Visit) :
    lastOf find (visit :: visits) = (lastOf find visits).or (find visit) :=
  getLast?_filterMap_cons find visit visits

/-- Field by field, what a sequence of visits leaves: of classes and elements the last, of the
entries of a table the last of each name. -/
theorem foldl_absorb (visits : List Visit) (m : Metadata) :
    visits.foldl (absorb config imports) m = {
      filename := m.filename
      className := (lastOf className? visits).or m.className
      classComments := (lastOf classComments? visits).getD m.classComments
      elementName :=
        (lastOf (fun visit => (elementArguments? config visit).bind List.head?) visits).or
          m.elementName
      properties := (visits.filterMap (declaration? config imports)).foldl addEntry m.properties
      events := (visits.filterMap event?).foldl addEntry m.events
      parentSource := (lastOf (parentSource? config imports m.filename) visits).or m.parentSource
      reexports := (visits.flatMap (reexports imports)).foldl addReexport m.reexports } := by
  induction visits generalizing m with
  | nil => rfl
  | cons visit visits ih =>
    rw [List.foldl_cons, ih]
    simp only [lastOf_cons, absorb, Option.or_assoc, Option.getD_or,
      List.filterMap_eq_flatMap_toList, List.flatMap_cons, List.foldl_append]

/-- A run that complains about nothing adds what the visits contribute, one after the other. -/
theorem foldlM_step_eq_absorb {visits : List Visit} {m next : Metadata}
    (h : visits.foldlM (step config imports) m = .ok next) :
    next = visits.foldl (absorb config imports) m ∧
      ∀ visit ∈ visits, Sound config visit := by
  induction visits generalizing m with
  | nil => exact ⟨(Except.ok.inj h).symm, nofun⟩
  | cons visit visits ih =>
    rw [List.foldlM_cons, Except.bind_eq_ok] at h
    obtain ⟨middle, hm, h⟩ := h
    obtain ⟨rfl, sound⟩ := step_eq_absorb hm
    obtain ⟨rfl, rest⟩ := ih h
    exact ⟨rfl, List.forall_mem_cons.2 ⟨sound, rest⟩⟩

/-! ## The whole -/

/-- The last name of an element is the first argument of the last decorator of an element, since
none that passed its check is without arguments. -/
theorem lastOf_elementArguments? {visits : List Visit} (h : ∀ visit ∈ visits, Sound config visit) :
    lastOf (fun visit => (elementArguments? config visit).bind List.head?) visits =
      (lastOf (elementArguments? config) visits).bind List.head? := by
  induction visits with
  | nil => rfl
  | cons visit visits ih =>
    rw [lastOf_cons, lastOf_cons, ih (List.forall_mem_cons.1 h).2]
    cases last : lastOf (elementArguments? config) visits with
    | none => rfl
    | some arguments =>
      cases arguments with
      | cons first rest => rfl
      | nil =>
        -- A call without arguments would have stopped the harvest.
        obtain ⟨visit, mem, found⟩ := List.mem_filterMap.1 (List.mem_of_getLast? last)
        exact absurd found (h visit (List.mem_cons_of_mem _ mem)).element

theorem names_concat (exports : List Reexport) (e : Reexport) :
    Reexport.names (exports ++ [e]) = (Reexport.names exports).put e.exported e.imported := by
  simp only [Reexport.names, ← Table.ofList_eq_latest, List.map_append, List.map_singleton,
    Table.ofList_concat]

theorem names_foldl_addReexport (exports : List Reexport) :
    (exports.foldl addReexport []).names = (exports.map (·.source)).eraseDups := by
  -- From the end: a module keeps the place at which it was first put.
  induction exports using List.reverseRecOn with
  | nil => rfl
  | append_singleton exports e ih =>
    rw [List.foldl_append, List.foldl_cons, List.foldl_nil, addReexport, Table.names_put, ih,
      List.map_append, List.map_singleton, Table.eraseDups_concat]
    simp only [List.mem_eraseDups]

/-- What is exported again from one source is what the exports from that source name. -/
theorem get?_foldl_addReexport (exports : List Reexport) (source : Text) :
    ((exports.foldl addReexport []).get? source).getD [] =
      Reexport.names (exports.filter (·.source = source)) := by
  induction exports using List.reverseRecOn with
  | nil => rfl
  | append_singleton exports e ih =>
    rw [List.foldl_append, List.foldl_cons, List.foldl_nil, addReexport, Table.get?_put,
      List.filter_append]
    by_cases he : source = e.source
    · obtain rfl := he
      simp [names_concat, ih]
    · simp [he, Ne.symm he, ih]

theorem foldl_addReexport (exports : List Reexport) :
    exports.foldl addReexport [] = Reexport.grouped exports := by
  have nodup : (exports.foldl addReexport []).names.Nodup := by
    rw [names_foldl_addReexport]
    exact Table.nodup_eraseDups _
  rw [Table.eq_map nodup [], names_foldl_addReexport]
  simp only [get?_foldl_addReexport]
  rfl

theorem content_of_harvest {filename : Text} {program : Node} {m : Metadata}
    (h : harvest config filename program = .ok m) :
    m = content config (ImportTable.ofProgram program) filename program.visits ∧
      ∀ visit ∈ program.visits, Sound config visit := by
  obtain ⟨rfl, sound⟩ := foldlM_step_eq_absorb h
  refine ⟨?_, sound⟩
  rw [foldl_absorb, lastOf_elementArguments? sound, foldl_addReexport]
  have table {α : Type} (entries : List (Text × α)) :
      entries.foldl addEntry [] = Table.latest entries := Table.ofList_eq_latest entries
  simp only [content, table, Option.or_none]

/-- **What a harvest finds**: when it complains about nothing, the content of the visits; and every
event has the string or the template that its member holds for its name. -/
theorem harvest_eq_content {filename : Text} {program : Node} {m : Metadata}
    (h : harvest config filename program = .ok m) :
    m = content config (ImportTable.ofProgram program) filename program.visits ∧
      ∀ visit ∈ program.visits, ∀ entry ∈ event? visit,
        heldValue? visit.node = some entry.2.name ∧ entry.2.name.isStringLike := by
  obtain ⟨found, sound⟩ := content_of_harvest h
  exact ⟨found, fun visit mem => (sound visit mem).event⟩

/-- A module whose class declares the event of toggling and, twice, a property. -/
def toggleModule : Node :=
  let property (arguments : List Node) : Node :=
    .of (.decorator (.of (.call (.identifier "prop") arguments)))
  let option (key : Text) (value : Node) : Node :=
    .of (.property (.identifier key) value false)
  .of (.program [
    .of (.importDeclaration
      [.of (.importSpecifier (.identifier "prop") (.identifier "property"))]
      (.string "lit-element") false),
    .of (.classDeclaration (some (.identifier "Toggle")) none
      [.of (.decorator (.of (.call (.identifier "customElement") [.string "x-toggle"])))]
      [.of (.classField (.identifier "on") none false false [
          property [.of (.object [option "type" (.identifier "String")])],
          property [.of (.object [option "type" (.identifier "Boolean"),
            option "attribute" (.string "is-on")])]]),
        .of (.classMethod (.identifier "eventToggle") .get true false []
          (some (.of (.block [.of (.returnStatement (some (.string "toggled")))]))))])])

/-- A class with an element, a property and an event, and what is found in it. -/
theorem harvest_toggleModule :
    ∃ m, harvest {} "toggle.ts" toggleModule = .ok m ∧
      m = content {} (ImportTable.ofProgram toggleModule) "toggle.ts" toggleModule.visits ∧
      m.className = some ("Toggle" : Text) ∧
      m.properties = [(("on" : Text), { type := some "Boolean", policy := .named "is-on" })] ∧
      m.events.names = [("eventToggle" : Text)] := by
  have success : ∃ m, harvest {} "toggle.ts" toggleModule = .ok m := ⟨_, rfl⟩
  obtain ⟨m, h⟩ := success
  refine ⟨m, h, (harvest_eq_content h).1, ?_⟩
  cases h
  exact ⟨rfl, rfl, rfl⟩

end ElementWrapper.Harvest
