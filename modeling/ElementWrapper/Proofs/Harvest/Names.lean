import ElementWrapper.Proofs.Harvest.Complaints

/-!
Whose names the properties and the events of a module have. A member has a static name if its key is
written out, or computed from nothing but a string (`staticName?`). An event always has the static
name of its member. So has a property, with one exception: at a member with a key that is computed
from an identifier it has the name of that identifier, which is not the name of the member but the
place where it is found (`names_of_harvest`).
-/

namespace ElementWrapper.Harvest

/-- The key of a field or of a method, and whether it is computed. -/
def memberKey? (member : Node) : Option (Node × Bool) :=
  match member.form with
  | .classMethod key _ _ computed _ _ | .classField key _ _ computed _ => some (key, computed)
  | _ => none

/-- The name that a member has whenever the module is run. -/
def staticName? (member : Node) : Option Text := do
  let (key, computed) ← memberKey? member
  if computed then key.stringValue? else key.keyName?

/-- The identifier that the key of a member is computed from. -/
def computedFrom? (member : Node) : Option Text := do
  let (key, computed) ← memberKey? member
  if computed then key.identifierName? else none

/-- The member that a decorator declares a property at. -/
def declaringMember? (config : WrapperConfig) (imports : ImportTable) (visit : Visit) :
    Option Node := do
  let _ ← propertyArguments? config imports visit
  visit.parent

section

variable {config : WrapperConfig} {imports : ImportTable} {visit : Visit} {member key : Node}
  {name : Text}

/-! ## Members -/

theorem memberKey?_of_propertyKey? (h : propertyKey? member = some key) :
    ∃ computed, memberKey? member = some (key, computed) := by
  rw [propertyKey?] at h
  rw [memberKey?]
  split at h <;> simp_all

theorem staticName?_of_staticKey? (h : staticKey? member = some key) :
    staticName? member = key.keyName? := by
  have static : memberKey? member = some (key, false) := by
    rw [staticKey?] at h
    rw [memberKey?]
    split at h <;> simp_all
  rw [staticName?, static]
  rfl

/-- A key that is computed from an identifier looks like a name, although it is none. -/
theorem keyName?_eq_some_iff (h : memberKey? member = some (key, computed)) :
    key.keyName? = some name ↔
      staticName? member = some name ∨ computedFrom? member = some name := by
  obtain ⟨_, _, form⟩ := key
  rw [staticName?, computedFrom?, h]
  cases computed with
  | false => exact (or_iff_left (Option.some_ne_none name).symm).symm
  | true =>
    cases form with
    | identifier | string => simp [Node.keyName?, Node.stringValue?, Node.identifierName?]
    | _ =>
      have absent := (Option.some_ne_none name).symm
      exact iff_of_false absent (not_or.2 ⟨absent, absent⟩)

/-! ## What a visit names -/

theorem map_event? :
    (event? visit).map Prod.fst = (staticKey? visit.node).bind eventName? := by
  cases hk : staticKey? visit.node with
  | none => simp [event?, hk]
  | some key =>
    rw [event?_eq hk, Option.map_map]
    exact Option.map_id'

/-- A property is declared under the name of the key of the member that its decorator stands at. -/
theorem map_declaration? :
    (declaration? config imports visit).map Prod.fst =
      (declaringMember? config imports visit).bind fun member =>
        (propertyKey? member).bind Node.keyName? := by
  cases hc : decoratorCall? visit with
  | none => simp [declaration?, declaringMember?, propertyArguments?, hc]
  | some call =>
    cases hb : imports.lookup call.1 with
    | none => simp [declaration?, declaringMember?, propertyArguments?, hc, hb]
    | some binding =>
      simp only [declaration?, declaringMember?, propertyArguments?, hc, hb, Option.bind_eq_bind,
        Option.bind_some, Option.map_bind, Option.bind_assoc]
      cases visit.parent with
      | none => simp
      | some member =>
        cases hk : propertyKey? member with
        | none => simp [hk]
        | some key => cases hn : key.keyName? <;> split <;> simp [hk, hn]

/-- The names of a table are those of the entries it is made of. -/
theorem mem_names_latest_iff {α β : Type} {find : α → Option (Text × β)} {as : List α} :
    name ∈ (Table.latest (as.filterMap find)).names ↔
      ∃ a ∈ as, (find a).map Prod.fst = some name := by
  rw [← Table.ofList_eq_latest, Table.names_ofList, List.mem_eraseDups, List.map_filterMap,
    List.mem_filterMap]

/-- A step accepts a declaration at a field or an accessor only. -/
theorem exists_propertyKey? {m next : Metadata} (h : step config imports m visit = .ok next)
    (declares : declaringMember? config imports visit = some member) :
    ∃ key, propertyKey? member = some key := by
  obtain ⟨arguments, declared, parent⟩ := Option.bind_eq_some_iff.1 declares
  have target : targetComplaint? visit = none := by
    have quiet := complaints_of_step_ok h
    simp only [complaints, declared, List.append_eq_nil_iff, Option.toList_eq_nil_iff] at quiet
    exact quiet.2.2
  rw [targetComplaint?, parent, ite_eq_left_iff] at target
  exact Option.isSome_iff_exists.1 (not_imp_comm.1 target (Option.some_ne_none _))

end

/-! ## The whole -/

section

variable {config : WrapperConfig} {filename : Text} {program : Node} {m : Metadata}

/-- A property is declared at a field or an accessor of the module. -/
theorem isMember_of_declaring (h : harvest config filename program = .ok m) {member : Node}
    (declaring : member ∈ program.visits.filterMap
      (declaringMember? config (ImportTable.ofProgram program))) :
    (propertyKey? member).isSome ∧ ∃ visit ∈ program.visits, visit.node = member := by
  obtain ⟨visit, met, declares⟩ := List.mem_filterMap.1 declaring
  obtain ⟨_, _, passed⟩ := Except.ok_of_foldlM h visit met
  refine ⟨Option.isSome_iff_exists.2 (exists_propertyKey? passed declares), ?_⟩
  obtain ⟨_, -, above⟩ := Option.bind_eq_some_iff.1 declares
  obtain ⟨before, after, order⟩ := List.append_of_mem met
  obtain root | ⟨earlier, mem, parent⟩ := Node.exists_parent_visit order
  · cases above.symm.trans root
  · exact ⟨earlier, by simp [order, mem], Option.some.inj (parent.symm.trans above)⟩

/-- **Whose names are harvested.** The events have the static names of the static members for them.
The properties have the names of the fields and the accessors that they are declared at: the static
name, or the identifier that the name is computed from. -/
theorem names_of_harvest (h : harvest config filename program = .ok m) :
    let declaring := program.visits.filterMap
      (declaringMember? config (ImportTable.ofProgram program))
    (∀ member ∈ declaring, (propertyKey? member).isSome ∧
      ∃ visit ∈ program.visits, visit.node = member) ∧
    (∀ name, name ∈ m.properties.names ↔
      ∃ member ∈ declaring, staticName? member = some name ∨ computedFrom? member = some name) ∧
    ∀ name, name ∈ m.events.names ↔ ∃ visit ∈ program.visits, (staticKey? visit.node).isSome ∧
      staticName? visit.node = some name ∧ Event.memberStart <+: name := by
  intro declaring
  have members : ∀ member ∈ declaring, (propertyKey? member).isSome ∧
      ∃ visit ∈ program.visits, visit.node = member := fun _ => isMember_of_declaring h
  obtain ⟨rfl, -⟩ := content_of_harvest h
  refine ⟨members, fun name => ?_, fun name => ?_⟩
  · calc
      name ∈ (Table.latest (program.visits.filterMap _)).names ↔
          ∃ member ∈ declaring, (propertyKey? member).bind Node.keyName? = some name := by
        simp only [mem_names_latest_iff, map_declaration?, Option.bind_eq_some_iff, declaring,
          List.mem_filterMap]
        grind
      _ ↔ _ := by
        refine exists_congr fun member => and_congr_right fun mem => ?_
        obtain ⟨key, hk⟩ := Option.isSome_iff_exists.1 (members member mem).1
        obtain ⟨computed, hm⟩ := memberKey?_of_propertyKey? hk
        rw [hk, Option.bind_some, keyName?_eq_some_iff hm]
  · refine mem_names_latest_iff.trans (exists_congr fun visit => and_congr_right fun _ => ?_)
    rw [map_event?]
    cases hk : staticKey? visit.node with
    | none => simp
    | some key =>
      simp [staticName?_of_staticKey? hk, eventName?, Option.filter_eq_some_iff, Event.isMember]

end

/-- A property whose name is the value of a variable. -/
def computedField : Node :=
  .of (.classField (.identifier "foo") (some (.of (.number "1"))) false true
    [.of (.decorator (.of (.call (.identifier "property") [])))])

/-- A class with that property. -/
def computedModule : Node :=
  .of (.program [
    .of (.importDeclaration
      [.of (.importSpecifier (.identifier "property") (.identifier "property"))]
      (.string "lit-element") false),
    .of (.classDeclaration (some (.identifier "A")) none [] [computedField])])

theorem names_of_computedModule :
    ∃ m, harvest {} "a.ts" computedModule = .ok m ∧ ("foo" : Text) ∈ m.properties.names ∧
      ∀ visit ∈ computedModule.visits, staticName? visit.node = none := by
  have success : ∃ m, harvest {} "a.ts" computedModule = .ok m := ⟨_, rfl⟩
  obtain ⟨m, h⟩ := success
  have declaring : computedField ∈ computedModule.visits.filterMap
      (declaringMember? {} (ImportTable.ofProgram computedModule)) := List.mem_singleton.2 rfl
  refine ⟨m, h, ((names_of_harvest h).2.1 "foo").2 ⟨computedField, declaring, .inr rfl⟩, ?_⟩
  decide +kernel

end ElementWrapper.Harvest
