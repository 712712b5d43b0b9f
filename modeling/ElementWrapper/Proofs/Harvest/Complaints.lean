import ElementWrapper.Proofs.Harvest.Content
import ElementWrapper.Proofs.Module.Recursion

/-!
Which modules a harvest rejects, and why. `complaints` lists what is wrong with a node, said for the
node alone and in the order in which the complaints win over each other. A harvest fails just if
there is a complaint about some node, and with the first complaint about the first such node
(`harvest_fails_iff`). The nodes come in the order of `visitsBelow_eq`, so that a complaint about a
member wins over those about its decorators.
-/

namespace ElementWrapper

namespace Harvest

/-- Where a part of a node stands; a missing part has the place of the node. -/
def placeOf (part : Option Node) (node : Node) : Option Location :=
  part.elim node.location Node.location

/-- What is wrong with a getter that does not just return a string or a template, or with a field
that is not initialised with one. -/
def holderComplaint? (member : Node) : Option Diagnostic :=
  if (heldValue? member).any Node.isStringLike then none
  else match member.form with
    | .classMethod _ _ _ _ _ body =>
      let first := (body.map Node.statements).bind List.head?
      some { message := getterMessage, location := placeOf first member }
    | .classField _ value .. => some { message := fieldMessage, location := placeOf value member }
    | _ => none

/-- What is wrong with a static member for an event. -/
def eventComplaint? (visit : Visit) : Option Diagnostic := do
  let name ← (← staticKey? visit.node).keyName?
  if Event.memberStart <+: name then holderComplaint? visit.node else none

/-- What is wrong with an entry of the options of a property: a type that is no identifier, or an
attribute that is neither a boolean nor a string. -/
def optionComplaint? (entry : Node) : Option Diagnostic :=
  match optionValue? "type" entry, optionValue? "attribute" entry with
  | some value, _ =>
    if value.identifierName?.isSome then none
    else some { message := typeMessage, location := value.location }
  | none, some value =>
    if policyOf value = .unspecified then
      some { message := attributeMessage, location := value.location }
    else none
  | none, none => none

/-- What is wrong with the place of a decorator for a property: it is at no field or accessor. -/
def targetComplaint? (visit : Visit) : Option Diagnostic :=
  if (visit.parent.bind propertyKey?).isSome then none
  else some { message := targetMessage, location := placeOf visit.parent visit.node }

section

variable (config : WrapperConfig) (imports : ImportTable)

/-- What is wrong with a decorator for the name of the element: it is handed no string and no
template. -/
def elementComplaint? (visit : Visit) : Option Diagnostic := do
  let arguments ← elementArguments? config visit
  let call ← visit.node.children.head?
  if arguments.head?.any Node.isStringLike then none
  else some { message := elementMessage, location := placeOf arguments.head? call }

/-- The arguments of a decorator that declares a property. -/
def propertyArguments? (visit : Visit) : Option (List Node) := do
  let (name, arguments) ← decoratorCall? visit
  let binding ← imports.lookup name
  if binding.imported = propertyDecorator ∧ binding.source ∈ config.propertySources then
    some arguments
  else none

/-- All that is wrong with a node. The name of the element comes before the options of a property in
the order in which they are written, and these come before its place. -/
def complaints (visit : Visit) : List Diagnostic :=
  (eventComplaint? visit).toList ++ (elementComplaint? config visit).toList ++
    match propertyArguments? config imports visit with
    | some arguments =>
      (optionEntries arguments).filterMap optionComplaint? ++ (targetComplaint? visit).toList
    | none => []

end

/-! ## Which complaint wins -/

/-- The failure for a list of complaints. -/
def verdict (complaints : List Diagnostic) : Option Failure := complaints.head?.map .diagnostic

theorem verdict_append (first later : List Diagnostic) :
    verdict (first ++ later) = (verdict first).or (verdict later) := by
  cases first <;> rfl

theorem verdict_toList (complaint : Option Diagnostic) :
    verdict complaint.toList = complaint.map .diagnostic := by
  cases complaint <;> rfl

theorem findSome?_verdict (complaintsOf : α → List Diagnostic) (as : List α) :
    as.findSome? (verdict ∘ complaintsOf) = verdict (as.flatMap complaintsOf) := by
  rw [verdict, List.head?_flatMap, List.map_findSome?]
  rfl

/-! ## Members -/

/-- What a getter returns is taken just if there is no complaint about it. The body is taken apart
down to its single statement. -/
theorem returned_failsBy (member : Node) {key : Node} {decorators : List Node} {body : Option Node}
    (hf : member.form = .classMethod key kind static computed decorators body) :
    (returned member.location body).FailsBy ((holderComplaint? member).map .diagnostic) := by
  simp only [holderComplaint?, heldValue?, hf]
  cases body with
  | none => exact .error _
  | some body =>
    cases hs : body.statements with
    | nil =>
      simp only [returned, Option.map_some, Option.getD_some, hs]
      exact .error _
    | cons statement rest =>
      simp only [returned, Option.map_some, Option.getD_some, Option.bind_some, List.head?_cons, hs]
      obtain ⟨location, comments, form⟩ := statement
      cases rest with
      | cons second rest => cases form <;> exact .error _
      | nil =>
        cases form with
        | returnStatement argument =>
          cases argument with
          | none => exact .error _
          | some argument =>
            simp only [Node.form, Option.any_some, apply_ite (Option.map Failure.diagnostic)]
            exact .guard _ _
        | _ => exact .error _

theorem fieldValue_failsBy (member : Node) {key : Node} {value : Option Node}
    {decorators : List Node}
    (hf : member.form = .classField key value static computed decorators) :
    (fieldValue member.location value).FailsBy ((holderComplaint? member).map .diagnostic) := by
  simp only [holderComplaint?, heldValue?, hf]
  cases value with
  | none => exact .error _
  | some value =>
    simp only [fieldValue, Option.any_some, apply_ite (Option.map Failure.diagnostic)]
    exact .guard _ _

/-- A static member fails by what is wrong with it, if its name is that of an event. -/
theorem member_failsBy (m : Metadata) (visit : Visit) {key : Node} {held : Except Failure Node}
    (hk : staticKey? visit.node = some key)
    (hv : held.FailsBy ((holderComplaint? visit.node).map .diagnostic)) :
    (match eventName? key with
      | some name => do return m.putEvent name ⟨← held, visit.node.comments, visit.node.location⟩
      | none => .ok m : Except Failure Metadata).FailsBy
      ((eventComplaint? visit).map .diagnostic) := by
  cases hn : key.keyName? with
  | none =>
    have event : eventName? key = none := by simp [eventName?, hn]
    have complaint : eventComplaint? visit = none := by simp [eventComplaint?, hk, hn]
    rw [event, complaint]
    exact .ok m
  | some name =>
    by_cases he : Event.memberStart <+: name
    · have event : eventName? key = some name := by
        simp [eventName?, hn, Event.isMember, Option.filter, he]
      have complaint : eventComplaint? visit = holderComplaint? visit.node := by
        simp [eventComplaint?, hk, hn, he]
      rw [event, complaint]
      exact hv.map
    · have event : eventName? key = none := by
        simp [eventName?, hn, Event.isMember, Option.filter, he]
      have complaint : eventComplaint? visit = none := by
        simp [eventComplaint?, hk, hn, he]
      rw [event, complaint]
      exact .ok m

/-! ## Decorators -/

/-- An option is taken just if there is no complaint about it; only two of the keys are looked
at. -/
theorem addOption_failsBy (property : PropertyMetadata) (option : Node) :
    (addOption property option).FailsBy ((optionComplaint? option).map .diagnostic) := by
  obtain ⟨_, _, form⟩ := option
  cases form with
  | property key value computed =>
    have different : ("type" : Text) ≠ "attribute" := by decide
    obtain ⟨_, _, form⟩ := value
    cases computed with
    | true => exact .ok property
    | false =>
      by_cases isType : key.keyName? = some ("type" : Text)
      · simp only [addOption, optionComplaint?, optionValue?, Node.form, isType, if_true]
        cases form with
        | identifier => exact .ok _
        | _ => exact .error _
      · by_cases isAttribute : key.keyName? = some ("attribute" : Text)
        · simp only [addOption, optionComplaint?, optionValue?, Node.form, isAttribute, if_true,
            different.symm, Option.some.injEq, if_false]
          cases form with
          | boolean | string => exact .ok _
          | _ => exact .error _
        · simp only [addOption, optionComplaint?, optionValue?, Node.form, isType, isAttribute,
            if_false]
          exact .ok property
  | _ => exact .ok property

/-- The options of a property fail by the first one that there is a complaint about. -/
theorem propertyOf_failsBy (location : Option Location) (parent : Option Node)
    (arguments : List Node) :
    (propertyOf location parent arguments).FailsBy
      (verdict ((optionEntries arguments).filterMap optionComplaint?)) := by
  have first : verdict ((optionEntries arguments).filterMap optionComplaint?) =
      (optionEntries arguments).findSome? fun option =>
        (optionComplaint? option).map Failure.diagnostic := by
    rw [verdict, List.head?_filterMap, List.map_findSome?]
    rfl
  rw [propertyOf_def, first]
  exact (Except.FailsBy.foldlM addOption_failsBy _ _).map

theorem visitElement_failsBy (m : Metadata) (call : Node) (arguments : List Node) :
    (visitElement m call arguments).FailsBy
      (if arguments.head?.any Node.isStringLike then none
        else some (.complaint elementMessage (placeOf arguments.head? call))) := by
  cases arguments with
  | nil => exact .error _
  | cons first rest =>
    exact .guard _ _

theorem visitProperty_failsBy (m : Metadata) (visit : Visit) (arguments : List Node) :
    (visitProperty m visit.node.location visit.parent arguments).FailsBy
      (verdict ((optionEntries arguments).filterMap optionComplaint? ++
        (targetComplaint? visit).toList)) := by
  rw [verdict_append, verdict_toList]
  refine (propertyOf_failsBy _ _ _).bind fun property _ => ?_
  rw [targetComplaint?]
  cases visit.parent.bind propertyKey? with
  | some key => exact .ok _
  | none => cases visit.parent <;> exact .error _

section

variable {config : WrapperConfig} {imports : ImportTable} {visit : Visit}

/-- The complaint about a decorator of an element is about its first argument, or about the call if
it has none. -/
theorem elementComplaint?_eq {expression : Node} {name : Text} {arguments : List Node}
    (hf : visit.node.form = .decorator expression)
    (hc : decoratorCall? visit = some (name, arguments)) :
    (elementComplaint? config visit).map Failure.diagnostic =
      if name = config.elementDecorator then
        if arguments.head?.any Node.isStringLike then none
        else some (.complaint elementMessage (placeOf arguments.head? expression))
      else none := by
  have call : visit.node.children = [expression] := by rw [Node.children, hf]; rfl
  by_cases hn : name = config.elementDecorator
  · simp [elementComplaint?, elementArguments?, hc, hn, call,
      apply_ite (Option.map Failure.diagnostic), Failure.complaint]
  · simp [elementComplaint?, elementArguments?, hc, hn]

/-- A decorator has the arguments of a property just if its name is one that declares properties. -/
theorem propertyArguments?_eq {name : Text} {arguments : List Node}
    (hc : decoratorCall? visit = some (name, arguments)) :
    propertyArguments? config imports visit =
      if declaresProperty config imports name then some arguments else none := by
  by_cases hd : declaresProperty config imports name
  · obtain ⟨binding, hb, declares⟩ := declaresProperty_iff.1 hd
    simp [propertyArguments?, hc, hb, declares, hd]
  · rw [if_neg hd, propertyArguments?, hc]
    rw [declaresProperty_iff] at hd
    cases hb : imports.lookup name with
    | none => simp [hb]
    | some binding =>
      have undeclared : ¬ (binding.imported = propertyDecorator ∧
          binding.source ∈ config.propertySources) := fun declares => hd ⟨binding, hb, declares⟩
      simp only [Option.bind_eq_bind, Option.bind_some, hb, if_neg undeclared]

/-- A decorator is visited without a failure just if there is no complaint about it. One call may
name an element and declare a property; the complaint about the element comes first. -/
theorem visitDecorator_failsBy {expression : Node} (hf : visit.node.form = .decorator expression)
    (m : Metadata) :
    (visitDecorator config imports m visit expression).FailsBy
      (verdict (complaints config imports visit)) := by
  have hc := decoratorCall?_eq hf
  have noEvent : eventComplaint? visit = none := by simp [eventComplaint?, staticKey?, hf]
  cases hn : namedCall? expression with
  | none =>
    rw [hn] at hc
    have nothing : complaints config imports visit = [] := by
      simp [complaints, noEvent, elementComplaint?, elementArguments?, propertyArguments?, hc]
    rw [visitDecorator, hn, nothing]
    exact .ok m
  | some call =>
    obtain ⟨name, arguments⟩ := call
    rw [hn] at hc
    rw [visitDecorator_of_call hn, complaints, noEvent, Option.toList_none, List.nil_append,
      verdict_append, verdict_toList, elementComplaint?_eq hf hc, propertyArguments?_eq hc]
    refine Except.FailsBy.bind ?_ fun next _ => ?_
    · by_cases hd : name = config.elementDecorator
      · rw [if_pos hd, if_pos hd]
        exact visitElement_failsBy m expression arguments
      · rw [if_neg hd, if_neg hd]
        exact .ok m
    · by_cases hd : declaresProperty config imports name
      · rw [if_pos hd, if_pos hd]
        exact visitProperty_failsBy next visit arguments
      · rw [if_neg hd, if_neg hd]
        exact .ok next

/-! ## Runs -/

/-- The rewriting rules can be applied to the modules that are imported. -/
def RulesApply (config : WrapperConfig) (imports : ImportTable) : Prop :=
  ∀ binding ∈ imports, ∃ source,
    Substitution.applyAll config.parentSubstitutions binding.source = .ok source

/-- Whether rules can be applied does not depend on the text. -/
theorem exists_applyAll {rules : List Substitution} {text result : Text}
    (h : Substitution.applyAll rules text = .ok result) (other : Text) :
    ∃ result, Substitution.applyAll rules other = .ok result := by
  induction rules generalizing text other with
  | nil => exact ⟨other, rfl⟩
  | cons rule rules ih =>
    rw [Substitution.applyAll, List.foldlM_cons] at h
    obtain ⟨next, hn, h⟩ := Except.bind_eq_ok.1 h
    obtain ⟨regex, hr, hn⟩ := Except.bind_eq_ok.1 hn
    obtain ⟨inserts, hi, -⟩ := Except.bind_eq_ok.1 hn
    have applied : rule.apply other = .ok (regex.replaceFirst inserts other) :=
      Except.bind_eq_ok.2 ⟨regex, hr, Except.bind_eq_ok.2 ⟨inserts, hi, rfl⟩⟩
    obtain ⟨last, hl⟩ := ih h (regex.replaceFirst inserts other)
    refine ⟨last, ?_⟩
    rw [Substitution.applyAll, List.foldlM_cons, applied]
    exact hl

theorem RulesApply.of_isOk {text : Text}
    (h : (Substitution.applyAll config.parentSubstitutions text).isOk) :
    RulesApply config imports := by
  intro binding _
  cases applied : Substitution.applyAll config.parentSubstitutions text with
  | ok result => exact exists_applyAll applied binding.source
  | error e =>
    rw [applied] at h
    cases h

/-- Where the rules apply, a class is visited without a failure. -/
theorem visitClass_ok (applies : RulesApply config imports) (m : Metadata)
    (comments : List Comment) (id superClass : Option Node) :
    ∃ next, visitClass config imports m comments id superClass = .ok next := by
  have found : ∃ parent, parentModule config imports m.filename superClass = .ok parent := by
    rw [parentModule]
    cases hb : (superClass.bind superclassTarget).bind imports.lookup with
    | none => exact ⟨none, rfl⟩
    | some binding =>
      obtain ⟨name, _, hl⟩ := Option.bind_eq_some_iff.1 hb
      obtain ⟨source, hs⟩ := applies binding (List.mem_of_find?_eq_some hl)
      cases hd : binding.isDefault with
      | false => simp [hd]
      | true => simp [hd, hs, Except.mapError]
  obtain ⟨parent, hp⟩ := found
  rw [visitClass, hp]
  exact ⟨_, rfl⟩

/-- **What a step rejects**: a step fails just if there is a complaint about the node, and with the
complaint that wins. -/
theorem step_failsBy (applies : RulesApply config imports) (m : Metadata) (visit : Visit) :
    (step config imports m visit).FailsBy (verdict (complaints config imports visit)) := by
  have quiet (hd : decoratorCall? visit = none) :
      complaints config imports visit = (eventComplaint? visit).toList := by
    simp [complaints, elementComplaint?, elementArguments?, propertyArguments?, hd]
  obtain ⟨⟨location, comments, form⟩, parent⟩ := visit
  cases form with
  | classDeclaration id superClass decorators body =>
    obtain ⟨next, h⟩ := visitClass_ok applies m comments id superClass
    change (visitClass config imports m comments id superClass).FailsBy _
    rw [h]
    exact .ok next
  | decorator expression => exact visitDecorator_failsBy rfl m
  | exportNamed declaration specifiers source typeOnly => cases typeOnly <;> exact .ok _
  | classMethod key kind static computed decorators body =>
    rw [quiet rfl, verdict_toList]
    cases kind with
    | get =>
      cases static with
      | true =>
        cases computed with
        | true => exact .ok m
        | false =>
          let member := Node.mk location comments (.classMethod key .get true false decorators body)
          exact member_failsBy m ⟨member, parent⟩ rfl (returned_failsBy member rfl)
      | false => exact .ok m
    | method | set | constructor => exact .ok m
  | classField key value static computed decorators =>
    rw [quiet rfl, verdict_toList]
    cases static with
    | true =>
      cases computed with
      | true => exact .ok m
      | false =>
        let member := Node.mk location comments (.classField key value true false decorators)
        exact member_failsBy m ⟨member, parent⟩ rfl (fieldValue_failsBy member rfl)
    | false => exact .ok m
  | _ => exact .ok m

/-- A step that no rewriting rule stops fails just if there is a complaint about the node. -/
theorem step_spared (config : WrapperConfig) (imports : ImportTable) (m : Metadata)
    (visit : Visit) :
    (∃ error, step config imports m visit = .error (.pattern error)) ∨
      (step config imports m visit).FailsBy (verdict (complaints config imports visit)) := by
  have applies : RulesApply { config with parentSubstitutions := [] } imports :=
    fun binding _ => ⟨binding.source, rfl⟩
  have unruled := step_failsBy applies m visit
  obtain ⟨⟨location, comments, form⟩, parent⟩ := visit
  cases form with
  | classDeclaration id superClass decorators body =>
    change (∃ error, visitClass config imports m comments id superClass = _) ∨
      (visitClass config imports m comments id superClass).FailsBy none
    rw [visitClass]
    cases found : parentModule config imports m.filename superClass with
    | ok parent => exact .inr (.ok _)
    | error failure =>
      unfold parentModule at found
      split at found
      · cases found
      · split at found
        · cases found
        · obtain stopped | ⟨_, -, found⟩ := Except.bind_eq_error.1 found
          · obtain ⟨error, -, rfl⟩ := Except.mapError_eq_error.1 stopped
            exact .inl ⟨error, rfl⟩
          · cases found
  | classMethod key kind static computed decorators body =>
    cases kind <;> cases static <;> cases computed <;> exact .inr unruled
  | classField key value static computed decorators =>
    cases static <;> cases computed <;> exact .inr unruled
  | exportNamed declaration specifiers source typeOnly => cases typeOnly <;> exact .inr unruled
  | _ => exact .inr unruled

theorem complaints_of_step_ok {m next : Metadata} (h : step config imports m visit = .ok next) :
    complaints config imports visit = [] := by
  obtain ⟨error, ruled⟩ | fails := step_spared config imports m visit
  · rw [ruled] at h
    cases h
  · by_contra blamed
    obtain ⟨first, rest, order⟩ := List.exists_cons_of_ne_nil blamed
    rw [order] at fails
    cases h.symm.trans ((fails _).2 rfl)

end

end Harvest

/-! ## The order of the nodes -/

namespace Node

/-- Where a node is met whose parent is not the one of the root, its parent has been met before. -/
theorem exists_parent_visit {root : Node} {above : Option Node} {before after : List Visit}
    {visit : Visit} (h : root.visitsBelow above = before ++ visit :: after) :
    visit.parent = above ∨ ∃ earlier ∈ before, visit.parent = some earlier.node := by
  induction root using Node.induction generalizing above before after with
  | step location comments form ih =>
    rw [visitsBelow_eq] at h
    cases before with
    | nil =>
      obtain ⟨rfl, -⟩ := List.cons.inj h
      exact .inl rfl
    | cons first before =>
      obtain ⟨rfl, walk⟩ := List.cons.inj h
      -- The visit lies in the walk from one of the children; those before it are passed by.
      have below (children : List Node) (mem : ∀ child ∈ children, child ∈ form.children)
          (before : List Visit)
          (h : (children.flatMap fun child => child.visitsBelow (some (mk location comments form)))
            = before ++ visit :: after) :
          visit.parent = some (mk location comments form) ∨
            ∃ earlier ∈ before, visit.parent = some earlier.node := by
        induction children generalizing before with
        | nil => simp at h
        | cons child rest ihr =>
          obtain ⟨memChild, memRest⟩ := List.forall_mem_cons.1 mem
          rw [List.flatMap_cons, List.append_eq_append_iff] at h
          obtain ⟨between, rfl, hr⟩ | ⟨mid, hc, hr⟩ := h
          · obtain found | ⟨earlier, found, he⟩ := ihr memRest between hr
            · exact .inl found
            · exact .inr ⟨earlier, List.mem_append_right _ found, he⟩
          · cases mid with
            | nil =>
              obtain found | ⟨earlier, found, _⟩ := ihr memRest [] hr.symm
              · exact .inl found
              · cases found
            | cons second mid =>
              obtain ⟨rfl, -⟩ := List.cons.inj hr
              exact ih child memChild hc
      obtain found | ⟨earlier, found, he⟩ := below form.children (fun _ => id) before walk
      · exact .inr ⟨_, List.mem_cons_self, found⟩
      · exact .inr ⟨earlier, List.mem_cons_of_mem _ found, he⟩

end Node

namespace Harvest

/-- A harvest fails by the first of all complaints about the nodes in their order. -/
theorem harvest_failsBy {config : WrapperConfig} {program : Node}
    (applies : RulesApply config (ImportTable.ofProgram program)) (filename : Text) :
    (harvest config filename program).FailsBy
      (verdict (program.visits.flatMap (complaints config (ImportTable.ofProgram program)))) := by
  rw [← findSome?_verdict]
  exact .foldlM (step_failsBy applies) program.visits { filename }

/-- **What a harvest rejects**, as long as the rewriting rules can be applied: a module with a node
that there is a complaint about. The failure is the complaint that wins about the first such node;
there is none about the nodes before it, and its parent is one of them. -/
theorem harvest_fails_iff {config : WrapperConfig} {program : Node}
    (applies : RulesApply config (ImportTable.ofProgram program)) (filename : Text) :
    let complaintsOf := complaints config (ImportTable.ofProgram program)
    ((∃ failure, harvest config filename program = .error failure) ↔
      ∃ visit ∈ program.visits, complaintsOf visit ≠ []) ∧
    ∀ failure, harvest config filename program = .error failure →
      ∃ before visit after complaint, program.visits = before ++ visit :: after ∧
        (∀ earlier ∈ before, complaintsOf earlier = []) ∧
        (∀ parent, visit.parent = some parent → ∃ earlier ∈ before, earlier.node = parent) ∧
        (complaintsOf visit).head? = some complaint ∧ failure = .diagnostic complaint := by
  intro complaintsOf
  have fails := harvest_failsBy applies filename
  rw [← findSome?_verdict] at fails
  have quiet (visit : Visit) : verdict (complaintsOf visit) = none ↔ complaintsOf visit = [] := by
    rw [verdict, Option.map_eq_none_iff, List.head?_eq_none_iff]
  constructor
  · calc
      (∃ failure, harvest config filename program = .error failure) ↔
          (program.visits.findSome? (verdict ∘ complaintsOf)).isSome := by
        simp only [fails _, Option.isSome_iff_exists]
        rfl
      _ ↔ ∃ visit ∈ program.visits, complaintsOf visit ≠ [] := by
        simp only [List.isSome_findSome?, List.any_eq_true, Function.comp_apply,
          Option.isSome_iff_ne_none, ne_eq, quiet]
  · intro failure h
    obtain ⟨before, visit, after, order, blamed, silent⟩ :=
      List.findSome?_eq_some_iff.1 ((fails failure).1 h)
    obtain ⟨complaint, wins, rfl⟩ := Option.map_eq_some_iff.1 blamed
    refine ⟨before, visit, after, complaint, order, fun earlier mem => ?_, ?_, wins, rfl⟩
    · exact (quiet earlier).1 (silent earlier mem)
    · intro parent hp
      obtain root | ⟨earlier, mem, he⟩ := Node.exists_parent_visit order
      · rw [root] at hp
        cases hp
      · rw [hp] at he
        exact ⟨earlier, mem, (Option.some.inj he).symm⟩

/-- A class with a field that does not hold the name of its event, a property with two bad options
declared by that field, and a property declared by a method. -/
def contestedModule : Node :=
  let property (arguments : List Node) : Node :=
    .of (.decorator (.of (.call (.identifier "prop") arguments)))
  let option (key : Text) : Node := .of (.property (.identifier key) (.of .null) false)
  .of (.program [
    .of (.importDeclaration
      [.of (.importDefault (.identifier "Base")),
        .of (.importSpecifier (.identifier "prop") (.identifier "property"))]
      (.string "lit-element") false),
    .of (.classDeclaration (some (.identifier "Toggle")) (some (.identifier "Base")) []
      [.of (.classField (.identifier "eventToggle") (some (.of .null)) true false [
          property [.of (.object [option "attribute", option "type"])]]),
        .of (.classMethod (.identifier "toggle") .method false false [property []] none)])])

/-- There are four complaints about the module, and the first of them ends the harvest. -/
theorem harvest_contestedModule :
    let complaintsOf := complaints {} (ImportTable.ofProgram contestedModule)
    (contestedModule.visits.flatMap complaintsOf).map Diagnostic.message =
      [fieldMessage, attributeMessage, typeMessage, targetMessage] ∧
    harvest {} "toggle.ts" contestedModule = .error (.complaint fieldMessage none) ∧
    ∃ before visit after, contestedModule.visits = before ++ visit :: after ∧
      (∀ earlier ∈ before, complaintsOf earlier = []) ∧
      (complaintsOf visit).head? = some { message := fieldMessage, location := none } := by
  intro complaintsOf
  have standard : (Substitution.applyAll ({} : WrapperConfig).parentSubstitutions []).isOk := by
    decide +kernel
  have applies : RulesApply {} (ImportTable.ofProgram contestedModule) :=
    .of_isOk standard
  have first : (contestedModule.visits.flatMap complaintsOf).head? =
      some { message := fieldMessage, location := none } := by decide +kernel
  have fails : harvest {} "toggle.ts" contestedModule = .error (.complaint fieldMessage none) :=
    (harvest_failsBy applies "toggle.ts" _).2 (congrArg (Option.map Failure.diagnostic) first)
  obtain ⟨before, visit, after, complaint, order, silent, -, wins, blamed⟩ :=
    (harvest_fails_iff applies "toggle.ts").2 _ fails
  cases blamed
  exact ⟨by decide +kernel, fails, before, visit, after, order, silent, wins⟩

end Harvest

end ElementWrapper
