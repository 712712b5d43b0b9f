import ElementWrapper.Proofs.Result
import ElementWrapper.Project.Description

/-!
Which descriptions of a project are rejected. `Key` lists the documented keys; `Key.Fits` is the
shape that the value of a key should have, and `Key.Rejects` is what the reader takes exception to,
which is less: `Malformed` and `Noticed` say it of a whole description. The readings of the keys
that can be rejected are runs that fail by a fault (`Except.FailsBy`), and `ofDescription_failsBy`
puts them together. Some patterns stop the reader with a fault that it has no words for
(`Key.Stops`). A list fails by its first unsound item (`listFault_sequence`), so that such a pattern
can hide a fault behind it, but none before it.
-/

namespace ElementWrapper.Project

open Yaml (Value)

/-! ## Keys -/

/-- A documented key of a description. -/
inductive Key where
  | componentsRoot
  | upgradable
  | templates
  | outputExtension
  | propertySources
  | elementDecorator
  | wrapperModule
  | propTypesModule
  | elementPath
  | settings
  | parentSubstitutions
  | outDirectory
  | included
  | excluded
  | failFast

namespace Key

/-- The name of a key. -/
def name : Key → Text
  | componentsRoot => "components_root"
  | upgradable => "upgradable"
  | templates => "template_literals"
  | outputExtension => "output_extension"
  | propertySources => "property_decorator_sources"
  | elementDecorator => "custom_element_decorator"
  | wrapperModule => "wrapper_module"
  | propTypesModule => "prop_types_module"
  | elementPath => "custom_element_prefix"
  | settings => "settings"
  | parentSubstitutions => "parent_source_rewrites"
  | outDirectory => "out_dir"
  | included => "include"
  | excluded => "exclude"
  | failFast => "fail_fast"

/-- The section that a key stands in, unless it stands in the description itself. -/
def section? : Key → Option Text
  | outDirectory | included | excluded | failFast => some "build"
  | _ => none

/-- The value that a description gives to a key. -/
def value? (data : Value) (key : Key) : Option Value :=
  match key.section? with
  | some name => (data.get? name).bind (·.get? key.name)
  | none => data.get? key.name

/-- The mode that a text names. -/
def mode? (mode : Text) : Option TemplateMode :=
  if mode = "concat" then some .concat else if mode = "preserve" then some .preserve else none

end Key

/-! ## Shapes -/

/-- A value with all parts of a setting. -/
def IsSetting (value : Value) : Prop :=
  ∀ key ∈ settingKeys, ((value.get? key).bind someText?).isSome

/-- A value with the parts of a rewriting rule, whose pattern is read with some result. -/
def IsRule (value : Value) (result : Except Regex.Fault Regex → Prop) : Prop :=
  ∃ pattern replacement, (value.get? "pattern").bind text? = some pattern ∧
    (value.get? "replacement").bind text? = some replacement ∧ result (Regex.read pattern)

/-- A rewriting rule whose pattern stops the reader. -/
def IsStop (value : Value) (e : ProjectError) : Prop :=
  IsRule value fun read => ∃ fault, read = .error fault ∧ patternStop? fault = some e

/-- The shape that the value of a key should have. -/
def Key.Fits : Key → Value → Prop
  | upgradable, value | failFast, value => (flag? value).isSome
  | templates, value => ∃ mode, text? value = some mode ∧ (mode? mode).isSome
  | outputExtension, value =>
    ∃ extension, text? value = some extension ∧ extension.head? = some (.scalar '.')
  | propertySources, value | included, value | excluded, value =>
    (∃ text, value = .text text) ∨ ∃ items, value = .sequence items
  | settings, value => ∃ items, value = .sequence items ∧ ∀ item ∈ items, IsSetting item
  | parentSubstitutions, value =>
    ∃ items, value = .sequence items ∧ ∀ item ∈ items, IsRule item (·.isOk)
  | _, value => (text? value).isSome

/-- What is wrong with the value of a key in the eyes of the reader. -/
def Key.Rejects : Key → Value → Prop
  | templates, value => ∃ mode, text? value = some mode ∧ mode? mode = none
  | outputExtension, value =>
    ∃ extension, text? value = some extension ∧ extension.head? ≠ some (.scalar '.')
  | settings, value =>
    value ≠ .null ∧ ∀ items, value = .sequence items → ∃ item ∈ items, ¬ IsSetting item
  | parentSubstitutions, value =>
    value ≠ .null ∧ ∀ items, value = .sequence items →
      ∃ before item after, items = before ++ item :: after ∧
        (∀ earlier ∈ before, IsRule earlier (·.isOk)) ∧
        ¬ IsRule item (·.isOk) ∧ ∀ e, ¬ IsStop item e
  | _, _ => False

/-- The value of a key stops the reader: its first rule that is none does. -/
def Key.Stops (key : Key) (value : Value) (e : ProjectError) : Prop :=
  key = .parentSubstitutions ∧ ∃ before item after, value = .sequence (before ++ item :: after) ∧
    (∀ earlier ∈ before, IsRule earlier (·.isOk)) ∧ IsStop item e

/-- A description that breaks what is documented: its root is something else than a mapping, or a
key that is given a value has one of the wrong shape. -/
inductive Malformed (data : Value) : Prop
  | root (something : data ≠ .null) (unlike : ∀ entries, data ≠ .mapping entries)
  | build {value : Value} (given : data.get? "build" = some value) (something : value ≠ .null)
    (unlike : ∀ entries, value ≠ .mapping entries)
  | key {key : Key} {value : Value} (given : key.value? data = some value)
    (something : value ≠ .null) (unfit : ¬ key.Fits value)

/-- A description whose fault the reader notices: a root that counts as something is no mapping, or
the value of a key is rejected. -/
inductive Noticed (data : Value) : Prop
  | root (something : data.isTrue) (unlike : ∀ entries, data ≠ .mapping entries)
  | key {key : Key} {value : Value} (given : key.value? data = some value)
    (rejected : key.Rejects value)

/-- What the reader takes exception to is no value of the right shape, and not nothing. -/
theorem Key.Rejects.unfit {key : Key} {value : Value} (h : key.Rejects value) :
    value ≠ .null ∧ ¬ key.Fits value := by
  cases key with
  | templates =>
    obtain ⟨mode, named, unknown⟩ := h
    constructor
    · rintro rfl
      cases named
    · rintro ⟨other, same, known⟩
      obtain rfl := Option.some.inj (named.symm.trans same)
      rw [unknown] at known
      cases known
  | outputExtension =>
    obtain ⟨extension, named, wrong⟩ := h
    constructor
    · rintro rfl
      cases named
    · rintro ⟨other, same, right⟩
      obtain rfl := Option.some.inj (named.symm.trans same)
      exact wrong right
  | settings =>
    refine ⟨h.1, ?_⟩
    rintro ⟨items, rfl, complete⟩
    obtain ⟨item, mem, incomplete⟩ := h.2 items rfl
    exact incomplete (complete item mem)
  | parentSubstitutions =>
    refine ⟨h.1, ?_⟩
    rintro ⟨items, rfl, complete⟩
    obtain ⟨before, item, after, rfl, -, incomplete, -⟩ := h.2 items rfl
    exact incomplete (complete item (by simp))
  | _ => cases h

/-- A description stops the reader by the value of a key. -/
def Stops (data : Value) (e : ProjectError) : Prop :=
  ∃ key value, Key.value? data key = some value ∧ key.Stops value e

/-- Of a value with both parts nothing is asked but what its pattern is read as. -/
theorem isRule_iff {value : Value} {pattern replacement : Text}
    {result : Except Regex.Fault Regex → Prop}
    (hp : (value.get? "pattern").bind text? = some pattern)
    (hr : (value.get? "replacement").bind text? = some replacement) :
    IsRule value result ↔ result (Regex.read pattern) := by
  constructor
  · rintro ⟨_, _, same, -, h⟩
    obtain rfl := Option.some.inj (hp.symm.trans same)
    exact h
  · exact fun h => ⟨pattern, replacement, hp, hr, h⟩

theorem IsStop.unsound {value : Value} {e : ProjectError} (h : IsStop value e) :
    ¬ IsRule value (·.isOk) := by
  obtain ⟨pattern, replacement, hp, hr, fault, stop, -⟩ := h
  rw [isRule_iff hp hr, stop]
  nofun

theorem Noticed.malformed {data : Value} (h : Noticed data) : Malformed data := by
  cases h with
  | root something unlike => exact .root (by rintro rfl; cases something) unlike
  | key given rejected => exact .key given rejected.unfit.1 rejected.unfit.2

theorem Stops.malformed {data : Value} {e : ProjectError} (h : Stops data e) : Malformed data := by
  obtain ⟨_, _, given, rfl, before, item, after, rfl, -, stop⟩ := h
  refine .key given (by nofun) ?_
  rintro ⟨_, ⟨⟩, sound⟩
  exact stop.unsound (sound item (by simp))

/-! ## Faults -/

/-- What is wrong with a list. -/
def listFault (fault : Nat → Value → Option ProjectError) (notList : ProjectError) :
    Value → Option ProjectError
  | .null => none
  | .sequence items => items.zipIdx.findSome? fun (value, index) => fault index value
  | _ => some notList

theorem list_failsBy {α : Type} {item : Nat → Value → Except ProjectError α}
    {fault : Nat → Value → Option ProjectError}
    (h : ∀ index value, (item index value).FailsBy (fault index value)) (notList : ProjectError)
    (value : Value) : (list item notList value).FailsBy (listFault fault notList value) := by
  cases value with
  | null => exact .ok []
  | sequence items => exact .mapM (fun _ => h _ _) _
  | _ => exact .error _

/-- What is wrong with the setting at an index. -/
def settingFault (index : Nat) (value : Value) : Option ProjectError :=
  match settingKeys.filter fun key => ((value.get? key).bind someText?).isNone with
  | [] => none
  | missing => some (.incompleteSetting index missing)

/-- The reading of a setting fails just if one of its four parts has no text, and names all such
parts. -/
theorem setting_failsBy (index : Nat) (value : Value) :
    (setting index value).FailsBy (settingFault index value) := by
  unfold setting settingFault
  dsimp only
  split
  · next name source binding field =>
    have complete : settingKeys.filter
        (fun key => ((value.get? key).bind someText?).isNone) = [] := by
      simp [settingKeys, *]
    rw [complete]
    exact .ok _
  · next incomplete =>
    cases missing : settingKeys.filter fun key => ((value.get? key).bind someText?).isNone with
    | cons => exact .error _
    | nil =>
      have part (key : Text) (mem : key ∈ settingKeys) :
          ∃ text, (value.get? key).bind someText? = some text :=
        Option.ne_none_iff_exists'.1 (by simpa using List.filter_eq_nil_iff.1 missing key mem)
      obtain ⟨name, hn⟩ := part "local" (by decide)
      obtain ⟨source, hs⟩ := part "source" (by decide)
      obtain ⟨binding, hb⟩ := part "binding" (by decide)
      obtain ⟨field, hf⟩ := part "field" (by decide)
      exact absurd hf (incomplete name source binding field hn hs hb)

/-- What is wrong with the rewriting rule at an index. -/
def ruleFault (index : Nat) (value : Value) : Option ProjectError :=
  match (value.get? "pattern").bind text?, (value.get? "replacement").bind text? with
  | some pattern, some _ =>
    match Regex.read pattern with
    | .ok _ => none
    | .error fault => some ((patternStop? fault).getD (.badPattern index))
  | _, _ => some (.incompleteRewrite index)

/-- The reading of a rule fails for a missing part, or else for what its pattern suffers from. -/
theorem substitutionRule_failsBy (index : Nat) (value : Value) :
    (substitutionRule index value).FailsBy (ruleFault index value) := by
  unfold substitutionRule ruleFault
  dsimp only
  cases (value.get? "pattern").bind text? with
  | none => exact .error _
  | some pattern =>
    cases (value.get? "replacement").bind text? with
    | none => exact .error _
    | some replacement =>
      dsimp only
      cases Regex.read pattern with
      | ok _ => exact .ok _
      | error fault => exact .error _

/-- What is wrong with the value of a key. -/
def Key.fault : Key → Value → Option ProjectError
  | templates, value =>
    ((text? value).filter fun mode => (mode? mode).isNone).map .unknownTemplateMode
  | outputExtension, value =>
    ((text? value).filter fun extension => extension.head? ≠ some (.scalar '.')).map .badExtension
  | settings, value => listFault settingFault .settingsNotList value
  | parentSubstitutions, value => listFault ruleFault .rewritesNotList value
  | _, _ => none

/-- The keys whose values can be rejected, in the order in which they are read. -/
def checkedKeys : List Key := [.templates, .outputExtension, .settings, .parentSubstitutions]

/-- The first thing that is wrong with the keys of a description. -/
def fault (data : Value) : Option ProjectError :=
  checkedKeys.findSome? fun key => (key.value? data).bind key.fault

/-- A mode of templates is rejected if it is a text that names none; other values stand for the
standard. -/
theorem templateMode_failsBy (data : Value) :
    (templateMode data).FailsBy ((Key.templates.value? data).bind Key.templates.fault) := by
  change Except.FailsBy _ ((data.get? "template_literals").bind _)
  unfold templateMode valueOf
  cases data.get? "template_literals" with
  | none => exact .ok _
  | some value =>
    simp only [Option.getD_some, Option.bind_some, Key.fault]
    cases text? value with
    | none => exact .ok _
    | some mode =>
      by_cases concat : mode = "concat"
      · simp only [concat, Key.mode?, if_true]
        exact .ok _
      · by_cases preserve : mode = "preserve"
        · subst preserve
          exact .ok _
        · have unknown : Key.mode? mode = none := by simp [Key.mode?, concat, preserve]
          simp only [concat, preserve, if_false, Option.filter_some, unknown, Option.isNone_none]
          exact .error _

/-- An extension is rejected if it is a text without a dot at its beginning. The standard has
one. -/
theorem outputExtension_failsBy (data : Value) :
    (outputExtension data).FailsBy
      ((Key.outputExtension.value? data).bind Key.outputExtension.fault) := by
  change Except.FailsBy _ ((data.get? "output_extension").bind _)
  unfold outputExtension valueOf
  cases data.get? "output_extension" with
  | none => exact .ok _
  | some value =>
    simp only [Option.getD_some, Option.bind_some, Key.fault]
    cases text? value with
    | none => exact .ok _
    | some extension =>
      by_cases dotted : extension.head? = some (.scalar '.')
      · simp only [Option.getD_some, dotted, if_true, Option.filter_some, ne_eq, not_true,
          decide_false]
        exact .ok _
      · simp only [Option.getD_some, dotted, if_false, Option.filter_some, ne_eq, not_false_iff,
          decide_true]
        exact .error _

/-- The settings of a description. -/
def settingsOf (data : Value) : Except ProjectError (List SettingImport) :=
  (data.get? "settings").elim (.ok ({} : WrapperConfig).settings) (list setting .settingsNotList)

/-- The rewriting rules of a description. -/
def rewritesOf (data : Value) : Except ProjectError (List Substitution) :=
  (data.get? "parent_source_rewrites").elim (.ok ({} : WrapperConfig).parentSubstitutions)
    (list substitutionRule .rewritesNotList)

theorem settingsOf_failsBy (data : Value) :
    (settingsOf data).FailsBy ((Key.settings.value? data).bind Key.settings.fault) := by
  change Except.FailsBy _ ((data.get? "settings").bind _)
  unfold settingsOf
  cases data.get? "settings" with
  | none => exact .ok _
  | some value => exact list_failsBy setting_failsBy _ value

theorem rewritesOf_failsBy (data : Value) :
    (rewritesOf data).FailsBy
      ((Key.parentSubstitutions.value? data).bind Key.parentSubstitutions.fault) := by
  change Except.FailsBy _ ((data.get? "parent_source_rewrites").bind _)
  unfold rewritesOf
  cases data.get? "parent_source_rewrites" with
  | none => exact .ok _
  | some value => exact list_failsBy substitutionRule_failsBy _ value

/-- What a description says of wrappers, given what is read of it under the checked keys. -/
def wrapperFrom (data : Value) (start root : Route) (templates : TemplateMode) (extension : Text)
    (settings : List SettingImport) (rewrites : List Substitution) : WrapperConfig :=
  let standard : WrapperConfig := {}
  let name (key standard : Text) : Text := (someText? (valueOf data key)).getD standard
  let components := (text? (valueOf data "components_root")).getD standard.componentsRoot
  let sources := texts (valueOf data "property_decorator_sources")
  { start := start.text
    componentsRoot := (root ++ Route.ofText components).text
    upgradable := (flag? (valueOf data "upgradable")).getD standard.upgradable
    templates := templates
    outputExtension := extension
    propertySources := if sources.isEmpty then standard.propertySources else sources
    elementDecorator := name "custom_element_decorator" standard.elementDecorator
    wrapperModule := name "wrapper_module" standard.wrapperModule
    propTypesModule := name "prop_types_module" standard.propTypesModule
    elementPath := name "custom_element_prefix" standard.elementPath
    settings := settings
    parentSubstitutions := rewrites }

/-- The checked keys are read first, in the order of `checkedKeys`. -/
theorem wrapperOf_eq (data : Value) (start root : Route) :
    wrapperOf data start root = (do
      let templates ← templateMode data
      let extension ← outputExtension data
      let settings ← settingsOf data
      let rewrites ← rewritesOf data
      return wrapperFrom data start root templates extension settings rewrites) := by
  unfold wrapperOf settingsOf rewritesOf
  cases data.get? "settings" <;> cases data.get? "parent_source_rewrites" <;> rfl

/-- The reading of a mapping fails by the first thing that is wrong with its keys, and by nothing
else. -/
theorem ofDescription_failsBy (entries : List (Value × Value)) (start root : Route) :
    (ofDescription (.mapping entries) start root).FailsBy (fault (.mapping entries)) := by
  have wrapper : (wrapperOf (.mapping entries) start root).FailsBy (fault (.mapping entries)) := by
    rw [wrapperOf_eq, fault, checkedKeys]
    simp only [Except.FailsBy.findSome?_cons]
    refine (templateMode_failsBy _).bind fun _ _ => (outputExtension_failsBy _).bind fun _ _ => ?_
    refine (settingsOf_failsBy _).bind fun _ _ => (rewritesOf_failsBy _).bind fun _ _ => ?_
    exact .ok _
  rw [← Option.or_none (o := fault _)]
  exact wrapper.bind fun _ _ => .ok _

/-! ## What is noticed -/

section

variable {key : Key} {value : Value} {e : ProjectError}

/-- Nothing is wrong with a setting just if all of its parts are there. -/
theorem settingFault_eq_none_iff (index : Nat) (value : Value) :
    settingFault index value = none ↔ IsSetting value := by
  have complete : settingKeys.filter (fun key => ((value.get? key).bind someText?).isNone) = [] ↔
      IsSetting value := by
    simp [List.filter_eq_nil_iff, IsSetting, Option.isSome_iff_ne_none]
  rw [← complete, settingFault]
  cases settingKeys.filter _ <;> simp

/-- Nothing is wrong with a rule just if both of its parts are texts and the pattern can be read. -/
theorem ruleFault_eq_none_iff (index : Nat) (value : Value) :
    ruleFault index value = none ↔ IsRule value (·.isOk) := by
  unfold ruleFault
  cases hp : (value.get? "pattern").bind text? with
  | none => simp [IsRule, hp]
  | some pattern =>
    cases hr : (value.get? "replacement").bind text? with
    | none => simp [IsRule, hr]
    | some replacement =>
      rw [isRule_iff hp hr]
      dsimp only
      cases Regex.read pattern <;> simp [Except.isOk, Except.toBool]

theorem complaint?_of_patternStop? {fault : Regex.Fault} (h : patternStop? fault = some e) :
    e.complaint? = none := by
  cases fault <;> cases h <;> rfl

/-- The faults of patterns that stop the reader are those that are not reported. -/
theorem ruleFault_stops_iff {index : Nat} :
    ruleFault index value = some e ∧ e.complaint? = none ↔ IsStop value e := by
  unfold ruleFault
  cases hp : (value.get? "pattern").bind text? with
  | none =>
    simp only [IsStop, IsRule, hp, reduceCtorEq, false_and, exists_const, iff_false]
    rintro ⟨⟨⟩, ⟨⟩⟩
  | some pattern =>
    cases hr : (value.get? "replacement").bind text? with
    | none =>
      simp only [IsStop, IsRule, hr, reduceCtorEq, false_and, and_false, exists_const, iff_false]
      rintro ⟨⟨⟩, ⟨⟩⟩
    | some replacement =>
      rw [IsStop, isRule_iff hp hr]
      dsimp only
      cases Regex.read pattern with
      | ok regex => simp
      | error fault =>
        cases stop : patternStop? fault with
        | none =>
          simp only [Except.error.injEq, exists_eq_left', stop, reduceCtorEq, iff_false]
          rintro ⟨⟨⟩, ⟨⟩⟩
        | some other =>
          simp only [Option.getD_some, Except.error.injEq, exists_eq_left', stop,
            Option.some.injEq, and_iff_left_iff_imp]
          rintro rfl
          exact complaint?_of_patternStop? stop

end

section

variable {sound : Value → Prop} {faultOf : Nat → Value → Option ProjectError}
  {e : ProjectError} {items : List Value} {value : Value}

/-- What is wrong with a list is what is wrong with the first unsound item. -/
theorem listFault_sequence (notList : ProjectError)
    (h : ∀ index item, faultOf index item = none ↔ sound item) :
    listFault faultOf notList (.sequence items) = some e ↔
      ∃ before item after, items = before ++ item :: after ∧ (∀ earlier ∈ before, sound earlier) ∧
        faultOf before.length item = some e := by
  have shifted (start : Nat) :
      ((items.zipIdx start).findSome? fun (item, index) => faultOf index item) = some e ↔
        ∃ before item after, items = before ++ item :: after ∧
          (∀ earlier ∈ before, sound earlier) ∧ faultOf (start + before.length) item = some e := by
    induction items generalizing start with
    | nil => simp
    | cons first rest ih =>
      rw [List.zipIdx_cons, Except.FailsBy.findSome?_cons, Option.or_eq_some_iff, ih]
      constructor
      · rintro (found | ⟨quiet, before, item, after, rfl, passed, found⟩)
        · exact ⟨[], first, rest, rfl, List.forall_mem_nil _, found⟩
        · refine ⟨first :: before, item, after, rfl, ?_, ?_⟩
          · exact List.forall_mem_cons.2 ⟨(h _ _).1 quiet, passed⟩
          · rwa [List.length_cons, Nat.add_comm before.length, ← Nat.add_assoc]
      · rintro ⟨before, item, after, order, passed, found⟩
        cases before with
        | nil =>
          obtain ⟨rfl, rfl⟩ := List.cons.inj order
          exact .inl found
        | cons second before =>
          obtain ⟨rfl, rfl⟩ := List.cons.inj order
          obtain ⟨quiet, passed⟩ := List.forall_mem_cons.1 passed
          refine .inr ⟨(h _ _).2 quiet, before, item, after, rfl, passed, ?_⟩
          rwa [List.length_cons, Nat.add_comm before.length, ← Nat.add_assoc] at found
  rw [listFault]
  simpa only [Nat.zero_add] using shifted 0

/-- Nothing is wrong with a list just if all of its items are sound. -/
theorem listFault_sequence_eq_none (notList : ProjectError)
    (h : ∀ index item, faultOf index item = none ↔ sound item) :
    listFault faultOf notList (.sequence items) = none ↔ ∀ item ∈ items, sound item := by
  rw [listFault, List.findSome?_eq_none_iff]
  constructor
  · intro quiet item mem
    obtain ⟨index, found⟩ := List.mem_iff_getElem?.1 mem
    exact (h index item).1 (quiet (item, index) (List.mk_mem_zipIdx_iff_getElem?.2 found))
  · exact fun sound entry mem => (h _ _).2 (sound _ (List.fst_mem_of_mem_zipIdx mem))

theorem listFault_cases {notList : ProjectError}
    (h : listFault faultOf notList value = some e) :
    e = notList ∨ ∃ items item index, value = .sequence items ∧ item ∈ items ∧
      faultOf index item = some e := by
  cases value with
  | null => cases h
  | sequence items =>
    obtain ⟨⟨item, index⟩, mem, found⟩ := List.exists_of_findSome?_eq_some h
    exact .inr ⟨items, item, index, rfl, List.fst_mem_of_mem_zipIdx mem, found⟩
  | _ => exact .inl (Option.some.inj h).symm

end

section

variable {key : Key} {value : Value} {e : ProjectError}

theorem complaint?_of_settingFault {index : Nat} (h : settingFault index value = some e) :
    e.complaint?.isSome := by
  unfold settingFault at h
  split at h <;> cases h
  rfl

/-- Whatever is wrong with a key is reported, unless it is a rewriting rule. -/
theorem complaint?_of_fault (h : key.fault value = some e) :
    e.complaint?.isSome ∨ key = .parentSubstitutions := by
  cases key with
  | templates | outputExtension =>
    obtain ⟨_, -, rfl⟩ := Option.map_eq_some_iff.1 h
    exact .inl rfl
  | settings =>
    obtain rfl | ⟨_, _, _, -, -, found⟩ := listFault_cases h
    · exact .inl rfl
    · exact .inl (complaint?_of_settingFault found)
  | parentSubstitutions => exact .inr rfl
  | _ => cases h

/-- A text is rejected just if it is one of those that a key has no use for. -/
theorem text_rejected_iff {wrong : Text → Prop} {test : Text → Bool} {faultOf : Text → ProjectError}
    (h : ∀ text, test text ↔ wrong text) (reported : ∀ text, (faultOf text).complaint?.isSome) :
    (∃ text, text? value = some text ∧ wrong text) ↔
      ∃ e, ((text? value).filter test).map faultOf = some e ∧ e.complaint?.isSome := by
  simp only [Option.map_eq_some_iff, Option.filter_eq_some_iff]
  constructor
  · rintro ⟨text, named, unfit⟩
    exact ⟨_, ⟨text, ⟨named, (h text).2 unfit⟩, rfl⟩, reported text⟩
  · rintro ⟨_, ⟨text, ⟨named, unfit⟩, -⟩, -⟩
    exact ⟨text, named, (h text).1 unfit⟩

/-- What should be a list is rejected just if it is none, or for the sake of its items. -/
theorem list_rejected_iff {faultOf : Nat → Value → Option ProjectError} {notList : ProjectError}
    {wrong : List Value → Prop} (reported : notList.complaint?.isSome)
    (h : ∀ items, wrong items ↔
      ∃ e, listFault faultOf notList (.sequence items) = some e ∧ e.complaint?.isSome) :
    (value ≠ .null ∧ ∀ items, value = .sequence items → wrong items) ↔
      ∃ e, listFault faultOf notList value = some e ∧ e.complaint?.isSome := by
  cases value with
  | null => simp [listFault]
  | sequence items => simp [← h]
  | _ => simpa [listFault] using reported

/-- A list of settings is rejected for any of them that is incomplete. -/
theorem settings_rejected_iff (items : List Value) :
    (∃ item ∈ items, ¬ IsSetting item) ↔
      ∃ e, listFault settingFault .settingsNotList (.sequence items) = some e ∧
        e.complaint?.isSome := by
  constructor
  · rintro ⟨item, mem, unfit⟩
    have faulty : listFault settingFault .settingsNotList (.sequence items) ≠ none :=
      fun quiet => unfit ((listFault_sequence_eq_none _ settingFault_eq_none_iff).1 quiet item mem)
    obtain ⟨e, found⟩ := Option.ne_none_iff_exists'.1 faulty
    have wrong : Key.settings.fault (.sequence items) = some e := found
    exact ⟨e, found, (complaint?_of_fault wrong).resolve_right (by simp)⟩
  · rintro ⟨e, found, -⟩
    obtain ⟨before, item, after, rfl, -, found⟩ :=
      (listFault_sequence .settingsNotList settingFault_eq_none_iff).1 found
    refine ⟨item, by simp, fun fits => ?_⟩
    cases ((settingFault_eq_none_iff _ _).2 fits).symm.trans found

/-- A list of rewriting rules is rejected for the first of them that is unsound, unless that one
stops the reader. -/
theorem rewrites_rejected_iff (items : List Value) :
    (∃ before item after, items = before ++ item :: after ∧
      (∀ earlier ∈ before, IsRule earlier (·.isOk)) ∧
      ¬ IsRule item (·.isOk) ∧ ∀ e, ¬ IsStop item e) ↔
      ∃ e, listFault ruleFault .rewritesNotList (.sequence items) = some e ∧
        e.complaint?.isSome := by
  simp only [listFault_sequence .rewritesNotList ruleFault_eq_none_iff]
  constructor
  · rintro ⟨before, item, after, rfl, passed, unfit, goesOn⟩
    obtain ⟨e, found⟩ := Option.ne_none_iff_exists'.1
      (mt (ruleFault_eq_none_iff before.length item).1 unfit)
    refine ⟨e, ⟨before, item, after, rfl, passed, found⟩, ?_⟩
    by_contra silent
    exact goesOn e (ruleFault_stops_iff.1 ⟨found, by simpa using silent⟩)
  · rintro ⟨e, ⟨before, item, after, rfl, passed, found⟩, reported⟩
    refine ⟨before, item, after, rfl, passed, fun fits => ?_, fun other stop => ?_⟩
    · cases ((ruleFault_eq_none_iff _ _).2 fits).symm.trans found
    · obtain ⟨same, silent⟩ := ruleFault_stops_iff.2 stop
      obtain rfl := Option.some.inj (found.symm.trans same)
      rw [silent] at reported
      cases reported

/-- A value is rejected just if something is wrong with it and is reported. -/
theorem Key.rejects_iff :
    key.Rejects value ↔ ∃ e, key.fault value = some e ∧ e.complaint?.isSome := by
  cases key with
  | templates => exact text_rejected_iff (fun _ => Option.isNone_iff_eq_none) fun _ => rfl
  | outputExtension => exact text_rejected_iff (fun _ => decide_eq_true_iff) fun _ => rfl
  | settings => exact list_rejected_iff rfl settings_rejected_iff
  | parentSubstitutions => exact list_rejected_iff rfl rewrites_rejected_iff
  | _ => simp [Rejects, fault]

/-- A value stops the reader just if something is wrong with it and is not reported. -/
theorem Key.stops_iff : key.Stops value e ↔ key.fault value = some e ∧ e.complaint? = none := by
  constructor
  · rintro ⟨rfl, before, item, after, rfl, passed, stop⟩
    obtain ⟨found, silent⟩ := ruleFault_stops_iff.2 stop
    exact ⟨(listFault_sequence .rewritesNotList ruleFault_eq_none_iff).2
      ⟨before, item, after, rfl, passed, found⟩, silent⟩
  · rintro ⟨found, silent⟩
    obtain reported | rfl := complaint?_of_fault found
    · rw [silent] at reported
      cases reported
    refine ⟨rfl, ?_⟩
    cases value with
    | null => cases found
    | sequence items =>
      obtain ⟨before, item, after, rfl, passed, found⟩ :=
        (listFault_sequence .rewritesNotList ruleFault_eq_none_iff).1 found
      exact ⟨before, item, after, rfl, passed, ruleFault_stops_iff.1 ⟨found, silent⟩⟩
    | _ =>
      cases found
      cases silent

end

section

variable {data : Value} {e : ProjectError}

theorem fault_eq (data : Value) :
    fault data = ((Key.templates.value? data).bind Key.templates.fault).or
      (((Key.outputExtension.value? data).bind Key.outputExtension.fault).or
        (((Key.settings.value? data).bind Key.settings.fault).or
          ((Key.parentSubstitutions.value? data).bind Key.parentSubstitutions.fault))) := by
  simp only [fault, checkedKeys, Except.FailsBy.findSome?_cons, List.findSome?_nil, Option.or_none]

/-- What is wrong with a description is wrong with the value of one of its keys. -/
theorem exists_key_of_fault (h : fault data = some e) :
    ∃ key value, Key.value? data key = some value ∧ key.fault value = some e := by
  obtain ⟨key, -, found⟩ := List.exists_of_findSome?_eq_some h
  obtain ⟨value, given, found⟩ := Option.bind_eq_some_iff.1 found
  exact ⟨key, value, given, found⟩

/-- The last key is the only one with a fault that is not reported, so that it hides no other. -/
theorem complaint?_of_rejects {key : Key} {value : Value} (given : key.value? data = some value)
    (rejected : key.Rejects value) : ∃ e, fault data = some e ∧ e.complaint?.isSome := by
  obtain ⟨own, found, reported⟩ := Key.rejects_iff.1 rejected
  have here : (key.value? data).bind key.fault = some own := by rw [given]; exact found
  cases first : fault data with
  | none =>
    simp only [fault_eq, Option.or_eq_none_iff] at first
    obtain ⟨templates, extension, settings, rewrites⟩ := first
    cases key with
    | templates => cases here.symm.trans templates
    | outputExtension => cases here.symm.trans extension
    | settings => cases here.symm.trans settings
    | parentSubstitutions => cases here.symm.trans rewrites
    | _ => cases rejected
  | some e =>
    refine ⟨e, rfl, ?_⟩
    by_contra unreported
    have spared {other : Key} (apart : other ≠ .parentSubstitutions) :
        (other.value? data).bind other.fault ≠ some e := by
      intro faulty
      obtain ⟨_, -, faulty⟩ := Option.bind_eq_some_iff.1 faulty
      obtain reported | last := complaint?_of_fault faulty
      · exact unreported reported
      · exact apart last
    simp only [fault_eq, Option.or_eq_some_iff, spared (by nofun : Key.templates ≠ _),
      spared (by nofun : Key.outputExtension ≠ _), spared (by nofun : Key.settings ≠ _),
      false_or] at first
    obtain ⟨templates, extension, settings, rewrites⟩ := first
    cases key with
    | templates => cases here.symm.trans templates
    | outputExtension => cases here.symm.trans extension
    | settings => cases here.symm.trans settings
    | parentSubstitutions =>
      obtain rfl := Option.some.inj (here.symm.trans rewrites)
      exact unreported reported
    | _ => cases rejected

/-- A mapping is noticed just if something is wrong with a key and is reported. -/
theorem noticed_mapping_iff (entries : List (Value × Value)) :
    Noticed (.mapping entries) ↔ ∃ e, fault (.mapping entries) = some e ∧ e.complaint?.isSome := by
  constructor
  · rintro (⟨-, unlike⟩ | ⟨given, rejected⟩)
    · exact absurd rfl (unlike entries)
    · exact complaint?_of_rejects given rejected
  · rintro ⟨e, found, reported⟩
    obtain ⟨key, value, given, found⟩ := exists_key_of_fault found
    exact .key given (Key.rejects_iff.2 ⟨e, found, reported⟩)

/-! ## What stops the reader -/

/-- If nothing is noticed, whatever is wrong stops the reader. -/
theorem stops_of_fault (silent : ¬ Noticed data) (found : fault data = some e) : Stops data e := by
  obtain ⟨key, value, given, wrong⟩ := exists_key_of_fault found
  refine ⟨key, value, given, Key.stops_iff.2 ⟨wrong, ?_⟩⟩
  by_contra reported
  exact silent (.key given
    (Key.rejects_iff.2 ⟨e, wrong, Option.isSome_iff_ne_none.2 reported⟩))

/-- Nothing that is wrong with the other keys goes unnoticed, and the rules are read after them. -/
theorem fault_of_stops (silent : ¬ Noticed data) (h : Stops data e) : fault data = some e := by
  obtain ⟨key, value, given, stops⟩ := h
  obtain ⟨found, -⟩ := Key.stops_iff.1 stops
  obtain ⟨rfl, -⟩ := stops
  have spared {other : Key} (apart : other ≠ .parentSubstitutions) :
      (other.value? data).bind other.fault = none := by
    by_contra faulty
    obtain ⟨own, faulty⟩ := Option.ne_none_iff_exists'.1 faulty
    obtain ⟨value, given, wrong⟩ := Option.bind_eq_some_iff.1 faulty
    exact silent (.key given
      (Key.rejects_iff.2 ⟨own, wrong, (complaint?_of_fault wrong).resolve_right apart⟩))
  rw [fault_eq, spared (by nofun : Key.templates ≠ _), spared (by nofun : Key.outputExtension ≠ _),
    spared (by nofun : Key.settings ≠ _), given]
  exact found

end

end ElementWrapper.Project
