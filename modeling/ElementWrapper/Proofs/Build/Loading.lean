import ElementWrapper.Proofs.Build.Descriptions
import ElementWrapper.Proofs.Build.Inputs

/-!
What loading a project comes to. `Key.read` is what a value says about a key; a project `Follows` a
description if it holds for every key what the description says, and the standard where it says
nothing. `load_described` goes through all values that a file can hold: a fault that is noticed is
reported, a pattern that stops the reader ends the loading, any other description is followed, and a
value of the wrong shape counts as no value.
-/

namespace ElementWrapper.Project

open Yaml (Value)

/-! ## Readings -/

namespace Key

/-- What a project keeps for a key. -/
def Content : Key → Type
  | upgradable | failFast => Bool
  | templates => TemplateMode
  | propertySources | included | excluded => List Text
  | settings => List SettingImport
  | parentSubstitutions => List Substitution
  | outDirectory => Option Route
  | _ => Text

/-- The content of a project for a key. -/
def content (project : Project) : (key : Key) → key.Content
  | componentsRoot => project.wrapper.componentsRoot
  | upgradable => project.wrapper.upgradable
  | templates => project.wrapper.templates
  | outputExtension => project.wrapper.outputExtension
  | propertySources => project.wrapper.propertySources
  | elementDecorator => project.wrapper.elementDecorator
  | wrapperModule => project.wrapper.wrapperModule
  | propTypesModule => project.wrapper.propTypesModule
  | elementPath => project.wrapper.elementPath
  | settings => project.wrapper.settings
  | parentSubstitutions => project.wrapper.parentSubstitutions
  | outDirectory => project.outDirectory
  | included => project.included
  | excluded => project.excluded
  | failFast => project.failFast

/-- What a value says about a key, if it says anything. -/
def read (root : Route) : (key : Key) → Value → Option key.Content
  | componentsRoot, value => (text? value).map fun path => (root ++ Route.ofText path).text
  | upgradable, value | failFast, value => flag? value
  | templates, value => (text? value).bind mode?
  | outputExtension, value => text? value
  | propertySources, value | included, value => some (texts value) |>.filter (!·.isEmpty)
  | excluded, value => some (texts value)
  | settings, value => (list setting .settingsNotList value).toOption
  | parentSubstitutions, value => (list substitutionRule .rewritesNotList value).toOption
  | outDirectory, value => (someText? value).map fun path => some (root ++ Route.ofText path)
  | elementDecorator, value | wrapperModule, value | propTypesModule, value
  | elementPath, value => someText? value

end Key

/-- The project without a description. -/
def standard (start root : Route) : Project :=
  { root
    wrapper :=
      { start := start.text
        componentsRoot := (root ++ Route.ofText ({} : WrapperConfig).componentsRoot).text } }

open Classical in
theorem exists_first_unsound (sound : Value → Prop) {items : List Value}
    (h : ¬ ∀ item ∈ items, sound item) :
    ∃ before item after, items = before ++ item :: after ∧ (∀ earlier ∈ before, sound earlier) ∧
      ¬ sound item := by
  have found : (items.find? fun item => ¬ sound item).isSome := by simpa using h
  obtain ⟨item, found⟩ := Option.isSome_iff_exists.1 found
  obtain ⟨faulty, before, after, order, passed⟩ := List.find?_eq_some_iff_append.1 found
  exact ⟨before, item, after, order, by simpa using passed, by simpa using faulty⟩

/-- A value that does not fit its key is read as if nothing were given, unless it is rejected or
stops the reader. -/
theorem Key.read_of_unfit {key : Key} {value : Value} {root : Route} (unfit : ¬ key.Fits value)
    (accepted : ¬ key.Rejects value)
    (goesOn : ∀ e, ¬ key.Stops value e) (unbinary : ∀ bytes, value ≠ .bytes bytes) :
    key.read root value = key.read root .null := by
  have list (h : ¬ ((∃ text, value = .text text) ∨ ∃ items, value = .sequence items)) :
      texts value = [] := by
    cases value with
    | text text => exact absurd (.inl ⟨text, rfl⟩) h
    | sequence items => exact absurd (.inr ⟨items, rfl⟩) h
    | bytes bytes => exact absurd rfl (unbinary bytes)
    | _ => rfl
  cases key with
  | componentsRoot | outDirectory | elementDecorator | wrapperModule | propTypesModule
  | elementPath =>
    have nothing : text? value = none := Option.not_isSome_iff_eq_none.1 unfit
    simp only [read, someText?, nothing]
    rfl
  | upgradable | failFast => exact Option.not_isSome_iff_eq_none.1 unfit
  | templates =>
    have nothing : text? value = none := by
      by_contra named
      obtain ⟨mode, named⟩ := Option.ne_none_iff_exists'.1 named
      cases known : mode? mode with
      | none => exact accepted ⟨mode, named, known⟩
      | some _ => exact unfit ⟨mode, named, Option.isSome_iff_exists.2 ⟨_, known⟩⟩
    simp only [read, nothing]
    rfl
  | outputExtension =>
    have nothing : text? value = none := by
      by_contra named
      obtain ⟨extension, named⟩ := Option.ne_none_iff_exists'.1 named
      by_cases dotted : extension.head? = some (.scalar '.')
      · exact unfit ⟨extension, named, dotted⟩
      · exact accepted ⟨extension, named, dotted⟩
    simp only [read, nothing]
    rfl
  | propertySources | included | excluded =>
    simp only [read, list unfit]
    rfl
  | settings =>
    have nothing : value = .null := by
      by_contra something
      refine accepted ⟨something, fun items same => ?_⟩
      by_contra complete
      exact unfit ⟨items, same, by simpa using complete⟩
    rw [nothing]
  | parentSubstitutions =>
    have nothing : value = .null := by
      by_contra something
      refine accepted ⟨something, fun items same => ?_⟩
      obtain ⟨before, item, after, order, passed, faulty⟩ := exists_first_unsound
        (IsRule · (·.isOk)) fun sound => unfit ⟨items, same, sound⟩
      exact ⟨before, item, after, order, passed, faulty,
        fun e stop => goesOn e ⟨rfl, before, item, after, order ▸ same, passed, stop⟩⟩
    rw [nothing]

/-- A project holds for each key what a description says about it, and the standard where it says
nothing. -/
def Follows (project : Project) (data : Value) (start : Route) : Prop :=
  ∀ key : Key, key.content project =
    ((key.value? data).bind (key.read project.root)).getD
      (key.content (standard start project.root))

section

variable {data : Value}

theorem bind_valueOf {α : Type} (f : Value → Option α) (nothing : f .null = none) (key : Text) :
    f (valueOf data key) = (data.get? key).bind f := by
  unfold valueOf
  cases data.get? key with
  | none => exact nothing
  | some value => rfl

theorem getD_valueOf {α : Type} (f : Value → Option α) (nothing : f .null = none) (key : Text)
    (standard : α) :
    (f (valueOf data key)).getD standard = ((data.get? key).bind f).getD standard := by
  rw [bind_valueOf f nothing]

theorem texts_valueOf (key : Text) (standard : List Text) :
    (if (texts (valueOf data key)).isEmpty then standard else texts (valueOf data key)) =
      ((data.get? key).bind fun value =>
        (some (texts value)).filter (!·.isEmpty)).getD standard := by
  unfold valueOf
  cases data.get? key with
  | none => rfl
  | some value => cases listed : texts value <;> simp [listed, Option.filter]

theorem get?_valueOf (name key : Text) :
    (valueOf data name).get? key = (data.get? name).bind (·.get? key) :=
  bind_valueOf (·.get? key) rfl name

/-- What is made of a standard is made of what is read instead of it as well. -/
theorem map_getD {α β : Type} (value? : Option Value) (f : Value → Option α) (make : α → β)
    (standard : α) :
    make ((value?.bind f).getD standard) =
      (value?.bind fun value => (f value).map make).getD (make standard) := by
  cases value? with
  | none => rfl
  | some value =>
    rw [Option.bind_some, Option.bind_some]
    cases f value <;> rfl

/-- The mode of templates is the one that its key names, and otherwise the standard. -/
theorem eq_of_templateMode {templates : TemplateMode} {root : Route}
    (h : templateMode data = .ok templates) :
    templates =
      ((Key.templates.value? data).bind (Key.templates.read root)).getD .concat := by
  change _ = ((data.get? "template_literals").bind fun value => (text? value).bind _).getD _
  rw [templateMode, bind_valueOf text? rfl] at h
  rw [← Option.bind_assoc]
  cases named : (data.get? "template_literals").bind text? with
  | none =>
    rw [named] at h
    exact (Except.ok.inj h).symm
  | some mode =>
    simp only [named] at h
    simp only [Option.bind_some, Key.mode?]
    split at h
    · next concat =>
      rw [if_pos concat]
      exact (Except.ok.inj h).symm
    · next other =>
      rw [if_neg other]
      split at h
      · next preserve =>
        rw [if_pos preserve]
        exact (Except.ok.inj h).symm
      · cases h

theorem eq_of_outputExtension {extension : Text} {root : Route}
    (h : outputExtension data = .ok extension) :
    extension = ((Key.outputExtension.value? data).bind (Key.outputExtension.read root)).getD
      ({} : WrapperConfig).outputExtension := by
  rw [outputExtension, bind_valueOf text? rfl] at h
  dsimp only at h
  split at h
  · exact (Except.ok.inj h).symm
  · cases h

theorem eq_of_elim {α : Type} {value? : Option Value} {standard result : α}
    {f : Value → Except ProjectError α} (h : value?.elim (.ok standard) f = .ok result) :
    result = (value?.bind fun value => (f value).toOption).getD standard := by
  cases value? with
  | none => exact (Except.ok.inj h).symm
  | some value =>
    change f value = .ok result at h
    simp [h, Except.toOption]

end

/-- A project that is read from a mapping holds for each key what the mapping says. The keys are
gone through one by one: those that cannot be rejected are read in the same way on both sides, and
for the others the reading has succeeded. -/
theorem follows_of_ofDescription {entries : List (Value × Value)} {start root : Route}
    {project : Project} (h : ofDescription (.mapping entries) start root = .ok project) :
    project.Follows (.mapping entries) start := by
  obtain ⟨wrapper, read, h⟩ := Except.bind_eq_ok.1 h
  cases h
  rw [wrapperOf_eq] at read
  obtain ⟨templates, ht, read⟩ := Except.bind_eq_ok.1 read
  obtain ⟨extension, hx, read⟩ := Except.bind_eq_ok.1 read
  obtain ⟨settings, hs, read⟩ := Except.bind_eq_ok.1 read
  obtain ⟨rewrites, hr, read⟩ := Except.bind_eq_ok.1 read
  cases read
  intro key
  cases key with
  | componentsRoot =>
    change (root ++ Route.ofText ((text? (valueOf _ "components_root")).getD _)).text = _
    rw [bind_valueOf text? rfl]
    exact map_getD _ text? (fun path => (root ++ Route.ofText path).text) _
  | upgradable => exact getD_valueOf flag? rfl _ _
  | templates => exact eq_of_templateMode ht
  | outputExtension => exact eq_of_outputExtension hx
  | propertySources => exact texts_valueOf _ _
  | elementDecorator | wrapperModule | propTypesModule | elementPath =>
    exact getD_valueOf someText? rfl _ _
  | settings => exact eq_of_elim hs
  | parentSubstitutions => exact eq_of_elim hr
  | outDirectory =>
    change (someText? (valueOf (valueOf _ "build") "out_dir")).map _ = _
    rw [bind_valueOf someText? rfl, get?_valueOf]
    change _ = ((((Value.mapping entries).get? "build").bind (·.get? "out_dir")).bind fun value =>
      (someText? value).map fun path => some (root ++ Route.ofText path)).getD _
    cases ((Value.mapping entries).get? "build").bind (·.get? "out_dir") with
    | none => rfl
    | some value =>
      rw [Option.bind_some, Option.bind_some]
      cases someText? value <;> rfl
  | included =>
    refine (texts_valueOf "include" _).trans ?_
    rw [get?_valueOf]
    rfl
  | excluded =>
    change ((valueOf _ "build").get? "exclude").elim _ texts = _
    rw [get?_valueOf]
    change _ = ((((Value.mapping entries).get? "build").bind (·.get? "exclude")).bind fun value =>
      some (texts value)).getD _
    cases ((Value.mapping entries).get? "build").bind (·.get? "exclude") <;> rfl
  | failFast =>
    refine (getD_valueOf flag? rfl "fail_fast" _).trans ?_
    rw [get?_valueOf]
    rfl

/-- The file that describes a project holds a value; one without content, or a missing one, holds
nothing. -/
def Holds (session : Session) (route : Route) (data : Value) : Prop :=
  let found := (fileOf route : SessionM Route).run session
  if ((found.2.get? found.1).map Entry.kind).isNone then data = .null
  else ∃ source, found.2.text found.1 = .ok source ∧
    if source.all fun c => Text.isBlank (.scalar c) then data = .null
    else Value.read source = .ok data

/-- A file with a text holds the value that the text is read as. -/
theorem Holds.of_text {session : Session} {route : Route} {data : Value} (source : List Char)
    (stands : (((fileOf route : SessionM Route).run session).2.get?
      ((fileOf route : SessionM Route).run session).1).isSome)
    (text : ((fileOf route : SessionM Route).run session).2.text
      ((fileOf route : SessionM Route).run session).1 = .ok source)
    (written : ¬ (source.all fun c => Text.isBlank (.scalar c)) = true)
    (read : Value.read source = .ok data) : Holds session route data := by
  unfold Holds
  dsimp only
  rw [if_neg (by simpa [Option.isSome_iff_ne_none] using stands)]
  refine ⟨source, text, ?_⟩
  rwa [if_neg written]

theorem readDescription_eq {file : Text} {source : List Char} {data : Value}
    (h : if source.all fun c => Text.isBlank (.scalar c) then data = .null
      else Value.read source = .ok data) :
    readDescription file source = .ok (if data.isTrue then data else .mapping []) := by
  unfold readDescription
  split at h
  · next blank =>
    rw [if_pos blank, h]
    rfl
  · next written => rw [if_neg written, h]

/-- A project is read from the value that its file holds; one that counts as nothing is as good as a
mapping without entries. -/
theorem load_of_holds {session : Session} {route : Route} {data : Value}
    (h : Holds session route data) :
    ∃ root, ((load route : SessionM (Except ProjectError Project)).run session).1 =
      ofDescription (if data.isTrue then data else .mapping []) (Session.routeTo session.working)
        root := by
  have loaded := load_eq session route
  refine ⟨((fileOf route : SessionM Route).run session).1.parent, loaded.trans ?_⟩
  unfold Holds at h
  dsimp only at h
  split at h
  · next missing =>
    rw [if_pos missing, h]
    rfl
  · next stands =>
    obtain ⟨source, held, told⟩ := h
    rw [if_neg stands, held]
    change readDescription _ source >>= _ = _
    rw [readDescription_eq told]
    rfl

theorem value?_of_not_mapping {data : Value} (unlike : ∀ entries, data ≠ .mapping entries)
    (key : Key) : key.value? data = none := by
  have missing (name : Text) : data.get? name = none := by
    cases data with
    | mapping entries => exact absurd rfl (unlike entries)
    | _ => rfl
  simp only [Key.value?, missing, Option.bind_none]
  split <;> rfl

/-- A root that is no mapping and counts as nothing is read as a mapping without entries. -/
theorem exists_entries (data : Value) :
    (∃ entries, (if data.isTrue then data else .mapping []) = Value.mapping entries ∧
      ∀ key, Key.value? (.mapping entries) key = key.value? data) ∨
    data.isTrue ∧ ∀ entries, data ≠ .mapping entries := by
  by_cases unlike : ∀ entries, data ≠ .mapping entries
  · by_cases something : data.isTrue
    · exact .inr ⟨something, unlike⟩
    · refine .inl ⟨[], if_neg something, fun key => ?_⟩
      rw [value?_of_not_mapping unlike]
      cases key <;> rfl
  · obtain ⟨entries, rfl⟩ : ∃ entries, data = .mapping entries := by simpa using unlike
    exact .inl ⟨entries, by cases entries <;> rfl, fun _ => rfl⟩

/-- What is noticed does not change if a value that counts as nothing is taken for a mapping without
entries. -/
theorem noticed_congr {data : Value} {entries : List (Value × Value)}
    (same : (if data.isTrue then data else .mapping []) = Value.mapping entries)
    (keys : ∀ key, Key.value? (.mapping entries) key = key.value? data) :
    Noticed data ↔ Noticed (.mapping entries) := by
  constructor
  · rintro (⟨something, unlike⟩ | ⟨given, rejected⟩)
    · rw [if_pos something] at same
      exact absurd same (unlike entries)
    · exact .key ((keys _).trans given) rejected
  · rintro (⟨-, unlike⟩ | ⟨given, rejected⟩)
    · exact absurd rfl (unlike entries)
    · exact .key ((keys _).symm.trans given) rejected

/-- **What loading a project comes to**, whatever value its file holds. A fault is reported just if
it is one of those that are noticed. Otherwise a pattern that stops the reader ends the loading
without a report, and without one the project follows the description; there a value of the wrong
shape, but for bytes, is read like no value, although the description is malformed. -/
theorem load_described {session : Session} {route : Route} {data : Value}
    (h : Holds session route data) :
    let loaded := ((load route : SessionM (Except ProjectError Project)).run session).1
    (Noticed data → ∃ e, loaded = .error e ∧ e.complaint?.isSome) ∧
    (¬ Noticed data → ∀ e, Stops data e → loaded = .error e ∧ e.complaint? = none) ∧
    (¬ Noticed data → (∀ e, ¬ Stops data e) → ∃ project, loaded = .ok project ∧
      project.Follows data (Session.routeTo session.working) ∧
      ∀ key value, Key.value? data key = some value → ¬ key.Fits value →
        (∀ bytes, value ≠ .bytes bytes) →
        key.read project.root value = key.read project.root .null) ∧
    (Noticed data ∨ (∃ e, Stops data e) → Malformed data) := by
  intro loaded
  obtain ⟨root, described⟩ := load_of_holds h
  change loaded = _ at described
  have malformed : Noticed data ∨ (∃ e, Stops data e) → Malformed data := by
    rintro (noticed | ⟨_, stops⟩)
    · exact noticed.malformed
    · exact stops.malformed
  obtain ⟨entries, same, keys⟩ | ⟨something, unlike⟩ := exists_entries data
  · have faults : fault (.mapping entries) = fault data := by simp only [fault, keys]
    have fails : loaded.FailsBy (fault data) := by
      rw [described, same, ← faults]
      exact ofDescription_failsBy _ _ _
    have noticed : Noticed data ↔ ∃ e, fault data = some e ∧ e.complaint?.isSome := by
      rw [noticed_congr same keys, noticed_mapping_iff, faults]
    refine ⟨fun h => ?_, fun silent e stops => ?_, fun silent goesOn => ?_, malformed⟩
    · obtain ⟨e, found, reported⟩ := noticed.1 h
      exact ⟨e, (fails e).2 found, reported⟩
    · have found := fault_of_stops silent stops
      obtain ⟨_, _, _, own⟩ := stops
      exact ⟨(fails e).2 found, (Key.stops_iff.1 own).2⟩
    · have quiet : fault data = none := by
        by_contra found
        obtain ⟨e, found⟩ := Option.ne_none_iff_exists'.1 found
        exact goesOn e (stops_of_fault silent found)
      rw [quiet] at fails
      obtain ⟨project, made⟩ := fails.exists_ok
      refine ⟨project, made, ?_, fun key value given unfit unbinary => ?_⟩
      · have follows := follows_of_ofDescription (same ▸ described.symm.trans made)
        intro key
        rw [← keys]
        exact follows key
      · exact Key.read_of_unfit unfit (fun rejected => silent (.key given rejected))
          (fun e stops => goesOn e ⟨key, value, given, stops⟩) unbinary
  · have noticed : Noticed data := .root something unlike
    refine ⟨fun _ => ⟨.notMapping, ?_, rfl⟩, fun silent => absurd noticed silent,
      fun silent => absurd noticed silent, malformed⟩
    rw [described, if_pos something]
    cases data with
    | mapping entries => exact absurd rfl (unlike entries)
    | _ => rfl

/-- A project whose description is a sequence without items. -/
def itemless : Session := .ofFiles [(projectFile, "[]\n")]

/-- Whether a text is read as a sequence without items. -/
def isItemless : Except Yaml.Fault Value → Bool
  | .ok (.sequence []) => true
  | _ => false

/-- The check for an empty sequence is enough to know the value. -/
theorem eq_of_isItemless {read : Except Yaml.Fault Value} (h : isItemless read) :
    read = .ok (.sequence []) := by
  unfold isItemless at h
  split at h
  · rfl
  · cases h

theorem holds_itemless : Holds itemless (.ofText ".") (.sequence []) :=
  .of_text "[]\n".toList (by decide +kernel) (by decide +kernel) (by decide +kernel)
    (eq_of_isItemless (by decide +kernel))

/-- It is malformed, and loaded as if there were no description. -/
theorem load_itemless :
    Holds itemless (.ofText ".") (.sequence []) ∧ Malformed (.sequence []) ∧
    ∃ project, ((load (.ofText ".") : SessionM (Except ProjectError Project)).run itemless).1 =
      .ok project ∧
      ∀ key : Key, key.content project =
        key.content (standard (Session.routeTo itemless.working) project.root) := by
  have unlike : ∀ entries, Value.sequence [] ≠ .mapping entries := by nofun
  have silent : ¬ Noticed (.sequence []) := by
    rintro (⟨something, -⟩ | ⟨given, -⟩)
    · cases something
    · rw [value?_of_not_mapping unlike] at given
      cases given
  have goesOn (e : ProjectError) : ¬ Stops (.sequence []) e := by
    rintro ⟨key, value, given, -⟩
    rw [value?_of_not_mapping unlike] at given
    cases given
  obtain ⟨-, -, loads, -⟩ := load_described holds_itemless
  obtain ⟨project, loaded, follows, -⟩ := loads silent goesOn
  refine ⟨holds_itemless, .root (by nofun) unlike, project, loaded, fun key => ?_⟩
  rw [follows key, value?_of_not_mapping unlike, Option.bind_none, Option.getD_none]

end ElementWrapper.Project
