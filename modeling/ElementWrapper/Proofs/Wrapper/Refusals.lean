import ElementWrapper.Proofs.Harvest.Content
import ElementWrapper.Transform

/-!
Which modules are understood and still have no wrapper. A wrapper is refused for a property of a
type that it does not know, and for nothing else: what fails after that is no complaint about the
module. The entries of all properties are made before the first check, so that the serializer which
is missing for a later property is noticed before the check that is missing for an earlier one.
-/

namespace ElementWrapper

/-- Whether a failure is about what the module says. -/
def Failure.isComplaint : Failure → Bool
  | .grammar | .diagnostic _ => true
  | .escape _ | .pattern _ | .unprintable _ => false

/-- The types of properties that a wrapper can be made for. -/
def PropertyType.known : List Text := ["String", "Boolean", "Number", "Object"]

/-- The type of a property, if it is none that a wrapper can be made for. An empty type is as good
as no type. -/
def PropertyMetadata.unknownType? (property : PropertyMetadata) : Option Text :=
  property.type.filter fun type => type ≠ [] ∧ type ∉ PropertyType.known

namespace PropertyMetadata

variable {property : PropertyMetadata} {type : Text}

theorem unknownType?_of_untyped (h : property.type = none ∨ property.type = some []) :
    property.unknownType? = none := by
  obtain h | h := h <;> rw [unknownType?, h] <;> rfl

theorem exists_type (h : ¬ (property.type = none ∨ property.type = some [])) :
    ∃ type, property.type = some type ∧ type ≠ [] := by
  obtain ⟨missing, empty⟩ := not_or.1 h
  obtain ⟨type, named⟩ := Option.ne_none_iff_exists'.1 missing
  exact ⟨type, named, fun nothing => empty (nothing ▸ named)⟩

theorem unknownType?_of_typed (h : property.type = some type) (nonempty : type ≠ []) :
    property.unknownType? = if type ∈ PropertyType.known then none else some type := by
  by_cases known : type ∈ PropertyType.known <;>
    simp [unknownType?, h, nonempty, known, Option.filter]

end PropertyMetadata

theorem PropertyType.serializer?_eq_none {type : Text} (h : type ≠ PropertyType.standard) :
    PropertyType.serializer? type = none ↔ type ∉ PropertyType.known := by
  simp [serializer?, serializers, List.lookup_eq_none_iff, known, standard] at h ⊢
  tauto

theorem PropertyType.check?_eq_none {type : Text} :
    PropertyType.check? type = none ↔ type ∉ PropertyType.known := by
  simp [check?, checks, List.lookup_eq_none_iff, known]

/-- A declared property has the place of its decorator. -/
theorem Harvest.location_of_declaration? {config : WrapperConfig} {imports : ImportTable}
    {visit : Visit} {entry : Text × PropertyMetadata}
    (h : declaration? config imports visit = some entry) :
    entry.2.location = visit.node.location := by
  simp only [declaration?, Option.bind_eq_bind, Option.bind_eq_some_iff] at h
  obtain ⟨_, -, _, -, _, -, _, -, _, -, h⟩ := h
  split at h
  · cases h
    rfl
  · cases h

namespace Wrapper

/-- What is wrong with a property that needs a serializer and has none. -/
def entryComplaint? (property : PropertyMetadata) : Option Diagnostic :=
  if property.policy = .flag false then none
  else property.unknownType?.map fun type =>
    { message := "No serializer found for type: " ++ type, location := property.location }

/-- What is wrong with a property that has no check. -/
def checkComplaint? (property : PropertyMetadata) : Option Diagnostic :=
  property.unknownType?.map fun type =>
    { message := "No React prop type found for type: " ++ type, location := property.location }

/-- Why there is no wrapper for a module with some properties. -/
def refusal? (properties : Table PropertyMetadata) : Option Diagnostic :=
  (properties.findSome? fun entry => entryComplaint? entry.2).or
    (properties.findSome? fun entry => checkComplaint? entry.2)

section

variable {property : PropertyMetadata} {type : Text}

theorem serializer?_of_flag (h : property.policy = .flag false) :
    serializer? property = .ok none := by
  simp [serializer?, h]

theorem serializer?_of_untyped (h : property.type = none ∨ property.type = some []) :
    serializer? property = .ok none := by
  obtain ⟨type, policy, comments, location⟩ := property
  match policy with
  | .flag false | .flag true | .unspecified | .named _ => obtain rfl | rfl := h <;> rfl

/-- The serializer of a property with a type and an attribute: none for the standard type, and a
complaint for an unknown one. -/
theorem serializer?_of_typed (policy : property.policy ≠ .flag false)
    (h : property.type = some type) (nonempty : type ≠ []) :
    serializer? property =
      if type = PropertyType.standard then .ok none
      else match PropertyType.serializer? type with
        | some serializer => .ok (some serializer)
        | none =>
          .error (.complaint ("No serializer found for type: " ++ type) property.location) := by
  obtain ⟨_, policy', comments, location⟩ := property
  obtain rfl : _ = some type := h
  obtain ⟨c, cs, rfl⟩ := List.exists_cons_of_ne_nil nonempty
  match policy' with
  | .flag false => contradiction
  | .flag true | .unspecified | .named _ => rfl

theorem check_of_typed (h : property.type = some type) (nonempty : type ≠ []) :
    check property =
      match PropertyType.check? type with
      | some check => .ok (.memberNamed propTypes check)
      | none =>
        .error (.complaint ("No React prop type found for type: " ++ type) property.location) := by
  obtain ⟨_, policy, comments, location⟩ := property
  obtain rfl : _ = some type := h
  obtain ⟨c, cs, rfl⟩ := List.exists_cons_of_ne_nil nonempty
  rfl

end

/-- The serializer of a property is found unless there is a complaint about its entry. -/
theorem serializer?_failsBy (property : PropertyMetadata) :
    (serializer? property).FailsBy ((entryComplaint? property).map .diagnostic) := by
  by_cases policy : property.policy = .flag false
  · rw [serializer?_of_flag policy, entryComplaint?, if_pos policy]
    exact .ok none
  rw [entryComplaint?, if_neg policy]
  by_cases untyped : property.type = none ∨ property.type = some []
  · rw [serializer?_of_untyped untyped, PropertyMetadata.unknownType?_of_untyped untyped]
    exact .ok none
  obtain ⟨type, named, nonempty⟩ := PropertyMetadata.exists_type untyped
  rw [serializer?_of_typed policy named nonempty,
    PropertyMetadata.unknownType?_of_typed named nonempty]
  by_cases standard : type = PropertyType.standard
  · rw [if_pos standard, standard]
    exact .ok none
  · rw [if_neg standard]
    cases serializer : PropertyType.serializer? type with
    | some name =>
      have known : type ∈ PropertyType.known := by
        by_contra unknown
        rw [(PropertyType.serializer?_eq_none standard).2 unknown] at serializer
        cases serializer
      rw [if_pos known]
      exact .ok (some name)
    | none =>
      rw [if_neg ((PropertyType.serializer?_eq_none standard).1 serializer)]
      exact .error _

/-- The check of a property is made unless there is a complaint about it. -/
theorem check_failsBy (property : PropertyMetadata) :
    (check property).FailsBy ((checkComplaint? property).map .diagnostic) := by
  by_cases untyped : property.type = none ∨ property.type = some []
  · rw [checkComplaint?, PropertyMetadata.unknownType?_of_untyped untyped]
    obtain h | h := untyped <;> simp only [check, h] <;> exact .ok _
  obtain ⟨type, named, nonempty⟩ := PropertyMetadata.exists_type untyped
  rw [check_of_typed named nonempty, checkComplaint?,
    PropertyMetadata.unknownType?_of_typed named nonempty]
  cases found : PropertyType.check? type with
  | some name =>
    have known : type ∈ PropertyType.known := by
      by_contra unknown
      rw [PropertyType.check?_eq_none.2 unknown] at found
      cases found
    rw [if_pos known]
    exact .ok _
  | none =>
    rw [if_neg (PropertyType.check?_eq_none.1 found)]
    exact .error _

theorem propertyEntries_failsBy (properties : Table PropertyMetadata) (serializers : List Text) :
    (propertyEntries properties serializers).FailsBy
      (properties.findSome? fun entry => (entryComplaint? entry.2).map .diagnostic) := by
  induction properties generalizing serializers with
  | nil => exact .ok _
  | cons entry rest ih =>
    obtain ⟨name, property⟩ := entry
    rw [propertyEntries, Except.FailsBy.findSome?_cons]
    refine (serializer?_failsBy property).bind fun serializer _ => ?_
    exact (ih _).map

theorem propertyChecks_failsBy (properties : Table PropertyMetadata) :
    (propertyChecks properties).FailsBy
      (properties.findSome? fun entry => (checkComplaint? entry.2).map .diagnostic) := by
  refine .mapM (fun entry => ?_) properties
  exact (check_failsBy entry.2).map

/-- **What the statements of a wrapper fail by**: the reason why there is no wrapper. -/
theorem body_failsBy (config : WrapperConfig) (m : Metadata) (filename : Text) :
    (body config m filename).FailsBy ((refusal? m.properties).map .diagnostic) := by
  rw [refusal?, Option.map_or, List.map_findSome?, List.map_findSome?]
  refine (propertyEntries_failsBy m.properties []).bind fun entries _ => ?_
  exact (propertyChecks_failsBy m.properties).map

/-- The serializer that the second property lacks is noticed before the check that the first one
lacks. -/
example : refusal? [("since", { type := some "Date", policy := .flag false }),
      ("tags", { type := some "Set" })] =
    some { message := "No serializer found for type: Set", location := none } := by
  decide

/-- A wrapper is refused just if some property has an unknown type, with an attribute or without. -/
theorem refusal?_isSome_iff {properties : Table PropertyMetadata} :
    (refusal? properties).isSome ↔ ∃ entry ∈ properties, entry.2.unknownType?.isSome := by
  rw [refusal?, Option.isSome_or, Bool.or_eq_true, List.isSome_findSome?, List.isSome_findSome?,
    List.any_eq_true, List.any_eq_true]
  constructor
  · rintro (⟨entry, mem, found⟩ | ⟨entry, mem, found⟩)
    · rw [entryComplaint?] at found
      split at found
      · cases found
      · exact ⟨entry, mem, Option.isSome_map ▸ found⟩
    · exact ⟨entry, mem, Option.isSome_map ▸ found⟩
  · rintro ⟨entry, mem, unknown⟩
    exact .inr ⟨entry, mem, Option.isSome_map.trans unknown⟩

end Wrapper

open Wrapper

/-! ## The way to a wrapper -/

section

variable {config : WrapperConfig} {m : Metadata} {filename : Text} {source : List Char}

theorem synthesize_of_refusal {complaint : Diagnostic}
    (h : refusal? m.properties = some complaint) :
    synthesize config m filename = .error (.diagnostic complaint) := by
  have fails := (body_failsBy config m (if filename.isEmpty then m.filename else filename) _).2
    (congrArg (Option.map Failure.diagnostic) h)
  rw [synthesize, fails]
  rfl

/-- Where nothing is refused, what makes synthesis fail is no complaint about the module. -/
theorem not_isComplaint_of_synthesize {failure : Failure} (h : refusal? m.properties = none)
    (fails : synthesize config m filename = .error failure) : failure.isComplaint = false := by
  have succeeds := body_failsBy config m (if filename.isEmpty then m.filename else filename)
  rw [h] at succeeds
  obtain ⟨statements, made⟩ := succeeds.exists_ok
  rw [synthesize, made] at fails
  cases templates : config.templates with
  | preserve =>
    simp only [templates] at fails
    cases fails
  | concat =>
    simp only [templates] at fails
    obtain ⟨e, -, rfl⟩ := Except.mapError_eq_error.1 fails
    rfl

theorem isComplaint_attach (filename source : Text) (failure : Failure) :
    (failure.attach filename source).isComplaint = failure.isComplaint := by
  cases failure <;> rfl

variable [Source.Recovery]

/-- Synthesis follows on what an inspection finds. -/
theorem transform_eq :
    transform config filename source =
      inspect config filename source >>= fun m =>
        (synthesize config m filename).mapError (.attach filename (Text.ofChars source)) >>=
          fun wrapper => (Layout.program {} wrapper).mapError .unprintable := by
  rw [transform, wrap, inspect]
  cases parseModule source >>= harvest config filename with
  | error failure => rfl
  | ok m => rfl

theorem transform_of_inspect_fails {failure : Failure}
    (h : inspect config filename source = .error failure) :
    transform config filename source = .error failure := by
  rw [transform_eq, h]
  rfl

theorem transform_of_refusal {complaint : Diagnostic}
    (h : inspect config filename source = .ok m)
    (refused : refusal? m.properties = some complaint) :
    transform config filename source =
      .error (.diagnostic (complaint.attach filename (some (Text.ofChars source)))) := by
  rw [transform_eq, h]
  change (synthesize config m filename).mapError _ >>= _ = _
  rw [synthesize_of_refusal refused]
  rfl

/-- After an inspection without a refusal only failures are left that are no complaints. -/
theorem not_isComplaint_of_transform {failure : Failure}
    (h : inspect config filename source = .ok m) (unrefused : refusal? m.properties = none)
    (fails : transform config filename source = .error failure) : failure.isComplaint = false := by
  rw [transform_eq, h] at fails
  change (synthesize config m filename).mapError _ >>= _ = _ at fails
  obtain stopped | ⟨wrapper, -, stopped⟩ := Except.bind_eq_error.1 fails
  · obtain ⟨reason, unmade, rfl⟩ := Except.mapError_eq_error.1 stopped
    rw [isComplaint_attach]
    exact not_isComplaint_of_synthesize unrefused unmade
  · obtain ⟨reason, -, rfl⟩ := Except.mapError_eq_error.1 stopped
    rfl

/-- A property that an inspection finds is declared by a decorator, and has its place. -/
theorem exists_declaration (h : inspect config filename source = .ok m) :
    ∃ program, parseModule source = .ok program ∧
      ∀ entry ∈ m.properties, ∃ visit ∈ program.visits,
        Harvest.declaration? config (ImportTable.ofProgram program) visit = some entry ∧
        entry.2.location = visit.node.location := by
  rw [inspect, Except.mapError_eq_ok, Except.bind_eq_ok] at h
  obtain ⟨program, parsed, harvested⟩ := h
  refine ⟨program, parsed, fun entry mem => ?_⟩
  obtain ⟨rfl, -⟩ := Harvest.foldlM_step_eq_absorb harvested
  rw [Harvest.foldl_absorb] at mem
  have latest : (program.visits.filterMap
      (Harvest.declaration? config (ImportTable.ofProgram program))).foldl Harvest.addEntry [] =
        Table.latest _ := Table.ofList_eq_latest _
  rw [latest] at mem
  obtain ⟨visit, met, declares⟩ := List.mem_filterMap.1 (Table.mem_of_mem_latest mem)
  exact ⟨visit, met, declares, Harvest.location_of_declaration? declares⟩

end

/-- **Inspections and transformations agree**, but for the properties of a type that a wrapper
cannot be made for. What an inspection complains about, a transformation complains about in the
same words. Where an inspection succeeds, a transformation complains just if there is such a
property, and says why there is no wrapper. The place of a property is that of a decorator that
declares it. -/
theorem transform_complains_iff [Source.Recovery] (config : WrapperConfig) (filename : Text)
    (source : List Char) :
    ((∃ failure, transform config filename source = .error failure ∧ failure.isComplaint) ↔
      (∃ failure, inspect config filename source = .error failure ∧ failure.isComplaint) ∨
        ∃ m, inspect config filename source = .ok m ∧
          ∃ entry ∈ m.properties, entry.2.unknownType?.isSome) ∧
    (∀ failure, inspect config filename source = .error failure →
      transform config filename source = .error failure) ∧
    ∀ m, inspect config filename source = .ok m →
      ((∃ entry ∈ m.properties, entry.2.unknownType?.isSome) →
        ∃ complaint, refusal? m.properties = some complaint ∧
          transform config filename source =
            .error (.diagnostic (complaint.attach filename (some (Text.ofChars source))))) ∧
      ∃ program, parseModule source = .ok program ∧
        ∀ entry ∈ m.properties, ∃ visit ∈ program.visits,
          Harvest.declaration? config (ImportTable.ofProgram program) visit = some entry ∧
          entry.2.location = visit.node.location := by
  refine ⟨⟨?_, ?_⟩, fun failure => transform_of_inspect_fails, ?_⟩
  · rintro ⟨failure, fails, complains⟩
    cases inspected : inspect config filename source with
    | error other =>
      obtain rfl : other = failure :=
        Except.error.inj ((transform_of_inspect_fails inspected).symm.trans fails)
      exact .inl ⟨other, rfl, complains⟩
    | ok m =>
      refine .inr ⟨m, rfl, refusal?_isSome_iff.1 ?_⟩
      by_contra unrefused
      have quiet := not_isComplaint_of_transform inspected
        (Option.not_isSome_iff_eq_none.1 unrefused) fails
      rw [quiet] at complains
      cases complains
  · rintro (⟨failure, fails, complains⟩ | ⟨m, inspected, unknown⟩)
    · exact ⟨failure, transform_of_inspect_fails fails, complains⟩
    · obtain ⟨complaint, refused⟩ := Option.isSome_iff_exists.1 (refusal?_isSome_iff.2 unknown)
      exact ⟨_, transform_of_refusal inspected refused, rfl⟩
  · intro m inspected
    refine ⟨fun unknown => ?_, exists_declaration inspected⟩
    obtain ⟨complaint, refused⟩ := Option.isSome_iff_exists.1 (refusal?_isSome_iff.2 unknown)
    exact ⟨complaint, refused, transform_of_refusal inspected refused⟩

end ElementWrapper
