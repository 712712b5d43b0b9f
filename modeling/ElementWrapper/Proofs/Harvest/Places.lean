import ElementWrapper.Proofs.Harvest.Complaints
import ElementWrapper.Proofs.Source.Errors
import ElementWrapper.Proofs.Source.Placed
import ElementWrapper.Proofs.Wrapper.Refusals

/-!
Which complaints name a place. A complaint takes the place of a node that is at fault, and the nodes
of a module that was read are placed (`Placed`), but for the bare parts. Only one of these can be at
fault: the value of an option that is the name `attribute` alone. `location_of_complaints` says so
for one node, part by part of `complaints`; `exists_first_of_harvest` takes it to the first node of
the walk that there is a complaint about, whatever the rewriting rules do. A wrapper that is refused
is refused at the place of a decorator, and a text that breaks the grammar at the place of the first
error in its tree (`transform_of_unparsed`).
-/

namespace ElementWrapper

open Source (Bare Placed)

/-! ## Places on a walk -/

/-- A visit below a node meets a placed node or a bare part, and the parent of a visit is placed,
since bare parts have nothing below them. -/
theorem Node.placed_of_visitsBelow {root : Node} {above : Option Node} {visit : Visit}
    (h : Placed root ∨ root.children = []) (ha : ∀ parent, above = some parent → Placed parent)
    (mem : visit ∈ root.visitsBelow above) :
    (Placed visit.node ∨ visit.node.children = []) ∧
      ∀ parent, visit.parent = some parent → Placed parent := by
  induction root using Node.induction generalizing above with
  | step location comments form ih =>
    rw [visitsBelow_eq, List.mem_cons, List.mem_flatMap] at mem
    obtain rfl | ⟨part, inside, below⟩ := mem
    · exact ⟨h, ha⟩
    have whole : Placed (mk location comments form) := h.resolve_right (List.ne_nil_of_mem inside)
    refine ih part inside ?_ ?_ below
    · by_cases own : Bare form part
      · exact .inr own.children
      · exact .inl (whole.of_mem inside own)
    · rintro _ ⟨⟩
      exact whole

theorem Node.placed_of_visits {program : Node} {visit : Visit} (h : Placed program)
    (mem : visit ∈ program.visits) :
    (Placed visit.node ∨ visit.node.children = []) ∧
      ∀ parent, visit.parent = some parent → Placed parent :=
  placed_of_visitsBelow (.inl h) (by nofun) mem

namespace Harvest

/-- An entry of an object that is the name of the option for the attribute and nothing else. -/
def bareAttribute : Form Node :=
  .property (.identifier "attribute") (.identifier "attribute") false

section

variable (config : WrapperConfig) (imports : ImportTable)

/-- A decorator of a property without a fault ahead of an option that is the name `attribute`
alone. -/
def BlamesBare (visit : Visit) : Prop :=
  elementComplaint? config visit = none ∧
    ∃ arguments earlier entry later, propertyArguments? config imports visit = some arguments ∧
      optionEntries arguments = earlier ++ entry :: later ∧
      (∀ option ∈ earlier, optionComplaint? option = none) ∧ entry.form = bareAttribute

end

/-- The first node of a module that there is a complaint about is a decorator of a property, and is
blamed for an option that is the name `attribute` alone. -/
def BlamesBareFirst (config : WrapperConfig) (program : Node) : Prop :=
  let imports := ImportTable.ofProgram program
  ∃ before visit after, program.visits = before ++ visit :: after ∧
    (∀ earlier ∈ before, complaints config imports earlier = []) ∧
    BlamesBare config imports visit

section

variable {config : WrapperConfig} {imports : ImportTable} {visit : Visit} {complaint : Diagnostic}

theorem placed_statements {body : Node} (h : Placed body) :
    ∀ statement ∈ body.statements, Placed statement := by
  obtain ⟨location, comments, form⟩ := body
  cases form with
  | program | block => exact ((Placed.iff_of_whole (by nofun)).1 h).2
  | _ => exact List.forall_mem_nil _

/-- The complaint about a getter or a field has the place of a statement, of a value or of the
member, and none of these is bare. -/
theorem location_of_holderComplaint? {member : Node} (h : Placed member)
    (hc : holderComplaint? member = some complaint) : complaint.location ≠ none := by
  obtain ⟨location, comments, form⟩ := member
  unfold holderComplaint? at hc
  split at hc
  · cases hc
  cases form with
  | classMethod key kind static computed decorators body =>
    obtain ⟨written, parts⟩ := (Placed.iff_of_whole (by rintro _ ⟨⟩)).1 h
    cases hc
    cases body with
    | none => exact written
    | some body =>
      have whole : Placed body := parts body (by simp [Form.children])
      cases first : body.statements.head? with
      | none => simpa [placeOf, first, Node.location] using written
      | some statement =>
        simpa [placeOf, first] using
          (placed_statements whole statement (List.mem_of_head? first)).location_ne_none
  | classField key value static computed decorators =>
    obtain ⟨written, parts⟩ := (Placed.iff_of_whole (by rintro _ ⟨⟩)).1 h
    cases hc
    cases value with
    | none => exact written
    | some value => exact (parts value (by simp [Form.children])).location_ne_none
  | _ => cases hc

/-- A member with a static key has parts. It is no bare one, and the complaint about it has a
place. -/
theorem location_of_eventComplaint? (h : Placed visit.node ∨ visit.node.children = [])
    (hc : eventComplaint? visit = some complaint) : complaint.location ≠ none := by
  obtain ⟨key, hk, hc⟩ := Option.bind_eq_some_iff.1 hc
  obtain ⟨name, -, hc⟩ := Option.bind_eq_some_iff.1 hc
  split at hc
  · refine location_of_holderComplaint? (h.resolve_right fun leaf => ?_) hc
    obtain ⟨⟨location, comments, form⟩, parent⟩ := visit
    cases form with
    | classMethod | classField => cases leaf
    | _ => cases hk
  · cases hc

/-- A decorator with a call is placed, and so are the call and its arguments. -/
theorem placed_of_decoratorCall? {name : Text} {arguments : List Node}
    (h : Placed visit.node ∨ visit.node.children = [])
    (hc : decoratorCall? visit = some (name, arguments)) :
    Placed visit.node ∧ (∀ call ∈ visit.node.children, Placed call) ∧
      ∀ argument ∈ arguments, Placed argument := by
  obtain ⟨⟨location, comments, form⟩, parent⟩ := visit
  unfold decoratorCall? at hc
  split at hc
  · next callLocation callComments _ _ _ _ hf =>
    cases hc
    obtain rfl : form = _ := hf
    have whole := h.resolve_right (by nofun)
    obtain ⟨-, parts⟩ := (Placed.iff_of_whole (by nofun)).1 whole
    have call := List.forall_mem_singleton.1 parts
    obtain ⟨-, operands⟩ := (Placed.iff_of_whole (by nofun)).1 call
    exact ⟨whole, parts, (List.forall_mem_cons.1 operands).2⟩
  · cases hc

theorem placed_of_declaration? {entry : Text × PropertyMetadata}
    (h : Placed visit.node ∨ visit.node.children = [])
    (hd : declaration? config imports visit = some entry) : Placed visit.node := by
  obtain ⟨⟨name, arguments⟩, called, -⟩ := Option.bind_eq_some_iff.1 hd
  exact (placed_of_decoratorCall? h called).1

/-- The complaint about the name of an element has the place of an argument or of the call. -/
theorem location_of_elementComplaint? (h : Placed visit.node ∨ visit.node.children = [])
    (hc : elementComplaint? config visit = some complaint) : complaint.location ≠ none := by
  obtain ⟨arguments, ha, hc⟩ := Option.bind_eq_some_iff.1 hc
  obtain ⟨call, hcall, hc⟩ := Option.bind_eq_some_iff.1 hc
  obtain ⟨⟨name, others⟩, called, ha⟩ := Option.bind_eq_some_iff.1 ha
  obtain ⟨-, rfl⟩ : name = config.elementDecorator ∧ others = arguments := by simpa using ha
  obtain ⟨-, calls, placed⟩ := placed_of_decoratorCall? h called
  split at hc <;> cases hc
  cases first : others.head? with
  | none => exact (calls call (List.mem_of_head? hcall)).location_ne_none
  | some argument => exact (placed argument (List.mem_of_head? first)).location_ne_none

theorem location_of_targetComplaint? (h : Placed visit.node)
    (ha : ∀ parent, visit.parent = some parent → Placed parent)
    (hc : targetComplaint? visit = some complaint) : complaint.location ≠ none := by
  unfold targetComplaint? at hc
  split at hc <;> cases hc
  cases above : visit.parent with
  | none => exact h.location_ne_none
  | some parent => exact (ha parent above).location_ne_none

theorem exists_key_of_optionValue? {option : Text} {entry value : Node}
    (h : optionValue? option entry = some value) :
    ∃ key, entry.form = .property key value false ∧ key.keyName? = some option := by
  unfold optionValue? at h
  split at h
  · next key _ hf =>
    obtain ⟨hk, rfl⟩ : key.keyName? = some option ∧ _ = value := by simpa using h
    exact ⟨key, hf, hk⟩
  · cases h

theorem optionComplaint?_of_bareAttribute {entry : Node} (h : entry.form = bareAttribute) :
    optionComplaint? entry = some { message := attributeMessage, location := none } := by
  obtain ⟨location, comments, form⟩ := entry
  obtain rfl : form = _ := h
  rfl

/-- A complaint about an option is without a place only if the value is a bare part; then the option
is a name alone, and of these names only `attribute` is complained about. -/
theorem bareAttribute_of_optionComplaint? {entry : Node} (h : Placed entry)
    (hc : optionComplaint? entry = some complaint) (lost : complaint.location = none) :
    entry.form = bareAttribute := by
  -- The value of an entry that is a name alone is the only one without a place.
  have bare {option : Text} {value : Node} (hv : optionValue? option entry = some value)
      (hl : value.location = none) :
      entry.form = .property (.identifier option) (.identifier option) false := by
    obtain ⟨key, hf, hk⟩ := exists_key_of_optionValue? hv
    by_cases own : Bare entry.form value
    · rw [hf] at own ⊢
      cases own
      cases hk
      rfl
    · exact absurd hl (h.of_mem (by simp [Node.children, hf, Form.children]) own).location_ne_none
  unfold optionComplaint? at hc
  split at hc
  · next value hv =>
    split at hc <;> cases hc
    next unnamed =>
      obtain ⟨key, hf, -⟩ := exists_key_of_optionValue? hv
      rw [bare hv lost] at hf
      cases hf
      cases unnamed rfl
  · next value _ hv =>
    split at hc <;> cases hc
    exact bare hv lost
  · cases hc

theorem exists_call_of_propertyArguments? {arguments : List Node}
    (h : propertyArguments? config imports visit = some arguments) :
    ∃ name, decoratorCall? visit = some (name, arguments) := by
  obtain ⟨⟨name, others⟩, called, h⟩ := Option.bind_eq_some_iff.1 h
  obtain ⟨binding, -, h⟩ := Option.bind_eq_some_iff.1 h
  split at h <;> cases h
  exact ⟨name, called⟩

theorem placed_optionEntries {arguments : List Node} (h : ∀ argument ∈ arguments, Placed argument) :
    ∀ entry ∈ optionEntries arguments, Placed entry := by
  unfold optionEntries
  split
  · exact ((Placed.iff_of_whole (by nofun)).1 (List.forall_mem_cons.1 h).1).2
  · exact List.forall_mem_nil _

/-- The option that is the name `attribute` alone has the first complaint. -/
theorem complaints_of_blamesBare (h : BlamesBare config imports visit) :
    (complaints config imports visit).head? =
      some { message := attributeMessage, location := none } := by
  obtain ⟨element, arguments, earlier, entry, later, declared, order, quiet, bare⟩ := h
  obtain ⟨name, called⟩ := exists_call_of_propertyArguments? declared
  have event : eventComplaint? visit = none := by
    unfold decoratorCall? at called
    split at called
    · next hf => simp [eventComplaint?, staticKey?, hf]
    · cases called
  have blamed := List.findSome?_eq_some_iff.2
    ⟨earlier, entry, later, order, optionComplaint?_of_bareAttribute bare, quiet⟩
  simp only [complaints, event, element, declared, Option.toList_none, List.nil_append,
    List.head?_append, List.head?_filterMap, blamed, Option.some_or]

/-- The complaint that wins about a node has no place just if it is one about an option that is the
name `attribute` alone. -/
theorem location_of_complaints (h : Placed visit.node ∨ visit.node.children = [])
    (ha : ∀ parent, visit.parent = some parent → Placed parent)
    (hc : (complaints config imports visit).head? = some complaint) :
    complaint.location = none ↔ BlamesBare config imports visit := by
  constructor
  · intro lost
    have event : eventComplaint? visit = none := by
      by_contra found
      obtain ⟨first, found⟩ := Option.ne_none_iff_exists'.1 found
      rw [complaints, found] at hc
      cases hc
      exact location_of_eventComplaint? h found lost
    have element : elementComplaint? config visit = none := by
      by_contra found
      obtain ⟨first, found⟩ := Option.ne_none_iff_exists'.1 found
      rw [complaints, event, found] at hc
      cases hc
      exact location_of_elementComplaint? h found lost
    rw [complaints, event, element] at hc
    cases declared : propertyArguments? config imports visit with
    | none =>
      rw [declared] at hc
      cases hc
    | some arguments =>
      obtain ⟨name, called⟩ := exists_call_of_propertyArguments? declared
      obtain ⟨written, -, placed⟩ := placed_of_decoratorCall? h called
      simp only [declared, Option.toList_none, List.nil_append, List.head?_append,
        List.head?_filterMap] at hc
      cases blamed : (optionEntries arguments).findSome? optionComplaint? with
      | none =>
        rw [blamed, Option.none_or] at hc
        cases target : targetComplaint? visit with
        | none =>
          rw [target] at hc
          cases hc
        | some first =>
          rw [target] at hc
          cases hc
          exact absurd lost (location_of_targetComplaint? written ha target)
      | some first =>
        rw [blamed] at hc
        cases hc
        obtain ⟨earlier, entry, later, order, faulty, quiet⟩ := List.findSome?_eq_some_iff.1 blamed
        have whole : Placed entry := placed_optionEntries placed entry (by simp [order])
        exact ⟨element, arguments, earlier, entry, later, declared, order, quiet,
          bareAttribute_of_optionComplaint? whole faulty lost⟩
  · intro blames
    rw [complaints_of_blamesBare blames] at hc
    cases hc
    rfl

end

/-! ## Runs -/

/-- A harvest that a complaint ends fails by the complaint that wins about the first node that there
is one about. -/
theorem exists_first_of_harvest {config : WrapperConfig} {filename : Text} {program : Node}
    {complaint : Diagnostic}
    (h : harvest config filename program = .error (.diagnostic complaint)) :
    let complaintsOf := complaints config (ImportTable.ofProgram program)
    ∃ before visit after, program.visits = before ++ visit :: after ∧
      (∀ earlier ∈ before, complaintsOf earlier = []) ∧
      (complaintsOf visit).head? = some complaint := by
  intro complaintsOf
  obtain ⟨before, visit, after, m, order, walked, stopped⟩ := Except.foldlM_eq_error h
  refine ⟨before, visit, after, order, fun earlier mem => ?_, ?_⟩
  · obtain ⟨m, next, passed⟩ := Except.ok_of_foldlM walked earlier mem
    exact complaints_of_step_ok passed
  · obtain ⟨error, ruled⟩ | fails := step_spared config _ m visit
    · rw [ruled] at stopped
      cases stopped
    · obtain ⟨first, wins, blamed⟩ := Option.map_eq_some_iff.1 ((fails _).1 stopped)
      cases blamed
      exact wins

theorem head?_flatMap_of_first {complaintsOf : Visit → List Diagnostic} {before : List Visit}
    {visit : Visit} {complaint : Diagnostic} (after : List Visit)
    (quiet : ∀ earlier ∈ before, complaintsOf earlier = [])
    (wins : (complaintsOf visit).head? = some complaint) :
    ((before ++ visit :: after).flatMap complaintsOf).head? = some complaint := by
  rw [List.flatMap_append, List.flatMap_eq_nil_iff.2 quiet, List.nil_append, List.flatMap_cons,
    List.head?_append, wins, Option.some_or]

/-- A module that is blamed for such an option first is refused for it. -/
theorem eq_of_blamesBareFirst {config : WrapperConfig} {filename : Text} {program : Node}
    {complaint : Diagnostic}
    (h : harvest config filename program = .error (.diagnostic complaint))
    (blames : BlamesBareFirst config program) :
    complaint = { message := attributeMessage, location := none } := by
  obtain ⟨before, visit, after, order, quiet, wins⟩ := exists_first_of_harvest h
  obtain ⟨_, _, _, sameOrder, stillQuiet, blamed⟩ := blames
  have first := head?_flatMap_of_first after quiet wins
  rw [← order, sameOrder,
    head?_flatMap_of_first _ stillQuiet (complaints_of_blamesBare blamed)] at first
  exact (Option.some.inj first).symm

/-- A complaint that ends a harvest has no place just if it is one about an option that is the name
`attribute` alone. -/
theorem location_of_harvest {config : WrapperConfig} {filename : Text} {program : Node}
    {complaint : Diagnostic} (h : Placed program)
    (hc : harvest config filename program = .error (.diagnostic complaint)) :
    complaint.location = none ↔ BlamesBareFirst config program := by
  constructor
  · intro lost
    obtain ⟨before, visit, after, order, quiet, wins⟩ := exists_first_of_harvest hc
    have met : visit ∈ program.visits := by simp [order]
    obtain ⟨own, above⟩ := Node.placed_of_visits h met
    exact ⟨before, visit, after, order, quiet, (location_of_complaints own above wins).1 lost⟩
  · intro blames
    rw [eq_of_blamesBareFirst hc blames]

theorem not_blamesBareFirst_of_harvest {config : WrapperConfig} {filename : Text} {program : Node}
    {m : Metadata} (h : harvest config filename program = .ok m) :
    ¬ BlamesBareFirst config program := by
  rintro ⟨before, visit, after, order, -, blames⟩
  obtain ⟨_, _, passed⟩ := Except.ok_of_foldlM h visit (by simp [order])
  have wins := complaints_of_blamesBare blames
  rw [complaints_of_step_ok passed] at wins
  cases wins

end Harvest

/-! ## Messages -/

namespace Diagnostic

/-- The name that a diagnostic shows for a file. -/
def shownName (filename : Text) : Text := if filename.isEmpty then "<unknown>" else filename

/-- What the text of a diagnostic with a place begins with. -/
def heading (filename : Text) (place : Location) (message : Text) : Text :=
  shownName filename ++ ":" ++ Text.ofInt place.line ++ ":" ++ Text.ofInt place.column ++ ": " ++
    message

variable {d : Diagnostic} {filename : Text}

theorem render_of_unplaced (hf : d.filename = some filename) (h : d.location = none) :
    d.render = shownName filename ++ ": " ++ d.message := by
  cases filename <;> simp [render, frame, hf, h, shownName]

theorem render_of_placed {place : Location} (hf : d.filename = some filename)
    (h : d.location = some place) : heading filename place d.message <+: d.render := by
  cases filename <;> simp [render, hf, h, heading, shownName]

end Diagnostic

/-- While a module is walked no file is known. -/
theorem Harvest.filename_of_complaints {config : WrapperConfig} {imports : ImportTable}
    {visit : Visit} {complaint : Diagnostic} (mem : complaint ∈ complaints config imports visit) :
    complaint.filename = none := by
  have raised : complaint ∈ complaints config imports visit → ∃ message location,
      complaint = { message, location } := by
    simp only [complaints, List.mem_append, Option.mem_toList]
    rintro ((found | found) | found)
    · obtain ⟨key, -, found⟩ := Option.bind_eq_some_iff.1 found
      obtain ⟨name, -, found⟩ := Option.bind_eq_some_iff.1 found
      unfold holderComplaint? at found
      grind
    · obtain ⟨arguments, -, found⟩ := Option.bind_eq_some_iff.1 found
      obtain ⟨call, -, found⟩ := Option.bind_eq_some_iff.1 found
      grind
    · split at found
      · simp only [List.mem_append, List.mem_filterMap, Option.mem_toList] at found
        obtain ⟨entry, -, found⟩ | found := found
        · unfold optionComplaint? at found
          grind
        · unfold targetComplaint? at found
          grind
      · cases found
  obtain ⟨message, location, rfl⟩ := raised mem
  rfl

/-- A wrapper is refused at the place of one of the properties. -/
theorem Wrapper.exists_property_of_refusal? {properties : Table PropertyMetadata}
    {complaint : Diagnostic} (h : refusal? properties = some complaint) :
    complaint.filename = none ∧ ∃ entry ∈ properties, complaint.location = entry.2.location := by
  obtain found | ⟨-, found⟩ := Option.or_eq_some_iff.1 h
  all_goals
    obtain ⟨entry, mem, found⟩ := List.exists_of_findSome?_eq_some found
  · unfold entryComplaint? at found
    split at found
    · cases found
    · obtain ⟨type, -, rfl⟩ := Option.map_eq_some_iff.1 found
      exact ⟨rfl, entry, mem, rfl⟩
  · obtain ⟨type, -, rfl⟩ := Option.map_eq_some_iff.1 found
    exact ⟨rfl, entry, mem, rfl⟩

/-! ## Modules -/

section

open Wrapper

variable [Source.Recovery] {config : WrapperConfig} {filename : Text} {source : List Char}
  {m : Metadata} {d : Diagnostic}

theorem placed_of_parseModule {program : Node} (h : parseModule source = .ok program) :
    Placed program := Source.placed_of_readModule (Except.mapError_eq_ok.1 h)

/-- What an inspection complains about is a complaint of the harvest, with the file attached to
it. -/
theorem exists_complaint_of_inspect (h : inspect config filename source = .error (.diagnostic d)) :
    ∃ program complaint, parseModule source = .ok program ∧
      harvest config filename program = .error (.diagnostic complaint) ∧
      d = complaint.attach filename (some (Text.ofChars source)) := by
  obtain ⟨failure, stopped, attached⟩ := Except.mapError_eq_error.1 h
  cases failure with
  | diagnostic complaint =>
    cases attached
    obtain unread | ⟨program, parsed, failed⟩ := Except.bind_eq_error.1 stopped
    · obtain ⟨error, -, unread⟩ := Except.mapError_eq_error.1 unread
      cases error <;> cases unread
    · exact ⟨program, complaint, parsed, failed, rfl⟩
  | _ => cases attached

theorem harvest_of_inspect {program : Node} (h : inspect config filename source = .ok m)
    (parsed : parseModule source = .ok program) : harvest config filename program = .ok m := by
  rwa [inspect, parsed, Except.mapError_eq_ok] at h

theorem exists_refusal_of_transform (h : inspect config filename source = .ok m)
    (hd : transform config filename source = .error (.diagnostic d)) :
    ∃ complaint, refusal? m.properties = some complaint ∧
      d = complaint.attach filename (some (Text.ofChars source)) := by
  cases refused : refusal? m.properties with
  | none => cases not_isComplaint_of_transform h refused hd
  | some complaint =>
    rw [transform_of_refusal h refused] at hd
    cases hd
    exact ⟨complaint, rfl, rfl⟩

/-- **Which complaints have a place**: all of them but one. The text of a complaint that ends a
transformation begins with the file, the line and the column, unless the first thing wrong with the
module is an option of a property that is the name `attribute` alone; then it names no place. -/
theorem location_of_transform_fails
    (h : transform config filename source = .error (.diagnostic d)) :
    ∃ program, parseModule source = .ok program ∧
      (d.location = none ↔ Harvest.BlamesBareFirst config program) ∧
      (d.location = none → d.message = Harvest.attributeMessage ∧
        d.render = Diagnostic.shownName filename ++ ": " ++ d.message) ∧
      ∀ place, d.location = some place →
        Diagnostic.heading filename place d.message <+: d.render := by
  -- What a run complains about is named after the file once it leaves the run.
  have texts {complaint : Diagnostic} (unnamed : complaint.filename = none) :
      let d := complaint.attach filename (some (Text.ofChars source))
      (d.location = none → d.render = Diagnostic.shownName filename ++ ": " ++ d.message) ∧
        ∀ place, d.location = some place →
          Diagnostic.heading filename place d.message <+: d.render := by
    have named : (complaint.attach filename (some (Text.ofChars source))).filename =
        some filename := by simp [Diagnostic.attach, unnamed]
    exact ⟨Diagnostic.render_of_unplaced named, fun _ => Diagnostic.render_of_placed named⟩
  cases inspected : inspect config filename source with
  | error failure =>
    obtain rfl : failure = .diagnostic d :=
      Except.error.inj ((transform_of_inspect_fails inspected).symm.trans h)
    obtain ⟨program, complaint, parsed, failed, rfl⟩ := exists_complaint_of_inspect inspected
    obtain ⟨_, visit, _, -, -, wins⟩ := Harvest.exists_first_of_harvest failed
    obtain ⟨unplaced, placed⟩ :=
      texts (Harvest.filename_of_complaints (List.mem_of_head? wins))
    have blame := Harvest.location_of_harvest (placed_of_parseModule parsed) failed
    refine ⟨program, parsed, blame, fun lost => ⟨?_, unplaced lost⟩, placed⟩
    exact congrArg Diagnostic.message (Harvest.eq_of_blamesBareFirst failed (blame.1 lost))
  | ok m =>
    obtain ⟨complaint, refused, rfl⟩ := exists_refusal_of_transform inspected h
    obtain ⟨unnamed, entry, mem, there⟩ := Wrapper.exists_property_of_refusal? refused
    obtain ⟨unplaced, placed⟩ := texts unnamed
    obtain ⟨program, parsed, declared⟩ := exists_declaration inspected
    obtain ⟨visit, met, declares, here⟩ := declared entry mem
    have harvested := harvest_of_inspect inspected parsed
    have found : complaint.location ≠ none := by
      rw [there, here]
      obtain ⟨own, -⟩ := Node.placed_of_visits (placed_of_parseModule parsed) met
      exact (Harvest.placed_of_declaration? own declares).location_ne_none
    exact ⟨program, parsed, ⟨fun lost => absurd lost found, fun blames =>
      absurd blames (Harvest.not_blamesBareFirst_of_harvest harvested)⟩,
      fun lost => absurd lost found, placed⟩

/-! ## Texts that break the grammar -/

/-- **What is said of a text that breaks the grammar**, given the tree that a parser makes of it
which goes on after errors: the first error in the tree, at its place in the file. -/
theorem transform_of_unparsed {tree error : Source.Tree} (unparsed : Source.parse source = none)
    (recovered : Source.Recovery.tree? source = some tree)
    (first : tree.inOrder.find? Source.Tree.isError = some error) :
    let document := Source.Document.ofChars source
    let d := (document.diagnose error).attach filename (some (Text.ofChars source))
    transform config filename source = .error (@Failure.grammar d) ∧
      Diagnostic.heading filename (document.location error) d.message <+: d.render := by
  intro document d
  have said : Source.syntaxError source = document.diagnose error := by
    rw [Source.syntaxError, recovered, Option.bind_some, Source.Document.check_eq_find?, first]
    rfl
  have fails : inspect config filename source = .error (@Failure.grammar d) := by
    rw [inspect, parseModule, Source.readModule, unparsed, said]
    rfl
  exact ⟨transform_of_inspect_fails fails, Diagnostic.render_of_placed rfl rfl⟩

end

/-- A module with an option that is the name `attribute` alone. -/
def bareAttributeModule : List Char :=
  ("import \x7b property \x7d from 'lit-element';\nclass A \x7b\n" ++
    "  @property(\x7b attribute \x7d) open;\n\x7d\n").toList

theorem transform_bareAttributeModule :
    ∃ d, transform {} "a.ts" bareAttributeModule = .error (.diagnostic d) ∧ d.location = none ∧
      d.render = "a.ts: " ++ Harvest.attributeMessage ∧
      ∃ program, parseModule bareAttributeModule = .ok program ∧
        Harvest.BlamesBareFirst {} program := by
  have fails : transform {} "a.ts" bareAttributeModule = .error (.diagnostic
      { message := Harvest.attributeMessage, location := none, filename := some "a.ts",
        source := some (Text.ofChars bareAttributeModule) }) := by decide +kernel
  obtain ⟨program, parsed, blame, texts, -⟩ := location_of_transform_fails fails
  exact ⟨_, fails, rfl, (texts rfl).2, program, parsed, blame.1 rfl⟩

end ElementWrapper
