import ElementWrapper.Module.Imports
import Mathlib

/-!
The table of imports as the scope of a module. `BindsAt` says what the specifiers of a module bind,
each at its place. A table `Lists` such bindings if it has each name where it is first bound, with
its last binding. It still does so when the next binding is put in (`Lists.insert`), hence after the
whole module (`lists_ofBindings`). The answers to all that a table is asked follow from the list
(`Lists.isScope`, `isScope_ofProgram`).
-/

namespace ElementWrapper.ImportTable

/-! ## Tables -/

/-- The local names of a table in order. -/
def names (table : ImportTable) : List Text := table.map (·.binding)

/-- A binding of a new name goes to the end of the table; one of a name in the table takes its
place. -/
theorem names_insert (table : ImportTable) (b : ImportBinding) :
    (table.insert b).names =
      if b.binding ∈ table.names then table.names else table.names ++ [b.binding] := by
  have bound : table.any (·.binding = b.binding) = true ↔ b.binding ∈ table.names := by
    simp [names]
  rw [insert]
  simp only [bound]
  split
  · rw [names, names, List.map_map]
    refine List.map_congr_left fun old _ => ?_
    rw [Function.comp_apply]
    split
    · next same => exact same.symm
    · rfl
  · exact List.map_append

/-- A name is looked up as the binding that was the last to be inserted for it. -/
theorem lookup_insert (table : ImportTable) (b : ImportBinding) (name : Text) :
    (table.insert b).lookup name = if b.binding = name then some b else table.lookup name := by
  rw [insert]
  split
  · next bound =>
    have binding (old : ImportBinding) :
        (if old.binding = b.binding then b else old).binding = old.binding := by
      split <;> simp_all
    simp only [lookup, List.find?_map, Function.comp_def, binding]
    cases found : List.find? (fun old : ImportBinding => decide (old.binding = name)) table with
    | none =>
      have ne : b.binding ≠ name := by
        rintro rfl
        rw [List.find?_eq_none] at found
        obtain ⟨old, mem, same⟩ := List.any_eq_true.1 bound
        exact found old mem same
      rw [if_neg ne, Option.map_none]
    | some old =>
      obtain rfl : old.binding = name := by simpa using List.find?_some found
      rw [Option.map_some]
      simp only [eq_comm]
      split <;> rfl
  · next free =>
    rw [lookup, List.find?_append, lookup, List.find?_singleton]
    by_cases same : b.binding = name
    · subst same
      have absent : table.find? (fun old => decide (old.binding = b.binding)) = none :=
        List.find?_eq_none.2 fun old mem same => free (List.any_eq_true.2 ⟨old, mem, same⟩)
      simp [absent]
    · simp [same]

theorem lookup_ofBindings (bindings : List ImportBinding) (name : Text) :
    (ofBindings bindings).lookup name = (bindings.filter (·.binding = name)).getLast? := by
  induction bindings using List.reverseRecOn with
  | nil => rfl
  | append_singleton bindings b ih =>
    rw [ofBindings, List.foldl_append, List.foldl_cons, List.foldl_nil, ← ofBindings, lookup_insert,
      ih, List.filter_append]
    split
    · next same => simp [same]
    · next ne => simp [ne]

theorem lookup_eq_none_iff {table : ImportTable} {name : Text} :
    table.lookup name = none ↔ name ∉ table.names := by
  simp [lookup, names]

/-- In a table without repetitions every entry is found by its name. -/
theorem lookup_of_mem {table : ImportTable} (nodup : table.names.Nodup) {b : ImportBinding}
    (mem : b ∈ table) : table.lookup b.binding = some b := by
  induction table with
  | nil => nomatch mem
  | cons first rest ih =>
    obtain ⟨fresh, nodup⟩ := List.nodup_cons.1 nodup
    rw [lookup, List.find?_cons]
    obtain rfl | mem := List.mem_cons.1 mem
    · rw [decide_eq_true rfl]
    · have ne : first.binding ≠ b.binding :=
        fun same => fresh (List.mem_map.2 ⟨b, mem, same.symm⟩)
      rw [decide_eq_false ne]
      exact ih nodup mem

theorem isNamedImport_iff (table : ImportTable) (name : Text) (sources : List Text)
    (imported : Text) :
    table.isNamedImport name sources imported = true ↔
      ∃ b, table.lookup name = some b ∧ b.imported = imported ∧ b.source ∈ sources := by
  rw [isNamedImport]
  cases table.lookup name <;> simp

/-! ## Scopes -/

section

variable {Place : Type} (written : Place → ImportBinding → Prop)

/-- A name is bound by what is written. -/
def IsBound (name : Text) : Prop := ∃ place b, written place b ∧ b.binding = name

variable [LinearOrder Place]

/-- A binding is the last of its name that is written. -/
def IsLast (b : ImportBinding) : Prop :=
  ∃ place, written place b ∧ ∀ other c, written other c → c.binding = b.binding → other ≤ place

/-- A name is bound before another if a binding of it comes before all those of the other. -/
def IsBoundBefore (name other : Text) : Prop :=
  ∃ place b, written place b ∧ b.binding = name ∧
    ∀ later c, written later c → c.binding = other → place < later

/-- A table lists what is written: the names in the order in which they are first bound, and each is
found with its last binding. -/
structure Lists (table : ImportTable) : Prop where
  bound name : name ∈ table.names ↔ IsBound written name
  inOrder : table.names.Pairwise (IsBoundBefore written)
  last name b : table.lookup name = some b ↔ IsLast written b ∧ b.binding = name

/-- A table is the scope of what is written. A name is found with its last binding, or not at all if
nothing binds it, and it is an import from some modules if this binding is. The table has just the
last bindings, one for each name, in the order in which the names are first bound; there are as many
as there are names. -/
structure IsScope (table : ImportTable) : Prop where
  lookup_eq_some name b : table.lookup name = some b ↔ IsLast written b ∧ b.binding = name
  lookup_eq_none name : table.lookup name = none ↔ ¬ IsBound written name
  isNamedImport name sources imported : table.isNamedImport name sources imported = true ↔
    ∃ b, IsLast written b ∧ b.binding = name ∧ b.imported = imported ∧ b.source ∈ sources
  mem b : b ∈ table ↔ IsLast written b
  mem_names name : name ∈ table.names ↔ IsBound written name
  nodup : table.names.Nodup
  inOrder : table.names.Pairwise (IsBoundBefore written)
  length : table.length = {name | IsBound written name}.ncard

/-- After some bindings one more is written, at a place behind theirs. -/
structure IsNext (after : Place → ImportBinding → Prop) (new : Place) (b : ImportBinding) :
    Prop where
  behind {place c} : written place c → place < new
  iff {place c} : after place c ↔ written place c ∨ place = new ∧ c = b

end

variable {Place : Type} [LinearOrder Place] {before after : Place → ImportBinding → Prop}
  {table : ImportTable} {new : Place} {b : ImportBinding}

theorem Lists.nodup (h : Lists before table) : table.names.Nodup :=
  h.inOrder.imp fun ⟨place, c, hc, same, first⟩ equal =>
    lt_irrefl place (first place c hc (same.trans equal))

/-- A table that lists what was written is the scope of it; the number of its names is that of the
bound ones, since none is listed twice. -/
theorem Lists.isScope (h : Lists before table) : IsScope before table where
  lookup_eq_some := h.last
  lookup_eq_none name := by rw [lookup_eq_none_iff, h.bound]
  isNamedImport name sources imported := by simp only [isNamedImport_iff, h.last, and_assoc]
  mem b := by
    constructor
    · exact fun mem => ((h.last b.binding b).1 (lookup_of_mem h.nodup mem)).1
    · exact fun last => List.mem_of_find?_eq_some ((h.last b.binding b).2 ⟨last, rfl⟩)
  mem_names := h.bound
  nodup := h.nodup
  inOrder := h.inOrder
  length := by
    have all : {name | IsBound before name} = (table.names.toFinset : Set Text) :=
      Set.ext fun name => by simp [h.bound]
    rw [all, Set.ncard_coe_finset, List.toFinset_card_of_nodup h.nodup, names, List.length_map]

theorem lists_nil (none : ∀ place c, ¬ before place c) : Lists before [] where
  bound _ := ⟨nofun, fun ⟨place, c, hc, _⟩ => (none place c hc).elim⟩
  inOrder := .nil
  last _ b := ⟨nofun, fun ⟨⟨place, hb, _⟩, _⟩ => (none place b hb).elim⟩

namespace IsNext

/-- One more binding binds its own name. -/
theorem isBound_iff (next : IsNext before after new b) (name : Text) :
    IsBound after name ↔ IsBound before name ∨ name = b.binding := by
  constructor
  · rintro ⟨place, c, hc, rfl⟩
    obtain hc | ⟨-, rfl⟩ := next.iff.1 hc
    · exact .inl ⟨place, c, hc, rfl⟩
    · exact .inr rfl
  · rintro (⟨place, c, hc, same⟩ | rfl)
    · exact ⟨place, c, next.iff.2 (.inl hc), same⟩
    · exact ⟨new, b, next.iff.2 (.inr ⟨rfl, rfl⟩), rfl⟩

/-- One more binding is the last of its name and leaves the last of any other name as it was. -/
theorem isLast_iff (next : IsNext before after new b) (c : ImportBinding) :
    IsLast after c ↔ if b.binding = c.binding then c = b else IsLast before c := by
  have added : after new b := next.iff.2 (.inr ⟨rfl, rfl⟩)
  split
  · next same =>
    constructor
    · rintro ⟨place, hc, last⟩
      obtain hc | ⟨-, rfl⟩ := next.iff.1 hc
      · exact absurd (last new b added same) (next.behind hc).not_ge
      · rfl
    · rintro rfl
      refine ⟨new, added, fun place d hd _ => ?_⟩
      obtain hd | ⟨rfl, -⟩ := next.iff.1 hd
      · exact (next.behind hd).le
      · exact le_rfl
  · next ne =>
    constructor
    · rintro ⟨place, hc, last⟩
      obtain hc | ⟨-, rfl⟩ := next.iff.1 hc
      · exact ⟨place, hc, fun other d hd => last other d (next.iff.2 (.inl hd))⟩
      · exact absurd rfl ne
    · rintro ⟨place, hc, last⟩
      refine ⟨place, next.iff.2 (.inl hc), fun other d hd same => ?_⟩
      obtain hd | ⟨-, rfl⟩ := next.iff.1 hd
      · exact last other d hd same
      · exact absurd same ne

theorem isBoundBefore (next : IsNext before after new b) {name other : Text}
    (h : IsBoundBefore before name other) : IsBoundBefore after name other := by
  obtain ⟨place, c, hc, named, first⟩ := h
  refine ⟨place, c, next.iff.2 (.inl hc), named, fun later d hd same => ?_⟩
  obtain hd | ⟨rfl, -⟩ := next.iff.1 hd
  · exact first later d hd same
  · exact next.behind hc

end IsNext

/-- A table to which the next binding is added lists it too. -/
theorem Lists.insert (h : Lists before table) (next : IsNext before after new b) :
    Lists after (table.insert b) where
  bound name := by
    rw [names_insert, next.isBound_iff, ← h.bound]
    split
    · next mem => exact ⟨.inl, fun known => known.elim id fun same => same ▸ mem⟩
    · rw [List.mem_append, List.mem_singleton]
  inOrder := by
    have kept : table.names.Pairwise (IsBoundBefore after) := h.inOrder.imp next.isBoundBefore
    rw [names_insert]
    split
    · exact kept
    · next fresh =>
      refine List.pairwise_append.2 ⟨kept, List.pairwise_singleton .., fun name mem other eq => ?_⟩
      obtain rfl := List.mem_singleton.1 eq
      obtain ⟨place, c, hc, named⟩ := (h.bound name).1 mem
      -- No binding before is one of the new name, so that any of the old names comes first.
      refine next.isBoundBefore ⟨place, c, hc, named, fun later d hd same => ?_⟩
      exact absurd ((h.bound b.binding).2 ⟨later, d, hd, same⟩) fresh
  last name c := by
    rw [lookup_insert, next.isLast_iff]
    split
    · next same =>
      subst same
      constructor
      · rintro ⟨⟩
        exact ⟨by rw [if_pos rfl], rfl⟩
      · rintro ⟨last, same⟩
        rw [if_pos same.symm] at last
        rw [last]
    · next ne =>
      rw [h.last]
      exact and_congr_left fun same => by rw [if_neg (same ▸ ne)]

theorem Lists.congr (h : Lists before table) (same : ∀ place c, after place c ↔ before place c) :
    Lists after table := by
  obtain rfl : after = before := funext₂ fun place c => propext (same place c)
  exact h

/-! ## Modules -/

/-- What a specifier of an import from a module binds: the default of the module, all of it, or what
it exports under a name. -/
inductive Binds (source : Text) : Node → ImportBinding → Prop where
  | default {location comments binding} :
    Binds source (.mk location comments (.importDefault binding))
      ⟨binding.name, source, ("default" : Text)⟩
  | whole {location comments binding} :
    Binds source (.mk location comments (.importNamespace binding))
      ⟨binding.name, source, ("*" : Text)⟩
  | named {location comments binding imported} :
    Binds source (.mk location comments (.importSpecifier binding imported))
      ⟨binding.name, source, imported.name⟩

/-- What the statements of a module bind at a place: the number of an import that is not one of
types, and the number of a specifier in it. -/
inductive BindsAt (body : List Node) : ℕ ×ₗ ℕ → ImportBinding → Prop where
  | mk {location comments specifiers source specifier i j b} :
    body[i]? = some (.mk location comments (.importDeclaration specifiers source false)) →
    specifiers[j]? = some specifier → Binds (source.stringValue?.getD []) specifier b →
    BindsAt body (toLex (i, j)) b

/-- A specifier is read as the binding that it stands for, and as nothing else. -/
theorem ofSpecifier?_eq_some_iff {source : Text} {specifier : Node} {b : ImportBinding} :
    ofSpecifier? source specifier = some b ↔ Binds source specifier b := by
  constructor
  · obtain ⟨location, comments, form⟩ := specifier
    intro h
    cases form with
    | importDefault | importNamespace | importSpecifier =>
      cases h
      constructor
    | _ => cases h
  · rintro (_ | _ | _) <;> rfl

/-- An item of a longer list is one of the list before or the new one. -/
theorem getElem?_concat_eq_some_iff {α : Type} {items : List α} {item other : α} {i : ℕ} :
    (items ++ [item])[i]? = some other ↔
      items[i]? = some other ∨ i = items.length ∧ item = other := by
  rw [List.getElem?_append]
  split
  · next inside => simp [inside.ne]
  · next outside =>
    have none : items[i]? = none := List.getElem?_eq_none (not_lt.1 outside)
    rw [none, List.getElem?_singleton]
    have last : i - items.length = 0 ↔ i = items.length := by omega
    simp [last]

section

variable {body specifiers : List Node} {location : Option Location} {comments : List Comment}
  {source specifier : Node} {place : ℕ ×ₗ ℕ}

/-- A statement that is no import of values binds nothing. -/
theorem bindsAt_concat_of_ne {statement : Node}
    (other : ∀ location comments specifiers source,
      statement ≠ .mk location comments (.importDeclaration specifiers source false)) :
    BindsAt (body ++ [statement]) place b ↔ BindsAt body place b := by
  constructor
  · rintro ⟨stands, nth, binds⟩
    obtain stands | ⟨-, same⟩ := getElem?_concat_eq_some_iff.1 stands
    · exact ⟨stands, nth, binds⟩
    · exact (other _ _ _ _ same).elim
  · rintro ⟨stands, nth, binds⟩
    exact ⟨getElem?_concat_eq_some_iff.2 (.inl stands), nth, binds⟩

/-- What one more import adds is bound at the places of its own specifiers. -/
theorem bindsAt_concat_iff {i j : ℕ} :
    BindsAt (body ++ [.mk location comments (.importDeclaration specifiers source false)])
        (toLex (i, j)) b ↔
      BindsAt body (toLex (i, j)) b ∨
        i = body.length ∧ ∃ specifier, specifiers[j]? = some specifier ∧
          Binds (source.stringValue?.getD []) specifier b := by
  constructor
  · rintro ⟨stands, nth, binds⟩
    obtain stands | ⟨rfl, same⟩ := getElem?_concat_eq_some_iff.1 stands
    · exact .inl ⟨stands, nth, binds⟩
    · cases same
      exact .inr ⟨rfl, _, nth, binds⟩
  · rintro (⟨stands, nth, binds⟩ | ⟨rfl, specifier, nth, binds⟩)
    · exact ⟨getElem?_concat_eq_some_iff.2 (.inl stands), nth, binds⟩
    · exact ⟨List.getElem?_concat_length, nth, binds⟩

/-- The specifiers of the last import can be added one at a time. -/
theorem bindsAt_concat_specifier :
    BindsAt (body ++
        [.mk location comments (.importDeclaration (specifiers ++ [specifier]) source false)])
        place b ↔
      BindsAt (body ++ [.mk location comments (.importDeclaration specifiers source false)])
        place b ∨
      place = toLex (body.length, specifiers.length) ∧
        Binds (source.stringValue?.getD []) specifier b := by
  obtain ⟨i, j⟩ := place
  have split : (∃ other, (specifiers ++ [specifier])[j]? = some other ∧
      Binds (source.stringValue?.getD []) other b) ↔
      (∃ other, specifiers[j]? = some other ∧ Binds (source.stringValue?.getD []) other b) ∨
        j = specifiers.length ∧ Binds (source.stringValue?.getD []) specifier b := by
    simp only [getElem?_concat_eq_some_iff, or_and_right, exists_or, and_assoc, exists_and_left,
      exists_eq_left']
  have here : toLex (i, j) = toLex (body.length, specifiers.length) ↔
      i = body.length ∧ j = specifiers.length := by
    rw [toLex_inj, Prod.mk.injEq]
  refine bindsAt_concat_iff.trans ?_
  rw [split, and_or_left, ← or_assoc, ← and_assoc, ← here]
  exact or_congr_left bindsAt_concat_iff.symm

theorem lt_of_bindsAt
    (h : BindsAt (body ++ [.mk location comments (.importDeclaration specifiers source false)])
      place b) : place < toLex (body.length, specifiers.length) := by
  obtain ⟨stands, nth, binds⟩ := h
  rw [Prod.Lex.toLex_lt_toLex]
  obtain stands | ⟨rfl, same⟩ := getElem?_concat_eq_some_iff.1 stands
  · exact .inl (List.getElem?_eq_some_iff.1 stands).1
  · cases same
    exact .inr ⟨rfl, (List.getElem?_eq_some_iff.1 nth).1⟩

/-- An import is put in specifier by specifier; the import with the specifiers up to one of them is
itself an import. -/
theorem Lists.declaration (h : Lists (BindsAt body) table) :
    Lists (BindsAt (body ++
        [.mk location comments (.importDeclaration specifiers source false)]))
      ((specifiers.filterMap (ofSpecifier? (source.stringValue?.getD []))).foldl
        ImportTable.insert table) := by
  induction specifiers using List.reverseRecOn with
  | nil =>
    refine h.congr fun ⟨i, j⟩ c => bindsAt_concat_iff.trans (or_iff_left ?_)
    rintro ⟨-, specifier, nth, -⟩
    cases nth
  | append_singleton specifiers specifier ih =>
    rw [List.filterMap_append, List.foldl_append]
    cases binds : ofSpecifier? (source.stringValue?.getD []) specifier with
    | none =>
      rw [List.filterMap_cons_none binds]
      refine ih.congr fun place c => bindsAt_concat_specifier.trans (or_iff_left ?_)
      rintro ⟨-, bound⟩
      rw [← ofSpecifier?_eq_some_iff, binds] at bound
      cases bound
    | some b =>
      rw [List.filterMap_cons_some binds]
      refine ih.insert ⟨lt_of_bindsAt, bindsAt_concat_specifier.trans ?_⟩
      rw [← ofSpecifier?_eq_some_iff, binds, Option.some_inj, eq_comm (a := b)]

end

/-- A table lists the bindings of a module after each of its statements. -/
theorem lists_ofBindings (body : List Node) :
    Lists (BindsAt body) (ofBindings (body.flatMap ofStatement)) := by
  induction body using List.reverseRecOn with
  | nil => exact lists_nil fun _ _ ⟨stands, _, _⟩ => nomatch stands
  | append_singleton body statement ih =>
    rw [List.flatMap_append, List.flatMap_singleton, ofBindings, List.foldl_append]
    obtain ⟨location, comments, form⟩ := statement
    cases form with
    | importDeclaration specifiers source typeOnly =>
      cases typeOnly with
      | false => exact ih.declaration
      | true => exact ih.congr fun _ _ => bindsAt_concat_of_ne nofun
    | _ => exact ih.congr fun _ _ => bindsAt_concat_of_ne nofun

/-- **The table of imports is the scope of the module.** A name stands for what the last specifier
of that name imports, whichever its kind and in whichever import it is written. Imports of types
have no part in it: with one more of them, behind all other statements or between them, the table
is the same. -/
theorem isScope_ofProgram (location : Option Location) (comments : List Comment)
    (body : List Node) :
    IsScope (BindsAt body) (ofProgram (.mk location comments (.program body))) ∧
      ∀ n place notes specifiers source,
        ofProgram (.mk location comments (.program (body.take n ++
          .mk place notes (.importDeclaration specifiers source true) :: body.drop n))) =
        ofProgram (.mk location comments (.program body)) := by
  refine ⟨(lists_ofBindings body).isScope, fun n place notes specifiers source => ?_⟩
  have silent : ofStatement (.mk place notes (.importDeclaration specifiers source true)) = [] :=
    rfl
  simp only [ofProgram, Node.statements]
  rw [List.flatMap_append, List.flatMap_cons, silent, List.nil_append, ← List.flatMap_append,
    List.take_append_drop]

/-- A name that is imported twice keeps its first place, and an import of a type changes nothing. -/
example :
    let declaration (specifiers : List (Form Node)) (source : Text) (typeOnly : Bool) : Node :=
      .of (.importDeclaration (specifiers.map .of) (.string source) typeOnly)
    ofProgram (.of (.program [
      declaration [.importDefault (.identifier "Base"),
        .importSpecifier (.identifier "prop") (.identifier "property")] "./base" false,
      declaration [.importNamespace (.identifier "Base")] "./settings" false,
      declaration [.importDefault (.identifier "prop")] "./shape" true])) =
    [⟨"Base", "./settings", "*"⟩, ⟨"prop", "./base", "property"⟩] := by
  decide

end ElementWrapper.ImportTable
