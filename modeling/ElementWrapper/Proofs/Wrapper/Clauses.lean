import ElementWrapper.Proofs.Module.Imports
import ElementWrapper.Proofs.Script.Clauses
import ElementWrapper.Proofs.Source.Exports
import ElementWrapper.Proofs.Wrapper.Reexports

/-!
Exports of other modules, from the text of a component to the text of its wrapper. `Document.links`
finds what the clauses of a component export again, name by name, as they are written. Names written
as strings are kept without their quotes and printed without quotes, so that the wrapper exports the
same as long as the strings are identifiers (`reads_reexports`).
-/

namespace ElementWrapper

/-- The two names of what is exported again: in the other module, and where it is exported. -/
def Reexport.pair (e : Reexport) : Text × Text := (e.imported, e.exported)

namespace Source

/-! ## What a text exports again -/

/-- A name that a text exports again: the module, the name there unless it is the default, and the
name under which it is exported. -/
structure Link where
  source : Tree
  imported : Option Tree
  exported : Tree

namespace Document

variable (d : Document)

/-- The name that a name stands for: the value of a string, or an identifier without its escapes. -/
def nameValue (tree : Tree) : Text :=
  if tree.kind = "string" then d.stringValue tree
  else (Literal.cook (d.text tree)).toOption.getD []

/-- The last import of a text that binds the name that a name stands for. -/
def importOf? (root name : Tree) : Option ImportName :=
  (root.allImports.filter fun i => d.nameValue i.binding = d.nameValue name).getLast?

/-- What an export exports again: a name of the module that it names, or one that is imported. A
whole module is no name of it. -/
def link? (root : Tree) (e : ExportName) : Option Link :=
  match e.source with
  | some source => some ⟨source, some e.name, e.exported⟩
  | none => do
    let i ← d.importOf? root e.name
    match i.imported with
    | .default => some ⟨i.source, none, e.exported⟩
    | .named name => some ⟨i.source, some name, e.exported⟩
    | .whole => none

/-- What the clauses of a text export again. -/
def links (root : Tree) : List Link := root.allExports.filterMap (d.link? root)

/-- What an export stands for, given what its names stand for. -/
def reexport (nameOf : Tree → Text) (link : Link) : Reexport where
  source := d.stringValue link.source
  exported := nameOf link.exported
  imported := link.imported.elim ImportBinding.defaultName nameOf

/-- The names of what a text exports again. -/
def linkNames (root : Tree) : List Tree :=
  (d.links root).flatMap fun link => link.exported :: link.imported.toList

/-- The names that a text binds, and those that it exports of its own. -/
def ownNames (root : Tree) : List Tree :=
  root.allImports.map (·.binding) ++
    (root.allExports.filter (·.source.isNone)).map (·.name)

/-- The names of a text that are no strings are identifiers, and its own names are written as what
they stand for. -/
structure IsSpelled (names : Clause.Alphabet) (root : Tree) : Prop where
  identifiers : ∀ name ∈ d.linkNames root, name.kind ≠ "string" →
    names.Means (d.text name) (d.nameValue name)
  own : ∀ name ∈ ownNames root, d.nameValue name = d.text name

/-- The strings among the names of a text could be written as identifiers. -/
def HasPlainStrings (names : Clause.Alphabet) (root : Tree) : Prop :=
  ∀ name ∈ d.linkNames root, name.kind = "string" → names.IsWord (d.stringValue name)

variable {d} {names : Clause.Alphabet} {root : Tree}

theorem keptName_of_own {name : Tree} (h : d.nameValue name = d.text name) :
    d.keptName name = d.text name := by
  rw [keptName]
  split
  · next string => rwa [nameValue, if_pos string] at h
  · rfl

/-- What is kept of a name is an identifier that stands for it. -/
theorem means_keptName (spelled : d.IsSpelled names root) (plain : d.HasPlainStrings names root)
    {name : Tree} (mem : name ∈ d.linkNames root) :
    names.Means (d.keptName name) (d.nameValue name) := by
  by_cases string : name.kind = "string"
  · rw [keptName, nameValue, if_pos string, if_pos string]
    exact (plain name mem string).means
  · rw [keptName, if_neg string]
    exact spelled.identifiers name mem string

theorem lookup_keptImport (spelled : d.IsSpelled names root) {name : Tree}
    (own : d.nameValue name = d.text name) :
    (ImportTable.ofBindings (root.allImports.map d.keptImport)).lookup (d.text name) =
      (d.importOf? root name).map d.keptImport := by
  rw [ImportTable.lookup_ofBindings, List.filter_map, List.getLast?_map, importOf?, own]
  refine congrArg (fun found => (List.getLast? found).map _) (List.filter_congr fun i mem => ?_)
  have written := spelled.own i.binding (List.mem_append_left _ (List.mem_map_of_mem mem))
  rw [written]
  rfl

/-- No identifier is the name that stands for a whole module. -/
theorem not_means_namespaceName {value : Text} :
    ¬ names.Means ImportBinding.namespaceName value := by
  rintro ⟨spells, word⟩
  obtain ⟨c, _, same, part | rfl⟩ := spells.head word
  · obtain rfl := CodePoint.scalar.inj (List.cons.inj same).1
    exact names.not_delimiter _ part (by decide)
  · exact absurd (List.cons.inj same).1 (by decide)

/-- What is kept of an export is the link of it, with the names as they are kept: an imported name
is looked up by the last import of it in both. -/
theorem keptReexport?_eq (spelled : d.IsSpelled names root) (plain : d.HasPlainStrings names root)
    {e : ExportName} (mem : e ∈ root.allExports) :
    d.keptReexport? (ImportTable.ofBindings (root.allImports.map d.keptImport)) e =
      (d.link? root e).map (d.reexport d.keptName) := by
  obtain ⟨name, exported, source⟩ := e
  cases source with
  | some source => rfl
  | none =>
    have own : d.nameValue name = d.text name :=
      spelled.own name (List.mem_append_right _
        (List.mem_map.2 ⟨_, List.mem_filter.2 ⟨mem, rfl⟩, rfl⟩))
    have found := lookup_keptImport spelled own
    cases hi : d.importOf? root name with
    | none =>
      rw [hi] at found
      simp [keptReexport?, reexportOf?, keptName_of_own own, found, link?, hi]
    | some i =>
      rw [hi] at found
      obtain ⟨binding, imported, source⟩ := i
      simp only [keptReexport?, reexportOf?, Option.map_none, keptName_of_own own, found,
        Option.map_some, Option.bind_eq_bind, Option.bind_some, link?, hi]
      cases imported with
      | default => rfl
      | whole => rfl
      | named other =>
        have linked : other ∈ d.linkNames root := by
          refine List.mem_flatMap.2 ⟨⟨source, some other, exported⟩, ?_, by simp⟩
          exact List.mem_filterMap.2 ⟨_, mem, by simp [link?, hi]⟩
        have name : d.keptName other ≠ ImportBinding.namespaceName := fun same =>
          not_means_namespaceName (same ▸ means_keptName spelled plain linked)
        simp [keptImport, ImportBinding.isNamespace, name, reexport]

theorem filterMap_keptReexport? (spelled : d.IsSpelled names root)
    (plain : d.HasPlainStrings names root) :
    root.allExports.filterMap
        (d.keptReexport? (ImportTable.ofBindings (root.allImports.map d.keptImport))) =
      (d.links root).map (d.reexport d.keptName) := by
  rw [links, List.map_filterMap]
  exact List.filterMap_congr fun e mem => keptReexport?_eq spelled plain mem

theorem mem_linkNames {link : Link} (mem : link ∈ d.links root) {name : Tree}
    (found : name = link.exported ∨ name ∈ link.imported) : name ∈ d.linkNames root :=
  List.mem_flatMap.2 ⟨link, mem, List.mem_cons.2 (found.imp id Option.mem_toList.2)⟩

/-- The names that are kept for a link stand for its names. -/
theorem isMeant_of_mem_links (spelled : d.IsSpelled names root)
    (plain : d.HasPlainStrings names root) {link : Link} (mem : link ∈ d.links root) :
    Clause.IsMeant names (d.reexport d.keptName link).pair (d.reexport d.nameValue link).pair where
  name := by
    obtain ⟨source, _ | name, exported⟩ := link
    · exact (Clause.Alphabet.isWord_of_isAlpha rfl).means
    · exact means_keptName spelled plain (mem_linkNames mem (.inr rfl))
  exported := means_keptName spelled plain (mem_linkNames mem (.inl rfl))

end Document

end Source

/-! ## What a wrapper exports again -/

namespace Reexport

/-- Only the statements of a module export names, not the parts of them. -/
def HasFlatExports (program : Node) : Prop :=
  ∀ statement ∈ program.statements, ∀ part ∈ statement.children,
    ∀ visit ∈ part.visitsBelow (some statement), exportedNames visit = []

instance (program : Node) : Decidable (HasFlatExports program) :=
  inferInstanceAs (Decidable (∀ statement ∈ program.statements, ∀ part ∈ statement.children,
    ∀ visit ∈ part.visitsBelow (some statement), exportedNames visit = []))

theorem reexports_eq_nil {imports : ImportTable} {visits : List Visit}
    (h : ∀ visit ∈ visits, exportedNames visit = []) :
    visits.flatMap (Harvest.reexports imports) = [] := by
  have names := exported_sublist imports visits
  rw [List.flatMap_eq_nil_iff.2 h, List.sublist_nil, List.map_eq_nil_iff] at names
  exact names

/-- What a module exports again is what its statements export again. -/
theorem reexports_of_hasFlatExports {location : Option Location} {comments : List Comment}
    {statements : List Node} {imports : ImportTable}
    (flat : HasFlatExports (.mk location comments (.program statements))) :
    (Node.mk location comments (.program statements)).visits.flatMap (Harvest.reexports imports) =
      statements.flatMap fun statement => Harvest.reexports imports
        ⟨statement, some (.mk location comments (.program statements))⟩ := by
  rw [Node.visits, Node.visitsBelow_eq, List.flatMap_cons, List.flatMap_assoc]
  change [] ++ statements.flatMap _ = _
  rw [List.nil_append]
  refine List.flatMap_congr fun statement mem => ?_
  rw [Node.visitsBelow_eq, List.flatMap_cons, reexports_eq_nil, List.append_nil]
  intro visit found
  obtain ⟨part, inside, below⟩ := List.mem_flatMap.1 found
  exact flat statement mem part inside visit below

/-- A statement is printed as an export of names of a module, with a clause that is read as some
pairs and as nothing else. -/
def IsPrintedAs (names : Clause.Alphabet) (statement : Node) (source : Text)
    (pairs : List (Text × Text)) : Prop :=
  ∃ clause, (∀ layout, Layout.statement layout 0 statement =
      .ok ("export " ++ clause ++ " from " ++ Literal.quote source ++ ";")) ∧
    ∀ found, Clause.Reads names clause found ↔ found = pairs

variable {names : Clause.Alphabet}

/-- The statement for the exports from one source is printed with a clause that stands for the names
that are meant. -/
theorem isPrintedAs_exportFrom {exports meant : List Reexport} (nonempty : exports ≠ [])
    (h : List.Forall₂ (Clause.IsMeant names) (exports.map pair) (meant.map pair)) (source : Text) :
    IsPrintedAs names (Wrapper.exportFrom (exports.map fun e => (e.exported, e.imported)) source)
      source (meant.map pair) := by
  refine ⟨Clause.printed (exports.map pair), fun layout => ?_, fun found =>
    Clause.reads_printed_iff (by simpa using nonempty) h⟩
  have whole : Wrapper.exportFrom (exports.map fun e => (e.exported, e.imported)) source =
      .of (.exportNamed none (Clause.specifiers (exports.map pair)) (some (.string source))
        false) := by
    rw [Wrapper.exportFrom, Clause.specifiers, List.map_map, List.map_map]
    rfl
  rw [whole]
  rfl

end Reexport

namespace Source.Document

open Reexport

variable {d : Document} {names : Clause.Alphabet} {root : Tree}

/-- Names that are exported under different names are kept under different names. -/
theorem nodup_keptName (spelled : d.IsSpelled names root) (plain : d.HasPlainStrings names root)
    (distinct : ((d.links root).map fun link => d.nameValue link.exported).Nodup) :
    (((d.links root).map (d.reexport d.keptName)).map (·.exported)).Nodup := by
  rw [List.map_map]
  rw [List.Nodup, List.pairwise_map] at distinct ⊢
  refine distinct.imp_of_mem fun {first second} inFirst inSecond ne same => ne ?_
  have meant := (isMeant_of_mem_links spelled plain inSecond).exported
  change names.Means (d.reexport d.keptName second).exported _ at meant
  rw [← show (d.reexport d.keptName first).exported = (d.reexport d.keptName second).exported from
    same] at meant
  exact (isMeant_of_mem_links spelled plain inFirst).exported.unique meant

/-- The table of a harvest is that of the names that are kept of the clauses. -/
theorem grouped_of_harvest {config : WrapperConfig} {file : Text} {program : Node} {m : Metadata}
    (read : d.readProgram root = .ok program) (flat : HasFlatExports program)
    (spelled : d.IsSpelled names root) (plain : d.HasPlainStrings names root)
    (hm : harvest config file program = .ok m) :
    m.reexports = grouped ((d.links root).map (d.reexport d.keptName)) := by
  have written : ∀ i ∈ root.allImports, d.keptName i.binding = d.text i.binding := fun i mem =>
    keptName_of_own (spelled.own _ (List.mem_append_left _ (List.mem_map_of_mem mem)))
  obtain ⟨imports, statements⟩ := keeps_readProgram written program read
  obtain ⟨nodes, -, same⟩ := Except.bind_eq_ok.1 read
  obtain rfl := Except.pure_eq_ok.1 same
  rw [(Harvest.content_of_harvest hm).1]
  refine congrArg grouped ((reexports_of_hasFlatExports flat).trans ?_)
  rw [imports]
  exact (statements _ _).trans (filterMap_keptReexport? spelled plain)

/-- **Identifiers are exported again as they stand.** As long as every string among the names could
be an identifier, the wrapper begins with one export for each module that a text exports names of,
and its clause is read as the pairs of names of that module, in their order, and as nothing else. A
clause with a name that is no identifier is never read as what it was printed for. -/
theorem reads_reexports {config : WrapperConfig} {file filename : Text} {program wrapper : Node}
    {m : Metadata} (read : d.readProgram root = .ok program)
    (flat : HasFlatExports program)
    (spelled : d.IsSpelled names root) (plain : d.HasPlainStrings names root)
    (distinct : ((d.links root).map fun link => d.nameValue link.exported).Nodup)
    (hm : harvest config file program = .ok m)
    (hw : synthesize config m filename = .ok wrapper) :
    let exports := (d.links root).map (d.reexport d.nameValue)
    let moved (source : Text) := Specifier.relativeWithExtension source config.outputExtension
    (∃ front rest, wrapper.statements = front ++ rest ∧
      List.Forall₂ (fun statement source => IsPrintedAs names statement (moved source)
        ((exports.filter (·.source = source)).map pair)) front (exports.map (·.source)).eraseDups ∧
      rest.flatMap ofStatement =
        Wrapper.exposed config m (if filename.isEmpty then m.filename else filename)) ∧
    ∀ pairs found, Clause.Reads names (Clause.printed pairs) found → found.Perm pairs →
      ∀ pair ∈ pairs, names.IsWord pair.1 ∧ names.IsWord pair.2 := by
  intro exports moved
  refine ⟨?_, fun pairs found => Clause.isWord_of_reads_printed⟩
  let kept := (d.links root).map (d.reexport d.keptName)
  have content : m.reexports = grouped kept := grouped_of_harvest read flat spelled plain hm
  have sources : kept.map (·.source) = exports.map (·.source) := by
    simp [kept, exports, Function.comp_def, reexport]
  obtain ⟨rest, hs, hr⟩ := Wrapper.synthesize_eq_front hw
  refine ⟨_, rest, hs, ?_, hr⟩
  rw [content, grouped, sources, List.map_map, List.forall₂_map_left_iff, List.forall₂_same]
  intro source mem
  have ofLinks (nameOf : Tree → Text) :
      ((d.links root).map (d.reexport nameOf)).filter (·.source = source) =
        ((d.links root).filter fun link => d.stringValue link.source = source).map
          (d.reexport nameOf) := List.filter_map
  have table : Reexport.names (kept.filter (·.source = source)) =
      (kept.filter (·.source = source)).map fun e => (e.exported, e.imported) :=
    names_of_nodup ((nodup_keptName spelled plain distinct).sublist (List.filter_sublist.map _))
  have nonempty : kept.filter (·.source = source) ≠ [] := by
    obtain ⟨e, found, rfl⟩ := List.mem_map.1 (List.mem_eraseDups.1 (sources ▸ mem))
    exact List.ne_nil_of_mem (List.mem_filter.2 ⟨found, decide_eq_true rfl⟩)
  have meant : List.Forall₂ (Clause.IsMeant names)
      ((kept.filter (·.source = source)).map pair)
      ((exports.filter (·.source = source)).map pair) := by
    rw [ofLinks, ofLinks, List.map_map, List.map_map, List.forall₂_map_left_iff,
      List.forall₂_map_right_iff, List.forall₂_same]
    exact fun link mem => isMeant_of_mem_links spelled plain (List.mem_of_mem_filter mem)
  have printed := isPrintedAs_exportFrom nonempty meant (moved source)
  rw [← table] at printed
  exact printed

/-- A text that exports an import, a default and a string. -/
def barrelText : List Char :=
  ("import Start, \x7b begin as start \x7d from './steps';\nexport \x7b start, Start \x7d;\n" ++
    "export \x7b 'legible' as run \x7d from './base';\n").toList

/-- The tree of that text. -/
def barrelTree : Tree := (parse barrelText).get (by decide +kernel)

/-- A text with renamed exports, one of them of an imported default and one written with an
escape. -/
theorem reads_barrelTree :
    ∃ program m wrapper front rest,
      (Document.ofChars barrelText).readProgram barrelTree = .ok program ∧
      harvest {} "index.ts" program = .ok m ∧ synthesize {} m "" = .ok wrapper ∧
      wrapper.statements = front ++ rest ∧
      List.Forall₂ (fun statement (entry : Text × List (Text × Text)) =>
        IsPrintedAs Clause.Alphabet.ascii statement entry.1 entry.2) front
        [("./steps.js", [("begin", "start"), ("default", "Start")]),
          ("./base.js", [("legible", "run")])] := by
  -- all that is computed from the tree is one check, so that the text is parsed once for it
  have checked : (((Document.ofChars barrelText).readProgram barrelTree).toOption.any fun program =>
        decide (HasFlatExports program) && (harvest {} "index.ts" program).toOption.any fun m =>
          (synthesize {} m "").toOption.isSome) ∧
      (∀ name ∈ (Document.ofChars barrelText).linkNames barrelTree,
        (Document.ofChars barrelText).nameValue name ∈
            (["start", "begin", "Start", "run", "legible"] : List Text) ∧
          (name.kind ≠ "string" → (Document.ofChars barrelText).text name =
            (Document.ofChars barrelText).nameValue name)) ∧
      (∀ name ∈ ownNames barrelTree, (Document.ofChars barrelText).nameValue name =
        (Document.ofChars barrelText).text name) ∧
      (((Document.ofChars barrelText).links barrelTree).map fun link =>
        (Document.ofChars barrelText).nameValue link.exported).Nodup ∧
      ((Document.ofChars barrelText).links barrelTree).map
          ((Document.ofChars barrelText).reexport (Document.ofChars barrelText).nameValue) =
        [⟨"./steps", "start", "begin"⟩, ⟨"./steps", "Start", "default"⟩,
          ⟨"./base", "run", "legible"⟩] := by decide +kernel
  obtain ⟨success, written, own, distinct, exports⟩ := checked
  simp only [Option.any_eq_true, Bool.and_eq_true, decide_eq_true_eq, Option.isSome_iff_exists,
    Except.toOption_eq_some] at success
  obtain ⟨program, read, flat, m, hm, wrapper, hw⟩ := success
  have isWord : ∀ name ∈ (["start", "begin", "Start", "run", "legible"] : List Text),
      Clause.Alphabet.ascii.IsWord name := by
    intro name mem
    fin_cases mem <;> exact Clause.Alphabet.isWord_of_isAlpha rfl
  have spelled : (Document.ofChars barrelText).IsSpelled Clause.Alphabet.ascii barrelTree := by
    refine ⟨fun name mem plain => ?_, own⟩
    rw [(written name mem).2 plain]
    exact (isWord _ (written name mem).1).means
  have plain : (Document.ofChars barrelText).HasPlainStrings Clause.Alphabet.ascii barrelTree := by
    intro name mem string
    have word := isWord _ (written name mem).1
    rwa [nameValue, if_pos string] at word
  obtain ⟨front, rest, statements, printed, -⟩ :=
    (reads_reexports read flat spelled plain distinct hm hw).1
  refine ⟨program, m, wrapper, front, rest, read, hm, hw, statements, ?_⟩
  have sources : ([⟨"./steps", "start", "begin"⟩, ⟨"./steps", "Start", "default"⟩,
        ⟨"./base", "run", "legible"⟩].map Reexport.source).eraseDups = ["./steps", "./base"] := by
    decide +kernel
  rw [exports, sources] at printed
  obtain _ | ⟨first, _ | ⟨second, ⟨⟩⟩⟩ := printed
  have moved : Specifier.relativeWithExtension "./steps" ({} : WrapperConfig).outputExtension =
        "./steps.js" ∧
      Specifier.relativeWithExtension "./base" ({} : WrapperConfig).outputExtension =
        "./base.js" := by decide +kernel
  refine .cons ?_ (.cons ?_ .nil)
  · convert first using 1
    · exact moved.1.symm
    · decide +kernel
  · convert second using 1
    · exact moved.2.symm
    · decide +kernel

end Source.Document

end ElementWrapper
