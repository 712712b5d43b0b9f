import ElementWrapper.Proofs.Printer.Reader
import ElementWrapper.Wrapper

/-!
The text of a wrapper determines the wrapper. The reader of expressions becomes a reader of
statements, which goes by the first word of a statement and by what follows that word: a name that
is assigned to may be any word, but then a dot or an equality sign follows. `IsModule.read` says
that the reader gives the essence of a module back from its text, and so modules of one text are
alike but for the kinds of their keys (`alike_of_program_eq`).
-/

namespace ElementWrapper

namespace Printer

open Literal

/-- A name with the name under which it is known, which may be the same. -/
def readRenamed (text : Text) : (Text × Text) × Text :=
  let (name, rest) := readName text
  if (" as " : Text).isPrefixOf rest then
    let (other, rest) := readName (rest.drop (" as " : Text).length)
    ((name, other), rest)
  else ((name, name), rest)

/-- Names in braces on one line. -/
def readBraced (fuel : Nat) (text : Text) : List (Text × Text) × Text :=
  let (names, rest) := readItems readRenamed fuel (text.drop 2)
  (names, rest.drop 2)

/-- Names in braces, if there are braces. -/
def readNamed (fuel : Nat) (text : Text) : List (Text × Text) × Text :=
  if text.head? = some (.scalar '\x7b') then readBraced fuel text else ([], text)

/-- Names in braces, between which there may be nothing. -/
def readClause (fuel : Nat) (text : Text) : List (Text × Text) × Text :=
  if (text.drop 1).head? = some (.scalar '\x7d') then ([], text.drop 2) else readBraced fuel text

/-- The module that names come from, up to the end of the statement. -/
def readSource (text : Text) : Text × Text :=
  let (source, rest) := readString (text.drop (" from " : Text).length)
  (source, rest.drop 1)

/-- The default binding of an import, if there is one. -/
def readDefault (text : Text) : List Text × Text :=
  if text.head? = some (.scalar '\x7b') then ([], text)
  else
    let (name, rest) := readName text
    if rest.head? = some (.scalar ',') then ([name], rest.drop 2) else ([name], rest)

/-- An import after its first word. -/
def readImport (fuel : Nat) (text : Text) : Node × Text :=
  if text.head? = some doubleQuote then
    let (source, rest) := readString text
    (Wrapper.importOf [] source, rest.drop 1)
  else
    let (defaults, rest) := readDefault text
    let (names, rest) := readNamed fuel rest
    let (source, rest) := readSource rest
    (Wrapper.importOf (defaults.map Wrapper.defaultSpecifier ++
      names.map fun (imported, name) => Wrapper.namedSpecifier imported name) source, rest)

section

variable (layout : Layout)

/-- A variable with a value. -/
def readDeclaration (fuel : Nat) (text : Text) : Node × Text :=
  let (kind, rest) := readName text
  let (name, rest) := readName (rest.drop 1)
  let (value, rest) := readExpression layout fuel 0 (rest.drop (" = " : Text).length)
  (Wrapper.declare kind name value, rest.drop 1)

/-- An export after its first word. -/
def readExport (fuel : Nat) (text : Text) : Node × Text :=
  if text.head? = some (.scalar '\x7b') then
    let (names, rest) := readClause fuel text
    let (source, rest) := readSource rest
    (Wrapper.exportFrom (names.map Prod.swap) source, rest)
  else
    let (word, rest) := readName text
    if word = "default" then
      let (value, rest) := readExpression layout fuel 0 (rest.drop 1)
      (.of (.exportDefault value), rest.drop 1)
    else
      let (declaration, rest) := readDeclaration layout fuel text
      (.of (.exportNamed (some declaration) [] none false), rest)

/-- An assignment. -/
def readAssignment (fuel : Nat) (text : Text) : Node × Text :=
  let (left, rest) := readExpression layout fuel 0 text
  let (right, rest) := readExpression layout fuel 0 (rest.drop (" = " : Text).length)
  (.of (.expressionStatement (.of (.assignment left right "="))), rest.drop 1)

/-- A statement, by its first word and what follows it. -/
def readStatement (fuel : Nat) (text : Text) : Node × Text :=
  let (word, rest) := readName text
  if rest.head? = some (.scalar '.') ∨ (rest.drop 1).head? = some (.scalar '=') then
    readAssignment layout fuel text
  else if word = "import" then readImport fuel (rest.drop 1)
  else if word = "export" then readExport layout fuel (rest.drop 1)
  else readDeclaration layout fuel text

/-- The statements of a text. -/
def readStatements : Nat → Text → List Node
  | 0, _ => []
  | fuel + 1, text =>
    if text = [] then []
    else
      let (statement, rest) := readStatement layout (fuel + 1) text
      statement :: readStatements fuel (rest.drop 1)

/-- The module of a text. -/
def readModule (text : Text) : Node := .of (.program (readStatements layout (text.length + 1) text))

end

/-! ## Clauses -/

/-- No renaming goes on with the text. -/
def EndsRenamed (rest : Text) : Prop := EndsName rest ∧ (" as " : Text).isPrefixOf rest = false

/-- A name is read back with the name that it is given, which is written only if it is another
one. -/
theorem recovers_renamed {name other : Text} (hn : IsName name) (ho : IsName other) (fuel : Nat) :
    Recovers readRenamed EndsRenamed fuel (name, other) (Layout.renamed name other) := by
  intro rest _ ends
  rw [Layout.renamed]
  split
  · next same =>
    subst same
    rw [readRenamed, hn.read ends.1]
    dsimp only
    rw [if_neg (by simp [ends.2])]
  · have split : name ++ " as " ++ other ++ rest = name ++ (" as " ++ (other ++ rest)) := by
      simp only [List.append_assoc]
    have as : (" as " : Text).isPrefixOf (" as " ++ (other ++ rest)) = true :=
      List.isPrefixOf_iff_prefix.2 (List.prefix_append _ _)
    have stop : EndsName (" as " ++ (other ++ rest)) := endsName_cons (c := .scalar ' ') rfl _
    rw [split, readRenamed, hn.read stop]
    dsimp only
    rw [if_pos as, List.drop_left, ho.read ends.1]

/-- Names with the names under which they are known. -/
def AreNames (pairs : List (Text × Text)) : Prop := ∀ pair ∈ pairs, IsName pair.1 ∧ IsName pair.2

/-- Names in braces, each with the name under which it is known. -/
def clause (pairs : List (Text × Text)) : Text :=
  Layout.braced (pairs.map fun pair => Layout.renamed pair.1 pair.2)

/-- A clause in braces is read back, from its first name to its closing brace. -/
theorem readBraced_clause {pairs : List (Text × Text)} (h : AreNames pairs) (ne : pairs ≠ [])
    {fuel : Nat} {rest : Text} (enough : (clause pairs ++ rest).length < fuel) :
    readBraced fuel (clause pairs ++ rest) = (pairs, rest) := by
  have split (names : Text) : Layout.openBrace ++ " " ++ names ++ " " ++ Layout.closeBrace ++ rest =
      .scalar '\x7b' :: .scalar ' ' :: (names ++ .scalar ' ' :: .scalar '\x7d' :: rest) := by
    simp only [List.append_assoc]
    rfl
  have all : List.Forall₂ (Recovers readRenamed EndsRenamed fuel) pairs
      (pairs.map fun pair => Layout.renamed pair.1 pair.2) := by
    rw [List.forall₂_map_right_iff, List.forall₂_same]
    exact fun pair mem => recovers_renamed (h pair mem).1 (h pair mem).2 fuel
  rw [clause, Layout.braced, split] at enough ⊢
  simp only [List.length_cons] at enough
  have stop : EndsRenamed (.scalar ' ' :: .scalar '\x7d' :: rest) := ⟨endsName_cons rfl _, rfl⟩
  have items : readItems readRenamed fuel
      (Text.join ", " (pairs.map fun pair => Layout.renamed pair.1 pair.2) ++
        .scalar ' ' :: .scalar '\x7d' :: rest) =
        (pairs, .scalar ' ' :: .scalar '\x7d' :: rest) :=
    readItems_join comma_space (fun _ => ⟨endsName_cons rfl _, rfl⟩) stop (by simp) all
      (by simpa using ne) (by omega) (by omega)
  rw [readBraced, List.drop_succ_cons, List.drop_succ_cons, List.drop_zero, items]
  rfl

theorem readSource_quote (source rest : Text) :
    readSource (" from " ++ (quote source ++ .scalar ';' :: rest)) = (source, rest) := by
  rw [readSource, List.drop_left, readString_quote]
  rfl

/-- Names in braces, between which there may be nothing. -/
def exportClause (pairs : List (Text × Text)) : Text :=
  if pairs.isEmpty then Layout.openBrace ++ Layout.closeBrace else clause pairs

/-- The end of a statement after the names that come from a module. -/
def fromClause (source rest : Text) : Text := " from " ++ (quote source ++ .scalar ';' :: rest)

section

variable {layout : Layout} {fuel : Nat}

/-- The reader goes by the first word of a statement unless something is assigned. -/
theorem readStatement_word {word text : Text} (hw : ∀ c ∈ word, c.all isNamePart)
    (ht : text.head? ≠ some (.scalar '=')) :
    readStatement layout fuel (word ++ .scalar ' ' :: text) =
      if word = "import" then readImport fuel text
      else if word = "export" then readExport layout fuel text
      else readDeclaration layout fuel (word ++ .scalar ' ' :: text) := by
  have assigns : ¬ ((.scalar ' ' :: text : Text).head? = some (.scalar '.') ∨
      ((.scalar ' ' :: text : Text).drop 1).head? = some (.scalar '=')) := by
    simpa using ht
  rw [readStatement, readName_append hw (endsName_cons rfl _)]
  dsimp only
  rw [if_neg assigns]
  rfl

theorem readStatement_import {text : Text} (ht : text.head? ≠ some (.scalar '=')) :
    readStatement layout fuel ("import " ++ text) = readImport fuel text := by
  have word : ∀ c ∈ ("import" : Text), c.all isNamePart := by decide
  exact (readStatement_word word ht).trans (if_pos rfl)

theorem readStatement_export {text : Text} (ht : text.head? ≠ some (.scalar '=')) :
    readStatement layout fuel ("export " ++ text) = readExport layout fuel text := by
  have word : ∀ c ∈ ("export" : Text), c.all isNamePart := by decide
  exact (readStatement_word word ht).trans ((if_neg (by decide)).trans (if_pos rfl))

/-- A statement is read back from its text, whatever follows it. -/
def ReadsStatement (layout : Layout) (statement : Node) : Prop :=
  ∃ text, layout.statementBody 0 statement = .ok text ∧
    ∀ fuel rest, (text ++ rest).length < fuel →
      readStatement layout fuel (text ++ rest) = (statement.essence, rest)

/-! ## Imports -/

/-- Specifiers of names are written as pairs of names, and nothing of them stands ahead of the
braces. -/
theorem exists_namedImports {specifiers : List Node}
    (h : ∀ specifier ∈ specifiers, IsNamedImport specifier) :
    ∃ pairs, AreNames pairs ∧ Layout.importHeads specifiers = [] ∧
      Layout.importNames specifiers =
        pairs.map (fun pair => Layout.renamed pair.1 pair.2) ∧
      specifiers.map Node.essence =
        pairs.map fun (imported, name) => Wrapper.namedSpecifier imported name := by
  induction specifiers with
  | nil => exact ⟨[], nofun, rfl, rfl, rfl⟩
  | cons specifier specifiers ih =>
    obtain ⟨first, others⟩ := List.forall_mem_cons.1 h
    obtain ⟨pairs, areNames, heads, names, essences⟩ := ih others
    obtain @⟨_, name, imported, _, _, ⟨isName⟩, ⟨isImported⟩⟩ := first
    refine ⟨(imported, name) :: pairs, List.forall_mem_cons.2 ⟨⟨isImported, isName⟩, areNames⟩,
      heads, ?_, ?_⟩
    · rw [List.map_cons, ← names]
      rfl
    · rw [List.map_cons, List.map_cons, essences]
      rfl

theorem importHeads_cons_default {location : Option Location} {binding : Node}
    {specifiers : List Node} (h : Layout.importHeads specifiers = []) :
    Layout.importHeads (.mk location [] (.importDefault binding) :: specifiers) =
      [binding.name] := by
  obtain ⟨defaults, namespaces⟩ := List.append_eq_nil_iff.1 h
  rw [List.reverse_eq_nil_iff] at defaults
  change (binding.name :: List.filterMap _ specifiers).reverse ++ List.filterMap _ specifiers = _
  rw [defaults, namespaces]
  rfl

/-- At most one binding of a default stands ahead of the braces, whatever specifiers come behind
it. -/
theorem exists_defaultImports {defaults : List Node} (one : defaults.length ≤ 1)
    (h : ∀ specifier ∈ defaults, IsDefaultImport specifier) :
    ∃ bindings : List Text, bindings.length ≤ 1 ∧ (∀ binding ∈ bindings, IsName binding) ∧
      defaults.map Node.essence = bindings.map Wrapper.defaultSpecifier ∧
      ∀ specifiers, Layout.importHeads specifiers = [] →
        Layout.importHeads (defaults ++ specifiers) = bindings ∧
          Layout.importNames (defaults ++ specifiers) = Layout.importNames specifiers := by
  cases defaults with
  | nil => exact ⟨[], one, nofun, rfl, fun _ heads => ⟨heads, rfl⟩⟩
  | cons default defaults =>
    obtain rfl : defaults = [] := by simpa using one
    obtain @⟨_, name, _, ⟨isName⟩⟩ := List.forall_mem_singleton.1 h
    exact ⟨[name], one, List.forall_mem_singleton.2 isName, rfl,
      fun _ heads => ⟨importHeads_cons_default heads, rfl⟩⟩

/-- What an import binds, as it is printed. -/
def importClause (bindings : List Text) (pairs : List (Text × Text)) : Text :=
  Text.join ", " (bindings ++ if pairs.isEmpty then [] else [clause pairs])

theorem importDeclaration_bare {specifiers : List Node} {source : Text}
    (heads : Layout.importHeads specifiers = []) (names : Layout.importNames specifiers = []) :
    Layout.importDeclaration specifiers source = "import " ++ source ++ ";" := by
  simp [Layout.importDeclaration, heads, names]

/-- An import is written with its clause between the two words, unless the clause is empty. -/
theorem importDeclaration_clause {specifiers : List Node} {source : Text} {bindings : List Text}
    {pairs : List (Text × Text)} (heads : Layout.importHeads specifiers = bindings)
    (names : Layout.importNames specifiers =
      pairs.map fun pair => Layout.renamed pair.1 pair.2)
    (ne : ¬ (bindings = [] ∧ pairs = [])) :
    Layout.importDeclaration specifiers source =
      "import " ++ importClause bindings pairs ++ " from " ++ source ++ ";" := by
  rw [Layout.importDeclaration, heads, names, List.isEmpty_map]
  refine if_neg ?_
  cases pairs with
  | nil => simpa using ne
  | cons pair pairs => simp

theorem readNamed_clause {pairs : List (Text × Text)} (h : AreNames pairs) (ne : pairs ≠ [])
    {rest : Text} (enough : (clause pairs ++ rest).length < fuel) :
    readNamed fuel (clause pairs ++ rest) = (pairs, rest) :=
  (if_pos rfl).trans (readBraced_clause h ne enough)

theorem readDefault_name {name rest : Text} (h : IsName name) (ends : EndsName rest) :
    readDefault (name ++ rest) =
      ([name], if rest.head? = some (.scalar ',') then rest.drop 2 else rest) := by
  rw [readDefault, if_neg (h.head?_ne rfl _), h.read ends]
  exact (apply_ite (Prod.mk [name]) _ _ _).symm

/-- The default binding and the named ones are told apart by the brace, and the end of the default
binding by the comma. -/
theorem readDefault_importClause {bindings : List Text} {pairs : List (Text × Text)}
    (one : bindings.length ≤ 1) (hb : ∀ binding ∈ bindings, IsName binding) (hp : AreNames pairs)
    (ne : ¬ (bindings = [] ∧ pairs = [])) {source rest : Text}
    (enough : (importClause bindings pairs ++ fromClause source rest).length < fuel) :
    (∀ c, c.all isNameStart = false → c ≠ .scalar '\x7b' →
      (importClause bindings pairs ++ fromClause source rest).head? ≠ some c) ∧
    ∃ between, readDefault (importClause bindings pairs ++ fromClause source rest) =
        (bindings, between) ∧
      readNamed fuel between = (pairs, fromClause source rest) := by
  cases bindings with
  | nil =>
    cases pairs with
    | nil => exact absurd ⟨rfl, rfl⟩ ne
    | cons pair pairs =>
      refine ⟨fun c _ brace same => brace (Option.some.inj same).symm, _, if_pos rfl, ?_⟩
      exact readNamed_clause hp (by simp) enough
  | cons name bindings =>
    obtain rfl : bindings = [] := by simpa using one
    have isName : IsName name := List.forall_mem_singleton.1 hb
    cases pairs with
    | nil =>
      have ends : EndsName (fromClause source rest) := endsName_cons (c := .scalar ' ') rfl _
      exact ⟨fun c hc _ => isName.head?_ne hc _, _, readDefault_name isName ends, rfl⟩
    | cons pair pairs =>
      have split : importClause [name] (pair :: pairs) ++ fromClause source rest =
          name ++
            .scalar ',' :: .scalar ' ' :: (clause (pair :: pairs) ++ fromClause source rest) := by
        simp only [importClause, List.isEmpty_cons, Bool.false_eq_true, if_false,
          List.singleton_append, Text.join, List.append_assoc]
        rfl
      rw [split] at enough ⊢
      refine ⟨fun c hc _ => isName.head?_ne hc _, _,
        readDefault_name isName (endsName_cons rfl _), ?_⟩
      refine readNamed_clause hp (by simp) ?_
      simp only [List.length_append, List.length_cons] at enough ⊢
      omega

theorem essence_import {location : Option Location} {specifiers : List Node} {path : Text}
    {source : Node} (hs : IsString path source) :
    (Node.mk location [] (.importDeclaration specifiers source false)).essence =
      Wrapper.importOf (specifiers.map Node.essence) path := by
  rw [Wrapper.importOf, ← hs.essence_eq]
  exact Node.essence_mk nofun

/-- An import is read back: without specifiers from its source alone, and otherwise from its heads,
the names in its braces and its source. Defaults come before names, as the printer puts them. -/
theorem reads_import {location : Option Location} {defaults names : List Node} {path : Text}
    {source : Node} (one : defaults.length ≤ 1)
    (hd : ∀ specifier ∈ defaults, IsDefaultImport specifier)
    (hn : ∀ specifier ∈ names, IsNamedImport specifier) (hs : IsString path source) :
    ReadsStatement layout
      (.mk location [] (.importDeclaration (defaults ++ names) source false)) := by
  obtain ⟨pairs, areNames, noHeads, printed, essences⟩ := exists_namedImports hn
  obtain ⟨bindings, few, areBindings, essencesDefault, parts⟩ := exists_defaultImports one hd
  obtain ⟨heads, named⟩ := parts names noHeads
  have body : layout.statementBody 0
      (.mk location [] (.importDeclaration (defaults ++ names) source false)) =
        .ok (Layout.importDeclaration (defaults ++ names) (quote path)) := by
    rw [Layout.statementBody, hs.expression_eq]
    rfl
  refine ⟨_, body, fun fuel rest enough => ?_⟩
  rw [essence_import hs, List.map_append, essences, essencesDefault]
  by_cases bare : bindings = [] ∧ pairs = []
  · obtain ⟨rfl, rfl⟩ := bare
    have split : "import " ++ quote path ++ ";" ++ rest =
        "import " ++ (quote path ++ .scalar ';' :: rest) := by
      simp only [List.append_assoc]
      rfl
    have first : (quote path ++ .scalar ';' :: rest).head? ≠ some (.scalar '=') := nofun
    rw [importDeclaration_bare heads (named.trans printed), split, readStatement_import first,
      readImport, if_pos (head?_quote_append path _), readString_quote]
    rfl
  · have split : "import " ++ importClause bindings pairs ++ " from " ++ quote path ++ ";" ++ rest =
        "import " ++ (importClause bindings pairs ++ fromClause path rest) := by
      simp only [List.append_assoc, fromClause]
      rfl
    rw [importDeclaration_clause heads (named.trans printed) bare, split] at enough ⊢
    have enoughClause : (importClause bindings pairs ++ fromClause path rest).length < fuel := by
      rw [List.length_append] at enough
      omega
    obtain ⟨begins, between, readBindings, readPairs⟩ :=
      readDefault_importClause few areBindings areNames bare enoughClause
    rw [readStatement_import (begins _ rfl (by decide)), readImport,
      if_neg (begins _ rfl (by decide)), readBindings]
    dsimp only
    rw [readPairs]
    dsimp only
    rw [fromClause, readSource_quote]

/-! ## Exports of names -/

/-- The text of a name in an export clause. -/
def exportedText (specifier : Node) : Text :=
  match specifier.form with
  | .exportSpecifier binding exported => Layout.renamed binding.name exported.name
  | _ => []

/-- The specifiers of an export are written as pairs of names. -/
theorem exists_exportSpecifiers {specifiers : List Node}
    (h : ∀ specifier ∈ specifiers, IsExportSpecifier specifier) :
    ∃ pairs, AreNames pairs ∧ Layout.exportClause specifiers = exportClause pairs ∧
      specifiers.map Node.essence = pairs.map fun (binding, exported) =>
        Node.of (.exportSpecifier (.identifier binding) (.identifier exported)) := by
  have listed : ∃ pairs, AreNames pairs ∧
      specifiers.map exportedText = pairs.map (fun pair => Layout.renamed pair.1 pair.2) ∧
      specifiers.map Node.essence = pairs.map fun (binding, exported) =>
        Node.of (.exportSpecifier (.identifier binding) (.identifier exported)) := by
    induction specifiers with
    | nil => exact ⟨[], List.forall_mem_nil _, rfl, rfl⟩
    | cons specifier specifiers ih =>
      obtain ⟨first, others⟩ := List.forall_mem_cons.1 h
      obtain ⟨pairs, areNames, printed, essences⟩ := ih others
      obtain @⟨_, binding, exported, _, _, ⟨isBinding⟩, ⟨isExported⟩⟩ := first
      refine ⟨(binding, exported) :: pairs,
        List.forall_mem_cons.2 ⟨⟨isBinding, isExported⟩, areNames⟩, ?_, ?_⟩
      · rw [List.map_cons, List.map_cons, printed]
        rfl
      · rw [List.map_cons, List.map_cons, essences]
        rfl
  obtain ⟨pairs, areNames, printed, essences⟩ := listed
  refine ⟨pairs, areNames, ?_, essences⟩
  have empty : specifiers.isEmpty = pairs.isEmpty := by
    rw [Bool.eq_iff_iff, List.isEmpty_iff_length_eq_zero, List.isEmpty_iff_length_eq_zero,
      ← List.length_map Node.essence, essences, List.length_map]
  rw [Layout.exportClause, exportClause, empty]
  exact congrArg (fun names => if pairs.isEmpty then Layout.openBrace ++ Layout.closeBrace
    else Layout.braced names) printed

theorem head?_exportClause_append (pairs : List (Text × Text)) (rest : Text) :
    (exportClause pairs ++ rest).head? = some (.scalar '\x7b') := by
  cases pairs <;> rfl

theorem readClause_exportClause {pairs : List (Text × Text)} (h : AreNames pairs) {rest : Text}
    (enough : (exportClause pairs ++ rest).length < fuel) :
    readClause fuel (exportClause pairs ++ rest) = (pairs, rest) := by
  cases pairs with
  | nil => rfl
  | cons pair pairs =>
    have names : ((clause (pair :: pairs) ++ rest).drop 1).head? ≠ some (.scalar '\x7d') := nofun
    exact (if_neg names).trans (readBraced_clause h (by simp) enough)

/-- An export of names from another module is read back from its clause and its source. -/
theorem reads_exportFrom {location : Option Location} {specifiers : List Node} {path : Text}
    {source : Node} (h : ∀ specifier ∈ specifiers, IsExportSpecifier specifier)
    (hs : IsString path source) :
    ReadsStatement layout
      (.mk location [] (.exportNamed none specifiers (some source) false)) := by
  obtain ⟨pairs, areNames, printed, essences⟩ := exists_exportSpecifiers h
  have essence : (Node.mk location [] (.exportNamed none specifiers (some source) false)).essence =
      Wrapper.exportFrom (pairs.map Prod.swap) path := by
    rw [Wrapper.exportFrom, List.map_map, ← hs.essence_eq]
    exact (Node.essence_mk (by nofun)).trans (congrArg (fun specifiers =>
      Node.of (.exportNamed none specifiers (some source.essence) false)) essences)
  refine ⟨"export " ++ exportClause pairs ++ " from " ++ quote path ++ ";", ?_,
    fun fuel rest enough => ?_⟩
  · rw [Layout.statementBody, hs.expression_eq, printed]
    rfl
  · have split : "export " ++ exportClause pairs ++ " from " ++ quote path ++ ";" ++ rest =
        "export " ++ (exportClause pairs ++ fromClause path rest) := by
      simp only [List.append_assoc, fromClause]
      rfl
    have first : (exportClause pairs ++ fromClause path rest).head? ≠ some (.scalar '=') := by
      rw [head?_exportClause_append]
      nofun
    rw [split] at enough ⊢
    rw [List.length_append] at enough
    rw [readStatement_export first, readExport, if_pos (head?_exportClause_append pairs _),
      readClause_exportClause areNames (by omega), essence]
    dsimp only
    rw [fromClause, readSource_quote]

/-! ## Values -/

theorem endsValue_semicolon (rest : Text) : EndsValue (.scalar ';' :: rest) :=
  endsValue_cons rfl (by decide) (by decide) rest

theorem endsValue_equals (rest : Text) : EndsValue (" = " ++ rest) :=
  endsValue_cons (c := .scalar ' ') rfl (by decide) (by decide) _

theorem essence_declaration {location place : Option Location} {kind name : Text} {id value : Node}
    (hn : IsIdentifier name id) :
    (Node.mk location [] (.variables kind [.mk place [] (.declarator id (some value))])).essence =
      Wrapper.declare kind name value.essence := by
  rw [Wrapper.declare, ← hn.essence_eq]
  exact Node.essence_mk nofun

/-- A declaration begins with its kind and the name of the variable. -/
theorem IsDeclaration.reads (layout : Layout) {node : Node} (h : IsDeclaration node) :
    ∃ kind ∈ [("var" : Text), "const"], ∃ text,
      layout.statementBody 0 node = .ok (kind ++ .scalar ' ' :: text) ∧
      (∀ rest, (text ++ rest).head? ≠ some (.scalar '=')) ∧
      ∀ fuel rest, (text ++ rest).length < fuel →
        readDeclaration layout fuel (kind ++ .scalar ' ' :: (text ++ rest)) =
          (node.essence, rest) := by
  obtain @⟨location, place, kind, name, id, value, hk, hn, hv⟩ := h
  obtain ⟨text, printed, -, reads⟩ := hv.reads layout 0
  have isName : IsName name := hn.isName
  refine ⟨kind, hk, name ++ " = " ++ text ++ ";", ?_, fun rest => ?_, fun fuel rest enough => ?_⟩
  · simp only [Layout.statementBody, Layout.declarator, Node.form, List.mapM_cons, List.mapM_nil,
      hn.expression_eq, printed]
    change Except.ok (kind ++ " " ++ (name ++ " = " ++ text) ++ ";") = _
    simp only [List.append_assoc]
    rfl
  · rw [List.append_assoc, List.append_assoc, List.append_assoc]
    exact isName.head?_ne rfl _
  · have split : name ++ " = " ++ text ++ ";" ++ rest =
        name ++ (" = " ++ (text ++ .scalar ';' :: rest)) := by
      simp only [List.append_assoc]
      rfl
    have isKind : ∀ c ∈ kind, c.all isNamePart := by
      simp only [List.mem_cons, List.not_mem_nil, or_false] at hk
      rcases hk with rfl | rfl <;> decide
    rw [split] at enough ⊢
    have value_eq : readExpression layout fuel 0 (text ++ .scalar ';' :: rest) =
        (value.essence, .scalar ';' :: rest) := by
      refine reads fuel _ ?_ (endsValue_semicolon rest)
      simp only [List.length_append] at enough ⊢
      omega
    rw [readDeclaration, readName_append isKind (endsName_cons rfl _)]
    dsimp only
    rw [List.drop_succ_cons, List.drop_zero, isName.read (endsValue_equals _).1]
    dsimp only
    rw [List.drop_left, value_eq, essence_declaration hn]
    rfl

/-- A variable that is declared with a value is read back. -/
theorem reads_declaration {node : Node} (h : IsDeclaration node) : ReadsStatement layout node := by
  obtain ⟨kind, hk, text, printed, begins, reads⟩ := h.reads layout
  refine ⟨_, printed, fun fuel rest enough => ?_⟩
  rw [List.append_assoc, List.cons_append] at enough ⊢
  simp only [List.mem_cons, List.not_mem_nil, or_false] at hk
  have words : (∀ c ∈ kind, c.all isNamePart) ∧ kind ≠ "import" ∧ kind ≠ "export" := by
    rcases hk with rfl | rfl <;> decide
  rw [readStatement_word words.1 (begins rest), if_neg words.2.1, if_neg words.2.2]
  refine reads fuel rest ?_
  simp only [List.length_append, List.length_cons] at enough ⊢
  omega

/-- A declaration that is exported is read back behind the word `export`. No declaration begins with
a brace or with the word `default`, which tell the other exports. -/
theorem reads_exported {location : Option Location} {declaration : Node}
    (h : IsDeclaration declaration) :
    ReadsStatement layout (.mk location [] (.exportNamed (some declaration) [] none false)) := by
  obtain ⟨kind, hk, text, printed, -, reads⟩ := h.reads layout
  refine ⟨"export " ++ (kind ++ .scalar ' ' :: text), ?_, fun fuel rest enough => ?_⟩
  · rw [Layout.statementBody, printed]
    rfl
  rw [List.append_assoc, List.append_assoc, List.cons_append] at enough ⊢
  simp only [List.mem_cons, List.not_mem_nil, or_false] at hk
  have words : (∀ c ∈ kind, c.all isNamePart) ∧ kind ≠ "default" ∧
      ∀ rest, (kind ++ rest).head? ≠ some (.scalar '=') ∧
        (kind ++ rest).head? ≠ some (.scalar '\x7b') := by
    rcases hk with rfl | rfl
    · exact ⟨by decide, by decide, fun rest => by simp [Text.ofString, Text.ofChars]⟩
    · exact ⟨by decide, by decide, fun rest => by simp [Text.ofString, Text.ofChars]⟩
  obtain ⟨isName, ne, begins⟩ := words
  have declaration_eq : readDeclaration layout fuel (kind ++ .scalar ' ' :: (text ++ rest)) =
      (declaration.essence, rest) := by
    refine reads fuel rest ?_
    simp only [List.length_append, List.length_cons] at enough ⊢
    omega
  rw [readStatement_export (begins _).1, readExport, if_neg (begins _).2,
    readName_append isName (endsName_cons rfl _)]
  dsimp only
  rw [if_neg ne, declaration_eq, Node.essence_mk (by simp)]
  rfl

/-- A default export is read back from its value. -/
theorem reads_exportDefault {location : Option Location} {value : Node}
    (h : Stands .value value) : ReadsStatement layout (.mk location [] (.exportDefault value)) := by
  obtain ⟨text, printed, -, reads⟩ := h.reads layout 0
  refine ⟨"export default " ++ text ++ ";", ?_, fun fuel rest enough => ?_⟩
  · rw [Layout.statementBody, printed]
    rfl
  have split : "export default " ++ text ++ ";" ++ rest =
      "export " ++ (("default" : Text) ++ .scalar ' ' :: (text ++ .scalar ';' :: rest)) := by
    simp only [List.append_assoc]
    rfl
  rw [split] at enough ⊢
  have value_eq : readExpression layout fuel 0 (text ++ .scalar ';' :: rest) =
      (value.essence, .scalar ';' :: rest) := by
    refine reads fuel _ ?_ (endsValue_semicolon rest)
    simp only [List.length_append, List.length_cons] at enough ⊢
    omega
  have word : ∀ c ∈ ("default" : Text), c.all isNamePart := by decide
  have equals (rest : Text) : ("default" ++ rest : Text).head? ≠ some (.scalar '=') := nofun
  have brace (rest : Text) : ("default" ++ rest : Text).head? ≠ some (.scalar '\x7b') := nofun
  rw [readStatement_export (equals _), readExport, if_neg (brace _),
    readName_append word (endsName_cons rfl _)]
  dsimp only
  rw [if_pos rfl, List.drop_succ_cons, List.drop_zero, value_eq, Node.essence_mk (by nofun)]
  rfl

/-! ## Assignments -/

/-- A reference is a name, or a name and then a dot. -/
theorem IsReference.begins {node : Node} (h : IsReference node) {text : Text}
    (printed : layout.expression 0 node = .ok text) :
    ∃ word rest, text = word ++ rest ∧ IsName word ∧
      (rest = [] ∨ rest.head? = some (.scalar '.')) := by
  induction h generalizing text with
  | identifier h =>
    obtain rfl := Except.ok.inj ((h.expression_eq 0).symm.trans printed)
    exact ⟨_, [], (List.append_nil _).symm, h.isName, .inl rfl⟩
  | @member location target name property _ hn ih =>
    simp only [Layout.expression, hn.expression_eq, Except.bind_eq_ok, Except.pure_eq_ok] at printed
    obtain ⟨before, hb, _, ⟨⟩, rfl⟩ := printed
    obtain ⟨word, rest, rfl, isName, stop⟩ := ih hb
    refine ⟨word, rest ++ ("." ++ property), by simp, isName, .inr ?_⟩
    rcases stop with rfl | stop
    · rfl
    · rw [List.head?_append, stop]
      rfl

/-- An assignment to a reference is read back. The reference is read as an expression, and the
equals sign behind it tells the assignment from other expressions. -/
theorem reads_assignment {location place : Option Location} {left right : Node}
    (hl : IsReference left) (hr : Stands .value right) :
    ReadsStatement layout
      (.mk location [] (.expressionStatement (.mk place [] (.assignment left right "=")))) := by
  obtain ⟨target, printedTarget, -, readsTarget⟩ :=
    (Stands.operand hl.stands).reads layout 0
  obtain ⟨text, printed, -, reads⟩ := hr.reads layout 0
  refine ⟨target ++ " = " ++ text ++ ";", ?_, fun fuel rest enough => ?_⟩
  · simp only [Layout.statementBody, Layout.expression, printedTarget, printed]
    change Except.ok (target ++ " " ++ "=" ++ " " ++ text ++ ";") = _
    simp only [List.append_assoc]
    rfl
  have split : target ++ " = " ++ text ++ ";" ++ rest =
      target ++ (" = " ++ (text ++ .scalar ';' :: rest)) := by
    simp only [List.append_assoc]
    rfl
  rw [split] at enough ⊢
  have assigns : readStatement layout fuel (target ++ (" = " ++ (text ++ .scalar ';' :: rest))) =
      readAssignment layout fuel (target ++ (" = " ++ (text ++ .scalar ';' :: rest))) := by
    obtain ⟨word, more, rfl, isName, stop⟩ := hl.begins printedTarget
    rw [readStatement, List.append_assoc]
    rcases stop with rfl | stop
    · rw [List.nil_append, isName.read (endsValue_equals _).1]
      exact if_pos (.inr rfl)
    · obtain ⟨more, rfl⟩ := List.head?_eq_some_iff.1 stop
      rw [List.cons_append, isName.read (endsName_cons rfl _)]
      exact if_pos (.inl rfl)
  have left_eq : readExpression layout fuel 0
      (target ++ (" = " ++ (text ++ .scalar ';' :: rest))) =
        (left.essence, " = " ++ (text ++ .scalar ';' :: rest)) :=
    readsTarget fuel _ enough (endsValue_equals _)
  have right_eq : readExpression layout fuel 0 (text ++ .scalar ';' :: rest) =
      (right.essence, .scalar ';' :: rest) := by
    refine reads fuel _ ?_ (endsValue_semicolon rest)
    simp only [List.length_append] at enough ⊢
    omega
  rw [assigns, readAssignment, left_eq]
  dsimp only
  rw [List.drop_left, right_eq, Node.essence_mk (by simp), Form.map, Node.essence_mk (by simp)]
  rfl

/-! ## Modules -/

theorem IsStatement.reads (layout : Layout) {statement : Node} (h : IsStatement statement) :
    ReadsStatement layout statement := by
  cases h with
  | importDeclaration one hd hn hs => exact reads_import one hd hn hs
  | exportFrom h hs => exact reads_exportFrom h hs
  | declaration h => exact reads_declaration h
  | exported h => exact reads_exported h
  | assignment hl hr => exact reads_assignment hl hr
  | exportDefault h => exact reads_exportDefault h

theorem IsStatement.comments_eq {statement : Node} (h : IsStatement statement) :
    statement.comments = [] := by
  cases h with
  | declaration h =>
    obtain ⟨⟩ := h
    rfl
  | _ => rfl

/-- The texts of the statements of a module. -/
theorem exists_statements (layout : Layout) {statements : List Node}
    (h : ∀ statement ∈ statements, IsStatement statement) :
    ∃ texts, layout.statements 0 statements = .ok texts ∧
      List.Forall₂ (fun essence text => ∀ fuel rest, (text ++ rest).length < fuel →
        readStatement layout fuel (text ++ rest) = (essence, rest))
        (statements.map Node.essence) texts := by
  induction statements with
  | nil => exact ⟨[], rfl, .nil⟩
  | cons statement statements ih =>
    obtain ⟨first, others⟩ := List.forall_mem_cons.1 h
    obtain ⟨text, printed, reads⟩ := first.reads layout
    obtain ⟨texts, rest, all⟩ := ih others
    refine ⟨text :: texts, ?_, .cons reads all⟩
    rw [Layout.statements, printed, rest, first.comments_eq]
    rfl

/-- Statements in lines of their own are read back one after the other, up to the end of the
text. -/
theorem readStatements_join {essences : List Node} {texts : List Text}
    (h : List.Forall₂ (fun essence text => ∀ fuel rest, (text ++ rest).length < fuel →
      readStatement layout fuel (text ++ rest) = (essence, rest)) essences texts)
    (ne : texts ≠ []) (enough : (Text.join "\n" texts ++ "\n").length < fuel) :
    readStatements layout fuel (Text.join "\n" texts ++ "\n") = essences := by
  induction h generalizing fuel with
  | nil => exact absurd rfl ne
  | @cons essence text essences texts first others ih =>
    obtain ⟨fuel, rfl⟩ := Nat.exists_eq_add_one.2 (Nat.zero_lt_of_lt enough)
    cases texts with
    | nil =>
      cases others
      have more : text ++ ("\n" : Text) ≠ [] :=
        List.append_ne_nil_of_right_ne_nil _ (List.cons_ne_nil _ _)
      rw [Text.join] at enough ⊢
      rw [readStatements, if_neg more, first _ _ enough]
      cases fuel <;> rfl
    | cons text' texts =>
      have split : Text.join "\n" (text :: text' :: texts) ++ ("\n" : Text) =
          text ++ .scalar '\n' :: (Text.join "\n" (text' :: texts) ++ ("\n" : Text)) := by
        rw [Text.join]
        · simp only [List.append_assoc]
          rfl
        · exact List.cons_ne_nil text' texts
      rw [split] at enough ⊢
      have later : (Text.join "\n" (text' :: texts) ++ "\n").length < fuel := by
        simp only [List.length_append, List.length_cons] at enough ⊢
        omega
      rw [readStatements, if_neg (by simp), first _ _ enough]
      exact congrArg (essence :: ·) (ih (by simp) later)

/-- **A module is read back** from its text. -/
theorem IsModule.read (layout : Layout) {module : Node} (h : IsModule module) :
    ∃ text, layout.program module = .ok text ∧ readModule layout text = module.essence := by
  obtain @⟨location, statements, h⟩ := h
  obtain ⟨texts, printed, all⟩ := exists_statements layout h
  have essence : (Node.mk location [] (.program statements)).essence =
      .of (.program (statements.map Node.essence)) := Node.essence_mk nofun
  rw [essence]
  cases texts with
  | nil =>
    obtain rfl : statements = [] := by simpa using all.length_eq
    exact ⟨[], rfl, rfl⟩
  | cons text texts =>
    refine ⟨Text.join "\n" (text :: texts) ++ "\n", ?_, ?_⟩
    · rw [Layout.program, Node.statements, printed]
      rfl
    · rw [readModule, readStatements_join all (by simp) (Nat.lt_succ_self _)]

end

end Printer

open Printer

/-- **The printer is unambiguous** on wrappers: every one has a text, and if two have the same text
then they are alike once each key of an entry is the string of its name. -/
theorem alike_of_program_eq {layout : Layout} {first second : Node} (hf : IsModule first)
    (hs : IsModule second) (same : layout.program first = layout.program second) :
    (∃ text, layout.program first = .ok text) ∧
      first.withNamedKeys.alike second.withNamedKeys := by
  obtain ⟨text, printed, read⟩ := hf.read layout
  obtain ⟨text', printed', read'⟩ := hs.read layout
  obtain rfl : text = text' := Except.ok.inj (printed.symm.trans (same.trans printed'))
  exact ⟨⟨text, printed⟩, Node.alike_of_essence_eq (read.symm.trans read')⟩

/-- A module that exports one property, by a key of a kind. -/
def descriptorModule (key : Node) : Node :=
  .of (.program [.of (.exportNamed
    (some (.of (.variables "var" [.of (.declarator (.identifier "descriptor")
      (some (.of (.object [.of (.property key (.of (.object [])) false)]))))])))
    [] none false)])

theorem isModule_descriptorModule {key : Node} (hk : IsKey "open" key) :
    IsModule (descriptorModule key) := by
  have property : Stands .entry (.of (.property key (.of (.object [])) false)) :=
    .entry hk (.object nofun)
  have name : IsIdentifier "descriptor" (.identifier "descriptor") :=
    .mk ⟨by decide, by decide, by decide⟩
  refine .mk (List.forall_mem_singleton.2 (.exported (.mk (by decide) name ?_)))
  exact .object (List.forall_mem_singleton.2 property)

theorem alike_descriptorModule :
    (descriptorModule (.identifier "open")).alike (descriptorModule (.string "open")) = false ∧
      (descriptorModule (.identifier "open")).withNamedKeys.alike
        (descriptorModule (.string "open")).withNamedKeys := by
  have name : IsIdentifier "open" (.identifier "open") := .mk ⟨by decide, by decide, by decide⟩
  have same : ({} : Layout).program (descriptorModule (.identifier "open")) =
      ({} : Layout).program (descriptorModule (.string "open")) := rfl
  refine ⟨by decide, (alike_of_program_eq ?_ ?_ same).2⟩
  · exact isModule_descriptorModule (.identifier name)
  · exact isModule_descriptorModule (.string .mk)

end ElementWrapper
