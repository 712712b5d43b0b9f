import ElementWrapper.Proofs.Script.Arguments

/-!
The text of a module in pieces. A module is printed as marks of the printer, texts that are kept as
they are, ends of lines, and the beginnings of the lines of statements and entries: only these have
comments, on lines of their own ahead of them. `Layout.full` is the text of pieces with the comments
and `Layout.bare` the text without them.

A node and the node with no comments anywhere have the same pieces (`Splits`). How pieces are put
together is a small grammar (`Printed`), and what holds of all printed texts is shown by induction
on it.
-/

namespace ElementWrapper

/-- A piece of the text of a module. -/
inductive Piece where
  /-- A mark or a word of the printer. -/
  | code (text : Text)
  /-- A text that is printed as it is: a name, a spelling or a construct that may have several
  lines. -/
  | kept (text : Text)
  /-- The end of a line. -/
  | feed
  /-- The beginning of the line of a statement or of an entry, with its comments ahead of it. -/
  | line (level : Int) (node : Node)

/-- The comments ahead of a line; ahead of any other piece there are none. -/
def Piece.comments : Piece → List Comment
  | line _ node => node.comments
  | _ => []

namespace Node

/-- The node with no comments anywhere. -/
def uncommented (node : Node) : Node :=
  node.fold fun location _ form => .mk location [] (form.map (·.2))

theorem uncommented_mk (location : Option Location) (comments : List Comment) (form : Form Node) :
    (mk location comments form).uncommented = mk location [] (form.map uncommented) := by
  rw [uncommented, fold_mk, Form.map_map]
  rfl

theorem form_uncommented (node : Node) : node.uncommented.form = node.form.map uncommented := by
  obtain ⟨location, comments, form⟩ := node
  rw [uncommented_mk]
  rfl

theorem comments_uncommented (node : Node) : node.uncommented.comments = [] := by
  obtain ⟨location, comments, form⟩ := node
  rw [uncommented_mk]
  rfl

theorem name_uncommented (node : Node) : node.uncommented.name = node.name := by
  obtain ⟨location, comments, form⟩ := node
  rw [uncommented_mk]
  cases form <;> rfl

theorem stringValue?_uncommented (node : Node) :
    node.uncommented.stringValue? = node.stringValue? := by
  obtain ⟨location, comments, form⟩ := node
  rw [uncommented_mk]
  cases form <;> rfl

theorem statements_uncommented (node : Node) :
    node.uncommented.statements = node.statements.map uncommented := by
  obtain ⟨location, comments, form⟩ := node
  rw [uncommented_mk]
  cases form <;> rfl

end Node

/-! ## Lists in the text of a module -/

namespace Layout

section

variable (layout : Layout) (level : Int)

/-- The text of the key of an entry. -/
def key (computed : Bool) (node : Node) : Except Unprintable Text :=
  match computed, node.stringValue? with
  | true, _ => bracketed <$> layout.expression level node
  | false, some name =>
    if Literal.isPlainName name then .ok name else layout.expression level node
  | false, none => layout.expression level node

/-- The text of an entry of an object, without its comments. -/
def entry (node : Node) : Except Unprintable Text :=
  match node.form with
  | .property key value computed => do
    return (← layout.key level computed key) ++ ": " ++ (← layout.expression level value)
  | _ => layout.expression level node

/-- The entries of an object are printed one by one, each after its comments. -/
theorem entries_eq (nodes : List Node) : layout.entries level nodes =
    nodes.mapM fun node => layout.commented level node.comments <$> layout.entry level node := by
  induction nodes with
  | nil => rfl
  | cons node nodes ih =>
    obtain ⟨location, comments, form⟩ := node
    rw [List.mapM_cons, ← ih]
    cases form with
    | property key value computed =>
      simp only [entries, entry, Node.form, Node.comments, bind_map_left, bind_assoc, pure_bind]
      cases computed with
      | true => simp only [Layout.key, bind_map_left]
      | false =>
        cases known : key.stringValue? with
        | none => simp only [Layout.key, known]
        | some name =>
          simp only [Layout.key, known]
          split <;> rfl
    | _ => simp only [entries, entry, Node.form, Node.comments, bind_map_left]

theorem statements_eq (nodes : List Node) : layout.statements level nodes =
    nodes.mapM fun node =>
      layout.commented level node.comments <$> layout.statementBody level node := by
  induction nodes with
  | nil => rfl
  | cons node nodes ih =>
    rw [List.mapM_cons, ← ih, statements, bind_map_left]

/-- Lines in braces. -/
def enclose (mark : Text) (lines : List Text) : Text :=
  if lines.isEmpty then openBrace ++ closeBrace
  else openBrace ++ "\n" ++ Text.join (mark ++ "\n") lines ++ "\n" ++ layout.margin level ++
    closeBrace

theorem statementBody_block (location : Option Location) (comments : List Comment)
    (body : List Node) : layout.statementBody level (.mk location comments (.block body)) =
      layout.enclose level [] <$> layout.statements (level + 1) body := by
  cases body with
  | nil => rfl
  | cons first rest =>
    rw [statementBody, statements_eq, List.mapM_cons, map_bind]
    simp only [map_bind, bind_assoc, pure_bind, map_pure]
    rfl

theorem expressions_eq (nodes : List Node) (count : Nat) : layout.expressions level count nodes =
    (nodes.take count).mapM (layout.expression level) := by
  induction nodes generalizing count with
  | nil => simp [expressions]; rfl
  | cons node nodes ih =>
    cases count with
    | zero => rfl
    | succ count => rw [List.take_succ_cons, List.mapM_cons, ← ih, expressions]

end

end Layout

/-! ## Pieces of nodes -/

namespace Piece

open Layout (openBrace closeBrace)

/-- Lists of pieces with others between them. -/
def joined (separator : List Piece) : List (List Piece) → List Piece
  | [] => []
  | [pieces] => pieces
  | pieces :: rest => pieces ++ separator ++ joined separator rest

/-- A name under which another one is known. -/
def renamed (name other : Text) : List Piece :=
  if name = other then [kept other] else [kept name] ++ [code " as "] ++ [kept other]

/-- Items in braces on one line. -/
def braced (items : List (List Piece)) : List Piece :=
  [code openBrace] ++ ([code " "] ++ joined [code ", "] items ++ [code " "]) ++ [code closeBrace]

/-- The texts of a template with the pieces of its substitutions between them. -/
def woven : List Node → List (List Piece) → List Piece
  | [], _ => []
  | quasi :: quasis, [] => [kept quasi.form.quasiSource] ++ woven quasis []
  | quasi :: quasis, pieces :: rest =>
    [kept quasi.form.quasiSource] ++ ([code ("$" ++ openBrace)] ++ pieces ++ [code closeBrace]) ++
      woven quasis rest

/-- What an import declaration binds, before the named bindings. -/
def importHeads (specifiers : List Node) : List (List Piece) :=
  let defaults := specifiers.filterMap fun specifier => match specifier.form with
    | .importDefault binding => some [kept binding.name]
    | _ => none
  let namespaces := specifiers.filterMap fun specifier => match specifier.form with
    | .importNamespace binding => some ([code "* as "] ++ [kept binding.name])
    | _ => none
  defaults.reverse ++ namespaces

/-- The named bindings of an import declaration. -/
def importNames (specifiers : List Node) : List (List Piece) :=
  specifiers.filterMap fun specifier => match specifier.form with
    | .importSpecifier binding imported => some (renamed imported.name binding.name)
    | _ => none

/-- What an import declaration binds, from the defaults to the named bindings. -/
def importParts (specifiers : List Node) : List (List Piece) :=
  let names := importNames specifiers
  importHeads specifiers ++ if names.isEmpty then [] else [braced names]

/-- The beginning of an import declaration, up to its source. -/
def importClause (specifiers : List Node) : List Piece :=
  let parts := importParts specifiers
  if parts.isEmpty then [code "import "]
  else [code "import "] ++ joined [code ", "] parts ++ [code " from "]

/-- The clause of an export declaration. -/
def exportClause (specifiers : List Node) : List Piece :=
  if specifiers.isEmpty then [code openBrace] ++ [] ++ [code closeBrace]
  else braced <| specifiers.map fun specifier => match specifier.form with
    | .exportSpecifier binding exported => renamed binding.name exported.name
    | _ => []

/-- Lines of pieces with the nodes that begin in them. -/
def lines (level : Int) (separator : List Piece) (items : List (Node × List Piece)) : List Piece :=
  joined (separator ++ [feed]) (items.map fun item => [line level item.1] ++ item.2) ++ [feed]

/-- Nodes in braces, each on a line of its own. -/
def enclosed (layout : Layout) (level : Int) (separator : List Piece)
    (items : List (Node × List Piece)) : List Piece :=
  if items.isEmpty then [code openBrace] ++ [] ++ [code closeBrace]
  else [code openBrace] ++
    ([feed] ++ (lines (level + 1) separator items ++ [code (layout.margin level)])) ++
      [code closeBrace]

end Piece

section

variable (layout : Layout)

/-- The pieces of the key of an entry, from those of the key as an expression. -/
def Node.keyPieces (computed : Bool) (node : Node) (pieces : List Piece) : List Piece :=
  match computed, node.stringValue? with
  | true, _ => [.code "["] ++ pieces ++ [.code "]"]
  | false, some name => if Literal.isPlainName name then [.code name] else pieces
  | false, none => pieces

/-- The pieces of an expression that begins at a depth, or of an entry, from those of its
subtrees. -/
def Form.pieces (level : Int) : Form (Node × (Int → List Piece)) → List Piece
  | .identifier name => [.kept name]
  | .string value none => [.code (Literal.quote value)]
  | .string _ (some spelling) => [.kept spelling]
  | .number spelling => [.kept spelling]
  | .boolean value => [.code (if value then "true" else "false")]
  | .null => [.code "null"]
  | .template quasis substitutions =>
    [.code "`"] ++ Piece.woven (quasis.map (·.1)) (substitutions.map (·.2 level)) ++ [.code "`"]
  | .property key value computed =>
    key.1.keyPieces computed (key.2 level) ++ [.code ": "] ++ value.2 level
  | .object properties => Piece.enclosed layout level [.code ","] <|
    properties.map fun entry => (entry.1, entry.2 (level + 1))
  | .member target name true => target.2 level ++ ([.code "["] ++ name.2 level ++ [.code "]"])
  | .member target name false => target.2 level ++ [.code "."] ++ name.2 level
  | .call callee arguments => callee.2 level ++
    ([.code "("] ++ Piece.joined [.code ", "] (arguments.map (·.2 level)) ++ [.code ")"])
  | .assignment left right operator =>
    left.2 level ++ ([.code " "] ++ [.kept operator] ++ [.code " "]) ++ right.2 level
  | .raw _ text _ => [.kept text]
  | _ => []

/-- The pieces of a node in an expression that begins at a depth, or of an entry. -/
def Node.pieces (node : Node) : Int → List Piece :=
  node.fold fun _ _ form level => form.pieces layout level

theorem Node.pieces_mk (location : Option Location) (comments : List Comment) (form : Form Node)
    (level : Int) : (mk location comments form).pieces layout level =
      (form.map fun node => (node, node.pieces layout)).pieces layout level := by
  rw [pieces, fold_mk]
  rfl

/-- The pieces of a declarator of a variable. -/
def Node.declaratorPieces (level : Int) (node : Node) : List Piece :=
  match node.form with
  | .declarator id none => id.pieces layout level
  | .declarator id (some init) =>
    id.pieces layout level ++ [.code " = "] ++ init.pieces layout level
  | _ => node.pieces layout level

/-- The pieces of a statement, from those of the statements in it. -/
def Form.statementPieces (level : Int) : Form (Node × (Int → List Piece)) → List Piece
  | .importDeclaration specifiers source _ =>
    Piece.importClause (specifiers.map (·.1)) ++ source.1.pieces layout 0 ++ [.code ";"]
  | .exportNamed (some declaration) _ _ _ => [.code "export "] ++ declaration.2 level
  | .exportNamed none specifiers none _ =>
    [.code "export "] ++ Piece.exportClause (specifiers.map (·.1)) ++ [.code ";"]
  | .exportNamed none specifiers (some source) _ =>
    [.code "export "] ++ Piece.exportClause (specifiers.map (·.1)) ++ [.code " from "] ++
      source.1.pieces layout level ++ [.code ";"]
  | .exportDefault declaration =>
    [.code "export default "] ++ declaration.1.pieces layout level ++ [.code ";"]
  | .variables kind declarations => [.kept kind] ++ [.code " "] ++ Piece.joined [.code ", "]
      (declarations.map fun node => node.1.declaratorPieces layout level) ++ [.code ";"]
  | .expressionStatement expression => expression.1.pieces layout level ++ [.code ";"]
  | .returnStatement none => [.code "return;"]
  | .returnStatement (some argument) =>
    [.code "return "] ++ argument.1.pieces layout level ++ [.code ";"]
  | .block body => Piece.enclosed layout level [] <|
    body.map fun statement => (statement.1, statement.2 (level + 1))
  | .raw _ text _ => [.kept text]
  | _ => []

/-- The pieces of a statement, without the beginning of its line. -/
def Node.statementPieces (node : Node) : Int → List Piece :=
  node.fold fun _ _ form level => form.statementPieces layout level

theorem Node.statementPieces_mk (location : Option Location) (comments : List Comment)
    (form : Form Node) (level : Int) : (mk location comments form).statementPieces layout level =
      (form.map fun node => (node, node.statementPieces layout)).statementPieces layout level := by
  rw [statementPieces, fold_mk]
  rfl

/-- The pieces of a whole module. -/
def Node.modulePieces (node : Node) : List Piece :=
  if node.statements.isEmpty then []
  else Piece.lines 0 [] <|
    node.statements.map fun statement => (statement, statement.statementPieces layout 0)

end

/-! ## Texts of pieces -/

namespace Layout

variable (layout : Layout)

/-- Comments, each on lines of its own. -/
def commentLines (level : Int) (comments : List Comment) : Text :=
  comments.flatMap fun comment => layout.comment level comment ++ "\n"

theorem commented_eq (level : Int) (comments : List Comment) (code : Text) :
    layout.commented level comments code =
      layout.commentLines level comments ++ layout.margin level ++ code := by
  induction comments with
  | nil => rfl
  | cons comment comments ih =>
    rw [Script.commented_cons, ih, commentLines, commentLines, List.flatMap_cons]
    simp only [List.append_assoc]

/-- The text of pieces, if comments are written in a given way. -/
def text (write : Int → List Comment → Text) (pieces : List Piece) : Text :=
  pieces.flatMap fun
    | .code text | .kept text => text
    | .feed => "\n"
    | .line level node => write level node.comments ++ layout.margin level

/-- The text of pieces with the comments. -/
abbrev full : List Piece → Text := layout.text layout.commentLines

/-- The text of pieces without the comments. -/
abbrev bare : List Piece → Text := layout.text fun _ _ => []

section

variable (write : Int → List Comment → Text)

@[simp] theorem text_nil : layout.text write [] = [] := rfl

@[simp] theorem text_append (pieces more : List Piece) :
    layout.text write (pieces ++ more) = layout.text write pieces ++ layout.text write more :=
  List.flatMap_append

@[simp] theorem text_code (text : Text) (pieces : List Piece) :
    layout.text write (.code text :: pieces) = text ++ layout.text write pieces := rfl

@[simp] theorem text_kept (text : Text) (pieces : List Piece) :
    layout.text write (.kept text :: pieces) = text ++ layout.text write pieces := rfl

@[simp] theorem text_feed (pieces : List Piece) :
    layout.text write (.feed :: pieces) = "\n" ++ layout.text write pieces := rfl

@[simp] theorem text_line (level : Int) (node : Node) (pieces : List Piece) :
    layout.text write (.line level node :: pieces) =
      write level node.comments ++ layout.margin level ++ layout.text write pieces := rfl

/-- The text of pieces with a separator between them is their texts with its text between them. -/
theorem text_joined (separator : List Piece) (items : List (List Piece)) :
    layout.text write (Piece.joined separator items) =
      Text.join (layout.text write separator) (items.map (layout.text write)) := by
  induction items with
  | nil => rfl
  | cons pieces rest ih =>
    cases rest with
    | nil => rfl
    | cons next rest =>
      rw [Piece.joined, text_append, text_append, ih]
      · rfl
      · simp

theorem text_renamed (name other : Text) :
    layout.text write (Piece.renamed name other) = renamed name other := by
  rw [Piece.renamed, renamed]
  split <;> simp

theorem text_braced (items : List (List Piece)) :
    layout.text write (Piece.braced items) = braced (items.map (layout.text write)) := by
  simp [Piece.braced, braced, text_joined]

theorem text_woven (quasis : List Node) (substitutions : List (List Piece)) :
    layout.text write (Piece.woven quasis substitutions) =
      interleave quasis (substitutions.map (layout.text write)) := by
  induction quasis generalizing substitutions with
  | nil => rfl
  | cons quasi quasis ih =>
    cases substitutions with
    | nil => simp [Piece.woven, interleave, ih]
    | cons pieces rest => simp [Piece.woven, interleave, ih]

theorem woven_take (quasis : List Node) (substitutions : List (List Piece)) :
    Piece.woven quasis (substitutions.take quasis.length) = Piece.woven quasis substitutions := by
  induction quasis generalizing substitutions with
  | nil => rfl
  | cons quasi quasis ih =>
    cases substitutions with
    | nil => rfl
    | cons pieces rest => simp only [List.length_cons, List.take_succ_cons, Piece.woven, ih]

theorem interleave_uncommented (quasis : List Node) (codes : List Text) :
    interleave (quasis.map Node.uncommented) codes = interleave quasis codes := by
  induction quasis generalizing codes with
  | nil => rfl
  | cons quasi quasis ih =>
    have same : quasi.uncommented.form.quasiSource = quasi.form.quasiSource := by
      rw [Node.form_uncommented]
      cases quasi.form <;> rfl
    cases codes <;> simp only [List.map_cons, interleave, same, ih]

theorem map_importHeads (specifiers : List Node) :
    (Piece.importHeads specifiers).map (layout.text write) = importHeads specifiers := by
  simp only [Piece.importHeads, importHeads, List.map_append, List.map_reverse, List.map_filterMap]
  congr
  · funext specifier
    cases specifier.form <;> simp
  · funext specifier
    cases specifier.form <;> simp

theorem map_importNames (specifiers : List Node) :
    (Piece.importNames specifiers).map (layout.text write) = importNames specifiers := by
  rw [Piece.importNames, importNames, List.map_filterMap]
  congr
  funext specifier
  cases specifier.form <;> simp [text_renamed]

/-- The pieces of an import clause have the text that the printer writes. -/
theorem text_importClause (specifiers : List Node) (source : Text) :
    layout.text write (Piece.importClause specifiers) ++ source ++ ";" =
      importDeclaration specifiers source := by
  have names := layout.map_importNames write specifiers
  have parts : (Piece.importParts specifiers).map (layout.text write) = importHeads specifiers ++
      if (importNames specifiers).isEmpty then [] else [braced (importNames specifiers)] := by
    rw [Piece.importParts, List.map_append, map_importHeads, ← names, List.isEmpty_map]
    split
    · rfl
    · rw [List.map_singleton, text_braced]
  rw [Piece.importClause, importDeclaration, ← parts, List.isEmpty_map]
  split <;> simp [text_joined]

/-- The pieces of an export clause have the text that the printer writes. -/
theorem text_exportClause (specifiers : List Node) :
    layout.text write (Piece.exportClause specifiers) = exportClause specifiers := by
  rw [Piece.exportClause, exportClause]
  split
  · simp
  · rw [text_braced, List.map_map]
    congr
    funext specifier
    rw [Function.comp_apply]
    cases specifier.form with
    | exportSpecifier binding exported => exact layout.text_renamed write _ _
    | _ => rfl

theorem importHeads_uncommented (specifiers : List Node) :
    importHeads (specifiers.map Node.uncommented) = importHeads specifiers := by
  simp only [importHeads, List.filterMap_map, Function.comp_def, Node.form_uncommented]
  congr
  · funext specifier
    cases specifier.form <;> simp [Form.map, Node.name_uncommented]
  · funext specifier
    cases specifier.form <;> simp [Form.map, Node.name_uncommented]

theorem importNames_uncommented (specifiers : List Node) :
    importNames (specifiers.map Node.uncommented) = importNames specifiers := by
  simp only [importNames, List.filterMap_map, Function.comp_def, Node.form_uncommented]
  congr
  funext specifier
  cases specifier.form <;> simp [Form.map, Node.name_uncommented]

theorem importDeclaration_uncommented (specifiers : List Node) (source : Text) :
    importDeclaration (specifiers.map Node.uncommented) source =
      importDeclaration specifiers source := by
  simp only [importDeclaration, importHeads_uncommented, importNames_uncommented]

theorem exportClause_uncommented (specifiers : List Node) :
    exportClause (specifiers.map Node.uncommented) = exportClause specifiers := by
  simp only [exportClause, List.isEmpty_map, List.map_map, Function.comp_def,
    Node.form_uncommented]
  congr
  funext specifier
  cases specifier.form <;> simp [Form.map, Node.name_uncommented]

theorem text_lines (level : Int) (separator : List Piece) (items : List (Node × List Piece)) :
    layout.text write (Piece.lines level separator items) =
      Text.join (layout.text write separator ++ "\n") (items.map fun item => write level
        item.1.comments ++ layout.margin level ++ layout.text write item.2) ++ "\n" := by
  simp [Piece.lines, text_joined, Function.comp_def]

theorem text_enclosed (level : Int) (separator : List Piece) (items : List (Node × List Piece)) :
    layout.text write (Piece.enclosed layout level separator items) =
      layout.enclose level (layout.text write separator) (items.map fun item =>
        write (level + 1) item.1.comments ++ layout.margin (level + 1) ++
          layout.text write item.2) := by
  rw [Piece.enclosed, enclose, List.isEmpty_map]
  split <;> simp [text_lines]

end

end Layout

end ElementWrapper
