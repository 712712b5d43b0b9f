import ElementWrapper.Yaml.Scalar

/-!
The tree of a data file: texts, sequences and mappings with their tags, aliases being replaced by
what they stand for. `Node.ofTokens` reads the one document of a file.
-/

namespace ElementWrapper.Yaml

/-- A node of the tree. -/
inductive Node where
  | scalar (tag : Tag) (text : Text)
  | sequence (tag : Tag) (items : List Node)
  | mapping (tag : Tag) (entries : List (Node × Node))
  /-- An alias of a node that it is part of. -/
  | cycle

namespace Node

/-- The node that stands for nothing. -/
def nothing : Node := .scalar .null []

/-- The state of reading tokens. -/
structure Progress where
  tokens : List Token
  fault : Option Fault
  /-- What the handles of tags stand for. -/
  handles : List (Text × Text)
  /-- The nodes with anchors; one that is still being read has no value. -/
  anchors : List (Text × Option Node) := []

/-- A reader of tokens. -/
abbrev Read := StateT Progress (Except Fault)

/-- The handles that every document has. -/
def standardHandles : List (Text × Text) := [("!", "!"), ("!!", Tag.start)]

/-- The document breaks the rules. -/
def malformed {α : Type} : Read α := throw .malformed

/-- The next token; after the last one comes the fault of the scanner, if there is one. -/
def peek : Read (Option Token) := do
  let p ← get
  match p.tokens, p.fault with
  | token :: _, _ => return some token
  | [], some fault => throw fault
  | [], none => return none

/-- Whether the next token is one of a list. -/
def nextIs (tokens : List Token) : Read Bool := do
  match ← peek with
  | some token => return tokens.contains token
  | none => return false

/-- The next token is passed. -/
def skip : Read Unit := modify fun p => { p with tokens := p.tokens.tail }

/-- The next token is passed if it is a given one. -/
def accept (token : Token) : Read Bool := do
  if ← nextIs [token] then
    skip
    return true
  else return false

/-- The next token must be a given one. -/
def expect (token : Token) : Read Unit := do
  if !(← accept token) then malformed

/-! ## Properties -/

/-- An anchor that stands next. -/
def anchor : Read (Option Text) := do
  match ← peek with
  | some (.anchor name) => skip; return some name
  | _ => return none

/-- The address of a tag that stands next. -/
def tag : Read (Option Text) := do
  match ← peek with
  | some (.tag none address) => skip; return some address
  | some (.tag (some handle) suffix) =>
    skip
    match (← get).handles.lookup handle with
    | some start => return some (start ++ suffix)
    | none => malformed
  | _ => return none

/-- A tag and an anchor in any order, each of which may be missing. -/
def properties : Read (Option Text × Option Text) := do
  match ← anchor with
  | some name => return (← tag, some name)
  | none =>
    let address ← tag
    return (address, ← if address.isSome then anchor else pure none)

/-- The tag of a collection. -/
def collectionTag (usual : Tag) : Option Text → Tag
  | none => usual
  | some address => if address = ("!" : Text) then usual else .ofAddress address

/-- The tag of a text. -/
def scalarTag (text : Text) (plain : Bool) : Option Text → Tag
  | none => if plain then Scalar.resolve text else .text
  | some address => if address = ("!" : Text) then Scalar.resolve text else .ofAddress address

/-! ## Collections -/

/-- Where a node may stand. -/
structure Place where
  /-- A block may begin here. -/
  block : Bool
  /-- The entries of a sequence may begin here without a block of their own. -/
  bareEntries : Bool := false

section

variable (run : Place → Read Node)

/-- A node, or nothing before one of some tokens. -/
def orNothing (place : Place) (ends : List Token) : Read Node := do
  if ← nextIs ends then return nothing else run place

/-- The entries of a block of dashes. -/
def blockEntries : Nat → Read (List Node)
  | 0 => malformed
  | fuel + 1 => do
    if ← accept .dash then
      let item ← orNothing run { block := true } [.dash, .blockEnd]
      return item :: (← blockEntries fuel)
    expect .blockEnd
    return []

/-- Entries with dashes that have no block of their own. -/
def bareEntries : Nat → Read (List Node)
  | 0 => malformed
  | fuel + 1 => do
    if ← accept .dash then
      let item ← orNothing run { block := true } [.dash, .key, .value, .blockEnd]
      return item :: (← bareEntries fuel)
    return []

/-- The entries of a block of keys. -/
def blockPairs : Nat → Read (List (Node × Node))
  | 0 => malformed
  | fuel + 1 => do
    let place : Place := { block := true, bareEntries := true }
    let ends : List Token := [.key, .value, .blockEnd]
    if ← accept .key then
      let key ← orNothing run place ends
      let value ← if ← accept .value then orNothing run place ends else pure nothing
      return (key, value) :: (← blockPairs fuel)
    expect .blockEnd
    return []

/-- The value of a key in brackets. -/
def flowValue (ends : List Token) : Read Node := do
  if ← accept .value then orNothing run { block := false } (.comma :: ends) else return nothing

/-- The key and the value of an entry after its mark. -/
def flowPair (closing : Token) : Read (Node × Node) := do
  let key ← orNothing run { block := false } [.value, .comma, closing]
  return (key, ← flowValue run [closing])

/-- The entries of a sequence in brackets. -/
def flowItems : Nat → (first : Bool) → Read (List Node)
  | 0, _ => malformed
  | fuel + 1, first => do
    if ← accept .flowSequenceEnd then return []
    if !first then expect .comma
    if ← accept .key then
      let pair ← flowPair run .flowSequenceEnd
      return .mapping .mapping [pair] :: (← flowItems fuel false)
    if ← accept .flowSequenceEnd then return []
    let item ← run { block := false }
    return item :: (← flowItems fuel false)

/-- The entries of a mapping in braces. -/
def flowPairs : Nat → (first : Bool) → Read (List (Node × Node))
  | 0, _ => malformed
  | fuel + 1, first => do
    if ← accept .flowMappingEnd then return []
    if !first then expect .comma
    if ← accept .key then
      let pair ← flowPair run .flowMappingEnd
      return pair :: (← flowPairs fuel false)
    if ← accept .flowMappingEnd then return []
    let key ← run { block := false }
    return (key, nothing) :: (← flowPairs fuel false)

/-- What stands after the properties of a node. -/
def content (place : Place) (address : Option Text) (marked : Bool) : Read Node := do
  let fuel := (← get).tokens.length + 1
  let sequence : List Node → Node := .sequence (collectionTag .sequence address)
  let mapping : List (Node × Node) → Node := .mapping (collectionTag .mapping address)
  match ← peek with
  | some .dash => if place.bareEntries then return sequence (← bareEntries run fuel)
  | some (.scalar text plain) =>
    skip
    return .scalar (scalarTag text plain address) text
  | some .flowSequence =>
    skip
    return sequence (← flowItems run fuel true)
  | some .flowMapping =>
    skip
    return mapping (← flowPairs run fuel true)
  | some .blockSequence =>
    if place.block then
      skip
      return sequence (← blockEntries run fuel)
  | some .blockMapping =>
    if place.block then
      skip
      return mapping (← blockPairs run fuel)
  | _ => pure ()
  if !marked then malformed
  return .scalar (scalarTag [] true address) []

/-- The node that an alias stands for. -/
def reference (name : Text) : Read Node := do
  match (← get).anchors.lookup name with
  | some (some node) => return node
  | some none => return .cycle
  | none => malformed

/-- A node with its properties. -/
def node (place : Place) : Read Node := do
  if let some (.alias name) ← peek then
    skip
    return ← reference name
  let (address, anchor) ← properties
  match anchor with
  | none => content run place address address.isSome
  | some name =>
    if ((← get).anchors.lookup name).isSome then malformed
    modify fun p => { p with anchors := (name, none) :: p.anchors }
    let node ← content run place address true
    modify fun p => { p with anchors := (name, some node) :: p.anchors }
    return node

end

/-- A node, within a bound on how deep nodes lie in each other. -/
def nodeWithin : Nat → Place → Read Node
  | 0, _ => malformed
  | depth + 1, place => node (nodeWithin depth) place

/-! ## Documents -/

/-- The lines before a document, given whether one of them names the version. -/
def directives : Nat → (versioned : Bool) → (handles : List (Text × Text)) →
    Read (List (Text × Text))
  | 0, _, _ => malformed
  | fuel + 1, versioned, handles => do
    match ← peek with
    | some (.version major) =>
      if versioned || major ≠ 1 then malformed
      skip
      directives fuel true handles
    | some (.handle name address) =>
      if (handles.lookup name).isSome then malformed
      skip
      directives fuel versioned ((name, address) :: handles)
    | some .directive =>
      skip
      directives fuel versioned handles
    | _ => return handles

/-- Marks for the end of a document. -/
def documentEnds : Nat → Read Unit
  | 0 => return
  | fuel + 1 => do
    if ← accept .documentEnd then documentEnds fuel

/-- Whether a document begins with lines or a mark of its own. -/
def isExplicit : Option Token → Bool
  | some (.version _) | some (.handle ..) | some .directive | some .documentStart => true
  | _ => false

/-- The document of a file; an empty file holds nothing. -/
def document : Read Node := do
  let fuel := (← get).tokens.length + 1
  let first ← peek
  if first.isNone then return nothing
  if isExplicit first then
    let handles ← directives fuel false []
    modify fun p => { p with handles := handles ++ standardHandles }
    expect .documentStart
  let next ← peek
  let node ← if isExplicit first && (isExplicit next || next = some .documentEnd || next.isNone)
    then pure nothing else nodeWithin fuel { block := true }
  documentEnds fuel
  if (← peek).isSome then malformed
  return node

/-- The tree of the one document of a file. -/
def ofTokens (tokens : List Token) (fault : Option Fault) : Except Fault Node := do
  let (node, _) ← document.run { tokens, fault, handles := standardHandles }
  return node

end Node

end ElementWrapper.Yaml
