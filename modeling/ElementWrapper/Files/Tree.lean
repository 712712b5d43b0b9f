import ElementWrapper.Files.Access

/-!
File trees. A tree keeps a list of entries, one for each place that holds a file or a directory; the
root is a directory that needs no entry. `get?` is the view of a tree: every entry stands in a
directory (`get?_eq_directory`), and `get?_put` says what a change of one place changes.
-/

namespace ElementWrapper

/-- A file or a directory. -/
inductive Entry where
  | file (bytes : List UInt8)
  | directory
  deriving DecidableEq

/-- The kind of an entry. -/
def Entry.kind : Entry → FileKind
  | file _ => .file
  | directory => .directory

/-- A place in a tree, given by the names that lead to it from the root. -/
abbrev Place := List Text

/-- The entry at a place; the root is a directory. -/
def Entry.at? (entries : List (Place × Entry)) (place : Place) : Option Entry :=
  if place = [] then some directory else entries.lookup place

/-- Files and directories below a root. -/
structure FileTree where
  entries : List (Place × Entry) := []
  /-- No place has two entries, and the root has none. -/
  distinct : ([] :: entries.map (·.1)).Nodup := by simp
  /-- Every entry stands in a directory. -/
  closed : ∀ place name, (Entry.at? entries (place ++ [name])).isSome →
    Entry.at? entries place = some .directory := by simp [Entry.at?]

namespace FileTree

/-- The tree without files. -/
def empty : FileTree := {}

/-- What stands at a place. -/
def get? (tree : FileTree) (place : Place) : Option Entry := Entry.at? tree.entries place

theorem get?_root (tree : FileTree) : tree.get? [] = some .directory := by simp [get?, Entry.at?]

/-- What holds an entry is a directory. -/
theorem get?_eq_directory {tree : FileTree} {place : Place} {name : Text}
    (h : (tree.get? (place ++ [name])).isSome) : tree.get? place = some .directory :=
  tree.closed place name h

/-- The entries with a new one at a place. -/
def replaced (entries : List (Place × Entry)) (place : Place) (entry : Entry) :
    List (Place × Entry) :=
  (place, entry) :: entries.filter (·.1 ≠ place)

theorem lookup_filter_ne {place other : Place} (h : other ≠ place)
    (entries : List (Place × Entry)) :
    (entries.filter (·.1 ≠ place)).lookup other = entries.lookup other := by
  induction entries with
  | nil => rfl
  | cons first rest ih =>
    obtain ⟨key, entry⟩ := first
    have hb : (other == place) = false := by simpa using h
    by_cases hk : key = place
    · subst hk
      simpa [List.lookup_cons, hb] using ih
    · by_cases ho : other = key <;> simp_all [List.lookup_cons]

theorem at?_replaced {place : Place} (hplace : place ≠ []) (entries : List (Place × Entry))
    (entry : Entry) (other : Place) :
    Entry.at? (replaced entries place entry) other =
      if other = place then some entry else Entry.at? entries other := by
  by_cases h : other = place
  · simp [Entry.at?, replaced, h, hplace]
  · have hb : (other == place) = false := by simpa using h
    simp only [Entry.at?, replaced, List.lookup_cons, hb, h, if_false]
    rw [lookup_filter_ne h]

/-- The tree with a new entry in a directory. A directory gives way to no file. -/
def put (tree : FileTree) (place : Place) (entry : Entry) (hplace : place ≠ [])
    (hparent : tree.get? place.dropLast = some .directory)
    (hkind : entry = .directory ∨ tree.get? place ≠ some .directory) : FileTree where
  entries := replaced tree.entries place entry
  distinct := by
    have h := tree.distinct
    simp only [List.nodup_cons, List.mem_map] at h
    simp only [replaced, List.map_cons, List.nodup_cons, List.mem_cons, List.mem_map,
      List.mem_filter]
    refine ⟨?_, ?_, ?_⟩
    · rintro (h' | ⟨x, ⟨hx, _⟩, hx'⟩)
      · exact hplace h'.symm
      · exact h.1 ⟨x, hx, hx'⟩
    · rintro ⟨x, ⟨_, hx⟩, rfl⟩
      simp at hx
    · exact List.Nodup.sublist ((List.filter_sublist (l := tree.entries)).map _) h.2
  closed := by
    intro parent name h
    rw [at?_replaced hplace] at h ⊢
    have hne : parent ≠ parent ++ [name] := by simp
    by_cases hchild : parent ++ [name] = place
    · subst hchild
      rw [if_neg hne]
      simpa [get?] using hparent
    · rw [if_neg hchild] at h
      have hold := tree.closed parent name h
      by_cases hp : parent = place
      · subst hp
        rcases hkind with rfl | hkind
        · simp
        · exact absurd hold hkind
      · rw [if_neg hp]
        exact hold

theorem get?_put {tree : FileTree} {place : Place} {entry : Entry} {hplace hparent hkind}
    (other : Place) :
    (tree.put place entry hplace hparent hkind).get? other =
      if other = place then some entry else tree.get? other :=
  at?_replaced hplace tree.entries entry other

/-- The place that a step leads to from a directory. -/
def next (place : Place) (step : Text) : Place :=
  if step = Path.up then place.dropLast
  else if step = Path.here then place
  else place ++ [step]

/-- The place that steps lead to from another one. Every step is taken from a directory; the place
at the end may be empty. -/
def follow (tree : FileTree) : Place → List Text → Except FileFault Place
  | place, [] => .ok place
  | place, step :: rest =>
    match tree.get? place with
    | some .directory => follow tree (next place step) rest
    | some (.file _) => .error .notDirectory
    | none => .error .missing

/-- The bytes of the file at a place. -/
def read (tree : FileTree) (place : Place) : Except FileFault (List UInt8) :=
  match tree.get? place with
  | some (.file bytes) => .ok bytes
  | some .directory => .error .isDirectory
  | none => .error .missing

/-- The tree with bytes in the file at a place. -/
def write (tree : FileTree) (place : Place) (bytes : List UInt8) : Except FileFault FileTree :=
  if hkind : tree.get? place = some .directory then .error .isDirectory
  else if hparent : tree.get? place.dropLast = some .directory then
    .ok (tree.put place (.file bytes) (fun h => hkind (h ▸ tree.get?_root)) hparent (.inr hkind))
  else .error .missing

/-- The tree with a directory at a place that was empty. -/
def makeDirectory (tree : FileTree) (place : Place) : Except FileFault FileTree :=
  if hplace : place = [] ∨ (tree.get? place).isSome then .error .present
  else if hparent : tree.get? place.dropLast = some .directory then
    .ok (tree.put place .directory (fun h => hplace (.inl h)) hparent (.inl rfl))
  else .error .missing

/-- The ways to the files below a directory through directories whose names pass a test. -/
def filesBelow (tree : FileTree) (enters : Text → Bool) (directory : Place) : List Place :=
  tree.entries.filterMap fun (place, entry) =>
    let way := place.drop directory.length
    if entry.kind = .file ∧ directory.isPrefixOf place ∧ way.dropLast.all enters then some way
    else none

end FileTree

end ElementWrapper
