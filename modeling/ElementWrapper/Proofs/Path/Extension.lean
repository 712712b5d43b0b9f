import ElementWrapper.Proofs.Path.Containment
import ElementWrapper.Proofs.Text.Trimming

/-!
Another extension for the last name of a path. A path is taken apart at its last separator
(`base_append`, `directory_append`), and a name at its last dot (`stem_append`); a name with another
extension is still a name (`isName_stem`).

For a relative specifier this commutes with its resolution (`normalize_relativeWithExtension`): the
specifier is resolved name by name (`components_join`), and only the last of its names is another
one. It does not commute if the specifier leads to a place right below the root, since the slash of
the root is taken for a name in front of another slash.
-/

namespace ElementWrapper

namespace Text

variable {separator : CodePoint}

theorem splitOn_ne_nil (text : Text) : splitOn separator text ≠ [] := by
  cases text with
  | nil => exact List.cons_ne_nil _ _
  | cons c text =>
    rw [splitOn]
    split
    · exact List.cons_ne_nil _ _
    · split <;> exact List.cons_ne_nil _ _

/-- A separator splits a text in two, and each half is split on its own. -/
theorem splitOn_append_separator (first rest : Text) :
    splitOn separator (first ++ separator :: rest) =
      splitOn separator first ++ splitOn separator rest := by
  induction first with
  | nil => simp [splitOn]
  | cons c first ih =>
    rw [List.cons_append, splitOn, splitOn, ih]
    split
    · rfl
    · obtain ⟨piece, pieces, eq⟩ := List.exists_cons_of_ne_nil (splitOn_ne_nil first)
      rw [eq]
      rfl

/-- The last piece stands behind the last separator. -/
theorem join_concat {pieces : List Text} (some : pieces ≠ []) (last : Text) :
    join [separator] (pieces ++ [last]) = join [separator] pieces ++ separator :: last := by
  induction pieces with
  | nil => contradiction
  | cons piece pieces ih =>
    cases pieces with
    | nil => simp [join]
    | cons next pieces =>
      rw [List.cons_append, join, join, ih (List.cons_ne_nil next pieces)]
      · simp
      · exact List.cons_ne_nil next pieces
      · simp

/-- A text with a code point in it, taken apart at the last place where that stands. -/
theorem exists_last {c : CodePoint} {text : Text} (mem : c ∈ text) :
    ∃ before after, text = before ++ c :: after ∧ c ∉ after := by
  obtain ⟨after, before, eq, free⟩ := List.eq_append_cons_of_mem (List.mem_reverse.2 mem)
  refine ⟨before.reverse, after.reverse, ?_, fun there => free (List.mem_reverse.1 there)⟩
  rw [← List.reverse_reverse text, eq]
  simp

/-- What stands after the last code point that fails a test. -/
theorem takeWhile_reverse_append {test : CodePoint → Bool} {c : CodePoint} {after : Text}
    (pass : ∀ d ∈ after, test d) (stop : test c = false) (before : Text) :
    (before ++ c :: after).reverse.takeWhile test = after.reverse := by
  rw [List.reverse_append, List.reverse_cons, List.append_assoc, List.takeWhile_append_of_pos]
  · simp [stop]
  · exact fun d mem => pass d (List.mem_reverse.1 mem)

end Text

namespace Path

/-- The code point that an extension begins with. -/
def dot : CodePoint := .scalar '.'

/-- A dot and some code points after it, which neither begin another extension nor end a name. -/
def IsExtension (extension : Text) : Prop :=
  ∃ letters, extension = dot :: letters ∧ letters ≠ [] ∧ dot ∉ letters ∧ separator ∉ letters

/-- A name without its extension. -/
def stem (name : Text) : Text := (splitExtension name).1

variable {name extension front path : Text}

/-! ## Names and extensions -/

theorem splitExtension_of_notMem (free : dot ∉ name) : splitExtension name = (name, []) := by
  have stop : name.length - (name.length + 1) = 0 := by omega
  simp only [splitExtension]
  rw [List.takeWhile_eq_self_iff.2, List.length_reverse, stop]
  · rfl
  · intro c mem
    simpa [dot] using ne_of_mem_of_not_mem (List.mem_reverse.1 mem) free

theorem splitExtension_append {rest : Text} (free : dot ∉ rest) (front : Text) :
    splitExtension (front ++ dot :: rest) =
      if front.all (· = dot) then (front ++ dot :: rest, []) else (front, dot :: rest) := by
  have stop : (front ++ dot :: rest).length - (rest.length + 1) = front.length := by simp
  simp only [splitExtension]
  rw [Text.takeWhile_reverse_append, List.length_reverse, stop, List.take_left, List.drop_left]
  · rfl
  · intro c mem
    simpa [dot] using ne_of_mem_of_not_mem mem free
  · rfl

/-- A name ends with its extension unless it has none. -/
theorem stem_cases (name : Text) :
    stem name = name ∨ ∃ rest, name = stem name ++ dot :: rest ∧ ∃ c ∈ stem name, c ≠ dot := by
  by_cases dotted : dot ∈ name
  · obtain ⟨front, rest, rfl, free⟩ := Text.exists_last dotted
    rw [stem, splitExtension_append free]
    split
    · exact .inl rfl
    · next some => exact .inr ⟨rest, rfl, by simpa using some⟩
  · rw [stem, splitExtension_of_notMem dotted]
    exact .inl rfl

theorem isPrefix_stem (name : Text) : stem name <+: name := by
  obtain whole | ⟨rest, eq, -⟩ := stem_cases name
  · rw [whole]
  · exact ⟨_, eq.symm⟩

theorem exists_mem_stem (named : ∃ c ∈ name, c ≠ dot) : ∃ c ∈ stem name, c ≠ dot := by
  obtain whole | ⟨-, -, some⟩ := stem_cases name
  · rwa [whole]
  · exact some

theorem stem_append (isExtension : IsExtension extension) (named : ∃ c ∈ front, c ≠ dot) :
    stem (front ++ extension) = front := by
  obtain ⟨letters, rfl, -, free, -⟩ := isExtension
  rw [stem, splitExtension_append free, if_neg (by simpa using named)]

theorem isName_of_ne_dot (named : ∃ c ∈ name, c ≠ dot) (free : separator ∉ name) : IsName name := by
  obtain ⟨c, mem, ne⟩ := named
  refine ⟨List.ne_nil_of_mem mem, free, ?_, ?_⟩
  · rintro rfl
    exact ne (List.mem_singleton.1 mem)
  · rintro rfl
    exact (List.mem_cons.1 mem).elim ne fun mem => ne (List.mem_singleton.1 mem)

/-- A name with another extension is a name. -/
theorem isName_stem (isExtension : IsExtension extension) (free : separator ∉ name) :
    IsName (stem name ++ extension) := by
  obtain ⟨letters, rfl, some, undotted, joined⟩ := isExtension
  obtain ⟨c, mem⟩ := List.exists_mem_of_ne_nil _ some
  refine isName_of_ne_dot ⟨c, by simp [mem], ne_of_mem_of_not_mem mem undotted⟩ ?_
  have slash : separator ≠ dot := by decide
  have front : separator ∉ stem name := fun mem => free ((isPrefix_stem name).subset mem)
  simp [slash, joined, front]

/-! ## The last name of a path -/

theorem base_of_notMem (free : separator ∉ path) : base path = path :=
  List.rtakeWhile_eq_self_iff.2 fun c mem => by simpa using ne_of_mem_of_not_mem mem free

theorem base_append (free : separator ∉ name) (front : Text) :
    base (front ++ separator :: name) = name := by
  rw [base, Text.takeWhile_reverse_append, List.reverse_reverse]
  · intro c mem
    simpa using ne_of_mem_of_not_mem mem free
  · rfl

theorem separator_notMem_base (path : Text) : separator ∉ base path := by
  by_cases slash : separator ∈ path
  · obtain ⟨front, name, rfl, free⟩ := Text.exists_last slash
    rwa [base_append free]
  · rwa [base_of_notMem slash]

theorem directory_of_notMem (free : separator ∉ path) : directory path = [] := by
  rw [directory, base_of_notMem free, Nat.sub_self, List.take_zero]
  rfl

theorem directory_eq_trimSlashes (free : separator ∉ name) (front : Text) :
    directory (front ++ separator :: name) = trimSlashes (front ++ [separator]) := by
  have stop : (front ++ separator :: name).length - name.length =
      (front ++ [separator]).length := by
    simp
    omega
  have split : front ++ separator :: name = front ++ [separator] ++ name := by simp
  rw [directory, base_append free, stop, split, List.take_left]

/-- The text does not end with a separator. -/
def Ends (path : Text) : Prop := ∃ c ∈ path.getLast?, c ≠ separator

theorem Ends.ne_nil (ends : Ends path) : path ≠ [] := by
  rintro rfl
  obtain ⟨c, ⟨⟩, -⟩ := ends

theorem Ends.append (ends : Ends path) (front : Text) : Ends (front ++ path) := by
  obtain ⟨c, last, ne⟩ := ends
  exact ⟨c, by simp_all [List.getLast?_append], ne⟩

theorem Ends.trimEnd_eq (ends : Ends path) : Text.trimEnd (· = separator) path = path := by
  obtain ⟨c, last, ne⟩ := ends
  refine List.rdropWhile_eq_self_iff.2 fun some => ?_
  rw [List.getLast?_eq_some_getLast some] at last
  obtain rfl := Option.some.inj last
  simpa using ne

theorem ends_of_notMem (some : name ≠ []) (free : separator ∉ name) : Ends name :=
  ⟨_, List.getLast?_eq_some_getLast some, ne_of_mem_of_not_mem (List.getLast_mem some) free⟩

/-- Names that are joined do not end with a separator. -/
theorem ends_join {steps : List Text} (named : ∀ name ∈ steps, name ≠ [] ∧ separator ∉ name)
    (some : steps ≠ []) : Ends (Text.join [separator] steps) := by
  obtain ⟨front, last, rfl⟩ := (List.eq_nil_or_concat' steps).resolve_left some
  obtain ⟨ne, free⟩ := named last (by simp)
  have ends := ends_of_notMem ne free
  obtain rfl | some := eq_or_ne front []
  · exact ends
  · have split : Text.join [separator] front ++ separator :: last =
        (Text.join [separator] front ++ [separator]) ++ last := by simp
    rw [Text.join_concat some, split]
    exact ends.append _

theorem ends_trimEnd (named : ∃ c ∈ path, c ≠ separator) :
    Ends (Text.trimEnd (· = separator) path) := by
  have some : Text.trimEnd (· = separator) path ≠ [] := by
    obtain ⟨c, mem, ne⟩ := named
    exact fun none => ne (by simpa using List.rdropWhile_eq_nil_iff.1 none c mem)
  exact ⟨_, List.getLast?_eq_some_getLast some,
    fun same => List.rdropWhile_last_not _ _ some (decide_eq_true same)⟩

theorem trimSlashes_concat (front : Text) (named : ∃ c ∈ front, c ≠ separator) :
    trimSlashes (front ++ [separator]) = Text.trimEnd (· = separator) front := by
  have trimmed : Text.trimEnd (· = separator) (front ++ [separator]) =
      Text.trimEnd (· = separator) front := Text.trimEnd_concat_of_pos (by simp) front
  have some := (ends_trimEnd named).ne_nil
  rw [trimSlashes, trimmed]
  exact if_neg (by simpa using some)

/-- A path is its directory and its last name. -/
theorem directory_append (ends : Ends front) (free : separator ∉ name) :
    directory (front ++ separator :: name) = front := by
  obtain ⟨c, last, ne⟩ := id ends
  rw [directory_eq_trimSlashes free, trimSlashes_concat front ⟨c, List.mem_of_getLast? last, ne⟩,
    ends.trimEnd_eq]

/-! ## Resolution name by name -/

theorem foldl_splitOn_nil (rooted : Bool) (above : List Text) :
    (Text.splitOn separator []).foldl (step rooted) above = above := by
  change step rooted above [] = above
  rw [step.eq_def, if_pos (.inl rfl)]

theorem step_name (isName : IsName name) (rooted : Bool) (above : List Text) :
    step rooted above name = name :: above := by
  obtain ⟨some, -, notHere, notUp⟩ := isName
  rw [step.eq_def, if_neg (not_or.2 ⟨some, notHere⟩), if_neg notUp]

/-- A path after a directory is resolved from the place of the directory. -/
theorem components_join {directory : Text} (rooted : isAbsolute directory)
    (relative : isAbsolute path = false) :
    components (join directory path) =
      ((Text.splitOn separator path).foldl (step true) (components directory).reverse).reverse := by
  rw [components, components, isAbsolute_join rooted, rooted, List.reverse_reverse, join, relative,
    if_neg Bool.false_ne_true]
  split
  · next closed =>
    have some : directory ≠ [] := by
      rintro rfl
      cases rooted
    obtain ⟨front, rfl⟩ : ∃ front, directory = front ++ [separator] :=
      ⟨_, (List.dropLast_append_getLast? separator (by simpa [some] using closed)).symm⟩
    rw [List.append_assoc, List.singleton_append, Text.splitOn_append_separator,
      Text.splitOn_append_separator, List.foldl_append, List.foldl_append, foldl_splitOn_nil]
  · rw [List.append_assoc, List.singleton_append, Text.splitOn_append_separator, List.foldl_append]

/-- Separators at the end of a path lead nowhere. -/
theorem foldl_trimEnd (rooted : Bool) (above : List Text) (path : Text) :
    (Text.splitOn separator (Text.trimEnd (· = separator) path)).foldl (step rooted) above =
      (Text.splitOn separator path).foldl (step rooted) above := by
  induction path using List.reverseRecOn with
  | nil => rfl
  | append_singleton path c ih =>
    by_cases slash : c = separator
    · rw [Text.trimEnd_concat_of_pos (by simpa using slash), ih, slash,
        Text.splitOn_append_separator, List.foldl_append, foldl_splitOn_nil]
    · rw [Text.trimEnd_concat_of_neg (by simpa using slash)]

/-- How many slashes a root has. -/
theorem root_replicate {c : CodePoint} (ne : c ≠ separator) (n : Nat) (rest : Text) :
    root (List.replicate n separator ++ c :: rest) =
      match n with
      | 0 => []
      | 2 => [separator, separator]
      | _ => [separator] := by
  have other (after : Text) : c :: rest ≠ .scalar '/' :: after := fun same =>
    ne (List.cons.inj same).1
  match n with
  | 0 =>
    change root (c :: rest) = []
    rw [root]
    all_goals exact fun _ => other _
  | 1 =>
    change root (.scalar '/' :: c :: rest) = _
    rw [root]
    · rfl
    all_goals exact fun _ => other _
  | 2 =>
    change root (.scalar '/' :: .scalar '/' :: c :: rest) = _
    rw [root]
    · rfl
    · exact other
  | n + 3 => rfl

/-- The root of a path does not depend on what follows its slashes. -/
theorem root_append {c : CodePoint} (ne : c ≠ separator) (front rest : Text) :
    root (front ++ c :: rest) = root (front ++ [c]) := by
  obtain ⟨n, d, after, eq, head⟩ : ∃ n d, ∃ after : Text → Text, d ≠ separator ∧
      ∀ rest, front ++ c :: rest = List.replicate n separator ++ d :: after rest := by
    induction front with
    | nil => exact ⟨0, c, id, ne, fun _ => rfl⟩
    | cons b front ih =>
      by_cases slash : b = separator
      · obtain ⟨n, d, after, stops, eq⟩ := ih
        exact ⟨n + 1, d, after, stops, fun rest => by rw [slash, List.cons_append, eq]; rfl⟩
      · exact ⟨0, b, fun rest => front ++ c :: rest, slash, fun _ => rfl⟩
  rw [head, head, root_replicate eq, root_replicate eq]

/-- Joining a relative path to a directory comes to writing it behind a fixed text. -/
theorem exists_join {directory : Text} (rooted : isAbsolute directory) :
    ∃ front, ∀ path, isAbsolute path = false → join directory path = front ++ path := by
  have some : directory.isEmpty = false := by
    cases directory with
    | nil => cases rooted
    | cons => rfl
  by_cases closed : directory.getLast? = .some separator
  · refine ⟨directory, fun path relative => ?_⟩
    rw [join, relative, if_neg Bool.false_ne_true, if_pos (by simp [closed])]
  · refine ⟨directory ++ [separator], fun path relative => ?_⟩
    rw [join, relative, if_neg Bool.false_ne_true, if_neg (by simp [some, closed])]

end Path

namespace Specifier

open ElementWrapper.Path

variable {name extension front source : Text}

theorem withExtension_name (free : separator ∉ name) (extension : Text) :
    withExtension name extension = stem name ++ extension := by
  simp only [withExtension, base_of_notMem free, directory_of_notMem free, List.isEmpty_nil,
    if_true]
  rfl

theorem withExtension_append (ends : Ends front) (free : separator ∉ name) (extension : Text) :
    withExtension (front ++ separator :: name) extension =
      front ++ separator :: (stem name ++ extension) := by
  have some : ¬ front.isEmpty := by simpa using ends.ne_nil
  simp only [withExtension, base_append free, directory_append ends free, if_neg some]
  simp [stem]

/-! ## Relative specifiers -/

/-- The directory that a relative specifier names. -/
def folder (source : Text) : Text := if separator ∈ source then directory source else here

section

variable (relative : source.head? = some dot)
include relative

theorem isAbsolute_of_relative : isAbsolute source = false := by
  rw [isAbsolute, relative]
  rfl

/-- A relative specifier with a slash is its directory, perhaps with more slashes, and its last
name. -/
theorem exists_front (slash : separator ∈ source) :
    ∃ front, source = front ++ separator :: base source ∧ front.head? = some dot ∧
      folder source = Text.trimEnd (· = separator) front := by
  obtain ⟨front, name, rfl, free⟩ := Text.exists_last slash
  have head : front.head? = some dot := by
    cases front with
    | nil => cases relative
    | cons => exact relative
  refine ⟨front, by rw [base_append free], head, ?_⟩
  rw [folder, if_pos slash, directory_eq_trimSlashes free, trimSlashes_concat]
  exact ⟨dot, List.mem_of_head? head, by decide⟩

/-- The directory of a relative specifier does not end with a slash. -/
theorem ends_folder : Ends (folder source) := by
  by_cases slash : separator ∈ source
  · obtain ⟨front, -, head, eq⟩ := exists_front relative slash
    rw [eq]
    exact ends_trimEnd ⟨dot, List.mem_of_head? head, by decide⟩
  · rw [folder, if_neg slash]
    exact ⟨dot, rfl, by decide⟩

/-- The directory of a relative specifier is relative. -/
theorem head?_folder : (folder source).head? = some dot := by
  by_cases slash : separator ∈ source
  · obtain ⟨front, -, head, eq⟩ := exists_front relative slash
    obtain ⟨first, rest, kept⟩ := List.exists_cons_of_ne_nil (ends_folder relative).ne_nil
    obtain ⟨after, begins⟩ : folder source <+: front := eq ▸ List.rdropWhile_prefix _ _
    rw [kept] at begins ⊢
    rwa [← begins] at head
  · rw [folder, if_neg slash]
    rfl

/-- The steps of a relative specifier are those of its directory and one more. -/
theorem foldl_splitOn (above : List Text) :
    (Text.splitOn separator source).foldl (step true) above =
      step true ((Text.splitOn separator (folder source)).foldl (step true) above)
        (base source) := by
  by_cases slash : separator ∈ source
  · obtain ⟨front, eq, -, folded⟩ := exists_front relative slash
    have last : Text.splitOn separator (base source) = [base source] :=
      Text.splitOn_of_notMem (separator_notMem_base source)
    rw [folded, foldl_trimEnd]
    conv_lhs => rw [eq]
    rw [Text.splitOn_append_separator, List.foldl_append, last]
    rfl
  · rw [Text.splitOn_of_notMem slash, folder, if_neg slash, base_of_notMem slash]
    rfl

/-- A relative specifier with another extension is a name in the same directory. -/
theorem relativeWithExtension_eq (extension : Text) :
    relativeWithExtension source extension =
      folder source ++ separator :: (stem (base source) ++ extension) := by
  have free := separator_notMem_base source
  have inHere : here ++ [separator] ++ withExtension (base source) extension =
      here ++ separator :: (stem (base source) ++ extension) := by
    rw [withExtension_name free, List.append_assoc]
    rfl
  have starts : ¬ source.head? ≠ some (.scalar '.') := not_not.2 relative
  rw [relativeWithExtension, if_neg starts]
  by_cases slash : separator ∈ source
  · have directory_eq : directory source = folder source := (if_pos slash).symm
    have some := (ends_folder relative).ne_nil
    dsimp only
    split
    · next plain => rw [inHere, ← plain.resolve_left (directory_eq ▸ some), directory_eq]
    · simp only [withExtension, directory_eq]
      rw [if_neg (by simpa using some), List.append_assoc]
      rfl
  · have none : directory source = [] := directory_of_notMem slash
    dsimp only
    rw [if_pos (.inl none), inHere, folder, if_neg slash]

end

theorem folder_append (ends : Ends front) (free : separator ∉ name) :
    folder (front ++ separator :: name) = front := by
  rw [folder, if_pos (by simp), directory_append ends free]

/-! ## Resolution of relative specifiers -/

section

variable {directory : Text}

/-- A relative specifier leads to its name, in the directory that it names. -/
theorem components_join_relative (rooted : isAbsolute directory)
    (relative : source.head? = some dot) (isName : IsName (base source)) :
    components (join directory source) =
      components (join directory (folder source)) ++ [base source] := by
  rw [components_join rooted (isAbsolute_of_relative relative),
    components_join rooted (isAbsolute_of_relative (head?_folder relative)),
    foldl_splitOn relative, step_name isName, List.reverse_cons]

theorem root_join {other : Text} (rooted : isAbsolute directory)
    (relative : source.head? = some dot) (relative' : other.head? = some dot) :
    root (join directory source) = root (join directory other) := by
  obtain ⟨front, joined⟩ := exists_join rooted
  rw [joined _ (isAbsolute_of_relative relative), joined _ (isAbsolute_of_relative relative')]
  obtain ⟨rest, rfl⟩ := List.head?_eq_some_iff.1 relative
  obtain ⟨rest', rfl⟩ := List.head?_eq_some_iff.1 relative'
  rw [root_append (by decide), root_append (c := dot) (by decide) front rest']

/-- The slash of the root is no separator: after it the new name gets another one. -/
theorem withExtension_root {slashes : Text} (isRoot : slashes = [separator] ∨
    slashes = [separator, separator]) (free : separator ∉ name) (extension : Text) :
    withExtension (slashes ++ name) extension =
      slashes ++ separator :: (stem name ++ extension) := by
  have below (front : Text) (kept : trimSlashes (front ++ [separator]) = front ++ [separator]) :
      withExtension (front ++ [separator] ++ name) extension =
        front ++ [separator] ++ separator :: (stem name ++ extension) := by
    rw [List.append_assoc, List.singleton_append]
    simp only [withExtension, base_append free, directory_eq_trimSlashes free, kept]
    rw [if_neg (by simp), List.append_assoc _ [separator] _]
    rfl
  obtain rfl | rfl := isRoot
  · exact below [] rfl
  · exact below [separator] rfl

end

/-- **Another extension and resolution commute** for a relative specifier with a name exactly if it
leads to a place that is not right below the root. The specifier stays relative, and the same
extension again changes nothing. -/
theorem normalize_relativeWithExtension {directory source extension : Text}
    (rooted : isAbsolute directory) (relative : source.head? = some dot)
    (named : ∃ c ∈ base source, c ≠ dot) (isExtension : IsExtension extension) :
    let moved := relativeWithExtension source extension
    (normalize (join directory moved) =
          withExtension (normalize (join directory source)) extension ↔
        (components (join directory source)).length ≠ 1) ∧
      moved.head? = some dot ∧ relativeWithExtension moved extension = moved := by
  intro moved
  have free := separator_notMem_base source
  have isName := isName_of_ne_dot named free
  have isName' := isName_stem isExtension free
  have ends := ends_folder relative
  have moved_eq : moved = folder source ++ separator :: (stem (base source) ++ extension) :=
    relativeWithExtension_eq relative extension
  have base_moved : base moved = stem (base source) ++ extension := by
    rw [moved_eq, base_append isName'.2.1]
  have folder_moved : folder moved = folder source := by
    rw [moved_eq, folder_append ends isName'.2.1]
  have relative' : moved.head? = some dot := by
    rw [moved_eq, List.head?_append_of_ne_nil _ ends.ne_nil, head?_folder relative]
  refine ⟨?_, relative', ?_⟩
  · let place := components (join directory (folder source))
    have reached : components (join directory source) = place ++ [base source] :=
      components_join_relative rooted relative isName
    have reached' : components (join directory moved) = place ++ [base moved] := by
      rw [components_join_relative rooted relative' (base_moved ▸ isName'), folder_moved]
    rw [normalize_eq (isAbsolute_join rooted _), normalize_eq (isAbsolute_join rooted _),
      root_join rooted relative' relative, reached, reached', base_moved]
    obtain none | some := eq_or_ne place []
    · rw [none]
      change _ ++ (stem (base source) ++ extension) = withExtension (_ ++ base source) extension ↔ _
      rw [withExtension_root (root_cases (isAbsolute_join rooted _)) free]
      refine iff_of_false (fun same => ?_) (by simp)
      have lengths := congrArg List.length same
      simp at lengths
    · have ends := (ends_join (fun name mem => named_components (isAbsolute_join rooted _) name mem)
        some).append (root (join directory source))
      rw [Text.join_concat some, Text.join_concat some, ← List.append_assoc, ← List.append_assoc,
        withExtension_append ends free]
      exact iff_of_true rfl (by simpa using some)
  · rw [relativeWithExtension_eq relative', folder_moved, base_moved,
      stem_append isExtension (exists_mem_stem named), ← moved_eq]

/-- A name that begins with a dot and has two extensions, behind a doubled slash. -/
theorem normalize_declarationWithExtension :
    let directory : Text := "/src/panel"
    let source : Text := "..//shared/.base.d.ts"
    let moved := relativeWithExtension source ".js"
    isAbsolute directory ∧ IsExtension ".js" ∧ moved = "..//shared/.base.d.js" ∧
      normalize (join directory moved) = withExtension (normalize (join directory source)) ".js" ∧
      relativeWithExtension moved ".js" = moved := by
  intro directory source moved
  have isExtension : IsExtension ".js" := ⟨"js", rfl, by decide, by decide, by decide⟩
  have named : ∃ c ∈ base source, c ≠ dot := ⟨.scalar 'b', by decide, by decide⟩
  have rooted : isAbsolute directory := rfl
  obtain ⟨commutes, -, again⟩ := normalize_relativeWithExtension rooted rfl named isExtension
  exact ⟨rooted, isExtension, by decide, commutes.2 (by decide), again⟩

end Specifier

end ElementWrapper
