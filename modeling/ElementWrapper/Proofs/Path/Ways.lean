import ElementWrapper.Proofs.Path.Extension

/-!
The way from a directory to a file whose extension is another one. It goes up to the last directory
that both are in and from there down to the file (`relative_of_file`). Resolved from the directory
it goes back the same names (`components_way`), so that the other extension of its last step becomes
the one of the file.

A path that names the directory itself or one above it is not a file in this sense: the way to it
has no name at its end but `.` or `..` (`relative_of_above`), and with an extension that is a name
below the directory (`names_through`).
-/

namespace ElementWrapper

namespace Path

variable {path directory extension last : Text} {front : List Text}

/-! ## What two lists share -/

theorem sharedLength_comm (first second : List Text) :
    sharedLength first second = sharedLength second first := by
  induction first, second using sharedLength_induction with
  | nil_left | nil_right => simp
  | same name first second ih => simp [ih]
  | differ a first b second ne =>
    rw [sharedLength_cons_of_ne ne, sharedLength_cons_of_ne (Ne.symm ne)]

theorem take_sharedLength (first second : List Text) :
    first.take (sharedLength first second) = second.take (sharedLength first second) := by
  induction first, second using sharedLength_induction with
  | nil_left | nil_right => simp
  | same name first second ih => simp [ih]
  | differ a first b second ne => simp [sharedLength_cons_of_ne ne]

/-! ## The way as text -/

section

variable (target start : Text)

/-- The steps of a way: first up and then down. -/
def steps : List Text :=
  let shared := sharedLength (names start) (names target)
  List.replicate ((names start).length - shared) up ++ (names target).drop shared

theorem relative_eq : relative target start =
    if steps target start = [] then here else Text.join [separator] (steps target start) := by
  simp only [← List.isEmpty_iff]
  rfl

variable {target start}

/-- The way to what does not lie above the start ends with a name of it. -/
theorem relative_of_file (ends : names target = front ++ [last])
    (apart : ¬ names target <+: names start) :
    let shared := sharedLength (names start) (names target)
    shared ≤ front.length ∧ relative target start = Text.join [separator]
      (List.replicate ((names start).length - shared) up ++ front.drop shared ++ [last]) := by
  intro shared
  have less : shared < (names target).length := by
    have least := sharedLength_le (names target) (names start)
    have ne := mt sharedLength_eq_length_iff.1 apart
    rw [sharedLength_comm] at least ne
    exact lt_of_le_of_ne least ne
  have within : shared ≤ front.length := by simpa [ends, Nat.lt_succ_iff] using less
  have down : steps target start =
      List.replicate ((names start).length - shared) up ++ front.drop shared ++ [last] := by
    rw [List.append_assoc, ← List.drop_append_of_le_length within, ← ends]
    rfl
  refine ⟨within, ?_⟩
  rw [relative_eq, down, if_neg (by simp)]

/-- The way to the start itself or to what lies above it ends with a step that is no name. -/
theorem relative_of_above (above : names target <+: names start) :
    ∃ n last, (last = here ∨ last = up) ∧ n + (names target).length ≤ (names start).length ∧
      relative target start = Text.join [separator] (List.replicate n up ++ [last]) := by
  have whole : sharedLength (names start) (names target) = (names target).length := by
    rw [sharedLength_comm]
    exact sharedLength_eq_length_iff.2 above
  have least := above.length_le
  have back : steps target start =
      List.replicate ((names start).length - (names target).length) up := by
    simp only [steps, whole, List.drop_length, List.append_nil]
  rw [relative_eq, back]
  cases far : (names start).length - (names target).length with
  | zero => exact ⟨0, here, .inl rfl, by omega, rfl⟩
  | succ n =>
    refine ⟨n, up, .inr rfl, by omega, ?_⟩
    rw [if_neg (by simp), List.replicate_succ']

end

/-! ## The way back -/

/-- A path whose names are names leads to where they say. -/
theorem components_eq_names (rooted : isAbsolute path) (named : ∀ name ∈ names path, IsName name) :
    components path = names path := by
  have skip (above : List Text) (component : Text) : step true above component =
      if !component.isEmpty then step true above component else above := by
    cases component with
    | nil => rw [step.eq_def, if_pos (.inl rfl)]; rfl
    | cons => rfl
  have steps : (Text.splitOn separator path).foldl (step true) [] =
      (names path).foldl (step true) [] := by
    rw [names, List.foldl_filter]
    congr 1
    funext above component
    exact skip above component
  have unnamed : [] ∉ names path := fun mem => (named [] mem).1 rfl
  rw [components, rooted, steps, ← List.reverse_nil, FileTree.foldl_step unnamed List.not_mem_nil,
    FileTree.foldl_next_of_straight (FileTree.straight_of_isName named), List.reverse_reverse,
    List.nil_append]

theorem isName_names_normalize (rooted : isAbsolute path) :
    ∀ name ∈ names (normalize path), IsName name :=
  names_normalize rooted ▸ isName_components rooted

theorem foldl_next_up (n : Nat) (place : Place) :
    (List.replicate n up).foldl FileTree.next place = place.take (place.length - n) := by
  induction n generalizing place with
  | zero => simp
  | succ n ih =>
    have one : FileTree.next place up = place.dropLast := if_pos rfl
    rw [List.replicate_succ, List.foldl_cons, one, ih, List.dropLast_eq_take, List.take_take,
      List.length_take]
    congr 1
    omega

section

variable {steps : List Text} (named : ∀ step ∈ steps, step ≠ [] ∧ separator ∉ step)
  (some : steps ≠ [])
include named some

theorem isAbsolute_join_steps : isAbsolute (Text.join [separator] steps) = false := by
  obtain ⟨first, rest, rfl⟩ := List.exists_cons_of_ne_nil some
  obtain ⟨ne, free⟩ := named first List.mem_cons_self
  obtain ⟨c, tail, rfl⟩ := List.exists_cons_of_ne_nil ne
  obtain ⟨other, -⟩ := List.ne_and_not_mem_of_not_mem_cons free
  have alone : separator ∉ [c] := by simpa using other
  obtain ⟨after, eq⟩ :=
    (Text.prefix_join_iff alone (c :: tail) rest).2 (List.prefix_append [c] tail)
  rw [← eq]
  simpa [isAbsolute] using Ne.symm other

theorem components_join_steps (rooted : isAbsolute directory) :
    components (join directory (Text.join [separator] steps)) =
      steps.foldl FileTree.next (components directory) := by
  have unnamed : [] ∉ steps := fun mem => (named [] mem).1 rfl
  have below : up ∉ components directory := fun mem =>
    (isName_components rooted up mem).2.2.2 rfl
  rw [components_join rooted (isAbsolute_join_steps named some),
    Text.splitOn_join some fun step mem => (named step mem).2,
    FileTree.foldl_step unnamed below, List.reverse_reverse]

end

theorem withExtension_join (named : ∀ name ∈ front, name ≠ [] ∧ separator ∉ name)
    (free : separator ∉ last) (extension : Text) :
    Specifier.withExtension (Text.join [separator] (front ++ [last])) extension =
      Text.join [separator] (front ++ [stem last ++ extension]) := by
  obtain rfl | some := eq_or_ne front []
  · exact Specifier.withExtension_name free extension
  · rw [Text.join_concat some, Text.join_concat some,
      Specifier.withExtension_append (ends_join named some) free]

/-- **The way back**: up, down along names, and to the last step with another extension. -/
theorem components_way (rooted : isAbsolute directory) (names : ∀ name ∈ front, IsName name)
    (free : separator ∉ last) (isExtension : IsExtension extension) (n : Nat) :
    let way := Specifier.withExtension
      (Text.join [separator] (List.replicate n up ++ front ++ [last])) extension
    isAbsolute way = false ∧ components (join directory way) =
      (components directory).take ((components directory).length - n) ++ front ++
        [stem last ++ extension] := by
  have ups : ∀ step ∈ List.replicate n up, step ≠ [] ∧ separator ∉ step := by
    intro step mem
    rw [List.eq_of_mem_replicate mem]
    decide
  have isName := isName_stem isExtension free
  have named : ∀ step ∈ List.replicate n up ++ front, step ≠ [] ∧ separator ∉ step :=
    List.forall_mem_append.2 ⟨ups, fun name mem => ⟨(names name mem).1, (names name mem).2.1⟩⟩
  have named' : ∀ step ∈ List.replicate n up ++ front ++ [stem last ++ extension],
      step ≠ [] ∧ separator ∉ step :=
    List.forall_mem_append.2 ⟨named, List.forall_mem_singleton.2 ⟨isName.1, isName.2.1⟩⟩
  have down : ∀ name ∈ front ++ [stem last ++ extension], IsName name :=
    List.forall_mem_append.2 ⟨names, List.forall_mem_singleton.2 isName⟩
  intro way
  have way_eq : way = _ := withExtension_join named free extension
  rw [way_eq]
  refine ⟨isAbsolute_join_steps named' (by simp), ?_⟩
  rw [components_join_steps named' (by simp) rooted, List.append_assoc, List.foldl_append,
    foldl_next_up, FileTree.foldl_next_of_straight (FileTree.straight_of_isName down),
    List.append_assoc]

end Path

namespace Specifier

open ElementWrapper.Path

/-- **A specifier points back at its file**: it is a path and a way that is not absolute and leads,
from the directory that the path stands for, to the file with another extension, exactly if the file
is neither that directory nor one above it. -/
theorem names_through {start extension : Text} (rooted : isAbsolute start)
    (isExtension : IsExtension extension) (path filename folder : Text) :
    let file := names (absolute start filename)
    let directory := absolute start folder
    ∃ way, through path start filename folder extension = path ++ way ∧ isAbsolute way = false ∧
      ((∃ place name, file = place ++ [name] ∧
          names (normalize (join directory way)) = place ++ [stem name ++ extension]) ↔
        ¬ file <+: names directory) := by
  intro file directory
  have rooted' : isAbsolute directory := isAbsolute_normalize (isAbsolute_join rooted folder)
  have isName : ∀ name ∈ file, IsName name :=
    isName_names_normalize (isAbsolute_join rooted filename)
  have place_eq : components directory = names directory :=
    components_eq_names rooted' (isName_names_normalize (isAbsolute_join rooted folder))
  have reached (way : Text) : names (normalize (join directory way)) =
      components (join directory way) := names_normalize (isAbsolute_join rooted' way)
  refine ⟨_, rfl, ?_⟩
  by_cases above : file <+: names directory
  · obtain ⟨n, last, noName, far, way_eq⟩ := relative_of_above above
    have free : separator ∉ last := by obtain rfl | rfl := noName <;> decide
    have none : ∀ name ∈ ([] : List Text), IsName name := nofun
    obtain ⟨relative, back⟩ := components_way rooted' none free isExtension n
    rw [way_eq, ← List.append_nil (List.replicate n up)]
    refine ⟨relative, iff_of_false ?_ (not_not.2 above)⟩
    rintro ⟨place, name, file_eq, other⟩
    have same := congrArg List.length ((reached _).symm.trans other)
    have whole : file.length = place.length + 1 := by rw [file_eq, List.length_append]; rfl
    rw [back, place_eq] at same
    simp only [List.length_append, List.length_take, List.length_nil, List.length_singleton] at same
    change n + file.length ≤ _ at far
    omega
  · obtain ⟨front, last, file_eq⟩ : ∃ front last, file = front ++ [last] :=
      (List.eq_nil_or_concat' file).resolve_left fun none => above (none ▸ List.nil_prefix)
    obtain ⟨within, way_eq⟩ := relative_of_file file_eq above
    have named : ∀ name ∈ front ++ [last], IsName name := file_eq ▸ isName
    obtain ⟨relative, back⟩ := components_way rooted'
      (fun name mem => named name (List.mem_append_left _ (List.mem_of_mem_drop mem)))
      (named last (by simp)).2.1 isExtension _
    rw [way_eq]
    refine ⟨relative, iff_of_true ⟨front, last, file_eq, ?_⟩ above⟩
    -- The names that stay when the way has gone up are the first ones of the file.
    have kept : (names directory).take (sharedLength (names directory) file) =
        front.take (sharedLength (names directory) file) := by
      rw [take_sharedLength]
      exact (congrArg (List.take _) file_eq).trans (List.take_append_of_le_length within)
    rw [reached, back, place_eq, Nat.sub_sub_self (sharedLength_le _ _), kept,
      List.take_append_drop]

/-- A file outside of the directory whose name begins with a dot. -/
theorem names_through_outside :
    let file := names (absolute "/src" "lib/../shared/.base.d.ts")
    let directory := absolute "/src" "panel/parts/"
    ¬ file <+: names directory ∧
      through "../" "/src" "lib/../shared/.base.d.ts" "panel/parts/" ".js" =
        "../../../shared/.base.d.js" ∧
      ∃ place name, file = place ++ [name] ∧
        names (normalize (join directory "../../shared/.base.d.js")) =
          place ++ [stem name ++ ".js"] := by
  intro file directory
  have isExtension : IsExtension ".js" := ⟨"js", rfl, by decide, by decide, by decide⟩
  have rooted : isAbsolute "/src" := rfl
  have apart : ¬ file <+: names directory := by decide
  obtain ⟨way, eq, -, back⟩ := names_through rooted isExtension "../" "lib/../shared/.base.d.ts"
    "panel/parts/"
  have whole : through "../" "/src" "lib/../shared/.base.d.ts" "panel/parts/" ".js" =
      "../" ++ "../../shared/.base.d.js" := by decide
  obtain rfl : way = "../../shared/.base.d.js" := List.append_cancel_left (eq.symm.trans whole)
  exact ⟨apart, whole, back.2 apart⟩

end Specifier

end ElementWrapper
