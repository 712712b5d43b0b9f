import ElementWrapper.Files.Tree
import ElementWrapper.Proofs.Result

/-!
What making directories and writing files do to a tree. A tree `Grows` by directories that are made
where nothing was; what a route led to before, it leads to in the tree that has grown. Steps without
`..` lead straight down, so that the place at their end is known beforehand.
-/

namespace ElementWrapper

namespace FileTree

variable {tree later : FileTree} {place other : Place}

/-- The later tree has the same entries and perhaps more directories. -/
def Grows (tree later : FileTree) : Prop :=
  ∀ place, later.get? place = tree.get? place ∨
    tree.get? place = none ∧ later.get? place = some .directory

namespace Grows

theorem refl (tree : FileTree) : tree.Grows tree := fun _ => .inl rfl

theorem trans {last : FileTree} (one : tree.Grows later) (two : later.Grows last) :
    tree.Grows last := by
  intro place
  obtain same | ⟨empty, made⟩ := two place
  · rw [same]
    exact one place
  · obtain kept | ⟨fresh, _⟩ := one place
    · exact .inr ⟨kept ▸ empty, made⟩
    · exact .inr ⟨fresh, made⟩

theorem get?_directory (h : tree.Grows later) (hd : tree.get? place = some .directory) :
    later.get? place = some .directory := by
  obtain same | ⟨empty, _⟩ := h place
  · exact same.trans hd
  · rw [hd] at empty
    cases empty

end Grows

/-! ## Following steps -/

/-- The last step is taken from a directory, to which the steps before it lead. -/
theorem follow_concat_eq_ok {steps : List Text} {step : Text} {target : Place} :
    tree.follow place (steps ++ [step]) = .ok target ↔
      ∃ around, tree.follow place steps = .ok around ∧
        tree.get? around = some .directory ∧ next around step = target := by
  induction steps generalizing place with
  | nil =>
    simp only [List.nil_append, follow, Except.ok.injEq, exists_eq_left']
    cases tree.get? place with
    | none => simp
    | some entry => cases entry <;> simp
  | cons first steps ih =>
    simp only [List.cons_append, follow]
    cases tree.get? place with
    | none => simp
    | some entry =>
      cases entry with
      | file => simp
      | directory => exact ih

/-- Steps lead to the same place as before as long as every directory is still there. -/
theorem follow_mono
    (h : ∀ place, tree.get? place = some .directory → later.get? place = some .directory)
    {steps : List Text} {target : Place} (hf : tree.follow place steps = .ok target) :
    later.follow place steps = .ok target := by
  induction steps using List.reverseRecOn generalizing target with
  | nil => exact hf
  | append_singleton steps step ih =>
    obtain ⟨around, found, directory, rfl⟩ := follow_concat_eq_ok.1 hf
    exact follow_concat_eq_ok.2 ⟨around, ih found, h around directory, rfl⟩

/-! ## Straight steps -/

/-- The steps lead down at every turn. -/
def Straight (steps : List Text) : Prop := Path.up ∉ steps ∧ Path.here ∉ steps

theorem next_of_straight {step : Text} (h : Straight [step]) :
    next place step = place ++ [step] := by
  have up : step ≠ Path.up := fun e => h.1 (e ▸ List.mem_singleton_self _)
  have here : step ≠ Path.here := fun e => h.2 (e ▸ List.mem_singleton_self _)
  rw [next, if_neg up, if_neg here]

theorem straight_concat {steps : List Text} {step : Text} :
    Straight (steps ++ [step]) ↔ Straight steps ∧ Straight [step] := by
  simp only [Straight, List.mem_append, not_or]
  tauto

theorem follow_of_straight {steps : List Text} {target : Place} (h : Straight steps)
    (hf : tree.follow place steps = .ok target) : target = place ++ steps := by
  induction steps using List.reverseRecOn generalizing target with
  | nil =>
    rw [List.append_nil]
    exact (Except.ok.inj hf).symm
  | append_singleton steps step ih =>
    obtain ⟨around, found, _, rfl⟩ := follow_concat_eq_ok.1 hf
    obtain ⟨first, last⟩ := straight_concat.1 h
    rw [next_of_straight last, ih first found, List.append_assoc]

/-- Straight steps lead to everything that stands at their end. -/
theorem follow_of_isSome {steps : List Text} (h : Straight steps)
    (stands : (tree.get? (place ++ steps)).isSome) :
    tree.follow place steps = .ok (place ++ steps) := by
  induction steps using List.reverseRecOn with
  | nil =>
    rw [List.append_nil]
    rfl
  | append_singleton steps step ih =>
    obtain ⟨first, last⟩ := straight_concat.1 h
    rw [← List.append_assoc] at stands ⊢
    have directory := get?_eq_directory stands
    exact follow_concat_eq_ok.2
      ⟨_, ih first (directory ▸ rfl), directory, next_of_straight last⟩

/-! ## Changes -/

/-- A directory is made where nothing was, and nothing else changes. -/
theorem makeDirectory_eq_ok (h : tree.makeDirectory place = .ok later) :
    tree.get? place = none ∧ later.get? place = some .directory ∧
      ∀ other ≠ place, later.get? other = tree.get? other := by
  rw [makeDirectory] at h
  split at h
  · cases h
  · next fresh =>
    split at h
    · cases h
      refine ⟨Option.not_isSome_iff_eq_none.1 (not_or.1 fresh).2, ?_, fun other ne => ?_⟩
      · rw [get?_put, if_pos rfl]
      · rw [get?_put, if_neg ne]
    · cases h

theorem makeDirectory_grows (h : tree.makeDirectory place = .ok later) : tree.Grows later := by
  obtain ⟨fresh, made, others⟩ := makeDirectory_eq_ok h
  intro other
  by_cases same : other = place
  · exact .inr ⟨same ▸ fresh, same ▸ made⟩
  · exact .inl (others other same)

/-- A directory can be made in another one wherever nothing stands. -/
theorem exists_makeDirectory {name : Text} (around : tree.get? place = some .directory)
    (empty : tree.get? (place ++ [name]) = none) :
    ∃ later, tree.makeDirectory (place ++ [name]) = .ok later := by
  have fresh : ¬ (place ++ [name] = [] ∨ (tree.get? (place ++ [name])).isSome) := by
    simp [empty]
  have parent : tree.get? (place ++ [name]).dropLast = some .directory := by
    rw [List.dropLast_concat]
    exact around
  rw [makeDirectory, dif_neg fresh, dif_pos parent]
  exact ⟨_, rfl⟩

theorem makeDirectory_of_isSome (h : (tree.get? place).isSome) :
    tree.makeDirectory place = .error .present := by
  rw [makeDirectory, dif_pos (.inr h)]

/-- A file is written where no directory is, and nothing else changes. -/
theorem write_eq_ok {bytes : List UInt8} (h : tree.write place bytes = .ok later) :
    tree.get? place ≠ some .directory ∧ later.get? place = some (.file bytes) ∧
      ∀ other ≠ place, later.get? other = tree.get? other := by
  rw [write] at h
  split at h
  · cases h
  · next free =>
    split at h
    · cases h
      refine ⟨free, ?_, fun other ne => ?_⟩
      · rw [get?_put, if_pos rfl]
      · rw [get?_put, if_neg ne]
    · cases h

theorem write_keeps_directory {bytes : List UInt8} (h : tree.write place bytes = .ok later)
    (directory : tree.get? other = some .directory) : later.get? other = some .directory := by
  obtain ⟨free, -, others⟩ := write_eq_ok h
  have ne : other ≠ place := fun same => free (same ▸ directory)
  rw [others other ne, directory]

/-- A file can be put into a directory wherever nothing stands. -/
theorem exists_write {name : Text} (around : tree.get? place = some .directory)
    (empty : tree.get? (place ++ [name]) = none) (bytes : List UInt8) :
    ∃ later, tree.write (place ++ [name]) bytes = .ok later := by
  have fresh : tree.get? (place ++ [name]) ≠ some .directory := by
    rw [empty]
    exact nofun
  have parent : tree.get? (place ++ [name]).dropLast = some .directory := by
    rw [List.dropLast_concat]
    exact around
  rw [write, dif_neg fresh, dif_pos parent]
  exact ⟨_, rfl⟩

end FileTree

end ElementWrapper
