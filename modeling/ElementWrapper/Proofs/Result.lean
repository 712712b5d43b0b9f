import Mathlib

/-!
Runs that may fail. A run read backwards: what has to hold for it to succeed with a given result,
and what a list of steps comes to when each of them succeeds. `FailsBy` says of a run that a fault
which is known beforehand decides whether and how it fails; of runs one after the other the first
fault decides (`FailsBy.bind`, `FailsBy.foldlM`). `Ensures` says what holds of every result that a
run succeeds with.
-/

namespace Except

variable {ε α β : Type}

@[simp] theorem bind_eq_ok {x : Except ε α} {f : α → Except ε β} {b : β} :
    x >>= f = .ok b ↔ ∃ a, x = .ok a ∧ f a = .ok b := by
  cases x <;> simp [bind, Except.bind]

@[simp] theorem pure_eq_ok {a b : α} : (pure a : Except ε α) = .ok b ↔ a = b := by
  simp [pure, Except.pure]

@[simp] theorem map_eq_ok {f : α → β} {x : Except ε α} {b : β} :
    f <$> x = .ok b ↔ ∃ a, x = .ok a ∧ f a = b := by
  cases x <;> simp [Functor.map, Except.map]

@[simp] theorem mapError_eq_ok {δ : Type} {f : ε → δ} {x : Except ε α} {a : α} :
    x.mapError f = .ok a ↔ x = .ok a := by
  cases x <;> simp [Except.mapError]

theorem toOption_eq_some {x : Except ε α} {a : α} : x.toOption = some a ↔ x = .ok a := by
  cases x <;> simp [Except.toOption]

theorem bind_eq_error {x : Except ε α} {f : α → Except ε β} {e : ε} :
    x >>= f = .error e ↔ x = .error e ∨ ∃ a, x = .ok a ∧ f a = .error e := by
  cases x <;> simp [bind, Except.bind]

theorem mapError_eq_error {δ : Type} {f : ε → δ} {x : Except ε α} {e : δ} :
    x.mapError f = .error e ↔ ∃ e', x = .error e' ∧ f e' = e := by
  cases x <;> simp [Except.mapError]

@[simp] theorem guard_eq_ok {c : Prop} [Decidable c] {a b : α} {e : ε} :
    (if c then .ok a else .error e) = Except.ok b ↔ c ∧ a = b := by
  split <;> simp [*]

theorem ok_of_mapM {f : α → Except ε β} {as : List α} {bs : List β} (h : as.mapM f = .ok bs) :
    ∀ a ∈ as, ∃ b, f a = .ok b := by
  induction as generalizing bs with
  | nil => simp
  | cons a as ih =>
    rw [List.mapM_cons] at h
    simp only [bind_eq_ok] at h
    obtain ⟨b, hb, _, has, _⟩ := h
    exact List.forall_mem_cons.2 ⟨⟨b, hb⟩, ih has⟩

/-- A run over a list gives one result for each item. -/
theorem length_of_mapM {f : α → Except ε β} {as : List α} {bs : List β}
    (h : as.mapM f = .ok bs) : bs.length = as.length := by
  induction as generalizing bs with
  | nil =>
    obtain rfl := pure_eq_ok.1 h
    rfl
  | cons a as ih =>
    rw [List.mapM_cons] at h
    simp only [bind_eq_ok, pure_eq_ok] at h
    obtain ⟨_, _, _, has, rfl⟩ := h
    rw [List.length_cons, List.length_cons, ih has]

theorem mapM_ok {f : α → Except ε β} {g : α → β} {as : List α}
    (h : ∀ a ∈ as, f a = .ok (g a)) : as.mapM f = .ok (as.map g) := by
  induction as with
  | nil => rfl
  | cons a as ih =>
    obtain ⟨ha, has⟩ := List.forall_mem_cons.1 h
    rw [List.mapM_cons, ha, ih has]
    rfl

/-- If each result is known beforehand, so are those of a run over a list. -/
theorem map_of_mapM {f : α → Except ε β} {g : α → β} {as : List α} {bs : List β}
    (h : ∀ a ∈ as, ∀ b, f a = .ok b → b = g a) (done : as.mapM f = .ok bs) :
    bs = as.map g ∧ ∀ a ∈ as, f a = .ok (g a) := by
  have each : ∀ a ∈ as, f a = .ok (g a) := by
    intro a mem
    obtain ⟨b, hb⟩ := ok_of_mapM done a mem
    rw [hb, h a mem b hb]
  exact ⟨ok.inj (done.symm.trans (mapM_ok each)), each⟩

theorem ok_of_foldlM {f : β → α → Except ε β} {as : List α} {b c : β}
    (h : as.foldlM f b = .ok c) : ∀ a ∈ as, ∃ before after, f before a = .ok after := by
  induction as generalizing b with
  | nil => simp
  | cons a as ih =>
    obtain ⟨next, ha, has⟩ := bind_eq_ok.1 (by rwa [List.foldlM_cons] at h)
    exact List.forall_mem_cons.2 ⟨⟨b, next, ha⟩, ih has⟩

/-- A run over a list that fails has succeeded up to some element and fails there. -/
theorem foldlM_eq_error {f : β → α → Except ε β} {as : List α} {b : β} {e : ε}
    (h : as.foldlM f b = .error e) :
    ∃ before a after c, as = before ++ a :: after ∧ before.foldlM f b = .ok c ∧
      f c a = .error e := by
  induction as generalizing b with
  | nil => cases h
  | cons a as ih =>
    rw [List.foldlM_cons] at h
    obtain ha | ⟨next, ha, has⟩ := bind_eq_error.1 h
    · exact ⟨[], a, as, b, rfl, rfl, ha⟩
    · obtain ⟨before, last, after, c, rfl, passed, failed⟩ := ih has
      refine ⟨a :: before, last, after, c, rfl, ?_, failed⟩
      rw [List.foldlM_cons, ha]
      exact passed

/-- A run that fails just if there is a fault, and with that fault. -/
def FailsBy (x : Except ε α) (fault : Option ε) : Prop := ∀ e, x = .error e ↔ fault = some e

namespace FailsBy

variable {x : Except ε α} {fault : Option ε}

theorem ok (a : α) : FailsBy (.ok a : Except ε α) none := by
  intro e
  constructor <;> rintro ⟨⟩

theorem error (e : ε) : FailsBy (.error e : Except ε α) (some e) := by
  intro e'
  constructor <;> rintro ⟨⟩ <;> rfl

theorem guard {c : Prop} [Decidable c] (a : α) (e : ε) :
    FailsBy (if c then .ok a else .error e) (if c then none else some e) := by
  split
  · exact FailsBy.ok a
  · exact FailsBy.error e

theorem exists_ok (h : FailsBy x none) : ∃ a, x = .ok a := by
  cases x with
  | ok a => exact ⟨a, rfl⟩
  | error e => cases (h e).1 rfl

theorem bind {f : α → Except ε β} {later : Option ε} (hx : FailsBy x fault)
    (hf : ∀ a, x = .ok a → FailsBy (f a) later) : FailsBy (x >>= f) (fault.or later) := by
  cases x with
  | ok a =>
    cases fault with
    | none => exact hf a rfl
    | some e => cases (hx e).2 rfl
  | error e =>
    obtain rfl := (hx e).1 rfl
    exact FailsBy.error e

theorem map {f : α → β} (hx : FailsBy x fault) : FailsBy (f <$> x) fault := by
  intro e
  rw [← hx e]
  cases x <;> simp [Functor.map, Except.map]

theorem findSome?_cons (faultOf : α → Option ε) (a : α) (as : List α) :
    (a :: as).findSome? faultOf = (faultOf a).or (as.findSome? faultOf) := by
  cases h : faultOf a <;> simp [h]

/-- In a run over a list the first element with a fault decides, whatever came before it. -/
theorem foldlM {f : β → α → Except ε β} {faultOf : α → Option ε}
    (h : ∀ b a, FailsBy (f b a) (faultOf a)) (as : List α) (b : β) :
    FailsBy (as.foldlM f b) (as.findSome? faultOf) := by
  induction as generalizing b with
  | nil => exact FailsBy.ok b
  | cons a as ih =>
    rw [List.foldlM_cons, findSome?_cons]
    exact (h b a).bind fun next _ => ih next

theorem mapM {f : α → Except ε β} {faultOf : α → Option ε}
    (h : ∀ a, FailsBy (f a) (faultOf a)) (as : List α) :
    FailsBy (as.mapM f) (as.findSome? faultOf) := by
  induction as with
  | nil => exact FailsBy.ok []
  | cons a as ih =>
    rw [List.mapM_cons, findSome?_cons]
    refine (h a).bind fun b _ => ?_
    rw [bind_pure_comp]
    exact ih.map

end FailsBy

/-- Every result that a run succeeds with has a property. -/
def Ensures (x : Except ε α) (P : α → Prop) : Prop := ∀ a, x = .ok a → P a

namespace Ensures

variable {x : Except ε α} {P : α → Prop}

@[simp] theorem ok_iff {a : α} : Ensures (.ok a : Except ε α) P ↔ P a :=
  ⟨fun h => h a rfl, fun h _ hb => Except.ok.inj hb ▸ h⟩

theorem imp {Q : α → Prop} (hx : Ensures x P) (imp : ∀ a, P a → Q a) : Ensures x Q :=
  fun a ha => imp a (hx a ha)

theorem pure {a : α} (h : P a) : Ensures (Pure.pure a : Except ε α) P := ok_iff.2 h

theorem bind {f : α → Except ε β} {Q : β → Prop} (hx : Ensures x P)
    (hf : ∀ a, P a → Ensures (f a) Q) : Ensures (x >>= f) Q := by
  intro b hb
  obtain ⟨a, ha, hb⟩ := bind_eq_ok.1 hb
  exact hf a (hx a ha) b hb

/-- What is ensured whatever comes before. -/
theorem bind_of_forall {f : α → Except ε β} {Q : β → Prop} (hf : ∀ a, Ensures (f a) Q) :
    Ensures (x >>= f) Q :=
  bind (P := fun _ => True) (fun _ _ => trivial) fun a _ => hf a

theorem map {f : α → β} {Q : β → Prop} (hx : Ensures x P) (hf : ∀ a, P a → Q (f a)) :
    Ensures (f <$> x) Q := by
  intro b hb
  obtain ⟨a, ha, rfl⟩ := map_eq_ok.1 hb
  exact hf a (hx a ha)

theorem mapM_of_mem {f : α → Except ε β} {Q : β → Prop} {as : List α}
    (h : ∀ a ∈ as, Ensures (f a) Q) : Ensures (as.mapM f) fun bs => ∀ b ∈ bs, Q b := by
  induction as with
  | nil => exact .pure (List.forall_mem_nil _)
  | cons a as ih =>
    obtain ⟨first, others⟩ := List.forall_mem_cons.1 h
    rw [List.mapM_cons]
    refine first.bind fun _ hb => (ih others).bind fun _ hbs => ?_
    exact .pure (List.forall_mem_cons.2 ⟨hb, hbs⟩)

theorem mapM {f : α → Except ε β} {Q : β → Prop} (h : ∀ a, Ensures (f a) Q) (as : List α) :
    Ensures (as.mapM f) fun bs => ∀ b ∈ bs, Q b :=
  mapM_of_mem fun a _ => h a

theorem forall₂_mapM {γ : Type} {f : α → Except ε β} {R : β → γ → Prop} {g : α → γ} {as : List α}
    (h : ∀ a ∈ as, Ensures (f a) (R · (g a))) :
    Ensures (as.mapM f) (List.Forall₂ R · (as.map g)) := by
  induction as with
  | nil => exact .pure .nil
  | cons a as ih =>
    obtain ⟨first, others⟩ := List.forall_mem_cons.1 h
    rw [List.mapM_cons]
    exact first.bind fun _ hb => (ih others).bind fun _ hbs => .pure (.cons hb hbs)

theorem flatMap_mapM {γ : Type} {f : α → Except ε β} {g : β → List γ} {h : α → List γ} {as : List α}
    (each : ∀ a ∈ as, Ensures (f a) fun b => g b = h a) :
    Ensures (as.mapM f) fun bs => bs.flatMap g = as.flatMap h := by
  induction as with
  | nil => exact .pure rfl
  | cons a as ih =>
    obtain ⟨first, others⟩ := List.forall_mem_cons.1 each
    rw [List.mapM_cons]
    refine first.bind fun _ hb => (ih others).bind fun _ hbs => .pure ?_
    rw [List.flatMap_cons, List.flatMap_cons, hb, hbs]

theorem optionMapM {f : α → Except ε β} {Q : β → Prop} (h : ∀ a, Ensures (f a) Q) (a : Option α) :
    Ensures (a.mapM f) fun b => ∀ c ∈ b.toList, Q c := by
  cases a with
  | none => exact .pure (List.forall_mem_nil _)
  | some a => exact (h a).map fun _ hb => by simpa using hb

end Ensures

end Except
