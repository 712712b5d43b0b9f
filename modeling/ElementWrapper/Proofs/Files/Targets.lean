import ElementWrapper.Proofs.Files.Making

/-!
Targets. The steps of a route name a place, its target, whatever stands on the way to it: if the
route leads anywhere at all, then there (`target_of_locate`). So targets can be compared before a
run that makes directories, which may make a route lead to its target that led nowhere before. The
directories that such a run makes are targets of beginnings of the route (`makeDirectories_along`).
-/

namespace ElementWrapper

namespace FileTree

variable {tree : FileTree} {place : Place}

/-- A way is followed in two stages. -/
theorem follow_append (steps more : List Text) :
    tree.follow place (steps ++ more) = tree.follow place steps >>= (tree.follow · more) := by
  induction steps generalizing place with
  | nil => rfl
  | cons step steps ih =>
    simp only [List.cons_append, follow]
    cases tree.get? place with
    | none => rfl
    | some entry =>
      cases entry with
      | file => rfl
      | directory => exact ih

theorem follow_eq_foldl {steps : List Text} {target : Place}
    (h : tree.follow place steps = .ok target) : target = steps.foldl next place := by
  induction steps using List.reverseRecOn generalizing target with
  | nil => exact (Except.ok.inj h).symm
  | append_singleton steps step ih =>
    obtain ⟨around, found, -, rfl⟩ := follow_concat_eq_ok.1 h
    rw [List.foldl_append, ← ih found]
    rfl

theorem foldl_next_of_straight {steps : List Text} (straight : Straight steps) (place : Place) :
    steps.foldl next place = place ++ steps := by
  induction steps using List.reverseRecOn with
  | nil => rw [List.append_nil]; rfl
  | append_singleton steps step ih =>
    obtain ⟨first, last⟩ := straight_concat.1 straight
    rw [List.foldl_append, ih first, List.foldl_cons, List.foldl_nil, next_of_straight last,
      List.append_assoc]

end FileTree

namespace Session

variable {session : Session} {route : Route}

/-- The place that the steps of a route name, whether or not it leads there. -/
def target (session : Session) (route : Route) : Place :=
  route.steps.foldl FileTree.next (session.origin route)

theorem target_of_locate {place : Place} (h : session.locate route = .ok place) :
    place = session.target route :=
  FileTree.follow_eq_foldl h

theorem exists_get?_target {entry : Entry} (h : session.get? route = some entry) :
    session.locate route = .ok (session.target route) ∧
      session.files.get? (session.target route) = some entry := by
  obtain ⟨place, located, stands⟩ := exists_locate h
  obtain rfl := target_of_locate located
  exact ⟨located, stands⟩

/-- A beginning of the route names the place. -/
def OnWay (session : Session) (route : Route) (place : Place) : Prop :=
  ∃ steps, steps <+: route.steps ∧ session.target { route with steps } = place

theorem onWay_target (session : Session) (route : Route) :
    session.OnWay route (session.target route) :=
  ⟨route.steps, List.prefix_refl _, rfl⟩

theorem OnWay.of_parent {place : Place} (h : session.OnWay route.parent place) :
    session.OnWay route place := by
  obtain ⟨steps, initial, names⟩ := h
  exact ⟨steps, initial.trans (List.dropLast_prefix _), names⟩

/-- A run that makes directories has changed nothing but what is on the way. -/
def MakesAlong (session : Session) (route : Route) (final : Session) : Prop :=
  ∀ place, final.files.get? place = session.files.get? place ∨ session.OnWay route place

/-- A first try changes at most the place of the directory, which is on the way. -/
theorem MakesAlong.of_tried {rest : Except FileError Unit × Session}
    (h : session.MakesAlong route rest.2) :
    session.MakesAlong route (match session.locate route >>= session.files.makeDirectory with
      | .ok files => (.ok (), { session with files })
      | .error .missing => rest
      | .error fault =>
        (if session.get? route = some .directory then .ok () else .error ⟨fault, route⟩,
          session) : Except FileError Unit × Session).2 := by
  cases tried : session.locate route >>= session.files.makeDirectory with
  | ok files =>
    obtain ⟨place, located, made⟩ := Except.bind_eq_ok.1 tried
    obtain rfl := target_of_locate located
    obtain ⟨-, -, others⟩ := FileTree.makeDirectory_eq_ok made
    intro other
    by_cases same : other = session.target route
    · exact .inr (same ▸ session.onWay_target route)
    · exact .inl (others other same)
  | error fault =>
    cases fault with
    | missing => exact h
    | present | notDirectory | isDirectory | other => exact fun _ => .inl rfl

/-- The way to the parent is part of the way, so that what is made for the parent is on it. -/
theorem makeMissing_along (session : Session) (more : Nat) (route : Route) :
    session.MakesAlong route
      (session.run (makeMissing more route : ExceptT FileError SessionM Unit)).2 := by
  have once (session : Session) (route : Route) : session.MakesAlong route
      (session.run (makeMissing 0 route : ExceptT FileError SessionM Unit)).2 := by
    rw [run_makeMissing_zero]
    exact .of_tried fun _ => .inl rfl
  induction more generalizing route with
  | zero => exact once session route
  | succ more ih =>
    rw [run_makeMissing_succ]
    refine .of_tried ?_
    have makes := makeMissing_makes session more route.parent
    have around := ih route.parent
    rcases made : session.run (makeMissing more route.parent : ExceptT FileError SessionM Unit) with
      ⟨e | _, next⟩ <;> rw [made] at around makes
    · exact fun place => (around place).imp_right OnWay.of_parent
    · obtain ⟨files, rfl, -⟩ := makes.grows
      intro place
      obtain kept | onWay := once { session with files } route place
      · exact (around place).imp kept.trans OnWay.of_parent
      · exact .inr onWay

/-- Directories are made on the way to a directory only. -/
theorem makeDirectories_along (session : Session) (route : Route) :
    session.MakesAlong route
      (session.run (makeDirectories route : ExceptT FileError SessionM Unit)).2 :=
  makeMissing_along session route.steps.length route

end Session

end ElementWrapper
