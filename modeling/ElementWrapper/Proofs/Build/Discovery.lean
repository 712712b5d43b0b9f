import ElementWrapper.Proofs.Build.Isolation
import ElementWrapper.Proofs.Files.Resolution

/-!
What a build finds. In a session whose directories give proper names to what they hold, every module
that is found is a file, and its route is one of those given with more names behind it
(`of_mem_sources`).
-/

namespace ElementWrapper

namespace FileTree

variable {tree : FileTree} {place : Place}

/-- Everything in the tree has a proper name. -/
def Named (tree : FileTree) : Prop := ∀ entry ∈ tree.entries, ∀ name ∈ entry.1, Path.IsName name

/-- What is listed in a tree of files is found by its place. -/
theorem get?_of_mem {entry : Entry} (mem : (place, entry) ∈ tree.entries) :
    tree.get? place = some entry := by
  have distinct := List.nodup_cons.1 tree.distinct
  have ne : place ≠ [] := fun same =>
    distinct.1 (same ▸ List.mem_map_of_mem (f := Prod.fst) mem)
  rw [get?, Entry.at?, if_neg ne]
  obtain ⟨before, after, split⟩ := List.append_of_mem mem
  refine List.lookup_eq_some_iff.2 ⟨before, after, split, fun other early => ?_⟩
  -- No earlier entry hides this one, since no place has two.
  have once := distinct.2
  rw [split, List.map_append, List.map_cons, List.nodup_middle, List.nodup_cons] at once
  refine bne_iff_ne.2 fun same => once.1 (List.mem_append_left _ ?_)
  exact List.mem_map.2 ⟨other, early, same.symm⟩

theorem mem_of_get? {entry : Entry} (h : tree.get? place = some entry) :
    place = [] ∨ (place, entry) ∈ tree.entries := by
  rw [get?, Entry.at?] at h
  split at h
  · next root => exact .inl root
  · obtain ⟨before, after, split, -⟩ := List.lookup_eq_some_iff.1 h
    exact .inr (split ▸ List.mem_append_right before List.mem_cons_self)

theorem Named.of_isSome (named : tree.Named) (stands : (tree.get? place).isSome) :
    ∀ name ∈ place, Path.IsName name := by
  obtain ⟨entry, h⟩ := Option.isSome_iff_exists.1 stands
  obtain rfl | mem := mem_of_get? h
  · exact nofun
  · exact named _ mem

/-- The files below a directory are those that a way leads to through directories which are
entered. -/
theorem mem_filesBelow {enters : Text → Bool} {directory way : Place} :
    way ∈ tree.filesBelow enters directory ↔
      (∃ bytes, (directory ++ way, Entry.file bytes) ∈ tree.entries) ∧ way.dropLast.all enters := by
  constructor
  · intro mem
    obtain ⟨⟨place, entry⟩, mem, found⟩ := List.mem_filterMap.1 mem
    dsimp only at found
    split at found
    · next below =>
      obtain ⟨kind, inside, searched⟩ := below
      obtain rfl := Option.some.inj found
      obtain ⟨way, rfl⟩ := List.isPrefixOf_iff_prefix.1 inside
      rw [List.drop_left] at searched ⊢
      cases entry with
      | directory => cases kind
      | file bytes => exact ⟨⟨bytes, mem⟩, searched⟩
    · cases found
  · rintro ⟨⟨bytes, mem⟩, searched⟩
    refine List.mem_filterMap.2 ⟨_, mem, ?_⟩
    dsimp only
    rw [List.drop_left, if_pos]
    exact ⟨rfl, List.isPrefixOf_iff_prefix.2 (List.prefix_append directory way), searched⟩

end FileTree

namespace Session

variable {session : Session} {route : Route}

/-- The directories of the session give proper names, and so do those on the way to its working
directory. -/
structure Named (session : Session) : Prop where
  files : session.files.Named
  working : ∀ name ∈ session.working, Path.IsName name

/-- What stands below a directory is found by its route with the way added. -/
theorem get?_of_below (named : session.Named) {directory way : Place} {entry : Entry}
    (located : session.locate route = .ok directory)
    (stands : session.files.get? (directory ++ way) = some entry) :
    session.get? { route with steps := route.steps ++ way } = some entry := by
  have names := named.files.of_isSome (Option.isSome_of_eq_some stands)
  have straight := FileTree.straight_of_isName fun name mem =>
    names name (List.mem_append_right directory mem)
  have onward := FileTree.follow_of_isSome straight (Option.isSome_of_eq_some stands)
  have found : session.locate { route with steps := route.steps ++ way } =
      .ok (directory ++ way) := by
    refine (FileTree.follow_append _ _).trans ?_
    exact (congrArg (· >>= _) located).trans onward
  rw [get?, found]
  exact stands

end Session

namespace Project

variable {project : Project} {session : Session} {routes : List Route} {route source : Route}

/-- What a search finds from one route: the file itself, or the selected files below a directory. -/
theorem modulesAt_eq (project : Project) (session : Session) (route : Route) :
    ((project.modulesAt route : SessionM (List Route)).run session).1 =
      match session.get? route with
      | some (.file _) => [route]
      | some .directory =>
        (match session.locate route with
          | .ok place => (session.files.filesBelow isSearched place).map fun way =>
            { route with steps := route.steps ++ way }
          | .error _ => []).filter fun file => project.selects file.name
      | none => [] := by
  rw [run_modulesAt]
  cases session.get? route with
  | none => rfl
  | some entry => cases entry <;> rfl

/-- What is found from a route is the file that it leads to, or a selected file below the directory
that it leads to. -/
theorem mem_modulesAt :
    source ∈ ((project.modulesAt route : SessionM (List Route)).run session).1 ↔
      (source = route ∧ ∃ bytes, session.get? route = some (.file bytes)) ∨
        session.get? route = some .directory ∧ ∃ place way, session.locate route = .ok place ∧
          way ∈ session.files.filesBelow isSearched place ∧ project.selects source.name ∧
          source = { route with steps := route.steps ++ way } := by
  rw [modulesAt_eq]
  cases stands : session.get? route with
  | none => simp
  | some entry =>
    cases entry with
    | file bytes => simp
    | directory =>
      obtain ⟨place, located, -⟩ := Session.exists_locate stands
      simp only [located, List.mem_filter, List.mem_map]
      constructor
      · rintro ⟨⟨way, below, rfl⟩, asks⟩
        exact .inr ⟨trivial, place, way, rfl, below, asks, rfl⟩
      · rintro (⟨-, _, ⟨⟩⟩ | ⟨-, _, way, ⟨⟩, below, asks, rfl⟩)
        exact ⟨⟨way, below, rfl⟩, asks⟩

/-- A module is found by a route to it, or by one to a directory that it stands below. -/
theorem of_mem_modulesAt (named : session.Named)
    (mem : source ∈ ((project.modulesAt route : SessionM (List Route)).run session).1) :
    (∃ bytes, session.get? source = some (.file bytes)) ∧
      ∃ way, source = { route with steps := route.steps ++ way } ∧
        ∀ name ∈ way, Path.IsName name := by
  obtain ⟨rfl, file⟩ | ⟨-, place, way, located, below, -, rfl⟩ := mem_modulesAt.1 mem
  · exact ⟨file, [], by rw [List.append_nil], nofun⟩
  · obtain ⟨⟨bytes, entry⟩, -⟩ := FileTree.mem_filesBelow.1 below
    refine ⟨⟨bytes, Session.get?_of_below named located (FileTree.get?_of_mem entry)⟩,
      way, rfl, fun name mem => ?_⟩
    exact named.files _ entry name (List.mem_append_right place mem)

/-- What a search from several routes finds is found from one of them, in a session that differs in
its records only. -/
theorem exists_of_mem_flatMapM (mem : source ∈
      ((routes.flatMapM project.modulesAt : SessionM (List Route)).run session).1) :
    ∃ route ∈ routes, ∃ before, session.OnlyLogs before ∧
      source ∈ ((project.modulesAt route : SessionM (List Route)).run before).1 := by
  induction routes generalizing session with
  | nil => cases mem
  | cons route routes ih =>
    rw [List.flatMapM_cons] at mem
    obtain here | later := List.mem_append.1 mem
    · exact ⟨route, List.mem_cons_self, session, .refl session, here⟩
    · obtain ⟨other, among, before, logs, found⟩ := ih later
      exact ⟨other, List.mem_cons_of_mem route among, before,
        (project.modulesAt_onlyLogs session route).trans logs, found⟩

/-- **What a build finds**: files, each by one of the routes given with proper names behind it. -/
theorem of_mem_sources (named : session.Named) (mem : source ∈ project.sources routes session) :
    (∃ bytes, session.get? source = some (.file bytes)) ∧
      ∃ route ∈ routes, ∃ way, source = { route with steps := route.steps ++ way } ∧
        ∀ name ∈ way, Path.IsName name := by
  have found : source ∈
      ((routes.flatMapM project.modulesAt : SessionM (List Route)).run session).1 :=
    List.mem_eraseDups.1 ((List.mergeSort_perm _ Route.le).mem_iff.1 mem)
  obtain ⟨route, among, before, logs, here⟩ := exists_of_mem_flatMapM found
  have still : before.Named := by
    obtain ⟨records, rfl⟩ := logs
    exact ⟨named.files, named.working⟩
  obtain ⟨⟨bytes, stands⟩, below⟩ := of_mem_modulesAt still here
  exact ⟨⟨bytes, logs.get? source ▸ stands⟩, route, among, below⟩

end Project

end ElementWrapper
