import ElementWrapper.Proofs.Build.Discovery
import ElementWrapper.Proofs.Files.Order
import ElementWrapper.Proofs.Table

/-!
Which modules a build finds, and in which order. A listed directory is walked: `Walks` says which
folders the walk enters, from one folder to the next, and `FindsAt` which files are modules then.
Those are the ones that are found (`mem_modulesAt_iff`), each of them once and in the order of
routes, so that nothing else about the list of routes matters (`sources_exact`).
-/

namespace ElementWrapper

/-- A walk enters a directory with this name. -/
def IsWalked (name : Text) : Prop :=
  name ≠ "node_modules" ∧ name ≠ "__pycache__" ∧ ¬ ("." : Text) <+: name

instance (name : Text) : Decidable (IsWalked name) :=
  inferInstanceAs
    (Decidable (name ≠ "node_modules" ∧ name ≠ "__pycache__" ∧ ¬ ("." : Text) <+: name))

theorem isSearched_iff (name : Text) : isSearched name ↔ IsWalked name := by
  have dotted : ("." : Text) <+: name ↔ name.head? = some (.scalar '.') := by
    cases name with
    | nil => simp [Text.ofString, Text.ofChars]
    | cons c name => simp [Text.ofString, Text.ofChars, List.cons_prefix_cons, eq_comm]
  simp [isSearched, IsWalked, foreignDirectories, dotted, and_assoc]

theorem IsWalked.straight {steps : List Text} (h : ∀ name ∈ steps, IsWalked name) :
    FileTree.Straight steps :=
  ⟨fun mem => (h _ mem).2.2 (by decide), fun mem => (h _ mem).2.2 (by decide)⟩

/-- A step that leads to a file leads down. -/
theorem FileTree.next_of_file {tree : FileTree} {place : Place} {name : Text} {bytes : List UInt8}
    (around : tree.get? place = some .directory)
    (stands : tree.get? (next place name) = some (.file bytes)) :
    next place name = place ++ [name] := by
  rw [next] at stands ⊢
  split at stands
  · -- The directory above is no file.
    have above : tree.get? place.dropLast = some .directory := by
      cases place using List.reverseRecOn with
      | nil => exact around
      | append_singleton place last =>
        rw [List.dropLast_concat]
        exact get?_eq_directory (Option.isSome_of_eq_some around)
    rw [above] at stands
    cases stands
  · next up =>
    rw [if_neg up]
    split at stands
    · rw [around] at stands
      cases stands
    · next here => rw [if_neg here]

namespace Session

variable {session : Session} {directory folder : Route}

/-- The route leads to a file. -/
def IsFile (session : Session) (route : Route) : Prop :=
  ∃ bytes, session.get? route = some (.file bytes)

/-- The walk of a directory enters a folder: the directory itself, or a folder in one that it has
entered. -/
inductive Walks (session : Session) (directory : Route) : Route → Prop
  | start (stands : session.get? directory = some .directory) : Walks session directory directory
  | enter {folder : Route} {name : Text} (around : Walks session directory folder)
    (walked : IsWalked name) (stands : session.get? (folder.step name) = some .directory) :
    Walks session directory (folder.step name)

namespace Walks

theorem stands (h : session.Walks directory folder) : session.get? folder = some .directory := by
  cases h <;> assumption

theorem trans {inner : Route} (h : session.Walks directory folder)
    (further : session.Walks folder inner) : session.Walks directory inner := by
  induction further with
  | start => exact h
  | enter _ walked stands ih => exact .enter ih walked stands

/-- What a walk enters is the directory with names behind it that are walked. -/
theorem exists_way (h : session.Walks directory folder) :
    session.get? directory = some .directory ∧
      ∃ way, folder = { directory with steps := directory.steps ++ way } ∧
        ∀ name ∈ way, IsWalked name := by
  induction h with
  | start stands => exact ⟨stands, [], by rw [List.append_nil], nofun⟩
  | @enter _ name _ walked _ ih =>
    obtain ⟨stands, way, rfl, names⟩ := ih
    refine ⟨stands, way ++ [name], by rw [Route.step, List.append_assoc], ?_⟩
    exact List.forall_mem_append.2 ⟨names, List.forall_mem_singleton.2 walked⟩

/-- Whatever stands below a directory is in a folder that the walk enters, unless a name on the way
is passed over. -/
theorem of_way (named : session.Named) {place way : Place}
    (located : session.locate directory = .ok place)
    (stands : session.files.get? (place ++ way) = some .directory)
    (names : ∀ name ∈ way, IsWalked name) :
    session.Walks directory { directory with steps := directory.steps ++ way } := by
  induction way using List.reverseRecOn with
  | nil =>
    rw [List.append_nil] at stands ⊢
    exact .start (by rw [get?, located]; exact stands)
  | append_singleton way name ih =>
    obtain ⟨earlier, walked⟩ := List.forall_mem_append.1 names
    have here := get?_of_below named located stands
    rw [← List.append_assoc] at stands here ⊢
    exact .enter (ih (FileTree.get?_eq_directory (Option.isSome_of_eq_some stands)) earlier)
      (List.forall_mem_singleton.1 walked) here

end Walks

end Session

namespace Project

variable {project : Project} {session : Session} {routes others : List Route}
  {route source : Route}

/-- The project asks for files with this name. -/
def Asks (project : Project) (name : Text) : Prop :=
  (∃ glob ∈ project.included, (Glob.read glob).accepts name) ∧
    ∀ glob ∈ project.excluded, ¬ (Glob.read glob).accepts name

theorem selects_iff (project : Project) (name : Text) :
    project.selects name ↔ project.Asks name := by
  simp [selects, Asks]

/-- A file is a module of what a route leads to: it is the file itself, or a file with a name that
the project asks for in a folder that the walk enters. -/
inductive FindsAt (project : Project) (session : Session) (route : Route) : Route → Prop
  | listed (file : session.IsFile route) : FindsAt project session route route
  | walked {folder : Route} {name : Text} (walks : session.Walks route folder)
    (asks : project.Asks name) (file : session.IsFile (folder.step name)) :
    FindsAt project session route (folder.step name)

/-- A step from a folder that leads to a file leads to an entry of the folder. -/
theorem mem_entries_of_step {place way : Place} {name : Text} {bytes : List UInt8}
    (located : session.locate route = .ok place) (straight : FileTree.Straight way)
    (stands : session.get? { route with steps := route.steps ++ (way ++ [name]) } =
      some (.file bytes)) :
    (place ++ (way ++ [name]), .file bytes) ∈ session.files.entries := by
  obtain ⟨target, found, stands⟩ := Session.exists_locate stands
  rw [Session.locate] at located
  rw [Session.locate, FileTree.follow_append] at found
  obtain ⟨start, begins, onward⟩ := Except.bind_eq_ok.1 found
  obtain rfl : place = start := Except.ok.inj (located.symm.trans begins)
  obtain ⟨around, followed, holds, rfl⟩ := FileTree.follow_concat_eq_ok.1 onward
  obtain rfl := FileTree.follow_of_straight straight followed
  have down := FileTree.next_of_file holds stands
  rw [down, List.append_assoc] at stands
  exact (FileTree.mem_of_get? stands).resolve_left (by simp)

/-- A file that the search below a directory comes to is in a folder that the walk enters. No name
on the way to it is a step that leads back, so the way is followed name by name. -/
theorem FindsAt.of_below (named : session.Named) {place way : Place}
    (directory : session.get? route = some .directory) (located : session.locate route = .ok place)
    (below : way ∈ session.files.filesBelow isSearched place)
    (asks : project.Asks ({ route with steps := route.steps ++ way } : Route).name) :
    project.FindsAt session route { route with steps := route.steps ++ way } := by
  obtain ⟨⟨bytes, entry⟩, walked⟩ := FileTree.mem_filesBelow.1 below
  have there := FileTree.get?_of_mem entry
  cases way using List.reverseRecOn with
  | nil =>
    obtain ⟨_, found, holds⟩ := Session.exists_locate directory
    obtain rfl := Except.ok.inj (located.symm.trans found)
    rw [List.append_nil, holds] at there
    cases there
  | append_singleton way name =>
    rw [List.dropLast_concat, List.all_eq_true] at walked
    have file := Session.get?_of_below named located there
    have around := FileTree.get?_eq_directory (Option.isSome_of_eq_some
      (List.append_assoc place way [name] ▸ there))
    have walks := Session.Walks.of_way named located around fun name mem =>
      (isSearched_iff name).1 (walked name mem)
    rw [← List.append_assoc] at file asks ⊢
    exact .walked walks (by simpa [Route.name] using asks) ⟨bytes, file⟩

/-- The search below a directory comes to the files in the folders that the walk enters. -/
theorem exists_below_of_walks {folder : Route} {name : Text} (walks : session.Walks route folder)
    (file : session.IsFile (folder.step name)) :
    ∃ place way, session.locate route = .ok place ∧
      way ∈ session.files.filesBelow isSearched place ∧
      folder.step name = { route with steps := route.steps ++ way } := by
  obtain ⟨directory, way, rfl, names⟩ := walks.exists_way
  obtain ⟨place, located, -⟩ := Session.exists_locate directory
  obtain ⟨bytes, stands⟩ := file
  rw [Route.step, List.append_assoc] at stands ⊢
  have mem := mem_entries_of_step located (IsWalked.straight names) stands
  refine ⟨place, _, located, FileTree.mem_filesBelow.2 ⟨⟨bytes, mem⟩, ?_⟩, rfl⟩
  rw [List.dropLast_concat, List.all_eq_true]
  exact fun name mem => (isSearched_iff name).2 (names name mem)

/-- What is found from a route: the search and `FindsAt` name the same files. -/
theorem mem_modulesAt_iff (named : session.Named) :
    source ∈ ((project.modulesAt route : SessionM (List Route)).run session).1 ↔
      project.FindsAt session route source := by
  rw [mem_modulesAt]
  constructor
  · rintro (⟨rfl, file⟩ | ⟨directory, place, way, located, below, asks, rfl⟩)
    · exact .listed file
    · exact .of_below named directory located below ((project.selects_iff _).1 asks)
  · rintro (file | ⟨walks, asks, file⟩)
    · exact .inl ⟨rfl, file⟩
    · obtain ⟨place, way, located, below, same⟩ := exists_below_of_walks walks file
      refine .inr ⟨walks.exists_way.1, place, way, located, below, ?_, same⟩
      simpa [Route.name, Route.step] using (project.selects_iff _).2 asks

/-! ## All routes -/

/-- Which modules a route leads to does not depend on what was said before. -/
theorem modulesAt_of_onlyLogs {next : Session} (logs : session.OnlyLogs next) :
    ((project.modulesAt route : SessionM (List Route)).run next).1 =
      ((project.modulesAt route : SessionM (List Route)).run session).1 := by
  obtain ⟨_, rfl⟩ := logs
  rw [modulesAt_eq, modulesAt_eq]
  rfl

/-- The searches from several routes do not get in each other's way, since each leaves the files
alone. -/
theorem flatMapM_modulesAt (project : Project) (session : Session) (routes : List Route) :
    ((routes.flatMapM project.modulesAt : SessionM (List Route)).run session).1 =
      routes.flatMap fun route =>
        ((project.modulesAt route : SessionM (List Route)).run session).1 := by
  -- The session moves on with what is said about a route that leads nowhere.
  suffices later : ∀ next, session.OnlyLogs next →
      ((routes.flatMapM project.modulesAt : SessionM (List Route)).run next).1 =
        routes.flatMap fun route =>
          ((project.modulesAt route : SessionM (List Route)).run session).1 from
    later session (.refl session)
  induction routes with
  | nil => exact fun _ _ => rfl
  | cons route routes ih =>
    intro next logs
    rw [List.flatMapM_cons, List.flatMap_cons, ← modulesAt_of_onlyLogs logs,
      ← ih _ (logs.trans (project.modulesAt_onlyLogs next route))]
    rfl

/-- A file is a module of what routes lead to. -/
def Finds (project : Project) (session : Session) (routes : List Route) (source : Route) : Prop :=
  ∃ route ∈ routes, project.FindsAt session route source

theorem mem_sources_iff (named : session.Named) :
    source ∈ project.sources routes session ↔ project.Finds session routes source := by
  have sorted := List.mergeSort_perm
    ((routes.flatMapM project.modulesAt : SessionM (List Route)).run session).1.eraseDups Route.le
  refine (sorted.mem_iff.trans List.mem_eraseDups).trans ?_
  rw [flatMapM_modulesAt, List.mem_flatMap]
  exact exists_congr fun route => and_congr_right fun _ => mem_modulesAt_iff named

theorem isProper_of_mem_sources (named : session.Named)
    (proper : ∀ route ∈ routes, route.IsProper) (mem : source ∈ project.sources routes session) :
    source.IsProper := by
  obtain ⟨-, route, among, way, rfl, names⟩ := of_mem_sources named mem
  exact ⟨(proper route among).root, List.forall_mem_append.2
    ⟨(proper route among).steps, fun name mem => (names name mem).2.1⟩⟩

theorem sources_pairwise (named : session.Named) (proper : ∀ route ∈ routes, route.IsProper) :
    (project.sources routes session).Pairwise Route.Before := by
  refine Route.pairwise_before (fun source => isProper_of_mem_sources named proper) ?_ ?_
  · exact (List.mergeSort_perm _ Route.le).nodup_iff.2 (Table.nodup_eraseDups _)
  · have total (a b : Route) : (a.le b || b.le a) = true := Bool.or_eq_true_iff.2 (Route.total a b)
    exact @List.pairwise_mergeSort Route Route.le (fun _ _ _ => Route.trans) total _

/-- Routes to folders that are walked anyway add no modules. -/
theorem finds_iff_of_walks (all : ∀ route ∈ routes, route ∈ others)
    (known : ∀ route ∈ others,
      route ∈ routes ∨ ∃ directory ∈ routes, session.Walks directory route) :
    project.Finds session others source ↔ project.Finds session routes source := by
  constructor
  · rintro ⟨route, among, found⟩
    obtain listed | ⟨directory, listed, walks⟩ := known route among
    · exact ⟨route, listed, found⟩
    · refine ⟨directory, listed, ?_⟩
      cases found with
      | listed file =>
        obtain ⟨bytes, stands⟩ := file
        rw [walks.stands] at stands
        cases stands
      | walked further asks file => exact .walked (walks.trans further) asks file
  · exact fun ⟨route, among, found⟩ => ⟨route, all route among, found⟩

/-- **Discovery is exact, and the order of paths does not matter**. The modules that are found come
one before the other in the order of routes. They are the listed files, and the files with names
that the project asks for in the folders that the walk of a listed directory enters. So they stay
the same if the paths are given in another order or more than once, and if folders are listed that
are walked anyway. -/
theorem sources_exact (project : Project) {session : Session} (named : session.Named)
    (paths : List Text) :
    let routes := paths.map Route.ofText
    let found := project.sources routes session
    found.Pairwise Route.Before ∧
    (∀ source, source ∈ found ↔
      source ∈ routes ∧ session.IsFile source ∨
      ∃ directory ∈ routes, ∃ folder name, session.Walks directory folder ∧
        source = folder.step name ∧ session.IsFile source ∧ project.Asks name) ∧
    ∀ others : List Text, (∀ path ∈ paths, Route.ofText path ∈ others.map Route.ofText) →
      (∀ other ∈ others, Route.ofText other ∈ routes ∨
        ∃ directory ∈ routes, session.Walks directory (Route.ofText other)) →
      project.sources (others.map Route.ofText) session = found := by
  intro routes found
  have proper (paths : List Text) : ∀ route ∈ paths.map Route.ofText, route.IsProper :=
    List.forall_mem_map.2 fun path _ => Route.isProper_ofText path
  refine ⟨sources_pairwise named (proper paths), fun source => ?_, fun others all known => ?_⟩
  · rw [mem_sources_iff named]
    constructor
    · rintro ⟨route, among, file | ⟨walks, asks, file⟩⟩
      · exact .inl ⟨among, file⟩
      · exact .inr ⟨route, among, _, _, walks, rfl, file, asks⟩
    · rintro (⟨among, file⟩ | ⟨route, among, folder, name, walks, rfl, file, asks⟩)
      · exact ⟨source, among, .listed file⟩
      · exact ⟨route, among, .walked walks asks file⟩
  · refine Route.eq_of_pairwise_before (sources_pairwise named (proper others))
      (sources_pairwise named (proper paths)) fun source => ?_
    rw [mem_sources_iff named, mem_sources_iff named]
    exact finds_iff_of_walks (List.forall_mem_map.2 all) (List.forall_mem_map.2 known)

/-- A module in a directory, one in a folder of it, and one in a folder that is passed over. -/
def nested : Session where
  files := ((do
    let tree ← FileTree.empty.makeDirectory ["src"]
    let tree ← tree.makeDirectory ["src", "lib"]
    let tree ← tree.makeDirectory ["src", ".cache"]
    let tree ← tree.write ["src", ".cache", "c.ts"] []
    let tree ← tree.write ["src", "lib", "b.ts"] []
    tree.write ["src", "a.ts"] []).toOption).getD .empty

/-- A folder that is walked anyway adds nothing, nor does the directory if it is listed twice. -/
theorem sources_nested :
    let project : Project := { root := {}, wrapper := {} }
    nested.Named ∧ nested.Walks (.ofText "src") (.ofText "src/lib") ∧
    project.sources [.ofText "src/lib", .ofText "src", .ofText "src"] nested =
      [.ofText "src/a.ts", .ofText "src/lib/b.ts"] := by
  intro project
  have named : nested.Named := by
    have names : nested.files.entries.all fun entry => entry.1.all fun name =>
        decide (Path.IsName name) := by decide +kernel
    refine ⟨fun entry mem name here => ?_, nofun⟩
    exact of_decide_eq_true (List.all_eq_true.1 (List.all_eq_true.1 names entry mem) name here)
  have folder : Route.ofText "src/lib" = (Route.ofText "src").step "lib" := by decide +kernel
  have start : nested.Walks (.ofText "src") (.ofText "src") := .start (by decide +kernel)
  have walks : nested.Walks (.ofText "src") (.ofText "src/lib") := by
    rw [folder]
    exact .enter start (by decide +kernel) (by decide +kernel)
  obtain ⟨-, -, same⟩ := sources_exact project named ["src"]
  have once : project.sources [.ofText "src"] nested =
      [.ofText "src/a.ts", .ofText "src/lib/b.ts"] :=
    sources_eq (by decide +kernel) (by decide +kernel)
  exact ⟨named, walks, (same ["src/lib", "src", "src"] (by simp) (by simp [walks])).trans once⟩

end Project

end ElementWrapper
