import ElementWrapper.Proofs.Module.NormalForm

/-!
The two ways to go through a module against each other. A walk takes parents before children and a
rebuilding takes children before parents; but identifiers and numbers have no subtrees, so that both
come to them in one order (`Node.run_rebuild_noting`). A renaming leaves every other node in its
place: a walk through the renamed tree meets the renamed nodes below their renamed parents
(`Node.visitsBelow_rename`), and their heads tell what a renaming does to each of them.
-/

namespace ElementWrapper

namespace Form

variable {σ α β γ : Type} {m : Type → Type} [Monad m]

/-- The name of an identifier or the spelling of a number; no other form has one. -/
def mention? : Form α → Option Text
  | identifier name => some name
  | number spelling => some spelling
  | _ => none

@[simp] theorem mention?_map (f : α → β) (form : Form α) :
    (form.map f).mention? = form.mention? := by
  cases form <;> rfl

@[simp] theorem typeName_map (f : α → β) (form : Form α) :
    (form.map f).typeName = form.typeName := by
  cases form <;> rfl

theorem children_of_mention? {form : Form α} {text : Text} (h : form.mention? = some text) :
    form.children = [] := by
  cases form <;> first | rfl | cases h

theorem traverse_of_mention? {form : Form α} {text : Text} (h : form.mention? = some text)
    (f : α → m α) : form.traverse f = pure form := by
  cases form <;> first | rfl | cases h

variable [LawfulMonad m]

theorem traverse_pure (f : α → β) (form : Form α) :
    form.traverse (fun child => (pure (f child) : m β)) = pure (form.map f) := by
  have option (a : Option α) : (a.mapM fun child => (pure (f child) : m β)) = pure (a.map f) := by
    cases a <;> simp
  cases form <;> simp [traverse, map, option]

/-- Whatever is made of the subtrees, the name or the number of the form is the same. -/
theorem traverse_bind_mention? (f : α → m β) (next : Option Text → Form β → m γ)
    (form : Form α) :
    (form.traverse f >>= fun result => next result.mention? result) =
      form.traverse f >>= next form.mention? := by
  cases form <;> simp [traverse, mention?]

/-- If the step for a subtree only adds a change of a state to what it did without one, then so
does the whole traversal, and the changes are made in the order of the subtrees. -/
theorem run_traverse {f : α → m β} {g : α → StateT σ m β} {note : α → σ → σ} {form : Form α}
    (h : ∀ child ∈ form.children, ∀ s, (g child).run s = (·, note child s) <$> f child) (s : σ) :
    (form.traverse g).run s =
      (·, form.children.foldl (fun s child => note child s) s) <$> form.traverse f := by
  have list {as : List α} (h : ∀ child ∈ as, ∀ s, (g child).run s = (·, note child s) <$> f child)
      (s : σ) :
      (as.mapM g).run s = (·, as.foldl (fun s child => note child s) s) <$> as.mapM f := by
    induction as generalizing s with
    | nil => simp
    | cons a as ih =>
      rw [List.forall_mem_cons] at h
      simp [List.mapM_cons, h.1, ih h.2]
  have option {a : Option α}
      (h : ∀ child ∈ a.toList, ∀ s, (g child).run s = (·, note child s) <$> f child) (s : σ) :
      (a.mapM g).run s = (·, a.toList.foldl (fun s child => note child s) s) <$> a.mapM f := by
    cases a with
    | none => simp
    | some a => simp [h a (by simp)]
  cases form <;>
    simp only [children, List.forall_mem_append, List.forall_mem_cons] at h <;>
    simp +contextual [traverse, children, list, option, h]

end Form

namespace Node

/-! ## The order of the calls -/

section Noting

variable {σ : Type} {m : Type → Type} [Monad m] [LawfulMonad m]

/-- A replacement that first takes a note of the node if it is an identifier or a number. -/
def noting (note : Node → σ → σ) (replace : Node → m Node) (node : Node) : StateT σ m Node := do
  if node.form.mention?.isSome then modify (note node)
  replace node

theorem run_noting (note : Node → σ → σ) (replace : Node → m Node) (node : Node) (s : σ) :
    (noting note replace node).run s =
      (·, if node.form.mention?.isSome then note node s else s) <$> replace node := by
  rw [noting]
  split <;> simp

/-- The identifiers and the numbers of a tree, in the order of a walk. -/
def mentions (node : Node) : List Node :=
  (node.visits.map Visit.node).filter (·.form.mention?.isSome)

/-- A node that mentions a name has no others below it to be visited. -/
theorem mentions_mk (location : Option Location) (comments : List Comment) (form : Form Node) :
    (mk location comments form).mentions =
      if form.mention?.isSome then [mk location comments form]
      else form.children.flatMap mentions := by
  have whole : (mk location comments form).form = form := rfl
  rw [mentions, map_node_visits, List.filter_cons, List.filter_flatMap, children, whole]
  cases mention : form.mention? with
  | none => rfl
  | some text =>
    rw [Form.children_of_mention? mention]
    rfl

/-- The notes of a rebuilding are those of a walk, whatever is put in the place of the nodes. -/
theorem run_rebuild_noting (note : Node → σ → σ) (replace : Node → m Node) (node : Node) (s : σ) :
    (node.rebuild (noting note replace)).run s =
      (·, node.mentions.foldl (fun s part => note part s) s) <$> node.rebuild replace := by
  induction node using Node.induction generalizing s with
  | step location comments form ih =>
    rw [rebuild_mk, rebuild_mk, mentions_mk]
    cases mention : form.mention? with
    | some text =>
      -- The node has no subtrees, and is handed on as it stands.
      rw [Form.traverse_of_mention? mention, Form.traverse_of_mention? mention]
      simp [run_noting, Node.form, mention]
    | none =>
      have below : (form.traverse (rebuild (noting note replace))).run s =
          (·, (form.children.flatMap mentions).foldl (fun s part => note part s) s) <$>
            form.traverse (rebuild replace) := by
        rw [Form.run_traverse ih, List.foldl_flatMap]
      -- With other subtrees the node is still neither an identifier nor a number.
      have silent (s : σ) :
          (form.traverse (rebuild replace) >>= fun form =>
            (noting note replace (mk location comments form)).run s) =
          form.traverse (rebuild replace) >>= fun form =>
            (·, s) <$> replace (mk location comments form) := by
        simp only [run_noting, Node.form]
        refine (Form.traverse_bind_mention? (rebuild replace) (fun mention form => (·,
          if mention.isSome then note (mk location comments form) s else s) <$>
            replace (mk location comments form)) form).trans ?_
        rw [mention]
        rfl
      rw [StateT.run_bind, below, bind_map_left, silent, map_bind]
      rfl

end Noting

/-! ## The renamed tree -/

variable (names : Text → Text)

/-- An identifier with its new name, or a string in the place of a number. -/
def replaced (node : Node) : Node :=
  match node.form with
  | .identifier name => identifier (names name)
  | .number spelling => string spelling
  | _ => node

theorem children_replaced (node : Node) : (node.replaced names).children = node.children := by
  obtain ⟨location, comments, form⟩ := node
  cases form <;> rfl

theorem renameStep_eq : renameStep names =
    noting (fun part log => part.form.mention?.getD [] :: log)
      (fun part => (pure (part.replaced names) : Id Node)) := by
  funext ⟨location, comments, form⟩
  cases form <;> rfl

/-- Renaming is rebuilding with the new names, together with the old names in the order of the
visits. -/
theorem rename_eq (node : Node) : node.rename names =
    (node.rebuild (m := Id) (replaced names),
      node.mentions.map fun part => part.form.mention?.getD []) := by
  have noted := run_rebuild_noting (m := Id) (fun part log => part.form.mention?.getD [] :: log)
    (replaced names) node []
  have log : node.mentions.foldl (fun log part => part.form.mention?.getD [] :: log) [] =
      (node.mentions.map fun part => part.form.mention?.getD []).reverse := by
    rw [List.foldl_flip_cons_eq_append, List.append_nil]
  rw [rename, renameStep_eq]
  refine (congrArg (fun run => (run.1, run.2.reverse)) noted).trans (congrArg (Prod.mk _) ?_)
  rw [log]
  exact List.reverse_reverse _

theorem rename_mk (location : Option Location) (comments : List Comment) (form : Form Node) :
    ((mk location comments form).rename names).1 =
      replaced names (mk location comments (form.map fun child => (child.rename names).1)) := by
  simp only [rename_eq]
  rw [rebuild_mk]
  exact congrArg (fun form => replaced names (mk location comments form))
    (Form.traverse_pure (m := Id) (rebuild (m := Id) (replaced names)) form)

theorem children_rename (node : Node) : (node.rename names).1.children =
    node.children.map fun child => (child.rename names).1 := by
  obtain ⟨location, comments, form⟩ := node
  rw [rename_mk, children_replaced]
  exact Form.children_map _ form

/-- A walk through a renamed tree meets the renamed nodes below their renamed parents. -/
theorem visitsBelow_rename (node : Node) (parent : Option Node) :
    (node.rename names).1.visitsBelow (parent.map fun parent => (parent.rename names).1) =
      (node.visitsBelow parent).map fun visit =>
        ⟨(visit.node.rename names).1, visit.parent.map fun parent => (parent.rename names).1⟩ := by
  induction node using Node.induction generalizing parent with
  | step location comments form ih =>
    rw [visitsBelow_eq, visitsBelow_eq, children_rename, List.flatMap_map, List.map_cons,
      List.map_flatMap]
    exact congrArg (List.cons _)
      (List.flatMap_congr fun child mem => ih child mem (some (mk location comments form)))

end Node

/-! ## What a walk shows -/

/-- A node without its subtrees; of them only the number and the order are left. -/
structure Head where
  location : Option Location
  comments : List Comment
  form : Form Unit
  deriving DecidableEq

namespace Head

/-- A fresh identifier with the new name in the place of an identifier, a fresh string in the place
of a number; any other head stays. -/
def renamed (names : Text → Text) (head : Head) : Head :=
  match head.form with
  | .identifier name => ⟨none, [], .identifier (names name)⟩
  | .number spelling => ⟨none, [], .string spelling none⟩
  | _ => head

/-- The type that stands in a trace after a renaming. -/
def retyped (typeName : String) : String :=
  if typeName = "NumericLiteral" then "StringLiteral" else typeName

theorem typeName_renamed (names : Text → Text) (head : Head) :
    (head.renamed names).form.typeName = retyped head.form.typeName := by
  obtain ⟨location, comments, form⟩ := head
  cases form <;> rfl

end Head

namespace Node

/-- The head of a node. -/
def head (node : Node) : Head :=
  ⟨node.location, node.comments, node.form.map fun _ => ()⟩

theorem typeName_head (node : Node) : node.head.form.typeName = node.typeName :=
  Form.typeName_map _ node.form

theorem head_replaced (names : Text → Text) (node : Node) :
    (node.replaced names).head = node.head.renamed names := by
  obtain ⟨location, comments, form⟩ := node
  cases form <;> rfl

theorem head_rename (names : Text → Text) (node : Node) :
    (node.rename names).1.head = node.head.renamed names := by
  obtain ⟨location, comments, form⟩ := node
  have same (f : Node → Node) : (mk location comments (form.map f)).head =
      (mk location comments form).head :=
    congrArg (Head.mk location comments) (Form.map_map f _ form)
  rw [rename_mk, head_replaced, same]

/-- What a walk shows of a tree: the head of each node, with the head of its parent. -/
def trace (node : Node) : List (Head × Option Head) :=
  node.visits.map fun visit => (visit.node.head, visit.parent.map head)

/-- The types of the nodes that a walk meets, with the types of their parents. -/
def typeTrace (node : Node) : List (String × Option String) :=
  node.visits.map fun visit => (visit.node.typeName, visit.parent.map typeName)

theorem typeTrace_eq (node : Node) : node.typeTrace =
    node.trace.map (Prod.map (·.form.typeName) (Option.map (·.form.typeName))) := by
  simp [typeTrace, trace, Function.comp_def, typeName_head]

theorem trace_rename (names : Text → Text) (node : Node) : (node.rename names).1.trace =
    node.trace.map (Prod.map (Head.renamed names) (Option.map (Head.renamed names))) := by
  have visits : (node.rename names).1.visits = _ := visitsBelow_rename names node none
  rw [trace, visits, trace, List.map_map, List.map_map]
  simp [Function.comp_def, head_rename, Node.visits]

/-- **The two ways through a tree agree.** Whatever a rebuilding puts in the place of the nodes, it
comes to the identifiers and the numbers once each, in the order in which a walk meets them. If
each identifier is replaced by a fresh one and each number by a fresh string, then a walk through
the result shows what it shows of the tree, with just the heads of those nodes replaced; of the
types only that of a number becomes that of a string. -/
theorem traversals_agree (node : Node) :
    (∀ {m : Type → Type} [Monad m] [LawfulMonad m] (replace : Node → m Node) (calls : List Node),
      (node.rebuild (noting (fun part calls => calls ++ [part]) replace)).run calls =
        (fun result => (result, calls ++ node.mentions)) <$> node.rebuild replace) ∧
    ∀ names : Text → Text,
      (node.rename names).2 = node.mentions.filterMap (·.form.mention?) ∧
      (node.rename names).1.trace =
        node.trace.map (Prod.map (Head.renamed names) (Option.map (Head.renamed names))) ∧
      (node.rename names).1.typeTrace =
        node.typeTrace.map (Prod.map Head.retyped (Option.map Head.retyped)) := by
  constructor
  · intro m _ _ replace calls
    have log : node.mentions.foldl (fun calls part => calls ++ [part]) calls =
        calls ++ node.mentions := by
      rw [List.foldl_append_eq_append, ← List.flatMap_def, List.flatMap_singleton']
    rw [run_rebuild_noting, log]
  · intro names
    refine ⟨?_, trace_rename names node, ?_⟩
    · rw [rename_eq]
      refine (List.filterMap_eq_map_iff_forall_eq_some.2 fun part mem => ?_).symm
      obtain ⟨text, mention⟩ := Option.isSome_iff_exists.1 (List.mem_filter.1 mem).2
      rw [mention, Option.getD_some]
    · rw [typeTrace_eq, trace_rename, typeTrace_eq, List.map_map, List.map_map]
      simp [Function.comp_def, Head.typeName_renamed]

/-- A condition and a call that are kept as their text, with a key and a value of an object. -/
def keptCondition : Node :=
  .of (.program [.of (.raw ("if_statement" : Text) ("if (a) b(c, \x7b c: 1 \x7d);" : Text)
    [.identifier "a", .mk (some ⟨1, 7⟩) [⟨true, "kept"⟩] (.call (.identifier "b")
      [.identifier "c",
        .of (.object [.of (.property (.identifier "c") (.of (.number "1")) false)])])])])

/-- A condition with a call and an object in it, renamed by one letter. -/
theorem traversals_agree_keptCondition :
    ((keptCondition.rebuild (noting (fun part calls => calls ++ [part]) some)).run []).map
        (fun run => run.2.filterMap (·.form.mention?)) =
          some (["a", "b", "c", "c", "1"] : List Text) ∧
      (keptCondition.rename fun name => name ++ ("_" : Text)).2 = ["a", "b", "c", "c", "1"] ∧
      (keptCondition.rename fun name => name ++ ("_" : Text)).1.typeTrace =
        [("Program", none), ("RawNode", some "Program"), ("Identifier", some "RawNode"),
          ("CallExpression", some "RawNode"), ("Identifier", some "CallExpression"),
          ("Identifier", some "CallExpression"), ("ObjectExpression", some "CallExpression"),
          ("ObjectProperty", some "ObjectExpression"), ("Identifier", some "ObjectProperty"),
          ("StringLiteral", some "ObjectProperty")] := by
  obtain ⟨calls, renames⟩ := traversals_agree keptCondition
  obtain ⟨log, -, types⟩ := renames fun name => name ++ ("_" : Text)
  refine ⟨?_, log.trans (by cbv), types.trans (by cbv)⟩
  rw [calls some []]
  cbv

end Node

end ElementWrapper
