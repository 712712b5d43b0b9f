import ElementWrapper.Proofs.Module.Evaluation
import ElementWrapper.Proofs.Module.Lowering

/-!
Lowering keeps the meaning of expressions. `textsOf` is what a list of parts comes to when each is
evaluated and converted before the next one; a template and the chain of calls in its place both
come to it. A call of `concat` first evaluates all of its arguments and then converts them all,
which is the same for arguments that are `InStep`: the chain has at most one argument to a call that
is no literal. `Chain.Reads` is the invariant of the chain.
-/

namespace ElementWrapper

variable {m : Type → Type} [Monad m] {ω : Type}

namespace Environment

section

variable (env : Environment m ω)

/-- The value of an expression. -/
def valueOf (node : Node) : m (Value ω) := env.evaluate node >>= env.value

/-- The texts of a list of parts, where a part is converted before the next is evaluated. -/
def textsOf (parts : List Node) : m (List Text) :=
  parts.mapM fun part => env.textOf (env.evaluate part)

/-- A node that is evaluated and converted without an effect. -/
def Inert (node : Node) : Prop :=
  ∃ value text, env.valueOf node = pure value ∧ env.toText value = pure text

/-- It does not matter whether all parts are evaluated before the first is converted. -/
def InStep (parts : List Node) : Prop :=
  (parts.mapM env.valueOf >>= (·.mapM env.toText)) = env.textsOf parts

end

/-- The string that some texts make together. -/
def joined (texts : List Text) : Reference ω := .value (.string texts.flatten)

variable {env : Environment m ω}

theorem textOf_evaluate (node : Node) :
    env.textOf (env.evaluate node) = env.valueOf node >>= env.toText := rfl

/-- Neither the place of a node nor the comments before it have a meaning. -/
theorem evaluate_congr {node other : Node} (h : node.form = other.form) :
    env.evaluate node = env.evaluate other := by
  obtain ⟨_, _, form⟩ := node
  obtain ⟨_, _, _⟩ := other
  obtain rfl : form = _ := h
  simp only [evaluate_mk]

theorem evaluate_of_string {node : Node} (h : node.form = .string text spelling) :
    env.evaluate node = pure (.value (.string text)) := by
  obtain ⟨_, _, form⟩ := node
  obtain rfl : form = _ := h
  rw [evaluate_mk]
  rfl

variable [LawfulMonad m]

theorem textsOf_append (parts more : List Node) :
    env.textsOf (parts ++ more) =
      (do return (← env.textsOf parts) ++ (← env.textsOf more)) := by
  rw [textsOf, List.mapM_append]
  rfl

theorem textsOf_singleton (part : Node) :
    env.textsOf [part] = (fun text => [text]) <$> env.textOf (env.evaluate part) := by
  simp [textsOf]

/-- Inert parts have values and texts that no effect stands before. -/
theorem inert_list {parts : List Node} (h : ∀ part ∈ parts, env.Inert part) :
    ∃ values texts, parts.mapM env.valueOf = pure values ∧ values.mapM env.toText = pure texts ∧
      env.textsOf parts = pure texts := by
  induction parts with
  | nil => exact ⟨[], [], rfl, rfl, rfl⟩
  | cons part parts ih =>
    obtain ⟨⟨value, text, hv, ht⟩, hparts⟩ := List.forall_mem_cons.1 h
    obtain ⟨values, texts, hvs, hts, hall⟩ := ih hparts
    refine ⟨value :: values, text :: texts, by simp [hv, hvs], by simp [ht, hts], ?_⟩
    have : env.textsOf ([part] ++ parts) = _ := textsOf_append [part] parts
    rw [textsOf_singleton, textOf_evaluate, hv, pure_bind, ht, hall] at this
    simpa using this

theorem InStep.snoc_inert {parts : List Node} {part : Node} (h : env.InStep parts)
    (hp : env.Inert part) : env.InStep (parts ++ [part]) := by
  obtain ⟨value, text, hv, ht⟩ := hp
  rw [InStep, textsOf_append, ← h, textsOf_singleton, textOf_evaluate, hv]
  simp [ht, hv]

theorem InStep.snoc_of_inert {parts : List Node} (h : ∀ part ∈ parts, env.Inert part)
    (part : Node) : env.InStep (parts ++ [part]) := by
  obtain ⟨values, texts, hvs, hts, hall⟩ := inert_list h
  rw [InStep, textsOf_append, hall, textsOf_singleton, textOf_evaluate]
  simp [hvs, hts]

end Environment

namespace Lowering

open Environment

variable {env : Environment m ω}

/-! ## The chain of calls -/

/-- A chain reads as a list of parts: its running call has arguments that are in step, all of them
inert while the call may still take a part that is no literal, and what the call is made on comes to
the parts before them. -/
inductive Chain.Reads (env : Environment m ω) (chain : Chain) : List Node → Prop where
  | head : chain.node.form = .string text spelling → chain.available = true →
    Reads env chain [chain.node]
  | call {target : Node} {before arguments : List Node} :
    chain.node.form =
      .call (.of (.member target (.identifier ("concat" : Text)) false)) arguments →
    env.evaluate target = joined <$> env.textsOf before → env.InStep arguments →
    (chain.available = true → ∀ argument ∈ arguments, env.Inert argument) →
    Reads env chain (before ++ arguments)

variable [LawfulMonad m]

/-- A call of `concat` on what comes to some texts comes to these and those of its arguments,
provided that the arguments may be evaluated ahead of the conversions. -/
theorem evaluate_concat {target : Node} {before arguments : List Node}
    (ht : env.evaluate target = joined <$> env.textsOf before) (h : env.InStep arguments) :
    env.evaluate
        (.of (.call (.of (.member target (.identifier ("concat" : Text)) false)) arguments)) =
      joined <$> env.textsOf (before ++ arguments) := by
  have callee : env.evaluate (.of (.member target (.identifier ("concat" : Text)) false)) =
      (fun texts => .property (.string texts.flatten) (.string ("concat" : Text))) <$>
        env.textsOf before := by
    simp [Node.of, evaluate_mk, Form.map, Environment.step, ht, joined, Environment.value,
      plainKey, Node.identifier, Node.form]
  have values : env.valueOf = fun node => env.evaluate node >>= env.value := rfl
  rw [textsOf_append, ← h, Node.of, evaluate_mk]
  simp [Form.map, Environment.step, callee, Environment.value, invoke, joined, values,
    Function.comp_def]

theorem Chain.Reads.evaluate {chain : Chain} {done : List Node} (h : chain.Reads env done) :
    env.evaluate chain.node = joined <$> env.textsOf done := by
  cases h with
  | head form _ =>
    rw [textsOf_singleton, evaluate_of_string form]
    simp [textOf, Environment.value, toText, joined]
  | call form target inStep _ =>
    rw [← evaluate_concat target inStep]
    exact evaluate_congr form

/-- The invariant of the fold. One more part is an argument of the running call or opens a new one
on it; it joins only if it is inert, or if all arguments before it are, and in both cases they stay
in step. -/
theorem Chain.Reads.push {chain : Chain} {done : List Node} (h : chain.Reads env done)
    {part : Node} (hp : isLiteral part = true → env.Inert part) :
    (chain.push part).Reads env (done ++ [part]) := by
  have whole := h.evaluate
  have single : env.InStep [part] := .snoc_of_inert (List.forall_mem_nil _) part
  have fresh : (chain.available && isLiteral part) = true → ∀ argument ∈ [part],
      env.Inert argument := by
    intro literal _ mem
    rw [List.mem_singleton.1 mem]
    exact hp (Bool.and_eq_true_iff.1 literal).2
  obtain ⟨⟨location, comments, form⟩, available⟩ := chain
  cases h with
  | head hf _ =>
    obtain rfl : form = _ := hf
    exact .call rfl whole single fresh
  | @call target before arguments hf ht inStep inert =>
    obtain rfl : form = _ := hf
    -- A part joins the running call unless it may have an effect after another that may.
    cases joins : isLiteral part || available with
    | false =>
      rw [Chain.push, joins]
      exact .call rfl whole single fresh
    | true =>
      rw [Chain.push, joins, List.append_assoc]
      refine .call rfl ht ?_ ?_
      · cases literal : isLiteral part with
        | true => exact inStep.snoc_inert (hp literal)
        | false =>
          rw [literal, Bool.false_or] at joins
          exact .snoc_of_inert (inert joins) part
      · intro still
        obtain ⟨was, literal⟩ := Bool.and_eq_true_iff.1 still
        intro argument mem
        obtain mem | mem := List.mem_append.1 mem
        · exact inert was argument mem
        · rw [List.mem_singleton.1 mem]
          exact hp literal

theorem Chain.Reads.foldl {parts : List Node}
    (hp : ∀ part ∈ parts, isLiteral part = true → env.Inert part) {chain : Chain}
    {done : List Node} (h : chain.Reads env done) :
    (parts.foldl Chain.push chain).Reads env (done ++ parts) := by
  induction parts generalizing chain done with
  | nil => simpa using h
  | cons part parts ih =>
    obtain ⟨hpart, hparts⟩ := List.forall_mem_cons.1 hp
    have := ih hparts (h.push hpart)
    rwa [List.append_assoc] at this

/-- **The chain means its parts**: evaluated in order, each converted before the next. -/
theorem evaluate_ofParts {parts : List Node}
    (hp : ∀ part ∈ parts, isLiteral part = true → env.Inert part) :
    env.evaluate (ofParts parts) = joined <$> env.textsOf parts := by
  have empty : env.evaluate (Node.string []) = pure (.value (.string [])) := evaluate_of_string rfl
  cases parts with
  | nil =>
    rw [ofParts, empty]
    simp [textsOf, joined]
  | cons head rest =>
    simp only [ofParts]
    split
    · next h =>
      obtain ⟨text, spelling, hf⟩ := exists_string_of_stringValue? h
      obtain ⟨_, hrest⟩ := List.forall_mem_cons.1 hp
      have start : Chain.Reads env ⟨head, true⟩ [head] := .head hf rfl
      exact (start.foldl hrest).evaluate
    · have start : Chain.Reads env ⟨Node.string [], true⟩ [Node.string []] := .head rfl rfl
      rw [concatenation, (start.foldl hp).evaluate, textsOf_append, textsOf_singleton, empty]
      simp [textOf, Environment.value, toText, joined]
      rfl

/-! ## Templates -/

/-- A literal is evaluated without an effect, and so is its conversion. -/
theorem inert_of_isLiteral {node : Node} (h : isLiteral node = true)
    (ne : node.form.isTemplate = false) : env.Inert node := by
  obtain ⟨location, comments, form⟩ := node
  have inert {value : Value ω} {text : Text} (hs : env.step (form.map fun node =>
      (node, env.evaluate node)) = pure (.value value)) (ht : env.toText value = pure text) :
      env.Inert (.mk location comments form) := by
    refine ⟨value, text, ?_, ht⟩
    rw [valueOf, evaluate_mk, hs, pure_bind]
    rfl
  cases form with
  | string | number | boolean | null => exact inert rfl rfl
  | template quasis expressions => cases ne
  | _ => cases h

theorem flatten_textsOf_append (parts more : List Node) :
    List.flatten <$> env.textsOf (parts ++ more) =
      (do return (← List.flatten <$> env.textsOf parts) ++
        (← List.flatten <$> env.textsOf more)) := by
  simp [textsOf_append]

theorem textsOf_piece (text : Text) :
    List.flatten <$> env.textsOf (if text.isEmpty then [] else [Node.string text]) = pure text := by
  have h : env.evaluate (Node.string text) = pure (.value (.string text)) := evaluate_of_string rfl
  cases text with
  | nil => simp [textsOf]
  | cons c text => simp [textsOf_singleton, h, textOf, Environment.value, toText]

theorem textsOf_substitution (expression : Node) :
    List.flatten <$> env.textsOf (if !isEmptyString expression then [expression] else []) =
      env.textOf (env.evaluate expression) := by
  cases h : isEmptyString expression with
  | false => simp [textsOf_singleton]
  | true =>
    obtain ⟨_, hf⟩ := eq_empty_of_isEmptyString h
    simp [textsOf, evaluate_of_string hf, textOf, Environment.value, toText]

/-- The parts of a template, converted in order, make its text. -/
theorem flatten_textsOf_parts {quasis expressions result : List Node}
    (h : parts quasis expressions = .ok result) :
    List.flatten <$> env.textsOf result =
      env.interleave (quasis.map piece) (expressions.map env.evaluate) := by
  induction quasis generalizing expressions result with
  | nil =>
    obtain rfl := Except.ok.inj h
    simp [textsOf, interleave]
  | cons quasi quasis ih =>
    simp only [parts, Except.bind_eq_ok, Except.pure_eq_ok] at h
    obtain ⟨cooked, hc, rest, hr, rfl⟩ := h
    have hpiece : piece quasi = cooked := by rw [piece, hc]; rfl
    rw [List.map_cons, interleave, ← List.map_tail, ← ih hr, hpiece, flatten_textsOf_append,
      flatten_textsOf_append, textsOf_piece]
    cases expressions with
    | nil => simp [textsOf]
    | cons expression expressions =>
      have : _ = env.textOf _ := textsOf_substitution expression
      simp only [List.head?_cons, Option.toList_some, List.filter_cons, List.filter_nil, this]
      simp

/-! ## Trees -/

section

variable {location : Option Location} {comments : List Comment}

/-- One template. Its chain reads as the parts of the template, so that it comes to the texts of the
pieces and of the expressions, in this order, as the template does. -/
theorem evaluate_of_lower_template {quasis expressions : List Node} {result : Node}
    (h : lower (.mk location comments (.template quasis expressions)) = .ok result)
    (meaning : ∀ child ∈ expressions, env.evaluate (lowered child) = env.evaluate child) :
    env.evaluate result = env.evaluate (.mk location comments (.template quasis expressions)) := by
  have lowers := lower_children h
  obtain ⟨pieces, hp, rfl⟩ := lowerTemplate_template.1 ((lower_mk lowers).symm.trans h)
  have inert : ∀ part ∈ pieces, isLiteral part = true → env.Inert part := by
    intro part mem literal
    apply inert_of_isLiteral literal
    obtain ⟨_, rfl⟩ | mem := mem_parts hp part mem
    · rfl
    · obtain ⟨expression, he, rfl⟩ := List.mem_map.1 mem
      exact ne_template_of_lower (lowers expression (List.mem_append_right quasis he))
  have source : (quasis.map lowered).map piece = quasis.map piece := by
    rw [List.map_map]
    apply List.map_congr_left
    intro quasi hq
    have := quasiSource_of_lower (lowers quasi (List.mem_append_left expressions hq))
    simp only [Function.comp_apply, piece, this]
  have meanings : (expressions.map lowered).map env.evaluate = expressions.map env.evaluate := by
    rw [List.map_map]
    exact List.map_congr_left meaning
  calc env.evaluate (.mk location comments (ofParts pieces).form)
    _ = env.evaluate (ofParts pieces) := evaluate_congr rfl
    _ = (fun text => .value (.string text)) <$> List.flatten <$> env.textsOf pieces := by
      rw [evaluate_ofParts inert, Functor.map_map]
      rfl
    _ = (fun text => .value (.string text)) <$>
          env.interleave (quasis.map piece) (expressions.map env.evaluate) := by
      rw [flatten_textsOf_parts hp, source, meanings]
    _ = _ := by
      rw [evaluate_mk]
      simp [Form.map, Environment.step, Function.comp_def]

omit [LawfulMonad m] in
theorem evaluate_lowered_of_ne {form : Form Node}
    (ne : form.isTemplate = false)
    (lowers : ∀ child ∈ form.children, lower child = .ok (lowered child)) :
    env.evaluate (lowered (.mk location comments form)) =
      env.step (form.map fun child => (lowered child, env.evaluate (lowered child))) := by
  rw [lowered_of_ne ne lowers, evaluate_mk, Form.map_map]
  rfl

theorem lowered_of_isPlainKey {node : Node} (h : IsPlainKey node) : lowered node = node := by
  obtain ⟨_, _, form⟩ := node
  cases form with
  | identifier | string | number => exact lowered_leaf rfl rfl
  | _ => cases h

end

/-- Lowering keeps what an expression, or an entry of an object, comes to. -/
theorem evaluate_of_lower {node result : Node} (h : IsExpression node ∨ IsEntry node)
    (hl : lower node = .ok result) : env.evaluate result = env.evaluate node := by
  induction node using Node.induction generalizing result with
  | step location comments form ih =>
    have lowers := lower_children hl
    have meaning {child : Node} (mem : child ∈ form.children)
        (h : IsExpression child ∨ IsEntry child) :
        env.evaluate (lowered child) = env.evaluate child := ih child mem h (lowers child mem)
    -- Only a template changes its form; any other form steps as before on what its subtrees mean.
    obtain ⟨quasis, expressions, rfl⟩ | ne := form.template_or_ne
    · obtain h | h := h
      · cases h with
        | template _ _ he =>
          exact evaluate_of_lower_template hl fun child mem =>
            meaning (List.mem_append_right _ mem) (.inl (he child mem))
      · cases h
    have meanings {nodes : List Node} (h : ∀ child ∈ nodes, IsExpression child ∨ IsEntry child)
        (children : ∀ child ∈ nodes, child ∈ form.children) :
        (nodes.map fun child => (lowered child, env.evaluate (lowered child))).map (·.2) =
          (nodes.map fun child => (child, env.evaluate child)).map (·.2) := by
      simp only [List.map_map]
      exact List.map_congr_left fun child mem => meaning (children child mem) (h child mem)
    obtain rfl := lowered_eq hl
    rw [evaluate_lowered_of_ne ne lowers, evaluate_mk]
    obtain h | h := h
    · cases h with
      | identifier | string | number | boolean | null | raw => rfl
      | template => cases ne
      | member ht hn =>
        simp only [Form.map, Environment.step, meaning (.head _) (.inl ht),
          lowered_of_isPlainKey hn]
      | subscript ht hi =>
        simp only [Form.map, Environment.step, meaning (.head _) (.inl ht),
          meaning (.tail _ (.head _)) (.inl hi)]
        rfl
      | call hc ha =>
        simp only [Form.map, Environment.step, meaning (.head _) (.inl hc),
          meanings (fun child mem => .inl (ha child mem)) (fun _ => .tail _)]
      | assignment hleft hright =>
        simp only [Form.map, Environment.step, meaning (.head _) (.inl hleft),
          meaning (.tail _ (.head _)) (.inl hright)]
      | object hp =>
        simp only [Form.map, Environment.step,
          meanings (fun child mem => .inr (hp child mem)) (fun _ => id)]
    · cases h with
      | plain hk hv =>
        simp only [Form.map, Environment.step, lowered_of_isPlainKey hk,
          meaning (.tail _ (.head _)) (.inl hv)]
      | computed hk hv =>
        simp only [Form.map, Environment.step, meaning (.head _) (.inl hk),
          meaning (.tail _ (.head _)) (.inl hv)]
        rfl
      | raw => rfl

/-- **Lowering preserves meaning.** An expression whose templates can all be cooked is lowered to
one with the same value and the same effects in the same order, whatever its open parts mean. -/
theorem lower_preserves_meaning {node : Node} (h : IsExpression node) (cooks : Cooks node) :
    ∃ result, lower node = .ok result ∧
      ∀ (m : Type → Type) [Monad m] [LawfulMonad m] (ω : Type) (env : Environment m ω),
        env.evaluate result = env.evaluate node :=
  ⟨lowered node, lower_of_cooks cooks, fun _ _ _ _ _ =>
    evaluate_of_lower (.inl h) (lower_of_cooks cooks)⟩

/-- Variables that are worth their own names; each reading and each conversion of one is noted, the
last first. -/
def noting : Environment (StateM (List (String × Text))) Text where
  numeral spelling := spelling
  raw _ text := return .other text
  lookup name := do
    modify (("read", name) :: ·)
    return .other name
  get _ _ := return .undefined
  resolve _ := return .undefined
  assign _ _ := return
  update _ _ _ := return .undefined
  call _ _ _ := return .undefined
  convert
    | .other name => do
      modify (("text", name) :: ·)
      return name
    | _ => return []
  toKey value := return value
  create := return .undefined
  define _ _ := return

/-- A template inside a template. -/
def nestedTemplate : Node :=
  let quasi (source : Text) (tail : Bool) : Node := .of (.quasi source tail)
  .of (.template [quasi [] false, quasi ("-" : Text) false, quasi [] true]
    [.identifier ("x" : Text),
      .of (.template [quasi ("a" : Text) false, quasi [] true] [.identifier ("y" : Text)])])

/-- A template in a template, in an environment that notes every effect. -/
theorem lower_nestedTemplate_meaning :
    IsExpression nestedTemplate ∧ Cooks nestedTemplate ∧
      ∃ result, lower nestedTemplate = .ok result ∧
        (noting.evaluate result).run [] = (.value (.string ("x-ay" : Text)),
          [("text", ("y" : Text)), ("read", ("y" : Text)), ("text", ("x" : Text)),
            ("read", ("x" : Text))]) := by
  have leaf {form : Form Node} (h : ∃ text, Literal.cook form.quasiSource = .ok text)
      (hc : form.children = []) : Cooks (.of form) := .mk h (by simp [hc])
  have none : ∃ text, Literal.cook [] = .ok text := ⟨[], by simp [Literal.cook]⟩
  have one (c : Char) : ∃ text, Literal.cook [.scalar c] = .ok text :=
    ⟨[.scalar c], by simp [Literal.cook]⟩
  have inner : IsExpression (.of (.template [.of (.quasi ("a" : Text) false), .of (.quasi [] true)]
      [.identifier ("y" : Text)])) :=
    .template (by simp [IsQuasi, Node.of, Node.form]) rfl (by simpa using .identifier)
  have expression : IsExpression nestedTemplate :=
    .template (by simp [IsQuasi, Node.of, Node.form]) rfl
      (List.forall_mem_cons.2 ⟨.identifier, by simpa using inner⟩)
  have cooks : Cooks nestedTemplate := by
    refine .mk none ?_
    simp only [Form.children, List.cons_append, List.nil_append, List.forall_mem_cons]
    refine ⟨leaf none rfl, leaf (one '-') rfl, leaf none rfl, leaf none rfl, .mk none ?_,
      List.forall_mem_nil _⟩
    simp only [Form.children, List.cons_append, List.nil_append, List.forall_mem_cons]
    exact ⟨leaf (one 'a') rfl, leaf none rfl, leaf none rfl, List.forall_mem_nil _⟩
  obtain ⟨result, hr, meaning⟩ := lower_preserves_meaning expression cooks
  refine ⟨expression, cooks, result, hr, ?_⟩
  rw [meaning]
  cbv

end Lowering

end ElementWrapper
