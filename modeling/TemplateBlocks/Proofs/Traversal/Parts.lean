import TemplateBlocks.Proofs.Checks
import TemplateBlocks.Traversal.Basic

/-!
# The parts of a node

What `walk` visits, as data: `parts k x` lists the immediate parts of a node in the order in which
they are visited. `walk` is then known through its parts alone:

* `walk_rel`: a relation between actions passes from the parts of a node to the node;
* `walk_eq_self`: a visitor that keeps all parts keeps the node;
* `walk_parts`: the parts of a walked node are the visited parts of the node;
* `Everywhere P`: `P` holds of a node and of every node below it.
-/

namespace TemplateBlocks

/-- A node of some kind. -/
abbrev Node := (k : Kind) × k.Node

/-! ### Parts -/

/-- The mustache in a piece of a composed value, if there is one. -/
def ConcatPart.parts : ConcatPart → List Node
  | .text _ => []
  | .mustache m => [⟨.mustache, m⟩]

/-- The mustaches in the value of an attribute. -/
def AttrValue.parts : AttrValue → List Node
  | .text _ => []
  | .mustache m => [⟨.mustache, m⟩]
  | .concat c => c.parts.flatMap ConcatPart.parts

/-- The node that a statement is made of; texts and comments have none. -/
def Statement.parts : Statement → List Node
  | .mustache m => [⟨.mustache, m⟩]
  | .block b => [⟨.blockStatement, b⟩]
  | .element e => [⟨.element, e⟩]
  | .text _ => []
  | .mustacheComment _ => []
  | .comment _ => []

/-- The call that an expression is made of; paths and literals have none. -/
def Expr.parts : Expr → List Node
  | .sub s => [⟨.subExpression, s⟩]
  | .path _ => []
  | .string _ => []
  | .number _ => []
  | .boolean _ => []

/-- The positional and named arguments of a call. -/
def argumentParts (params : List Expr) (hash : Hash) : List Node :=
  params.map (⟨.expression, ·⟩) ++ [⟨.hash, hash⟩]

/-- The immediate parts of a node, in source order. -/
def parts : (k : Kind) → k.Node → List Node
  | .template, t => [⟨.statements, t.body⟩]
  | .block, b => [⟨.statements, b.body⟩]
  | .statements, ss => ss.map (⟨.statement, ·⟩)
  | .statement, s => s.parts
  | .element, e =>
    e.attributes.map (⟨.attribute, ·⟩) ++ (e.modifiers.map (⟨.modifier, ·⟩) ++
      [⟨.statements, e.children⟩])
  | .mustache, m => ⟨.expression, m.path⟩ :: argumentParts m.params m.hash
  | .blockStatement, b =>
    ⟨.expression, b.path⟩ :: (argumentParts b.params b.hash ++
      ⟨.block, b.program⟩ :: b.inverse.toList.map (⟨.block, ·⟩))
  | .attribute, a => a.value.parts
  | .modifier, m => argumentParts m.params m.hash
  | .expression, e => e.parts
  | .subExpression, s => argumentParts s.params s.hash
  | .hash, h => h.pairs.map (⟨.expression, ·.value⟩)

/-! ### Relations between actions -/

section Rel

variable {m n : Type → Type} [Monad m] [Monad n]

/-- A relation between the actions of two monads that passes from the steps of an action to the
whole of it. -/
structure ActionRel (m n : Type → Type) [Monad m] [Monad n] where
  rel : {α : Type} → m α → n α → Prop
  pure {α : Type} (a : α) : rel (pure a) (pure a)
  bind {α β : Type} {x : m α} {y : n α} {f : α → m β} {g : α → n β} :
    rel x y → (∀ a, rel (f a) (g a)) → rel (x >>= f) (y >>= g)

variable [LawfulMonad m] [LawfulMonad n] (R : ActionRel m n)

theorem ActionRel.mapM {α β : Type} {f : α → m β} {g : α → n β} (xs : List α)
    (h : ∀ x ∈ xs, R.rel (f x) (g x)) : R.rel (xs.mapM f) (xs.mapM g) := by
  induction xs with
  | nil => exact R.pure []
  | cons x xs ih =>
    rw [List.mapM_cons, List.mapM_cons]
    refine R.bind (h x (by simp)) fun b => ?_
    refine R.bind (ih fun y hy => h y (by simp [hy])) fun bs => ?_
    exact R.pure (b :: bs)

theorem ActionRel.mapM_option {α β : Type} {f : α → m β} {g : α → n β} (o : Option α)
    (h : ∀ x ∈ o, R.rel (f x) (g x)) : R.rel (o.mapM f) (o.mapM g) := by
  cases o with
  | none => exact R.pure none
  | some x =>
    simp only [Option.mapM_some, map_eq_pure_bind]
    exact R.bind (h x rfl) fun b => R.pure (some b)

variable {v : VisitorOver m} {w : VisitorOver n}

theorem walkValue_rel (a : AttrValue) (h : ∀ p ∈ a.parts, R.rel (v p.1 p.2) (w p.1 p.2)) :
    R.rel (walkValue v a) (walkValue w a) := by
  cases a with
  | text t => exact R.pure _
  | mustache m => exact R.bind (h ⟨.mustache, m⟩ (by simp [AttrValue.parts])) fun m => R.pure _
  | concat c =>
    refine R.bind (R.mapM c.parts fun p hp => ?_) fun parts => R.pure _
    cases p with
    | text t => exact R.pure _
    | mustache m =>
      have hm : (⟨.mustache, m⟩ : Node) ∈ (AttrValue.concat c).parts :=
        List.mem_flatMap.2 ⟨.mustache m, hp, by simp [ConcatPart.parts]⟩
      exact R.bind (h _ hm) fun m => R.pure _

/-- **Walking relates what visiting the parts relates.** -/
theorem walk_rel (k : Kind) (x : k.Node) (h : ∀ p ∈ parts k x, R.rel (v p.1 p.2) (w p.1 p.2)) :
    R.rel (walk v k x) (walk w k x) := by
  match k, x, h with
  | .template, x, h => exact R.bind (h ⟨.statements, x.body⟩ (by simp [parts])) fun _ => R.pure _
  | .block, x, h => exact R.bind (h ⟨.statements, x.body⟩ (by simp [parts])) fun _ => R.pure _
  | .statements, x, h =>
    refine R.mapM x fun s hs => h ⟨.statement, s⟩ ?_
    exact List.mem_map.2 ⟨s, hs, rfl⟩
  | .statement, x, h =>
    cases x with
    | mustache m =>
      exact R.bind (h ⟨.mustache, m⟩ (by simp [parts, Statement.parts])) fun _ => R.pure _
    | block b =>
      exact R.bind (h ⟨.blockStatement, b⟩ (by simp [parts, Statement.parts])) fun _ => R.pure _
    | element e =>
      exact R.bind (h ⟨.element, e⟩ (by simp [parts, Statement.parts])) fun _ => R.pure _
    | text t => exact R.pure _
    | mustacheComment c => exact R.pure _
    | comment c => exact R.pure _
  | .element, x, h =>
    refine R.bind (R.mapM x.attributes fun a ha => h ⟨.attribute, a⟩ ?_) fun _ => ?_
    · simp [parts, ha]
    refine R.bind (R.mapM x.modifiers fun a ha => h ⟨.modifier, a⟩ ?_) fun _ => ?_
    · simp [parts, ha]
    exact R.bind (h ⟨.statements, x.children⟩ (by simp [parts])) fun _ => R.pure _
  | .mustache, x, h =>
    refine R.bind (h ⟨.expression, x.path⟩ (by simp [parts])) fun _ => ?_
    refine R.bind (R.mapM x.params fun e he => h ⟨.expression, e⟩ ?_) fun _ => ?_
    · simp [parts, argumentParts, he]
    exact R.bind (h ⟨.hash, x.hash⟩ (by simp [parts, argumentParts])) fun _ => R.pure _
  | .blockStatement, x, h =>
    refine R.bind (h ⟨.expression, x.path⟩ (by simp [parts])) fun _ => ?_
    refine R.bind (R.mapM x.params fun e he => h ⟨.expression, e⟩ ?_) fun _ => ?_
    · simp [parts, argumentParts, he]
    refine R.bind (h ⟨.hash, x.hash⟩ (by simp [parts, argumentParts])) fun _ => ?_
    refine R.bind (h ⟨.block, x.program⟩ (by simp [parts])) fun _ => ?_
    refine R.bind (R.mapM_option x.inverse fun b hb => h ⟨.block, b⟩ ?_) fun _ => R.pure _
    simp [parts, Option.mem_def.1 hb]
  | .attribute, x, h => exact R.bind (walkValue_rel R x.value h) fun _ => R.pure _
  | .modifier, x, h =>
    refine R.bind (R.mapM x.params fun e he => h ⟨.expression, e⟩ ?_) fun _ => ?_
    · simp [parts, argumentParts, he]
    exact R.bind (h ⟨.hash, x.hash⟩ (by simp [parts, argumentParts])) fun _ => R.pure _
  | .expression, x, h =>
    cases x with
    | sub s => exact R.bind (h ⟨.subExpression, s⟩ (by simp [parts, Expr.parts])) fun _ => R.pure _
    | path p => exact R.pure _
    | string l => exact R.pure _
    | number l => exact R.pure _
    | boolean l => exact R.pure _
  | .subExpression, x, h =>
    refine R.bind (R.mapM x.params fun e he => h ⟨.expression, e⟩ ?_) fun _ => ?_
    · simp [parts, argumentParts, he]
    exact R.bind (h ⟨.hash, x.hash⟩ (by simp [parts, argumentParts])) fun _ => R.pure _
  | .hash, x, h =>
    refine R.bind (R.mapM x.pairs fun p hp => ?_) fun _ => R.pure _
    exact R.bind (h ⟨.expression, p.value⟩ (List.mem_map.2 ⟨p, hp, rfl⟩)) fun _ => R.pure _

/-- Equality of actions. -/
def ActionRel.eq (m : Type → Type) [Monad m] : ActionRel m m where
  rel x y := x = y
  pure _ := rfl
  bind h hf := by rw [h, funext hf]

theorem walk_congr {v w : VisitorOver m} (k : Kind) (x : k.Node)
    (h : ∀ p ∈ parts k x, v p.1 p.2 = w p.1 p.2) : walk v k x = walk w k x :=
  walk_rel (ActionRel.eq m) k x h

theorem mapM_eq_self {α : Type} {f : α → m α} (xs : List α) (h : ∀ x ∈ xs, f x = pure x) :
    xs.mapM f = pure xs := by
  induction xs with
  | nil => rfl
  | cons x xs ih =>
    rw [List.mapM_cons, h x (by simp), ih fun y hy => h y (by simp [hy])]
    simp

theorem walkValue_pure (a : AttrValue) : walkValue (m := m) (fun _ x => pure x) a = pure a := by
  cases a with
  | text t => rfl
  | mustache x => simp [walkValue]
  | concat c =>
    have hp : c.parts.mapM (walkPart (m := m) fun _ x => pure x) = pure c.parts :=
      mapM_eq_self c.parts fun p _ => by cases p <;> simp [walkPart]
    simp [walkValue, hp]

theorem walk_pure (k : Kind) (x : k.Node) : walk (m := m) (fun _ x => pure x) k x = pure x := by
  have hm {α : Type} (xs : List α) : xs.mapM (fun x => pure x : α → m α) = pure xs :=
    mapM_eq_self xs fun _ _ => rfl
  match k, x with
  | .template, x => simp [walk]
  | .block, ⟨_, _, _, _, _⟩ => simp [walk]
  | .statements, x => exact hm x
  | .statement, x => cases x <;> simp [walk, walkStatement]
  | .element, ⟨_, _, _, _, _, _, _, _, _⟩ => simp [walk, hm]
  | .mustache, x => simp [walk, hm]
  | .blockStatement, ⟨_, _, _, _, i, _, _⟩ => cases i <;> simp [walk, hm]
  | .attribute, x => simp [walk, walkValue_pure]
  | .modifier, x => simp [walk, hm]
  | .expression, x => cases x <;> simp [walk, walkExpr]
  | .subExpression, ⟨_, _, _, _, _⟩ => simp [walk, hm]
  | .hash, ⟨pairs, _⟩ =>
    have hp : pairs.mapM (walkPair (m := m) fun _ x => pure x) = pure pairs :=
      mapM_eq_self pairs fun ⟨_, _, _⟩ _ => by simp [walkPair]
    simp [walk, hp]

/-- **A visitor that keeps the parts of a node keeps the node.** -/
theorem walk_eq_self {v : VisitorOver m} (k : Kind) (x : k.Node)
    (h : ∀ p ∈ parts k x, v p.1 p.2 = pure p.2) : walk v k x = pure x := by
  rw [← walk_pure (m := m) k x]
  exact walk_congr k x h

end Rel

/-! ### What walking leaves -/

section Ok

variable {ε : Type}

/-- The visitor takes the node `p` to the node `q`. -/
inductive Visited (v : VisitorOver (Except ε)) : Node → Node → Prop
  | intro {k : Kind} {x y : k.Node} : v k x = .ok y → Visited v ⟨k, x⟩ ⟨k, y⟩

variable {v : VisitorOver (Except ε)}

theorem visited_map {k : Kind} {xs ys : List k.Node} (h : xs.mapM (v k) = .ok ys) :
    List.Forall₂ (Visited v) (xs.map (⟨k, ·⟩)) (ys.map (⟨k, ·⟩)) := by
  rw [List.forall₂_map_left_iff, List.forall₂_map_right_iff]
  exact (mapM_forall₂ h).imp fun _ _ hxy => .intro hxy

theorem visited_arguments {params params' : List Expr} {hash hash' : Hash}
    (hp : params.mapM (v .expression) = .ok params') (hh : v .hash hash = .ok hash') :
    List.Forall₂ (Visited v) (argumentParts params hash) (argumentParts params' hash') :=
  List.rel_append (visited_map (k := .expression) hp) (.cons (.intro hh) .nil)

theorem visited_option {k : Kind} {o o' : Option k.Node} (h : o.mapM (v k) = .ok o') :
    List.Forall₂ (Visited v) (o.toList.map (⟨k, ·⟩)) (o'.toList.map (⟨k, ·⟩)) := by
  cases o with
  | none =>
    cases h
    exact .nil
  | some x =>
    rw [Option.mapM_some] at h
    obtain ⟨y, hy, rfl⟩ := map_eq_ok.1 h
    exact .cons (.intro hy) .nil

theorem walkValue_parts {a a' : AttrValue} (h : walkValue v a = .ok a') :
    List.Forall₂ (Visited v) a.parts a'.parts := by
  cases a with
  | text t =>
    cases h
    exact .nil
  | mustache m =>
    obtain ⟨m', hm, h⟩ := bind_eq_ok.1 h
    cases h
    exact .cons (.intro hm) .nil
  | concat c =>
    obtain ⟨ps, hps, h⟩ := bind_eq_ok.1 h
    cases h
    refine List.rel_flatMap (mapM_forall₂ hps) fun p q hpq => ?_
    cases p with
    | text t =>
      cases hpq
      exact .nil
    | mustache m =>
      obtain ⟨m', hm, hpq⟩ := bind_eq_ok.1 hpq
      cases hpq
      exact .cons (.intro hm) .nil

/-- **The parts of a walked node are the visited parts of the node**, in their order. -/
theorem walk_parts {k : Kind} {x y : k.Node} (h : walk v k x = .ok y) :
    List.Forall₂ (Visited v) (parts k x) (parts k y) := by
  match k, x, y, h with
  | .template, x, y, h =>
    obtain ⟨body, hb, h⟩ := bind_eq_ok.1 h
    cases h
    exact .cons (.intro hb) .nil
  | .block, x, y, h =>
    obtain ⟨body, hb, h⟩ := bind_eq_ok.1 h
    cases h
    exact .cons (.intro hb) .nil
  | .statements, x, y, h => exact visited_map (k := .statement) h
  | .statement, x, y, h =>
    cases x with
    | mustache m =>
      obtain ⟨m', hm, h⟩ := bind_eq_ok.1 h
      cases h
      exact .cons (.intro hm) .nil
    | block b =>
      obtain ⟨b', hb, h⟩ := bind_eq_ok.1 h
      cases h
      exact .cons (.intro hb) .nil
    | element e =>
      obtain ⟨e', he, h⟩ := bind_eq_ok.1 h
      cases h
      exact .cons (.intro he) .nil
    | text t =>
      cases h
      exact .nil
    | mustacheComment c =>
      cases h
      exact .nil
    | comment c =>
      cases h
      exact .nil
  | .element, x, y, h =>
    obtain ⟨as, has, h⟩ := bind_eq_ok.1 h
    obtain ⟨ms, hms, h⟩ := bind_eq_ok.1 h
    obtain ⟨cs, hcs, h⟩ := bind_eq_ok.1 h
    cases h
    exact List.rel_append (visited_map (k := .attribute) has)
      (List.rel_append (visited_map (k := .modifier) hms) (.cons (.intro hcs) .nil))
  | .mustache, x, y, h =>
    obtain ⟨path, hpath, h⟩ := bind_eq_ok.1 h
    obtain ⟨ps, hps, h⟩ := bind_eq_ok.1 h
    obtain ⟨hash, hhash, h⟩ := bind_eq_ok.1 h
    cases h
    exact .cons (.intro hpath) (visited_arguments hps hhash)
  | .blockStatement, x, y, h =>
    obtain ⟨path, hpath, h⟩ := bind_eq_ok.1 h
    obtain ⟨ps, hps, h⟩ := bind_eq_ok.1 h
    obtain ⟨hash, hhash, h⟩ := bind_eq_ok.1 h
    obtain ⟨program, hprogram, h⟩ := bind_eq_ok.1 h
    obtain ⟨inverse, hinverse, h⟩ := bind_eq_ok.1 h
    cases h
    exact .cons (.intro hpath) (List.rel_append (visited_arguments hps hhash)
      (.cons (.intro hprogram) (visited_option (k := .block) hinverse)))
  | .attribute, x, y, h =>
    obtain ⟨value, hvalue, h⟩ := bind_eq_ok.1 h
    cases h
    exact walkValue_parts hvalue
  | .modifier, x, y, h =>
    obtain ⟨ps, hps, h⟩ := bind_eq_ok.1 h
    obtain ⟨hash, hhash, h⟩ := bind_eq_ok.1 h
    cases h
    exact visited_arguments hps hhash
  | .expression, x, y, h =>
    cases x with
    | sub s =>
      obtain ⟨s', hs, h⟩ := bind_eq_ok.1 h
      cases h
      exact .cons (.intro hs) .nil
    | path p =>
      cases h
      exact .nil
    | string l =>
      cases h
      exact .nil
    | number l =>
      cases h
      exact .nil
    | boolean l =>
      cases h
      exact .nil
  | .subExpression, x, y, h =>
    obtain ⟨ps, hps, h⟩ := bind_eq_ok.1 h
    obtain ⟨hash, hhash, h⟩ := bind_eq_ok.1 h
    cases h
    exact visited_arguments hps hhash
  | .hash, x, y, h =>
    obtain ⟨ps, hps, h⟩ := bind_eq_ok.1 h
    cases h
    refine List.rel_map (R := fun p q => walkPair v p = .ok q) (fun p q hpq => ?_)
      (mapM_forall₂ hps)
    obtain ⟨value, hvalue, hpq⟩ := bind_eq_ok.1 hpq
    cases hpq
    exact .intro hvalue

theorem exists_visited {ps qs : List Node} (h : List.Forall₂ (Visited v) ps qs) {q : Node}
    (hq : q ∈ qs) : ∃ p ∈ ps, Visited v p q := by
  induction h with
  | nil => simp at hq
  | cons hpq _ ih =>
    rcases List.mem_cons.1 hq with rfl | hq
    · exact ⟨_, List.mem_cons_self .., hpq⟩
    · obtain ⟨p, hp, hv⟩ := ih hq
      exact ⟨p, List.mem_cons_of_mem _ hp, hv⟩

/-- Every part of a walked node is what the visitor makes of a part of the node. -/
theorem visited_of_mem_parts {k : Kind} {x y : k.Node} (h : walk v k x = .ok y) {k' : Kind}
    {y' : k'.Node} (hy : ⟨k', y'⟩ ∈ parts k y) : ∃ x', ⟨k', x'⟩ ∈ parts k x ∧ v k' x' = .ok y' := by
  obtain ⟨p, hp, hv⟩ := exists_visited (walk_parts h) hy
  cases hv with
  | intro hx => exact ⟨_, hp, hx⟩

theorem exists_visited_of_mem {ps qs : List Node} (h : List.Forall₂ (Visited v) ps qs) {p : Node}
    (hp : p ∈ ps) : ∃ q ∈ qs, Visited v p q := by
  induction h with
  | nil => simp at hp
  | cons hpq _ ih =>
    rcases List.mem_cons.1 hp with rfl | hp
    · exact ⟨_, List.mem_cons_self .., hpq⟩
    · obtain ⟨q, hq, hv⟩ := ih hp
      exact ⟨q, List.mem_cons_of_mem _ hq, hv⟩

/-- Every part of a node is visited, and what the visitor makes of it is a part of the walked
node. -/
theorem exists_of_mem_parts {k : Kind} {x y : k.Node} (h : walk v k x = .ok y) {k' : Kind}
    {x' : k'.Node} (hx : ⟨k', x'⟩ ∈ parts k x) : ∃ y', ⟨k', y'⟩ ∈ parts k y ∧ v k' x' = .ok y' := by
  obtain ⟨q, hq, hv⟩ := exists_visited_of_mem (walk_parts h) hx
  cases hv with
  | intro hy => exact ⟨_, hq, hy⟩

end Ok

/-! ### Walked elements, mustaches and calls -/

section Walked

variable {ε : Type} {v : VisitorOver (Except ε)}

theorem walk_element_eq_ok {e e' : Element} : walk v .element e = .ok e' ↔
    ∃ attributes modifiers children, e.attributes.mapM (v .attribute) = .ok attributes ∧
      e.modifiers.mapM (v .modifier) = .ok modifiers ∧ v .statements e.children = .ok children ∧
      { e with attributes, modifiers, children } = e' := by
  simp [walk, bind_eq_ok]

theorem walk_mustache_eq_ok {m m' : Mustache} : walk v .mustache m = .ok m' ↔
    ∃ path params hash, v .expression m.path = .ok path ∧
      m.params.mapM (v .expression) = .ok params ∧ v .hash m.hash = .ok hash ∧
      { m with path, params, hash } = m' := by
  simp [walk, bind_eq_ok]

theorem walk_subExpression_eq_ok {c c' : SubExpr} : walk v .subExpression c = .ok c' ↔
    ∃ params hash, c.params.mapM (v .expression) = .ok params ∧ v .hash c.hash = .ok hash ∧
      { c with params, hash } = c' := by
  simp [walk, bind_eq_ok]

end Walked

/-! ### Everywhere in a tree -/

/-- `P` holds of a node and of every node below it. -/
inductive Everywhere (P : (k : Kind) → k.Node → Prop) : (k : Kind) → k.Node → Prop
  | intro {k : Kind} {x : k.Node} : P k x → (∀ p ∈ parts k x, Everywhere P p.1 p.2) →
      Everywhere P k x

theorem everywhere_iff {P : (k : Kind) → k.Node → Prop} {k : Kind} {x : k.Node} :
    Everywhere P k x ↔ P k x ∧ ∀ p ∈ parts k x, Everywhere P p.1 p.2 :=
  ⟨fun ⟨h, hp⟩ => ⟨h, hp⟩, fun ⟨h, hp⟩ => .intro h hp⟩

end TemplateBlocks
