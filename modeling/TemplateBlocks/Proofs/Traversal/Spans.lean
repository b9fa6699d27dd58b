import TemplateBlocks.Proofs.Traversal.Preorder

/-!
# The spans of a node

Every node carries a span, and so do some leaves that are not visited: texts, comments, paths,
literals and named arguments. `spans k x` lists all of them. `Located S k x` says that all of them
are in `S`; it is known kind by kind, and a walk keeps the spans of the node that it goes into
(`ownSpans_walked`).
-/

namespace TemplateBlocks

/-! ### Spans -/

/-- The span of a text in a composed value. -/
def ConcatPart.ownSpans : ConcatPart → List Span
  | .text t => [t.loc]
  | .mustache _ => []

/-- The spans in the value of an attribute, but for its mustaches. -/
def AttrValue.ownSpans : AttrValue → List Span
  | .text t => [t.loc]
  | .mustache _ => []
  | .concat c => c.loc :: c.parts.flatMap ConcatPart.ownSpans

/-- The span of a text or a comment; other statements are known by their node. -/
def Statement.ownSpans : Statement → List Span
  | .mustache _ => []
  | .block _ => []
  | .element _ => []
  | .text t => [t.loc]
  | .mustacheComment c => [c.loc]
  | .comment c => [c.loc]

/-- The span of a path or a literal; a call is known by its node. -/
def Expr.ownSpans : Expr → List Span
  | .sub _ => []
  | .path p => [p.loc]
  | .string l => [l.loc]
  | .number l => [l.loc]
  | .boolean l => [l.loc]

/-- The spans at a node that no part of it has. -/
def ownSpans : (k : Kind) → k.Node → List Span
  | .template, t => [t.loc]
  | .block, b => [b.loc]
  | .statements, _ => []
  | .statement, s => s.ownSpans
  | .element, e => e.loc :: e.comments.map Comment.loc
  | .mustache, m => [m.loc]
  | .blockStatement, b => [b.loc]
  | .attribute, a => a.loc :: a.value.ownSpans
  | .modifier, m => [m.loc, m.path.loc]
  | .expression, e => e.ownSpans
  | .subExpression, c => [c.loc, c.path.loc]
  | .hash, h => h.loc :: h.pairs.map HashPair.loc

/-- All spans in a node, in source order. -/
def spans (k : Kind) (x : k.Node) : List Span := gathered ownSpans k x

/-- All spans in a template, in source order. -/
def Template.spans (t : Template) : List Span := TemplateBlocks.spans .template t

/-! ### Walks -/

section Walked

variable {ε : Type} {v : VisitorOver (Except ε)}

theorem ConcatPart.ownSpans_walked {p q : ConcatPart} (h : walkPart v p = .ok q) :
    q.ownSpans = p.ownSpans := by
  cases p with
  | text t =>
    cases h
    rfl
  | mustache m =>
    obtain ⟨m', -, h⟩ := bind_eq_ok.1 h
    cases h
    rfl

theorem AttrValue.ownSpans_walked {a a' : AttrValue} (h : walkValue v a = .ok a') :
    a'.ownSpans = a.ownSpans := by
  cases a with
  | text t =>
    cases h
    rfl
  | mustache m =>
    obtain ⟨m', -, h⟩ := bind_eq_ok.1 h
    cases h
    rfl
  | concat c =>
    obtain ⟨ps, hps, h⟩ := bind_eq_ok.1 h
    cases h
    have hparts : ps.map ConcatPart.ownSpans = c.parts.map ConcatPart.ownSpans :=
      map_eq_of_mapM (fun _ _ => ConcatPart.ownSpans_walked) hps
    simp only [AttrValue.ownSpans, List.flatMap_def, hparts]

theorem Statement.ownSpans_walked {s s' : Statement} (h : walkStatement v s = .ok s') :
    s'.ownSpans = s.ownSpans := by
  cases s with
  | mustache _ | block _ | element _ =>
    obtain ⟨x, -, h⟩ := bind_eq_ok.1 h
    cases h
    rfl
  | text _ | mustacheComment _ | comment _ =>
    cases h
    rfl

theorem Expr.ownSpans_walked {e e' : Expr} (h : walkExpr v e = .ok e') :
    e'.ownSpans = e.ownSpans := by
  cases e with
  | sub c =>
    obtain ⟨c', -, h⟩ := bind_eq_ok.1 h
    cases h
    rfl
  | path _ | string _ | number _ | boolean _ =>
    cases h
    rfl

/-- **A walk keeps the spans of the node that it goes into**, whatever becomes of its parts. -/
theorem ownSpans_walked {k : Kind} {x y : k.Node} (h : walk v k x = .ok y) :
    ownSpans k y = ownSpans k x := by
  match k, x, y, h with
  | .template, x, y, h | .block, x, y, h =>
    obtain ⟨body, -, h⟩ := bind_eq_ok.1 h
    cases h
    rfl
  | .statements, x, y, h => rfl
  | .statement, x, y, h => exact Statement.ownSpans_walked h
  | .element, x, y, h =>
    obtain ⟨as, ms, cs, -, -, -, rfl⟩ := walk_element_eq_ok.1 h
    rfl
  | .mustache, x, y, h =>
    obtain ⟨path, params, hash, -, -, -, rfl⟩ := walk_mustache_eq_ok.1 h
    rfl
  | .blockStatement, x, y, h =>
    obtain ⟨path, -, h⟩ := bind_eq_ok.1 h
    obtain ⟨params, -, h⟩ := bind_eq_ok.1 h
    obtain ⟨hash, -, h⟩ := bind_eq_ok.1 h
    obtain ⟨program, -, h⟩ := bind_eq_ok.1 h
    obtain ⟨inverse, -, h⟩ := bind_eq_ok.1 h
    cases h
    rfl
  | .attribute, x, y, h =>
    obtain ⟨value, hvalue, h⟩ := bind_eq_ok.1 h
    cases h
    simp only [ownSpans, AttrValue.ownSpans_walked hvalue]
  | .modifier, x, y, h =>
    obtain ⟨params, -, h⟩ := bind_eq_ok.1 h
    obtain ⟨hash, -, h⟩ := bind_eq_ok.1 h
    cases h
    rfl
  | .expression, x, y, h => exact Expr.ownSpans_walked h
  | .subExpression, x, y, h =>
    obtain ⟨params, hash, -, -, rfl⟩ := walk_subExpression_eq_ok.1 h
    rfl
  | .hash, x, y, h =>
    obtain ⟨ps, hps, h⟩ := bind_eq_ok.1 h
    cases h
    have hpairs : ps.map HashPair.loc = x.pairs.map HashPair.loc := by
      refine map_eq_of_mapM (fun p q hpq => ?_) hps
      obtain ⟨value, -, hpq⟩ := bind_eq_ok.1 hpq
      cases hpq
      rfl
    simp only [ownSpans, hpairs]

end Walked

/-! ### Spans in a set -/

/-- All spans in a node are in `S`. -/
def Located (S : Span → Prop) (k : Kind) (x : k.Node) : Prop :=
  Everywhere (fun k x => ∀ span ∈ ownSpans k x, S span) k x

variable {S : Span → Prop}

theorem located_iff_spans {k : Kind} {x : k.Node} :
    Located S k x ↔ ∀ span ∈ spans k x, S span :=
  forall_mem_gathered.symm

theorem located_iff {k : Kind} {x : k.Node} : Located S k x ↔
    (∀ span ∈ ownSpans k x, S span) ∧ ∀ p ∈ parts k x, Located S p.1 p.2 :=
  everywhere_iff

theorem located_block {b : Block} :
    Located S .block b ↔ S b.loc ∧ Located S .statements b.body := by
  rw [located_iff]
  simp [ownSpans, parts]

theorem located_statements {ss : List Statement} :
    Located S .statements ss ↔ ∀ s ∈ ss, Located S .statement s := by
  rw [located_iff]
  simp [ownSpans, parts]

@[simp] theorem located_statement_mustache {m : Mustache} :
    Located S .statement (.mustache m) ↔ Located S .mustache m := by
  rw [located_iff]
  simp [ownSpans, Statement.ownSpans, parts, Statement.parts]

@[simp] theorem located_statement_block {b : BlockStatement} :
    Located S .statement (.block b) ↔ Located S .blockStatement b := by
  rw [located_iff]
  simp [ownSpans, Statement.ownSpans, parts, Statement.parts]

@[simp] theorem located_statement_element {e : Element} :
    Located S .statement (.element e) ↔ Located S .element e := by
  rw [located_iff]
  simp [ownSpans, Statement.ownSpans, parts, Statement.parts]

/-- A body of one block call. -/
theorem located_singleton {b : BlockStatement} :
    Located S .statements [.block b] ↔ Located S .blockStatement b := by
  simp [located_statements]

theorem located_element {e : Element} : Located S .element e ↔
    (S e.loc ∧ ∀ c ∈ e.comments, S c.loc) ∧ (∀ a ∈ e.attributes, Located S .attribute a) ∧
      (∀ m ∈ e.modifiers, Located S .modifier m) ∧ Located S .statements e.children := by
  refine everywhere_element.trans (and_congr_left' ?_)
  simp [ownSpans]

theorem located_blockStatement {b : BlockStatement} : Located S .blockStatement b ↔
    S b.loc ∧ Located S .expression b.path ∧
      ((∀ e ∈ b.params, Located S .expression e) ∧ Located S .hash b.hash) ∧
      Located S .block b.program ∧ ∀ i ∈ b.inverse, Located S .block i := by
  refine everywhere_blockStatement.trans (and_congr_left' ?_)
  simp [ownSpans]

theorem located_mustache {m : Mustache} : Located S .mustache m ↔
    S m.loc ∧ Located S .expression m.path ∧
      (∀ e ∈ m.params, Located S .expression e) ∧ Located S .hash m.hash := by
  refine everywhere_mustache.trans (and_congr_left' ?_)
  simp [ownSpans]

theorem located_subExpression {c : SubExpr} : Located S .subExpression c ↔
    (S c.loc ∧ S c.path.loc) ∧
      (∀ e ∈ c.params, Located S .expression e) ∧ Located S .hash c.hash := by
  refine everywhere_subExpression.trans (and_congr_left' ?_)
  simp [ownSpans]

theorem located_hash {h : Hash} : Located S .hash h ↔
    S h.loc ∧ ∀ p ∈ h.pairs, S p.loc ∧ Located S .expression p.value := by
  rw [located_iff]
  simp [ownSpans, parts, forall_and, and_assoc]

@[simp] theorem located_sub {c : SubExpr} :
    Located S .expression (.sub c) ↔ Located S .subExpression c := by
  rw [located_iff]
  simp [ownSpans, Expr.ownSpans, parts, Expr.parts]

@[simp] theorem located_path {p : Path} : Located S .expression (.path p) ↔ S p.loc := by
  rw [located_iff]
  simp [ownSpans, Expr.ownSpans, parts, Expr.parts]

@[simp] theorem located_string {l : Literal String} :
    Located S .expression (.string l) ↔ S l.loc := by
  rw [located_iff]
  simp [ownSpans, Expr.ownSpans, parts, Expr.parts]

@[simp] theorem located_number {l : Literal Binary64} :
    Located S .expression (.number l) ↔ S l.loc := by
  rw [located_iff]
  simp [ownSpans, Expr.ownSpans, parts, Expr.parts]

@[simp] theorem located_boolean {l : Literal Bool} :
    Located S .expression (.boolean l) ↔ S l.loc := by
  rw [located_iff]
  simp [ownSpans, Expr.ownSpans, parts, Expr.parts]

/-- An expression stands where one of its spans says. -/
theorem Located.expr_loc {e : Expr} (h : Located S .expression e) : S e.loc := by
  cases e with
  | sub c => exact (located_subExpression.1 (located_sub.1 h)).1.1
  | path p => exact located_path.1 h
  | string l => exact located_string.1 h
  | number l => exact located_number.1 h
  | boolean l => exact located_boolean.1 h

/-- A statement stands where one of its spans says. -/
theorem Located.statement_loc {s : Statement} (h : Located S .statement s) : S s.loc := by
  cases s with
  | mustache m => exact (located_mustache.1 (located_statement_mustache.1 h)).1
  | block b => exact (located_blockStatement.1 (located_statement_block.1 h)).1
  | element e => exact (located_element.1 (located_statement_element.1 h)).1.1
  | text _ | mustacheComment _ | comment _ =>
    exact (located_iff.1 h).1 _ (by simp [ownSpans, Statement.ownSpans, Statement.loc])

end TemplateBlocks
