import TemplateBlocks.Proofs.Desugar.Entering
import TemplateBlocks.Proofs.Traversal.Weights

/-!
# Settled nodes

`settled scope k x` is the node that desugaring goes on with when it comes to `x` in a scope, and
`innerScope scope k y` is the scope in which it goes on. Replacements are no heavier than what they
replace (`weight_settled_le`): the blocks of an invocation, hung into each other, weigh no more than
its children did side by side.
-/

namespace TemplateBlocks

namespace Desugar

/-- A check that refuses the template where it fails. -/
def refusing {α : Type} : Except Diagnostic α → Except Halt α
  | .ok a => .ok a
  | .error d => .error (.refused d)

theorem refusing_eq_ok {α : Type} {r : Except Diagnostic α} {a : α} :
    refusing r = .ok a ↔ r = .ok a := by
  cases r <;> simp [refusing]

theorem refusing_eq_refused {α : Type} {r : Except Diagnostic α} {d : Diagnostic} :
    refusing r = .error (.refused d) ↔ r = .error d := by
  cases r <;> simp [refusing]

theorem refusing_ne_exhausted {α : Type} (r : Except Diagnostic α) :
    refusing r ≠ .error .exhausted := by
  cases r <;> simp [refusing]

/-- A node of the source, settled; a synthetic one stays. -/
def settleSource {α : Type} [DecidableEq α] (kind : String) (enter : α → BuildM Unit (Option α))
    (x : α) : Origin → Except Halt α
  | .synthetic => .ok x
  | .source => refusing (outcome (settle kind enter roundLimit x))

/-- The node that desugaring goes on with. -/
def settled (scope : Scope) : VisitorOver (Except Halt)
  | .template, t => do
    refusing (t.checkRoot scope)
    return t
  | .element, e => settleSource "ElementNode" (fun e => e.enter scope .standard) e e.origin
  | .mustache, m => settleSource "MustacheStatement" (fun m => m.enter scope .standard) m m.origin
  | .subExpression, c => settleSource "SubExpression" (fun c => c.enter scope .standard) c c.origin
  | .block, b => .ok b
  | .statements, ss => .ok ss
  | .statement, s => .ok s
  | .blockStatement, b => .ok b
  | .attribute, a => .ok a
  | .modifier, m => .ok m
  | .expression, e => .ok e
  | .hash, h => .ok h

theorem settled_template (scope : Scope) (t : Template) : settled scope .template t =
    refusing (t.checkRoot scope) >>= fun _ => .ok t := rfl

theorem settled_element (scope : Scope) (e : Element) : settled scope .element e =
    settleSource "ElementNode" (fun e => e.enter scope .standard) e e.origin := rfl

theorem settled_mustache (scope : Scope) (m : Mustache) : settled scope .mustache m =
    settleSource "MustacheStatement" (fun m => m.enter scope .standard) m m.origin := rfl

theorem settled_subExpression (scope : Scope) (c : SubExpr) : settled scope .subExpression c =
    settleSource "SubExpression" (fun c => c.enter scope .standard) c c.origin := rfl

/-- The scope of the parts of a settled node. -/
def innerScope (scope : Scope) : (k : Kind) → k.Node → Scope
  | .block, b =>
    match b.origin with
    | .synthetic => scope
    | .source => scope.push (.ofBlock b)
  | .element, e =>
    match e.origin with
    | .synthetic => scope
    | .source =>
      if e.selfClosing || !e.isComponent scope false then scope else scope.push (.ofComponent e)
  | _, _ => scope

/-! ### Settling nodes of the source -/

section Source

variable {α : Type} [DecidableEq α] {kind : String} {enter : α → BuildM Unit (Option α)} {x y : α}

omit [DecidableEq α] in
/-- What every replacement keeps, one after the other keeps. -/
theorem kept_by_replacements {P : α → Prop} (hx : P x)
    (hstep : ∀ a b, P a → Becomes enter a b → P b)
    (hpath : Relation.ReflTransGen (Becomes enter) x y) : P y := by
  induction hpath with
  | refl => exact hx
  | tail _ hab ih => exact hstep _ _ ih hab

/-- What every replacement keeps, settling keeps. -/
theorem settleSource_induction {P : α → Prop} (hx : P x)
    (hstep : ∀ a b, P a → Becomes enter a b → P b) {origin : Origin}
    (h : settleSource kind enter x origin = .ok y) : P y := by
  cases origin with
  | synthetic =>
    cases h
    exact hx
  | source =>
    obtain ⟨-, hpath⟩ := settle_eq_ok (refusing_eq_ok.1 h)
    exact kept_by_replacements hx hstep hpath

/-- What every refusal of a node tells, given what every replacement keeps, settling tells. -/
theorem settleSource_refused {P : α → Prop} {Q : Diagnostic → Prop} (hx : P x)
    (hstep : ∀ a b, P a → Becomes enter a b → P b)
    (hfails : ∀ a d, P a → outcome (enter a) = .error d → Q d)
    (hlimit : Q (Defect.diverged kind roundLimit).report) {origin : Origin} {d : Diagnostic}
    (h : settleSource kind enter x origin = .error (.refused d)) : Q d := by
  cases origin with
  | synthetic => cases h
  | source =>
    rcases settle_eq_error (refusing_eq_refused.1 h) with rfl | ⟨y, hpath, hd⟩
    · exact hlimit
    · exact hfails y d (kept_by_replacements hx hstep hpath) hd

/-- What every replacement says about the replaced, settling says. -/
theorem settleSource_head_induction {P : α → Prop} (hy : P y)
    (hstep : ∀ a b, Becomes enter a b → P b → P a) {origin : Origin}
    (h : settleSource kind enter x origin = .ok y) : P x := by
  cases origin with
  | synthetic =>
    cases h
    exact hy
  | source =>
    obtain ⟨-, hpath⟩ := settle_eq_ok (refusing_eq_ok.1 h)
    clear h
    induction hpath using Relation.ReflTransGen.head_induction_on with
    | refl => exact hy
    | head hab _ ih => exact hstep _ _ hab ih

theorem settled_of_settleSource (h : settleSource kind enter x .source = .ok y) :
    Settled enter y :=
  (settle_eq_ok (refusing_eq_ok.1 h)).1

theorem settleSource_of_settled (h : Settled enter x) (origin : Origin) :
    settleSource kind enter x origin = .ok x := by
  cases origin with
  | synthetic => rfl
  | source => exact refusing_eq_ok.2 (settle_of_settled h)

/-- A node that nothing takes the place of settles where it is. -/
theorem settleSource_eq_ok (h : ∀ z, ¬ Becomes enter x z) :
    settleSource kind enter x .source = .ok y ↔ outcome (enter x) = .ok none ∧ y = x := by
  constructor
  · intro hs
    obtain ⟨hsettled, hpath⟩ := settle_eq_ok (refusing_eq_ok.1 hs)
    rcases hpath.cases_head with rfl | ⟨z, hz, -⟩
    · exact ⟨hsettled.resolve_right (h x), rfl⟩
    · exact absurd hz (h z)
  · rintro ⟨hstays, rfl⟩
    exact settleSource_of_settled (.inl hstays) .source

/-- Synthetic nodes are not checked. -/
theorem settleSource_synthetic :
    settleSource kind enter x .synthetic = .ok y ↔ y = x := by
  constructor
  · intro h
    cases h
    rfl
  · rintro rfl
    rfl

theorem settleSource_ne_exhausted (origin : Origin) :
    settleSource kind enter x origin ≠ .error .exhausted := by
  cases origin with
  | synthetic => simp [settleSource]
  | source => exact refusing_ne_exhausted _

end Source

theorem settled_ne_exhausted (scope : Scope) (k : Kind) (x : k.Node) :
    settled scope k x ≠ .error .exhausted := by
  match k, x with
  | .template, t =>
    unfold settled
    cases h : t.checkRoot scope <;> simp [h, refusing]
  | .element, e => exact settleSource_ne_exhausted _
  | .mustache, m => exact settleSource_ne_exhausted _
  | .subExpression, c => exact settleSource_ne_exhausted _
  | .block, _ | .statements, _ | .statement, _ | .blockStatement, _ | .attribute, _
  | .modifier, _ | .expression, _ | .hash, _ => simp [settled]

end Desugar

/-! ### Tags and origins -/

theorem Element.tag_of_becomes {scope : Scope} {e e' : Element}
    (h : Becomes (fun e : Element => e.enter scope .standard) e e') : e'.tag = e.tag := by
  obtain ⟨-, -, -, blocks, -, -, hfan⟩ := Element.becomes_iff.1 h
  rcases Element.eq_of_fanOut hfan with ⟨only, -, -, rfl⟩ | ⟨-, first, rest, -, rfl⟩ <;> rfl

theorem Element.origin_of_becomes {scope : Scope} {e e' : Element}
    (h : Becomes (fun e : Element => e.enter scope .standard) e e') : e'.origin = .source := by
  obtain ⟨-, -, -, blocks, -, -, hfan⟩ := Element.becomes_iff.1 h
  rcases Element.eq_of_fanOut hfan with ⟨only, -, -, rfl⟩ | ⟨-, first, rest, -, rfl⟩ <;> rfl

theorem SubExpr.origin_of_becomes {scope : Scope} {c c' : SubExpr}
    (h : Becomes (fun c : SubExpr => c.enter scope .standard) c c') : c'.origin = .source := by
  obtain ⟨query, block, -, -, rfl⟩ := SubExpr.becomes_iff.1 h
  rfl

/-! ### Weights -/

theorem Statement.weights_le_of_sublist {xs ys : List Statement} (h : xs.Sublist ys) :
    Statement.weights xs ≤ Statement.weights ys := by
  induction h with
  | slnil => exact le_rfl
  | cons y _ ih =>
    simp only [Statement.weights]
    omega
  | cons_cons y _ ih =>
    simp only [Statement.weights]
    omega

namespace Element

theorem weight_eq (e : Element) : e.weight =
    max (heaviest (e.attributes.map Attribute.weight))
      (max (heaviest (e.modifiers.map Modifier.weight)) (Statement.weights e.children)) + 16 := by
  obtain ⟨_, _, _, _, _, _, _, _, _⟩ := e
  simp [Element.weight]

theorem weights_children_le (block : Element) :
    Statement.weights block.children + 16 ≤ block.weight := by
  rw [weight_eq]
  omega

theorem weights_slots_le (block : Element) : Expr.weights block.slots ≤ 1 := by
  unfold slots
  generalize List.range block.blockParams.length = is
  induction is with
  | nil => simp [Expr.weights]
  | cons i is ih =>
    simp only [List.map_cons, Expr.weights, Expr.weight]
    omega

theorem weight_branchBody_le (block : Element) :
    block.branchBody.weight ≤ Statement.weights block.children + 6 := by
  have hslots := block.weights_slots_le
  unfold branchBody
  split
  · simp [ownBody, Block.weight]
  · simp only [letSlots, ownBody, Block.weight, Statement.weights, Statement.weight,
      BlockStatement.weight, Expr.weight, Hash.weight, HashPair.weights, Block.weightOption]
    omega

end Element

theorem weight_dispatchChain_le (first : Element) (rest : List Element) :
    (dispatchChain first rest).weight + 1 ≤
      Statement.weights ((first :: rest).map Statement.element) := by
  have hbody (block : Element) : block.branchBody.weight + 10 ≤ block.weight :=
    le_trans (Nat.add_le_add_right block.weight_branchBody_le 10) block.weights_children_le
  induction rest generalizing first with
  | nil =>
    have := hbody first
    simp only [dispatchChain, Element.branch, Element.markerTest, List.map_cons, List.map_nil,
      Statement.weights, Statement.weight, BlockStatement.weight, Expr.weight, Expr.weights,
      SubExpr.weight, Hash.weight, HashPair.weights, Block.weightOption, Origin.reserve]
    omega
  | cons next rest ih =>
    have := hbody first
    have := ih next
    simp only [dispatchChain, Element.branch, Element.markerTest, List.map_cons,
      Statement.weights, Statement.weight, BlockStatement.weight, Expr.weight, Expr.weights,
      SubExpr.weight, Hash.weight, HashPair.weights, Block.weight, Block.weightOption,
      Origin.reserve] at this ⊢
    omega

theorem Metadata.weight_attribute (m : Metadata) : m.attribute.weight = 10 := by
  have hpairs : HashPair.weights (m.arities.map fun a => arityPair a.1 a.2) ≤ 1 := by
    generalize m.arities = as
    induction as with
    | nil => simp [HashPair.weights]
    | cons a as ih =>
      simp only [List.map_cons, arityPair, HashPair.weights, HashPair.weight, Expr.weight] at ih ⊢
      omega
  simp only [Metadata.attribute, Metadata.hashCall, Attribute.weight, AttrValue.weight,
    Mustache.weight, Expr.weight, Expr.weights, Hash.weight]
  omega

theorem heaviest_concat (ns : List Nat) (n : Nat) : heaviest (ns ++ [n]) = max (heaviest ns) n := by
  induction ns with
  | nil => simp [heaviest]
  | cons m ns ih =>
    change max m (heaviest (ns ++ [n])) = max (max m (heaviest ns)) n
    rw [ih, max_assoc]

/-- **A fanned-out invocation is no heavier than the invocation.** -/
theorem Element.weight_le_of_becomes {scope : Scope} {e e' : Element}
    (h : Becomes (fun e : Element => e.enter scope .standard) e e') : e'.weight ≤ e.weight := by
  obtain ⟨-, -, -, blocks, hblocks, hne, hfan⟩ := Element.becomes_iff.1 h
  have hsum := Statement.weights_le_of_sublist (Element.sublist_of_namedBlocks hblocks)
  rcases Element.eq_of_fanOut hfan with ⟨only, rfl, -, rfl⟩ | ⟨-, first, rest, rfl, rfl⟩
  · have := only.weights_children_le
    simp only [List.map_cons, List.map_nil, Statement.weights, Statement.weight] at hsum
    rw [Element.weight_eq, Element.weight_eq e]
    simp only [Element.unwrapped]
    omega
  · have hchain := weight_dispatchChain_le first rest
    have hinfo := (Metadata.ofBlocks (first :: rest)).weight_attribute
    have hfirst := first.weights_children_le
    rw [Element.weight_eq, Element.weight_eq e]
    simp only [List.map_cons, Statement.weights, Statement.weight] at hchain hsum
    simp only [Element.fanned, List.map_append, List.map_cons, List.map_nil, heaviest_concat, hinfo,
      Statement.weights, Statement.weight]
    omega

theorem weight_queryFallback_le (path : Path) (loc : Span) (block : String) :
    (queryFallback path loc block).weight ≤ 3 := by
  unfold queryFallback
  split
  · simp [Expr.weight, SubExpr.weight, Expr.weights, Hash.weight, HashPair.weights, Origin.reserve]
  split
  · simp [Expr.weight, SubExpr.weight, Expr.weights, Hash.weight, HashPair.weights, Origin.reserve]
  · simp [Expr.weight]

theorem weights_queryParams_le (path : Path) (loc : Span) (block : String) :
    Expr.weights (queryParams path loc block) ≤ 3 := by
  have := weight_queryFallback_le path loc block
  simp only [queryParams, Expr.weights, Expr.weight]
  omega

theorem Mustache.weight_le_of_becomes {scope : Scope} {m m' : Mustache}
    (h : Becomes (fun m : Mustache => m.enter scope .standard) m m') : m'.weight ≤ m.weight := by
  obtain ⟨p, -, ⟨-, -, target, loc, -, -, rfl⟩ | ⟨-, query, block, -, -, rfl⟩⟩ :=
    Mustache.becomes_iff.1 h
  · have hhash : (m.yieldHash target).weight ≤ 2 := by
      unfold Mustache.yieldHash
      split <;> simp [Hash.weight, HashPair.weights, HashPair.weight, Expr.weight]
    have hparams : Expr.weights (m.yieldParams target) ≤ max 6 (Expr.weights m.params) := by
      unfold Mustache.yieldParams
      split
      · omega
      split
      · simp [Expr.weights]
      · simp only [markerCall, Expr.weights, Expr.weight, SubExpr.weight, Hash.weight,
          HashPair.weights, Origin.reserve]
        omega
    simp only [Mustache.weight, Mustache.yieldTo]
    omega
  · have := weights_queryParams_le p m.loc block
    simp only [Mustache.weight, Mustache.answered, Expr.weight, Hash.weight, HashPair.weights]
    omega

theorem SubExpr.weight_le_of_becomes {scope : Scope} {c c' : SubExpr} (hc : c.origin = .source)
    (h : Becomes (fun c : SubExpr => c.enter scope .standard) c c') : c'.weight ≤ c.weight := by
  obtain ⟨query, block, -, -, rfl⟩ := SubExpr.becomes_iff.1 h
  have := weights_queryParams_le c.path c.loc block
  obtain ⟨path, params, hash, loc, origin⟩ := c
  obtain rfl : origin = .source := hc
  simp only [SubExpr.answered, SubExpr.weight, Hash.weight, HashPair.weights,
    Origin.reserve] at this ⊢
  omega

/-- **Settling makes no node heavier.** -/
theorem Desugar.weight_settled_le {scope : Scope} {k : Kind} {x y : k.Node}
    (h : settled scope k x = .ok y) : weight k y ≤ weight k x := by
  match k, x, y, h with
  | .template, t, t', h =>
    obtain ⟨-, -, h⟩ := bind_eq_ok.1 h
    cases h
    exact le_rfl
  | .element, e, e', h =>
    exact settleSource_induction (P := fun a => a.weight ≤ e.weight) le_rfl
      (fun a b ha hab => (Element.weight_le_of_becomes hab).trans ha) h
  | .mustache, m, m', h =>
    exact settleSource_induction (P := fun a => a.weight ≤ m.weight) le_rfl
      (fun a b ha hab => (Mustache.weight_le_of_becomes hab).trans ha) h
  | .subExpression, c, c', h =>
    have hsource : c.origin = .synthetic ∨ c.origin = .source := by cases c.origin <;> simp
    rcases hsource with ho | ho
    · simp only [settled, ho, settleSource] at h
      cases h
      exact le_rfl
    · refine (settleSource_induction (P := fun a => a.origin = .source ∧ a.weight ≤ c.weight)
        ⟨ho, le_rfl⟩ (fun a b ha hab => ⟨SubExpr.origin_of_becomes hab, ?_⟩) h).2
      exact (SubExpr.weight_le_of_becomes ha.1 hab).trans ha.2
  | .block, _, _, h | .statements, _, _, h | .statement, _, _, h | .blockStatement, _, _, h
  | .attribute, _, _, h | .modifier, _, _, h | .expression, _, _, h | .hash, _, _, h =>
    cases h
    exact le_rfl

/-- **What a visit goes on with weighs less than what it came to.** -/
theorem Desugar.weight_lt_of_settled {scope : Scope} {k : Kind} {x y : k.Node} {p : Node}
    (h : settled scope k x = .ok y) (hp : p ∈ parts k y) : weight p.1 p.2 < weight k x :=
  (weight_lt_of_mem_parts hp).trans_le (weight_settled_le h)

end TemplateBlocks
