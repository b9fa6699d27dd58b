import Mathlib.Order.Lattice
import TemplateBlocks.Proofs.Traversal.Parts
import TemplateBlocks.Traversal.Weight

/-!
# Weights of parts

`weight k x` is the weight of a node of any kind. Every part of a node is lighter than the node
(`weight_lt_of_mem_parts`), so that the weight bounds how deep a traversal goes, and induction on it
is induction over the parts.
-/

namespace TemplateBlocks

/-- The weight of a node of any kind. -/
def weight : (k : Kind) → k.Node → Nat
  | .template, t => t.weight
  | .block, b => b.weight
  | .statements, ss => Statement.weights ss + 1
  | .statement, s => s.weight
  | .element, e => e.weight
  | .mustache, m => m.weight
  | .blockStatement, b => b.weight
  | .attribute, a => a.weight
  | .modifier, m => m.weight
  | .expression, e => e.weight
  | .subExpression, s => s.weight
  | .hash, h => h.weight

theorem weight_pos (k : Kind) (x : k.Node) : 0 < weight k x := by
  match k, x with
  | .template, x => exact Nat.succ_pos _
  | .block, ⟨_, _, _, _, _⟩ => simp [weight, Block.weight]
  | .statements, x => exact Nat.succ_pos _
  | .statement, x => cases x <;> simp [weight, Statement.weight]
  | .element, ⟨_, _, _, _, _, _, _, _, _⟩ => simp [weight, Element.weight]
  | .mustache, x => exact Nat.succ_pos _
  | .blockStatement, ⟨_, _, _, _, _, _, _⟩ => simp [weight, BlockStatement.weight]
  | .attribute, x => exact Nat.succ_pos _
  | .modifier, x => exact Nat.succ_pos _
  | .expression, x => cases x <;> simp [weight, Expr.weight]
  | .subExpression, ⟨_, _, _, _, _⟩ => simp [weight, SubExpr.weight]
  | .hash, ⟨_, _⟩ => simp [weight, Hash.weight]

/-! ### Lists of nodes -/

theorem Expr.weight_le_weights {e : Expr} {es : List Expr} (h : e ∈ es) :
    e.weight ≤ Expr.weights es := by
  induction es with
  | nil => simp at h
  | cons x xs ih =>
    simp only [Expr.weights]
    rcases List.mem_cons.1 h with rfl | h
    · exact le_max_left _ _
    · exact (ih h).trans (le_max_right _ _)

theorem HashPair.weight_le_weights {p : HashPair} {ps : List HashPair} (h : p ∈ ps) :
    p.weight ≤ HashPair.weights ps := by
  induction ps with
  | nil => simp at h
  | cons x xs ih =>
    simp only [HashPair.weights]
    rcases List.mem_cons.1 h with rfl | h
    · exact le_max_left _ _
    · exact (ih h).trans (le_max_right _ _)

theorem Statement.weight_le_weights {s : Statement} {ss : List Statement} (h : s ∈ ss) :
    s.weight ≤ Statement.weights ss := by
  induction ss with
  | nil => simp at h
  | cons x xs ih =>
    simp only [Statement.weights]
    rcases List.mem_cons.1 h with rfl | h
    · exact Nat.le_add_right _ _
    · exact (ih h).trans (Nat.le_add_left _ _)

theorem le_heaviest {n : Nat} {ns : List Nat} (h : n ∈ ns) : n ≤ heaviest ns := by
  induction ns with
  | nil => simp at h
  | cons x xs ih =>
    change n ≤ max x (heaviest xs)
    rcases List.mem_cons.1 h with rfl | h
    · exact le_max_left _ _
    · exact (ih h).trans (le_max_right _ _)

/-! ### Parts are lighter -/

theorem weight_le_of_mem_argumentParts {params : List Expr} {hash : Hash} {p : Node}
    (h : p ∈ argumentParts params hash) :
    weight p.1 p.2 ≤ max (Expr.weights params) hash.weight := by
  rcases List.mem_append.1 h with h | h
  · obtain ⟨e, he, rfl⟩ := List.mem_map.1 h
    exact (Expr.weight_le_weights he).trans (le_max_left _ _)
  · obtain rfl := List.mem_singleton.1 h
    exact le_max_right _ _

theorem weight_le_of_mem_value {a : AttrValue} {p : Node} (h : p ∈ a.parts) :
    weight p.1 p.2 ≤ a.weight := by
  cases a with
  | text t => simp [AttrValue.parts] at h
  | mustache m =>
    obtain rfl := List.mem_singleton.1 h
    exact le_rfl
  | concat c =>
    obtain ⟨q, hq, hp⟩ := List.mem_flatMap.1 h
    refine le_trans ?_ (le_heaviest (List.mem_map_of_mem hq))
    cases q with
    | text t => simp [ConcatPart.parts] at hp
    | mustache m =>
      obtain rfl := List.mem_singleton.1 hp
      exact le_rfl

/-- **Every part of a node is lighter than the node.** -/
theorem weight_lt_of_mem_parts {k : Kind} {x : k.Node} {p : Node} (h : p ∈ parts k x) :
    weight p.1 p.2 < weight k x := by
  match k, x, h with
  | .template, x, h =>
    obtain rfl := List.mem_singleton.1 h
    exact Nat.lt_succ_self _
  | .block, ⟨_, _, _, _, _⟩, h =>
    obtain rfl := List.mem_singleton.1 h
    simp [weight, Block.weight]
  | .statements, x, h =>
    obtain ⟨s, hs, rfl⟩ := List.mem_map.1 h
    exact Nat.lt_succ_of_le (Statement.weight_le_weights hs)
  | .statement, x, h =>
    cases x <;> simp [parts, Statement.parts] at h <;> subst h <;> simp [weight, Statement.weight]
  | .element, ⟨_, _, as, ms, cs, _, _, _, _⟩, h =>
    rcases List.mem_append.1 h with h | h
    · obtain ⟨a, ha, rfl⟩ := List.mem_map.1 h
      have : a.weight ≤ heaviest (as.map Attribute.weight) := le_heaviest (List.mem_map_of_mem ha)
      simp only [weight, Element.weight]
      omega
    rcases List.mem_append.1 h with h | h
    · obtain ⟨a, ha, rfl⟩ := List.mem_map.1 h
      have : a.weight ≤ heaviest (ms.map Modifier.weight) := le_heaviest (List.mem_map_of_mem ha)
      simp only [weight, Element.weight]
      omega
    · obtain rfl := List.mem_singleton.1 h
      simp only [weight, Element.weight]
      omega
  | .mustache, x, h =>
    rcases List.mem_cons.1 h with rfl | h
    · simp only [weight, Mustache.weight]
      omega
    · refine lt_of_le_of_lt (weight_le_of_mem_argumentParts h) ?_
      simp only [weight, Mustache.weight]
      omega
  | .blockStatement, ⟨path, params, hash, program, inverse, _, _⟩, h =>
    rcases List.mem_cons.1 h with rfl | h
    · simp only [weight, BlockStatement.weight]
      omega
    rcases List.mem_append.1 h with h | h
    · refine lt_of_le_of_lt (weight_le_of_mem_argumentParts h) ?_
      simp only [weight, BlockStatement.weight]
      omega
    rcases List.mem_cons.1 h with rfl | h
    · simp only [weight, BlockStatement.weight]
      omega
    · cases inverse with
      | none => simp at h
      | some b =>
        obtain rfl := List.mem_singleton.1 h
        simp only [weight, BlockStatement.weight, Block.weightOption]
        omega
  | .attribute, x, h => exact Nat.lt_succ_of_le (weight_le_of_mem_value h)
  | .modifier, x, h => exact Nat.lt_succ_of_le (weight_le_of_mem_argumentParts h)
  | .expression, x, h =>
    cases x <;> simp [parts, Expr.parts] at h
    subst h
    simp [weight, Expr.weight]
  | .subExpression, ⟨_, _, _, _, _⟩, h =>
    refine lt_of_le_of_lt (weight_le_of_mem_argumentParts h) ?_
    simp only [weight, SubExpr.weight]
    omega
  | .hash, ⟨_, _⟩, h =>
    obtain ⟨q, hq, rfl⟩ := List.mem_map.1 h
    obtain ⟨_, _, _⟩ := q
    have := HashPair.weight_le_weights hq
    simp only [weight, Hash.weight, HashPair.weight] at this ⊢
    omega

/-! ### Elements in bodies -/

theorem weight_children_lt (e : Element) :
    weight .statements e.children < weight .element e :=
  weight_lt_of_mem_parts (p := ⟨.statements, e.children⟩) (by simp [parts])

theorem weight_lt_of_mem {ss : List Statement} {c : Element} (hc : .element c ∈ ss) :
    weight .element c < weight .statements ss := by
  have hs : weight .statement (.element c) < weight .statements ss :=
    weight_lt_of_mem_parts (p := ⟨.statement, .element c⟩) (List.mem_map_of_mem hc)
  have he : weight .element c < weight .statement (.element c) :=
    weight_lt_of_mem_parts (p := ⟨.element, c⟩) (by simp [parts, Statement.parts])
  exact he.trans hs

end TemplateBlocks
