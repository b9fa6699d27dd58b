import TemplateBlocks.Proofs.Traversal.Everywhere

/-!
# All nodes in order

`nodes k x` lists a node and all nodes below it, each before its parts and the parts in source
order. What a template holds of some sort is read off from it: `gathered own k x` puts together what
`own` finds at each node. A walk that keeps what is found at the node, and in each of its parts,
keeps what is found in the whole (`gathered_walked`).
-/

namespace TemplateBlocks

variable {k : Kind} {x : k.Node}

/-- The node and all nodes below it that are less than so many levels deep, in source order. -/
def nodesWithin : (levels : Nat) → (k : Kind) → k.Node → List Node
  | 0, _, _ => []
  | levels + 1, k, x => ⟨k, x⟩ :: (parts k x).flatMap fun p => nodesWithin levels p.1 p.2

/-- The node and all nodes below it, each before its parts, in source order. -/
def nodes (k : Kind) (x : k.Node) : List Node := nodesWithin (weight k x) k x

theorem nodesWithin_congr {levels more : Nat} (h : weight k x ≤ levels) (h' : weight k x ≤ more) :
    nodesWithin levels k x = nodesWithin more k x := by
  induction levels generalizing more k x with
  | zero => exact absurd (weight_pos k x) (by omega)
  | succ levels ih =>
    obtain ⟨more, rfl⟩ := Nat.exists_eq_add_of_lt (lt_of_lt_of_le (weight_pos k x) h')
    rw [Nat.zero_add] at h' ⊢
    have hparts : ∀ p ∈ parts k x, nodesWithin levels p.1 p.2 = nodesWithin more p.1 p.2 := by
      intro p hp
      have := weight_lt_of_mem_parts hp
      exact ih (by omega) (by omega)
    rw [nodesWithin, nodesWithin, List.flatMap_congr hparts]

/-- **A node stands before its parts**, and they follow in order. -/
theorem nodes_eq (k : Kind) (x : k.Node) :
    nodes k x = ⟨k, x⟩ :: (parts k x).flatMap fun p => nodes p.1 p.2 := by
  have hparts : ∀ p ∈ parts k x, nodesWithin (weight k x) p.1 p.2 = nodes p.1 p.2 := by
    intro p hp
    exact nodesWithin_congr (weight_lt_of_mem_parts hp).le le_rfl
  rw [nodes, nodesWithin_congr le_rfl (Nat.le_succ _), nodesWithin, List.flatMap_congr hparts]

/-- `Everywhere` is said of all nodes. -/
theorem everywhere_iff_nodes {P : (k : Kind) → k.Node → Prop} :
    Everywhere P k x ↔ ∀ p ∈ nodes k x, P p.1 p.2 := by
  induction hn : weight k x using Nat.strong_induction_on generalizing k x with
  | _ n ih =>
    have hparts : ∀ p ∈ parts k x, Everywhere P p.1 p.2 ↔ ∀ q ∈ nodes p.1 p.2, P q.1 q.2 := by
      intro p hp
      exact ih _ (hn ▸ weight_lt_of_mem_parts hp) rfl
    rw [everywhere_iff, nodes_eq, List.forall_mem_cons, List.forall_mem_flatMap]
    exact and_congr_right fun _ => forall₂_congr hparts

/-! ### What is found at the nodes -/

section Gathered

variable {α : Type} (own : (k : Kind) → k.Node → List α)

/-- What is found at a node and at all nodes below it, in source order. -/
def gathered (k : Kind) (x : k.Node) : List α := (nodes k x).flatMap fun p => own p.1 p.2

theorem gathered_eq (k : Kind) (x : k.Node) :
    gathered own k x = own k x ++ (parts k x).flatMap fun p => gathered own p.1 p.2 := by
  rw [gathered, nodes_eq, List.flatMap_cons, List.flatMap_assoc]
  rfl

variable {own}

/-- Everything that is found satisfies a property exactly when it does so at each node. -/
theorem forall_mem_gathered {P : α → Prop} :
    (∀ a ∈ gathered own k x, P a) ↔ Everywhere (fun k x => ∀ a ∈ own k x, P a) k x := by
  rw [everywhere_iff_nodes, gathered, List.forall_mem_flatMap]

theorem flatMap_eq_of_visited {ε : Type} {v : VisitorOver (Except ε)} {ps qs : List Node}
    (h : List.Forall₂ (Visited v) ps qs)
    (hv : ∀ k (x y : k.Node), ⟨k, x⟩ ∈ ps → v k x = .ok y → gathered own k y = gathered own k x) :
    (qs.flatMap fun q => gathered own q.1 q.2) = ps.flatMap fun p => gathered own p.1 p.2 := by
  induction h with
  | nil => rfl
  | cons hpq _ ih =>
    cases hpq with
    | intro hxy =>
      rw [List.flatMap_cons, List.flatMap_cons, hv _ _ _ (by simp) hxy,
        ih fun k x y hx => hv k x y (List.mem_cons_of_mem _ hx)]

/-- **A walk that keeps what is found at the node and in its parts keeps it all.** -/
theorem gathered_walked {ε : Type} {v : VisitorOver (Except ε)} {y : k.Node}
    (h : walk v k x = .ok y) (hown : own k y = own k x)
    (hv : ∀ k' (x' y' : k'.Node), ⟨k', x'⟩ ∈ parts k x → v k' x' = .ok y' →
      gathered own k' y' = gathered own k' x') :
    gathered own k y = gathered own k x := by
  rw [gathered_eq, gathered_eq own k x, hown, flatMap_eq_of_visited (walk_parts h) hv]

end Gathered

end TemplateBlocks
