import TemplateBlocks.Proofs.Traversal.Preorder

/-!
# What a traversal visits

Hooks that look at each node and then walk into it go through all nodes in order: the traversal of a
tree is a loop over its list of nodes (`visit_observing`). What they leave of the tree is the tree
itself.

The list is complete and has no repetitions. The *address* of a node says which part to take, of
which part, and so on; the nodes are listed by increasing addresses, each address once
(`isListing_nodes`).
-/

namespace TemplateBlocks

/-! ### Traversals as loops -/

section Loop

variable {m : Type → Type} [Monad m] [LawfulMonad m] {act : Node → m Unit}

/-- Acting on what is inside of each of some values, and keeping the values. -/
theorem mapM_kept {α β : Type} {f : α → m α} {inside : α → List Node}
    (h : ∀ x, f x = (do forM (inside x) act; return x)) (xs : List α) (g : List α → m β) :
    xs.mapM f >>= g = (do forM (xs.flatMap inside) act; g xs) := by
  induction xs generalizing g with
  | nil => simp
  | cons x xs ih =>
    simp only [List.mapM_cons, h, bind_assoc, pure_bind, ih, List.flatMap_cons, List.forM_append]

/-- The visitor that acts on each node and keeps it. -/
def keeping (act : Node → m Unit) (k : Kind) (x : k.Node) : m k.Node := do
  act ⟨k, x⟩
  return x

theorem mapM_keeping {β : Type} {k : Kind} (xs : List k.Node) (g : List k.Node → m β) :
    xs.mapM (keeping act k) >>= g = (do forM (xs.map (⟨k, ·⟩)) act; g xs) := by
  have hkept (x : k.Node) :
      keeping act k x = (do forM [(⟨k, x⟩ : Node)] act; return x) := by
    simp [keeping]
  rw [List.map_eq_flatMap]
  exact mapM_kept hkept xs g

theorem mapM_option_keeping {β : Type} {k : Kind} (o : Option k.Node) (g : Option k.Node → m β) :
    o.mapM (keeping act k) >>= g = (do forM (o.toList.map (⟨k, ·⟩)) act; g o) := by
  cases o <;> simp [keeping]

theorem walkValue_keeping (a : AttrValue) :
    walkValue (keeping act) a = (do forM a.parts act; return a) := by
  cases a with
  | text t => simp [walkValue, AttrValue.parts]
  | mustache x => simp [walkValue, AttrValue.parts, keeping]
  | concat c =>
    have hpart (p : ConcatPart) :
        walkPart (keeping act) p = (do forM p.parts act; return p) := by
      cases p <;> simp [walkPart, ConcatPart.parts, keeping]
    exact mapM_kept hpart c.parts _

/-- **Walking into a node whose parts are kept is a loop over its parts.** -/
theorem walk_keeping (k : Kind) (x : k.Node) :
    walk (keeping act) k x = (do forM (parts k x) act; return x) := by
  cases k with
  | template => simp [walk, parts, keeping]
  | block =>
    obtain ⟨body, blockParams, chained, loc, origin⟩ := x
    simp [walk, parts, keeping]
  | statements =>
    rw [← bind_pure (walk (keeping act) .statements x)]
    exact mapM_keeping (k := .statement) x pure
  | statement => cases x <;> simp [walk, walkStatement, parts, Statement.parts, keeping]
  | element =>
    obtain ⟨tag, closing, attributes, modifiers, children, comments, params, loc, origin⟩ := x
    simp only [walk, parts, keeping, mapM_keeping (k := .attribute), mapM_keeping (k := .modifier),
      List.forM_append, List.forM_cons, List.forM_nil, bind_assoc, pure_bind]
  | mustache =>
    simp only [walk, parts, argumentParts, keeping, mapM_keeping (k := .expression),
      List.forM_append, List.forM_cons, List.forM_nil, bind_assoc, pure_bind]
  | blockStatement =>
    obtain ⟨path, params, hash, program, inverse, loc, origin⟩ := x
    simp only [walk, parts, argumentParts, keeping, mapM_keeping (k := .expression),
      mapM_option_keeping (k := .block), List.forM_append, List.forM_cons, List.forM_nil,
      bind_assoc, pure_bind]
  | «attribute» => simp only [walk, parts, walkValue_keeping, bind_assoc, pure_bind]
  | modifier =>
    simp only [walk, parts, argumentParts, keeping, mapM_keeping (k := .expression),
      List.forM_append, List.forM_cons, List.forM_nil, bind_assoc, pure_bind]
  | expression => cases x <;> simp [walk, walkExpr, parts, Expr.parts, keeping]
  | subExpression =>
    obtain ⟨path, params, hash, loc, origin⟩ := x
    simp only [walk, parts, argumentParts, keeping, mapM_keeping (k := .expression),
      List.forM_append, List.forM_cons, List.forM_nil, bind_assoc, pure_bind]
  | hash =>
    obtain ⟨pairs, loc⟩ := x
    have hpair (p : HashPair) : walkPair (keeping act) p =
        (do forM [(⟨.expression, p.value⟩ : Node)] act; return p) := by
      obtain ⟨key, value, loc⟩ := p
      simp [walkPair, keeping]
    simp only [walk, parts, mapM_kept hpair, List.map_eq_flatMap]

theorem forM_flatMap {α β : Type} (xs : List α) (f : α → List β) (act : β → m Unit) :
    forM (xs.flatMap f) act = forM xs fun x => forM (f x) act := by
  induction xs with
  | nil => rfl
  | cons x xs ih => rw [List.flatMap_cons, List.forM_append, List.forM_cons, ih]

end Loop

/-! ### Hooks that keep the template -/

section Hooks

variable {σ : Type}

/-- Hooks that do nothing of their own. -/
def Hooks.plain : Hooks σ := fun v => walk v

/-- Hooks that look at each node before they walk into it. -/
def Hooks.observing (look : Node → VisitM σ Unit) : Hooks σ := fun v k x => do
  look ⟨k, x⟩
  walk v k x

/-- Notes that a node is visited. -/
def record (p : Node) : VisitM (List Node) Unit := modify (· ++ [p])

/-- Notes that a node is visited, and refuses the template at the `n`-th one. -/
def recordUntil (n : Nat) (d : Diagnostic) (p : Node) : VisitM (List Node) Unit := do
  record p
  if (← get).length = n then VisitM.refuse d

/-- **A traversal that only looks at nodes is a loop over them.** -/
theorem visit_observing (look : Node → VisitM σ Unit) {levels : Nat} {k : Kind} {x : k.Node}
    (h : weight k x ≤ levels) :
    (Hooks.observing look).visit levels k x = (do forM (nodes k x) look; return x) := by
  induction levels generalizing k x with
  | zero => exact absurd (weight_pos k x) (by omega)
  | succ levels ih =>
    -- the parts are visited with one level less
    have hparts : ∀ p ∈ parts k x, (Hooks.observing look).visit levels p.1 p.2 =
        keeping (fun p => forM (nodes p.1 p.2) look) p.1 p.2 := by
      intro p hp
      have hlt := weight_lt_of_mem_parts hp
      exact ih (by omega)
    rw [Hooks.visit, Hooks.observing, walk_congr k x hparts, walk_keeping, nodes_eq, List.forM_cons,
      forM_flatMap, bind_assoc]

theorem visit_plain {levels : Nat} {k : Kind} {x : k.Node} (h : weight k x ≤ levels) :
    (Hooks.plain (σ := σ)).visit levels k x = return x := by
  induction levels generalizing k x with
  | zero => exact absurd (weight_pos k x) (by omega)
  | succ levels ih =>
    rw [Hooks.visit, Hooks.plain]
    apply walk_eq_self
    intro p hp
    have hlt := weight_lt_of_mem_parts hp
    exact ih (by omega)

theorem run_return {α : Type} (act : VisitM σ Unit) (a : α) (s : σ) :
    (do act; return a : VisitM σ α).run.run s =
      ((act.run.run s).1.map fun _ => a, (act.run.run s).2) := by
  have hbind : (do act; return a : VisitM σ α).run.run s =
      (ExceptT.bindCont (m := StateM σ) (fun _ => return a) (act.run.run s).1).run
        (act.run.run s).2 := rfl
  rw [hbind]
  cases (act.run.run s).1 <;> rfl

theorem run_record (ps seen : List Node) :
    (forM ps record).run.run seen = (.ok (), seen ++ ps) := by
  induction ps generalizing seen with
  | nil =>
    rw [List.append_nil]
    rfl
  | cons p ps ih =>
    have hstep : (forM (p :: ps) record).run.run seen =
        (forM ps record).run.run (seen ++ [p]) := rfl
    rw [hstep, ih, List.append_assoc, List.singleton_append]

/-- The node after `seen` is noted, and refused if it is the `n`-th. -/
theorem run_recordUntil_cons (n : Nat) (d : Diagnostic) (p : Node) (ps seen : List Node) :
    (forM (p :: ps) (recordUntil n d)).run.run seen =
      if (seen ++ [p]).length = n then (.error (.refused d), seen ++ [p])
      else (forM ps (recordUntil n d)).run.run (seen ++ [p]) := by
  have hcheck : (forM (p :: ps) (recordUntil n d)).run.run seen =
      ((if (seen ++ [p]).length = n then VisitM.refuse d else return ()) >>= fun _ =>
        forM ps (recordUntil n d)).run.run (seen ++ [p]) := rfl
  rw [hcheck]
  split <;> rfl

theorem run_recordUntil {n : Nat} {d : Diagnostic} {ps seen : List Node} (hseen : seen.length < n)
    (hn : n ≤ (seen ++ ps).length) :
    (forM ps (recordUntil n d)).run.run seen = (.error (.refused d), (seen ++ ps).take n) := by
  induction ps generalizing seen with
  | nil =>
    rw [List.append_nil] at hn
    omega
  | cons p ps ih =>
    have hsplit : seen ++ p :: ps = (seen ++ [p]) ++ ps := by simp
    have hlength : (seen ++ [p]).length = seen.length + 1 := by simp
    rw [run_recordUntil_cons, hsplit]
    rw [hsplit] at hn
    split
    next hlast => rw [← hlast, List.take_left]
    next hlast => exact ih (by omega) hn

end Hooks

/-! ### Addresses -/

/-- The node at an address: which part to take, of which part of it, and so on. -/
def nodeAt? : List Nat → Node → Option Node
  | [], p => some p
  | i :: address, p => (parts p.1 p.2)[i]?.bind (nodeAt? address)

/-- The addresses less than so many levels deep, a node before its parts. -/
def addressesWithin : (levels : Nat) → Node → List (List Nat)
  | 0, _ => []
  | levels + 1, p => [] :: (parts p.1 p.2).zipIdx.flatMap fun q =>
      (addressesWithin levels q.1).map (q.2 :: ·)

/-- The list holds the node and all nodes below it, by increasing addresses. In the order of
addresses a node stands before everything below it, and what is below one of its parts before what
is below the next. -/
def IsListing (p : Node) (ps : List Node) : Prop :=
  ∃ addresses : List (List Nat), addresses.Pairwise (List.Lex (· < ·)) ∧
    (∀ a, a ∈ addresses ↔ (nodeAt? a p).isSome) ∧ ps.map some = addresses.map (nodeAt? · p)

theorem pairwise_addressesWithin (levels : Nat) (p : Node) :
    (addressesWithin levels p).Pairwise (List.Lex (· < ·)) := by
  induction levels generalizing p with
  | zero => exact .nil
  | succ levels ih =>
    rw [addressesWithin, List.pairwise_cons, List.pairwise_flatMap]
    refine ⟨?_, ?_, ?_⟩
    · intro a ha
      obtain ⟨q, -, ha⟩ := List.mem_flatMap.1 ha
      obtain ⟨b, -, rfl⟩ := List.mem_map.1 ha
      exact .nil
    · intro q _
      exact List.pairwise_map.2 ((ih q.1).imp fun h => .cons h)
    · -- the indices of the parts increase
      have hindices : ((parts p.1 p.2).zipIdx.map Prod.snd).Pairwise (· < ·) := by
        rw [List.zipIdx_map_snd]
        exact List.pairwise_lt_range' 1
      refine (List.pairwise_map.1 hindices).imp fun {q r} hlt a ha b hb => ?_
      obtain ⟨a, -, rfl⟩ := List.mem_map.1 ha
      obtain ⟨b, -, rfl⟩ := List.mem_map.1 hb
      exact .rel hlt

theorem mem_addressesWithin {levels : Nat} {p : Node} (h : weight p.1 p.2 ≤ levels)
    (a : List Nat) : a ∈ addressesWithin levels p ↔ (nodeAt? a p).isSome := by
  induction levels generalizing p a with
  | zero => exact absurd (weight_pos p.1 p.2) (by omega)
  | succ levels ih =>
    cases a with
    | nil => simp [addressesWithin, nodeAt?]
    | cons i a =>
      have hmem : i :: a ∈ addressesWithin (levels + 1) p ↔
          ∃ q, (parts p.1 p.2)[i]? = some q ∧ a ∈ addressesWithin levels q := by
        simp [addressesWithin, List.mem_zipIdx_iff_getElem?]
      have hnode : (nodeAt? (i :: a) p).isSome ↔
          ∃ q, (parts p.1 p.2)[i]? = some q ∧ (nodeAt? a q).isSome := by
        rw [nodeAt?]
        cases (parts p.1 p.2)[i]? <;> simp
      rw [hmem, hnode]
      refine exists_congr fun q => and_congr_right fun hq => ?_
      have hlt := weight_lt_of_mem_parts (List.mem_of_getElem? hq)
      exact ih (by omega) a

theorem map_addressesWithin (levels : Nat) (p : Node) :
    (addressesWithin levels p).map (nodeAt? · p) = (nodesWithin levels p.1 p.2).map some := by
  induction levels generalizing p with
  | zero => rfl
  | succ levels ih =>
    have hpart : ∀ q ∈ (parts p.1 p.2).zipIdx,
        ((addressesWithin levels q.1).map (q.2 :: ·)).map (nodeAt? · p) =
          (nodesWithin levels q.1.1 q.1.2).map some := by
      intro q hq
      rw [List.mem_zipIdx_iff_getElem?] at hq
      rw [List.map_map, ← ih q.1]
      apply List.map_congr_left
      intro a _
      simp [nodeAt?, hq]
    -- with their addresses, the parts are the same as without
    have hparts : ((parts p.1 p.2).zipIdx.flatMap fun q => nodesWithin levels q.1.1 q.1.2) =
        (parts p.1 p.2).flatMap fun q => nodesWithin levels q.1 q.2 := by
      nth_rewrite 2 [← List.zipIdx_map_fst 0 (parts p.1 p.2)]
      rw [List.flatMap_map]
    rw [addressesWithin, nodesWithin, List.map_cons, List.map_cons, List.map_flatMap,
      List.flatMap_congr hpart, ← List.map_flatMap, hparts]
    rfl

/-- **The nodes are listed in order, each once.** -/
theorem isListing_nodes (k : Kind) (x : k.Node) : IsListing ⟨k, x⟩ (nodes k x) :=
  ⟨addressesWithin (weight k x) ⟨k, x⟩, pairwise_addressesWithin _ _, mem_addressesWithin le_rfl,
    (map_addressesWithin (weight k x) ⟨k, x⟩).symm⟩

/-! ### Templates -/

/-- **A traversal visits every node once, in order, and stops at the first failure.** Hooks that do
nothing of their own give the template back. So do hooks that note each visit; they note all nodes,
listed in order. Hooks that fail at some visit fail in just that way, and have noted the visits up
to it. -/
theorem visit_exact {σ : Type} (s : σ) (t : Template) {levels : Nat} (h : t.weight ≤ levels) :
    (Hooks.plain.visit levels .template t).run.run s = (.ok t, s) ∧
    ((Hooks.observing record).visit levels .template t).run.run [] =
      (.ok t, nodes .template t) ∧
    IsListing ⟨.template, t⟩ (nodes .template t) ∧
    ∀ n d, 1 ≤ n → n ≤ (nodes .template t).length →
      ((Hooks.observing (recordUntil n d)).visit levels .template t).run.run [] =
        (.error (.refused d), (nodes .template t).take n) := by
  have hloop (look : Node → VisitM (List Node) Unit) :=
    visit_observing look (k := .template) (x := t) h
  refine ⟨?_, ?_, isListing_nodes .template t, ?_⟩
  · rw [visit_plain (k := .template) h]
    rfl
  · rw [hloop, run_return, run_record]
    rfl
  · intro n d hpos hn
    rw [hloop, run_return, run_recordUntil hpos hn]
    rfl

/-- Visiting `<Card class="a {{b}}" {{on (c)}}>{{#if d}}{{/if}}</Card>`, and failing at the first
mustache. -/
theorem visit_exact_card :
    let name (text : String) : Expr := .path (.ofText text {})
    let card : Element := {
      tag := "Card"
      attributes := [{
        name := "class"
        value := .concat { parts := [.text { chars := "a " }, .mustache { path := name "b" }] } }]
      modifiers := [{
        path := .ofText "on" {}
        params := [.sub { path := .ofText "c" {}, params := [], hash := {} }] }]
      children := [.block { path := name "if", params := [name "d"], program := { body := [] } }] }
    let t : Template := { body := [.element card] }
    let d : Diagnostic := .misuse "NB-ERR-MIXED-CONTENT" "unexpected content" "" none
    (nodes .template t).map Sigma.fst =
        [.template, .statements, .statement, .element,
          .attribute, .mustache, .expression, .hash,
          .modifier, .expression, .subExpression, .hash, .hash,
          .statements, .statement, .blockStatement, .expression, .expression, .hash,
          .block, .statements] ∧
      ((Hooks.observing record).visit t.weight .template t).run.run [] =
        (.ok t, nodes .template t) ∧
      ((Hooks.observing (recordUntil 6 d)).visit t.weight .template t).run.run [] =
        (.error (.refused d), (nodes .template t).take 6) := by
  intro name card t d
  obtain ⟨-, hrecorded, -, hfails⟩ := visit_exact () t le_rfl
  have hcount : (nodes .template t).length = 21 := by decide +kernel
  exact ⟨by decide +kernel, hrecorded, hfails 6 d (by decide) (by omega)⟩

end TemplateBlocks
