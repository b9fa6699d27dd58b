import TemplateBlocks.Proofs.Traversal.Weights

/-!
# Properties of all nodes

More on `Everywhere`, for properties that are about elements and bodies. Mustaches, attributes,
modifiers and expressions hold no elements (`everywhere_inline`), so that such a property passes
from an element to its children and from a block call to its blocks, and nothing else has to be
looked at (`everywhere_elements` and the lemmas around it). `OfCalls` is for properties of calls, in
whichever form.
-/

namespace TemplateBlocks

variable {k : Kind} {x : k.Node}

theorem Everywhere.imp {P Q : (k : Kind) → k.Node → Prop} (h : Everywhere P k x)
    (hPQ : ∀ k x, P k x → Q k x) : Everywhere Q k x := by
  induction h with
  | intro hx _ ih => exact .intro (hPQ _ _ hx) ih

theorem Everywhere.and {P Q : (k : Kind) → k.Node → Prop} (hP : Everywhere P k x)
    (hQ : Everywhere Q k x) : Everywhere (fun k x => P k x ∧ Q k x) k x := by
  induction hP with
  | intro hx _ ih =>
    obtain ⟨hx', hparts⟩ := everywhere_iff.1 hQ
    exact .intro ⟨hx, hx'⟩ fun p hp => ih p hp (hparts p hp)

/-- What follows from a property everywhere in a node holds everywhere in it. -/
theorem Everywhere.imp_self {P Q : (k : Kind) → k.Node → Prop} (h : Everywhere P k x)
    (hPQ : ∀ k x, Everywhere P k x → Q k x) : Everywhere Q k x := by
  induction h with
  | intro hx hparts ih => exact .intro (hPQ _ _ (.intro hx hparts)) ih

theorem Everywhere.children {P : (k : Kind) → k.Node → Prop} {e : Element}
    (h : Everywhere P .element e) : Everywhere P .statements e.children :=
  (everywhere_iff.1 h).2 ⟨.statements, e.children⟩ (by simp [parts])

/-- What holds everywhere in a body holds everywhere in its elements. -/
theorem Everywhere.of_mem {P : (k : Kind) → k.Node → Prop} {ss : List Statement} {c : Element}
    (h : Everywhere P .statements ss) (hc : .element c ∈ ss) : Everywhere P .element c := by
  have hs := (everywhere_iff.1 h).2 ⟨.statement, .element c⟩ (List.mem_map_of_mem hc)
  exact (everywhere_iff.1 hs).2 ⟨.element, c⟩ (by simp [parts, Statement.parts])

/-! ### Everywhere in nodes of one kind -/

section Kinds

variable {P : (k : Kind) → k.Node → Prop}

/-- `Everywhere` in the arguments of a call. -/
theorem everywhere_arguments {params : List Expr} {hash : Hash} :
    (∀ p ∈ argumentParts params hash, Everywhere P p.1 p.2) ↔
      (∀ e ∈ params, Everywhere P .expression e) ∧ Everywhere P .hash hash := by
  simp [argumentParts, or_imp, forall_and]

theorem everywhere_mustache {m : Mustache} : Everywhere P .mustache m ↔
    P .mustache m ∧ Everywhere P .expression m.path ∧
      (∀ e ∈ m.params, Everywhere P .expression e) ∧ Everywhere P .hash m.hash := by
  rw [everywhere_iff, ← everywhere_arguments]
  simp [parts]

theorem everywhere_subExpression {c : SubExpr} : Everywhere P .subExpression c ↔
    P .subExpression c ∧
      (∀ e ∈ c.params, Everywhere P .expression e) ∧ Everywhere P .hash c.hash := by
  rw [everywhere_iff, ← everywhere_arguments]
  simp [parts]

theorem everywhere_sub {c : SubExpr} : Everywhere P .expression (.sub c) ↔
    P .expression (.sub c) ∧ Everywhere P .subExpression c := by
  rw [everywhere_iff]
  simp [parts, Expr.parts]

theorem everywhere_hash {h : Hash} : Everywhere P .hash h ↔
    P .hash h ∧ ∀ p ∈ h.pairs, Everywhere P .expression p.value := by
  rw [everywhere_iff]
  simp [parts]

theorem everywhere_element {e : Element} : Everywhere P .element e ↔
    P .element e ∧ (∀ a ∈ e.attributes, Everywhere P .attribute a) ∧
      (∀ m ∈ e.modifiers, Everywhere P .modifier m) ∧ Everywhere P .statements e.children := by
  rw [everywhere_iff]
  simp [parts, or_imp, forall_and]

theorem everywhere_blockStatement {b : BlockStatement} : Everywhere P .blockStatement b ↔
    P .blockStatement b ∧ Everywhere P .expression b.path ∧
      ((∀ e ∈ b.params, Everywhere P .expression e) ∧ Everywhere P .hash b.hash) ∧
      Everywhere P .block b.program ∧ ∀ i ∈ b.inverse, Everywhere P .block i := by
  rw [everywhere_iff, ← everywhere_arguments]
  simp only [parts, List.forall_mem_cons, List.forall_mem_append, List.forall_mem_map,
    Option.mem_toList, Option.mem_def]

end Kinds

/-! ### Deciding -/

section Decide

variable (P : (k : Kind) → k.Node → Prop) [∀ k x, Decidable (P k x)]

/-- Whether `P` holds of a node and of all nodes below it, which go less than so many levels
deep. -/
def holdsWithin : (levels : Nat) → (k : Kind) → k.Node → Bool
  | 0, _, _ => false
  | levels + 1, k, x => decide (P k x) && (parts k x).all fun p => holdsWithin levels p.1 p.2

variable {P}

theorem holdsWithin_iff {levels : Nat} (h : weight k x ≤ levels) :
    holdsWithin P levels k x ↔ Everywhere P k x := by
  induction levels generalizing k x with
  | zero => exact absurd (weight_pos k x) (by omega)
  | succ levels ih =>
    have hparts : ∀ p ∈ parts k x, holdsWithin P levels p.1 p.2 ↔ Everywhere P p.1 p.2 := by
      intro p hp
      have := weight_lt_of_mem_parts hp
      exact ih (by omega)
    rw [everywhere_iff, holdsWithin, Bool.and_eq_true, decide_eq_true_iff, List.all_eq_true]
    exact and_congr_right fun _ => forall₂_congr hparts

instance : Decidable (Everywhere P k x) :=
  decidable_of_iff (holdsWithin P (weight k x) k x) (holdsWithin_iff le_rfl)

end Decide

/-! ### Inline nodes -/

/-- The kinds of nodes that hold no statements. -/
def Kind.isInline : Kind → Bool
  | .mustache | .attribute | .modifier | .expression | .subExpression | .hash => true
  | .template | .block | .statements | .statement | .element | .blockStatement => false

theorem isInline_of_mem_argumentParts {params : List Expr} {hash : Hash} {p : Node}
    (h : p ∈ argumentParts params hash) : p.1.isInline := by
  rcases List.mem_append.1 h with h | h
  · obtain ⟨e, -, rfl⟩ := List.mem_map.1 h
    rfl
  · rw [List.mem_singleton.1 h]
    rfl

theorem isInline_of_mem_value {a : AttrValue} {p : Node} (h : p ∈ a.parts) : p.1.isInline := by
  cases a with
  | text t => simp [AttrValue.parts] at h
  | mustache m =>
    rw [List.mem_singleton.1 h]
    rfl
  | concat c =>
    obtain ⟨q, -, hp⟩ := List.mem_flatMap.1 h
    cases q with
    | text t => simp [ConcatPart.parts] at hp
    | mustache m =>
      rw [List.mem_singleton.1 hp]
      rfl

/-- The parts of inline nodes are inline. -/
theorem isInline_of_mem_parts {p : Node} (hk : k.isInline) (hp : p ∈ parts k x) :
    p.1.isInline := by
  match k, x, hk, hp with
  | .mustache, m, _, hp =>
    rcases List.mem_cons.1 hp with rfl | hp
    · rfl
    · exact isInline_of_mem_argumentParts hp
  | .attribute, a, _, hp => exact isInline_of_mem_value hp
  | .modifier, m, _, hp => exact isInline_of_mem_argumentParts hp
  | .expression, e, _, hp =>
    cases e <;> simp [parts, Expr.parts] at hp
    rw [hp]
    rfl
  | .subExpression, c, _, hp => exact isInline_of_mem_argumentParts hp
  | .hash, h, _, hp =>
    obtain ⟨q, -, rfl⟩ := List.mem_map.1 hp
    rfl

/-- No node has a template for a part. -/
theorem ne_template_of_mem_parts {p : Node} (hp : p ∈ parts k x) : p.1 ≠ .template := by
  have hinline (h : p.1.isInline) : p.1 ≠ .template := by
    intro hk
    rw [hk] at h
    cases h
  cases hk : k.isInline with
  | true => exact hinline (isInline_of_mem_parts hk hp)
  | false =>
    match k, x, hk, hp with
    | .template, t, _, hp | .block, b, _, hp => simp [List.mem_singleton.1 hp]
    | .statements, ss, _, hp =>
      obtain ⟨s, -, rfl⟩ := List.mem_map.1 hp
      simp
    | .statement, s, _, hp => cases s <;> simp [parts, Statement.parts] at hp <;> simp [hp]
    | .element, e, _, hp =>
      simp only [parts, List.mem_append, List.mem_map, List.mem_singleton] at hp
      rcases hp with ⟨a, -, rfl⟩ | ⟨m, -, rfl⟩ | rfl <;> simp
    | .blockStatement, b, _, hp =>
      simp only [parts, List.mem_append, List.mem_cons, List.mem_map] at hp
      rcases hp with rfl | hp | rfl | ⟨i, -, rfl⟩
      · simp
      · exact hinline (isInline_of_mem_argumentParts hp)
      · simp
      · simp

/-- What holds of all inline nodes holds everywhere in them. -/
theorem everywhere_inline {P : (k : Kind) → k.Node → Prop} (hP : ∀ k x, k.isInline → P k x)
    (hk : k.isInline) (x : k.Node) : Everywhere P k x := by
  induction hn : weight k x using Nat.strong_induction_on generalizing k x with
  | _ n ih =>
    refine .intro (hP k x hk) ?_
    intro p hp
    exact ih _ (hn ▸ weight_lt_of_mem_parts hp) (isInline_of_mem_parts hk hp) p.2 rfl

/-! ### Elements -/

/-- A property of elements, as one of all nodes. -/
def OfElements (P : Element → Prop) : (k : Kind) → k.Node → Prop
  | .element, e => P e
  | _, _ => True

section Elements

variable {P : Element → Prop}

instance [DecidablePred P] : Decidable (OfElements P k x) :=
  match k, x with
  | .element, e => inferInstanceAs (Decidable (P e))
  | .template, _ | .block, _ | .statements, _ | .statement, _ | .mustache, _
  | .blockStatement, _ | .attribute, _ | .modifier, _ | .expression, _ | .subExpression, _
  | .hash, _ => isTrue trivial

/-- Only elements have to be looked at. -/
theorem ofElements_of {Q : (k : Kind) → k.Node → Prop} (h : ∀ e, Q .element e → P e)
    (hx : Q k x) : OfElements P k x := by
  match k, x, hx with
  | .element, e, hx => exact h e hx
  | .template, _, _ | .block, _, _ | .statements, _, _ | .statement, _, _ | .mustache, _, _
  | .blockStatement, _, _ | .attribute, _, _ | .modifier, _, _ | .expression, _, _
  | .subExpression, _, _ | .hash, _, _ => trivial

theorem Everywhere.elements {Q : (k : Kind) → k.Node → Prop} (h : Everywhere Q k x)
    (hQP : ∀ e, Q .element e → P e) : Everywhere (OfElements P) k x :=
  h.imp fun _ _ hx => ofElements_of hQP hx

theorem everywhere_elements_inline (hk : k.isInline) (x : k.Node) :
    Everywhere (OfElements P) k x :=
  everywhere_inline (fun _ _ hk => ofElements_of (Q := fun k _ => k.isInline) nofun hk) hk x

theorem everywhere_elements {e : Element} : Everywhere (OfElements P) .element e ↔
    P e ∧ Everywhere (OfElements P) .statements e.children := by
  rw [everywhere_iff]
  refine and_congr_right fun _ => ⟨fun h => h ⟨.statements, e.children⟩ (by simp [parts]), ?_⟩
  intro hchildren p hp
  rcases List.mem_append.1 hp with hp | hp
  · obtain ⟨a, -, rfl⟩ := List.mem_map.1 hp
    exact everywhere_elements_inline (k := .attribute) rfl a
  rcases List.mem_append.1 hp with hp | hp
  · obtain ⟨m, -, rfl⟩ := List.mem_map.1 hp
    exact everywhere_elements_inline (k := .modifier) rfl m
  · rwa [List.mem_singleton.1 hp]

theorem everywhere_elements_statements {ss : List Statement} :
    Everywhere (OfElements P) .statements ss ↔
      ∀ s ∈ ss, Everywhere (OfElements P) .statement s := by
  rw [everywhere_iff]
  simp [parts, OfElements]

theorem everywhere_elements_statement {s : Statement} :
    Everywhere (OfElements P) .statement s ↔
      ∀ p ∈ s.parts, Everywhere (OfElements P) p.1 p.2 := by
  rw [everywhere_iff]
  simp [parts, OfElements]

theorem everywhere_elements_block {b : Block} :
    Everywhere (OfElements P) .block b ↔ Everywhere (OfElements P) .statements b.body := by
  rw [everywhere_iff]
  simp [parts, OfElements]

theorem everywhere_elements_blockStatement {b : BlockStatement} :
    Everywhere (OfElements P) .blockStatement b ↔
      Everywhere (OfElements P) .block b.program ∧
        ∀ i ∈ b.inverse, Everywhere (OfElements P) .block i := by
  rw [everywhere_iff]
  constructor
  · rintro ⟨-, h⟩
    exact ⟨h ⟨.block, b.program⟩ (by simp [parts]),
      fun i hi => h ⟨.block, i⟩ (by simp [parts, Option.mem_def.1 hi])⟩
  · rintro ⟨hprogram, hinverse⟩
    refine ⟨trivial, ?_⟩
    intro p hp
    rcases List.mem_cons.1 hp with rfl | hp
    · exact everywhere_elements_inline rfl _
    rcases List.mem_append.1 hp with hp | hp
    · exact everywhere_elements_inline (isInline_of_mem_argumentParts hp) _
    rcases List.mem_cons.1 hp with rfl | hp
    · exact hprogram
    · obtain ⟨i, hi, rfl⟩ := List.mem_map.1 hp
      exact hinverse i (by simpa using hi)

/-- A body of one block call. -/
theorem everywhere_elements_singleton {b : BlockStatement} :
    Everywhere (OfElements P) .statements [.block b] ↔
      Everywhere (OfElements P) .blockStatement b := by
  simp [everywhere_elements_statements, everywhere_elements_statement, Statement.parts]

end Elements

/-! ### Calls -/

instance (e : Expr) (Q : Path → Prop) [DecidablePred Q] :
    Decidable (∀ p, e = .path p → Q p) :=
  match e with
  | .path p => decidable_of_iff (Q p) (by simp)
  | .sub _ | .string _ | .number _ | .boolean _ => isTrue (by simp)

/-- A property of calls by a path, as one of all nodes. -/
def OfCalls (Q : Path → List Expr → Hash → Prop) : (k : Kind) → k.Node → Prop
  | .mustache, m => ∀ p, m.path = .path p → Q p m.params m.hash
  | .blockStatement, b => ∀ p, b.path = .path p → Q p b.params b.hash
  | .subExpression, c => Q c.path c.params c.hash
  | _, _ => True

section Calls

variable {Q R : Path → List Expr → Hash → Prop}

instance [∀ p params hash, Decidable (Q p params hash)] : Decidable (OfCalls Q k x) :=
  match k, x with
  | .mustache, m => inferInstanceAs (Decidable (∀ p, m.path = .path p → Q p m.params m.hash))
  | .blockStatement, b => inferInstanceAs (Decidable (∀ p, b.path = .path p → Q p b.params b.hash))
  | .subExpression, c => inferInstanceAs (Decidable (Q c.path c.params c.hash))
  | .template, _ | .block, _ | .statements, _ | .statement, _ | .element, _ | .attribute, _
  | .modifier, _ | .expression, _ | .hash, _ => isTrue trivial

theorem OfCalls.imp (h : OfCalls Q k x) (hQR : ∀ p params hash, Q p params hash → R p params hash) :
    OfCalls R k x := by
  match k, x, h with
  | .mustache, m, h | .blockStatement, b, h => exact fun p hp => hQR _ _ _ (h p hp)
  | .subExpression, c, h => exact hQR _ _ _ h
  | .template, _, _ | .block, _, _ | .statements, _, _ | .statement, _, _ | .element, _, _
  | .attribute, _, _ | .modifier, _, _ | .expression, _, _ | .hash, _, _ => trivial

end Calls

end TemplateBlocks
