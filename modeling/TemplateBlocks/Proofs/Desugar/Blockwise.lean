import TemplateBlocks.Proofs.Desugar.Freshness

/-!
# Invocations block by block

Desugaring replaces an invocation by its fanned-out form and then goes on into that form: through
a frame that binds the slots, and for each block through the frames of its branch. None of these
shows as long as the invocation avoids the names of the slots: the plain form of an invocation is
made by fanning out the plain forms of its blocks, each of them taken in the scope around the
invocation with the block's own params.
-/

namespace TemplateBlocks

open Desugar

variable {scope inside : Scope} {names : List String}

/-! ### Synthesized nodes -/

theorem plainForm_block {b : Block} (hb : b.origin = .source) : plainForm scope .block b =
    (do return { b with body := ← plainForm (scope.push (.ofBlock b)) .statements b.body }) := by
  have hinner : innerScope scope .block b = scope.push (.ofBlock b) := by simp [innerScope, hb]
  rw [plainForm_eq, ← hinner]
  rfl

/-- A bare call of a path, without named arguments. -/
theorem plainForm_blockStatement {b : BlockStatement} {p : Path} {loc : Span}
    (hpath : b.path = .path p) (hhash : b.hash = { pairs := [], loc })
    (hparams : b.params.mapM (plainForm scope .expression) = .ok b.params) :
    plainForm scope .blockStatement b = (do
      let program ← plainForm scope .block b.program
      let inverse ← b.inverse.mapM (plainForm scope .block)
      return { b with program, inverse }) := by
  rw [plainForm_eq]
  change walk (plainForm scope) .blockStatement b = _
  obtain ⟨path, params, hash, program, inverse, loc', origin⟩ := b
  obtain rfl : path = .path p := hpath
  obtain rfl : hash = { pairs := [], loc } := hhash
  simp only [walk, plainForm_path, ok_bind, plainForm_hash_nil]
  rw [hparams, ok_bind]

theorem plainForm_singleton (b : BlockStatement) : plainForm scope .statements [.block b] =
    (do return [.block (← plainForm scope .blockStatement b)]) := by
  rw [plainForm_statements]
  simp [map_eq_pure_bind]

theorem plainForm_markerTest (block : Element) :
    plainForm scope .subExpression block.markerTest = .ok block.markerTest := by
  have hstays : Settled (fun c : SubExpr => c.enter scope .standard) block.markerTest := by
    rw [SubExpr.settled_iff, Element.markerTest, Path.ofText_text]
    decide
  rw [plainForm_eq, settled_subExpression, settleSource_of_settled hstays, ok_bind]
  exact walk_subExpression_eq_ok.2 ⟨_, _, by simp [Element.markerTest], plainForm_hash_nil _, rfl⟩

theorem plainForm_arities (arities : List (String × Nat)) (loc : Span) :
    plainForm scope .hash { pairs := arities.map fun a => arityPair a.1 a.2, loc } =
      .ok { pairs := arities.map fun a => arityPair a.1 a.2, loc } := by
  have hpairs : ∀ p ∈ arities.map fun a => arityPair a.1 a.2,
      walkPair (plainForm scope) p = pure p := by
    intro p hp
    obtain ⟨a, -, rfl⟩ := List.mem_map.1 hp
    simp [walkPair, arityPair]
  rw [plainForm_hash, mapM_eq_self _ hpairs]
  rfl

theorem plainForm_hashCall (m : Metadata) :
    plainForm scope .mustache m.hashCall = .ok m.hashCall := by
  have hstays : Settled (fun m : Mustache => m.enter scope .standard) m.hashCall := by
    left
    rw [Mustache.outcome_enter]
    simp only [Metadata.hashCall, Path.ofText_text]
    rfl
  rw [plainForm_eq, settled_mustache, settleSource_of_settled hstays, ok_bind]
  exact walk_mustache_eq_ok.2 ⟨_, _, _, plainForm_path _, rfl, plainForm_arities _ _, rfl⟩

theorem plainForm_metadata (m : Metadata) :
    plainForm scope .attribute m.attribute = .ok m.attribute := by
  rw [plainForm_eq]
  change walk (plainForm scope) .attribute m.attribute = _
  simp only [walk, walkValue, Metadata.attribute, plainForm_hashCall]
  rfl

/-! ### Branches -/

/-- The block with its children in their plain form, in the given scope with the block's own
params. -/
def plainBlock (scope : Scope) (block : Element) : Except Halt Element := do
  let children ← plainForm (scope.push ⟨.block, block.blockParams, block.loc⟩) .statements
    block.children
  return { block with children }

theorem plainBlock_bind {α : Type} (scope : Scope) (block : Element) (f : Element → Except Halt α) :
    plainBlock scope block >>= f =
      plainForm (scope.push ⟨.block, block.blockParams, block.loc⟩) .statements block.children >>=
        fun children => f { block with children } := by
  simp [plainBlock]

/-- A body in its own frame, inside a scope that agrees with the outer one. -/
theorem plainForm_ownBody {block : Element} (h : inside.AgreeBut names scope)
    (hb : Everywhere (Avoids names) .statements block.children) :
    plainForm inside .block block.ownBody =
      (do return (← plainBlock scope block).ownBody) := by
  rw [plainForm_block rfl, plainBlock_bind]
  change (do
    return { block.ownBody with
      body := ← plainForm (inside.push _) .statements block.children }) = _
  rw [plainForm_congr (h.push _) hb]
  rfl

theorem plainForm_letSlots {block : Element} (h : inside.AgreeBut names scope)
    (hb : Everywhere (Avoids names) .statements block.children) :
    plainForm inside .blockStatement block.letSlots =
      (do return (← plainBlock scope block).letSlots) := by
  have hslots : block.letSlots.params.mapM (plainForm inside .expression) =
      .ok block.letSlots.params := by
    apply mapM_eq_self
    intro e he
    obtain ⟨i, -, rfl⟩ := List.mem_map.1 he
    exact plainForm_path _
  rw [plainForm_blockStatement rfl rfl hslots]
  rw [show block.letSlots.program = block.ownBody from rfl, plainForm_ownBody h hb]
  simp only [Element.letSlots, Option.mapM_none, bind_assoc, pure_bind, plainBlock_bind]
  rfl

theorem plainForm_branchBody {block : Element} (h : inside.AgreeBut names scope)
    (hb : Everywhere (Avoids names) .statements block.children) :
    plainForm inside .block block.branchBody =
      (do return (← plainBlock scope block).branchBody) := by
  cases hempty : block.blockParams.isEmpty with
  | true =>
    have hbody : block.branchBody = block.ownBody := if_pos hempty
    rw [hbody, plainForm_ownBody h hb, plainBlock_bind, plainBlock_bind]
    refine bind_congr fun children => ?_
    rw [Element.branchBody, if_pos hempty]
  | false =>
    have hbody : block.branchBody = { body := [.block block.letSlots], loc := block.loc } :=
      if_neg (by simp [hempty])
    have hframe := h.push_left (f := .ofBlock { body := [.block block.letSlots], loc := block.loc })
      (by simp [Frame.ofBlock])
    rw [hbody, plainForm_block rfl, plainForm_singleton, plainForm_letSlots hframe hb]
    simp only [bind_assoc, pure_bind, plainBlock_bind]
    refine bind_congr fun children => ?_
    rw [Element.branchBody, if_neg (by simp [hempty])]

/-- A branch, whatever stands in its inverse. -/
theorem plainForm_branch {block : Element} (h : inside.AgreeBut names scope)
    (hb : Everywhere (Avoids names) .statements block.children) (inverse : Option Block) :
    plainForm inside .blockStatement { block.branch with inverse } = (do
      let block ← plainBlock scope block
      let inverse ← inverse.mapM (plainForm inside .block)
      return { block.branch with inverse }) := by
  have htest : [Expr.sub block.markerTest].mapM (plainForm inside .expression) =
      .ok [.sub block.markerTest] := by
    apply mapM_eq_self
    intro e he
    rw [List.mem_singleton.1 he, plainForm_sub, plainForm_markerTest]
    rfl
  rw [plainForm_blockStatement (b := { block.branch with inverse }) rfl rfl htest]
  simp only [Element.branch, plainForm_branchBody h hb, bind_assoc, pure_bind, plainBlock_bind]
  rfl

/-! ### The chain of branches -/

/-- **The chain of branches goes block by block.** -/
theorem plainForm_dispatchChain {first : Element} {rest : List Element}
    (h : inside.AgreeBut names scope)
    (hb : ∀ block ∈ first :: rest, Everywhere (Avoids names) .statements block.children) :
    plainForm inside .blockStatement (dispatchChain first rest) = (do
      let first ← plainBlock scope first
      let rest ← rest.mapM (plainBlock scope)
      return dispatchChain first rest) := by
  induction rest generalizing first inside with
  | nil =>
    have hchain : dispatchChain first [] = { first.branch with inverse := none } := rfl
    rw [hchain, plainForm_branch h (hb first (by simp))]
    simp [dispatchChain, Element.branch]
  | cons next rest ih =>
    let chained (b : BlockStatement) (loc : Span) : Block :=
      { body := [.block b], chained := true, loc }
    have hchain (a b : Element) (bs : List Element) : dispatchChain a (b :: bs) =
      { a.branch with inverse := some (chained (dispatchChain b bs) b.loc) } := rfl
    -- the frame of an inverse binds nothing, so the scope inside agrees as before
    have hframe := h.push_left (f := .ofBlock (chained (dispatchChain next rest) next.loc))
      (by simp [Frame.ofBlock, chained])
    have hnext := ih hframe fun block hmem => hb block (List.mem_cons_of_mem _ hmem)
    have hinverse : plainForm inside .block (chained (dispatchChain next rest) next.loc) = (do
        let next ← plainBlock scope next
        let rest ← rest.mapM (plainBlock scope)
        return chained (dispatchChain next rest) next.loc) := by
      rw [plainForm_block rfl, plainForm_singleton, hnext]
      simp only [bind_assoc, pure_bind, plainBlock_bind]
      rfl
    rw [hchain, plainForm_branch h (hb first (by simp)), Option.mapM_some, hinverse]
    simp only [map_eq_pure_bind, bind_assoc, pure_bind, List.mapM_cons, hchain]

/-! ### Invocations -/

/-- An invocation of the source that is to be fanned out in a scope, and its blocks. -/
structure IsInvocation (scope : Scope) (e : Element) (blocks : List Element) : Prop where
  source : e.origin = .source
  opens : e.selfClosing = false
  component : e.isComponent scope false = true
  unnamed : e.blockName? = none
  declares : e.namedBlocks = .ok blocks
  nonempty : blocks ≠ []
  notLone : ¬ IsLoneDefault blocks
  fannable : e.IsFannable

theorem settled_fanned {e first : Element} {rest : List Element}
    (h : IsInvocation scope e (first :: rest)) :
    settled scope .element e = .ok (e.fanned first rest) := by
  have hfan := Element.outcome_fanOut_cons h.fannable h.notLone
  have hbecomes : Becomes (fun e : Element => e.enter scope .standard) e (e.fanned first rest) :=
    Element.becomes_iff.2 ⟨h.opens, h.unnamed, h.component, _, h.declares, h.nonempty, hfan⟩
  have hplain : (e.fanned first rest).IsPlain scope :=
    .inr ⟨rfl, h.unnamed, by simp [Element.fanned], .inl h.component⟩
  have hstays : Settled (fun e : Element => e.enter scope .standard) (e.fanned first rest) :=
    .inl (Element.enter_eq_none.2 hplain)
  -- the first round replaces the invocation, and the second one finds nothing to do
  have hne : e.fanned first rest ≠ e := by
    intro heq
    rw [heq] at hplain
    have hnone := Element.enter_eq_none.2 hplain
    rw [show outcome (e.enter scope .standard) = _ from hbecomes] at hnone
    cases hnone
  rw [settled_element, h.source]
  refine refusing_eq_ok.2 ?_
  rw [show roundLimit = 14 + 1 + 1 from rfl, settle_of_becomes hbecomes hne]
  exact settle_of_settled hstays

/-- What does not look at the children of a block is the same of its plain form. -/
theorem map_plainBlocks {α : Type} {f : Element → α} {blocks blocks' : List Element}
    (hf : ∀ (b : Element) (children : List Statement), f { b with children } = f b)
    (h : blocks.mapM (plainBlock scope) = .ok blocks') : blocks'.map f = blocks.map f := by
  refine map_eq_of_mapM ?_ h
  intro b b' hb
  obtain ⟨children, -, hb⟩ := bind_eq_ok.1 hb
  cases hb
  exact hf b children

theorem metadata_plainBlocks {blocks blocks' : List Element}
    (h : blocks.mapM (plainBlock scope) = .ok blocks') :
    Metadata.ofBlocks blocks' = Metadata.ofBlocks blocks := by
  unfold Metadata.ofBlocks
  rw [map_plainBlocks (fun _ _ => rfl) h]

theorem slotNames_plainBlocks {blocks blocks' : List Element}
    (h : blocks.mapM (plainBlock scope) = .ok blocks') : slotNames blocks' = slotNames blocks := by
  unfold slotNames slotCount
  rw [map_plainBlocks (fun _ _ => rfl) h]

theorem isLoneDefault_iff {blocks : List Element} :
    IsLoneDefault blocks ↔ blocks.map Element.blockName? = [some Names.defaultBlock] := by
  simp [IsLoneDefault, List.map_eq_cons_iff]

theorem name_plainForm {a a' : Attribute} (h : plainForm scope .attribute a = .ok a') :
    a'.name = a.name := by
  rw [plainForm_eq] at h
  obtain ⟨settled, hs, h⟩ := bind_eq_ok.1 h
  cases hs
  obtain ⟨value, -, h⟩ := bind_eq_ok.1 h
  cases h
  rfl

theorem innerScope_component {e : Element} (hsource : e.origin = .source)
    (hopen : e.selfClosing = false) (hcomp : e.isComponent scope false = true) :
    innerScope scope .element e = scope.push (.ofComponent e) := by
  simp [innerScope, hsource, hopen, hcomp]

/-- The attributes and modifiers of an invocation in the scope around it, and its blocks, each with
its own params: all in their plain form, in this order. -/
def plainParts (scope : Scope) (e : Element) (blocks : List Element) :
    Except Halt (List Attribute × List Modifier × List Element) := do
  let attributes ← e.attributes.mapM (plainForm scope .attribute)
  let modifiers ← e.modifiers.mapM (plainForm scope .modifier)
  let blocks ← blocks.mapM (plainBlock scope)
  return (attributes, modifiers, blocks)

/-- The children of an invocation that dispatches to its blocks. -/
def dispatchChildren : List Element → List Statement
  | [] => []
  | first :: rest => [.block (dispatchChain first rest)]

/-- The invocation is walked in its fanned-out form, inside the frame that binds the slots. -/
theorem plainForm_walk_fanned {e first : Element} {rest : List Element}
    (h : IsInvocation scope e (first :: rest))
    (ha : Everywhere (Avoids (slotNames (first :: rest))) .element e) :
    plainForm scope .element e = (do
      let (attributes, modifiers, blocks) ← plainParts scope e (first :: rest)
      return { e.fanned first rest with
        attributes := attributes ++ [(Metadata.ofBlocks (first :: rest)).attribute]
        modifiers
        children := dispatchChildren blocks }) := by
  obtain ⟨-, hattrs, hmods, hchildren⟩ := avoids_element.1 ha
  have hbodies := Element.avoids_namedBlocks h.declares hchildren
  have hinside : (scope.push (.ofComponent (e.fanned first rest))).AgreeBut
      (slotNames (first :: rest)) scope := by
    have hbinds : (Frame.ofComponent (e.fanned first rest)).blockParams =
        slotNames (first :: rest) := rfl
    apply (Scope.AgreeBut.refl _ scope).push_left
    simp [hbinds]
  have hinner : innerScope scope .element (e.fanned first rest) = _ :=
    innerScope_component rfl rfl h.component
  rw [plainForm_eq, settled_fanned h, ok_bind, hinner]
  -- from here on only that the two scopes agree matters
  generalize scope.push (.ofComponent (e.fanned first rest)) = inside at hinside
  have hattributes : (e.fanned first rest).attributes.mapM (plainForm inside .attribute) = (do
      let attributes ← e.attributes.mapM (plainForm scope .attribute)
      return attributes ++ [(Metadata.ofBlocks (first :: rest)).attribute]) := by
    rw [Element.fanned, List.mapM_append, (ActionRel.eq _).mapM e.attributes fun a ha =>
      plainForm_congr hinside (hattrs a ha)]
    simp [plainForm_metadata]
  have hmodifiers : (e.fanned first rest).modifiers.mapM (plainForm inside .modifier) =
      e.modifiers.mapM (plainForm scope .modifier) :=
    (ActionRel.eq _).mapM e.modifiers fun m hm => plainForm_congr hinside (hmods m hm)
  have hchain : plainForm inside .statements (e.fanned first rest).children = (do
      return dispatchChildren (← (first :: rest).mapM (plainBlock scope))) := by
    rw [Element.fanned, plainForm_singleton, plainForm_dispatchChain hinside hbodies]
    simp only [List.mapM_cons, bind_assoc, pure_bind, dispatchChildren]
  simp only [walk, plainParts, hattributes, hmodifiers, hchain, bind_assoc, pure_bind]

/-- What the parts of an invocation have become can be fanned out. -/
theorem fanOut_plainParts {e first : Element} {rest : List Element} {attributes : List Attribute}
    {modifiers : List Modifier} {blocks : List Element} (h : IsInvocation scope e (first :: rest))
    (hp : plainParts scope e (first :: rest) = .ok (attributes, modifiers, blocks)) :
    outcome ({ e with attributes, modifiers }.fanOut .standard blocks) =
      .ok { e.fanned first rest with
        attributes := attributes ++ [(Metadata.ofBlocks (first :: rest)).attribute]
        modifiers
        children := dispatchChildren blocks } := by
  obtain ⟨as, hattrs, hp⟩ := bind_eq_ok.1 hp
  obtain ⟨ms, -, hp⟩ := bind_eq_ok.1 hp
  obtain ⟨bs, hblocks, hp⟩ := bind_eq_ok.1 hp
  cases hp
  have hlone : ¬ IsLoneDefault blocks := by
    rw [isLoneDefault_iff, map_plainBlocks (fun _ _ => rfl) hblocks, ← isLoneDefault_iff]
    exact h.notLone
  have hnames : attributes.map Attribute.name = e.attributes.map Attribute.name :=
    map_eq_of_mapM (fun _ _ ha => name_plainForm ha) hattrs
  have hfannable : ({ e with attributes, modifiers } : Element).IsFannable := by
    refine ⟨h.fannable.1, ?_⟩
    intro a ha heq
    have hmem : Names.metadataArgument ∈ e.attributes.map Attribute.name :=
      hnames ▸ heq ▸ List.mem_map_of_mem ha
    obtain ⟨a', ha', hname⟩ := List.mem_map.1 hmem
    exact h.fannable.2 a' ha' hname
  have hinfo := metadata_plainBlocks hblocks
  have hslots := slotNames_plainBlocks hblocks
  cases blocks with
  | nil => simpa using (mapM_forall₂ hblocks).length_eq
  | cons first' rest' =>
    rw [Element.outcome_fanOut_cons hfannable hlone, Element.fanned, hinfo, hslots]
    rfl

/-- **An invocation is desugared block by block**: it ends in the first failure among its
attributes, its modifiers and its blocks, and otherwise in fanning out what these have become. -/
theorem plainForm_invocation {e : Element} {blocks : List Element} (h : IsInvocation scope e blocks)
    (ha : Everywhere (Avoids (slotNames blocks)) .element e) :
    (∀ halt, plainParts scope e blocks = .error halt → plainForm scope .element e = .error halt) ∧
    ∀ attributes modifiers blocks',
      plainParts scope e blocks = .ok (attributes, modifiers, blocks') →
      ∃ e', outcome ({ e with attributes, modifiers }.fanOut .standard blocks') = .ok e' ∧
        plainForm scope .element e = .ok e' := by
  obtain ⟨first, rest, rfl⟩ := List.exists_cons_of_ne_nil h.nonempty
  rw [plainForm_walk_fanned h ha]
  refine ⟨?_, ?_⟩
  · intro halt hp
    rw [hp, error_bind]
  · intro attributes modifiers blocks' hp
    refine ⟨_, fanOut_plainParts h hp, ?_⟩
    rw [hp, ok_bind]
    rfl

/-- A card with a header that yields on and a footer, in a scope that binds a name. -/
theorem plainForm_invocation_card :
    let target : Literal String := { value := "footer" }
    let yield : Mustache := {
      path := .path (.ofText "yield" {})
      hash := { pairs := [{ key := "to", value := .string target }] } }
    let header (m : Mustache) : Element :=
      { tag := ":header", blockParams := ["title"], children := [.mustache m] }
    let footer : Element := { tag := ":footer", children := [.text { chars := "end" }] }
    let e : Element := { tag := "card", children := [.element (header yield), .element footer] }
    let scope : Scope := Scope.root.push ⟨.block, ["card"], {}⟩
    IsInvocation scope e [header yield, footer] ∧
      Everywhere (Avoids (slotNames [header yield, footer])) .element e ∧
      ∃ e', outcome (e.fanOut .standard [header (yield.yieldTo target), footer]) = .ok e' ∧
        plainForm scope .element e = .ok e' := by
  intro target yield header footer e scope
  have h : IsInvocation scope e [header yield, footer] := {
    source := rfl
    opens := rfl
    component := by decide
    unnamed := by decide
    declares := by decide +kernel
    nonempty := by simp
    notLone := by
      rw [isLoneDefault_iff]
      decide
    fannable := ⟨rfl, by simp [e]⟩ }
  have hyield : Everywhere (Avoids (slotNames [header yield, footer])) .mustache yield := by
    refine avoids_mustache.2 ⟨?_, avoids_path _, by simp [yield], avoids_hash ?_⟩
    · rintro p ⟨⟩ -
      decide
    · simpa [yield] using avoids_string target
  have hbody (b : Element) (hb : b.attributes = [] ∧ b.modifiers = [])
      (hhead : b.head ∉ slotNames [header yield, footer])
      (hchildren : ∀ x ∈ b.children, ∀ p ∈ x.parts,
        Everywhere (Avoids (slotNames [header yield, footer])) p.1 p.2) :
      Everywhere (Avoids (slotNames [header yield, footer])) .element b := by
    refine avoids_element.2 ⟨hhead, by simp [hb.1], by simp [hb.2],
      avoids_statements.2 fun x hx => ?_⟩
    exact avoids_statement.2 (hchildren x hx)
  have hheader := hbody (header yield) ⟨rfl, rfl⟩ (by decide)
    (by simpa [header, Statement.parts] using hyield)
  have hfooter := hbody footer ⟨rfl, rfl⟩ (by decide) (by simp [footer, Statement.parts])
  have ha := hbody e ⟨rfl, rfl⟩ (by decide) (by simpa [e, Statement.parts] using ⟨hheader, hfooter⟩)
  have hparts : plainParts scope e [header yield, footer] =
      .ok ([], [], [header (yield.yieldTo target), footer]) := by decide +kernel
  exact ⟨h, ha, (plainForm_invocation h ha).2 _ _ _ hparts⟩

end TemplateBlocks
