import TemplateBlocks.Proofs.Desugar.Idempotence
import TemplateBlocks.Proofs.Traversal.Preorder

/-!
# The content of a template

Desugaring hangs the bodies of named blocks into each other and takes the declarations around them
away; it makes bodies of its own and enters what it has made. What the template renders is still
there, once each and in the same order. `Template.content` lists it: texts that are not blank,
comments of the rendered document, the tags of elements other than declarations, and where the
mustaches of the bodies stand.

* `content_dispatchChain`: a chain of branches holds the bodies of the blocks one after the other;
* `content_of_namedBlocks`: so do the children of an invocation, between blanks and comments;
* `desugar_content`: a desugared template has the content of the template.
-/

namespace TemplateBlocks

open Desugar

/-! ### Content -/

/-- One piece of what a body renders. -/
inductive Content where
  | text (t : TextNode)
  | comment (c : Comment)
  | tag (name : String)
  /-- A mustache, by where it stands. -/
  | mustache (span : Span)
  deriving DecidableEq

/-- What a statement renders beside what stands in it. Blank texts, comments of the template and
`<:name>` tags render nothing. -/
def Statement.content : Statement → List Content
  | .text t => if t.isBlank then [] else [.text t]
  | .comment c => [.comment c]
  | .element e => if e.blockName? = none then [.tag e.tag] else []
  | .mustache m => [.mustache m.loc]
  | .block _ => []
  | .mustacheComment _ => []

/-- The content of a node that no part of it holds. -/
def ownContent : (k : Kind) → k.Node → List Content
  | .statement, s => s.content
  | _, _ => []

/-- The content of a node, in source order. -/
def content (k : Kind) (x : k.Node) : List Content := gathered ownContent k x

/-- The content of a template, in source order. -/
def Template.content (t : Template) : List Content := TemplateBlocks.content .template t

theorem content_eq (k : Kind) (x : k.Node) :
    content k x = ownContent k x ++ (parts k x).flatMap fun p => content p.1 p.2 :=
  gathered_eq ownContent k x

/-! ### Nodes of one kind -/

/-- Only statements of a body count, not the mustaches of attributes and arguments. -/
theorem content_inline {k : Kind} (hk : k.isInline) (x : k.Node) : content k x = [] := by
  have hnone : Everywhere (fun k x => ownContent k x = []) k x := by
    refine everywhere_inline ?_ hk x
    intro k x hk
    match k, x, hk with
    | .mustache, _, _ | .attribute, _, _ | .modifier, _, _ | .expression, _, _
    | .subExpression, _, _ | .hash, _, _ => rfl
  exact List.flatMap_eq_nil_iff.2 (everywhere_iff_nodes.1 hnone)

theorem content_arguments (params : List Expr) (hash : Hash) :
    ((argumentParts params hash).flatMap fun p => content p.1 p.2) = [] := by
  rw [List.flatMap_eq_nil_iff]
  intro p hp
  exact content_inline (isInline_of_mem_argumentParts hp) p.2

theorem content_statements (ss : List Statement) :
    content .statements ss = ss.flatMap (content .statement) := by
  rw [content_eq]
  simp [ownContent, parts, List.flatMap_map]

theorem content_statement (s : Statement) :
    content .statement s = s.content ++ s.parts.flatMap fun p => content p.1 p.2 :=
  content_eq .statement s

theorem content_block (b : Block) : content .block b = content .statements b.body := by
  rw [content_eq]
  simp [ownContent, parts]

theorem content_element (e : Element) : content .element e = content .statements e.children := by
  have hattributes : (e.attributes.flatMap fun a => content .attribute a) = [] :=
    List.flatMap_eq_nil_iff.2 fun a _ => content_inline rfl a
  have hmodifiers : (e.modifiers.flatMap fun m => content .modifier m) = [] :=
    List.flatMap_eq_nil_iff.2 fun m _ => content_inline rfl m
  rw [content_eq]
  simp [ownContent, parts, List.flatMap_map, hattributes, hmodifiers]

theorem content_blockStatement (b : BlockStatement) : content .blockStatement b =
    content .block b.program ++ b.inverse.toList.flatMap (content .block) := by
  have hpath : content .expression b.path = [] := content_inline rfl _
  rw [content_eq]
  simp [ownContent, parts, List.flatMap_map, hpath, content_arguments]

/-- A body of one block call. -/
theorem content_singleton (b : BlockStatement) :
    content .statements [.block b] = content .blockStatement b := by
  simp [content_statements, content_statement, Statement.content, Statement.parts]

/-! ### Invocations -/

theorem Statement.content_of_isIgnorable {s : Statement} (h : s.isIgnorable) :
    TemplateBlocks.content .statement s = [] := by
  cases s with
  | text t =>
    have hblank : t.isBlank = true := h
    simp [content_statement, Statement.content, Statement.parts, hblank]
  | mustacheComment c => simp [content_statement, Statement.content, Statement.parts]
  | _ => simp [isIgnorable] at h

/-- A declaration renders what stands in it. -/
theorem Element.content_declaration {block : Element} (h : block.isDeclaration = .ok true) :
    content .statement (.element block) = content .statements block.children := by
  have hname := blockName?_of_isDeclaration h
  simp [content_statement, Statement.content, Statement.parts, hname, content_element]

/-- **The children of an invocation hold the bodies of its blocks**, one after the other. -/
theorem Element.content_of_namedBlocks {e : Element} {blocks : List Element}
    (h : e.namedBlocks = .ok blocks) (hne : blocks ≠ []) :
    content .statements e.children =
      blocks.flatMap fun block => content .statements block.children := by
  have hkept : e.children.flatMap (content .statement) =
      (e.children.filter fun s => !s.isIgnorable).flatMap (content .statement) := by
    induction e.children with
    | nil => rfl
    | cons s ss ih =>
      by_cases hs : s.isIgnorable
      · simp [hs, ih, Statement.content_of_isIgnorable hs]
      · simp [hs, ih]
  obtain ⟨hdeclared, -⟩ := areDeclared_of_namedBlocks h
  rw [content_statements, hkept, ← map_element_of_namedBlocks h hne, List.flatMap_map]
  exact List.flatMap_congr fun block hb => content_declaration (hdeclared block hb)

theorem Element.content_branchBody (block : Element) :
    content .block block.branchBody = content .statements block.children := by
  have hown : content .block block.ownBody = content .statements block.children :=
    content_block block.ownBody
  unfold branchBody
  split
  · exact hown
  · rw [content_block, content_singleton, content_blockStatement]
    simp [letSlots, hown]

/-- **A chain of branches holds the bodies of its blocks**, one after the other. -/
theorem content_dispatchChain (first : Element) (rest : List Element) :
    content .blockStatement (dispatchChain first rest) =
      (first :: rest).flatMap fun block => content .statements block.children := by
  induction rest generalizing first with
  | nil =>
    rw [content_blockStatement]
    simp [dispatchChain, Element.branch, Element.content_branchBody]
  | cons next rest ih =>
    let inverse : Block :=
      { body := [.block (dispatchChain next rest)], chained := true, loc := next.loc }
    have hinverse : content .block inverse = content .blockStatement (dispatchChain next rest) := by
      rw [content_block, content_singleton]
    rw [content_blockStatement, List.flatMap_cons, ← ih, ← hinverse]
    simp [dispatchChain, Element.branch, Element.content_branchBody, inverse]

theorem Element.content_of_becomes {scope : Scope} {e e' : Element}
    (h : Becomes (fun e : Element => e.enter scope .standard) e e') :
    content .element e' = content .element e := by
  obtain ⟨-, -, -, blocks, hblocks, hne, hfan⟩ := becomes_iff.1 h
  rw [content_element, content_element, content_of_namedBlocks hblocks hne]
  rcases eq_of_fanOut hfan with ⟨only, rfl, -, rfl⟩ | ⟨-, first, rest, rfl, rfl⟩
  · simp [unwrapped]
  · rw [← content_dispatchChain, ← content_singleton]
    rfl

/-! ### Plain forms -/

/-- **Settling keeps content.** -/
theorem content_settled {scope : Scope} {k : Kind} {x y : k.Node}
    (h : settled scope k x = .ok y) : content k y = content k x := by
  match k, x, y, h with
  | .template, t, t', h =>
    obtain ⟨-, -, h⟩ := bind_eq_ok.1 h
    cases h
    rfl
  | .element, e, e', h =>
    exact settleSource_induction (P := fun a => content .element a = content .element e) rfl
      (fun a b ha hab => (Element.content_of_becomes hab).trans ha) h
  | .mustache, m, m', _ | .subExpression, m, m', _ =>
    rw [content_inline rfl m, content_inline rfl m']
  | .block, _, _, h | .statements, _, _, h | .statement, _, _, h | .blockStatement, _, _, h
  | .attribute, _, _, h | .modifier, _, _, h | .expression, _, _, h | .hash, _, _, h =>
    cases h
    rfl

theorem Mustache.loc_of_becomes {scope : Scope} {m m' : Mustache}
    (h : Becomes (fun m : Mustache => m.enter scope .standard) m m') : m'.loc = m.loc := by
  obtain ⟨p, -, ⟨-, -, target, loc, -, -, rfl⟩ | ⟨-, query, block, -, -, rfl⟩⟩ := becomes_iff.1 h
  · rfl
  · rfl

/-- A mustache stays where it stands. -/
theorem Mustache.loc_plainForm {scope : Scope} {m m' : Mustache}
    (h : plainForm scope .mustache m = .ok m') : m'.loc = m.loc := by
  rw [plainForm_eq] at h
  obtain ⟨y, hy, h⟩ := bind_eq_ok.1 h
  obtain ⟨path, params, hash, -, -, -, rfl⟩ := walk_mustache_eq_ok.1 h
  exact settleSource_induction (P := fun a => a.loc = m.loc) rfl
    (fun a b ha hab => (Mustache.loc_of_becomes hab).trans ha) hy

theorem Statement.content_walked {scope : Scope} {s s' : Statement}
    (h : walk (plainForm scope) .statement s = .ok s') : s'.content = s.content := by
  cases s with
  | mustache m =>
    obtain ⟨m', hm, h⟩ := bind_eq_ok.1 h
    cases h
    simp [Statement.content, Mustache.loc_plainForm hm]
  | block b =>
    obtain ⟨b', -, h⟩ := bind_eq_ok.1 h
    cases h
    rfl
  | element e =>
    obtain ⟨e', he, h⟩ := bind_eq_ok.1 h
    cases h
    have htag := tag_plainForm he
    simp [Statement.content, htag, Element.blockName?_congr htag]
  | text t =>
    cases h
    rfl
  | mustacheComment c =>
    cases h
    rfl
  | comment c =>
    cases h
    rfl

theorem ownContent_walked {scope : Scope} {k : Kind} {x y : k.Node}
    (h : walk (plainForm scope) k x = .ok y) : ownContent k y = ownContent k x := by
  match k, x, y, h with
  | .statement, s, s', h => exact Statement.content_walked h
  | .template, _, _, _ | .block, _, _, _ | .statements, _, _, _ | .element, _, _, _
  | .mustache, _, _, _ | .blockStatement, _, _, _ | .attribute, _, _, _ | .modifier, _, _, _
  | .expression, _, _, _ | .subExpression, _, _, _ | .hash, _, _, _ => rfl

/-- **Plain forms keep content.** -/
theorem content_plainForm {scope : Scope} {k : Kind} {x z : k.Node}
    (h : plainForm scope k x = .ok z) : content k z = content k x := by
  -- a node is settled before its parts are visited, so the induction is on the weight
  induction hn : weight k x using Nat.strong_induction_on generalizing scope k x z with
  | _ n ih =>
    rw [plainForm_eq] at h
    obtain ⟨y, hs, hw⟩ := bind_eq_ok.1 h
    rw [← content_settled hs]
    refine gathered_walked hw (ownContent_walked hw) ?_
    intro k' x' y' hx' hplain
    refine ih _ ?_ hplain rfl
    have := weight_lt_of_settled hs hx'
    simp only at *
    omega

/-- **No content is lost, doubled or moved.** A desugared template holds the texts, comments, tags
and mustaches of the template, in the same order. -/
theorem desugar_content {t t' : Template} (h : t.desugar = .ok t') : t'.content = t.content :=
  content_plainForm h

/-- Two blocks with params and nested content, between a blank text and a comment. -/
theorem desugar_content_card :
    let mustache (column : UInt32) : Mustache :=
      { path := .path (.ofText "item" {}), loc := { start := { line := 1, column } } }
    let list : Element := { tag := "ul", children := [.mustache (mustache 7)] }
    let header : Element :=
      { tag := ":header", blockParams := ["item"], children := [.element list] }
    let footer : Element :=
      { tag := ":footer", blockParams := ["item"]
        children := [.text { chars := "Bye" }, .comment { value := "end" }] }
    let card : Element := { tag := "Card", children := [.text { chars := " " }, .element header,
      .mustacheComment { value := "then" }, .element footer] }
    let t : Template := { body := [.element card, .mustache (mustache 9)] }
    let t' : Template := { body := [.element (Element.fanned { tag := "Card" } header [footer]),
      .mustache (mustache 9)] }
    t.desugar = .ok t' ∧ t'.content = t.content ∧
      t.content = [.tag "Card", .tag "ul", .mustache { start := ⟨1, 7⟩ }, .text { chars := "Bye" },
        .comment { value := "end" }, .mustache { start := ⟨1, 9⟩ }] := by
  intro mustache list header footer card t t'
  have h : t.desugar = .ok t' := by decide +kernel
  exact ⟨h, desugar_content h, by decide +kernel⟩

end TemplateBlocks
