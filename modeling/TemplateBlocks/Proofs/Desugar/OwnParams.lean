import TemplateBlocks.Proofs.Desugar.Asked
import TemplateBlocks.Proofs.Desugar.LoneDefault
import TemplateBlocks.Proofs.Desugar.Replacing

/-!
# Block params in attributes

Block params are bound for a body. But the frame of an invocation is pushed before its attributes
and modifiers are visited, so they count as bound there too. `attachments scope e` is what becomes
of the attributes and modifiers of an element, and `Rebound` relates two invocations with nothing in
their bodies that bind other params.

* `attachments_of_rebound`: the params make no difference unless one of them is asked about in the
  attributes and modifiers. These are refused then, and the only other thing that may become of them
  is what the other params make of them.
* `desugar_shadowedByOwn`: `<Card @x={{has-block}} as |has-block|></Card>` is refused.
-/

namespace TemplateBlocks

open Desugar

namespace Element

variable {e only : Element} {s t scope : Scope} {ps qs : List String}

/-- What becomes of the attributes and modifiers of an element. -/
def attachments (scope : Scope) (e : Element) : Except Halt (List Attribute × List Modifier) :=
  (fun e => (e.attributes, e.modifiers)) <$> plainForm scope .element e

/-- The names that are asked about in the attributes and modifiers of an element. -/
def askedByAttachments (e : Element) : List String :=
  e.attributes.flatMap (fun a => asked .attribute a) ++
    e.modifiers.flatMap fun m => asked .modifier m

/-- Two elements that differ only in the params that they bind, on the tag or in a lone
`<:default>`, with nothing in the body. -/
inductive Rebound (ps qs : List String) : Element → Element → Prop where
  | own (e : Element) (hempty : e.children = []) :
    Rebound ps qs { e with blockParams := ps } { e with blockParams := qs }
  | taken (e only : Element) (before after : List Statement)
    (hblank : ∀ s ∈ before ++ after, s.isIgnorable) (hdeclared : only.isDeclaration = .ok true)
    (hnamed : only.blockName? = some Names.defaultBlock) (hempty : only.children = []) :
    Rebound ps qs
      { e with children := before ++ .element { only with blockParams := ps } :: after }
      { e with children := before ++ .element { only with blockParams := qs } :: after }

/-! ### Attributes and modifiers in a scope -/

/-- The attributes and modifiers of an element, visited in a scope. -/
def attachedIn (scope : Scope) (e : Element) : Except Halt (List Attribute × List Modifier) := do
  let attributes ← e.attributes.mapM (plainForm scope .attribute)
  let modifiers ← e.modifiers.mapM (plainForm scope .modifier)
  return (attributes, modifiers)

/-- What holds between the plain forms of attributes and modifiers holds between all of them. -/
theorem attachedIn_rel (R : ActionRel (Except Halt) (Except Halt))
    (hattribute : ∀ a ∈ e.attributes,
      R.rel (plainForm s .attribute a) (plainForm t .attribute a))
    (hmodifier : ∀ m ∈ e.modifiers, R.rel (plainForm s .modifier m) (plainForm t .modifier m)) :
    R.rel (e.attachedIn s) (e.attachedIn t) :=
  R.bind (R.mapM e.attributes hattribute) fun _ =>
    R.bind (R.mapM e.modifiers hmodifier) fun _ => R.pure _

theorem attachedIn_congr
    (h : ∀ n ∈ e.askedByAttachments, s.isLocal n false = t.isLocal n false) :
    e.attachedIn s = e.attachedIn t := by
  rw [askedByAttachments, List.forall_mem_append] at h
  refine attachedIn_rel (.eq _) ?_ ?_
  · intro a ha
    exact plainForm_eq_of_asked (k := .attribute) rfl fun n hn =>
      h.1 n (List.mem_flatMap.2 ⟨a, ha, hn⟩)
  · intro m hm
    exact plainForm_eq_of_asked (k := .modifier) rfl fun n hn =>
      h.2 n (List.mem_flatMap.2 ⟨m, hm, hn⟩)

theorem attachedIn_unlessShadowed (e : Element) (s t : Scope) :
    (agreeUnless IsShadowed).rel (e.attachedIn s) (e.attachedIn t) :=
  attachedIn_rel _ (fun a _ => plainForm_unlessShadowed (k := .attribute) rfl a s t)
    fun m _ => plainForm_unlessShadowed (k := .modifier) rfl m s t

theorem not_isLocal_of_attachedIn {r : List Attribute × List Modifier}
    (h : e.attachedIn s = .ok r) {n : String} (hn : n ∈ e.askedByAttachments) :
    s.isLocal n false = false := by
  obtain ⟨attributes, hattributes, h⟩ := bind_eq_ok.1 h
  obtain ⟨modifiers, hmodifiers, -⟩ := bind_eq_ok.1 h
  rcases List.mem_append.1 hn with hn | hn
  · obtain ⟨a, ha, hn⟩ := List.mem_flatMap.1 hn
    obtain ⟨a', hplain⟩ := exists_of_mem_mapM hattributes ha
    exact not_isLocal_of_plainForm rfl hplain hn
  · obtain ⟨m, hm, hn⟩ := List.mem_flatMap.1 hn
    obtain ⟨m', hplain⟩ := exists_of_mem_mapM hmodifiers hm
    exact not_isLocal_of_plainForm rfl hplain hn

/-! ### The scope of attributes and modifiers -/

/-- **The params of an invocation are in scope in its attributes and modifiers.** -/
theorem attachments_of_empty (hsource : e.origin = .source) (hopen : e.selfClosing = false)
    (hname : e.blockName? = none) (hcomponent : e.isComponent scope false = true)
    (hempty : e.children = []) :
    attachments scope e = e.attachedIn (scope.push (.ofComponent e)) := by
  have hplain : e.IsPlain scope := .inr ⟨hopen, hname, by simp [hempty], .inl hcomponent⟩
  have hs : settled scope .element e = .ok e :=
    settleSource_of_settled (.inl (enter_eq_none.2 hplain)) e.origin
  have hinner : innerScope scope .element e = scope.push (.ofComponent e) := by
    simp [innerScope, hsource, hopen, hcomponent]
  rw [attachments, plainForm_of_settled hs, hinner]
  simp [walk, attachedIn, hempty, plainForm_statements]

/-- So are the params that it takes over from a `<:default>`. -/
theorem HasLoneDefault.attachments_eq (h : e.HasLoneDefault scope only)
    (hempty : only.children = []) :
    attachments scope e = e.attachedIn (scope.push (.ofComponent (e.implicit only))) := by
  rw [attachments, plainForm_implicit h]
  exact attachments_of_empty h.source h.invokes.unclosed h.invokes.unnamed h.invokes.component
    hempty

/-! ### Two invocations -/

variable {e₁ e₂ : Element}

/-- Two elements are refused alike, or their attributes and modifiers, which are those of `e`, are
visited in frames that bind the one and the other params. -/
def BoundAlike (scope : Scope) (ps qs : List String) (e e₁ e₂ : Element) : Prop :=
  (∃ halt, attachments scope e₁ = .error halt ∧ attachments scope e₂ = .error halt) ∨
    ∃ f g : Frame, f.blockParams = ps ∧ g.blockParams = qs ∧
      attachments scope e₁ = e.attachedIn (scope.push f) ∧
      attachments scope e₂ = e.attachedIn (scope.push g)

theorem boundAlike_of_enter (h₁ : e₁.origin = .source) (h₂ : e₂.origin = .source)
    (halike : outcome (e₂.enter scope .standard) = outcome (e₁.enter scope .standard))
    (hfails : ∀ r, outcome (e₁.enter scope .standard) ≠ .ok r) :
    BoundAlike scope ps qs e e₁ e₂ := by
  cases hd : outcome (e₁.enter scope .standard) with
  | ok r => exact absurd hd (hfails r)
  | error d =>
    refine .inl ⟨.refused d, ?_, ?_⟩
    · rw [attachments, plainForm_of_enter_error h₁ hd]
      rfl
    · rw [attachments, plainForm_of_enter_error h₂ (halike.trans hd)]
      rfl

/-- What is named like a block is no invocation, whatever it binds and holds. -/
theorem outcome_enter_of_blockName (hopen : e.selfClosing = false) (hname : e.blockName? ≠ none) :
    outcome (e.enter scope .standard) =
      e.isDeclaration >>= fun _ => .error ((Misuse.unexpectedNamedBlock e.tag).report e.loc) := by
  unfold enter
  simp only [hopen, Bool.false_eq_true, if_false, outcome_bind, outcome_check]
  cases hd : e.isDeclaration with
  | error d => rfl
  | ok declares =>
    cases declares with
    | true => rfl
    | false => exact absurd (isDeclaration_eq_false.1 hd) hname

theorem boundAlike_of_blockName (hsource : e.origin = .source) (hopen : e.selfClosing = false)
    (hname : e.blockName? ≠ none) (params params' : List String)
    (children children' : List Statement) :
    BoundAlike scope ps qs e { e with blockParams := params, children }
      { e with blockParams := params', children := children' } := by
  have hrefused (params : List String) (children : List Statement) :
      outcome (({ e with blockParams := params, children } : Element).enter scope .standard) =
        e.isDeclaration >>= fun _ => .error ((Misuse.unexpectedNamedBlock e.tag).report e.loc) :=
    outcome_enter_of_blockName (e := { e with blockParams := params, children }) hopen hname
  refine boundAlike_of_enter hsource hsource ?_ ?_
  · rw [hrefused, hrefused]
  · intro r hr
    rw [hrefused, bind_eq_ok] at hr
    obtain ⟨declares, -, hr⟩ := hr
    cases hr

theorem outcome_enter_of_namedBlocks {blocks : List Element} (hopen : e.selfClosing = false)
    (hname : e.blockName? = none) (hcomponent : e.isComponent scope false = true)
    (hblocks : e.namedBlocks = .ok blocks) (hne : blocks ≠ []) :
    outcome (e.enter scope .standard) = some <$> outcome (e.fanOut .standard blocks) := by
  unfold enter
  simp [hopen, isDeclaration_eq_false.2 hname, hblocks, hcomponent, hne]

/-- An invocation that may not pass blocks is refused for it, whatever the blocks bind. -/
theorem boundAlike_of_not_isFannable {children children' : List Statement}
    {blocks blocks' : List Element} (hsource : e.origin = .source) (hopen : e.selfClosing = false)
    (hname : e.blockName? = none) (hcomponent : e.isComponent scope false = true)
    (hfan : ¬ e.IsFannable) (hblocks : { e with children }.namedBlocks = .ok blocks)
    (hblocks' : { e with children := children' }.namedBlocks = .ok blocks') (hne : blocks ≠ [])
    (hne' : blocks' ≠ []) :
    BoundAlike scope ps qs e { e with children } { e with children := children' } := by
  have hrefused {children : List Statement} {blocks : List Element}
      (hblocks : { e with children }.namedBlocks = .ok blocks) (hne : blocks ≠ []) :
      outcome ({ e with children }.enter scope .standard) =
        some <$> outcome (e.fanOut .standard []) := by
    rw [outcome_enter_of_namedBlocks (e := { e with children }) hopen hname hcomponent hblocks hne,
      outcome_fanOut_of_not_isFannable hfan children [] blocks]
  refine boundAlike_of_enter hsource hsource ?_ ?_
  · rw [hrefused hblocks hne, hrefused hblocks' hne']
  · intro r hr
    rw [hrefused hblocks hne] at hr
    obtain ⟨e', he', -⟩ := map_eq_ok.1 hr
    exact hfan (isFannable_of_fanOut he')

theorem Rebound.boundAlike (h : Rebound ps qs e₁ e₂) (hsource : e₁.origin = .source)
    (hopen : e₁.selfClosing = false) (hcomponent : e₁.isComponent scope false = true) :
    BoundAlike scope ps qs e₁ e₁ e₂ := by
  cases h with
  | own e hempty =>
    by_cases hname : e.blockName? = none
    · exact .inr ⟨_, _, rfl, rfl, attachments_of_empty hsource hopen hname hcomponent hempty,
        attachments_of_empty hsource hopen hname hcomponent hempty⟩
    · exact boundAlike_of_blockName hsource hopen hname _ _ _ _
  | taken e only before after hblank hdeclared hnamed hempty =>
    have hholds (params : List String) : HoldsOnly
        { e with children := before ++ .element { only with blockParams := params } :: after }
        { only with blockParams := params } := ⟨before, after, rfl, hblank⟩
    by_cases hname : e.blockName? = none
    · by_cases hfan : e.IsFannable
      · have hlone (params : List String) : HasLoneDefault scope
            { e with children := before ++ .element { only with blockParams := params } :: after }
            { only with blockParams := params } :=
          ⟨hsource, ⟨hopen, hname, hcomponent, hfan⟩, hholds params, hdeclared, hnamed,
            by simp [hempty]⟩
        exact .inr ⟨_, _, rfl, rfl, (hlone ps).attachments_eq hempty,
          (hlone qs).attachments_eq hempty⟩
      · have hblocks (params : List String) := (hholds params).namedBlocks_eq hdeclared hnamed
        exact boundAlike_of_not_isFannable hsource hopen hname hcomponent hfan (hblocks ps)
          (hblocks qs) (by simp) (by simp)
    · exact boundAlike_of_blockName hsource hopen hname _ _ _ _

/-- **Own params matter to attributes and modifiers only where they shadow a call.** Take two
invocations that differ only in the params that they bind. If both or none of them bind each name
that is asked about in the attributes and modifiers, those apart that the scope binds already, they
get the same attributes and modifiers, or the same error. One that binds such a name gets none. In
any case they get the same, or one of them is refused for a shadowed call. -/
theorem attachments_of_rebound (scope : Scope) (hsource : e₁.origin = .source)
    (hopen : e₁.selfClosing = false) (hcomponent : e₁.isComponent scope false = true)
    (h : Rebound ps qs e₁ e₂) :
    ((∀ n ∈ e₁.askedByAttachments, scope.isLocal n false = true ∨ (n ∈ ps ↔ n ∈ qs)) →
      attachments scope e₁ = attachments scope e₂) ∧
    ((∃ n ∈ e₁.askedByAttachments, n ∈ ps) → ∀ r, attachments scope e₁ ≠ .ok r) ∧
    (attachments scope e₁ = attachments scope e₂ ∨ ∃ halt, IsShadowed halt ∧
      (attachments scope e₁ = .error halt ∨ attachments scope e₂ = .error halt)) := by
  rcases h.boundAlike hsource hopen hcomponent with ⟨halt, h₁, h₂⟩ | ⟨f, g, rfl, rfl, h₁, h₂⟩
  · rw [h₁, h₂]
    exact ⟨fun _ => rfl, fun _ r => by simp, .inl rfl⟩
  · rw [h₁, h₂]
    refine ⟨?_, ?_, ?_⟩
    · intro hsame
      refine attachedIn_congr fun n hn => ?_
      rw [Scope.isLocal_push, Scope.isLocal_push]
      rcases hsame n hn with hlocal | hiff
      · simp [hlocal]
      · rw [List.contains_eq_mem, List.contains_eq_mem, decide_eq_decide.2 hiff]
    · rintro ⟨n, hn, hbound⟩ r hr
      have hnot := not_isLocal_of_attachedIn hr hn
      simp [Scope.isLocal_push, hbound] at hnot
    · rcases attachedIn_unlessShadowed e₁ (scope.push f) (scope.push g) with
        heq | ⟨halt, hhalt, heq⟩ | ⟨halt, hhalt, heq⟩
      · exact .inl heq
      · exact .inr ⟨halt, hhalt, .inl heq⟩
      · exact .inr ⟨halt, hhalt, .inr heq⟩

/-- A query in an attribute is refused for a param that an invocation takes over from its
`<:default>`, and not for another param. -/
theorem attachments_of_rebound_card :
    let query : Mustache := { path := .path (.ofText "has-block" {}) }
    let card (value : Mustache) (param : String) : Element := {
      tag := "Card"
      attributes := [{ name := "@x", value := .mustache value }]
      children := [.text { chars := " " }, .element { tag := ":default", blockParams := [param] }] }
    let answer := query.answered (.ofText "has-block" {}) .hasBlock "default"
    Rebound ["has-block"] ["item"] (card query "has-block") (card query "item") ∧
      attachments .root (card query "item") = .ok ((card answer "item").attributes, []) ∧
      ∃ halt, IsShadowed halt ∧ attachments .root (card query "has-block") = .error halt := by
  intro query card answer
  have hrebound : Rebound ["has-block"] ["item"] (card query "has-block") (card query "item") :=
    .taken { card query "item" with children := [] } { tag := ":default" } [.text { chars := " " }]
      [] (by decide +kernel) (by decide +kernel) (by decide +kernel) rfl
  have hitem : attachments .root (card query "item") =
      .ok ((card answer "item").attributes, []) := by decide +kernel
  obtain ⟨-, hrefused, hdiffer⟩ := attachments_of_rebound .root rfl rfl (by decide +kernel) hrebound
  refine ⟨hrebound, hitem, ?_⟩
  have hnone := hrefused ⟨"has-block", by decide +kernel, by simp⟩
  rcases hdiffer with hsame | ⟨halt, hhalt, hshadowed | hshadowed⟩
  · exact absurd (hsame.trans hitem) (hnone _)
  · exact ⟨halt, hhalt, hshadowed⟩
  · rw [hitem] at hshadowed
    cases hshadowed

end Element

/-- **Not every param is bound for the body alone**: a query in an attribute is refused for a param
of the invocation itself. With another param it has a plain form, and so it has in the head of a
block that binds the param. -/
theorem desugar_shadowedByOwn :
    let query : Mustache := { path := .path (.ofText "has-block" {}) }
    let card (value : Mustache) (param : String) : Template := { body := [.element {
      tag := "Card"
      attributes := [{ name := "@x", value := .mustache value }]
      blockParams := [param] }] }
    let answer := query.answered (.ofText "has-block" {}) .hasBlock "default"
    let call : SubExpr := { path := .ofText "has-block" {}, params := [], hash := {} }
    let block (value : SubExpr) : Template := { body := [.block {
      path := .path (.ofText "let" {})
      params := [.sub value]
      program := { body := [], blockParams := ["has-block"] } }] }
    (card query "has-block").desugar =
        .error (.refused ((Misuse.notSimplePath "\x7b\x7bhas-block\x7d\x7d").report {})) ∧
      (card query "item").desugar = .ok (card answer "item") ∧
      (block call).desugar = .ok (block (call.answered .hasBlock "default")) := by
  decide +kernel

end TemplateBlocks
