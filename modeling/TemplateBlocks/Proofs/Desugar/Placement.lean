import TemplateBlocks.Proofs.Desugar.Blockwise
import TemplateBlocks.Proofs.Desugar.Declarations
import TemplateBlocks.Proofs.Desugar.Settling
import TemplateBlocks.Proofs.Traversal.Lexical

/-!
# Where declarations are accepted

A `<:name>` that is not self-closing belongs directly inside a component invocation. In a template
of the source that is desugared there are two ways around this:

* the children of a lone `<:default>` become those of the invocation, and are looked at as such; so
  a `<:default>` may hold declarations as well;
* the blocks of a fanned-out invocation stand in a frame that binds the slots; so in them a tag such
  as `__arg0` invokes a component.

Declarations are accepted nowhere else (`desugar_blocksInPlace`). The proof follows the desugaring
on the template as it stands: what is accepted of a replacement is accepted of the element that it
replaces (`Accepted.of_unwrapped`, `accepted_of_fanned`).
-/

namespace TemplateBlocks

open Desugar

/-! ### Holders of declarations -/

/-- A tag of the form `:name` that is not self-closing. -/
def Element.OpensBlock (e : Element) : Prop := e.blockName? ≠ none ∧ e.selfClosing = false

/-- No block is declared directly in the body. -/
def DeclaresNone (ss : List Statement) : Prop := ∀ c, .element c ∈ ss → ¬ c.OpensBlock

/-- Blocks are declared directly in elements of which `Holds` is true in their scope, and nowhere
else. -/
def DeclaredIn (Holds : Scope → Element → Prop) (scope : Scope) : (k : Kind) → k.Node → Prop
  | .template, t => DeclaresNone t.body
  | .block, b => DeclaresNone b.body
  | .element, e => DeclaresNone e.children ∨ Holds scope e
  | _, _ => True

/-- An invocation of a component. -/
def InvokesComponent (scope : Scope) (e : Element) : Prop :=
  e.blockName? = none ∧ e.isComponent scope false = true

/-- What declarations are accepted in: an element without params that is a `<:default>`, invokes a
component, or has a tag that a slot goes by. -/
def IsHolder (scope : Scope) (e : Element) : Prop :=
  e.blockParams = [] ∧ (e.blockName? = some Names.defaultBlock ∨
    (e.blockName? = none ∧ (e.isComponent scope false = true ∨ ∃ i, e.head = Names.slot i)))

theorem declaredIn_inline {Holds : Scope → Element → Prop} {scope : Scope} {k : Kind} {x : k.Node}
    (hk : k.isInline) : DeclaredIn Holds scope k x := by
  match k, x, hk with
  | .mustache, _, _ | .attribute, _, _ | .modifier, _, _ | .expression, _, _
  | .subExpression, _, _ | .hash, _, _ => trivial

/-! ### Scopes that differ in slots -/

namespace Scope

variable {s t : Scope} {f g : Frame}

/-- The scopes bind the same names, but perhaps for slots. -/
def AgreeButSlots (s t : Scope) : Prop :=
  ∀ n, (∀ i, n ≠ Names.slot i) → s.isLocal n false = t.isLocal n false

theorem AgreeButSlots.push (h : s.AgreeButSlots t) (hfg : f.blockParams = g.blockParams) :
    (s.push f).AgreeButSlots (t.push g) := by
  intro n hn
  rw [isLocal_push, isLocal_push, hfg, h n hn]

/-- A frame that binds only slots makes no difference. -/
theorem agreeButSlots_push (hf : ∀ n ∈ f.blockParams, ∃ i, n = Names.slot i) :
    (s.push f).AgreeButSlots t ↔ s.AgreeButSlots t := by
  refine forall₂_congr fun n hn => ?_
  have hnot : f.blockParams.contains n = false := by
    simp only [List.contains_eq_mem, decide_eq_false_iff_not]
    intro hmem
    obtain ⟨i, hi⟩ := hf n hmem
    exact hn i hi
  rw [isLocal_push, hnot, Bool.false_or]

/-- Nor does the frame of an element without params. -/
theorem agreeButSlots_component {e : Element} (h : e.blockParams = []) :
    (s.push (.ofComponent e)).AgreeButSlots t ↔ s.AgreeButSlots t :=
  agreeButSlots_push (by simp [Frame.ofComponent, h])

end Scope

theorem Element.Invokes.isHolder {e : Element} {scope lex : Scope} (h : e.Invokes scope)
    (hagree : scope.AgreeButSlots lex) : IsHolder lex e := by
  refine ⟨h.fannable.1, .inr ⟨h.unnamed, ?_⟩⟩
  by_cases hslot : ∃ i, e.head = Names.slot i
  · exact .inr hslot
  · left
    have hlocal := hagree e.head (not_exists.1 hslot)
    have hcomp := h.component
    rwa [isComponent, hlocal] at hcomp

/-! ### Visited bodies -/

section Visited

variable {scope : Scope}

/-- What is visited in the place of a node, and with it all of its parts. -/
theorem exists_settled {k : Kind} {x z : k.Node} (h : plainForm scope k x = .ok z) :
    ∃ y, settled scope k x = .ok y ∧
      ∀ p ∈ parts k y, ∃ q, plainForm (innerScope scope k y) p.1 p.2 = .ok q := by
  rw [plainForm_eq] at h
  obtain ⟨y, hs, hw⟩ := bind_eq_ok.1 h
  refine ⟨y, hs, fun p hp => ?_⟩
  obtain ⟨q, -, hq⟩ := exists_of_mem_parts hw hp
  exact ⟨q, hq⟩

theorem exists_plainForm_of_mem {ss z : List Statement} {c : Element}
    (h : plainForm scope .statements ss = .ok z) (hc : .element c ∈ ss) :
    ∃ q, plainForm scope .element c = .ok q := by
  obtain ⟨_, hs, hparts⟩ := exists_settled h
  cases hs
  obtain ⟨q, hq⟩ := hparts ⟨.statement, .element c⟩ (List.mem_map_of_mem hc)
  obtain ⟨_, hs, hparts⟩ := exists_settled hq
  cases hs
  exact hparts ⟨.element, c⟩ (by simp [parts, Statement.parts])

/-- A declaration is not visited. -/
theorem Element.not_opensBlock_of_plainForm {c q : Element} (hsource : c.origin = .source)
    (h : plainForm scope .element c = .ok q) : ¬ c.OpensBlock := by
  rintro ⟨hname, hopen⟩
  obtain ⟨y, hs, -⟩ := exists_settled h
  exact hname (blockName?_of_settled hsource hopen hs)

theorem declaresNone_of_plainForm {ss z : List Statement}
    (hsource : Everywhere IsSource .statements ss) (h : plainForm scope .statements ss = .ok z) :
    DeclaresNone ss := by
  intro c hc
  obtain ⟨q, hq⟩ := exists_plainForm_of_mem h hc
  exact c.not_opensBlock_of_plainForm (everywhere_iff.1 (hsource.of_mem hc)).1 hq

/-- Every node but a template avoids no names at all. -/
theorem avoids_nil {k : Kind} {x : k.Node} (hk : k ≠ .template) : Everywhere (Avoids []) k x := by
  induction hn : weight k x using Nat.strong_induction_on generalizing k x with
  | _ n ih =>
    refine .intro ?_ ?_
    · match k, x, hk with
      | .element, _, _ => exact List.not_mem_nil
      | .mustache, _, _ => exact fun _ _ _ => nofun
      | .subExpression, _, _ => exact fun _ => nofun
      | .block, _, _ | .statements, _, _ | .statement, _, _ | .blockStatement, _, _
      | .attribute, _, _ | .modifier, _, _ | .expression, _, _ | .hash, _, _ => trivial
    · intro p hp
      exact ih _ (hn ▸ weight_lt_of_mem_parts hp) (ne_template_of_mem_parts hp) rfl

/-- The blocks of a chain are visited, each with its own params. -/
theorem exists_plainForm_of_dispatchChain {inside : Scope} {first : Element} {rest : List Element}
    {z : List Statement}
    (h : plainForm inside .statements [.block (dispatchChain first rest)] = .ok z) :
    ∀ block ∈ first :: rest, ∃ z,
      plainForm (inside.push ⟨.block, block.blockParams, block.loc⟩) .statements block.children =
        .ok z := by
  have hvisited {block b : Element} (h : plainBlock inside block = .ok b) : ∃ z,
      plainForm (inside.push ⟨.block, block.blockParams, block.loc⟩) .statements block.children =
        .ok z := by
    obtain ⟨z, hz, -⟩ := bind_eq_ok.1 h
    exact ⟨z, hz⟩
  rw [plainForm_singleton,
    plainForm_dispatchChain (.refl [] inside) fun block _ => avoids_nil nofun] at h
  obtain ⟨_, h, -⟩ := bind_eq_ok.1 h
  obtain ⟨_, hfirst, h⟩ := bind_eq_ok.1 h
  obtain ⟨_, hrest, -⟩ := bind_eq_ok.1 h
  intro block hblock
  rcases List.mem_cons.1 hblock with rfl | hblock
  · exact hvisited hfirst
  · obtain ⟨i, hi, rfl⟩ := List.mem_iff_getElem.1 hblock
    have hall := mapM_forall₂ hrest
    exact hvisited ((List.forall₂_iff_get.1 hall).2 i hi (hall.length_eq ▸ hi))

end Visited

/-! ### Accepted elements -/

theorem everywhereIn_element {Holds : Scope → Element → Prop} {lex : Scope} {e : Element}
    (he : DeclaresNone e.children ∨ Holds lex e)
    (hchildren : EverywhereIn (DeclaredIn Holds) (lex.push (.ofComponent e)) .statements
      e.children) : EverywhereIn (DeclaredIn Holds) lex .element e := by
  refine .intro he ?_
  intro p hp
  rcases List.mem_append.1 hp with hp | hp
  · obtain ⟨a, -, rfl⟩ := List.mem_map.1 hp
    exact everywhereIn_inline (fun _ _ _ => declaredIn_inline) rfl _ _
  rcases List.mem_append.1 hp with hp | hp
  · obtain ⟨m, -, rfl⟩ := List.mem_map.1 hp
    exact everywhereIn_inline (fun _ _ _ => declaredIn_inline) rfl _ _
  · rwa [List.mem_singleton.1 hp]

/-- Where blocks are declared there is nothing else to look at. -/
theorem everywhereIn_of_blocks {Holds : Scope → Element → Prop} {lex : Scope} {e : Element}
    {blocks : List Element} (hblocks : e.namedBlocks = .ok blocks) (hne : blocks ≠ [])
    (h : ∀ b ∈ blocks, EverywhereIn (DeclaredIn Holds) lex .element b) :
    EverywhereIn (DeclaredIn Holds) lex .statements e.children := by
  refine .intro trivial ?_
  intro p hp
  obtain ⟨s, hs, rfl⟩ := List.mem_map.1 hp
  rcases Element.mem_of_namedBlocks hblocks hne hs with hi | ⟨b, hb, rfl⟩
  · exact .intro trivial (by simp [parts, Statement.parts_of_isIgnorable hi])
  · refine .intro trivial ?_
    intro p hp
    rw [List.mem_singleton.1 hp]
    exact h b hb

/-- What visiting an element in a scope says about it: it declares nothing or invokes a component,
and declarations below it stand in holders, whatever else the slots are bound to. -/
structure Accepted (scope : Scope) (e : Element) : Prop where
  holder : DeclaresNone e.children ∨ e.Invokes scope
  children : ∀ lex, (scope.push (.ofComponent e)).AgreeButSlots lex →
    EverywhereIn (DeclaredIn IsHolder) lex .statements e.children

namespace Accepted

variable {scope lex : Scope} {e : Element}

theorem everywhereIn (h : Accepted scope e) (hagree : scope.AgreeButSlots lex) :
    EverywhereIn (DeclaredIn IsHolder) lex .element e := by
  refine everywhereIn_element ?_ (h.children _ (hagree.push rfl))
  exact h.holder.imp_right fun hinvokes => hinvokes.isHolder hagree

/-- **An invocation with a lone `<:default>`** is accepted if it is without the `<:default>`. -/
theorem of_unwrapped {only : Element} (hinvokes : e.Invokes scope)
    (hblocks : e.namedBlocks = .ok [only]) (hname : only.blockName? = some Names.defaultBlock)
    (h : Accepted scope (e.unwrapped only)) : Accepted scope e where
  holder := .inr hinvokes
  children lex hlex := by
    have hagree := (Scope.agreeButSlots_component hinvokes.fannable.1).1 hlex
    refine everywhereIn_of_blocks hblocks (by simp) ?_
    intro block hblock
    obtain rfl := List.mem_singleton.1 hblock
    refine everywhereIn_element ?_ (h.children _ (hagree.push rfl))
    rcases h.holder with hnone | hunwrapped
    · exact .inl hnone
    · exact .inr ⟨hunwrapped.fannable.1, .inl hname⟩

end Accepted

section Bodies

-- what is known of bodies that weigh less than the element at hand
variable {n : Nat} (ih : ∀ (scope lex : Scope) (ss z : List Statement),
    weight .statements ss < n → Everywhere IsSource .statements ss → scope.AgreeButSlots lex →
    plainForm scope .statements ss = .ok z → EverywhereIn (DeclaredIn IsHolder) lex .statements ss)

include ih

variable {scope : Scope} {e : Element} {z : List Statement}

/-- **An element that stays** is accepted if its children are visited. -/
theorem accepted_of_settled (hsource : e.origin = .source)
    (hbody : Everywhere IsSource .statements e.children) (hn : weight .element e ≤ n)
    (hsettled : Settled (fun e : Element => e.enter scope .standard) e)
    (h : plainForm (innerScope scope .element e) .statements e.children = .ok z) :
    Accepted scope e := by
  rcases Element.isPlain_of_settled hsettled with
    ⟨-, -, hempty⟩ | ⟨hopen, -, hnone, hbinds⟩
  · refine ⟨.inl (by simp [DeclaresNone, hempty]), fun lex _ => ?_⟩
    rw [hempty]
    exact .intro trivial (by simp [parts])
  · refine ⟨.inl fun c hc hdeclares => hdeclares.1 (hnone c hc), fun lex hlex => ?_⟩
    have hagree : (innerScope scope .element e).AgreeButSlots lex := by
      cases hcomp : e.isComponent scope false with
      | true => rwa [innerScope_component hsource hopen hcomp]
      | false =>
        have hparams : e.blockParams = [] := by simpa [hcomp] using hbinds
        have hinner : innerScope scope .element e = scope := by simp [innerScope, hsource, hcomp]
        rw [hinner]
        exact (Scope.agreeButSlots_component hparams).1 hlex
    have hlt := weight_children_lt e
    exact ih _ _ _ _ (by omega) hbody hagree h

/-- **An invocation that is fanned out** is accepted if its blocks are visited. -/
theorem accepted_of_fanned {first : Element} {rest : List Element} (hinvokes : e.Invokes scope)
    (hblocks : e.namedBlocks = .ok (first :: rest))
    (hbody : Everywhere IsSource .statements e.children) (hn : weight .element e ≤ n)
    (h : plainForm (innerScope scope .element (e.fanned first rest)) .statements
      (e.fanned first rest).children = .ok z) : Accepted scope e := by
  refine ⟨.inr hinvokes, fun lex hlex => ?_⟩
  have hslots : (scope.push (.ofComponent (e.fanned first rest))).AgreeButSlots lex := by
    have hagree := (Scope.agreeButSlots_component hinvokes.fannable.1).1 hlex
    refine (Scope.agreeButSlots_push ?_).2 hagree
    intro name hname
    obtain ⟨i, -, rfl⟩ := List.mem_map.1 hname
    exact ⟨i, rfl⟩
  rw [innerScope_component (e := e.fanned first rest) rfl rfl hinvokes.component] at h
  refine everywhereIn_of_blocks hblocks (by simp) ?_
  intro block hblock
  have hmem := (Element.sublist_of_namedBlocks hblocks).subset (List.mem_map_of_mem hblock)
  obtain ⟨z, hz⟩ := exists_plainForm_of_dispatchChain h block hblock
  have hsource := (hbody.of_mem hmem).children
  refine everywhereIn_element (.inl (declaresNone_of_plainForm hsource hz)) ?_
  have hlt : weight .statements block.children < n := by
    have := weight_children_lt block
    have := weight_lt_of_mem hmem
    have := weight_children_lt e
    omega
  refine ih _ _ _ _ hlt hsource ?_ hz
  exact hslots.push rfl

theorem accepted_of_plainForm {e' : Element} (hsource : Everywhere IsSource .element e)
    (hn : weight .element e ≤ n) (h : plainForm scope .element e = .ok e') : Accepted scope e := by
  obtain ⟨e', hs, hparts⟩ := exists_settled h
  obtain ⟨z, hz⟩ := hparts ⟨.statements, e'.children⟩ (by simp [parts])
  have horigin : e.origin = .source := (everywhere_iff.1 hsource).1
  rw [settled_element, horigin] at hs
  obtain ⟨hsettled, hpath⟩ := settle_eq_ok (refusing_eq_ok.1 hs)
  replace hsource := hsource.children
  clear h hs hparts
  induction hpath using Relation.ReflTransGen.head_induction_on with
  | refl => exact accepted_of_settled ih horigin hsource hn hsettled hz
  | @head e _ hbecomes hpath ihpath =>
    obtain ⟨hopen, hname, hcomp, blocks, hblocks, -, hfan⟩ := Element.becomes_iff.1 hbecomes
    have hinvokes : e.Invokes scope := ⟨hopen, hname, hcomp, Element.isFannable_of_fanOut hfan⟩
    rcases Element.eq_of_fanOut hfan with ⟨only, rfl, hdefault, rfl⟩ | ⟨-, first, rest, rfl, rfl⟩
    · have hmem := (Element.sublist_of_namedBlocks hblocks).subset (List.mem_singleton_self _)
      have hle := (Element.weight_le_of_becomes hbecomes).trans hn
      exact .of_unwrapped hinvokes hblocks hdefault (ihpath hle rfl (hsource.of_mem hmem).children)
    · -- the fanned-out invocation stays
      rcases hpath.cases_head with rfl | ⟨d, hd, -⟩
      · exact accepted_of_fanned ih hinvokes hblocks hsource hn hz
      · have hplain : (e.fanned first rest).IsPlain scope := Element.isPlain_fanned hname hcomp
        have hstays := Element.enter_eq_none.2 hplain
        rw [show outcome ((e.fanned first rest).enter scope .standard) = _ from hd] at hstays
        cases hstays

end Bodies

/-! ### Templates -/

/-- It suffices that no body declares a block. -/
theorem declaredIn_of_bodies {Holds : Scope → Element → Prop} {lex : Scope} {k : Kind} {x : k.Node}
    (h : ∀ ss, ⟨.statements, ss⟩ ∈ parts k x → DeclaresNone ss) : DeclaredIn Holds lex k x := by
  match k, x, h with
  | .template, t, h => exact h t.body (by simp [parts])
  | .block, b, h => exact h b.body (by simp [parts])
  | .element, e, h => exact .inl (h e.children (by simp [parts]))
  | .statements, _, _ | .statement, _, _ | .mustache, _, _ | .blockStatement, _, _
  | .attribute, _, _ | .modifier, _, _ | .expression, _, _ | .subExpression, _, _
  | .hash, _, _ => trivial

/-- Bodies and block calls are visited as they are. -/
theorem eq_of_settled {scope : Scope} {k : Kind} {x y : k.Node} (hinline : ¬ k.isInline)
    (hk : k ≠ .element) (h : settled scope k x = .ok y) : y = x := by
  match k, x, y, hinline, hk, h with
  | .template, t, t', _, _, h =>
    obtain ⟨-, -, h⟩ := bind_eq_ok.1 h
    cases h
    rfl
  | .element, _, _, _, hk, _ => exact absurd rfl hk
  | .block, _, _, _, _, h | .statements, _, _, _, _, h | .statement, _, _, _, _, h
  | .blockStatement, _, _, _, _, h =>
    cases h
    rfl
  | .mustache, _, _, hinline, _, _ | .attribute, _, _, hinline, _, _
  | .modifier, _, _, hinline, _, _ | .expression, _, _, hinline, _, _
  | .subExpression, _, _, hinline, _, _ | .hash, _, _, hinline, _, _ => exact absurd rfl hinline

theorem agreeButSlots_inside {scope lex : Scope} {k : Kind} {x : k.Node} (hsource : IsSource k x)
    (hk : k ≠ .element) (h : scope.AgreeButSlots lex) :
    (innerScope scope k x).AgreeButSlots (lexicalScope lex k x) := by
  match k, x, hsource, hk with
  | .block, b, hsource, _ =>
    have hinner : innerScope scope .block b = scope.push (.ofBlock b) := by
      simp [innerScope, show b.origin = .source from hsource]
    rw [hinner]
    exact h.push rfl
  | .element, _, _, hk => exact absurd rfl hk
  | .template, _, _, _ | .statements, _, _, _ | .statement, _, _, _ | .mustache, _, _, _
  | .blockStatement, _, _, _ | .attribute, _, _, _ | .modifier, _, _, _ | .expression, _, _, _
  | .subExpression, _, _, _ | .hash, _, _, _ => exact h

/-- **Where a node is visited, declarations stand in holders.** -/
theorem declaredIn_of_plainForm {scope lex : Scope} {k : Kind} {x z : k.Node}
    (hsource : Everywhere IsSource k x) (hagree : scope.AgreeButSlots lex)
    (h : plainForm scope k x = .ok z) : EverywhereIn (DeclaredIn IsHolder) lex k x := by
  induction hn : weight k x using Nat.strong_induction_on generalizing scope lex k x z with
  | _ n ih =>
    by_cases hinline : k.isInline
    · exact everywhereIn_inline (fun _ _ _ => declaredIn_inline) hinline _ _
    by_cases hk : k = .element
    · subst hk
      refine (accepted_of_plainForm ?_ hsource hn.le h).everywhereIn hagree
      intro scope lex ss z hlt hsource hagree hss
      exact ih _ hlt hsource hagree hss rfl
    -- the node is visited as it stands, and so are its parts
    obtain ⟨y, hs, hvisited⟩ := exists_settled h
    obtain rfl := eq_of_settled hinline hk hs
    obtain ⟨hself, hparts⟩ := everywhere_iff.1 hsource
    refine .intro (declaredIn_of_bodies ?_) ?_
    · intro ss hss
      obtain ⟨q, hq⟩ := hvisited _ hss
      exact declaresNone_of_plainForm (hparts _ hss) hq
    · intro p hp
      obtain ⟨q, hq⟩ := hvisited p hp
      have hinside := agreeButSlots_inside hself hk hagree
      exact ih _ (hn ▸ weight_lt_of_mem_parts hp) (hparts p hp) hinside hq rfl

/-- The element is on neither of the two ways around: a `<:default>` holds no tag of the form
`:name`, and no slot goes by the element's tag. -/
structure Element.IsFlat (e : Element) : Prop where
  body : e.blockName? = some Names.defaultBlock → ∀ c, .element c ∈ e.children → c.blockName? = none
  head : ∀ i, e.head ≠ Names.slot i

/-- Flat elements hold declarations only as invocations. -/
theorem declaredIn_component {scope : Scope} {k : Kind} {x : k.Node}
    (h : DeclaredIn IsHolder scope k x) (hflat : OfElements Element.IsFlat k x) :
    DeclaredIn InvokesComponent scope k x := by
  match k, x, h, hflat with
  | .element, e, h, hflat =>
    rcases h with hnone | ⟨-, hdefault | ⟨hname, hcomp | ⟨i, hi⟩⟩⟩
    · exact .inl hnone
    · exact .inl fun c hc hopens => hopens.1 (hflat.body hdefault c hc)
    · exact .inr ⟨hname, hcomp⟩
    · exact absurd hi (hflat.head i)
  | .template, _, h, _ | .block, _, h, _ => exact h
  | .statements, _, _, _ | .statement, _, _, _ | .mustache, _, _, _ | .blockStatement, _, _, _
  | .attribute, _, _, _ | .modifier, _, _, _ | .expression, _, _, _ | .subExpression, _, _, _
  | .hash, _, _, _ => trivial

theorem Element.isShallow_of_isFlat {e : Element}
    (h : Everywhere (OfElements Element.IsFlat) .element e) : e.IsShallow := by
  rw [IsShallow, ← Bool.not_eq_true]
  intro hdeep
  obtain ⟨d, hd, hname, hdeep⟩ := holdsDefaults_succ.1 hdeep
  obtain ⟨d', hd', hname', -⟩ := holdsDefaults_succ.1 hdeep
  have hflat : d.IsFlat := (everywhere_iff.1 (h.children.of_mem hd)).1
  rw [hflat.body hname d' hd'] at hname'
  cases hname'

/-- **Where named blocks are accepted.** A template of the source is desugared only if its
declarations stand directly in component invocations, but for those in a `<:default>` or in a tag
that a slot goes by; it is refused otherwise. Without the two exceptions the template is desugared
only if all of its declarations are where they belong, and refused for a misuse otherwise. -/
theorem desugar_blocksInPlace {t : Template} (hsource : Everywhere IsSource .template t) :
    ((∃ t', t.desugar = .ok t' ∧ EverywhereIn (DeclaredIn IsHolder) .root .template t) ∨
      ∃ d, t.desugar = .error (.refused d)) ∧
    (Everywhere (OfElements Element.IsFlat) .template t →
      (∃ t', t.desugar = .ok t' ∧
        EverywhereIn (DeclaredIn InvokesComponent) .root .template t) ∨
      ∃ halt, t.desugar = .error halt ∧ halt.IsMisuse) := by
  have hplaced {t' : Template} (h : t.desugar = .ok t') :
      EverywhereIn (DeclaredIn IsHolder) .root .template t :=
    declaredIn_of_plainForm hsource (fun _ _ => rfl) h
  refine ⟨?_, ?_⟩
  · cases h : t.desugar with
    | ok t' => exact .inl ⟨t', rfl, hplaced h⟩
    | error halt =>
      cases halt with
      | refused d => exact .inr ⟨d, rfl⟩
      | exhausted => exact absurd h (plainForm_ne_exhausted .root .template t)
  · intro hflat
    cases h : t.desugar with
    | ok t' =>
      exact .inl ⟨t', rfl, (hplaced h).imp hflat fun _ _ _ => declaredIn_component⟩
    | error halt =>
      have hshallow := hflat.imp_self fun k x hx =>
        ofElements_of (Q := Everywhere (OfElements Element.IsFlat))
          (fun _ => Element.isShallow_of_isFlat) hx
      exact .inr ⟨halt, rfl, isMisuse_of_desugar hshallow h⟩

theorem ne_slot_of_head {name : String} (h : name.toList.head? ≠ some '_') (i : Nat) :
    name ≠ Names.slot i := by
  rintro rfl
  exact h (by simp [Names.slot, String.toList_append])

/-- A block param that is invoked with a named block. -/
theorem desugar_blocksInPlace_let :
    let main : Element := { tag := ":main", children := [.text { chars := "Hello" }] }
    let card : Element := { tag := "card", children := [.element main] }
    let t : Template := { body := [.block {
      path := .path (.ofText "let" {})
      params := [.path (.ofText "Card" {})]
      program := { body := [.element card], blockParams := ["card"] } }] }
    Everywhere IsSource .template t ∧ Everywhere (OfElements Element.IsFlat) .template t ∧
      EverywhereIn (DeclaredIn InvokesComponent) .root .template t := by
  intro main card t
  have hsource : Everywhere IsSource .template t := by decide +kernel
  have hflat : Everywhere (OfElements Element.IsFlat) .template t := by
    have h : Everywhere (OfElements fun e => e.blockName? ≠ some Names.defaultBlock ∧
        e.head.toList.head? ≠ some '_') .template t := by decide +kernel
    exact h.elements fun e he => ⟨fun hname => absurd hname he.1, ne_slot_of_head he.2⟩
  refine ⟨hsource, hflat, ?_⟩
  rcases (desugar_blocksInPlace hsource).2 hflat with ⟨t', -, h⟩ | ⟨halt, hhalt, -⟩
  · exact h
  · have hok : t.desugar.toOption.isSome := by decide +kernel
    rw [hhalt] at hok
    cases hok

/-- **Not every accepted declaration is in its place**: it may stand directly in a `<:default>`. -/
theorem desugar_declaredInDefault :
    let main : Element := { tag := ":main", children := [.text { chars := "Hello" }] }
    let lone : Element := { tag := ":default", children := [.element main] }
    let t : Template := { body := [.element { tag := "Card", children := [.element lone] }] }
    let t' : Template := { body := [.element (Element.fanned { tag := "Card" } main [])] }
    Everywhere IsSource .template t ∧ t.desugar = .ok t' ∧
      ¬ EverywhereIn (DeclaredIn InvokesComponent) .root .template t := by
  intro main lone t t'
  refine ⟨by decide +kernel, by decide +kernel, ?_⟩
  intro h
  have hbody := (everywhereIn_iff.1 h).2 ⟨.statements, t.body⟩ (by simp [parts])
  have hcard := hbody.of_mem (List.mem_singleton_self _)
  obtain ⟨hdefault, -⟩ := everywhereIn_iff.1 (hcard.children.of_mem (List.mem_singleton_self _))
  rcases hdefault with hnone | ⟨hname, -⟩
  · exact hnone main (List.mem_singleton_self _) ⟨by decide +kernel, rfl⟩
  · exact absurd hname (by decide +kernel)

end TemplateBlocks
