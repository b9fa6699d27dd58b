import TemplateBlocks.Proofs.Desugar.Places

/-!
# Replacing invocations in place

Replacements in a template leave its plain form as it is (`plainForm_replaces`). On the way down,
desugaring moves the blocks of an invocation, so that two elements which differ by replacements are
settled to others which do (`Element.settle_agree`): the blocks that are gathered differ only inside
(`Element.Alike`), and so do the invocations that are made of them.
-/

namespace TemplateBlocks

open Desugar

/-! ### Results that agree -/

/-- Both fail alike, or both succeed with related results. -/
def AgreeIn {α : Type} (R : α → α → Prop) (x y : Except Diagnostic α) : Prop :=
  (∃ d, x = .error d ∧ y = .error d) ∨ ∃ a b, x = .ok a ∧ y = .ok b ∧ R a b

section Agree

variable {α β : Type} {R : α → α → Prop} {S : β → β → Prop}

theorem AgreeIn.ok {a b : α} (h : R a b) : AgreeIn R (.ok a) (.ok b) := .inr ⟨a, b, rfl, rfl, h⟩

theorem AgreeIn.error (d : Diagnostic) : AgreeIn R (.error d) (.error d) := .inl ⟨d, rfl, rfl⟩

theorem isEmpty_of_forall₂ {xs ys : List α} (h : List.Forall₂ R xs ys) :
    ys.isEmpty = xs.isEmpty := by
  cases h <;> rfl

theorem AgreeIn.bind {x y : Except Diagnostic α} {f g : α → Except Diagnostic β}
    (h : AgreeIn R x y) (hf : ∀ a b, R a b → AgreeIn S (f a) (g b)) :
    AgreeIn S (x >>= f) (y >>= g) := by
  rcases h with ⟨d, rfl, rfl⟩ | ⟨a, b, rfl, rfl, hab⟩
  · exact .error d
  · exact hf a b hab

/-- The same check before both. -/
theorem AgreeIn.bind_same {x : Except Diagnostic α} {f g : α → Except Diagnostic β}
    (hf : ∀ a, AgreeIn S (f a) (g a)) : AgreeIn S (x >>= f) (x >>= g) := by
  cases x with
  | error d => exact .error d
  | ok a => exact hf a

end Agree

/-! ### Elements that differ inside -/

namespace Element

variable {scope bound : Scope} {e e' : Element} {blocks blocks' : List Element}

/-- The elements differ only by replacements in their children. -/
def Alike (scope : Scope) (e e' : Element) : Prop :=
  ∃ children, e' = { e with children } ∧
    Replaces (scope.push (.ofComponent e)) .statements e.children children

theorem Alike.refl (scope : Scope) (e : Element) : Alike scope e e :=
  ⟨e.children, by cases e; rfl, .refl _ .statements _⟩

/-- What does not look at the children is the same of blocks that differ inside. -/
theorem map_alike {α : Type} {f : Element → α}
    (hf : ∀ (b : Element) (children : List Statement), f { b with children } = f b)
    (h : List.Forall₂ (Alike scope) blocks blocks') : blocks'.map f = blocks.map f := by
  induction h with
  | nil => rfl
  | cons hb _ ih =>
    obtain ⟨children, rfl, -⟩ := hb
    rw [List.map_cons, List.map_cons, ih, hf]

/-! ### Gathering -/

/-- A declaration of the source does not settle, so its params are those it binds itself. -/
theorem bodyScope_isWithin (h : e.isDeclaration = .ok true) :
    (e.bodyScope scope).IsWithin (scope.push (.ofComponent e)) := by
  obtain ⟨name, hname, -, hopen, -⟩ := isDeclaration_eq_true.1 h
  cases ho : e.origin with
  | synthetic =>
    simp only [bodyScope, ho]
    exact (Scope.IsWithin.refl scope).push_right _
  | source =>
    have hparams : e.settledParams scope = [] := by
      unfold settledParams
      cases hs : settled scope .element e with
      | error d => rfl
      | ok y =>
        have hnone := blockName?_of_settled ho hopen hs
        rw [hname] at hnone
        cases hnone
    simp only [bodyScope, ho, hparams, List.append_nil]
    exact (Scope.IsWithin.refl scope).push fun n hn => hn

theorem declaration?_agree {s s' : Statement} (h : Replaces scope .statement s s') :
    AgreeIn (Option.Rel (Alike scope)) s.declaration? s'.declaration? := by
  have hsame (s : Statement) :
      AgreeIn (Option.Rel (Alike scope)) s.declaration? s.declaration? := by
    cases s.declaration? with
    | error d => exact .error d
    | ok found =>
      cases found with
      | none => exact .ok .none
      | some b => exact .ok (.some (.refl scope b))
  cases h with
  | refl => exact hsame s
  | inBlock _ => exact .ok .none
  | @inElement _ e e' he =>
    cases he with
    | refl => exact hsame _
    | @implicit _ _ only h =>
      have hnone : (Statement.element e).declaration? = .ok none := by
        rw [Statement.declaration?_eq_none]
        rintro c ⟨⟩
        exact h.invokes.unnamed
      have hnone' : (Statement.element (e.implicit only)).declaration? = .ok none := by
        rw [Statement.declaration?_eq_none]
        rintro c ⟨⟩
        exact h.invokes.unnamed
      rw [hnone, hnone']
      exact .ok .none
    | @children _ _ children hc =>
      have hdecl : ({ e with children } : Element).isDeclaration = e.isDeclaration := rfl
      simp only [Statement.declaration?, hdecl]
      cases hd : e.isDeclaration with
      | error d => exact .error d
      | ok declares =>
        cases declares with
        | false => exact .ok .none
        | true => exact .ok (.some ⟨children, rfl, hc.mono (bodyScope_isWithin hd)⟩)

theorem isIgnorable_of_replaces {s s' : Statement} (h : Replaces scope .statement s s') :
    s'.isIgnorable = s.isIgnorable := by
  cases h <;> rfl

theorem loc_of_replaces {s s' : Statement} (h : Replaces scope .statement s s') :
    s'.loc = s.loc := by
  cases h with
  | refl => rfl
  | inElement he => cases he <;> rfl
  | inBlock hb => cases hb <;> rfl

/-- **Gathering finds blocks that differ inside**, or fails alike. -/
theorem gather_agree {tag : String} {loose : Option Span} {ss ss' : List Statement}
    (hss : List.Forall₂ (Replaces scope .statement) ss ss')
    (hb : List.Forall₂ (Alike scope) blocks blocks') :
    AgreeIn (List.Forall₂ (Alike scope)) (gather tag blocks loose ss)
      (gather tag blocks' loose ss') := by
  induction hss generalizing blocks blocks' loose with
  | nil => exact .ok hb
  | @cons s s' ss ss' hs _ ih =>
    unfold gather
    rw [isIgnorable_of_replaces hs, loc_of_replaces hs, isEmpty_of_forall₂ hb]
    split
    · exact ih hb
    rcases declaration?_agree hs with ⟨d, hd, hd'⟩ | ⟨found, found', hd, hd', hrel⟩
    · simp only [hd, hd']
      exact .error d
    · simp only [hd, hd']
      cases hrel with
      | none =>
        simp only
        split
        · exact ih hb
        · exact .error _
      | @some block block' hblock =>
        cases loose with
        | some first => exact .error _
        | none =>
          have hname : block'.blockName = block.blockName := by
            obtain ⟨children, rfl, -⟩ := hblock
            rfl
          have hloc : block'.loc = block.loc := by
            obtain ⟨children, rfl, -⟩ := hblock
            rfl
          have hnames : blocks'.map blockName = blocks.map blockName :=
            map_alike (fun _ _ => rfl) hb
          have hany (name : String) : (blocks'.any fun b => b.blockName == name) =
              blocks.any fun b => b.blockName == name := by
            have := congrArg (fun names => names.any fun n => n == name) hnames
            simpa [List.any_map, Function.comp_def] using this
          simp only [hname, hloc, hany]
          split
          · exact .error _
          · exact ih (List.rel_append hb (.cons hblock .nil))

/-- Blocks are refused for their names and places only. -/
theorem refuseInverse_alike (h : List.Forall₂ (Alike scope) blocks blocks') :
    refuseInverse blocks' = refuseInverse blocks := by
  have hshells (bs : List Element) :
      refuseInverse (bs.map fun b => { b with children := [] }) = refuseInverse bs := by
    unfold refuseInverse
    rw [List.find?_map]
    simp only [List.any_map]
    cases hfind : bs.find? isInverse with
    | none =>
      have hcomp : bs.find? (isInverse ∘ fun b => { b with children := [] }) = none := hfind
      rw [hcomp]
      rfl
    | some b =>
      have hcomp : bs.find? (isInverse ∘ fun b => { b with children := [] }) = some b := hfind
      rw [hcomp]
      rfl
  rw [← hshells blocks, ← hshells blocks', map_alike (fun _ _ => rfl) h]

theorem namedBlocks_agree (h : Alike scope e e') :
    AgreeIn (List.Forall₂ (Alike (scope.push (.ofComponent e)))) e.namedBlocks e'.namedBlocks := by
  obtain ⟨children, rfl, hc⟩ := h
  unfold namedBlocks
  refine (gather_agree hc.forall₂ .nil).bind fun blocks blocks' hb => ?_
  rw [refuseInverse_alike hb]
  exact .bind_same fun _ => .ok hb

/-! ### Fanning out -/

/-- A body of one block call, which binds nothing. -/
theorem replaces_body {b b' : BlockStatement} (chained : Bool) (loc : Span)
    (h : Replaces scope .blockStatement b b') :
    Replaces scope .block { body := [.block b], chained, loc }
      { body := [.block b'], chained, loc } := by
  refine .block (b := { body := [.block b], chained, loc }) (.singleton (h.mono ?_))
  exact (Scope.IsWithin.refl scope).push_right _

theorem replaces_ownBody {b b' : Element} (h : Alike scope b b') :
    Replaces scope .block b.ownBody b'.ownBody := by
  obtain ⟨children, rfl, hc⟩ := h
  refine .block (b := b.ownBody) (hc.mono ?_)
  exact (Scope.IsWithin.refl scope).push fun n hn => hn

theorem replaces_branchBody {b b' : Element} (h : Alike scope b b') :
    Replaces scope .block b.branchBody b'.branchBody := by
  have hown := replaces_ownBody h
  obtain ⟨children, rfl, hc⟩ := h
  unfold branchBody
  split
  · exact hown
  · exact replaces_body false b.loc (.program (b := b.letSlots) hown)

theorem replaces_dispatchChain {first first' : Element} {rest rest' : List Element}
    (hfirst : Alike scope first first') (hrest : List.Forall₂ (Alike scope) rest rest') :
    Replaces scope .blockStatement (dispatchChain first rest) (dispatchChain first' rest') := by
  induction hrest generalizing first first' with
  | nil =>
    have hbody := replaces_branchBody hfirst
    obtain ⟨children, rfl, -⟩ := hfirst
    exact .program (b := first.branch) hbody
  | @cons next next' rest rest' hnext _ ih =>
    have hbody := replaces_branchBody hfirst
    have hchain := ih hnext
    obtain ⟨children, rfl, -⟩ := hfirst
    obtain ⟨children', rfl, -⟩ := hnext
    exact .inverse (b := dispatchChain first (next :: rest)) hbody rfl
      (replaces_body true next.loc hchain)

theorem isLoneDefault_alike (h : List.Forall₂ (Alike scope) blocks blocks') :
    IsLoneDefault blocks' ↔ IsLoneDefault blocks := by
  have hiff (bs : List Element) :
      IsLoneDefault bs ↔ bs.map blockName? = [some Names.defaultBlock] := by
    simp [IsLoneDefault, List.map_eq_cons_iff]
  rw [hiff, hiff, map_alike (fun _ _ => rfl) h]

/-- What cannot be fanned out is refused for it, whatever it holds. -/
theorem outcome_fanOut_of_not_isFannable (h : ¬ e.IsFannable) (children : List Statement)
    (blocks blocks' : List Element) : outcome (e.fanOut .standard blocks) =
      outcome ({ e with children }.fanOut .standard blocks') := by
  unfold fanOut
  cases hparams : e.blockParams with
  | cons p ps => simp
  | nil =>
    have hattr : (e.attributes.any fun a => a.name == Names.metadataArgument) = true := by
      by_contra hnone
      exact h ⟨hparams, by simpa using hnone⟩
    simp [hattr]

/-- **Fanning out blocks that differ inside** makes invocations that do, or fails alike. -/
theorem fanOut_agree (h : Alike bound e e') (hne : blocks ≠ [])
    (hb : List.Forall₂ (Alike (bound.push (.ofComponent e))) blocks blocks') :
    AgreeIn (Alike bound) (outcome (e.fanOut .standard blocks))
      (outcome (e'.fanOut .standard blocks')) := by
  obtain ⟨children, rfl, -⟩ := h
  by_cases hfan : e.IsFannable
  · have hfan' : ({ e with children } : Element).IsFannable := hfan
    -- the invocation binds nothing itself
    have hbound : (bound.push (.ofComponent e)).IsWithin bound :=
      (Scope.IsWithin.refl bound).push_left (by simp [Frame.ofComponent, hfan.1])
    cases hb with
    | nil => exact absurd rfl hne
    | @cons first first' rest rest' hfirst hrest =>
      by_cases hlone : IsLoneDefault (first :: rest)
      · obtain ⟨_, honly, hname⟩ := hlone
        cases honly
        cases hrest
        obtain ⟨inner, rfl, hinner⟩ := hfirst
        have hname' : ({ first with children := inner } : Element).blockName? =
            some Names.defaultBlock := hname
        rw [outcome_fanOut hfan, outcome_fanOut hfan']
        simp only [hname, hname', if_true]
        refine .ok ⟨inner, rfl, hinner.mono ?_⟩
        exact hbound.push fun n hn => hn
      · have hlone' := mt (isLoneDefault_alike (.cons hfirst hrest)).1 hlone
        rw [outcome_fanOut_cons hfan hlone, outcome_fanOut_cons hfan' hlone']
        have hmeta : Metadata.ofBlocks (first' :: rest') = Metadata.ofBlocks (first :: rest) := by
          unfold Metadata.ofBlocks
          rw [map_alike (fun _ _ => rfl) (.cons hfirst hrest)]
        have hslots : slotNames (first' :: rest') = slotNames (first :: rest) := by
          unfold slotNames slotCount
          rw [map_alike (fun _ _ => rfl) (.cons hfirst hrest)]
        refine .ok ⟨[.block (dispatchChain first' rest')], ?_, .singleton ?_⟩
        · simp only [fanned, hmeta, hslots]
        · exact (replaces_dispatchChain hfirst hrest).mono (hbound.push_right _)
  · rw [outcome_fanOut_of_not_isFannable hfan children blocks blocks']
    cases outcome ({ e with children }.fanOut .standard blocks') with
    | error d => exact .error d
    | ok y => exact .ok (.refl bound y)

/-! ### Settling -/

/-- **Entering elements that differ inside** puts such elements in their places, or nothing in
either's, or fails alike. -/
theorem enter_agree (scope : Scope) (h : Alike bound e e') :
    AgreeIn (Option.Rel (Alike bound)) (outcome (e.enter scope .standard))
      (outcome (e'.enter scope .standard)) := by
  obtain ⟨hclosed, hdecl, hcomp, htag, hparams, hloc⟩ : e'.selfClosing = e.selfClosing ∧
      e'.isDeclaration = e.isDeclaration ∧ e'.isComponent scope false = e.isComponent scope false ∧
      e'.tag = e.tag ∧ e'.blockParams = e.blockParams ∧ e'.loc = e.loc := by
    obtain ⟨children, rfl, -⟩ := h
    exact ⟨rfl, rfl, rfl, rfl, rfl, rfl⟩
  have hempty : e'.children.isEmpty = e.children.isEmpty := by
    obtain ⟨children, rfl, hc⟩ := h
    exact isEmpty_of_forall₂ hc.forall₂
  unfold enter
  rw [hclosed, hdecl, hcomp, htag, hparams, hloc, hempty]
  cases e.selfClosing with
  | true =>
    simp only [if_true, outcome_bind, outcome_check]
    exact .bind_same fun _ => .bind_same fun _ => .ok .none
  | false =>
    simp only [Bool.false_eq_true, if_false, outcome_bind, outcome_check]
    refine .bind_same fun declares => .bind_same fun _ => ?_
    refine (namedBlocks_agree h).bind fun blocks blocks' hb => ?_
    cases e.isComponent scope false with
    | true =>
      rw [if_pos rfl, if_pos rfl, isEmpty_of_forall₂ hb]
      cases hblocks : blocks with
      | nil => exact .ok .none
      | cons first rest =>
        have hfan := fanOut_agree h (by simp [hblocks]) hb
        rw [hblocks] at hfan
        simp only [List.isEmpty_cons, Bool.false_eq_true, if_false, outcome_bind]
        exact hfan.bind fun y y' hy => .ok (.some hy)
    | false =>
      simp only [Bool.false_eq_true, if_false, outcome_bind, outcome_check]
      refine .bind_same fun _ => ?_
      cases hb with
      | nil => exact .ok .none
      | cons hfirst _ =>
        obtain ⟨children, rfl, -⟩ := hfirst
        exact .error _

/-- **Settling elements that differ inside** leads to elements that do, or fails alike. -/
theorem settle_agree (scope : Scope) (h : Alike bound e e') (kind : String) (rounds : Nat) :
    AgreeIn (Alike bound) (outcome (settle kind (fun e => e.enter scope .standard) rounds e))
      (outcome (settle kind (fun e => e.enter scope .standard) rounds e')) := by
  induction rounds generalizing e e' with
  | zero => exact .error _
  | succ rounds ih =>
    rcases enter_agree scope h with ⟨d, hd, hd'⟩ | ⟨next, next', hn, hn', hrel⟩
    · simp only [settle, outcome_bind, hd, hd']
      exact .error d
    · cases hrel with
      | none =>
        rw [settle_of_settled (.inl hn), settle_of_settled (.inl hn')]
        exact .ok h
      | @some y y' hy =>
        have hb : Becomes (fun e : Element => e.enter scope .standard) e y := hn
        have hb' : Becomes (fun e : Element => e.enter scope .standard) e' y' := hn'
        rw [settle_of_becomes hb (ne_of_becomes hb), settle_of_becomes hb' (ne_of_becomes hb')]
        exact ih hy

end Element

/-! ### Plain forms -/

theorem walk_children {ε : Type} {v : VisitorOver (Except ε)} {e : Element}
    {children : List Statement} (h : v .statements e.children = v .statements children) :
    walk v .element e = walk v .element { e with children } := by
  simp only [walk, h]

/-- The scope in which desugaring goes into what an element is settled to. -/
theorem isWithin_innerScope {scope : Scope} {e y : Element} (hsource : e.origin = .source)
    (hs : settled scope .element e = .ok y) :
    ((scope.push ⟨.component e.tag, e.settledParams scope, e.loc⟩).push (.ofComponent y)).IsWithin
      (innerScope scope .element y) := by
  have hparams : e.settledParams scope = y.blockParams := by simp [Element.settledParams, hs]
  have hysource : y.origin = .source :=
    settleSource_induction (P := fun a => a.origin = .source) hsource
      (fun a b _ hab => Element.origin_of_becomes hab) hs
  rw [settled_element, hsource] at hs
  have hplain := Element.isPlain_of_settled (settled_of_settleSource hs)
  rw [hparams]
  simp only [innerScope, hysource]
  split
  · -- nothing is bound by what is no invocation
    have hnone : y.blockParams = [] := by
      rcases hplain with ⟨-, hnone, -⟩ | ⟨hopen, -, -, hcomp | hnone⟩
      · exact hnone
      · simp_all
      · exact hnone
    refine ((Scope.IsWithin.refl scope).push_left ?_).push_left ?_ <;>
      simp [Frame.ofComponent, hnone]
  · have hbinds (n : String) (hn : n ∈ y.blockParams) :
        (scope.push (.ofComponent y)).isLocal n false = true :=
      Scope.isLocal_push_iff.2 (.inl hn)
    exact (((Scope.IsWithin.refl scope).push_right _).push_left hbinds).push_left hbinds

/-- What stands in a fanned-out invocation is in the scope of its slots. -/
theorem bodyScope_isWithin_push {scope : Scope} {e : Element} (hsource : e.origin = .source) :
    (e.bodyScope scope).IsWithin
      ((scope.push ⟨.component e.tag, e.settledParams scope, e.loc⟩).push (.ofComponent e)) := by
  simp only [Element.bodyScope, hsource]
  refine ((Scope.IsWithin.refl scope).push_right _).push_right _ |>.push_left ?_
  intro n hn
  rcases List.mem_append.1 hn with hn | hn
  · exact Scope.isLocal_push_iff.2 (.inl hn)
  · exact Scope.isLocal_push_iff.2 (.inr (Scope.isLocal_push_iff.2 (.inl hn)))

/-- Replacements in an element leave its plain form as it is, if those in lighter bodies do. -/
theorem plainForm_children {scope : Scope} {e e' : Element} {children : List Statement}
    (he : e' = { e with children })
    (h : Replaces (e.bodyScope scope) .statements e.children children)
    (ih : ∀ inner (body body' : List Statement), Replaces inner .statements body body' →
      weight .statements body < weight .element e →
      plainForm inner .statements body = plainForm inner .statements body') :
    plainForm scope .element e = plainForm scope .element e' := by
  have horigin : e'.origin = e.origin := by rw [he]
  rw [plainForm_eq, plainForm_eq, settled_element, settled_element, horigin]
  cases ho : e.origin with
  | synthetic =>
    have hscope : e.bodyScope scope = innerScope scope .element e := by
      simp [Element.bodyScope, innerScope, ho]
    have hbody := ih _ _ _ h (weight_children_lt e)
    rw [hscope] at hbody
    subst he
    exact walk_children hbody
  | source =>
    have halike :
        Element.Alike (scope.push ⟨.component e.tag, e.settledParams scope, e.loc⟩) e e' :=
      ⟨children, he, h.mono (bodyScope_isWithin_push ho)⟩
    rcases Element.settle_agree scope halike "ElementNode" roundLimit with
      ⟨d, hd, hd'⟩ | ⟨y, y', hy, hy', body, rfl, hbody⟩
    · simp only [settleSource, hd, hd', refusing, error_bind]
    · have hs : settled scope .element e = .ok y := by
        rw [settled_element, ho, settleSource, hy]
        rfl
      have hlt : weight .statements y.children < weight .element e := by
        have := weight_children_lt y
        have := weight_settled_le hs
        omega
      simp only [settleSource, hy, hy']
      exact walk_children (ih _ _ _ (hbody.mono (isWithin_innerScope ho hs)) hlt)

/-- **Replacements leave the plain form as it is.** -/
theorem plainForm_replaces {scope : Scope} {k : Kind} {x x' : k.Node}
    (h : Replaces scope k x x') : plainForm scope k x = plainForm scope k x' := by
  -- blocks are moved before they are visited, so the induction is on the weight
  induction hn : weight k x using Nat.strong_induction_on generalizing scope k x x' with
  | _ n ih =>
    subst hn
    have hpart {s : Scope} (p : Node) {q : p.1.Node} (hp : p ∈ parts k x)
        (h : Replaces s p.1 p.2 q) : plainForm s p.1 p.2 = plainForm s p.1 q :=
      ih _ (weight_lt_of_mem_parts hp) h rfl
    cases h with
    | refl => rfl
    | implicit h => exact plainForm_implicit h
    | @template _ t body hb =>
      have hbody := hpart ⟨.statements, t.body⟩ (by simp [parts]) hb
      have hcheck : ({ t with body } : Template).checkRoot scope = t.checkRoot scope := rfl
      rw [plainForm_eq, plainForm_eq, settled_template, settled_template, hcheck, bind_assoc,
        bind_assoc]
      simp only [ok_bind, innerScope, walk, hbody]
    | @block _ b body hb =>
      have hbody := hpart ⟨.statements, b.body⟩ (by simp [parts]) hb
      have hscope : innerScope scope .block { b with body } = innerScope scope .block b := rfl
      rw [plainForm_of_settled rfl, plainForm_of_settled rfl, hscope]
      simp only [walk, hbody]
    | @cons _ s s' ss ss' hs hss =>
      have hhead := hpart ⟨.statement, s⟩ (by simp [parts]) hs
      have hlt : weight .statements ss < weight .statements (s :: ss) := by
        have := weight_pos .statement s
        simp only [weight, Statement.weights] at this ⊢
        omega
      have htail := ih _ hlt hss rfl
      rw [plainForm_statements, plainForm_statements] at htail ⊢
      rw [List.mapM_cons, List.mapM_cons, hhead, htail]
    | @inElement _ e e' he =>
      have helement := hpart ⟨.element, e⟩ (by simp [parts, Statement.parts]) he
      rw [plainForm_of_settled rfl, plainForm_of_settled rfl]
      simp only [innerScope, walk, walkStatement, helement]
    | @inBlock _ b b' hb =>
      have hblock := hpart ⟨.blockStatement, b⟩ (by simp [parts, Statement.parts]) hb
      rw [plainForm_statement_block, plainForm_statement_block, hblock]
    | @program _ b program hp =>
      have hprogram := hpart ⟨.block, b.program⟩ (by simp [parts]) hp
      rw [plainForm_of_settled rfl, plainForm_of_settled rfl]
      simp only [innerScope, walk, hprogram]
    | @inverse _ b program i i' hp hsome hi =>
      have hprogram := hpart ⟨.block, b.program⟩ (by simp [parts]) hp
      have hinverse := hpart ⟨.block, i⟩ (by simp [parts, hsome]) hi
      rw [plainForm_of_settled rfl, plainForm_of_settled rfl]
      simp only [innerScope, walk, hprogram, hsome, Option.mapM_some, hinverse]
    | @children _ e children hc =>
      refine plainForm_children rfl hc ?_
      intro inner body body' hbody hlt
      exact ih _ hlt hbody rfl

/-! ### Templates -/

/-- **A lone default block is the implicit body.** In every scope, a visit of an invocation that
passes nothing but a `<:default>` ends as a visit of its implicit form does, in the same node or the
same error. So a template has the plain form, or the error, of any other one in which such
invocations are in their implicit form. -/
theorem desugar_implicit :
    (∀ scope levels (e only : Element), e.HasLoneDefault scope only →
      resultIn scope ((hooks .standard).visit levels .element e) =
        resultIn scope ((hooks .standard).visit levels .element (e.implicit only))) ∧
    ∀ t t' : Template, Replaces .root .template t t' → t.desugar = t'.desugar := by
  constructor
  · intro scope levels e only h
    exact resultIn_visit_implicit h levels
  · intro t t' h
    rw [desugar_eq_plainForm, desugar_eq_plainForm]
    exact plainForm_replaces h

/-- An invocation of a block's param, inside that block. -/
theorem desugar_implicit_box :
    let yield : Mustache := {
      path := .path (.ofText "yield" {})
      params := [.path (.ofText "row" {})] }
    let only : Element := {
      tag := ":default"
      blockParams := ["row"]
      children := [.mustache yield] }
    let box : Element := {
      tag := "box"
      children := [.text { chars := " " }, .element only, .mustacheComment { value := "rows" }] }
    let page (e : Element) : Element := {
      tag := "Page"
      children := [
        .element { tag := ":main", blockParams := ["box"], children := [.element e] },
        .element { tag := ":side" }] }
    let t (e : Element) : Template := { body := [.element (page e)] }
    (t box).desugar = (t (box.implicit only)).desugar ∧ (t box).desugar.isOk := by
  intro yield only box page t
  have hbox (scope : Scope) (h : box.isComponent scope false = true) :
      box.HasLoneDefault scope only := {
    source := rfl
    invokes := ⟨rfl, by decide, h, rfl, by simp [box]⟩
    holds := ⟨[.text { chars := " " }], [.mustacheComment { value := "rows" }], rfl, by decide⟩
    declared := by decide
    named := by decide
    flat := by simp [only] }
  have hmain : Replaces .root .template (t box) (t (box.implicit only)) := by
    refine .template (.cons (.inElement (.children (.cons (.inElement (.children
      (.cons (.inElement (.implicit (hbox _ ?_))) (.refl _ .statements _))))
      (.refl _ .statements _)))) (.refl _ .statements _))
    decide +kernel
  exact ⟨desugar_implicit.2 _ _ hmain, by decide +kernel⟩

end TemplateBlocks
