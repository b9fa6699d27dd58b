import TemplateBlocks.Proofs.Reports
import TemplateBlocks.Proofs.Traversal.Everywhere

/-!
# Frames around visits

The builders are the caller's own and may make any nodes at all. Whatever they make, a visit does
not touch the frames around the node that it starts at: if it succeeds, the scope is the one before
it, and if it halts, the frames of the bodies it was in lie on top of them (`KeepsFrames`). Every
frame is pushed and popped in one place, so it suffices that the body in between keeps it
(`keepsFrames_within`); what the walk through the body makes of the node plays no part.

So popping a frame never fails, and neither does the check that a template ends at the root
(`visit_keepsFrames`). The standard builders make branches that can be chained.
-/

namespace TemplateBlocks

open Desugar

variable {σ α β : Type} {P : Diagnostic → Prop} {scope : Scope}

/-! ### Actions in a scope -/

/-- How an action ends that keeps the frames of a scope: in the same scope, or with more frames on
top of them and one of `P` to report. -/
def Kept (P : Diagnostic → Prop) (scope : Scope) : Except Halt α × State σ → Prop
  | (.ok _, s) => s.scope = scope
  | (.error halt, s) => scope.frames <:+ s.scope.frames ∧ ∀ d, halt = .refused d → P d

/-- An action that keeps the frames of the scope it starts in. -/
def KeepsFrames (P : Diagnostic → Prop) (scope : Scope) (act : VisitM (State σ) α) : Prop :=
  ∀ supply, Kept P scope (act.run.run ⟨scope, supply⟩)

theorem KeepsFrames.pure (a : α) : KeepsFrames P scope (pure a : VisitM (State σ) α) :=
  fun _ => rfl

theorem keepsFrames_exhausted :
    KeepsFrames P scope (throw .exhausted : VisitM (State σ) α) := by
  intro supply
  exact ⟨List.suffix_refl _, fun d h => by cases h⟩

theorem KeepsFrames.bind {x : VisitM (State σ) α} {f : α → VisitM (State σ) β}
    (hx : KeepsFrames P scope x) (hf : ∀ a, KeepsFrames P scope (f a)) :
    KeepsFrames P scope (x >>= f) := by
  intro supply
  have hrun : (x >>= f).run.run ⟨scope, supply⟩ =
      (ExceptT.bindCont f (x.run.run ⟨scope, supply⟩).1).run (x.run.run ⟨scope, supply⟩).2 := rfl
  have hkept := hx supply
  rw [hrun]
  generalize x.run.run ⟨scope, supply⟩ = out at hkept
  obtain ⟨r, inner, supply'⟩ := out
  cases r with
  | error halt => exact hkept
  | ok a =>
    obtain rfl : inner = scope := hkept
    exact hf a supply'

/-- `KeepsFrames` passes from the steps of an action to the action. -/
def keepsFrames (P : Diagnostic → Prop) (scope : Scope) :
    ActionRel (VisitM (State σ)) (VisitM (State σ)) where
  rel x _ := KeepsFrames P scope x
  pure := KeepsFrames.pure
  bind := KeepsFrames.bind

theorem keepsFrames_ofExcept {r : Except Diagnostic α} (hr : FailsWith P r) :
    KeepsFrames P scope (VisitM.ofExcept r : VisitM (State σ) α) := by
  intro supply
  cases r with
  | ok a => exact rfl
  | error e =>
    refine ⟨List.suffix_refl _, ?_⟩
    rintro d ⟨⟩
    exact hr e rfl

theorem keepsFrames_check {act : Scope → Except Diagnostic α} (hact : FailsWith P (act scope)) :
    KeepsFrames P scope (check act : VisitM (State σ) α) :=
  keepsFrames_ofExcept hact

/-- The builders do not see the scope's frames, let alone change them. -/
theorem keepsFrames_build {act : Scope → BuildM σ α} (hact : Reports P (act scope)) :
    KeepsFrames P scope (build act) := by
  intro supply
  exact keepsFrames_ofExcept (hact supply) ((act scope).run.run supply).2

/-- **A frame is popped where it was pushed**, if the body in between keeps it. -/
theorem keepsFrames_within {frame : Frame} {act : VisitM (State σ) α}
    (h : KeepsFrames P (scope.push frame) act) : KeepsFrames P scope (within frame act) := by
  -- what is done after the body
  let leave (a : α) : VisitM (State σ) α := do
    let s ← get
    set { s with scope := (s.scope.popExpecting frame).2 }
    let _ ← VisitM.ofExcept (s.scope.popExpecting frame).1
    return a
  intro supply
  have hrun : (within frame act).run.run ⟨scope, supply⟩ =
      (ExceptT.bindCont leave (act.run.run ⟨scope.push frame, supply⟩).1).run
        (act.run.run ⟨scope.push frame, supply⟩).2 := rfl
  have hkept := h supply
  rw [hrun]
  generalize act.run.run ⟨scope.push frame, supply⟩ = out at hkept
  obtain ⟨r, inner, supply'⟩ := out
  cases r with
  | error halt =>
    obtain ⟨hbelow, hreports⟩ := hkept
    exact ⟨(List.suffix_cons frame scope.frames).trans hbelow, hreports⟩
  | ok a =>
    obtain rfl : inner = scope.push frame := hkept
    have hleave : (leave a).run.run ⟨scope.push frame, supply'⟩ =
        ((do
          let _ ← VisitM.ofExcept ((scope.push frame).popExpecting frame).1
          return a : VisitM (State σ) α).run.run
            ⟨((scope.push frame).popExpecting frame).2, supply'⟩) := rfl
    change Kept P scope ((leave a).run.run ⟨scope.push frame, supply'⟩)
    rw [hleave, Scope.popExpecting_push]
    rfl

/-! ### One level -/

/-- What may be reported when nodes are entered and settled. -/
structure EntersWith (P : Diagnostic → Prop) (b : Builders σ) : Prop where
  element (e : Element) (scope : Scope) : Reports P (e.enter scope b)
  mustache (m : Mustache) (scope : Scope) : Reports P (m.enter scope b)
  subExpression (c : SubExpr) (scope : Scope) : Reports P (c.enter scope b)
  diverged (kind : String) : P (Defect.diverged kind roundLimit).report

/-- The check on the root of a template, where there is one. -/
def RootReports (P : Diagnostic → Prop) (scope : Scope) (k : Kind) : Prop :=
  k = .template → ∀ t : Template, FailsWith P (t.checkRoot scope)

section Level

variable {b : Builders σ} (hb : EntersWith P b) {v : Visitor (State σ)}
  (hv : ∀ scope k x, RootReports P scope k → KeepsFrames P scope (v k x))

include hv

/-- Templates have no templates in them. -/
theorem keepsFrames_walk (scope : Scope) (k : Kind) (x : k.Node) :
    KeepsFrames P scope (walk v k x) :=
  walk_rel (keepsFrames P scope) (w := v) k x fun q hq =>
    hv scope q.1 q.2 fun hk => absurd hk (ne_template_of_mem_parts hq)

theorem keepsFrames_visitTemplate (hroot : RootReports P scope .template) (t : Template) :
    KeepsFrames P scope (visitTemplate v t) := by
  refine (keepsFrames_check (hroot rfl t)).bind fun _ => ?_
  refine (keepsFrames_walk hv scope .template t).bind fun t' => ?_
  exact (keepsFrames_check (hroot rfl t')).bind fun _ => .pure t'

theorem keepsFrames_visitBlock (scope : Scope) (blk : Block) :
    KeepsFrames P scope (visitBlock v blk) := by
  unfold visitBlock
  cases blk.origin with
  | synthetic => exact keepsFrames_walk hv scope .block blk
  | source => exact keepsFrames_within (keepsFrames_walk hv _ .block blk)

include hb

theorem keepsFrames_visitElement (scope : Scope) (e : Element) :
    KeepsFrames P scope (visitElement b v e) := by
  unfold visitElement
  cases e.origin with
  | synthetic => exact keepsFrames_walk hv scope .element e
  | source =>
    have hsettle : KeepsFrames P scope (build fun scope =>
        settle "ElementNode" (fun e => e.enter scope b) roundLimit e) :=
      keepsFrames_build (reports_settle (hb.diverged _) (fun e => hb.element e scope) _ e)
    refine hsettle.bind fun e' supply => ?_
    change Kept P scope ((if e'.selfClosing || !e'.isComponent scope false then walk v .element e'
      else within (.ofComponent e') (walk v .element e') : VisitM (State σ) Element).run.run
        ⟨scope, supply⟩)
    split
    · exact keepsFrames_walk hv scope .element e' supply
    · exact keepsFrames_within (keepsFrames_walk hv _ .element e') supply

theorem keepsFrames_visitMustache (scope : Scope) (m : Mustache) :
    KeepsFrames P scope (visitMustache b v m) := by
  unfold visitMustache
  cases m.origin with
  | synthetic => exact keepsFrames_walk hv scope .mustache m
  | source =>
    have hsettle : KeepsFrames P scope (build fun scope =>
        settle "MustacheStatement" (fun m => m.enter scope b) roundLimit m) :=
      keepsFrames_build (reports_settle (hb.diverged _) (fun m => hb.mustache m scope) _ m)
    exact hsettle.bind fun m' => keepsFrames_walk hv scope .mustache m'

theorem keepsFrames_visitSubExpr (scope : Scope) (c : SubExpr) :
    KeepsFrames P scope (visitSubExpr b v c) := by
  unfold visitSubExpr
  cases c.origin with
  | synthetic => exact keepsFrames_walk hv scope .subExpression c
  | source =>
    have hsettle : KeepsFrames P scope (build fun scope =>
        settle "SubExpression" (fun c => c.enter scope b) roundLimit c) :=
      keepsFrames_build (reports_settle (hb.diverged _) (fun c => hb.subExpression c scope) _ c)
    exact hsettle.bind fun c' => keepsFrames_walk hv scope .subExpression c'

/-- **What the traversal does at a node keeps the frames around it**, if visiting its parts does. -/
theorem keepsFrames_hooks (scope : Scope) (k : Kind) (x : k.Node) (hroot : RootReports P scope k) :
    KeepsFrames P scope (hooks b v k x) := by
  match k, x, hroot with
  | .template, t, hroot => exact keepsFrames_visitTemplate hv hroot t
  | .block, blk, _ => exact keepsFrames_visitBlock hv scope blk
  | .element, e, _ => exact keepsFrames_visitElement hb hv scope e
  | .mustache, m, _ => exact keepsFrames_visitMustache hb hv scope m
  | .subExpression, c, _ => exact keepsFrames_visitSubExpr hb hv scope c
  | .statements, ss, _ => exact keepsFrames_walk hv scope .statements ss
  | .statement, s, _ => exact keepsFrames_walk hv scope .statement s
  | .blockStatement, s, _ => exact keepsFrames_walk hv scope .blockStatement s
  | .attribute, a, _ => exact keepsFrames_walk hv scope .attribute a
  | .modifier, m, _ => exact keepsFrames_walk hv scope .modifier m
  | .expression, e, _ => exact keepsFrames_walk hv scope .expression e
  | .hash, h, _ => exact keepsFrames_walk hv scope .hash h

end Level

/-- **Every visit keeps the frames around its node**, however deep it goes. -/
theorem keepsFrames_visit {b : Builders σ} (hb : EntersWith P b) (levels : Nat) (scope : Scope)
    (k : Kind) (x : k.Node) (hroot : RootReports P scope k) :
    KeepsFrames P scope ((hooks b).visit levels k x) := by
  induction levels generalizing scope k x with
  | zero => exact keepsFrames_exhausted
  | succ levels ih => exact keepsFrames_hooks hb ih scope k x hroot

/-! ### Codes -/

/-- The codes of the defects that are about scopes. -/
def scopeDefects : List String :=
  ["NB-BUG-SCOPE-UNDERFLOW", "NB-BUG-SCOPE-MISMATCH", "NB-BUG-NOT-ROOT"]

/-- The code of the defects that are about chains of branches. -/
def chainDefect : String := "NB-BUG-DISPATCH-CHAIN"

theorem Misuse.code_notMem (m : Misuse) : m.code ∉ chainDefect :: scopeDefects := by
  cases m <;> simp [Misuse.code, chainDefect, scopeDefects]

theorem Misuse.code_notMem_scopeDefects (m : Misuse) (span : Span) :
    (m.report span).code ∉ scopeDefects :=
  fun h => m.code_notMem (List.mem_cons_of_mem _ h)

/-- The root scope passes the check of a template, but for its params. -/
theorem rootReports_root (hP : ∀ (m : Misuse) (span : Span), P (m.report span)) (k : Kind) :
    RootReports P .root k :=
  fun _ _ => failsWith_obey (reported_anywhere hP) trivial

/-- Entering a node reports no defect of scopes, whatever the builders make. -/
theorem entersWith_scopeDefects (b : Builders σ) :
    EntersWith (fun d => d.code ∉ scopeDefects) b := by
  have hchain : chainDefect ∉ scopeDefects := by decide
  have hdiverged : "NB-BUG-REWRITE-DIVERGED" ∉ scopeDefects := by decide
  have hmisuse := reported_anywhere (P := fun d => d.code ∉ scopeDefects)
    Misuse.code_notMem_scopeDefects
  exact {
    element := fun e => Element.reports_enter hmisuse (fun _ _ => trivial) fun blocks _ =>
      e.reports_dispatchTo ⟨fun _ => hchain, hchain, hchain⟩ b blocks
    mustache := fun m scope => Mustache.reports_enter hmisuse (fun _ _ => trivial) scope b
    subExpression := fun c scope => SubExpr.reports_enter hmisuse (fun _ _ => trivial) scope b
    diverged := fun _ => hdiverged }

/-- Entering a node reports no broken chain with the standard builders. -/
theorem entersWith_chainDefect : EntersWith (fun d => d.code ≠ chainDefect) .standard := by
  have hcode (m : Misuse) (span : Span) : (m.report span).code ≠ chainDefect :=
    fun h => m.code_notMem (List.mem_cons.2 (.inl h))
  have hmisuse := reported_anywhere (P := fun d => d.code ≠ chainDefect) hcode
  have hdiverged : "NB-BUG-REWRITE-DIVERGED" ≠ chainDefect := by decide
  exact {
    element := fun e => Element.reports_enter hmisuse (fun _ _ => trivial) fun _ =>
      e.reports_dispatchTo_standard
    mustache := fun m scope => Mustache.reports_enter hmisuse (fun _ _ => trivial) scope .standard
    subExpression := fun c scope =>
      SubExpr.reports_enter hmisuse (fun _ _ => trivial) scope .standard
    diverged := fun _ => hdiverged }

/-! ### Visits -/

theorem Kept.scope_eq {out : Except Halt α × State σ} (h : Kept P scope out) {a : α}
    (ha : out.1 = .ok a) : out.2.scope = scope := by
  obtain ⟨r, s⟩ := out
  cases ha
  exact h

theorem Kept.suffix {out : Except Halt α × State σ} (h : Kept P scope out) :
    scope.frames <:+ out.2.scope.frames := by
  obtain ⟨r, s⟩ := out
  cases r with
  | ok a =>
    obtain rfl : s.scope = scope := h
    exact List.suffix_refl _
  | error halt => exact h.1

theorem Kept.reports {out : Except Halt α × State σ} (h : Kept P scope out) {d : Diagnostic}
    (hd : out.1 = .error (.refused d)) : P d := by
  obtain ⟨r, s⟩ := out
  cases hd
  exact h.2 d rfl

/-- What a visit reports at all plays no part in how it ends. -/
theorem kept_visit (b : Builders σ) (levels : Nat) (s : State σ) (k : Kind) (x : k.Node) :
    Kept (fun _ => True) s.scope (((hooks b).visit levels k x).run.run s) := by
  have hb : EntersWith (fun _ => True) b :=
    ⟨fun _ _ _ _ _ => trivial, fun _ _ _ _ _ => trivial, fun _ _ _ _ _ => trivial,
      fun _ => trivial⟩
  exact keepsFrames_visit hb levels s.scope k x (fun _ _ _ _ => trivial) s.supply

/-- No visit is refused for a defect of scopes, unless a template stands in a body. -/
theorem code_notMem_of_visit {b : Builders σ} {levels : Nat} {s : State σ} {k : Kind} {x : k.Node}
    (hroot : k = .template → s.scope = .root) {d : Diagnostic}
    (h : (((hooks b).visit levels k x).run.run s).1 = .error (.refused d)) :
    d.code ∉ scopeDefects := by
  have hreports : RootReports (fun d => d.code ∉ scopeDefects) s.scope k := by
    intro hk
    rw [hroot hk]
    exact rootReports_root Misuse.code_notMem_scopeDefects k hk
  have hkept := keepsFrames_visit (entersWith_scopeDefects b) levels s.scope k x hreports s.supply
  exact hkept.reports h

theorem code_notMem_of_desugarWith {b : Builders σ} {t : Template} {supply : σ} {d : Diagnostic}
    (h : (t.desugarWith b supply).1 = .error (.refused d)) : d.code ∉ scopeDefects := by
  have hvisit : (((hooks b).visit t.weight .template t).run.run ⟨.root, supply⟩).1 =
      .error (.refused d) := h
  exact code_notMem_of_visit (fun _ => rfl) hvisit

theorem code_ne_of_desugar {t : Template} {d : Diagnostic} (h : t.desugar = .error (.refused d)) :
    d.code ≠ chainDefect := by
  have hmisuse (m : Misuse) (span : Span) : (m.report span).code ≠ chainDefect :=
    fun h => m.code_notMem (List.mem_cons.2 (.inl h))
  have hkept := keepsFrames_visit entersWith_chainDefect t.weight .root .template t
    (rootReports_root hmisuse _) ()
  exact hkept.reports h

/-- **Scopes are left as they were found**, whatever nodes the builders make. A visit that succeeds
ends in the scope that it started in, and no visit touches the frames around its node, not even one
that is cut short. So no template is refused for a defect of scopes, and no node below the root is.
With the standard builders, none is refused for a broken chain either. -/
theorem visit_keepsFrames (b : Builders σ) :
    (∀ (levels : Nat) (s : State σ) (k : Kind) (x : k.Node),
      let out := ((hooks b).visit levels k x).run.run s
      (∀ y, out.1 = .ok y → out.2.scope = s.scope) ∧
      s.scope.frames <:+ out.2.scope.frames ∧
      ((k = .template → s.scope = .root) →
        ∀ d, out.1 = .error (.refused d) → d.code ∉ scopeDefects)) ∧
    (∀ (t : Template) (supply : σ) (d : Diagnostic),
      (t.desugarWith b supply).1 = .error (.refused d) → d.code ∉ scopeDefects) ∧
    ∀ (t : Template) (d : Diagnostic),
      t.desugar = .error (.refused d) → d.code ∉ chainDefect :: scopeDefects := by
  refine ⟨?_, ?_, ?_⟩
  · intro levels s k x out
    have hkept := kept_visit b levels s k x
    exact ⟨fun y hy => hkept.scope_eq hy, hkept.suffix, fun hroot d hd =>
      code_notMem_of_visit hroot hd⟩
  · intro t supply d hd
    exact code_notMem_of_desugarWith hd
  · intro t d hd
    rw [List.mem_cons, not_or]
    exact ⟨code_ne_of_desugar hd, code_notMem_of_desugarWith hd⟩

/-- Builders that count the invocations they make, and make other ones than they are asked for. -/
theorem visit_keepsFrames_renamed :
    let b : Builders Nat := {
      element := fun _ parts => do
        modify (· + 1)
        return { tag := "Other", children := parts.children, blockParams := ["a", "b"]
                 origin := .synthetic } }
    let main : Element := { tag := ":main", children := [.text { chars := "Hello" }] }
    let card : Element := { tag := "card", children := [.element main] }
    let s : State Nat := ⟨Scope.root.push ⟨.block, ["card"], {}⟩, 0⟩
    let out := ((hooks b).visit 20 .element card).run.run s
    (∃ e, out.1 = .ok e ∧ e.tag = "Other") ∧ out.2.supply = 1 ∧ out.2.scope = s.scope := by
  intro b main card s out
  have htag : out.1.toOption.map Element.tag = some "Other" := by decide +kernel
  obtain ⟨e, he, hname⟩ := Option.map_eq_some_iff.1 htag
  have hok : out.1 = .ok e := by
    cases hout : out.1 with
    | ok e' => simpa [hout, Except.toOption] using he
    | error halt => simp [hout, Except.toOption] at he
  refine ⟨⟨e, hok, hname⟩, by decide +kernel, ?_⟩
  exact ((visit_keepsFrames b).1 20 s .element card).1 e hok

/-- Other builders may well make branches that cannot be chained. -/
example :
    let b : Builders Unit := {
      path := fun text loc => return .ofText (if text = "if" then "unless" else text) loc }
    let main : Element := { tag := ":main", children := [.text { chars := "Hello" }] }
    let t : Template := { body := [.element { tag := "Card", children := [.element main] }] }
    (t.desugarWith b ()).1 = .error (.refused (Defect.chainBranch "unless").report) := by
  decide +kernel

end TemplateBlocks
