import TemplateBlocks.Proofs.Desugar.Settled

/-!
# Plain forms

What desugaring with the standard builders makes of a node in a scope, without its levels and its
state:

* `plainWithin levels scope k x`: the result of the traversal with so many levels. A visit that
  succeeds leaves the scope as it was, so the parts of a node may be visited one by one;
* `plainWithin_of_weight_le`: from the weight of the node on, the levels make no difference and
  always suffice;
* `plainForm scope k x`: the result with enough levels. `plainForm_eq` is its recursion: settle the
  node, then visit its parts in their scope.
-/

namespace TemplateBlocks

namespace Desugar

/-- The result of a traversal that starts in a scope. -/
def resultIn {α : Type} (scope : Scope) (act : VisitM (State Unit) α) :
    Except Halt α × State Unit :=
  act.run.run ⟨scope, ()⟩

/-- The plain form of a node in a scope, going at most so many levels deep. -/
def plainWithin (levels : Nat) (scope : Scope) : VisitorOver (Except Halt) := fun k x =>
  (resultIn scope ((hooks Builders.standard).visit levels k x)).1

/-- The plain form of a node in a scope. -/
def plainForm (scope : Scope) : VisitorOver (Except Halt) := fun k x =>
  plainWithin (weight k x) scope k x

theorem desugar_eq_plainForm (t : Template) : t.desugar = plainForm .root .template t := rfl

/-! ### The scope is left as it was -/

section InScope

variable {α β : Type} {scope : Scope}

/-- An action that starts in a scope ends in a given result, and in that scope if it succeeds. -/
def EndsIn (scope : Scope) (act : VisitM (State Unit) α) (r : Except Halt α) : Prop :=
  (resultIn scope act).1 = r ∧ ∀ a, r = .ok a → (resultIn scope act).2 = ⟨scope, ()⟩

theorem EndsIn.pure (a : α) : EndsIn scope (pure a) (.ok a) := ⟨rfl, fun _ _ => rfl⟩

theorem EndsIn.throw (h : Halt) : EndsIn scope (throw h : VisitM (State Unit) α) (.error h) :=
  ⟨rfl, fun _ h => by cases h⟩

theorem EndsIn.bind {x : VisitM (State Unit) α} {r : Except Halt α}
    {f : α → VisitM (State Unit) β} {g : α → Except Halt β} (h : EndsIn scope x r)
    (hf : ∀ a, r = .ok a → EndsIn scope (f a) (g a)) : EndsIn scope (x >>= f) (r >>= g) := by
  have hrun : resultIn scope (x >>= f) =
      (ExceptT.bindCont f (resultIn scope x).1).run (resultIn scope x).2 := rfl
  obtain ⟨h1, h2⟩ := h
  unfold EndsIn
  rw [hrun, h1]
  cases r with
  | error e => exact ⟨rfl, fun _ h => by cases h⟩
  | ok a =>
    rw [h2 a rfl]
    exact hf a rfl

/-- `EndsIn` passes from the steps of an action to the action. -/
def endsIn (scope : Scope) : ActionRel (VisitM (State Unit)) (Except Halt) where
  rel := EndsIn scope
  pure := EndsIn.pure
  bind h hf := h.bind fun a _ => hf a

theorem endsIn_ofExcept (r : Except Diagnostic α) :
    EndsIn scope (VisitM.ofExcept r) (refusing r) := by
  cases r with
  | ok a => exact EndsIn.pure a
  | error d => exact EndsIn.throw (.refused d)

theorem endsIn_check (scope : Scope) (act : Scope → Except Diagnostic α) :
    EndsIn scope (check act) (refusing (act scope)) :=
  endsIn_ofExcept (act scope)

theorem endsIn_build (act : Scope → BuildM Unit α) :
    EndsIn scope (build act) (refusing (outcome (act scope))) :=
  endsIn_ofExcept (outcome (act scope))

/-- What is pushed before a body is popped after it. -/
theorem endsIn_within {frame : Frame} {act : VisitM (State Unit) α} {r : Except Halt α}
    (h : EndsIn (scope.push frame) act r) : EndsIn scope (within frame act) r := by
  -- what is done after the body
  let leave (a : α) : VisitM (State Unit) α := do
    let s ← get
    set { s with scope := (s.scope.popExpecting frame).2 }
    let _ ← VisitM.ofExcept (s.scope.popExpecting frame).1
    return a
  have hrun : resultIn scope (within frame act) =
      (ExceptT.bindCont leave (resultIn (scope.push frame) act).1).run
        (resultIn (scope.push frame) act).2 := rfl
  obtain ⟨h1, h2⟩ := h
  unfold EndsIn
  rw [hrun, h1]
  cases r with
  | error e => exact ⟨rfl, fun _ h => by cases h⟩
  | ok a =>
    have hleave : resultIn (scope.push frame) (leave a) = (.ok a, ⟨scope, ()⟩) := by
      have hpop : resultIn (scope.push frame) (leave a) =
          resultIn ((scope.push frame).popExpecting frame).2 (do
            let _ ← VisitM.ofExcept ((scope.push frame).popExpecting frame).1
            return a) := rfl
      rw [hpop, Scope.popExpecting_push]
      rfl
    rw [h2 a rfl]
    change (resultIn (scope.push frame) (leave a)).1 = _ ∧
      ∀ b, Except.ok a = Except.ok b → (resultIn (scope.push frame) (leave a)).2 = _
    rw [hleave]
    exact ⟨rfl, fun _ _ => rfl⟩

end InScope

/-! ### One level -/

section Level

variable {v : Visitor (State Unit)} {p : Scope → VisitorOver (Except Halt)}
  (hv : ∀ scope k x, EndsIn scope (v k x) (p scope k x))

include hv

theorem endsIn_walk (scope : Scope) (k : Kind) (x : k.Node) :
    EndsIn scope (walk v k x) (walk (p scope) k x) :=
  walk_rel (endsIn scope) k x fun q _ => hv scope q.1 q.2

/-- The root is checked again after it is walked into, and passes again. -/
theorem endsIn_visitTemplate (scope : Scope) (t : Template) :
    EndsIn scope (visitTemplate v t)
      (settled scope .template t >>= fun t => walk (p scope) .template t) := by
  have hcheck := endsIn_check scope t.checkRoot
  rw [settled_template, bind_assoc]
  refine hcheck.bind fun u hu => ?_
  have hroot : t.checkRoot scope = .ok u := refusing_eq_ok.1 hu
  simp only [walk, bind_assoc, ok_bind]
  refine (hv scope .statements t.body).bind fun body _ => ?_
  have hagain := endsIn_check scope ({ t with body } : Template).checkRoot
  rw [show ({ t with body } : Template).checkRoot scope = .ok u from hroot] at hagain
  rw [pure_bind]
  exact hagain.bind fun _ _ => EndsIn.pure _

theorem endsIn_visitElement (scope : Scope) (e : Element) :
    EndsIn scope (visitElement .standard v e)
      (settled scope .element e >>= fun e =>
        walk (p (innerScope scope .element e)) .element e) := by
  rw [settled_element, visitElement]
  cases ho : e.origin with
  | synthetic =>
    have hinner : innerScope scope .element e = scope := by simp [innerScope, ho]
    simp only [settleSource, ok_bind, hinner]
    exact endsIn_walk hv scope .element e
  | source =>
    refine EndsIn.bind (endsIn_build _) fun e' he' => ?_
    have ho' : e'.origin = .source :=
      settleSource_induction (P := fun a => a.origin = .source) ho
        (fun a b _ hab => Element.origin_of_becomes hab) he'
    change EndsIn scope (if e'.selfClosing || !e'.isComponent scope false then walk v .element e'
      else within (.ofComponent e') (walk v .element e')) _
    simp only [innerScope, ho']
    split
    · exact endsIn_walk hv scope .element e'
    · exact endsIn_within (endsIn_walk hv _ .element e')

theorem endsIn_visitMustache (scope : Scope) (m : Mustache) :
    EndsIn scope (visitMustache .standard v m)
      (settled scope .mustache m >>= fun m => walk (p scope) .mustache m) := by
  rw [settled_mustache, visitMustache]
  cases m.origin with
  | synthetic => exact endsIn_walk hv scope .mustache m
  | source => exact EndsIn.bind (endsIn_build _) fun m' _ => endsIn_walk hv scope .mustache m'

theorem endsIn_visitSubExpr (scope : Scope) (c : SubExpr) :
    EndsIn scope (visitSubExpr .standard v c)
      (settled scope .subExpression c >>= fun c => walk (p scope) .subExpression c) := by
  rw [settled_subExpression, visitSubExpr]
  cases c.origin with
  | synthetic => exact endsIn_walk hv scope .subExpression c
  | source => exact EndsIn.bind (endsIn_build _) fun c' _ => endsIn_walk hv scope .subExpression c'

/-- **What the traversal does at a node**: it settles the node and visits its parts. -/
theorem endsIn_hooks (scope : Scope) (k : Kind) (x : k.Node) :
    EndsIn scope (hooks .standard v k x)
      (settled scope k x >>= fun y => walk (p (innerScope scope k y)) k y) := by
  match k, x with
  | .template, t => exact endsIn_visitTemplate hv scope t
  | .block, ⟨body, params, chained, loc, origin⟩ =>
    cases origin with
    | synthetic => exact endsIn_walk hv scope .block _
    | source => exact endsIn_within (endsIn_walk hv _ .block _)
  | .element, e => exact endsIn_visitElement hv scope e
  | .mustache, m => exact endsIn_visitMustache hv scope m
  | .subExpression, c => exact endsIn_visitSubExpr hv scope c
  | .statements, ss => exact endsIn_walk hv scope .statements ss
  | .statement, s => exact endsIn_walk hv scope .statement s
  | .blockStatement, b => exact endsIn_walk hv scope .blockStatement b
  | .attribute, a => exact endsIn_walk hv scope .attribute a
  | .modifier, m => exact endsIn_walk hv scope .modifier m
  | .expression, e => exact endsIn_walk hv scope .expression e
  | .hash, h => exact endsIn_walk hv scope .hash h

end Level

theorem endsIn_visit (levels : Nat) (scope : Scope) (k : Kind) (x : k.Node) :
    EndsIn scope ((hooks .standard).visit levels k x) (plainWithin levels scope k x) := by
  induction levels generalizing scope k x with
  | zero => exact EndsIn.throw .exhausted
  | succ levels ih =>
    have h := endsIn_hooks ih scope k x
    exact ⟨rfl, fun a ha => h.2 a (h.1.symm.trans ha)⟩

/-- **The recursion of the traversal**: settle the node, then visit its parts in their scope. -/
theorem plainWithin_succ (levels : Nat) (scope : Scope) (k : Kind) (x : k.Node) :
    plainWithin (levels + 1) scope k x =
      settled scope k x >>= fun y => walk (plainWithin levels (innerScope scope k y)) k y :=
  (endsIn_hooks (endsIn_visit levels) scope k x).1

/-! ### Enough levels -/

/-- An action that the other one agrees with unless it runs out of levels. -/
def unlessExhausted : ActionRel (Except Halt) (Except Halt) where
  rel x y := x ≠ .error .exhausted → y = x
  pure _ _ := rfl
  bind {α β x y f g} h hf hne := by
    have hx : x ≠ .error .exhausted := by
      rintro rfl
      exact hne rfl
    rw [h hx]
    cases x with
    | error e => rfl
    | ok a => exact hf a hne

/-- An action that does not run out of levels. -/
def neverExhausted : ActionRel (Except Halt) (Except Halt) where
  rel x _ := x ≠ .error .exhausted
  pure _ := by simp
  bind {α β x y f g} h hf := by
    cases x with
    | error e => exact fun he => h (by simpa using he)
    | ok a => exact hf a

theorem plainWithin_mono (levels more : Nat) (scope : Scope) (k : Kind) (x : k.Node)
    (h : plainWithin levels scope k x ≠ .error .exhausted) :
    plainWithin (levels + more) scope k x = plainWithin levels scope k x := by
  induction levels generalizing scope k x with
  | zero => exact absurd rfl h
  | succ levels ih =>
    rw [Nat.add_right_comm]
    rw [plainWithin_succ] at h
    rw [plainWithin_succ, plainWithin_succ]
    cases hs : settled scope k x with
    | error e => rfl
    | ok y =>
      rw [hs] at h
      exact walk_rel unlessExhausted k y (fun q _ => ih _ q.1 q.2) h

/-- **Levels suffice**: from the weight of a node on, a traversal does not run out of them. -/
theorem plainWithin_ne_exhausted (levels : Nat) (scope : Scope) (k : Kind) (x : k.Node)
    (h : weight k x ≤ levels) : plainWithin levels scope k x ≠ .error .exhausted := by
  induction levels generalizing scope k x with
  | zero => exact absurd (weight_pos k x) (by omega)
  | succ levels ih =>
    rw [plainWithin_succ]
    cases hs : settled scope k x with
    | error e =>
      rw [error_bind]
      rintro ⟨⟩
      exact settled_ne_exhausted scope k x hs
    | ok y =>
      refine walk_rel neverExhausted (w := plainWithin levels scope) k y fun q hq => ih _ _ _ ?_
      have := weight_lt_of_settled hs hq
      omega

/-- **Levels make no difference** from the weight of a node on. -/
theorem plainWithin_of_weight_le {levels : Nat} {scope : Scope} {k : Kind} {x : k.Node}
    (h : weight k x ≤ levels) : plainWithin levels scope k x = plainForm scope k x := by
  obtain ⟨more, rfl⟩ := Nat.exists_eq_add_of_le h
  exact plainWithin_mono _ more scope k x (plainWithin_ne_exhausted _ scope k x le_rfl)

theorem plainForm_ne_exhausted (scope : Scope) (k : Kind) (x : k.Node) :
    plainForm scope k x ≠ .error .exhausted :=
  plainWithin_ne_exhausted _ scope k x le_rfl

/-- **The recursion of plain forms**: settle the node, then take the plain forms of its parts in
their scope. -/
theorem plainForm_eq (scope : Scope) (k : Kind) (x : k.Node) :
    plainForm scope k x =
      settled scope k x >>= fun y => walk (plainForm (innerScope scope k y)) k y := by
  obtain ⟨levels, hlevels⟩ := Nat.exists_eq_add_of_lt (weight_pos k x)
  rw [Nat.zero_add] at hlevels
  rw [← plainWithin_of_weight_le hlevels.le, plainWithin_succ]
  cases hs : settled scope k x with
  | error e => rfl
  | ok y =>
    refine walk_congr k y fun q hq => plainWithin_of_weight_le ?_
    have := weight_lt_of_settled hs hq
    omega

/-- A node that stays is visited as it is. -/
theorem plainForm_of_settled {scope : Scope} {k : Kind} {x : k.Node}
    (h : settled scope k x = .ok x) :
    plainForm scope k x = walk (plainForm (innerScope scope k x)) k x := by
  rw [plainForm_eq, h, ok_bind]

/-- What is refused at once is refused by desugaring. -/
theorem plainForm_of_enter_error {e : Element} {scope : Scope} {d : Diagnostic}
    (hsource : e.origin = .source) (h : outcome (e.enter scope .standard) = .error d) :
    plainForm scope .element e = .error (.refused d) := by
  have hsettle : outcome (settle "ElementNode" (fun e : Element => e.enter scope .standard)
      roundLimit e) = .error d := by
    rw [show roundLimit = 15 + 1 from rfl, settle, outcome_bind, h, error_bind]
  rw [plainForm_eq, settled_element, hsource, settleSource, hsettle]
  rfl

/-- **What settling keeps everywhere and walking keeps at a node, plain forms keep everywhere.** -/
theorem everywhere_plainForm {P : (k : Kind) → k.Node → Prop}
    (hsettled : ∀ {scope k} {x y : k.Node}, settled scope k x = .ok y → Everywhere P k x →
      Everywhere P k y)
    (hwalked : ∀ {scope k} {y z : k.Node}, walk (plainForm scope) k y = .ok z → P k y → P k z)
    {scope : Scope} {k : Kind} {x z : k.Node} (h : plainForm scope k x = .ok z)
    (hx : Everywhere P k x) : Everywhere P k z := by
  induction hn : weight k x using Nat.strong_induction_on generalizing scope k x z with
  | _ n ih =>
    rw [plainForm_eq] at h
    obtain ⟨y, hs, hw⟩ := bind_eq_ok.1 h
    obtain ⟨hy, hparts⟩ := everywhere_iff.1 (hsettled hs hx)
    refine .intro (hwalked hw hy) ?_
    intro q hq
    obtain ⟨x', hx', hplain⟩ := visited_of_mem_parts hw hq
    refine ih _ ?_ hplain (hparts _ hx') rfl
    have := weight_lt_of_settled hs hx'
    simp only at *
    omega

/-! ### Nodes of one kind -/

section Kinds

variable {scope : Scope}

theorem plainForm_statements (ss : List Statement) :
    plainForm scope .statements ss = ss.mapM (plainForm scope .statement) := by
  rw [plainForm_eq]
  rfl

@[simp] theorem plainForm_statement_block (b : BlockStatement) :
    plainForm scope .statement (.block b) = .block <$> plainForm scope .blockStatement b := by
  rw [plainForm_eq, map_eq_pure_bind]
  rfl

@[simp] theorem plainForm_path (p : Path) :
    plainForm scope .expression (.path p) = .ok (.path p) := by
  rw [plainForm_eq]
  rfl

@[simp] theorem plainForm_string (l : Literal String) :
    plainForm scope .expression (.string l) = .ok (.string l) := by
  rw [plainForm_eq]
  rfl

@[simp] theorem plainForm_number (l : Literal Binary64) :
    plainForm scope .expression (.number l) = .ok (.number l) := by
  rw [plainForm_eq]
  rfl

@[simp] theorem plainForm_boolean (l : Literal Bool) :
    plainForm scope .expression (.boolean l) = .ok (.boolean l) := by
  rw [plainForm_eq]
  rfl

@[simp] theorem plainForm_sub (c : SubExpr) :
    plainForm scope .expression (.sub c) = .sub <$> plainForm scope .subExpression c := by
  rw [plainForm_eq, map_eq_pure_bind]
  rfl

theorem plainForm_hash (h : Hash) : plainForm scope .hash h =
    (do return { h with pairs := ← h.pairs.mapM (walkPair (plainForm scope)) }) := by
  rw [plainForm_eq]
  rfl

@[simp] theorem plainForm_hash_nil (loc : Span) :
    plainForm scope .hash { pairs := [], loc } = .ok { pairs := [], loc } := by
  simp [plainForm_hash]

end Kinds

end Desugar

end TemplateBlocks
