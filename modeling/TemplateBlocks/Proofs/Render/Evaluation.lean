import TemplateBlocks.Render.Helper
import TemplateBlocks.Tree.Statement

/-!
# Rendering plain templates

What a desugared template means to whoever renders it. A *host* decides what mustaches, elements,
other block calls, free names and other helpers come to. The rest is fixed here:

* a path that starts with a block param has the value of the innermost binding (`Host.lookup`);
* helpers whose names start with a dash are those of `Helper.call`, and `hash` makes a hash;
* `{{#if c}}` goes by whether `c` is truthy, and `{{#let v w as |x y|}}` binds its block params to
  the values one by one, to undefined where there are too few.
-/

namespace TemplateBlocks

/-! ### Environments -/

/-- The block params bound around a statement and their values, innermost first. -/
structure Env where
  locals : List (String × Value) := []

namespace Env

variable {ρ : Env} {n : String} {ns : List String} {vs : List Value}

/-- The value of the innermost binding of a name. -/
def lookup (ρ : Env) (name : String) : Option Value := ρ.locals.lookup name

/-- Binds names one by one; names without a value are undefined. -/
def bind (ρ : Env) : List String → List Value → Env
  | [], _ => ρ
  | n :: ns, vs => bind ⟨(n, vs.headD .undefined) :: ρ.locals⟩ ns vs.tail

theorem lookup_cons (m : String) (v : Value) :
    lookup ⟨(m, v) :: ρ.locals⟩ n = if n = m then some v else ρ.lookup n := by
  unfold lookup
  rw [List.lookup_cons]
  by_cases h : n = m
  · simp [h]
  · rw [if_neg h, beq_eq_false_iff_ne.2 h]

/-- Names that are not bound keep their values. -/
theorem lookup_bind_of_notMem (h : n ∉ ns) : (ρ.bind ns vs).lookup n = ρ.lookup n := by
  induction ns generalizing ρ vs with
  | nil => rfl
  | cons m ns ih =>
    obtain ⟨hm, hns⟩ : n ≠ m ∧ n ∉ ns := by simpa using h
    rw [bind, ih hns, lookup_cons, if_neg hm]

/-- **The `i`-th name has the `i`-th value**, unless a later one of the same name hides it. -/
theorem lookup_bind_getElem {i : Nat} (hi : i < ns.length) (hlast : ns[i] ∉ ns.drop (i + 1)) :
    (ρ.bind ns vs).lookup ns[i] = some (vs[i]?.getD .undefined) := by
  induction ns generalizing ρ vs i with
  | nil => simp at hi
  | cons m ns ih =>
    rw [bind]
    cases i with
    | zero =>
      rw [List.getElem_cons_zero, lookup_bind_of_notMem (by simpa using hlast), lookup_cons,
        if_pos rfl]
      cases vs <;> rfl
    | succ i =>
      rw [List.getElem_cons_succ, ih (by simpa using hi) (by simpa using hlast)]
      cases vs <;> simp

/-- Values past the end are undefined in any case. -/
theorem bind_range : ρ.bind ns ((List.range ns.length).map fun i => vs[i]?.getD .undefined) =
    ρ.bind ns vs := by
  induction ns generalizing ρ vs with
  | nil => rfl
  | cons m ns ih =>
    have htail : (fun i => vs[i]?.getD Value.undefined) ∘ Nat.succ =
        fun i => vs.tail[i]?.getD .undefined := by
      funext i
      simp
    rw [List.length_cons, List.range_succ_eq_map, List.map_cons, List.map_map, htail, bind, bind,
      List.tail_cons, ih]
    cases vs <;> rfl

end Env

/-! ### Calls in sequence -/

/-- A call that succeeds goes on with its result, and with the markers that it leaves. -/
theorem run_bind_ok {α β : Type} {x : CallM α} {f : α → CallM β} {marks marks' : Marks} {a : α}
    (h : x.run marks = (.ok a, marks')) : (x >>= f).run marks = (f a).run marks' := by
  change (match x.run marks with | (r, marks) => (ExceptT.bindCont f r) marks) = _
  rw [h]
  rfl

/-! ### Hosts -/

/-- What rendering leaves open. -/
structure Host where
  /-- The value of a path that no block param starts. -/
  resolve : Path → Value
  /-- The value that further segments of a path lead to. -/
  select : Value → List String → Value
  /-- The result of a helper that is not reserved. -/
  call : Path → List Value → List (String × Value) → Env → CallM Value
  mustache : Mustache → Env → CallM String
  /-- What an element renders as, given what its children do when its block params are bound. -/
  element : Element → Env → (List Value → CallM String) → CallM String
  /-- What a block call renders as, given what its program and its inverse do. -/
  block : BlockStatement → Env → (program inverse : List Value → CallM String) → CallM String
  comment : Comment → String

namespace Host

variable (h : Host) (ρ : Env)

/-! ### Expressions -/

/-- The value of a path. -/
def lookup (p : Path) : Value :=
  match p.isData || p.isThis, p.parts with
  | false, head :: rest =>
    match ρ.lookup head with
    | some v => if rest.isEmpty then v else h.select v rest
    | none => h.resolve p
  | _, _ => h.resolve p

/-- The names of helpers that desugared templates rely on start with a dash. -/
def isReserved (name : String) : Bool := (Text.afterLead? ['-'] name).isSome

/-- The result of a helper. -/
def apply (path : Path) (values : List Value) (named : List (String × Value)) : CallM Value :=
  if isReserved path.text then Helper.call path.text values named
  else if path.text = Names.hashHelper then return .hash named
  else h.call path values named ρ

mutual
/-- The value of an expression. -/
def eval : Expr → CallM Value
  | .path p => return h.lookup ρ p
  | .sub c => evalCall c
  | .string l => return .string l.value
  | .number l => return .number l.value
  | .boolean l => return .bool l.value
/-- The value of a call. -/
def evalCall : SubExpr → CallM Value
  | ⟨path, params, hash, _, _⟩ => do
    let values ← evalAll params
    let named ← evalNamed hash
    h.apply ρ path values named
/-- The values of named arguments. -/
def evalNamed : Hash → CallM (List (String × Value))
  | ⟨pairs, _⟩ => return Entries.ofList (← evalPairs pairs)
/-- The value of a named argument. -/
def evalPair : HashPair → CallM (String × Value)
  | ⟨key, value, _⟩ => return (key, ← eval value)
/-- The values of expressions, one after the other. -/
def evalAll : List Expr → CallM (List Value)
  | [] => return []
  | e :: es => return (← eval e) :: (← evalAll es)
/-- The values of named arguments, one after the other. -/
def evalPairs : List HashPair → CallM (List (String × Value))
  | [] => return []
  | p :: ps => return (← evalPair p) :: (← evalPairs ps)
end

/-- The value of a mustache, a call without parentheses. -/
def evalMustache (m : Mustache) : CallM Value :=
  match m.path with
  | .path path => h.evalCall ρ { path, params := m.params, hash := m.hash }
  | other => h.eval ρ other

/-! ### Statements -/

/-- The keyword of a block call. -/
def keyword (path : Expr) : String := (path.path?.map Path.text).getD ""

/-- The value that a condition goes by, that of its first argument. -/
def condition (params : List Expr) : CallM Value :=
  match params with
  | [] => return .undefined
  | first :: _ => h.eval ρ first

mutual
/-- What a statement renders as. -/
def renderStatement (ρ : Env) : Statement → CallM String
  | .mustache m => h.mustache m ρ
  | .block b => renderCall ρ b
  | .element e => renderElement ρ e
  | .text t => return t.chars
  | .mustacheComment _ => return ""
  | .comment c => return h.comment c
/-- What a block call renders as. -/
def renderCall (ρ : Env) : BlockStatement → CallM String
  | ⟨path, params, hash, program, inverse, loc, origin⟩ =>
    if keyword path = Names.ifKeyword then do
      let c ← h.condition ρ params
      if c.isTruthy then renderBlock (fun _ => ρ) program else renderInverse (fun _ => ρ) inverse
    else if keyword path = Names.letKeyword then do
      let values ← h.evalAll ρ params
      renderBlock (fun names => ρ.bind names values) program
    else
      h.block ⟨path, params, hash, program, inverse, loc, origin⟩ ρ
        (fun values => renderBlock (fun names => ρ.bind names values) program)
        (fun values => renderInverse (fun names => ρ.bind names values) inverse)
/-- What a block renders as, in the environment that its params make. -/
def renderBlock (inside : List String → Env) : Block → CallM String
  | ⟨body, blockParams, _, _, _⟩ => render (inside blockParams) body
/-- What an inverse renders as; a missing one renders as nothing. -/
def renderInverse (inside : List String → Env) : Option Block → CallM String
  | none => return ""
  | some b => renderBlock inside b
/-- What an element renders as. -/
def renderElement (ρ : Env) : Element → CallM String
  | ⟨tag, selfClosing, attributes, modifiers, children, comments, blockParams, loc, origin⟩ =>
    h.element
      ⟨tag, selfClosing, attributes, modifiers, children, comments, blockParams, loc, origin⟩ ρ
      fun values => render (ρ.bind blockParams values) children
/-- What a body renders as: its statements one after the other. -/
def render (ρ : Env) : List Statement → CallM String
  | [] => return ""
  | s :: ss => return (← renderStatement ρ s) ++ (← render ρ ss)
end

variable {h ρ}

/-! ### Equations -/

theorem renderBlock_eq (inside : List String → Env) (b : Block) :
    h.renderBlock inside b = h.render (inside b.blockParams) b.body := by
  obtain ⟨_, _, _, _, _⟩ := b
  rfl

theorem evalAll_paths (ps : List Path) :
    h.evalAll ρ (ps.map Expr.path) = pure (ps.map (h.lookup ρ)) := by
  induction ps with
  | nil => rfl
  | cons p ps ih => simp [evalAll, eval, ih]

/-- A body of one block call. -/
theorem render_singleton (b : BlockStatement) : h.render ρ [.block b] = h.renderCall ρ b := by
  simp [render, renderStatement, String.append_empty]

/-- **A condition** renders its program if its first argument is truthy, and else its inverse. -/
theorem renderCall_if {b : BlockStatement} (hb : keyword b.path = Names.ifKeyword) :
    h.renderCall ρ b = (do
      let c ← h.condition ρ b.params
      if c.isTruthy then h.render ρ b.program.body
      else h.renderInverse (fun _ => ρ) b.inverse) := by
  obtain ⟨path, params, hash, program, inverse, loc, origin⟩ := b
  rw [renderCall, if_pos hb]
  simp only [renderBlock_eq]

/-- **A binding** renders its program with its block params bound to its arguments. -/
theorem renderCall_let {b : BlockStatement} (hb : keyword b.path = Names.letKeyword) :
    h.renderCall ρ b = (do
      let values ← h.evalAll ρ b.params
      h.render (ρ.bind b.program.blockParams values) b.program.body) := by
  obtain ⟨path, params, hash, program, inverse, loc, origin⟩ := b
  have hne : ¬ keyword path = Names.ifKeyword := by
    rw [show keyword path = Names.letKeyword from hb]
    decide
  rw [renderCall, if_neg hne, if_pos hb]
  simp only [renderBlock_eq]

end Host

end TemplateBlocks
