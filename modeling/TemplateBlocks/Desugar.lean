import TemplateBlocks.Invocation.FanOut
import TemplateBlocks.Query
import TemplateBlocks.Traversal.Weight
import TemplateBlocks.Yield

/-!
# Desugaring

One traversal that brings every invocation, yield and block query of a template into its plain
form. On entering an element, a mustache or a call, its plain form takes its place and is entered
again, until it stays the same; then its parts are visited. Block params are in scope in the bodies
that they are bound for. Synthetic nodes are walked into but never changed.

* `settle`: entering a node until it stays the same;
* `Desugar.hooks`: the traversal;
* `Template.desugar`: the plain form of a template.
-/

namespace TemplateBlocks

variable {σ : Type}

/-! ### Entering nodes -/

/-- The checks on a template's root: it stands in no scope and binds no params. -/
def Template.checkRoot (t : Template) (scope : Scope) : Except Diagnostic Unit := do
  maintain scope.isRoot .notRoot
  obey t.blockParams.isEmpty (.templateBlockParams t.blockParams) t.loc

/-- The plain form of an invocation with named blocks, or nothing for an element without any. -/
def Element.enter (e : Element) (scope : Scope) (b : Builders σ) : BuildM σ (Option Element) := do
  if e.selfClosing then
    obey e.blockParams.isEmpty (.selfClosingBlockParams e.tag) e.loc
    obey e.children.isEmpty (.selfClosingChildren e.tag) e.loc
    return none
  let declares ← e.isDeclaration
  obey (!declares) (.unexpectedNamedBlock e.tag) e.loc
  let blocks ← e.namedBlocks
  if e.isComponent scope false then
    if blocks.isEmpty then return none
    return some (← e.fanOut b blocks)
  obey e.blockParams.isEmpty (.elementBlockParams e.tag) e.loc
  match blocks with
  | [] => return none
  | first :: _ => throw ((Misuse.namedBlockInElement first.tag e.tag).report first.loc)

/-- The plain form of a yield or a query, or nothing for any other mustache. -/
def Mustache.enter (m : Mustache) (scope : Scope) (b : Builders σ) :
    BuildM σ (Option Mustache) := do
  match m.path with
  | .path p =>
    if p.text = Names.yieldKeyword then m.desugarYield scope b
    else
      match BlockQuery.ofPath? p.text with
      | some query => return some (← m.desugarQuery query scope b)
      | none => return none
  | _ => return none

/-- The plain form of a query, or nothing for any other call. -/
def SubExpr.enter (s : SubExpr) (scope : Scope) (b : Builders σ) : BuildM σ (Option SubExpr) := do
  match BlockQuery.ofPath? s.path.text with
  | some query => return some (← s.desugarQuery query scope b)
  | none => return none

/-! ### Settling -/

/-- How often a node may be replaced. -/
def roundLimit : Nat := 16

/-- Enters a node until it stays the same, at most `rounds` times. Nodes are compared as trees, and
their numbers by the bits: a NaN is the same as itself, and zero is not the same as its negative. To
compare numbers by value would make a difference only with builders that give back a node with a NaN
in it, or change the sign of a zero and nothing else. -/
def settle {α : Type} [DecidableEq α] (kind : String) (enter : α → BuildM σ (Option α)) :
    (rounds : Nat) → α → BuildM σ α
  | 0, _ => throw (Defect.diverged kind roundLimit).report
  | rounds + 1, node => do
    match ← enter node with
    | none => return node
    | some next => if next = node then return node else settle kind enter rounds next

/-! ### The traversal -/

namespace Desugar

/-- What desugaring keeps: the scope of the node that is visited, and the builders' state. -/
structure State (σ : Type) where
  scope : Scope
  supply : σ

/-- Makes nodes in the scope of the node that is visited. -/
def build {α : Type} (act : Scope → BuildM σ α) : VisitM (State σ) α := do
  let s ← get
  let (result, supply) := (act s.scope).run s.supply
  set { s with supply }
  VisitM.ofExcept result

/-- A check in the scope of the node that is visited. -/
def check {α : Type} (act : Scope → Except Diagnostic α) : VisitM (State σ) α := do
  VisitM.ofExcept (act (← get).scope)

/-- Goes into a body that binds the params of a frame. -/
def within {α : Type} (frame : Frame) (act : VisitM (State σ) α) : VisitM (State σ) α := do
  modify fun s => { s with scope := s.scope.push frame }
  let a ← act
  let s ← get
  let (popped, scope) := s.scope.popExpecting frame
  set { s with scope }
  let _ ← VisitM.ofExcept popped
  return a

/-- What becomes of a template. -/
def visitTemplate (v : Visitor (State σ)) (t : Template) : VisitM (State σ) Template := do
  check t.checkRoot
  let t ← walk v .template t
  check t.checkRoot
  return t

/-- What becomes of a block. -/
def visitBlock (v : Visitor (State σ)) (blk : Block) : VisitM (State σ) Block :=
  match blk.origin with
  | .synthetic => walk v .block blk
  | .source => within (.ofBlock blk) (walk v .block blk)

/-- What becomes of an element. -/
def visitElement (b : Builders σ) (v : Visitor (State σ)) (e : Element) :
    VisitM (State σ) Element :=
  match e.origin with
  | .synthetic => walk v .element e
  | .source => do
    let e ← build fun scope => settle "ElementNode" (fun e => e.enter scope b) roundLimit e
    let scope := (← get).scope
    if e.selfClosing || !e.isComponent scope false then walk v .element e
    else within (.ofComponent e) (walk v .element e)

/-- What becomes of a mustache. -/
def visitMustache (b : Builders σ) (v : Visitor (State σ)) (m : Mustache) :
    VisitM (State σ) Mustache :=
  match m.origin with
  | .synthetic => walk v .mustache m
  | .source => do
    let m ← build fun scope => settle "MustacheStatement" (fun m => m.enter scope b) roundLimit m
    walk v .mustache m

/-- What becomes of a call. -/
def visitSubExpr (b : Builders σ) (v : Visitor (State σ)) (s : SubExpr) :
    VisitM (State σ) SubExpr :=
  match s.origin with
  | .synthetic => walk v .subExpression s
  | .source => do
    let s ← build fun scope => settle "SubExpression" (fun s => s.enter scope b) roundLimit s
    walk v .subExpression s

/-- The traversal that desugars. -/
def hooks (b : Builders σ) : Hooks (State σ) := fun v k =>
  match k with
  | .template => visitTemplate v
  | .block => visitBlock v
  | .element => visitElement b v
  | .mustache => visitMustache b v
  | .subExpression => visitSubExpr b v
  | .statements => walk v .statements
  | .statement => walk v .statement
  | .blockStatement => walk v .blockStatement
  | .attribute => walk v .attribute
  | .modifier => walk v .modifier
  | .expression => walk v .expression
  | .hash => walk v .hash

end Desugar

/-! ### Templates -/

/-- The plain form of a template, and the builders' state after making it. The traversal goes as
many levels deep as the template weighs. That is enough for the standard builders, whatever the
template; builders that make heavier nodes may run out of levels (`Halt.exhausted`) where the
traversal would have come to an end. -/
def Template.desugarWith (t : Template) (b : Builders σ) (supply : σ) :
    Except Halt Template × σ :=
  let (result, s) := ((Desugar.hooks b).run t).run ⟨.root, supply⟩
  (result, s.supply)

/-- The plain form of a template. -/
def Template.desugar (t : Template) : Except Halt Template :=
  (t.desugarWith .standard ()).1

/-! ### Two templates and their plain forms -/

/-- A yield to the default block loses its target. -/
example :
    let path := Expr.path (.ofText "yield" {})
    let hash : Hash := { pairs := [{ key := "to", value := .string { value := "default" } }] }
    let sugared : Template := { body := [.mustache { path, hash }] }
    let plain : Template := { body := [.mustache { path }] }
    sugared.desugar.toOption = some plain := by decide +kernel

/-- An invocation that passes only the default block takes over its children and params. -/
example :
    let children := [Statement.text { chars := "Hello" }]
    let block : Element := { tag := ":default", children, blockParams := ["item"] }
    let sugared : Template := { body := [.element { tag := "Card", children := [.element block] }] }
    let plain : Template :=
      { body := [.element { tag := "Card", children, blockParams := ["item"] }] }
    sugared.desugar.toOption = some plain := by decide +kernel

end TemplateBlocks
