import TemplateBlocks.Diagnostic.Basic
import TemplateBlocks.Tree.Statement

/-!
# Traversal

One way of going through a template, for every purpose. A *visitor* says what becomes of a node of
each kind; `walk` goes on from a node into its parts, in source order:

* attributes, modifiers, then children of an element;
* path, params, named arguments, then program and inverse of a call.

*Hooks* are a visitor that is given the visitor to go on with, so that it may act on a node before
or after, or instead of, walking into it. `Hooks.visit` ties the knot; since hooks may replace a
node by a larger one, how deep they go is bounded by a number of levels. A failure ends the
traversal, and the state that the hooks keep outlives it.
-/

namespace TemplateBlocks

/-! ### Kinds of nodes -/

/-- The kinds of nodes that a visitor is called on. -/
inductive Kind where
  | template
  | block
  | statements
  | statement
  | element
  | mustache
  | blockStatement
  | attribute
  | modifier
  | expression
  | subExpression
  | hash
  deriving DecidableEq

/-- The nodes of a kind. -/
abbrev Kind.Node : Kind → Type
  | .template => Template
  | .block => Block
  | .statements => List Statement
  | .statement => Statement
  | .element => Element
  | .mustache => Mustache
  | .blockStatement => BlockStatement
  | .attribute => Attribute
  | .modifier => Modifier
  | .expression => Expr
  | .subExpression => SubExpr
  | .hash => Hash

/-! ### Visitors -/

/-- Why a traversal ended early. -/
inductive Halt where
  /-- The template is refused. -/
  | refused (d : Diagnostic)
  /-- The levels did not suffice. -/
  | exhausted
  deriving DecidableEq

/-- A traversal over a state `σ`. -/
abbrev VisitM (σ : Type) := ExceptT Halt (StateM σ)

/-- What becomes of the nodes of each kind, as actions of a monad. -/
abbrev VisitorOver (m : Type → Type) := (k : Kind) → k.Node → m k.Node

/-- What becomes of the nodes of each kind, over a state `σ`. -/
abbrev Visitor (σ : Type) := VisitorOver (VisitM σ)

/-- A visitor that is given the visitor to go on with. -/
abbrev Hooks (σ : Type) := Visitor σ → Visitor σ

variable {σ : Type}

/-- Refuses the template. -/
def VisitM.refuse {α : Type} (d : Diagnostic) : VisitM σ α := throw (.refused d)

/-- A check that refuses the template where it fails. -/
def VisitM.ofExcept {α : Type} : Except Diagnostic α → VisitM σ α
  | .ok a => pure a
  | .error d => VisitM.refuse d

/-! ### Walking -/

section Walk

variable {m : Type → Type} [Monad m]

/-- A piece of a composed value with its mustache visited; texts have none. -/
def walkPart (v : VisitorOver m) : ConcatPart → m ConcatPart
  | .text t => return .text t
  | .mustache m => return .mustache (← v .mustache m)

/-- The visited value of an attribute. -/
def walkValue (v : VisitorOver m) : AttrValue → m AttrValue
  | .text t => return .text t
  | .mustache m => return .mustache (← v .mustache m)
  | .concat c => do
    let parts ← c.parts.mapM (walkPart v)
    return .concat { c with parts }

/-- A statement with its node visited; texts and comments have none. -/
def walkStatement (v : VisitorOver m) : Statement → m Statement
  | .mustache m => return .mustache (← v .mustache m)
  | .block b => return .block (← v .blockStatement b)
  | .element e => return .element (← v .element e)
  | .text t => return .text t
  | .mustacheComment c => return .mustacheComment c
  | .comment c => return .comment c

/-- An expression with its call visited; paths and literals have none. -/
def walkExpr (v : VisitorOver m) : Expr → m Expr
  | .sub s => return .sub (← v .subExpression s)
  | .path p => return .path p
  | .string l => return .string l
  | .number l => return .number l
  | .boolean l => return .boolean l

/-- A named argument with its value visited. -/
def walkPair (v : VisitorOver m) (p : HashPair) : m HashPair := do
  let value ← v .expression p.value
  return { p with value }

/-- A node with its parts visited, in source order. -/
def walk (v : VisitorOver m) : VisitorOver m
  | .template, t => do
    let body ← v .statements t.body
    return { t with body }
  | .block, b => do
    let body ← v .statements b.body
    return { b with body }
  | .statements, ss => ss.mapM (v .statement)
  | .statement, s => walkStatement v s
  | .element, e => do
    let attributes ← e.attributes.mapM (v .attribute)
    let modifiers ← e.modifiers.mapM (v .modifier)
    let children ← v .statements e.children
    return { e with attributes, modifiers, children }
  | .mustache, m => do
    let path ← v .expression m.path
    let params ← m.params.mapM (v .expression)
    let hash ← v .hash m.hash
    return { m with path, params, hash }
  | .blockStatement, b => do
    let path ← v .expression b.path
    let params ← b.params.mapM (v .expression)
    let hash ← v .hash b.hash
    let program ← v .block b.program
    let inverse ← b.inverse.mapM (v .block)
    return { b with path, params, hash, program, inverse }
  | .attribute, a => do
    let value ← walkValue v a.value
    return { a with value }
  | .modifier, m => do
    let params ← m.params.mapM (v .expression)
    let hash ← v .hash m.hash
    return { m with params, hash }
  | .expression, e => walkExpr v e
  | .subExpression, s => do
    let params ← s.params.mapM (v .expression)
    let hash ← v .hash s.hash
    return { s with params, hash }
  | .hash, h => do
    let pairs ← h.pairs.mapM (walkPair v)
    return { h with pairs }

end Walk

/-- The visitor that hooks make, going at most so many levels deep. -/
def Hooks.visit (hooks : Hooks σ) : (levels : Nat) → Visitor σ
  | 0, _, _ => throw .exhausted
  | levels + 1, k, x => hooks (fun k x => hooks.visit levels k x) k x

end TemplateBlocks
