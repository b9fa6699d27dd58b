import TemplateBlocks.Builders
import TemplateBlocks.Declaration

/-!
# Block queries

    {{has-block "footer"}}     ⟶   {{-has-block @namedBlocksInfo "footer" false}}
    (has-block-params)         ⟶   (-has-block-params @namedBlocksInfo "default" (has-block-params))

The last argument is the answer for an invocation without metadata: the plain query for the
default and the inverse block, which the invocation can pass without naming it, and `false` for
any other.
-/

namespace TemplateBlocks

variable {σ : Type}

/-- A question about the blocks passed to a component. -/
inductive BlockQuery where
  | hasBlock
  | hasBlockParams
  deriving DecidableEq

namespace BlockQuery

/-- The query that a path asks. -/
def ofPath? : (text : String) → Option BlockQuery
  | "has-block" | "hasBlock" => some .hasBlock
  | "has-block-params" | "hasBlockParams" => some .hasBlockParams
  | _ => none

/-- The helper that answers a query from the metadata. -/
def helper : BlockQuery → String
  | .hasBlock => Names.hasBlockHelper
  | .hasBlockParams => Names.hasBlockParamsHelper

end BlockQuery

/-- The parts that the two forms of a query call share. -/
structure QueryCall where
  path : Path
  params : List Expr
  hash : Hash
  loc : Span
  /-- The call in words. -/
  display : String

namespace QueryCall

/-- The block that a query asks about: at most one argument, a string literal. -/
def block (call : QueryCall) : Except Diagnostic String := do
  let name ←
    match call.params with
    | [] => pure Names.defaultBlock
    | [.string l] => pure l.value
    | [only] => throw ((Misuse.queryArgument call.display).report only.loc)
    | _ :: second :: _ => throw ((Misuse.queryArguments call.display).report second.loc)
  return if name = Names.elseBlock then Names.inverseBlock else name

/-- The answer for an invocation without metadata. -/
def fallback (call : QueryCall) (b : Builders σ) (block : String) : StateM σ Expr := do
  if block = Names.defaultBlock then
    let query ← b.sub call.path [] none call.loc
    return .sub query.markSynthetic
  if block = Names.inverseBlock then
    let inverse ← b.string Names.inverseBlock
    let query ← b.sub call.path [inverse] none call.loc
    return .sub query.markSynthetic
  b.boolean false

/-- The block that a query asks about and the answer for an invocation without metadata. A query
has to be called by its own name, and takes no named arguments. -/
def resolve (call : QueryCall) (scope : Scope) (b : Builders σ) : BuildM σ (String × Expr) := do
  let simple ← call.path.isSimple scope
  obey simple (.notSimplePath call.display) call.loc
  match call.hash.pairs with
  | [] => pure ()
  | pair :: _ => throw ((Misuse.queryNamedArgument pair.key call.display).report call.loc)
  let block ← call.block
  return (block, ← call.fallback b block)

/-- The arguments of the helper that answers a query. -/
def helperParams (b : Builders σ) (block : String) (fallback : Expr) : StateM σ (List Expr) := do
  let info ← b.path Names.metadataArgument .synthetic
  let name ← b.string block
  return [.path info, name, fallback]

end QueryCall

/-- The plain form of a query in a mustache. -/
def Mustache.desugarQuery (m : Mustache) (query : BlockQuery) (scope : Scope) (b : Builders σ) :
    BuildM σ Mustache := do
  match m.path with
  | .path path =>
    let display := "\x7b\x7b" ++ path.text ++ "\x7d\x7d"
    let call : QueryCall := { path, params := m.params, hash := m.hash, loc := m.loc, display }
    let (block, fallback) ← call.resolve scope b
    let helper ← b.path query.helper path.loc
    let params ← QueryCall.helperParams b block fallback
    b.mustache (.path helper) params none m.trusting m.loc
  | _ => throw ((Misuse.notSimplePath "block query").report m.loc)

/-- The plain form of a query in parentheses. -/
def SubExpr.desugarQuery (s : SubExpr) (query : BlockQuery) (scope : Scope) (b : Builders σ) :
    BuildM σ SubExpr := do
  let display := "(" ++ s.path.text ++ ")"
  let call : QueryCall :=
    { path := s.path, params := s.params, hash := s.hash, loc := s.loc, display }
  let (block, fallback) ← call.resolve scope b
  let helper ← b.path query.helper s.path.loc
  let params ← QueryCall.helperParams b block fallback
  b.sub helper params none s.loc

end TemplateBlocks
