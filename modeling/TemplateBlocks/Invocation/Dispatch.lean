import TemplateBlocks.Invocation.Metadata

/-!
# Dispatch

The body of an invocation that passes named blocks: a chain of conditions on the marker in slot 0,
one branch for each block.

    {{#if (-is-named-block-invocation __arg0 "default")}}
      {{#let __arg0 as |item|}} … {{/let}}
    {{else if (-is-named-block-invocation __arg0 "footer")}}
      …
    {{/if}}
-/

namespace TemplateBlocks

variable {σ : Type}

/-- The body of a block's branch: its children, with its params bound to their slots if it has
any. -/
def dispatchBody (b : Builders σ) (block : Element) : StateM σ Block := do
  let body ← b.block block.children block.blockParams false block.loc
  if block.blockParams.isEmpty then return body
  let offset := slotOffset block.blockName
  let slots ← (List.range block.blockParams.length).mapM fun i => do
    return Expr.path (← b.path (Names.slot (i + offset)) .synthetic)
  let keyword ← b.path Names.letKeyword .synthetic
  let wrapper ← b.blockStatement (.path keyword) slots none body none block.loc
  b.block [.block wrapper] [] false block.loc

/-- The branch of one block: its body, on the condition that slot 0 holds its marker. -/
def dispatchBranch (b : Builders σ) (block : Element) : StateM σ BlockStatement := do
  let body ← dispatchBody b block
  let helper ← b.path Names.testHelper .synthetic
  let marker ← b.path (Names.slot 0) .synthetic
  let name ← b.string block.blockName
  let test ← b.sub helper [.path marker, name] none .synthetic
  let keyword ← b.path Names.ifKeyword .synthetic
  b.blockStatement (.path keyword) [.sub test] none body none block.loc

/-- A branch of a chain has to be a bare `{{#if}}` without an inverse of its own. -/
def checkBranch (branch : BlockStatement) : Except Diagnostic Unit := do
  let found :=
    match branch.path with
    | .path p => p.text
    | other => other.kindName
  let isIf := branch.path.path?.any fun p => p.text == Names.ifKeyword
  maintain isIf (.chainBranch found)
  maintain branch.inverse.isNone .chainInverse

/-- Hangs each branch into the inverse of the one before it. -/
def linkBranches (b : Builders σ) (first : BlockStatement) :
    List BlockStatement → StateM σ BlockStatement
  | [] => return first
  | next :: rest => do
    let tail ← linkBranches b next rest
    let inverse ← b.block [.block tail] [] true tail.loc
    return { first with inverse := some inverse }

/-- Makes one `{{#if}} … {{else if}} … {{/if}}` of its branches, in their order. -/
def chainBranches (b : Builders σ) (branches : List BlockStatement) :
    BuildM σ BlockStatement := do
  branches.forM fun branch => checkBranch branch
  match branches with
  | [] => throw Defect.chainEmpty.report
  | first :: rest => linkBranches b first rest

end TemplateBlocks
