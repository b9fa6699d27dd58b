import TemplateBlocks.Invocation.Dispatch

/-!
# Fan-out

An invocation that passes named blocks becomes one that passes a single block: it binds as many
slots as its blocks need, dispatches on the marker in slot 0, and carries the metadata of its
blocks. An invocation that passes only `<:default>` becomes the plain form, which has the block's
children as its own.
-/

namespace TemplateBlocks

variable {σ : Type}

namespace Element

/-- The invocation with the children and params of its only block in place of its own. -/
def unwrapDefault (e : Element) (b : Builders σ) (only : Element) : StateM σ Element :=
  b.element e.tag {
    attributes := e.attributes
    modifiers := e.modifiers
    children := only.children
    comments := e.comments
    blockParams := only.blockParams
    loc := e.loc }

/-- The invocation that dispatches to its blocks. -/
def dispatchTo (e : Element) (b : Builders σ) (blocks : List Element) : BuildM σ Element := do
  let branches ← blocks.mapM fun block => dispatchBranch b block
  let chain ← chainBranches b branches
  let info ← (Metadata.ofBlocks blocks).toAttribute b
  b.element e.tag {
    attributes := e.attributes ++ [info]
    modifiers := e.modifiers
    children := [.block chain]
    comments := e.comments
    blockParams := (List.range (slotCount blocks)).map Names.slot
    loc := e.loc }

/-- The plain form of an invocation that passes `blocks`. The invocation can neither bind params
itself nor use the argument that carries the metadata. -/
def fanOut (e : Element) (b : Builders σ) (blocks : List Element) : BuildM σ Element := do
  obey e.blockParams.isEmpty (.invocationBlockParams e.tag) e.loc
  obey (!e.attributes.any fun a => a.name == Names.metadataArgument)
    (.reservedArgument Names.metadataArgument e.tag) e.loc
  match blocks with
  | [only] =>
    if only.blockName? = some Names.defaultBlock then e.unwrapDefault b only
    else e.dispatchTo b blocks
  | _ => e.dispatchTo b blocks

end Element

end TemplateBlocks
