import TemplateBlocks.Builders
import TemplateBlocks.Declaration
import TemplateBlocks.Names

/-!
# Invocation metadata

An invocation that passes named blocks tells the component which blocks it passes and how many
params each of them binds, in the argument `@namedBlocksInfo`:

    <Card @namedBlocksInfo={{hash default=1 footer=0}} as |__arg0|>

* `Metadata.ofBlocks`: the metadata of a list of blocks;
* `Metadata.ofInvocation?`: the metadata that an invocation carries;
* `Metadata.toAttribute`: the argument that carries it.
-/

namespace TemplateBlocks

variable {σ : Type}

/-- The number of params that each block binds, by block name, in order of declaration. -/
structure Metadata where
  arities : List (String × Nat)
  deriving DecidableEq

namespace Metadata

/-- The metadata of the blocks of an invocation. -/
def ofBlocks (blocks : List Element) : Metadata :=
  ⟨Entries.ofList (blocks.map fun b => (b.blockName, b.blockParams.length))⟩

/-- The counts in a list of named arguments, provided that all of them are numbers. -/
def aritiesOf? (pairs : List HashPair) : Option (List (String × Nat)) :=
  pairs.mapM fun p =>
    match p.value with
    | .number l => some (p.key, l.value.toNat)
    | _ => none

/-- The metadata that an invocation carries. -/
def ofInvocation? (e : Element) : Option Metadata := do
  let a ← e.attributes.find? fun a => a.name == Names.metadataArgument
  match a.value with
  | .mustache m => return ⟨Entries.ofList (← aritiesOf? m.hash.pairs)⟩
  | _ => none

/-- The argument that carries the metadata. -/
def toAttribute (m : Metadata) (b : Builders σ) : StateM σ Attribute := do
  let pairs ← m.arities.mapM fun (name, arity) => do
    b.pair name (← b.number (.ofNat arity))
  let path ← b.path Names.hashHelper .synthetic
  let hash ← b.hash pairs .synthetic
  let value ← b.mustache (.path path) [] (some hash) false .synthetic
  b.attr Names.metadataArgument (.mustache value) .synthetic

end Metadata

/-! ### Slots -/

/-- The slot of a block's first param: slot 0 carries the marker, which only the default block is
invoked without. -/
def slotOffset (name : String) : Nat := if name = Names.defaultBlock then 0 else 1

/-- How many slots an invocation has to bind for its blocks. -/
def slotCount (blocks : List Element) : Nat :=
  (blocks.map fun b => b.blockParams.length + slotOffset b.blockName).foldr max 0

end TemplateBlocks
