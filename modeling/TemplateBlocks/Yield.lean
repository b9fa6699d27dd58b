import TemplateBlocks.Builders
import TemplateBlocks.Declaration

/-!
# Yielding to named blocks

    {{yield this.item to="footer"}}   ⟶   {{yield (-named-block-invocation "footer") this.item}}

A yield to the default block loses its target, a yield to `else` or `inverse` keeps the target
`inverse` and passes no params, and a yield without target stays as it is.
-/

namespace TemplateBlocks

variable {σ : Type}

namespace Mustache

/-- The only named argument of a yield, its target. -/
def yieldTarget (m : Mustache) (first : HashPair) : Except Diagnostic (Literal String) := do
  let stranger := m.hash.pairs.find? fun p => p.key != Names.targetKey
  let key := (stranger.map HashPair.key).getD Names.targetKey
  obey (m.hash.pairs.length == 1 && first.key == Names.targetKey) (.yieldArgument key) m.loc
  match first.value with
  | .string l => return l
  | other => throw (Misuse.yieldTarget.report other.loc)

/-- The params and named arguments of a yield to `target`. -/
def yieldArguments (m : Mustache) (b : Builders σ) (target : Literal String) :
    BuildM σ (List Expr × Option Hash) := do
  if target.value = Names.defaultBlock then return (m.params, none)
  if target.value = Names.elseBlock ∨ target.value = Names.inverseBlock then
    obey m.params.isEmpty .yieldToInverse m.loc
    let pair ← b.pair Names.targetKey (← b.string Names.inverseBlock)
    let hash ← b.hash [pair] m.hash.loc
    return ([], some hash)
  let helper ← b.path Names.markHelper target.loc
  let marker ← b.sub helper [.string target] none target.loc
  return (.sub marker :: m.params, none)

/-- The plain form of a yield, or nothing if it has no named argument. -/
def desugarYield (m : Mustache) (scope : Scope) (b : Builders σ) :
    BuildM σ (Option Mustache) := do
  let simple ←
    match m.path with
    | .path p => p.isSimple scope
    | _ => pure false
  obey simple (.notSimplePath "\x7b\x7byield\x7d\x7d") m.loc
  match m.hash.pairs with
  | [] => return none
  | first :: _ =>
    let target ← m.yieldTarget first
    let (params, hash) ← m.yieldArguments b target
    return some (← b.mustache m.path params hash m.trusting m.loc)

end Mustache

end TemplateBlocks
