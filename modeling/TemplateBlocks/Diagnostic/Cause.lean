import TemplateBlocks.Diagnostic.Basic

/-!
# Causes

The rules that a template can break and the ways in which desugaring itself can go wrong, each
with its code and its wording. `Misuse.report` and `Defect.report` make diagnostics of them.
-/

namespace TemplateBlocks

/-! ### Misuses -/

/-- A rule that a template breaks. -/
inductive Misuse where
  | templateBlockParams (params : List String)
  | selfClosingBlockParams (tag : String)
  | selfClosingChildren (tag : String)
  | unexpectedNamedBlock (tag : String)
  | namedBlockInElement (block tag : String)
  | elementBlockParams (tag : String)
  | invocationBlockParams (tag : String)
  | reservedArgument (argument tag : String)
  | blockName (tag name : String)
  | selfClosingNamedBlock (tag : String)
  | namedBlockAttributes (tag : String)
  | namedBlockModifiers (tag : String)
  | mixedContent (tag : String)
  | duplicateBlock (name : String)
  | elseWithInverse
  | unsupportedBlock (tag : String)
  | notSimplePath (call : String)
  | invalidPath (text head : String)
  | yieldArgument (key : String)
  | yieldTarget
  | yieldToInverse
  | queryNamedArgument (key call : String)
  | queryArgument (call : String)
  | queryArguments (call : String)
  deriving DecidableEq

namespace Misuse

/-- Where support for `<:else>` and `<:inverse>` is discussed. -/
def elseBlockIssue : String :=
  "http://github.com/ember-polyfills/ember-named-blocks-polyfill/issues/1"

/-- The code of a broken rule; several rules may share one. -/
def code : Misuse → String
  | .templateBlockParams _ => "NB-ERR-TEMPLATE-PARAMS"
  | .selfClosingBlockParams _ | .selfClosingChildren _ => "NB-ERR-SELF-CLOSING"
  | .unexpectedNamedBlock _ | .namedBlockInElement _ _ => "NB-ERR-UNEXPECTED-NAMED-BLOCK"
  | .elementBlockParams _ => "NB-ERR-ELEMENT-PARAMS"
  | .invocationBlockParams _ => "NB-ERR-INVOCATION-PARAMS"
  | .reservedArgument _ _ => "NB-ERR-METADATA-ARGUMENT"
  | .blockName _ _ => "NB-ERR-BLOCK-NAME"
  | .selfClosingNamedBlock _ => "NB-ERR-NAMED-BLOCK-SELF-CLOSING"
  | .namedBlockAttributes _ => "NB-ERR-NAMED-BLOCK-ATTRIBUTES"
  | .namedBlockModifiers _ => "NB-ERR-NAMED-BLOCK-MODIFIERS"
  | .mixedContent _ => "NB-ERR-MIXED-CONTENT"
  | .duplicateBlock _ => "NB-ERR-DUPLICATE-BLOCK"
  | .elseWithInverse | .unsupportedBlock _ => "NB-ERR-UNSUPPORTED-BLOCK"
  | .notSimplePath _ => "NB-ERR-SIMPLE-PATH"
  | .invalidPath _ _ => "NB-ERR-INVALID-PATH"
  | .yieldArgument _ | .yieldTarget | .yieldToInverse => "NB-ERR-YIELD-ARGS"
  | .queryNamedArgument _ _ | .queryArgument _ | .queryArguments _ => "NB-ERR-HAS-BLOCK-ARGS"

/-- The wording of a broken rule. -/
def message : Misuse → String
  | .templateBlockParams params =>
    "Template cannot have block params, found " ++ ",".intercalate params
  | .selfClosingBlockParams tag => s!"Self closing tag <{tag} /> cannot have block params"
  | .selfClosingChildren tag => s!"Self closing tag <{tag} /> cannot have children"
  | .unexpectedNamedBlock tag => s!"Unexpected named block <{tag}>"
  | .namedBlockInElement block tag =>
    s!"Unexpected named block <{block}> inside <{tag}> HTML element"
  | .elementBlockParams tag => s!"Unexpected block params on <{tag}> HTML element"
  | .invocationBlockParams tag =>
    s!"Unexpected block params list on <{tag}> component invocation: when passing named blocks, " ++
      "the invocation tag cannot take block params"
  | .reservedArgument argument tag =>
    s!"Unexpected {argument} argument on <{tag}> component invocation: the argument is reserved " ++
      "when passing named blocks"
  | .blockName tag name =>
    s!"<{tag}> is not a valid named block: `{name}` is not a valid block name"
  | .selfClosingNamedBlock tag =>
    s!"<{tag} /> is not a valid named block: named blocks cannot be self-closing"
  | .namedBlockAttributes tag => s!"Named block <{tag}> cannot have attributes or arguments"
  | .namedBlockModifiers tag => s!"Named block <{tag}> cannot have modifiers"
  | .mixedContent tag =>
    s!"Unexpected content inside <{tag}> component invocation: when using named blocks, " ++
      "the tag cannot contain other content"
  | .duplicateBlock name => s!"Cannot pass named block <:{name}> twice in the same invocation"
  | .elseWithInverse =>
    "Cannot pass named blocks <:else> and <:inverse> in the same invocation"
  | .unsupportedBlock tag =>
    s!"Cannot pass named block <{tag}>, this is not currently supported by the named-blocks " ++
      "polyfill, see: " ++ elseBlockIssue
  | .notSimplePath call => s!"Invalid {call} invocation: expecting a simple path"
  | .invalidPath text head => s!"Invalid path: expecting `{text}`, got `{head}`"
  | .yieldArgument key => s!"Cannot pass {key} named argument to \x7b\x7byield\x7d\x7d"
  | .yieldTarget =>
    "\x7b\x7byield\x7d\x7d can only accept a string literal for the `to` argument"
  | .yieldToInverse => "Cannot yield params to inverse block"
  | .queryNamedArgument key call => s!"Cannot pass {key} named argument to {call}"
  | .queryArgument call => s!"{call} can only accept a string literal argument"
  | .queryArguments call => s!"{call} only takes a single argument"

/-- The diagnostic of a broken rule, reported where a span starts. -/
def report (m : Misuse) (span : Span) : Diagnostic := .misuseAt m.code m.message span

end Misuse

/-- Succeeds if the rule is kept, and reports it at the span otherwise. -/
def obey (kept : Bool) (m : Misuse) (span : Span) : Except Diagnostic Unit :=
  if kept then .ok () else .error (m.report span)

/-! ### Defects -/

/-- A way in which desugaring itself goes wrong. -/
inductive Defect where
  | notRoot
  | scopeUnderflow
  | scopeMismatch (expected actual : String)
  | chainBranch (found : String)
  | chainInverse
  | chainEmpty
  | diverged (kind : String) (rounds : Nat)
  /-- A document that is no template, with the reader's words where they are known. -/
  | payload (words : Option String)
  deriving DecidableEq

namespace Defect

/-- The code of a defect. -/
def code : Defect → String
  | .notRoot => "NB-BUG-NOT-ROOT"
  | .scopeUnderflow => "NB-BUG-SCOPE-UNDERFLOW"
  | .scopeMismatch _ _ => "NB-BUG-SCOPE-MISMATCH"
  | .chainBranch _ | .chainInverse | .chainEmpty => "NB-BUG-DISPATCH-CHAIN"
  | .diverged _ _ => "NB-BUG-REWRITE-DIVERGED"
  | .payload _ => "NB-BUG-PAYLOAD"

/-- The wording of a defect. -/
def message : Defect → String
  | .notRoot => "Invalid nesting: not in root scope"
  | .scopeUnderflow => "Cannot pop root scope"
  | .scopeMismatch expected actual => s!"Invalid nesting: expecting {expected} got {actual}"
  | .chainBranch found =>
    s!"Expecting \x7b\x7b#if\x7d\x7d, got \x7b\x7b#{found}\x7d\x7d"
  | .chainInverse => "Parent block already has an inverse block"
  | .chainEmpty => "Cannot chain zero blocks"
  | .diverged kind rounds =>
    kind ++ " was still being rewritten after " ++ toString rounds ++ " passes"
  | .payload words =>
    "Template payload parse error:" ++ (words.map fun said => " " ++ said).getD ""

/-- The diagnostic of a defect. -/
def report (d : Defect) : Diagnostic := .defectOf d.code d.message

end Defect

/-- Succeeds if the invariant holds, and reports the defect otherwise. -/
def maintain (holds : Bool) (d : Defect) : Except Diagnostic Unit :=
  if holds then .ok () else .error d.report

end TemplateBlocks
