import TemplateBlocks.Names
import TemplateBlocks.Scope

/-!
# Invocations and declarations

Which elements invoke components, which declare named blocks, and which named blocks the children
of an invocation declare.

* `Element.isComponent`: `<Foo>`, `<foo.bar>`, `<@foo>` and tags bound as block params;
* `Element.isDeclaration`: well-formed `<:name>` elements; a malformed one is a misuse;
* `Element.namedBlocks`: the declarations among an element's children, where the children are
  legal.
-/

namespace TemplateBlocks

/-- Block names start with a lower-case letter and contain no dot. -/
def isValidBlockName (name : String) : Bool :=
  match name.toList with
  | [] => false
  | c :: r => ('a' ≤ c && c ≤ 'z') && r.all (· != '.')

namespace Element

/-- The name in a `<:name>` tag, valid or not. -/
def blockName? (e : Element) : Option String := Text.afterLead? [':'] e.tag

/-- The name in a `<:name>` tag, or the empty text. -/
def blockName (e : Element) : String := e.blockName?.getD ""

/-- The first segment of a tag. -/
def head (e : Element) : String := (Text.segments e.tag).headD ""

/-- Whether an element invokes a component rather than stand for itself. -/
def isComponent (e : Element) (scope : Scope) (ignoreInnermost : Bool) : Bool :=
  let qualified := 1 < (Text.segments e.tag).length
  let capital :=
    match e.head.toList with
    | [] => false
    | c :: _ => c == '@' || ('A' ≤ c && c ≤ 'Z')
  qualified || capital || scope.isLocal e.head ignoreInnermost

/-- Whether an element is a `<:name>` declaration. A declaration needs a valid name and may neither
be self-closing nor have attributes or modifiers. -/
def isDeclaration (e : Element) : Except Diagnostic Bool :=
  match e.blockName? with
  | none => .ok false
  | some name => do
    obey (isValidBlockName name) (.blockName e.tag name) e.loc
    obey (!e.selfClosing) (.selfClosingNamedBlock e.tag) e.loc
    obey e.attributes.isEmpty (.namedBlockAttributes e.tag) e.loc
    obey e.modifiers.isEmpty (.namedBlockModifiers e.tag) e.loc
    return true

end Element

namespace Statement

/-- Blank texts and comments of the template may stand between declarations. -/
def isIgnorable : Statement → Bool
  | .mustacheComment _ => true
  | .text t => t.isBlank
  | _ => false

/-- The named block that a statement declares, if it declares one. -/
def declaration? : Statement → Except Diagnostic (Option Element)
  | .element e => do return if ← e.isDeclaration then some e else none
  | _ => .ok none

end Statement

namespace Element

/-- The declarations among the children of a `tag`, after those in `blocks` and the first other
content at `loose`: declarations may not stand beside other content, nor be repeated. -/
def gather (tag : String) : (blocks : List Element) → (loose : Option Span) → List Statement →
    Except Diagnostic (List Element)
  | blocks, _, [] => .ok blocks
  | blocks, loose, s :: rest =>
    if s.isIgnorable then gather tag blocks loose rest
    else
      match s.declaration? with
      | .error d => .error d
      | .ok none =>
        if blocks.isEmpty then gather tag blocks (loose <|> some s.loc) rest
        else .error ((Misuse.mixedContent tag).report s.loc)
      | .ok (some block) =>
        match loose with
        | some first => .error ((Misuse.mixedContent tag).report first)
        | none =>
          if blocks.any fun b => b.blockName == block.blockName then
            .error ((Misuse.duplicateBlock block.blockName).report block.loc)
          else gather tag (blocks ++ [block]) none rest

/-- A block with one of the names that the `else` branch of an invocation goes by. -/
def isInverse (e : Element) : Bool :=
  e.blockName? = some Names.elseBlock || e.blockName? = some Names.inverseBlock

/-- Reports the first `<:else>` or `<:inverse>` among the blocks of an invocation. -/
def refuseInverse (blocks : List Element) : Except Diagnostic Unit :=
  match blocks.find? isInverse with
  | none => .ok ()
  | some block => do
    let passes (name : String) : Bool := blocks.any fun b => b.blockName == name
    obey (!(passes Names.elseBlock && passes Names.inverseBlock)) .elseWithInverse block.loc
    .error ((Misuse.unsupportedBlock block.tag).report block.loc)

/-- The named blocks that the children of an element declare, in order. -/
def namedBlocks (e : Element) : Except Diagnostic (List Element) := do
  let blocks ← gather e.tag [] none e.children
  refuseInverse blocks
  return blocks

end Element

/-- Whether a path is one free name: neither an argument, nor behind `this`, nor of several
segments, nor bound as a block param. A path whose text disagrees with its segments is a misuse. -/
def Path.isSimple (p : Path) (scope : Scope) : Except Diagnostic Bool :=
  match p.head? with
  | none => .ok false
  | some head =>
    if p.isData || p.isThis || scope.isLocal head false || 1 < p.parts.length then .ok false
    else do
      obey (p.text == head) (.invalidPath p.text head) p.loc
      return true

example : isValidBlockName "a b\n" ∧ ¬ isValidBlockName "A" ∧ ¬ isValidBlockName "a.b" := by decide

end TemplateBlocks
