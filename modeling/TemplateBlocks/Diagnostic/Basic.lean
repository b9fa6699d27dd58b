import TemplateBlocks.Tree.Expr

/-!
# Diagnostics

What is reported when a template cannot be desugared: a *misuse*, which its author has to mend, or
a *defect* of the desugaring itself. Each carries a code, a message, a hint, and either the place
in the source or the address to report to.

* `Diagnostic.hintOf`: the hint that belongs to a code;
* `Diagnostic.withContext`: fills in what only the caller knows;
* `Diagnostic.display`: the text for a human reader.
-/

namespace TemplateBlocks

/-- Where defects are reported unless the caller says otherwise. -/
def defaultReportUrl : String := "http://github.com/ember-polyfills/ember-named-blocks-polyfill"

/-- The place that a misuse is reported at. -/
structure Location where
  file : Option String
  line : UInt32
  column : UInt32
  deriving DecidableEq

/-- The place where a span starts; a synthetic span has none. -/
def Span.location? (s : Span) : Option Location :=
  if s.isSynthetic then none
  else some { file := s.source, line := s.start.line, column := s.start.column }

/-- A report on a template that cannot be desugared. -/
inductive Diagnostic where
  | misuse (code message hint : String) (location : Option Location)
  | defect (code message hint reportUrl : String)
  deriving DecidableEq

namespace Diagnostic

/-- The hint that belongs to a code. -/
def hintOf : (code : String) → String
  | "NB-ERR-TEMPLATE-PARAMS" => "A template root binds no block params."
  | "NB-ERR-SELF-CLOSING" => "Self-closing tags carry neither children nor block params."
  | "NB-ERR-UNEXPECTED-NAMED-BLOCK" =>
    "Named blocks may only appear directly inside a component invocation."
  | "NB-ERR-ELEMENT-PARAMS" => "Only component invocations can declare block params."
  | "NB-ERR-INVOCATION-PARAMS" =>
    "Declare block params on each named block instead of on the invocation."
  | "NB-ERR-METADATA-ARGUMENT" =>
    "`@namedBlocksInfo` is set by the polyfill; rename the argument."
  | "NB-ERR-BLOCK-NAME" => "Block names start with a lower-case letter and contain no `.`."
  | "NB-ERR-NAMED-BLOCK-SELF-CLOSING" => "Write `<:name></:name>` instead of `<:name />`."
  | "NB-ERR-NAMED-BLOCK-ATTRIBUTES" => "Move attributes and arguments onto the invocation."
  | "NB-ERR-NAMED-BLOCK-MODIFIERS" => "Move modifiers onto the invocation."
  | "NB-ERR-MIXED-CONTENT" =>
    "Wrap loose content in a `<:default>` block when passing named blocks."
  | "NB-ERR-DUPLICATE-BLOCK" => "Each named block may be passed once per invocation."
  | "NB-ERR-UNSUPPORTED-BLOCK" => "`<:else>` and `<:inverse>` are not supported."
  | "NB-ERR-SIMPLE-PATH" => "The helper is shadowed or called through a qualified path."
  | "NB-ERR-INVALID-PATH" => "The path's original text disagrees with its parts."
  | "NB-ERR-YIELD-ARGS" =>
    "`\x7b\x7byield\x7d\x7d` accepts only `to=\"<literal block name>\"`."
  | "NB-ERR-HAS-BLOCK-ARGS" => "Block queries accept at most one string literal."
  | "NB-BUG-SCOPE-UNDERFLOW" | "NB-BUG-SCOPE-MISMATCH" | "NB-BUG-NOT-ROOT" =>
    "Scope push/pop must pair with enter/exit."
  | "NB-BUG-DISPATCH-CHAIN" =>
    "Dispatch branches are single-branch `\x7b\x7b#if\x7d\x7d` blocks."
  | "NB-BUG-REWRITE-DIVERGED" => "A rewrite hook kept producing new nodes."
  | "NB-BUG-PAYLOAD" => "The host handed over a tree this crate cannot read."
  | _ => "Unknown diagnostic."

/-- A misuse with the hint of its code, reported where a span starts. -/
def misuseAt (code message : String) (span : Span) : Diagnostic :=
  .misuse code message (hintOf code) span.location?

/-- A defect with the hint of its code. -/
def defectOf (code message : String) : Diagnostic :=
  .defect code message (hintOf code) defaultReportUrl

/-! ### Views -/

/-- The code, which names the rule or defect. -/
def code : Diagnostic → String
  | .misuse code _ _ _ => code
  | .defect code _ _ _ => code

/-- What is wrong. -/
def message : Diagnostic → String
  | .misuse _ message _ _ => message
  | .defect _ message _ _ => message

/-- What to do about it. -/
def hint : Diagnostic → String
  | .misuse _ _ hint _ => hint
  | .defect _ _ hint _ => hint

/-- Whether desugaring itself is to blame. -/
def isDefect : Diagnostic → Bool
  | .misuse .. => false
  | .defect .. => true

/-- The place in the source, where there is one. -/
def location? : Diagnostic → Option Location
  | .misuse _ _ _ location => location
  | .defect .. => none

/-! ### Context -/

/-- Fills in what only the caller knows: a located misuse without a file is reported in the
caller's module, and a defect is reported to the caller's address. -/
def withContext (d : Diagnostic) (moduleName : Option String) (reportUrl : String) : Diagnostic :=
  match d with
  | .misuse code message hint (some loc) =>
    .misuse code message hint (some { loc with file := loc.file <|> moduleName })
  | .misuse code message hint none => .misuse code message hint none
  | .defect code message hint _ => .defect code message hint reportUrl

/-! ### Text -/

/-- The place, as it follows a message. -/
def placeText : Option Location → String
  | none => ""
  | some ⟨some file, line, column⟩ =>
    " (at " ++ file ++ " on line " ++ toString line.toNat ++ " column " ++ toString column.toNat ++
      ")"
  | some ⟨none, line, column⟩ =>
    " (on line " ++ toString line.toNat ++ " column " ++ toString column.toNat ++ ")"

/-- The text for a human reader. -/
def display : Diagnostic → String
  | .misuse _ message _ location => "Syntax Error: " ++ message ++ placeText location
  | .defect _ message _ reportUrl =>
    "[BUG] " ++ message ++ "\nThis is likely a bug in the named-blocks polyfill. " ++
      "Please file a bug at " ++ reportUrl

end Diagnostic

end TemplateBlocks
