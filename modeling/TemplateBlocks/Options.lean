import TemplateBlocks.Diagnostic.Wire
import TemplateBlocks.Text

/-!
# Options

What a caller may choose: the name of the module, for diagnostics without a file, whether to
desugar at all, and where defects are reported. If the caller does not say whether to desugar, the
environment variable `USE_NAMED_BLOCKS_POLYFILL` does.
-/

namespace TemplateBlocks

open Json

/-- The caller's choices. -/
structure Options where
  moduleName : Option String := none
  enabled : Option Bool := none
  reportUrl : String := defaultReportUrl
  deriving DecidableEq

/-- Every value of the environment variable turns desugaring on, but for a few in any case and
between any blanks; so does leaving it unset. -/
def enabledByEnvironment : (environment : Option String) → Bool
  | none => true
  | some raw =>
    !(["false", "disable", "no", "off", "0"].contains (Text.lowerAscii (Text.trim raw)))

namespace Options

/-- The same choices for another module. -/
def withModuleName (o : Options) (name : String) : Options := { o with moduleName := some name }

/-- Whether to desugar: the caller's word, or else the environment's. -/
def isEnabled (o : Options) (environment : Option String) : Bool :=
  o.enabled.getD (enabledByEnvironment environment)

/-- The document of options, all of them written. -/
def toJson (o : Options) : Json :=
  .obj [("moduleName", nullOr o.moduleName),
    ("enabled", (o.enabled.map Json.bool).getD .null), ("bugReportUrl", .str o.reportUrl)]

/-- Options from a document; those left out have their defaults. -/
def decode? (j : Json) : Option Options := do
  let fs ← fields? j
  return {
    moduleName := ← nullable? fs "moduleName" string?
    enabled := ← nullable? fs "enabled" bool?
    reportUrl := ← defaulted? fs "bugReportUrl" defaultReportUrl string? }

end Options

end TemplateBlocks
