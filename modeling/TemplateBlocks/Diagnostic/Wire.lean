import TemplateBlocks.Diagnostic.Basic
import TemplateBlocks.Json.Fields

/-!
# Diagnostics as documents

The document of a diagnostic and its reading back. A reader takes the hint as it stands, an absent
one being empty, and an absent location as none.
-/

namespace TemplateBlocks

open Json

/-- A text or null. -/
def nullOr : Option String → Json
  | none => .null
  | some s => .str s

/-- The document of a place. -/
def Location.toJson (l : Location) : Json :=
  .obj [("file", nullOr l.file), ("line", .int l.line.toNat), ("column", .int l.column.toNat)]

/-- A place from a document. -/
def Location.decode? (j : Json) : Option Location := do
  let fs ← fields? j
  return {
    file := ← nullable? fs "file" string?
    line := ← required? fs "line" word?
    column := ← required? fs "column" word? }

namespace Diagnostic

/-- The document of a diagnostic, its `kind` first. -/
def toJson : Diagnostic → Json
  | .misuse code message hint location =>
    .obj [("kind", .str "syntax"), ("code", .str code), ("message", .str message),
      ("hint", .str hint), ("location", (location.map Location.toJson).getD .null)]
  | .defect code message hint reportUrl =>
    .obj [("kind", .str "internal"), ("code", .str code), ("message", .str message),
      ("hint", .str hint), ("reportUrl", .str reportUrl)]

/-- A diagnostic from a document. -/
def decode? (j : Json) : Option Diagnostic := do
  let fs ← fields? j
  match ← required? fs "kind" string? with
  | "syntax" =>
    return .misuse (← required? fs "code" string?) (← required? fs "message" string?)
      (← defaulted? fs "hint" "" string?) (← nullable? fs "location" Location.decode?)
  | "internal" =>
    return .defect (← required? fs "code" string?) (← required? fs "message" string?)
      (← defaulted? fs "hint" "" string?) (← required? fs "reportUrl" string?)
  | _ => none

end Diagnostic

end TemplateBlocks
