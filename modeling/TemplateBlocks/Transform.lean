import TemplateBlocks.Desugar
import TemplateBlocks.Json.Reader
import TemplateBlocks.Options
import TemplateBlocks.Tree.Decode
import TemplateBlocks.Tree.Encode

/-!
# Transforming templates

Desugaring as a caller asks for it: according to the options, with the caller's context filled into
diagnostics, on trees, on texts and on batches.
-/

namespace TemplateBlocks

variable {σ : Type}

/-- Fills the caller's context into the diagnostic of a refusal. -/
def Halt.withContext (h : Halt) (o : Options) : Halt :=
  match h with
  | .refused d => .refused (d.withContext o.moduleName o.reportUrl)
  | .exhausted => .exhausted

/-- The template as the options ask for it, made by the given builders. A template is left alone
where desugaring is turned off. -/
def Template.transformWith (t : Template) (o : Options) (environment : Option String)
    (b : Builders σ) (supply : σ) : Except Halt Template × σ :=
  if o.isEnabled environment then
    let (result, supply) := t.desugarWith b supply
    (result.mapError fun h => h.withContext o, supply)
  else (.ok t, supply)

/-- The template as the options ask for it. -/
def Template.transform (t : Template) (o : Options) (environment : Option String) :
    Except Halt Template :=
  (t.transformWith o environment .standard ()).1

/-- Templates as texts. A text that is not a template is a defect of whoever made it; what the
reader has to say about such a text is given by `words`. -/
def transformText (text : String) (o : Options) (environment : Option String)
    (words : String → Option String := fun _ => none) : Except Halt String :=
  match Json.read? text >>= Template.decode? with
  | none => .error ((Halt.refused (Defect.payload (words text)).report).withContext o)
  | some t => (t.transform o environment).map fun t => t.toJson.write

/-- Templates by name, each transformed with its name as the module's. -/
def transformBatch (templates : List (String × Template)) (o : Options)
    (environment : Option String) : List (String × Except Halt Template) :=
  templates.map fun (name, t) => (name, t.transform (o.withModuleName name) environment)

end TemplateBlocks
