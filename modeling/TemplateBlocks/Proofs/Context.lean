import TemplateBlocks.Proofs.Desugar.PlainForm
import TemplateBlocks.Proofs.Json.Fields
import TemplateBlocks.Transform

/-!
# Context in diagnostics

What callers fill into a diagnostic, one after the other, and what they cannot change. A located
misuse keeps its file and otherwise takes the first module that is named; a defect takes the last
address. All else is the report itself (`SameReport`), which no caller touches. Transforming a
template is one such caller (`transform_of_refused`), so the module's name and the address in the
options show up in these two fields of a refusal, and nowhere else.
-/

namespace TemplateBlocks

namespace Diagnostic

/-! ### The report itself -/

/-- Where a defect is to be reported. -/
def reportUrl? : Diagnostic → Option String
  | .misuse .. => none
  | .defect _ _ _ url => some url

/-- Two diagnostics say the same: they differ at most in the file of the location and in the address
for reports. -/
structure SameReport (d d' : Diagnostic) : Prop where
  isDefect : d'.isDefect = d.isDefect
  code : d'.code = d.code
  message : d'.message = d.message
  hint : d'.hint = d.hint
  place : d'.location?.map (fun l => (l.line, l.column)) =
    d.location?.map fun l => (l.line, l.column)

namespace SameReport

variable {d d' d'' : Diagnostic}

theorem refl (d : Diagnostic) : SameReport d d := ⟨rfl, rfl, rfl, rfl, rfl⟩

theorem symm (h : SameReport d d') : SameReport d' d :=
  ⟨h.isDefect.symm, h.code.symm, h.message.symm, h.hint.symm, h.place.symm⟩

theorem trans (h : SameReport d d') (h' : SameReport d' d'') : SameReport d d'' :=
  ⟨h'.isDefect.trans h.isDefect, h'.code.trans h.code, h'.message.trans h.message,
    h'.hint.trans h.hint, h'.place.trans h.place⟩

end SameReport

/-! ### One caller -/

theorem sameReport_withContext (d : Diagnostic) (moduleName : Option String) (reportUrl : String) :
    d.SameReport (d.withContext moduleName reportUrl) := by
  cases d with
  | misuse code message hint location => cases location <;> exact ⟨rfl, rfl, rfl, rfl, rfl⟩
  | defect code message hint url => exact ⟨rfl, rfl, rfl, rfl, rfl⟩

theorem location?_withContext (d : Diagnostic) (moduleName : Option String) (reportUrl : String) :
    (d.withContext moduleName reportUrl).location? =
      d.location?.map fun l => { l with file := l.file <|> moduleName } := by
  cases d with
  | misuse code message hint location => cases location <;> rfl
  | defect code message hint url => rfl

theorem reportUrl?_withContext (d : Diagnostic) (moduleName : Option String) (reportUrl : String) :
    (d.withContext moduleName reportUrl).reportUrl? = d.reportUrl?.map fun _ => reportUrl := by
  cases d with
  | misuse code message hint location => cases location <;> rfl
  | defect code message hint url => rfl

/-! ### Callers in sequence -/

/-- The diagnostic after each of some callers has filled in its context: the name of its module, if
it has one, and its address. -/
def withContexts (d : Diagnostic) (contexts : List (Option String × String)) : Diagnostic :=
  contexts.foldl (fun d c => d.withContext c.1 c.2) d

variable (d : Diagnostic) (contexts : List (Option String × String))

theorem sameReport_withContexts : d.SameReport (d.withContexts contexts) := by
  induction contexts generalizing d with
  | nil => exact .refl d
  | cons c cs ih => exact (d.sameReport_withContext c.1 c.2).trans (ih _)

/-- **The first name wins**, and a file that is known before all of them. -/
theorem location?_withContexts : (d.withContexts contexts).location? =
    d.location?.map fun l => { l with file := l.file <|> contexts.findSome? Prod.fst } := by
  induction contexts generalizing d with
  | nil => cases hl : d.location? <;> simp [withContexts, hl]
  | cons c cs ih =>
    have hstep : d.withContexts (c :: cs) = (d.withContext c.1 c.2).withContexts cs := rfl
    rw [hstep, ih, location?_withContext, Option.map_map, List.findSome?_cons]
    cases d.location? with
    | none => rfl
    | some l => cases hfile : l.file <;> cases hname : c.1 <;> simp [hfile]

/-- **The last address wins.** -/
theorem reportUrl?_withContexts : (d.withContexts contexts).reportUrl? =
    d.reportUrl?.map fun url => (contexts.map Prod.snd).getLast?.getD url := by
  induction contexts generalizing d with
  | nil => cases hu : d.reportUrl? <;> simp [withContexts, hu]
  | cons c cs ih =>
    have hstep : d.withContexts (c :: cs) = (d.withContext c.1 c.2).withContexts cs := rfl
    rw [hstep, ih, reportUrl?_withContext, Option.map_map]
    congr 1
    funext url
    simp [List.getLast?_cons]

end Diagnostic

/-! ### Documents of diagnostics -/

section Documents

open Json

theorem nullOr_eq (text : Option String) : nullOr text = (text.map Json.str).getD .null := by
  cases text <;> rfl

theorem Location.decode?_toJson (l : Location) : Location.decode? l.toJson = some l := by
  let fs : List (String × Json) :=
    [("file", nullOr l.file), ("line", .int l.line.toNat), ("column", .int l.column.toNat)]
  have hnodup : (fs.map Prod.fst).Nodup := by simp [fs]
  have hfile : nullable? fs "file" string? = some l.file :=
    nullable?_of_mem .str hnodup (by simp [fs, nullOr_eq]) (by simp) fun _ => rfl
  have hline : required? fs "line" word? = some l.line := by
    rw [required?_of_mem (j := .int l.line.toNat) hnodup (by simp [fs]), word?_toNat]
  have hcolumn : required? fs "column" word? = some l.column := by
    rw [required?_of_mem (j := .int l.column.toNat) hnodup (by simp [fs]), word?_toNat]
  change Location.decode? (.obj fs) = _
  simp [decode?, fields?, hfile, hline, hcolumn]

theorem Diagnostic.decode?_toJson (d : Diagnostic) : Diagnostic.decode? d.toJson = some d := by
  cases d with
  | misuse code message hint location =>
    let fs : List (String × Json) := [("kind", .str "syntax"), ("code", .str code),
      ("message", .str message), ("hint", .str hint),
      ("location", (location.map Location.toJson).getD .null)]
    have hnodup : (fs.map Prod.fst).Nodup := by simp [fs]
    have hkind : required? fs "kind" string? = some "syntax" :=
      required?_of_mem (j := .str "syntax") hnodup (by simp [fs])
    have hcode : required? fs "code" string? = some code :=
      required?_of_mem (j := .str code) hnodup (by simp [fs])
    have hmessage : required? fs "message" string? = some message :=
      required?_of_mem (j := .str message) hnodup (by simp [fs])
    have hhint : defaulted? fs "hint" "" string? = some hint :=
      defaulted?_of_mem (j := .str hint) hnodup (by simp [fs])
    have hlocation : nullable? fs "location" Location.decode? = some location :=
      nullable?_of_mem Location.toJson hnodup (by simp [fs]) (by simp [Location.toJson])
        Location.decode?_toJson
    change Diagnostic.decode? (.obj fs) = _
    simp [decode?, fields?, hkind, hcode, hmessage, hhint, hlocation]
  | defect code message hint reportUrl =>
    let fs : List (String × Json) := [("kind", .str "internal"), ("code", .str code),
      ("message", .str message), ("hint", .str hint),
      ("reportUrl", .str reportUrl)]
    have hnodup : (fs.map Prod.fst).Nodup := by simp [fs]
    have hkind : required? fs "kind" string? = some "internal" :=
      required?_of_mem (j := .str "internal") hnodup (by simp [fs])
    have hcode : required? fs "code" string? = some code :=
      required?_of_mem (j := .str code) hnodup (by simp [fs])
    have hmessage : required? fs "message" string? = some message :=
      required?_of_mem (j := .str message) hnodup (by simp [fs])
    have hhint : defaulted? fs "hint" "" string? = some hint :=
      defaulted?_of_mem (j := .str hint) hnodup (by simp [fs])
    have hurl : required? fs "reportUrl" string? = some reportUrl :=
      required?_of_mem (j := .str reportUrl) hnodup (by simp [fs])
    change Diagnostic.decode? (.obj fs) = _
    simp [decode?, fields?, hkind, hcode, hmessage, hhint, hurl]

end Documents

/-! ### Refusals -/

section Transforming

variable {t : Template} {o : Options} {environment : Option String}

theorem transform_of_disabled (h : o.isEnabled environment = false) :
    t.transform o environment = .ok t := by
  unfold Template.transform Template.transformWith
  rw [if_neg (by simp [h])]

theorem transform_of_enabled (h : o.isEnabled environment = true) :
    t.transform o environment = t.desugar.mapError fun halt => halt.withContext o := by
  unfold Template.transform Template.transformWith
  rw [if_pos h]
  rfl

theorem transform_of_ok (h : o.isEnabled environment = true) {t' : Template}
    (ht : t.desugar = .ok t') : t.transform o environment = .ok t' := by
  rw [transform_of_enabled h, ht]
  rfl

/-- The caller's context is filled into a refusal. -/
theorem transform_of_refused (h : o.isEnabled environment = true) {d : Diagnostic}
    (hd : t.desugar = .error (.refused d)) :
    t.transform o environment = .error (.refused (d.withContext o.moduleName o.reportUrl)) := by
  rw [transform_of_enabled h, hd]
  rfl

end Transforming

/-- Two ways in which transforming a template can end: with the same template, or with refusals that
say the same. -/
inductive SameOutcome : Except Halt Template → Except Halt Template → Prop
  | ok (t : Template) : SameOutcome (.ok t) (.ok t)
  | refused {d d' : Diagnostic} : d.SameReport d' →
      SameOutcome (.error (.refused d)) (.error (.refused d'))

theorem sameOutcome_transform (t : Template) (o : Options) (environment : Option String)
    (moduleName : Option String) (reportUrl : String) :
    SameOutcome (t.transform o environment)
      (t.transform { o with moduleName, reportUrl } environment) := by
  -- neither the module's name nor the address has a say in whether to desugar
  have hsame : ({ o with moduleName, reportUrl } : Options).isEnabled environment =
      o.isEnabled environment := rfl
  cases henabled : o.isEnabled environment with
  | false =>
    rw [transform_of_disabled henabled, transform_of_disabled (hsame.trans henabled)]
    exact .ok t
  | true =>
    cases h : t.desugar with
    | ok t' =>
      rw [transform_of_ok henabled h, transform_of_ok (hsame.trans henabled) h]
      exact .ok t'
    | error halt =>
      cases halt with
      | refused d =>
        rw [transform_of_refused henabled h, transform_of_refused (hsame.trans henabled) h]
        exact .refused ((d.sameReport_withContext ..).symm.trans (d.sameReport_withContext ..))
      | exhausted => exact absurd h (Desugar.plainForm_ne_exhausted .root .template t)

/-- **Context is filled in, and nothing else changes.** After any sequence of callers a diagnostic
makes the same report: a located misuse has the file that it had, or else the first module that was
named; a defect has the last address. Its document reads back as it is.

Transforming a template fills the module's name and the address of the options into a refusal of
desugaring, and does nothing to its result. So these two options make a difference in the two fields
of a refusal only. -/
theorem withContexts_fillsIn :
    (∀ (d : Diagnostic) (contexts : List (Option String × String)),
      let filled := d.withContexts contexts
      d.SameReport filled ∧
      filled.location? = (d.location?.map fun l =>
        { l with file := l.file <|> contexts.findSome? Prod.fst }) ∧
      filled.reportUrl? = (d.reportUrl?.map fun url =>
        (contexts.map Prod.snd).getLast?.getD url) ∧
      Diagnostic.decode? filled.toJson = some filled) ∧
    (∀ (t : Template) (o : Options) (environment : Option String),
      (o.isEnabled environment = false → t.transform o environment = .ok t) ∧
      (o.isEnabled environment = true →
        (∀ t', t.desugar = .ok t' → t.transform o environment = .ok t') ∧
        ∀ d, t.desugar = .error (.refused d) → t.transform o environment =
          .error (.refused (d.withContext o.moduleName o.reportUrl)))) ∧
    ∀ (t : Template) (o : Options) (environment moduleName : Option String) (reportUrl : String),
      SameOutcome (t.transform o environment)
        (t.transform { o with moduleName, reportUrl } environment) := by
  refine ⟨?_, ?_, sameOutcome_transform⟩
  · intro d contexts
    exact ⟨d.sameReport_withContexts contexts, d.location?_withContexts contexts,
      d.reportUrl?_withContexts contexts, Diagnostic.decode?_toJson _⟩
  · intro t o environment
    refine ⟨transform_of_disabled, fun henabled => ⟨?_, ?_⟩⟩
    · intro t' ht
      exact transform_of_ok henabled ht
    · intro d hd
      exact transform_of_refused henabled hd

/-- A declaration out of place is reported in the caller's module, and a desugaring that comes to no
end at the caller's address. -/
theorem withContexts_fillsIn_card :
    let o : Options := { moduleName := some "card.hbs", reportUrl := "card tracker" }
    let place : Span := { start := ⟨2, 4⟩, stop := ⟨2, 11⟩ }
    let misplaced : Template := { body := [.element { tag := ":main", loc := place }] }
    let misuse := (Misuse.unexpectedNamedBlock ":main").report place
    let around (body : List Statement) : List Statement :=
      [.element { tag := ":default", children := body }]
    let endless : Template := { body := [.element {
      tag := "Card", children := Nat.repeat around roundLimit [.text { chars := "Hello" }] }] }
    let defect := (Defect.diverged "ElementNode" roundLimit).report
    (misplaced.desugar = .error (.refused misuse) ∧
      misuse.location? = some ⟨none, 2, 4⟩ ∧
      ∃ d, misplaced.transform o none = .error (.refused d) ∧
        d.location? = some ⟨some "card.hbs", 2, 4⟩) ∧
    endless.desugar = .error (.refused defect) ∧
      ∃ d, endless.transform o none = .error (.refused d) ∧
        d.reportUrl? = some "card tracker" := by
  intro o place misplaced misuse around endless defect
  have hmisplaced : misplaced.desugar = .error (.refused misuse) := by decide +kernel
  have hendless : endless.desugar = .error (.refused defect) := by decide +kernel
  have hmisuse := ((withContexts_fillsIn.2.1 misplaced o none).2 rfl).2 misuse hmisplaced
  have hdefect := ((withContexts_fillsIn.2.1 endless o none).2 rfl).2 defect hendless
  exact ⟨⟨hmisplaced, rfl, _, hmisuse, rfl⟩, hendless, _, hdefect, rfl⟩

end TemplateBlocks
