import TemplateBlocks.Proofs.Traversal.Everywhere
import TemplateBlocks.Proofs.Tree.Legible
import TemplateBlocks.Proofs.Tree.Loosened

/-!
# Templates survive their documents

Reading the document of a template gives the template back, whichever order the fields of its
objects stand in and whichever of the fields that hold their default are left out
(`decode?_toJson_loosened`). There is one lemma for each kind of node: from what is found under the
names of its fields, the node is read. Expressions and statements stand in each other; since each
stands inside an array or an object of the other, the induction goes over the levels of nesting that
the readers count down.

Numbers have to be finite, for a document has no others. Bodies are read statement by statement,
each as a whole, so that it also matters that documents of templates are legible.
-/

namespace TemplateBlocks

open Json

/-! ### Spans -/

theorem Position.decode?_loosened {p : Position} {j : Json} (h : Loosened p.toJson j) :
    Position.decode? j = some p := by
  obtain ⟨fs, rfl, hr⟩ := h.reads (by simp)
  have hline : required? fs "line" word? = some p.line := hr.word (by simp) rfl
  have hcolumn : required? fs "column" word? = some p.column := hr.word (by simp) rfl
  simp [Position.decode?, fields?, hline, hcolumn]

theorem Position.eq_default {p : Position} (h : ({} : Position).toJson = p.toJson) : p = {} := by
  obtain ⟨line, column⟩ := p
  simp only [toJson, Json.obj.injEq, List.cons.injEq, Prod.mk.injEq, Json.int.injEq, true_and,
    and_true, Int.natCast_inj, UInt32.toNat_inj] at h
  rw [← h.1, ← h.2]

theorem Span.eq_default {s : Span} (h : ({} : Span).toJson = s.toJson) : s = {} := by
  obtain ⟨source, start, stop⟩ := s
  cases source with
  | none =>
    simp only [toJson, Option.toList_none, List.map_nil, List.nil_append, Json.obj.injEq,
      List.cons.injEq, Prod.mk.injEq, true_and, and_true] at h
    rw [Position.eq_default h.1, Position.eq_default h.2]
  | some file => simp [toJson] at h

theorem Span.decode?_loosened {s : Span} {j : Json} (h : Loosened s.toJson j) :
    Span.decode? j = some s := by
  obtain ⟨source, start, stop⟩ := s
  obtain ⟨fs, rfl, hr⟩ := h.reads (by cases source <;> simp)
  have hsource : nullable? fs "source" string? = some source := by
    cases source with
    | none => simp [nullable?, hr.absent (show "source" ∉ _ by simp) (by decide)]
    | some file =>
      refine hr.nullable_some (j := .str file) (by simp) (by rintro ⟨⟩) fun j hl _ => ?_
      cases hl
      exact ⟨by simp, rfl⟩
  have hstart : defaulted? fs "start" {} Position.decode? = some start :=
    hr.defaulted (j := start.toJson) (by simp) (fun hd => Position.eq_default (Option.some.inj hd))
      fun _ hl _ => Position.decode?_loosened hl
  have hstop : defaulted? fs "end" {} Position.decode? = some stop :=
    hr.defaulted (j := stop.toJson) (by simp) (fun hd => Position.eq_default (Option.some.inj hd))
      fun _ hl _ => Position.decode?_loosened hl
  simp [Span.decode?, fields?, hsource, hstart, hstop]

/-- Where a node stands. -/
theorem Reads.loc {fields fs : List (String × Json)} {depth : Nat} {s : Span}
    (h : Reads fields fs depth) (hmem : ("loc", s.toJson) ∈ fields) : locField? fs = some s :=
  h.defaulted hmem (fun hd => Span.eq_default (Option.some.inj hd))
    fun _ hl _ => Span.decode?_loosened hl

/-! ### Leaves -/

section Leaves

variable {fs : List (String × Json)} {depth : Nat}

theorem TextNode.ofFields?_reads {t : TextNode} (h : Reads t.fields fs depth) :
    TextNode.ofFields? fs = some t := by
  have hchars : required? fs "chars" string? = some t.chars := h.string (by simp [fields]) rfl
  have hloc : locField? fs = some t.loc := h.loc (by simp [fields])
  simp [TextNode.ofFields?, hchars, hloc]

theorem Comment.ofFields?_reads {c : Comment} (h : Reads c.fields fs depth) :
    Comment.ofFields? fs = some c := by
  have hvalue : required? fs "value" string? = some c.value := h.string (by simp [fields]) rfl
  have hloc : locField? fs = some c.loc := h.loc (by simp [fields])
  simp [Comment.ofFields?, hvalue, hloc]

theorem Path.ofFields?_reads {p : Path} (h : Reads p.fields fs depth) :
    Path.ofFields? fs = some p := by
  have htext : required? fs "original" string? = some p.text := h.string (by simp [fields]) rfl
  have hthis : flagField? fs "this" = some p.isThis := h.flag (by simp [fields]) rfl
  have hdata : flagField? fs "data" = some p.isData := h.flag (by simp [fields]) rfl
  have hparts : listField? fs "parts" string? = some p.parts := by
    refine h.strings (by simp [fields]) ?_
    rw [default?_parts]
    simp [spellsPath, fields]
  have hloc : locField? fs = some p.loc := h.loc (by simp [fields])
  simp [Path.ofFields?, htext, hthis, hdata, hparts, hloc]

/-- A literal, if its value is read back. -/
theorem Literal.ofFields?_reads {α : Type} {encode : α → Json} {decode : Json → Option α}
    {l : Literal α} (h : Reads (l.fields encode) fs depth)
    (hvalue : ∀ j, Loosened (encode l.value) j → decode j = some l.value) :
    Literal.ofFields? decode fs = some l := by
  have hv : required? fs "value" decode = some l.value :=
    h.required (j := encode l.value) (by simp [fields]) rfl fun j hl _ => hvalue j hl
  have hloc : locField? fs = some l.loc := h.loc (by simp [fields])
  simp [Literal.ofFields?, hv, hloc]

theorem Path.untagged?_loosened {p : Path} {j : Json} (h : Loosened (.obj p.fields) j) :
    untagged? Path.ofFields? j = some p := by
  obtain ⟨fs, rfl, hr⟩ := h.reads (by simp [fields])
  simp [untagged?, fields?, Path.ofFields?_reads hr]

theorem Comment.untagged?_loosened {c : Comment} {j : Json} (h : Loosened (.obj c.fields) j) :
    untagged? Comment.ofFields? j = some c := by
  obtain ⟨fs, rfl, hr⟩ := h.reads (by simp [fields])
  simp [untagged?, fields?, Comment.ofFields?_reads hr]

end Leaves

/-! ### Numbers -/

/-- Whether the expression is not an infinite or absent number. -/
def Expr.isFinite : Expr → Bool
  | .number l => l.value.isFinite
  | _ => true

/-- Whether the node is not an infinite or absent number. -/
def isFiniteAt : (k : Kind) → k.Node → Bool
  | .expression, e => e.isFinite
  | _, _ => true

/-- All numbers in a node are finite. -/
def IsFinite (k : Kind) (x : k.Node) : Prop := Everywhere (fun k x => isFiniteAt k x) k x

instance {k : Kind} {x : k.Node} : Decidable (IsFinite k x) :=
  inferInstanceAs (Decidable (Everywhere (fun k x => isFiniteAt k x) k x))

theorem isFinite_iff {k : Kind} {x : k.Node} :
    IsFinite k x ↔ isFiniteAt k x ∧ ∀ p ∈ parts k x, IsFinite p.1 p.2 :=
  everywhere_iff

theorem isFinite_hash {h : Hash} :
    IsFinite .hash h ↔ ∀ p ∈ h.pairs, IsFinite .expression p.value := by
  rw [isFinite_iff]
  simp [isFiniteAt, parts]

theorem isFinite_sub {c : SubExpr} : IsFinite .expression (.sub c) ↔
    (∀ e ∈ c.params, IsFinite .expression e) ∧ IsFinite .hash c.hash := by
  have hcall : IsFinite .subExpression c ↔
      (∀ e ∈ c.params, IsFinite .expression e) ∧ IsFinite .hash c.hash :=
    everywhere_subExpression.trans (and_iff_right rfl)
  rw [isFinite_iff, ← hcall]
  simp [isFiniteAt, Expr.isFinite, parts, Expr.parts]

/-! ### Calls -/

@[simp] theorem within_enclosed (layers : Nat) : Place.enclosed.within layers = .enclosed := rfl

/-- The reader reads every expression back that is nested less deep than `depth`. -/
def ReadsExprs (expr : Place → Json → Option Expr) (depth : Nat) : Prop :=
  ∀ e, IsFinite .expression e → ∀ j, Loosened e.toJson j → j.depth < depth →
    expr .enclosed j = some e

theorem Hash.eq_default {h : Hash} (hj : ({} : Hash).toJson = h.toJson) : h = {} := by
  obtain ⟨pairs, loc⟩ := h
  simp only [Hash.toJson, HashPair.toJsons_eq_map, Json.obj.injEq, List.cons.injEq, Prod.mk.injEq,
    true_and, and_true, Json.arr.injEq, List.map_nil] at hj
  rw [List.map_eq_nil_iff.1 hj.1.symm, Span.eq_default hj.2]

section Calls

variable {expr : Place → Json → Option Expr} {depth : Nat} (hexpr : ReadsExprs expr depth)

include hexpr

theorem HashPair.decodeWith?_loosened {p : HashPair} (hp : IsFinite .expression p.value) {j : Json}
    (h : Loosened p.toJson j) (hdepth : j.depth ≤ depth) :
    HashPair.decodeWith? expr .enclosed j = some p := by
  obtain ⟨key, value, loc⟩ := p
  obtain ⟨fs, rfl, hr⟩ := h.reads (by simp)
  have hkey : required? fs "key" string? = some key := hr.string (by simp) rfl
  have hvalue : required? fs "value" (expr .enclosed) = some value :=
    hr.required (j := value.toJson) (by simp) rfl fun j hl hd => hexpr value hp j hl (by omega)
  have hloc : locField? fs = some loc := hr.loc (by simp)
  simp [HashPair.decodeWith?, fields?, hkey, hvalue, hloc]

theorem Hash.decodeWith?_loosened {h : Hash} (hh : IsFinite .hash h) {j : Json}
    (hj : Loosened h.toJson j) (hdepth : j.depth ≤ depth) :
    Hash.decodeWith? expr .enclosed j = some h := by
  rw [isFinite_hash] at hh
  obtain ⟨pairs, loc⟩ := h
  obtain ⟨fs, rfl, hr⟩ := hj.reads (by simp)
  have hpairs : listField? fs "pairs" (HashPair.decodeWith? expr .enclosed) = some pairs := by
    refine hr.list HashPair.toJson (by simp) rfl fun p hp i hl hd => ?_
    exact HashPair.decodeWith?_loosened hexpr (hh p hp) hl (by omega)
  have hloc : locField? fs = some loc := hr.loc (by simp)
  simp [Hash.decodeWith?, fields?, hpairs, hloc]

/-- The positional and named arguments of a call. -/
theorem arguments_reads {fields fs : List (String × Json)} {params : List Expr} {hash : Hash}
    {d : Nat} (h : Reads fields fs d) (hdepth : d ≤ depth)
    (hparams : ("params", .arr (params.map Expr.toJson)) ∈ fields)
    (hhash : ("hash", hash.toJson) ∈ fields)
    (hfinite : ∀ e ∈ params, IsFinite .expression e) (hfinite' : IsFinite .hash hash) :
    paramsField? expr .enclosed fs = some params ∧ hashField? expr .enclosed fs = some hash := by
  refine ⟨?_, ?_⟩
  · refine h.list Expr.toJson hparams rfl fun e he i hl hd => ?_
    exact hexpr e (hfinite e he) i hl (by omega)
  · refine h.defaulted hhash (fun hd => Hash.eq_default (Option.some.inj hd)) fun j hl hd => ?_
    exact Hash.decodeWith?_loosened hexpr hfinite' hl (by omega)

theorem SubExpr.ofFieldsWith?_reads {c : SubExpr} {fs : List (String × Json)} {d : Nat}
    (hc : IsFinite .expression (.sub c)) (h : Reads c.fields fs d) (hdepth : d ≤ depth) :
    SubExpr.ofFieldsWith? expr .enclosed fs = some c := by
  obtain ⟨hparams, hhash⟩ := isFinite_sub.1 hc
  obtain ⟨path, params, hash, loc, origin⟩ := c
  have hpath : required? fs "path" (untagged? Path.ofFields?) = some path :=
    h.required (j := .obj path.fields) (by simp [fields]) rfl fun _ hl _ =>
      Path.untagged?_loosened hl
  obtain ⟨hps, hh⟩ :=
    arguments_reads hexpr h hdepth (by simp [fields]) (by simp [fields]) hparams hhash
  have hloc : locField? fs = some loc := h.loc (by simp [fields])
  have horigin : originField? .enclosed fs = some origin := h.origin (by simp) .enclosed
  simp [SubExpr.ofFieldsWith?, hpath, hps, hh, hloc, horigin]

end Calls

/-! ### Expressions -/

/-- **Expressions are read back**, by a reader that goes as deep as their document nests. -/
theorem Expr.decodeWithin?_loosened {levels : Nat} {p : Place} {e : Expr} {j : Json}
    (he : IsFinite .expression e) (h : Loosened e.toJson j) (hp : p.admits j)
    (hdepth : j.depth ≤ levels) : Expr.decodeWithin? levels p j = some e := by
  induction levels generalizing p e j with
  | zero =>
    have hpos : 0 < j.depth := by
      cases e <;> exact h.depth_pos
    omega
  | succ levels ih =>
    have hexpr : ReadsExprs (Expr.decodeWithin? levels) j.depth := fun e he i hl hd =>
      ih he hl rfl (by omega)
    unfold Expr.decodeWithin?
    cases e with
    | path q =>
      obtain ⟨fs, htag, hr⟩ := h.reads_tagged (by simp [Path.fields]) hp Expr.kinds
      simp [htag, Path.ofFields?_reads hr]
    | sub c =>
      have hnodup : ("type" :: c.fields.map Prod.fst).Nodup := by
        obtain ⟨path, params, hash, loc, origin⟩ := c
        cases origin <;> simp [SubExpr.fields, Origin.field]
      obtain ⟨fs, htag, hr⟩ := h.reads_tagged hnodup hp Expr.kinds
      simp [htag, SubExpr.ofFieldsWith?_reads hexpr he hr le_rfl]
    | string l =>
      obtain ⟨fs, htag, hr⟩ := h.reads_tagged (by simp [Literal.fields]) hp Expr.kinds
      simp [htag, Literal.ofFields?_reads hr fun _ => string?_loosened]
    | number l =>
      obtain ⟨fs, htag, hr⟩ := h.reads_tagged (by simp [Literal.fields]) hp Expr.kinds
      have hfinite : l.value.isFinite = true := (isFinite_iff.1 he).1
      simp [htag, Literal.ofFields?_reads hr fun _ => number?_loosened hfinite]
    | boolean l =>
      obtain ⟨fs, htag, hr⟩ := h.reads_tagged (by simp [Literal.fields]) hp Expr.kinds
      simp [htag, Literal.ofFields?_reads hr fun _ => bool?_loosened]

/-! ### Mustaches, attributes and modifiers -/

theorem isFinite_mustache {m : Mustache} : IsFinite .mustache m ↔ IsFinite .expression m.path ∧
    (∀ e ∈ m.params, IsFinite .expression e) ∧ IsFinite .hash m.hash :=
  everywhere_mustache.trans (and_iff_right rfl)

theorem nodup_mustache (m : Mustache) : ("type" :: m.fields.map Prod.fst).Nodup := by
  cases h : m.origin <;> simp [Mustache.fields, Origin.field, h]

section Attributes

variable {expr : Place → Json → Option Expr} {depth : Nat} (hexpr : ReadsExprs expr depth)

include hexpr

theorem Mustache.ofFieldsWith?_reads {m : Mustache} {fs : List (String × Json)} {d : Nat}
    (hm : IsFinite .mustache m) (h : Reads m.fields fs d) (hdepth : d ≤ depth) :
    Mustache.ofFieldsWith? expr .enclosed fs = some m := by
  obtain ⟨hpath, hparams, hhash⟩ := isFinite_mustache.1 hm
  have hp : required? fs "path" (expr .enclosed) = some m.path :=
    h.required (j := m.path.toJson) (by simp [fields]) rfl fun j hl hd =>
      hexpr m.path hpath j hl (by omega)
  obtain ⟨hps, hh⟩ :=
    arguments_reads hexpr h hdepth (by simp [fields]) (by simp [fields]) hparams hhash
  have htrusting : flagField? fs "trusting" = some m.trusting := h.flag (by simp [fields]) rfl
  have hloc : locField? fs = some m.loc := h.loc (by simp [fields])
  have horigin : originField? .enclosed fs = some m.origin := h.origin (by simp) .enclosed
  simp [Mustache.ofFieldsWith?, hp, hps, hh, htrusting, hloc, horigin]

theorem ConcatPart.decodeWith?_loosened {c : ConcatPart}
    (hc : ∀ p ∈ c.parts, IsFinite p.1 p.2) {j : Json} (h : Loosened c.toJson j)
    (hdepth : j.depth ≤ depth) : ConcatPart.decodeWith? expr .enclosed j = some c := by
  cases c with
  | text t =>
    obtain ⟨fs, htag, hr⟩ :=
      h.reads_tagged (by simp [TextNode.fields]) (p := .enclosed) rfl ConcatPart.kinds
    simp [ConcatPart.decodeWith?, htag, TextNode.ofFields?_reads hr]
  | mustache m =>
    obtain ⟨fs, htag, hr⟩ := h.reads_tagged (nodup_mustache m) (p := .enclosed) rfl ConcatPart.kinds
    have hm : IsFinite .mustache m := hc ⟨.mustache, m⟩ (by simp [ConcatPart.parts])
    simp [ConcatPart.decodeWith?, htag, Mustache.ofFieldsWith?_reads hexpr hm hr hdepth]

theorem Concat.ofFieldsWith?_reads {c : Concat} {fs : List (String × Json)} {d : Nat}
    (hc : ∀ q ∈ c.parts, ∀ p ∈ q.parts, IsFinite p.1 p.2) (h : Reads c.fields fs d)
    (hdepth : d ≤ depth) : Concat.ofFieldsWith? expr .enclosed fs = some c := by
  have hparts : required? fs "parts" (items? (ConcatPart.decodeWith? expr .enclosed)) =
      some c.parts := by
    refine h.items ConcatPart.toJson (by simp [fields]) ?_ fun q hq i hl hd => ?_
    · rw [default?_parts]
      simp [spellsPath, fields]
    · exact ConcatPart.decodeWith?_loosened hexpr (hc q hq) hl (by omega)
  have hloc : locField? fs = some c.loc := h.loc (by simp [fields])
  simp [Concat.ofFieldsWith?, hparts, hloc]

theorem AttrValue.decodeWith?_loosened {a : AttrValue} (ha : ∀ p ∈ a.parts, IsFinite p.1 p.2)
    {j : Json} (h : Loosened a.toJson j) (hdepth : j.depth ≤ depth) :
    AttrValue.decodeWith? expr .enclosed j = some a := by
  cases a with
  | text t =>
    obtain ⟨fs, htag, hr⟩ :=
      h.reads_tagged (by simp [TextNode.fields]) (p := .enclosed) rfl AttrValue.kinds
    simp [AttrValue.decodeWith?, htag, TextNode.ofFields?_reads hr]
  | mustache m =>
    obtain ⟨fs, htag, hr⟩ := h.reads_tagged (nodup_mustache m) (p := .enclosed) rfl AttrValue.kinds
    have hm : IsFinite .mustache m := ha ⟨.mustache, m⟩ (by simp [AttrValue.parts])
    simp [AttrValue.decodeWith?, htag, Mustache.ofFieldsWith?_reads hexpr hm hr hdepth]
  | concat c =>
    obtain ⟨fs, htag, hr⟩ :=
      h.reads_tagged (by simp [Concat.fields]) (p := .enclosed) rfl AttrValue.kinds
    have hc : ∀ q ∈ c.parts, ∀ p ∈ q.parts, IsFinite p.1 p.2 := fun q hq p hp =>
      ha p (List.mem_flatMap.2 ⟨q, hq, hp⟩)
    simp [AttrValue.decodeWith?, htag, Concat.ofFieldsWith?_reads hexpr hc hr hdepth]

theorem Attribute.decodeWith?_loosened {a : Attribute} (ha : IsFinite .attribute a) {j : Json}
    (h : Loosened a.toJson j) (hdepth : j.depth ≤ depth) :
    Attribute.decodeWith? expr .enclosed j = some a := by
  obtain ⟨fs, rfl, hr⟩ := h.reads (by simp)
  have hname : required? fs "name" string? = some a.name := hr.string (by simp) rfl
  have hvalue : required? fs "value" (AttrValue.decodeWith? expr .enclosed) = some a.value := by
    refine hr.required (j := a.value.toJson) (by simp) rfl fun j hl hd => ?_
    exact AttrValue.decodeWith?_loosened hexpr (isFinite_iff.1 ha).2 hl (by omega)
  have hloc : locField? fs = some a.loc := hr.loc (by simp)
  simp [Attribute.decodeWith?, fields?, hname, hvalue, hloc]

theorem Modifier.decodeWith?_loosened {m : Modifier} (hm : IsFinite .modifier m) {j : Json}
    (h : Loosened m.toJson j) (hdepth : j.depth ≤ depth) :
    Modifier.decodeWith? expr .enclosed j = some m := by
  obtain ⟨hparams, hhash⟩ := everywhere_arguments.1 (isFinite_iff.1 hm).2
  obtain ⟨fs, rfl, hr⟩ := h.reads (by simp)
  have hpath : required? fs "path" (untagged? Path.ofFields?) = some m.path :=
    hr.required (j := .obj m.path.fields) (by simp) rfl fun _ hl _ => Path.untagged?_loosened hl
  obtain ⟨hps, hh⟩ := arguments_reads hexpr hr hdepth (by simp) (by simp) hparams hhash
  have hloc : locField? fs = some m.loc := hr.loc (by simp)
  simp [Modifier.decodeWith?, fields?, hpath, hps, hh, hloc]

end Attributes

/-! ### Statements -/

theorem isFinite_statements {ss : List Statement} :
    IsFinite .statements ss ↔ ∀ s ∈ ss, IsFinite .statement s := by
  rw [isFinite_iff]
  simp [isFiniteAt, parts]

theorem isFinite_block {b : Block} : IsFinite .block b ↔ IsFinite .statements b.body := by
  rw [isFinite_iff]
  simp [isFiniteAt, parts]

theorem isFinite_statement {s : Statement} :
    IsFinite .statement s ↔ ∀ p ∈ s.parts, IsFinite p.1 p.2 := by
  rw [isFinite_iff]
  simp [isFiniteAt, parts]

/-- The reader reads every statement back that is nested less deep than `depth`. -/
def ReadsStatements (statement : Place → Json → Option Statement) (depth : Nat) : Prop :=
  ∀ s, IsFinite .statement s → ∀ j, Loosened s.toJson j → j.depth < depth →
    statement .enclosed j = some s

section Statements

variable {statement : Place → Json → Option Statement} {depth : Nat}
  (hstatement : ReadsStatements statement depth)

include hstatement

theorem Block.decodeWith?_loosened {b : Block} (hb : IsFinite .block b) {j : Json}
    (h : Loosened b.toJson j) (hdepth : j.depth ≤ depth) :
    Block.decodeWith? statement .enclosed j = some b := by
  rw [isFinite_block, isFinite_statements] at hb
  obtain ⟨body, blockParams, chained, loc, origin⟩ := b
  obtain ⟨fs, rfl, hr⟩ := h.reads (by cases origin <;> simp [Origin.field])
  have hbody : required? fs "body" (items? (statement .enclosed)) = some body := by
    refine hr.items Statement.toJson (by simp) rfl fun s hs i hl hd => ?_
    exact hstatement s (hb s hs) i hl (by omega)
  have hparams : listField? fs "blockParams" string? = some blockParams := hr.strings (by simp) rfl
  have hchained : flagField? fs "chained" = some chained := hr.flag (by simp) rfl
  have hloc : locField? fs = some loc := hr.loc (by simp)
  have horigin : originField? .enclosed fs = some origin := hr.origin (by simp) .enclosed
  simp [Block.decodeWith?, fields?, hbody, hparams, hchained, hloc, horigin]

variable {expr : Place → Json → Option Expr} (hexpr : ReadsExprs expr depth)

include hexpr

theorem BlockStatement.ofFieldsWith?_reads {b : BlockStatement} {fs : List (String × Json)}
    {d : Nat} (hb : IsFinite .blockStatement b) (h : Reads b.fields fs d) (hdepth : d ≤ depth) :
    BlockStatement.ofFieldsWith? expr statement .enclosed fs = some b := by
  obtain ⟨-, hpath, ⟨hparams, hhash⟩, hprogram, hinverse⟩ := everywhere_blockStatement.1 hb
  obtain ⟨path, params, hash, program, inverse, loc, origin⟩ := b
  have hp : required? fs "path" (expr .enclosed) = some path :=
    h.required (j := path.toJson) (by simp [fields]) rfl fun j hl hd =>
      hexpr path hpath j hl (by omega)
  obtain ⟨hps, hh⟩ :=
    arguments_reads hexpr h hdepth (by simp [fields]) (by simp [fields]) hparams hhash
  have hbody : required? fs "program" (Block.decodeWith? statement .enclosed) = some program := by
    refine h.required (j := program.toJson) (by simp [fields]) rfl fun j hl hd => ?_
    exact Block.decodeWith?_loosened hstatement hprogram hl (by omega)
  have hinv : nullable? fs "inverse" (Block.decodeWith? statement .enclosed) = some inverse := by
    cases inverse with
    | none => exact h.nullable_none (by simp [fields, Block.toJsonOption]) _
    | some i =>
      refine h.nullable_some (j := i.toJson) (by simp [fields, Block.toJsonOption]) ?_ ?_
      · obtain ⟨body, blockParams, chained, loc, origin⟩ := i
        rintro ⟨⟩
      · intro j hl hd
        refine ⟨?_, Block.decodeWith?_loosened hstatement (hinverse i rfl) hl (by omega)⟩
        rintro rfl
        obtain ⟨body, blockParams, chained, loc, origin⟩ := i
        cases hl
  have hloc : locField? fs = some loc := h.loc (by simp [fields])
  have horigin : originField? .enclosed fs = some origin := h.origin (by simp) .enclosed
  simp [BlockStatement.ofFieldsWith?, hp, hps, hh, hbody, hinv, hloc, horigin]

theorem Element.ofFieldsWith?_reads {e : Element} {fs : List (String × Json)} {d : Nat}
    (he : IsFinite .element e) (h : Reads e.fields fs d) (hdepth : d ≤ depth) :
    Element.ofFieldsWith? expr statement .enclosed fs = some e := by
  obtain ⟨-, hattributes, hmodifiers, hchildren⟩ := everywhere_element.1 he
  have hbody := isFinite_statements.1 hchildren
  obtain ⟨tag, closing, attributes, modifiers, children, comments, params, loc, origin⟩ := e
  have htag : required? fs "tag" string? = some tag := h.string (by simp [fields]) rfl
  have hclosing : flagField? fs "selfClosing" = some closing := h.flag (by simp [fields]) rfl
  have hattrs : listField? fs "attributes" (Attribute.decodeWith? expr .enclosed) =
      some attributes := by
    refine h.list Attribute.toJson (by simp [fields]) rfl fun a ha i hl hd => ?_
    exact Attribute.decodeWith?_loosened hexpr (hattributes a ha) hl (by omega)
  have hmods : listField? fs "modifiers" (Modifier.decodeWith? expr .enclosed) =
      some modifiers := by
    refine h.list Modifier.toJson (by simp [fields]) rfl fun m hm i hl hd => ?_
    exact Modifier.decodeWith?_loosened hexpr (hmodifiers m hm) hl (by omega)
  have hcs : listField? fs "children" (statement .enclosed) = some children := by
    refine h.list Statement.toJson (by simp [fields]) rfl fun s hs i hl hd => ?_
    exact hstatement s (hbody s hs) i hl (by omega)
  have hcomments : listField? fs "comments" (untagged? Comment.ofFields?) = some comments := by
    refine h.list (fun c => .obj c.fields) (by simp [fields]) rfl fun c _ i hl _ => ?_
    exact Comment.untagged?_loosened hl
  have hparams : listField? fs "blockParams" string? = some params :=
    h.strings (by simp [fields]) rfl
  have hloc : locField? fs = some loc := h.loc (by simp [fields])
  have horigin : originField? .enclosed fs = some origin := h.origin (by simp) .enclosed
  simp [Element.ofFieldsWith?, htag, hclosing, hattrs, hmods, hcs, hcomments, hparams, hloc,
    horigin]

end Statements

/-- **Statements are read back**, by a reader that goes as deep as their document nests. -/
theorem Statement.decodeWithin?_loosened {levels : Nat} {p : Place} {s : Statement} {j : Json}
    (hs : IsFinite .statement s) (h : Loosened s.toJson j) (hp : p.admits j)
    (hdepth : j.depth ≤ levels) : Statement.decodeWithin? levels p j = some s := by
  induction levels generalizing p s j with
  | zero =>
    have hpos : 0 < j.depth := by
      cases s <;> exact h.depth_pos
    omega
  | succ levels ih =>
    have hexpr : ReadsExprs (Expr.decodeWithin? (levels + 1)) j.depth := fun e he i hl hd =>
      Expr.decodeWithin?_loosened he hl rfl (by omega)
    have hstatement : ReadsStatements (Statement.decodeWithin? levels) j.depth :=
      fun s hs i hl hd => ih hs hl rfl (by omega)
    rw [isFinite_statement] at hs
    unfold Statement.decodeWithin?
    cases s with
    | mustache m =>
      have hm : IsFinite .mustache m := hs ⟨.mustache, m⟩ (by simp [Statement.parts])
      obtain ⟨fs, htag, hr⟩ := h.reads_tagged (nodup_mustache m) hp Statement.kinds
      simp [htag, Mustache.ofFieldsWith?_reads hexpr hm hr le_rfl]
    | block b =>
      have hb : IsFinite .blockStatement b := hs ⟨.blockStatement, b⟩ (by simp [Statement.parts])
      have hnodup : ("type" :: b.fields.map Prod.fst).Nodup := by
        obtain ⟨path, params, hash, program, inverse, loc, origin⟩ := b
        cases origin <;> simp [BlockStatement.fields, Origin.field]
      obtain ⟨fs, htag, hr⟩ := h.reads_tagged hnodup hp Statement.kinds
      simp [htag, BlockStatement.ofFieldsWith?_reads hstatement hexpr hb hr le_rfl]
    | element e =>
      have he : IsFinite .element e := hs ⟨.element, e⟩ (by simp [Statement.parts])
      have hnodup : ("type" :: e.fields.map Prod.fst).Nodup := by
        obtain ⟨tag, closing, attributes, modifiers, children, comments, params, loc, origin⟩ := e
        cases origin <;> simp [Element.fields, Origin.field]
      obtain ⟨fs, htag, hr⟩ := h.reads_tagged hnodup hp Statement.kinds
      simp [htag, Element.ofFieldsWith?_reads hstatement hexpr he hr le_rfl]
    | text t =>
      obtain ⟨fs, htag, hr⟩ := h.reads_tagged (by simp [TextNode.fields]) hp Statement.kinds
      simp [htag, TextNode.ofFields?_reads hr]
    | mustacheComment c | comment c =>
      obtain ⟨fs, htag, hr⟩ := h.reads_tagged (by simp [Comment.fields]) hp Statement.kinds
      simp [htag, Comment.ofFields?_reads hr]

/-! ### Templates -/

/-- **Templates survive their documents.** A template whose numbers are finite is read back from its
document, in whichever order the fields of the objects stand and whichever of those that hold their
default are left out, as long as what is left keeps to the nesting limit. -/
theorem decode?_toJson_loosened {t : Template} {j : Json} (ht : IsFinite .template t)
    (h : Loosened t.toJson j) (hdepth : j.depth ≤ nestingLimit) : Template.decode? j = some t := by
  have hbody : ∀ s ∈ t.body, IsFinite .statement s :=
    isFinite_statements.1 ((isFinite_iff.1 ht).2 ⟨.statements, t.body⟩ (by simp [parts]))
  obtain ⟨fs, rfl, hr⟩ := h.reads (by simp)
  have hstatements : required? fs "body" (items? (statement? (.bare 2))) = some t.body := by
    refine hr.items Statement.toJson (by simp) rfl fun s hs i hl hd => ?_
    refine Statement.decodeWithin?_loosened (hbody s hs) hl ?_ (by omega)
    have hlegible : i.isLegible := hl.isLegible s.isLegible_toJson
    have hnesting : 2 + i.depth ≤ nestingLimit := by omega
    simp [Place.admits, hlegible, hnesting]
  have hparams : listField? fs "blockParams" string? = some t.blockParams :=
    hr.strings (by simp) rfl
  have hloc : locField? fs = some t.loc := hr.loc (by simp)
  simp [Template.decode?, Template.decodeWith?, fields?, Place.root, Place.within, hstatements,
    hparams, hloc]

/-- A template whose document has its objects turned around, the `type`s last, and says nothing of
what it could leave out. -/
theorem decode?_toJson_loosened_item :
    let path : Path := { text := "item", parts := ["item"] }
    let number : Literal Binary64 := { value := .ofNat 3 }
    let m : Mustache := { path := .path path, params := [.number number], trusting := true }
    let t : Template := { body := [.mustache m], loc := { source := some "item.hbs" } }
    let pathJson : Json := .obj [("parts", .arr [.str "item"]), ("original", .str "item"),
      ("type", .str "PathExpression")]
    let numberJson : Json := .obj [("value", .real (.ofNat 3)), ("type", .str "NumberLiteral")]
    let mustacheJson : Json := .obj [("trusting", .bool true), ("params", .arr [numberJson]),
      ("path", pathJson), ("type", .str "MustacheStatement")]
    let j : Json := .obj [("loc", .obj [("source", .str "item.hbs")]),
      ("body", .arr [mustacheJson])]
    IsFinite .template t ∧ Loosened t.toJson j ∧ j.depth ≤ nestingLimit ∧
      Template.decode? j = some t := by
  intro path number m t pathJson numberJson mustacheJson j
  have hfinite : IsFinite .template t := by decide +kernel
  have hpath : Loosened (Expr.path path).toJson pathJson :=
    .obj (.keep (.leaf rfl) (.keep (.leaf rfl) (.drop rfl (.drop rfl
      (.keep (.arr (.cons (.leaf rfl) .nil)) (.drop rfl .nil)))))) (List.reverse_perm _).symm
  have hnumber : Loosened (Expr.number number).toJson numberJson :=
    .obj (.keep (.leaf rfl) (.keep (.leaf rfl) (.drop rfl .nil))) (List.reverse_perm _).symm
  have hmustache : Loosened (Statement.mustache m).toJson mustacheJson :=
    .obj (.keep (.leaf rfl) (.keep hpath (.keep (.arr (.cons hnumber .nil)) (.drop rfl
      (.keep (.leaf rfl) (.drop rfl .nil)))))) (List.reverse_perm _).symm
  have hloc : Loosened t.loc.toJson (.obj [("source", .str "item.hbs")]) :=
    .obj (.keep (.leaf rfl) (.drop rfl (.drop rfl .nil))) (List.reverse_perm _).symm
  have hj : Loosened t.toJson j :=
    .obj (.keep (.arr (.cons hmustache .nil)) (.drop rfl (.keep hloc .nil)))
      (List.reverse_perm _).symm
  have hdepth : j.depth ≤ nestingLimit := by decide
  exact ⟨hfinite, hj, hdepth, decode?_toJson_loosened hfinite hj hdepth⟩

end TemplateBlocks
