import Mathlib.Data.List.Induction
import Mathlib.Data.List.Nodup
import TemplateBlocks.Proofs.Calls

/-!
# Legal children

Which children an element may have, and which fault is reported where it may not have them. Blank
texts and comments of the template do not count. The other children are *compatible* if those with
a tag of the form `:name` are well-formed declarations of distinct names, and stand beside no other
content; this passes from a list to its prefixes, so there is a first child that breaks it.

* `Element.isDeclaration_of_ownFault`: the fault of a declaration, seen by itself;
* `Fault tag before s d`: what is reported of a child `s` after the compatible children `before`;
* `Element.gather_compatible`, `Element.gatherAfter_fault`: gathering passes over compatible
  children and stops at the first fault;
* `Element.namedBlocks_exact`: what `Element.namedBlocks` answers on any children.
-/

namespace TemplateBlocks

/-! ### Well-formed declarations -/

/-- A name that starts with one of the letters `a` to `z` and contains no dot. -/
def IsBlockName (name : String) : Prop :=
  ∃ c r, name.toList = c :: r ∧ 'a' ≤ c ∧ c ≤ 'z' ∧ '.' ∉ name.toList

theorem isValidBlockName_iff {name : String} : isValidBlockName name ↔ IsBlockName name := by
  unfold isValidBlockName IsBlockName
  cases name.toList with
  | nil => simp
  | cons c r =>
    have hdot : 'a' ≤ c → '.' ≠ c := by
      rintro h rfl
      exact absurd h (by decide)
    simp only [Bool.and_eq_true, decide_eq_true_eq, List.all_eq_true, bne_iff_ne, ne_eq,
      List.cons.injEq, List.mem_cons, not_or]
    constructor
    · rintro ⟨⟨hlow, hhigh⟩, hr⟩
      exact ⟨c, r, ⟨rfl, rfl⟩, hlow, hhigh, hdot hlow, fun hmem => hr '.' hmem rfl⟩
    · rintro ⟨_, _, ⟨rfl, rfl⟩, hlow, hhigh, -, hr⟩
      exact ⟨⟨hlow, hhigh⟩, fun x hx heq => hr (heq ▸ hx)⟩

namespace Element

/-- The tag of the element is `:name`. -/
def IsTagged (c : Element) (name : String) : Prop := c.tag = ":" ++ name

theorem blockName?_eq_some {c : Element} {name : String} :
    c.blockName? = some name ↔ c.IsTagged name := by
  rw [blockName?, Text.afterLead?_eq_some, IsTagged]

theorem blockName?_ne_none {c : Element} : c.blockName? ≠ none ↔ ∃ name, c.IsTagged name := by
  rw [Option.ne_none_iff_exists']
  exact exists_congr fun name => blockName?_eq_some

/-- A declaration as it has to be: of a proper name, open, without attributes and modifiers. -/
structure IsWellFormed (c : Element) : Prop where
  named : ∃ name, c.IsTagged name ∧ IsBlockName name
  opens : c.selfClosing = false
  attributes : c.attributes = []
  modifiers : c.modifiers = []

theorem isDeclaration_iff_isWellFormed {c : Element} :
    c.isDeclaration = .ok true ↔ c.IsWellFormed := by
  rw [isDeclaration_eq_true]
  constructor
  · rintro ⟨name, hname, hvalid, hopen, hattributes, hmodifiers⟩
    exact ⟨⟨name, blockName?_eq_some.1 hname, isValidBlockName_iff.1 hvalid⟩, hopen, hattributes,
      hmodifiers⟩
  · rintro ⟨⟨name, hname, hvalid⟩, hopen, hattributes, hmodifiers⟩
    exact ⟨name, blockName?_eq_some.2 hname, isValidBlockName_iff.2 hvalid, hopen, hattributes,
      hmodifiers⟩

/-- What is wrong with a declaration by itself: its name is looked at first, then how it is closed,
its attributes, and its modifiers. -/
inductive OwnFault (c : Element) : Misuse → Prop
  | name {name : String} : c.IsTagged name → ¬ IsBlockName name →
      OwnFault c (.blockName c.tag name)
  | selfClosing {name : String} : c.IsTagged name → IsBlockName name → c.selfClosing = true →
      OwnFault c (.selfClosingNamedBlock c.tag)
  | attributes {name : String} : c.IsTagged name → IsBlockName name → c.selfClosing = false →
      c.attributes ≠ [] → OwnFault c (.namedBlockAttributes c.tag)
  | modifiers {name : String} : c.IsTagged name → IsBlockName name → c.selfClosing = false →
      c.attributes = [] → c.modifiers ≠ [] → OwnFault c (.namedBlockModifiers c.tag)

/-- **The fault of a declaration is reported where it stands.** -/
theorem isDeclaration_of_ownFault {c : Element} {m : Misuse} (h : c.OwnFault m) :
    c.isDeclaration = .error (m.report c.loc) := by
  unfold isDeclaration
  cases h with
  | name hname hbad =>
    rw [← isValidBlockName_iff, Bool.not_eq_true] at hbad
    simp [blockName?_eq_some.2 hname, hbad]
  | selfClosing hname hvalid hclosed =>
    simp [blockName?_eq_some.2 hname, isValidBlockName_iff.2 hvalid, hclosed]
  | attributes hname hvalid hopen hattributes =>
    have hsome : c.attributes.isEmpty = false := by simpa using hattributes
    simp [blockName?_eq_some.2 hname, isValidBlockName_iff.2 hvalid, hopen, hsome]
  | modifiers hname hvalid hopen hattributes hmodifiers =>
    have hsome : c.modifiers.isEmpty = false := by simpa using hmodifiers
    simp [blockName?_eq_some.2 hname, isValidBlockName_iff.2 hvalid, hopen, hattributes, hsome]

/-- A declaration that is not well-formed has a fault. -/
theorem exists_ownFault {c : Element} {name : String} (hname : c.IsTagged name)
    (h : ¬ c.IsWellFormed) : ∃ m, c.OwnFault m := by
  by_cases hvalid : IsBlockName name
  · cases hclosed : c.selfClosing with
    | true => exact ⟨_, .selfClosing hname hvalid hclosed⟩
    | false =>
      by_cases hattributes : c.attributes = []
      · refine ⟨_, .modifiers hname hvalid hclosed hattributes ?_⟩
        intro hmodifiers
        exact h ⟨⟨name, hname, hvalid⟩, hclosed, hattributes, hmodifiers⟩
      · exact ⟨_, .attributes hname hvalid hclosed hattributes⟩
  · exact ⟨_, .name hname hvalid⟩

end Element

/-! ### Compatible children -/

/-- The element that a statement is, if its tag is of the form `:name`. -/
def Statement.named? : Statement → Option Element
  | .element c => if c.blockName? = none then none else some c
  | _ => none

namespace Statement

theorem named?_eq_some {s : Statement} {c : Element} :
    s.named? = some c ↔ s = .element c ∧ ∃ name, c.IsTagged name := by
  rw [← Element.blockName?_ne_none]
  cases s with
  | element e =>
    simp only [named?, Statement.element.injEq]
    split
    next h =>
      simp only [reduceCtorEq, false_iff, not_and, not_not]
      rintro rfl
      exact h
    next h =>
      simp only [Option.some.injEq]
      constructor
      · rintro rfl
        exact ⟨rfl, h⟩
      · exact fun heq => heq.1
  | _ => simp [named?]

theorem declaration?_of_named?_eq_none {s : Statement} (h : s.named? = none) :
    s.declaration? = .ok none := by
  rw [declaration?_eq_none]
  rintro c rfl
  by_contra hc
  rw [named?_eq_some.2 ⟨rfl, Element.blockName?_ne_none.1 hc⟩] at h
  cases h

theorem declaration?_of_isWellFormed {c : Element} (h : c.IsWellFormed) :
    (Statement.element c).declaration? = .ok (some c) :=
  declaration?_eq_some.2 ⟨rfl, Element.isDeclaration_iff_isWellFormed.2 h⟩

theorem declaration?_of_ownFault {c : Element} {m : Misuse} (h : c.OwnFault m) :
    (Statement.element c).declaration? = .error (m.report c.loc) := by
  simp [declaration?, Element.isDeclaration_of_ownFault h]

end Statement

/-- The elements with a tag of the form `:name` among statements, in order. -/
def namedAmong (ss : List Statement) : List Element := ss.filterMap Statement.named?

/-- The first of the statements that has no tag of the form `:name`. -/
def firstLoose? (ss : List Statement) : Option Statement := ss.find? fun s => s.named?.isNone

@[simp] theorem namedAmong_concat (ss : List Statement) (s : Statement) :
    namedAmong (ss ++ [s]) = namedAmong ss ++ s.named?.toList := by
  cases h : s.named? <;> simp [namedAmong, h]

theorem firstLoose?_concat (ss : List Statement) (s : Statement) :
    firstLoose? (ss ++ [s]) = (firstLoose? ss <|> if s.named? = none then some s else none) := by
  unfold firstLoose?
  rw [List.find?_append]
  cases h : s.named? <;> simp [h]

theorem namedAmong_eq_nil {ss : List Statement} :
    namedAmong ss = [] ↔ ∀ s ∈ ss, s.named? = none := by
  simp [namedAmong, List.filterMap_eq_nil_iff]

theorem firstLoose?_eq_none {ss : List Statement} :
    firstLoose? ss = none ↔ ∀ s ∈ ss, s.named? ≠ none := by
  simp [firstLoose?]

/-- Statements that may be the children of one element, those aside that do not count. -/
structure AreCompatible (ss : List Statement) : Prop where
  wellFormed : ∀ c ∈ namedAmong ss, c.IsWellFormed
  unmixed : (∀ s ∈ ss, s.named? = none) ∨ ∀ s ∈ ss, s.named? ≠ none
  distinct : ((namedAmong ss).map Element.blockName).Nodup

section Compatible

variable {before ss : List Statement} {s : Statement} {c : Element} {tag : String}

theorem areCompatible_nil : AreCompatible [] :=
  ⟨by simp [namedAmong], by simp, by simp [namedAmong]⟩

/-- A child without a tag of the form `:name` may follow such children only. -/
theorem areCompatible_concat_loose (hs : s.named? = none) :
    AreCompatible (before ++ [s]) ↔ namedAmong before = [] := by
  constructor
  · intro h
    rcases h.unmixed with hall | hall
    · exact namedAmong_eq_nil.2 fun t ht => hall t (by simp [ht])
    · exact absurd hs (hall s (by simp))
  · intro hnone
    refine ⟨by simp [hs, hnone], .inl ?_, by simp [hs, hnone]⟩
    intro t ht
    rcases List.mem_append.1 ht with ht | ht
    · exact namedAmong_eq_nil.1 hnone t ht
    · rwa [List.mem_singleton.1 ht]

/-- A child with a tag of the form `:name` has to be well-formed, and may follow such children only,
whose names are other ones. -/
theorem areCompatible_concat_named (hb : AreCompatible before) (hs : s.named? = some c) :
    AreCompatible (before ++ [s]) ↔ c.IsWellFormed ∧ firstLoose? before = none ∧
      c.blockName ∉ (namedAmong before).map Element.blockName := by
  constructor
  · intro h
    refine ⟨h.wellFormed c (by simp [hs]), ?_, ?_⟩
    · rcases h.unmixed with hall | hall
      · have := hall s (by simp)
        rw [hs] at this
        cases this
      · exact firstLoose?_eq_none.2 fun t ht => hall t (by simp [ht])
    · have hd := h.distinct
      simp only [namedAmong_concat, hs, Option.toList_some, List.map_append, List.map_cons,
        List.map_nil] at hd
      exact fun hmem => List.disjoint_of_nodup_append hd hmem (by simp)
  · rintro ⟨hwell, hloose, hnew⟩
    refine ⟨?_, .inr ?_, ?_⟩
    · intro b hmem
      simp only [namedAmong_concat, hs, Option.toList_some, List.mem_append,
        List.mem_singleton] at hmem
      rcases hmem with hmem | rfl
      · exact hb.wellFormed b hmem
      · exact hwell
    · intro t ht
      rcases List.mem_append.1 ht with ht | ht
      · exact firstLoose?_eq_none.1 hloose t ht
      · simp [List.mem_singleton.1 ht, hs]
    · simp only [namedAmong_concat, hs, Option.toList_some, List.map_append, List.map_cons,
        List.map_nil]
      exact List.nodup_append'.2 ⟨hb.distinct, by simp, by simpa using hnew⟩

/-- Compatibility passes to prefixes. -/
theorem AreCompatible.of_append {after : List Statement} (h : AreCompatible (before ++ after)) :
    AreCompatible before := by
  have hamong : namedAmong (before ++ after) = namedAmong before ++ namedAmong after := by
    simp [namedAmong]
  refine ⟨fun c hc => h.wellFormed c (by simp [hamong, hc]), ?_, ?_⟩
  · rcases h.unmixed with hall | hall
    · exact .inl fun s hs => hall s (by simp [hs])
    · exact .inr fun s hs => hall s (by simp [hs])
  · have hd := h.distinct
    rw [hamong, List.map_append] at hd
    exact hd.of_append_left

/-- **The first fault**: statements that are not compatible have a first one after which they are
not. -/
theorem exists_first_of_not_areCompatible (h : ¬ AreCompatible ss) :
    ∃ before s after, ss = before ++ s :: after ∧ AreCompatible before ∧
      ¬ AreCompatible (before ++ [s]) := by
  induction ss using List.reverseRecOn with
  | nil => exact absurd areCompatible_nil h
  | append_singleton ss s ih =>
    by_cases hss : AreCompatible ss
    · exact ⟨ss, s, [], rfl, hss, h⟩
    · obtain ⟨before, t, after, rfl, hbefore, ht⟩ := ih hss
      exact ⟨before, t, after ++ [s], by simp, hbefore, ht⟩

end Compatible

/-! ### Faults -/

/-- What is reported of a child of a `tag` after compatible children: its own fault, or else other
content beside a declaration, or else a name that was declared before. Content after a declaration
is reported where it stands, and a declaration after content where the content begins. -/
inductive Fault (tag : String) (before : List Statement) : Statement → Diagnostic → Prop
  | own {c : Element} {m : Misuse} : c.OwnFault m → Fault tag before (.element c) (m.report c.loc)
  | contentAfter {s : Statement} : s.named? = none → namedAmong before ≠ [] →
      Fault tag before s ((Misuse.mixedContent tag).report s.loc)
  | contentBefore {c : Element} {first : Statement} : c.IsWellFormed →
      firstLoose? before = some first →
      Fault tag before (.element c) ((Misuse.mixedContent tag).report first.loc)
  | repeated {c : Element} : c.IsWellFormed → firstLoose? before = none →
      c.blockName ∈ (namedAmong before).map Element.blockName →
      Fault tag before (.element c) ((Misuse.duplicateBlock c.blockName).report c.loc)

section Gather

variable {before rest ss : List Statement} {s : Statement} {tag : String} {d : Diagnostic}

/-- Where compatibility ends, there is something to report. -/
theorem exists_fault (tag : String) (hb : AreCompatible before)
    (h : ¬ AreCompatible (before ++ [s])) : ∃ d, Fault tag before s d := by
  cases hs : s.named? with
  | none =>
    rw [areCompatible_concat_loose hs] at h
    exact ⟨_, .contentAfter hs h⟩
  | some c =>
    obtain ⟨rfl, name, hname⟩ := Statement.named?_eq_some.1 hs
    rw [areCompatible_concat_named hb hs] at h
    by_cases hwell : c.IsWellFormed
    · cases hloose : firstLoose? before with
      | some first => exact ⟨_, .contentBefore hwell hloose⟩
      | none =>
        refine ⟨_, .repeated hwell hloose ?_⟩
        by_contra hnew
        exact h ⟨hwell, hloose, hnew⟩
    · obtain ⟨m, hm⟩ := Element.exists_ownFault hname hwell
      exact ⟨_, .own hm⟩

/-! ### Gathering -/

namespace Element

/-- The children that count: neither blank texts nor comments of the template. -/
def countedChildren (e : Element) : List Statement := e.children.filter fun s => !s.isIgnorable

theorem gather_counted (blocks : List Element) (loose : Option Span) (ss : List Statement) :
    gather tag blocks loose (ss.filter fun s => !s.isIgnorable) = gather tag blocks loose ss := by
  induction ss generalizing blocks loose with
  | nil => rfl
  | cons s rest ih =>
    by_cases hs : s.isIgnorable
    · simp only [List.filter_cons, hs, Bool.not_true, Bool.false_eq_true, if_false, ih, gather,
        if_true]
    · simp only [List.filter_cons, hs, Bool.not_false, if_true, gather, ih]

/-- Where gathering stands after compatible children: with the declarations among them, and the
place of the first of them that is none. -/
def gatherAfter (tag : String) (before rest : List Statement) : Except Diagnostic (List Element) :=
  gather tag (namedAmong before) ((firstLoose? before).map Statement.loc) rest

/-- **A step over a compatible child.** -/
theorem gatherAfter_concat (hb : AreCompatible before) (hs : s.isIgnorable = false)
    (h : AreCompatible (before ++ [s])) :
    gatherAfter tag before (s :: rest) = gatherAfter tag (before ++ [s]) rest := by
  unfold gatherAfter
  rw [gather, if_neg (by simp [hs]), namedAmong_concat, firstLoose?_concat]
  cases hnamed : s.named? with
  | none =>
    have hnone := (areCompatible_concat_loose hnamed).1 h
    simp only [Statement.declaration?_of_named?_eq_none hnamed, hnone, List.isEmpty_nil, if_true]
    cases firstLoose? before <;> simp
  | some c =>
    obtain ⟨hwell, hloose, hnew⟩ := (areCompatible_concat_named hb hnamed).1 h
    obtain ⟨rfl, -⟩ := Statement.named?_eq_some.1 hnamed
    have hfresh : ((namedAmong before).any fun b => b.blockName == c.blockName) = false := by
      simpa using hnew
    simp [Statement.declaration?_of_isWellFormed hwell, hloose, hfresh]

/-- **A step to a fault.** -/
theorem gatherAfter_fault (hs : s.isIgnorable = false) (h : Fault tag before s d) :
    gatherAfter tag before (s :: rest) = .error d := by
  unfold gatherAfter
  rw [gather, if_neg (by simp [hs])]
  cases h with
  | own hm => simp only [Statement.declaration?_of_ownFault hm]
  | contentAfter hnamed hsome =>
    simp [Statement.declaration?_of_named?_eq_none hnamed, hsome]
  | contentBefore hwell hfirst =>
    simp [Statement.declaration?_of_isWellFormed hwell, hfirst]
  | @repeated c hwell hloose hmem =>
    have hrepeated : ((namedAmong before).any fun b => b.blockName == c.blockName) = true := by
      simpa using hmem
    simp [Statement.declaration?_of_isWellFormed hwell, hloose, hrepeated]

/-- **Gathering passes over compatible children.** -/
theorem gather_compatible (h : AreCompatible before)
    (hcount : ∀ s ∈ before, s.isIgnorable = false) :
    gather tag [] none (before ++ rest) = gatherAfter tag before rest := by
  induction before using List.reverseRecOn generalizing rest with
  | nil => rfl
  | append_singleton before s ih =>
    have hbefore := h.of_append
    rw [List.append_assoc, List.singleton_append, ih hbefore fun t ht => hcount t (by simp [ht])]
    exact gatherAfter_concat hbefore (hcount s (by simp)) h

/-! ### Blocks that are not supported -/

/-- What is reported of the first block that goes by a name of the inverse: that there is one, or
that both names are declared. -/
def Unsupported (blocks : List Element) (d : Diagnostic) : Prop :=
  ∃ before b after, blocks = before ++ b :: after ∧
    (∀ x ∈ before, ¬ IsInverseName x.blockName) ∧ IsInverseName b.blockName ∧
    d = (if Names.elseBlock ∈ blocks.map blockName ∧ Names.inverseBlock ∈ blocks.map blockName
      then Misuse.elseWithInverse else .unsupportedBlock b.tag).report b.loc

theorem isInverse_iff {b : Element} : b.isInverse ↔ IsInverseName b.blockName := by
  unfold isInverse IsInverseName blockName
  cases b.blockName? with
  | none =>
    simp only [Option.getD_none]
    decide
  | some name => simp

theorem refuseInverse_of_find? {blocks : List Element} {b : Element}
    (h : blocks.find? isInverse = some b) : refuseInverse blocks = .error
      ((if Names.elseBlock ∈ blocks.map blockName ∧ Names.inverseBlock ∈ blocks.map blockName
        then Misuse.elseWithInverse else .unsupportedBlock b.tag).report b.loc) := by
  have hpasses (name : String) : (blocks.any fun b => b.blockName == name) =
      decide (name ∈ blocks.map blockName) := by
    rw [Bool.eq_iff_iff, decide_eq_true_iff]
    simp
  unfold refuseInverse
  simp only [h, hpasses, ← Bool.decide_and]
  split
  next hboth =>
    rw [decide_eq_true hboth]
    rfl
  next hboth =>
    rw [decide_eq_false hboth]
    rfl

theorem find?_isInverse {blocks : List Element} {b : Element} :
    blocks.find? isInverse = some b ↔ ∃ before after, blocks = before ++ b :: after ∧
      (∀ x ∈ before, ¬ IsInverseName x.blockName) ∧ IsInverseName b.blockName := by
  rw [List.find?_eq_some_iff_append]
  simp only [isInverse_iff, ← Bool.not_eq_true, Bool.not_eq_eq_eq_not, Bool.not_true]
  constructor
  · rintro ⟨hb, before, after, hblocks, hbefore⟩
    exact ⟨before, after, hblocks, hbefore, hb⟩
  · rintro ⟨before, after, hblocks, hbefore, hb⟩
    exact ⟨hb, before, after, hblocks, hbefore⟩

theorem refuseInverse_eq_error {blocks : List Element} {d : Diagnostic} :
    refuseInverse blocks = .error d ↔ Unsupported blocks d := by
  constructor
  · intro h
    cases hfind : blocks.find? isInverse with
    | none => simp [refuseInverse, hfind] at h
    | some b =>
      obtain ⟨before, after, hblocks, hbefore, hb⟩ := find?_isInverse.1 hfind
      rw [refuseInverse_of_find? hfind, Except.error.injEq] at h
      exact ⟨before, b, after, hblocks, hbefore, hb, h.symm⟩
  · rintro ⟨before, b, after, hblocks, hbefore, hb, rfl⟩
    exact refuseInverse_of_find? (find?_isInverse.2 ⟨before, after, hblocks, hbefore, hb⟩)

/-! ### The blocks of an element -/

theorem namedBlocks_of_compatible {e : Element} (h : AreCompatible e.countedChildren) :
    e.namedBlocks = (do
      refuseInverse (namedAmong e.countedChildren)
      return namedAmong e.countedChildren) := by
  have hgather : gather e.tag [] none e.children = .ok (namedAmong e.countedChildren) := by
    rw [← gather_counted, ← countedChildren, ← List.append_nil e.countedChildren,
      gather_compatible h fun s hs => by simpa using (List.mem_filter.1 hs).2]
    simp [gatherAfter, gather]
  unfold namedBlocks
  rw [hgather]
  rfl

theorem namedBlocks_of_fault {e : Element} {before after : List Statement} {s : Statement}
    {d : Diagnostic} (hsplit : e.countedChildren = before ++ s :: after)
    (hbefore : AreCompatible before) (hfault : Fault e.tag before s d) :
    e.namedBlocks = .error d := by
  have hcounts : ∀ t ∈ before ++ s :: after, t.isIgnorable = false := by
    intro t ht
    rw [← hsplit] at ht
    simpa using (List.mem_filter.1 ht).2
  have hgather : gather e.tag [] none e.children = .error d := by
    rw [← gather_counted, ← countedChildren, hsplit,
      gather_compatible hbefore fun t ht => hcounts t (by simp [ht])]
    exact gatherAfter_fault (hcounts s (by simp)) hfault
  unfold namedBlocks
  rw [hgather]
  rfl

/-- **Which children declare which blocks, and what is reported of all others.** An element declares
blocks exactly if its children are compatible, blank texts and comments of the template aside, and
no block is named `else` or `inverse`; its blocks are then all declarations among its children, in
order. Otherwise the report is about the first child after which the children are not compatible;
only if there is none, it is about the first block of an unsupported name. -/
theorem namedBlocks_exact (e : Element) :
    (∀ blocks, e.namedBlocks = .ok blocks ↔
      AreCompatible e.countedChildren ∧
      (∀ b ∈ namedAmong e.countedChildren, ¬ IsInverseName b.blockName) ∧
      blocks = namedAmong e.countedChildren) ∧
    ∀ d, e.namedBlocks = .error d ↔
      (∃ before s after, e.countedChildren = before ++ s :: after ∧ AreCompatible before ∧
        ¬ AreCompatible (before ++ [s]) ∧ Fault e.tag before s d) ∨
      (AreCompatible e.countedChildren ∧ Unsupported (namedAmong e.countedChildren) d) := by
  by_cases h : AreCompatible e.countedChildren
  · -- no child is at fault, so the names decide
    have hfirst {d : Diagnostic} : ¬ ∃ before s after, e.countedChildren = before ++ s :: after ∧
        AreCompatible before ∧ ¬ AreCompatible (before ++ [s]) ∧ Fault e.tag before s d := by
      rintro ⟨before, s, after, hsplit, -, hs, -⟩
      rw [hsplit, ← List.singleton_append, ← List.append_assoc] at h
      exact hs h.of_append
    rw [namedBlocks_of_compatible h]
    refine ⟨fun blocks => ?_, fun d => ?_⟩
    · rw [bind_eq_ok]
      simp only [and_iff_right h, ← isInverse_iff, ← refuseInverse_eq_ok, pure_eq_ok,
        Except.ok.injEq, eq_comm (a := blocks)]
      exact ⟨fun ⟨_, hr, hb⟩ => ⟨hr, hb⟩, fun ⟨hr, hb⟩ => ⟨(), hr, hb⟩⟩
    · rw [or_iff_right hfirst, and_iff_right h, ← refuseInverse_eq_error]
      cases refuseInverse (namedAmong e.countedChildren) <;> simp
  · -- the first child at fault is reported
    obtain ⟨before, s, after, hsplit, hbefore, hs⟩ := exists_first_of_not_areCompatible h
    obtain ⟨d', hfault⟩ := exists_fault e.tag hbefore hs
    have herror := namedBlocks_of_fault hsplit hbefore hfault
    refine ⟨fun blocks => ?_, fun d => ?_⟩
    · simp [herror, h]
    · simp only [h, false_and, or_false]
      constructor
      · intro hd
        rw [herror, Except.error.injEq] at hd
        exact ⟨before, s, after, hsplit, hbefore, hs, hd ▸ hfault⟩
      · rintro ⟨before, s, after, hsplit, hbefore, -, hfault⟩
        exact namedBlocks_of_fault hsplit hbefore hfault

end Element

end Gather

end TemplateBlocks
