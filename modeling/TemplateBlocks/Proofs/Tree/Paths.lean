import TemplateBlocks.Proofs.Declaration

/-!
# Paths and their texts

What the reading of a path records, its lead and its segments, spells the text that was read. The
one exception is `this.`, whose reading is that of `this` but for the text: nothing has no segments,
and a dot stands after `this` only where segments follow.

* `Text.intercalate_segments`, `Text.notMem_of_mem_segments`: the segments of a dotted text are the
  pieces between its dots;
* `Path.Reading`: the four ways in which a text is read, each with the path that it gives;
* `Path.ofText_consistent`: the path that is read agrees with its text, so that asking whether it is
  one free name is asking this about the text.
-/

namespace TemplateBlocks

/-! ### Dotted texts -/

namespace Text

variable {s t : String}

theorem segmentsOf_eq_splitOn (cs : List Char) : segmentsOf cs = cs.splitOn '.' := by
  induction cs with
  | nil => rw [List.splitOn_nil, segmentsOf]
  | cons c cs ih =>
    rw [segmentsOf, List.splitOn_cons_eq_if_modifyHead, ih]
    by_cases hc : c = '.'
    · simp [hc]
    · cases hcs : cs.splitOn '.' with
      | nil => exact absurd hcs (List.splitOn_ne_nil '.' cs)
      | cons p ps => simp [hc]

theorem map_toList_segments (s : String) :
    (segments s).map String.toList = s.toList.splitOn '.' := by
  simp [segments, segmentsOf_eq_splitOn, Function.comp_def]

/-- The segments with dots between them are the text. -/
theorem intercalate_segments (s : String) : ".".intercalate (segments s) = s := by
  rw [← String.toList_inj, String.toList_intercalate, map_toList_segments]
  exact List.intercalate_splitOn '.'

theorem segments_ne_nil (s : String) : segments s ≠ [] := by
  simpa [segments] using segmentsOf_ne_nil s.toList

theorem notMem_of_mem_segmentsOf {cs p : List Char} (h : p ∈ segmentsOf cs) : '.' ∉ p := by
  fun_induction segmentsOf cs generalizing p with
  | case1 => simp_all
  | case2 r ih =>
    rcases List.mem_cons.1 h with rfl | h
    · exact List.not_mem_nil
    · exact ih h
  | case3 c r hc hr ih => exact absurd hr (segmentsOf_ne_nil r)
  | case4 c r hc q qs hr ih =>
    rw [hr] at ih
    rcases List.mem_cons.1 h with rfl | h
    · simpa [Ne.symm hc] using ih List.mem_cons_self
    · exact ih (List.mem_cons_of_mem q h)

theorem notMem_of_mem_segments (h : t ∈ segments s) : '.' ∉ t.toList := by
  obtain ⟨p, hp, rfl⟩ := List.mem_map.1 h
  rw [String.toList_ofList]
  exact notMem_of_mem_segmentsOf hp

/-- A text without dots is one segment. -/
theorem segments_of_notMem (h : '.' ∉ s.toList) : segments s = [s] := by
  simp [segments, segmentsOf_eq_splitOn, List.splitOn_eq_singleton h]

theorem length_segments_eq_one : (segments s).length = 1 ↔ '.' ∉ s.toList := by
  constructor
  · intro h
    obtain ⟨t, ht⟩ := List.length_eq_one_iff.1 h
    have hmem : t ∈ segments s := by simp [ht]
    -- a segment without neighbours is the whole text
    have heq : t = s := by simpa [ht] using intercalate_segments s
    exact heq ▸ notMem_of_mem_segments hmem
  · intro h
    rw [segments_of_notMem h, List.length_singleton]

/-! ### Leads -/

theorem afterLead?_eq_some {lead : List Char} :
    afterLead? lead s = some t ↔ s = String.ofList lead ++ t := by
  unfold afterLead?
  constructor
  · intro h
    obtain ⟨hlead, ht⟩ := Option.ite_none_right_eq_some.1 h
    obtain rfl := Option.some.inj ht
    obtain ⟨rest, hrest⟩ := List.isPrefixOf_iff_prefix.1 hlead
    rw [← String.toList_inj, ← hrest]
    simp
  · rintro rfl
    simp

theorem afterLead?_eq_none {lead : List Char} : afterLead? lead s = none ↔ ¬ lead <+: s.toList := by
  simp [afterLead?]

end Text

namespace Path

/-! ### Ways of reading -/

theorem partsOf_eq_nil {rest : String} : partsOf rest = [] ↔ rest = "" := by
  unfold partsOf
  split
  · simp_all
  · simp_all [Text.segments_ne_nil]

theorem intercalate_partsOf (rest : String) : ".".intercalate (partsOf rest) = rest := by
  unfold partsOf
  split
  · simp_all
  · exact Text.intercalate_segments rest

theorem notMem_of_mem_partsOf {rest part : String} (h : part ∈ partsOf rest) :
    '.' ∉ part.toList := by
  unfold partsOf at h
  split at h
  · exact absurd h List.not_mem_nil
  · exact Text.notMem_of_mem_segments h

theorem partsOf_name {s : String} (hne : s ≠ "") (hdot : '.' ∉ s.toList) : partsOf s = [s] := by
  rw [partsOf, if_neg hne, Text.segments_of_notMem hdot]

theorem length_partsOf_eq_one {rest : String} :
    (partsOf rest).length = 1 ↔ rest ≠ "" ∧ '.' ∉ rest.toList := by
  unfold partsOf
  split
  · simp_all
  · simp_all [Text.length_segments_eq_one]

/-- The ways in which a text is read, and the path at `loc` that it gives. -/
inductive Reading (loc : Span) : String → Path → Prop
  | argument (rest : String) :
      Reading loc ("@" ++ rest)
        { text := "@" ++ rest, isData := true, parts := partsOf rest, loc }
  | this : Reading loc "this" { text := "this", isThis := true, loc }
  | behindThis (rest : String) :
      Reading loc ("this." ++ rest)
        { text := "this." ++ rest, isThis := true, parts := partsOf rest, loc }
  | plain {s : String} : ¬ ['@'] <+: s.toList → s ≠ "this" → ¬ "this.".toList <+: s.toList →
      Reading loc s { text := s, parts := partsOf s, loc }

theorem reading_ofText (s : String) (loc : Span) : Reading loc s (ofText s loc) := by
  unfold ofText
  split
  case h_1 rest hrest =>
    obtain rfl := Text.afterLead?_eq_some.1 hrest
    exact .argument rest
  case h_2 hdata =>
    split
    case isTrue hthis =>
      subst hthis
      exact .this
    case isFalse hthis =>
      split
      case h_1 rest hrest =>
        obtain rfl := Text.afterLead?_eq_some.1 hrest
        exact .behindThis rest
      case h_2 hbehind =>
        exact .plain (Text.afterLead?_eq_none.1 hdata) hthis (Text.afterLead?_eq_none.1 hbehind)

variable {s : String} {p : Path} {loc : Span} {scope : Scope}

/-! ### What a reading records -/

/-- What comes before the segments. A dot sets `this` off from them. -/
def lead (p : Path) : String :=
  if p.isData then "@"
  else if p.isThis then if p.parts = [] then "this" else "this."
  else ""

/-- The text that a path spells by its lead and its segments. -/
def spelling (p : Path) : String := p.lead ++ ".".intercalate p.parts

namespace Reading

theorem text_eq (h : Reading loc s p) : p.text = s := by cases h <;> rfl

theorem loc_eq (h : Reading loc s p) : p.loc = loc := by cases h <;> rfl

theorem isData_iff (h : Reading loc s p) : p.isData ↔ ['@'] <+: s.toList := by
  cases h with
  | argument rest | this | behindThis rest => simp
  | plain hdata hthis hbehind => simp [hdata]

theorem isThis_iff (h : Reading loc s p) :
    p.isThis ↔ s = "this" ∨ "this.".toList <+: s.toList := by
  cases h with
  | argument rest => simp [← String.toList_inj]
  | this | behindThis rest => simp
  | plain hdata hthis hbehind => simpa [hthis] using hbehind

/-- A path starts at one lead at most. -/
theorem not_both (h : Reading loc s p) : ¬ (p.isThis ∧ p.isData) := by cases h <;> simp

/-- A name is read as itself. -/
theorem eq_name (h : Reading loc s p) (hne : s ≠ "") (hthis : s ≠ "this")
    (hdata : ¬ ['@'] <+: s.toList) (hdot : '.' ∉ s.toList) :
    p = { text := s, parts := [s], loc } := by
  cases h with
  | argument rest => exact absurd (by simp) hdata
  | this => exact absurd rfl hthis
  | behindThis rest => exact absurd (by simp) hdot
  | plain => rw [partsOf_name hne hdot]

theorem notMem_of_mem (h : Reading loc s p) {part : String} (hpart : part ∈ p.parts) :
    '.' ∉ part.toList := by
  cases h with
  | argument rest | behindThis rest | plain => exact notMem_of_mem_partsOf hpart
  | this => exact absurd hpart List.not_mem_nil

/-- **The text is spelled** by what its reading records, but for the dot of `this.`. -/
theorem spelling_eq_iff (h : Reading loc s p) : p.spelling = s ↔ s ≠ "this." := by
  cases h with
  | argument rest =>
    have hne : "@" ++ rest ≠ "this." := by
      intro heq
      simpa using congrArg (List.head? ∘ String.toList) heq
    simp [spelling, lead, intercalate_partsOf, hne]
  | this => simp [spelling, lead]
  | behindThis rest =>
    simp only [spelling, lead, partsOf_eq_nil, intercalate_partsOf]
    by_cases hrest : rest = ""
    · -- no segment follows, so no dot is written
      simp [hrest]
    · simp [hrest]
  | plain hdata hthis hbehind =>
    have hne : s ≠ "this." := by
      rintro rfl
      exact hbehind List.prefix_rfl
    simp [spelling, lead, intercalate_partsOf, hne]

end Reading

/-! ### Simple paths -/

/-- A path that is more or less than one name is not simple. -/
theorem isSimple_of_not_name (h : p.isData ∨ p.isThis ∨ p.parts.length ≠ 1) :
    p.isSimple scope = .ok false := by
  unfold isSimple head?
  match hparts : p.parts with
  | [] => rfl
  | [part] =>
    have hlead : p.isData ∨ p.isThis := by simpa [hparts] using h
    rcases hlead with hlead | hlead <;> simp [hlead]
  | part :: next :: rest => simp

/-- A path that is one name is simple where the name is free. -/
theorem isSimple_name (s : String) (loc : Span) (scope : Scope) :
    isSimple { text := s, parts := [s], loc } scope = .ok (!scope.isLocal s false) := by
  unfold isSimple
  cases h : scope.isLocal s false <;> simp [head?, h]

/-- Asking whether a path is one free name is asking this about the text that it was read from. -/
theorem Reading.isSimple_eq_ok (h : Reading loc s p) (scope : Scope) :
    ∃ simple, p.isSimple scope = .ok simple ∧
      (simple = true ↔ s ≠ "" ∧ s ≠ "this" ∧ ¬ ['@'] <+: s.toList ∧ '.' ∉ s.toList ∧
        ∀ f ∈ scope.frames, s ∉ f.blockParams) := by
  cases h with
  | argument rest => exact ⟨false, isSimple_of_not_name (.inl rfl), by simp⟩
  | this => exact ⟨false, isSimple_of_not_name (.inr (.inl rfl)), by simp⟩
  | behindThis rest => exact ⟨false, isSimple_of_not_name (.inr (.inl rfl)), by simp⟩
  | plain hdata hthis hbehind =>
    by_cases hname : s ≠ "" ∧ '.' ∉ s.toList
    · obtain ⟨hne, hdot⟩ := hname
      rw [partsOf_name hne hdot]
      refine ⟨!scope.isLocal s false, isSimple_name s loc scope, ?_⟩
      simp [Scope.isLocal, hne, hthis, hdata, hdot]
    · have hlength : (partsOf s).length ≠ 1 := mt length_partsOf_eq_one.1 hname
      refine ⟨false, isSimple_of_not_name (.inr (.inr hlength)), ?_⟩
      simp only [Bool.false_eq_true, false_iff]
      rintro ⟨hne, -, -, hdot, -⟩
      exact hname ⟨hne, hdot⟩

@[simp] theorem ofText_text (s : String) (loc : Span) : (ofText s loc).text = s :=
  (reading_ofText s loc).text_eq

@[simp] theorem ofText_loc (s : String) (loc : Span) : (ofText s loc).loc = loc :=
  (reading_ofText s loc).loc_eq

/-- **A path agrees with the text that it was read from.** Its lead is that of the text, its
segments hold no dots, and together they spell the text, `this.` apart. Asking whether it is one
free name does not fail, and is asking this about the text. -/
theorem ofText_consistent (s : String) (loc : Span) :
    let p := ofText s loc
    p.text = s ∧
      (p.isData ↔ ['@'] <+: s.toList) ∧ (p.isThis ↔ s = "this" ∨ "this.".toList <+: s.toList) ∧
      ¬ (p.isThis ∧ p.isData) ∧
      (p.spelling = s ↔ s ≠ "this.") ∧ (∀ part ∈ p.parts, '.' ∉ part.toList) ∧
      ∀ scope : Scope, ∃ simple, p.isSimple scope = .ok simple ∧
        (simple = true ↔ s ≠ "" ∧ s ≠ "this" ∧ ¬ ['@'] <+: s.toList ∧ '.' ∉ s.toList ∧
          ∀ f ∈ scope.frames, s ∉ f.blockParams) := by
  intro p
  have hread : Reading loc s p := reading_ofText s loc
  exact ⟨hread.text_eq, hread.isData_iff, hread.isThis_iff, hread.not_both, hread.spelling_eq_iff,
    fun _ hpart => hread.notMem_of_mem hpart, hread.isSimple_eq_ok⟩

example : (ofText "this." {}).parts = [] ∧ (ofText "@.a." {}).parts = ["", "a", ""] := by decide

end Path

end TemplateBlocks
