import TemplateBlocks.Declaration
import TemplateBlocks.Proofs.Checks

/-!
# Declarations among children

What `Element.gather` and `Element.namedBlocks` collect. `AreDeclared blocks` says that the blocks
are well-formed declarations of distinct names; it holds of the blocks at every step of gathering,
and so of the blocks that an element declares. An element declares no block exactly when no child
of it has a tag of the form `:name` (`namedBlocks_eq_nil`).
-/

namespace TemplateBlocks

/-! ### Checks -/

@[simp] theorem obey_true (m : Misuse) (span : Span) : obey true m span = .ok () := rfl

@[simp] theorem obey_false (m : Misuse) (span : Span) :
    obey false m span = .error (m.report span) :=
  rfl

theorem obey_bind_eq_ok {β : Type} {kept : Bool} {m : Misuse} {span : Span}
    {f : Unit → Except Diagnostic β} {b : β} :
    obey kept m span >>= f = .ok b ↔ kept = true ∧ f () = .ok b := by
  cases kept <;> simp

namespace Element

variable {e : Element}

/-! ### One declaration -/

theorem isDeclaration_eq_false : e.isDeclaration = .ok false ↔ e.blockName? = none := by
  unfold isDeclaration
  cases h : e.blockName? with
  | none => simp
  | some name => simp [obey_bind_eq_ok]

theorem isDeclaration_eq_true : e.isDeclaration = .ok true ↔ ∃ name, e.blockName? = some name ∧
    isValidBlockName name ∧ e.selfClosing = false ∧ e.attributes = [] ∧ e.modifiers = [] := by
  unfold isDeclaration
  cases h : e.blockName? with
  | none => simp
  | some name => simp [obey_bind_eq_ok]

theorem blockName?_of_isDeclaration (h : e.isDeclaration = .ok true) :
    e.blockName? = some e.blockName := by
  obtain ⟨name, hn, -⟩ := isDeclaration_eq_true.1 h
  simp [blockName, hn]

end Element

namespace Statement

theorem declaration?_eq_none {s : Statement} :
    s.declaration? = .ok none ↔ ∀ c, s = .element c → c.blockName? = none := by
  cases s with
  | element e =>
    simp only [declaration?, bind_eq_ok, Statement.element.injEq, forall_eq']
    constructor
    · rintro ⟨b, hb, h⟩
      cases b with
      | true => simp at h
      | false => exact Element.isDeclaration_eq_false.1 hb
    · intro h
      exact ⟨false, Element.isDeclaration_eq_false.2 h, rfl⟩
  | _ => simp [declaration?]

theorem declaration?_eq_some {s : Statement} {block : Element} :
    s.declaration? = .ok (some block) ↔ s = .element block ∧ block.isDeclaration = .ok true := by
  cases s with
  | element e =>
    simp only [declaration?, bind_eq_ok, Statement.element.injEq]
    constructor
    · rintro ⟨b, hb, h⟩
      cases b with
      | true =>
        simp only [if_true, pure_eq_ok, Except.ok.injEq, Option.some.injEq] at h
        subst h
        exact ⟨rfl, hb⟩
      | false => simp at h
    · rintro ⟨rfl, h⟩
      exact ⟨true, h, rfl⟩
  | _ => simp [declaration?]

theorem not_element_of_isIgnorable {s : Statement} (h : s.isIgnorable) (c : Element) :
    s ≠ .element c := by
  rintro rfl
  simp [isIgnorable] at h

end Statement

namespace Element

variable {e : Element} {tag : String} {blocks bs : List Element} {loose : Option Span}
  {ss : List Statement}

/-! ### Gathering -/

/-- Well-formed declarations of distinct names. -/
def AreDeclared (blocks : List Element) : Prop :=
  (∀ b ∈ blocks, b.isDeclaration = .ok true) ∧ (blocks.map blockName).Nodup

theorem AreDeclared.concat {block : Element} (hb : AreDeclared blocks)
    (hd : block.isDeclaration = .ok true) (hnew : ∀ b ∈ blocks, b.blockName ≠ block.blockName) :
    AreDeclared (blocks ++ [block]) := by
  refine ⟨?_, ?_⟩
  · intro b hmem
    rcases List.mem_append.1 hmem with hmem | hmem
    · exact hb.1 b hmem
    · rwa [List.mem_singleton.1 hmem]
  · rw [List.map_append, List.nodup_append]
    refine ⟨hb.2, by simp, ?_⟩
    intro x hx y hy hxy
    obtain ⟨b, hbmem, rfl⟩ := List.mem_map.1 hx
    simp only [List.map_cons, List.map_nil, List.mem_singleton] at hy
    exact hnew b hbmem (hxy.trans hy)

/-- **Gathering adds declarations among the statements to those at hand**, and keeps their names
distinct. -/
theorem gather_spec (h : gather tag blocks loose ss = .ok bs) (hb : AreDeclared blocks) :
    AreDeclared bs ∧ ∃ new, bs = blocks ++ new ∧ (new.map Statement.element).Sublist ss := by
  fun_induction gather tag blocks loose ss with
  | case1 blocks loose =>
    cases h
    exact ⟨hb, [], by simp, by simp⟩
  | case2 blocks loose s rest hs ih =>
    obtain ⟨h1, new, h2, h3⟩ := ih h hb
    exact ⟨h1, new, h2, h3.cons s⟩
  | case3 => cases h
  | case4 blocks loose s rest hs hd hempty ih =>
    obtain ⟨h1, new, h2, h3⟩ := ih h hb
    exact ⟨h1, new, h2, h3.cons s⟩
  | case5 => cases h
  | case6 => cases h
  | case7 => cases h
  | case8 blocks s rest hs block hd hnew ih =>
    obtain ⟨rfl, hdecl⟩ := Statement.declaration?_eq_some.1 hd
    have hfresh : ∀ b ∈ blocks, b.blockName ≠ block.blockName := by simpa using hnew
    obtain ⟨h1, new, rfl, h3⟩ := ih h (hb.concat hdecl hfresh)
    exact ⟨h1, block :: new, by simp, h3.cons_cons _⟩

/-- Gathering finds nothing exactly when there is nothing of the form `:name` to find. -/
theorem gather_eq_nil : gather tag [] loose ss = .ok [] ↔
    ∀ c, .element c ∈ ss → c.blockName? = none := by
  induction ss generalizing loose with
  | nil => simp [gather]
  | cons s rest ih =>
    unfold gather
    by_cases hs : s.isIgnorable
    · have hne := Statement.not_element_of_isIgnorable hs
      simp only [hs, if_true, ih, List.mem_cons]
      exact ⟨fun h c hc => h c (hc.resolve_left fun heq => hne c heq.symm),
        fun h c hc => h c (.inr hc)⟩
    simp only [hs, Bool.false_eq_true, if_false]
    cases hd : s.declaration? with
    | error d =>
      simp only [reduceCtorEq, List.mem_cons, false_iff]
      intro h
      rw [Statement.declaration?_eq_none.2 fun c hc => h c (.inl hc.symm)] at hd
      cases hd
    | ok found =>
      cases found with
      | none =>
        have hnone := Statement.declaration?_eq_none.1 hd
        simp only [List.isEmpty_nil, if_true, ih, List.mem_cons]
        exact ⟨fun h c hc => hc.elim (fun heq => hnone c heq.symm) (h c),
          fun h c hc => h c (.inr hc)⟩
      | some block =>
        obtain ⟨rfl, hdecl⟩ := Statement.declaration?_eq_some.1 hd
        refine iff_of_false ?_ fun h => ?_
        · cases loose with
          | some first => simp
          | none =>
            intro h
            have hblock : AreDeclared [block] := ⟨by simpa using hdecl, by simp⟩
            -- a declaration that is found stays found
            obtain ⟨-, new, hkept, -⟩ := gather_spec (by simpa using h) hblock
            simp at hkept
        · have := h block (by simp)
          rw [blockName?_of_isDeclaration hdecl] at this
          cases this

/-- Gathering judges every element that it comes by. -/
theorem isDeclaration_of_gather {c : Element} (h : gather tag blocks loose ss = .ok bs)
    (hc : .element c ∈ ss) : ∃ declares, c.isDeclaration = .ok declares := by
  have hjudged {s : Statement} {found : Option Element} (hd : s.declaration? = .ok found)
      (hs : .element c = s) : ∃ declares, c.isDeclaration = .ok declares := by
    subst hs
    obtain ⟨declares, hdeclares, -⟩ := bind_eq_ok.1 hd
    exact ⟨declares, hdeclares⟩
  fun_induction gather tag blocks loose ss with
  | case1 => simp at hc
  | case2 blocks loose s rest hs ih =>
    have hne := Statement.not_element_of_isIgnorable hs
    exact ih h ((List.mem_cons.1 hc).resolve_left fun heq => hne c heq.symm)
  | case3 => cases h
  | case4 blocks loose s rest hs hd hempty ih =>
    exact (List.mem_cons.1 hc).elim (hjudged hd) (ih h)
  | case5 => cases h
  | case6 => cases h
  | case7 => cases h
  | case8 blocks s rest hs block hd hnew ih =>
    exact (List.mem_cons.1 hc).elim (hjudged hd) (ih h)

/-- Nothing is declared after other content. -/
theorem gather_loose {first : Span} (h : gather tag [] (some first) ss = .ok bs) : bs = [] := by
  induction ss with
  | nil =>
    cases h
    rfl
  | cons s rest ih =>
    unfold gather at h
    split at h
    · exact ih h
    · cases hd : s.declaration? with
      | error d => simp [hd] at h
      | ok found =>
        cases found with
        | none => exact ih (by simpa [hd] using h)
        | some block => simp [hd] at h

/-- **Declarations stand among themselves**: where one is gathered, all statements are declarations
but for those that are ignored, and they are gathered in their order. -/
theorem map_element_of_gather (h : gather tag blocks loose ss = .ok bs) (hne : bs ≠ []) :
    bs.map Statement.element =
      blocks.map Statement.element ++ ss.filter fun s => !s.isIgnorable := by
  fun_induction gather tag blocks loose ss with
  | case1 =>
    cases h
    simp
  | case2 blocks loose s rest hs ih => simpa [hs] using ih h
  | case3 => cases h
  | case4 blocks loose s rest _ _ hempty =>
    -- other content comes first, so nothing is gathered
    obtain rfl := List.isEmpty_iff.1 hempty
    cases loose <;> exact absurd (gather_loose h) hne
  | case5 => cases h
  | case6 => cases h
  | case7 => cases h
  | case8 blocks s rest hs block hd _ ih =>
    obtain ⟨rfl, -⟩ := Statement.declaration?_eq_some.1 hd
    simpa [hs] using ih h

/-! ### The blocks of an element -/

theorem refuseInverse_eq_ok : refuseInverse blocks = .ok () ↔ ∀ b ∈ blocks, ¬ b.isInverse := by
  unfold refuseInverse
  cases h : blocks.find? isInverse with
  | none => simpa using h
  | some b =>
    have hb := List.find?_some h
    have hmem := List.mem_of_find?_eq_some h
    simp only [obey_bind_eq_ok, reduceCtorEq, and_false, false_iff]
    exact fun hall => hall b hmem hb

theorem namedBlocks_eq_ok : e.namedBlocks = .ok bs ↔
    gather e.tag [] none e.children = .ok bs ∧ refuseInverse bs = .ok () := by
  unfold namedBlocks
  constructor
  · intro h
    obtain ⟨blocks, hg, h⟩ := bind_eq_ok.1 h
    obtain ⟨u, hr, h⟩ := bind_eq_ok.1 h
    cases h
    exact ⟨hg, hr⟩
  · rintro ⟨hg, hr⟩
    rw [hg, ok_bind, hr]
    rfl

theorem areDeclared_of_namedBlocks (h : e.namedBlocks = .ok bs) : AreDeclared bs := by
  obtain ⟨hg, -⟩ := namedBlocks_eq_ok.1 h
  exact (gather_spec hg ⟨by simp, by simp⟩).1

theorem sublist_of_namedBlocks (h : e.namedBlocks = .ok bs) :
    (bs.map Statement.element).Sublist e.children := by
  obtain ⟨hg, -⟩ := namedBlocks_eq_ok.1 h
  obtain ⟨-, new, rfl, hsub⟩ := gather_spec hg ⟨by simp, by simp⟩
  simpa using hsub

theorem isDeclaration_of_namedBlocks {c : Element} (h : e.namedBlocks = .ok bs)
    (hc : .element c ∈ e.children) : ∃ declares, c.isDeclaration = .ok declares :=
  isDeclaration_of_gather (namedBlocks_eq_ok.1 h).1 hc

theorem map_element_of_namedBlocks (h : e.namedBlocks = .ok bs) (hne : bs ≠ []) :
    bs.map Statement.element = e.children.filter fun s => !s.isIgnorable := by
  simpa using map_element_of_gather (namedBlocks_eq_ok.1 h).1 hne

theorem mem_of_namedBlocks {s : Statement} (h : e.namedBlocks = .ok bs) (hne : bs ≠ [])
    (hs : s ∈ e.children) : s.isIgnorable ∨ ∃ block ∈ bs, s = .element block := by
  by_cases hi : s.isIgnorable
  · exact .inl hi
  · right
    have hmem : s ∈ bs.map Statement.element := by
      rw [map_element_of_namedBlocks h hne]
      exact List.mem_filter.2 ⟨hs, by simp [hi]⟩
    obtain ⟨block, hb, rfl⟩ := List.mem_map.1 hmem
    exact ⟨block, hb, rfl⟩

/-- **An element declares no block** exactly when no child of it has a tag of the form `:name`. -/
theorem namedBlocks_eq_nil :
    e.namedBlocks = .ok [] ↔ ∀ c, .element c ∈ e.children → c.blockName? = none := by
  rw [namedBlocks_eq_ok, gather_eq_nil]
  simp [refuseInverse]

end Element

end TemplateBlocks
