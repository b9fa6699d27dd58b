import Mathlib.Logic.Relation
import TemplateBlocks.Desugar
import TemplateBlocks.Proofs.Calls
import TemplateBlocks.Proofs.Invocation.Fanned

/-!
# Entering nodes

What takes the place of an element, a mustache or a call when it is entered, and what is left when
nothing does. `Settled enter x` says that `x` stays; `settle_eq_ok` says that settling leads from
replacement to replacement to a node that stays.
-/

namespace TemplateBlocks

/-! ### Settling -/

section Settle

variable {α : Type} [DecidableEq α] {kind : String} {enter : α → BuildM Unit (Option α)}
  {rounds : Nat} {x y : α}

/-- Entering `x` puts `y` in its place. -/
def Becomes (enter : α → BuildM Unit (Option α)) (x y : α) : Prop :=
  outcome (enter x) = .ok (some y)

/-- Entering `x` leaves it in its place. -/
def Settled (enter : α → BuildM Unit (Option α)) (x : α) : Prop :=
  outcome (enter x) = .ok none ∨ Becomes enter x x

theorem settle_of_settled (h : Settled enter x) :
    outcome (settle kind enter (rounds + 1) x) = .ok x := by
  unfold settle
  rcases h with h | h
  · rw [outcome_bind, h]
    rfl
  · rw [outcome_bind, show outcome (enter x) = .ok (some x) from h]
    simp

theorem settle_of_becomes (h : Becomes enter x y) (hne : y ≠ x) :
    outcome (settle kind enter (rounds + 1) x) = outcome (settle kind enter rounds y) := by
  rw [settle, outcome_bind, show outcome (enter x) = .ok (some y) from h]
  simp [hne]

/-- **Settling leads to a node that stays**, by one replacement after the other. -/
theorem settle_eq_ok (h : outcome (settle kind enter rounds x) = .ok y) :
    Settled enter y ∧ Relation.ReflTransGen (Becomes enter) x y := by
  induction rounds generalizing x with
  | zero => simp [settle] at h
  | succ rounds ih =>
    rw [settle, outcome_bind] at h
    obtain ⟨next, hnext, h⟩ := bind_eq_ok.1 h
    cases next with
    | none =>
      cases h
      exact ⟨.inl hnext, .refl⟩
    | some z =>
      by_cases hz : z = x
      · subst hz
        simp only [if_true, outcome_pure, Except.ok.injEq] at h
        subst h
        exact ⟨.inr hnext, .refl⟩
      · simp only [hz, if_false] at h
        obtain ⟨hs, hz⟩ := ih h
        exact ⟨hs, .head hnext hz⟩

/-- **Settling fails** where a replacement is refused, or when it does not come to an end. -/
theorem settle_eq_error {d : Diagnostic} (h : outcome (settle kind enter rounds x) = .error d) :
    d = (Defect.diverged kind roundLimit).report ∨
      ∃ y, Relation.ReflTransGen (Becomes enter) x y ∧ outcome (enter y) = .error d := by
  induction rounds generalizing x with
  | zero =>
    cases h
    exact .inl rfl
  | succ rounds ih =>
    rw [settle, outcome_bind] at h
    cases hnext : outcome (enter x) with
    | error e =>
      rw [hnext] at h
      cases h
      exact .inr ⟨x, .refl, hnext⟩
    | ok next =>
      rw [hnext, ok_bind] at h
      cases next with
      | none => cases h
      | some z =>
        by_cases hz : z = x
        · simp [hz] at h
        · simp only [hz, if_false] at h
          rcases ih h with hd | ⟨y, hy, hd⟩
          · exact .inl hd
          · exact .inr ⟨y, .head hnext hy, hd⟩

end Settle

/-! ### Elements -/

namespace Element

variable {e e' : Element} {scope : Scope}

/-- The element has nothing to desugar: it is self-closing and empty, or neither it nor a child of
it has a tag of the form `:name`, and only a component invocation binds params. -/
def IsPlain (e : Element) (scope : Scope) : Prop :=
  (e.selfClosing = true ∧ e.blockParams = [] ∧ e.children = []) ∨
  (e.selfClosing = false ∧ e.blockName? = none ∧
    (∀ c, .element c ∈ e.children → c.blockName? = none) ∧
    (e.isComponent scope false = true ∨ e.blockParams = []))

/-- What becomes of an element that is not self-closing: its children decide if it is an
invocation, and may declare no block otherwise. -/
theorem enter_open_eq_ok {r : Option Element} (ho : e.selfClosing = false) :
    outcome (e.enter scope .standard) = .ok r ↔ e.blockName? = none ∧
      ∃ blocks, e.namedBlocks = .ok blocks ∧
        (if e.isComponent scope false then
          if blocks = [] then r = none
          else ∃ e', outcome (e.fanOut .standard blocks) = .ok e' ∧ r = some e'
        else e.blockParams = [] ∧ blocks = [] ∧ r = none) := by
  have hcomponent : ∀ blocks : List Element,
      (outcome (if blocks.isEmpty then pure none
        else do return some (← e.fanOut .standard blocks)) = .ok r ↔
      if blocks = [] then r = none
      else ∃ e', outcome (e.fanOut .standard blocks) = .ok e' ∧ r = some e') := by
    intro blocks
    cases blocks with
    | nil => simp [eq_comm]
    | cons b bs =>
      rw [if_neg (by simp), if_neg (by simp), outcome_bind, bind_eq_ok]
      exact exists_congr fun e' => and_congr_right fun _ => by simp [eq_comm]
  unfold enter
  simp only [ho, Bool.false_eq_true, if_false]
  rw [outcome_bind, outcome_check, bind_eq_ok, ← isDeclaration_eq_false]
  constructor
  · rintro ⟨declares, hd, h⟩
    rw [outcome_bind, outcome_check, obey_bind_eq_ok] at h
    obtain ⟨hnot, h⟩ := h
    rw [outcome_bind, outcome_check, bind_eq_ok] at h
    obtain ⟨blocks, hblocks, h⟩ := h
    obtain rfl : declares = false := by simpa using hnot
    refine ⟨hd, blocks, hblocks, ?_⟩
    split at h
    · rw [if_pos ‹_›]
      exact (hcomponent blocks).1 h
    · rw [if_neg ‹_›]
      rw [outcome_bind, outcome_check, obey_bind_eq_ok, List.isEmpty_iff] at h
      cases blocks with
      | nil => simpa [eq_comm] using h
      | cons b bs => simp at h
  · rintro ⟨hname, blocks, hblocks, h⟩
    refine ⟨false, hname, ?_⟩
    rw [outcome_bind, outcome_check, obey_bind_eq_ok]
    refine ⟨rfl, ?_⟩
    rw [outcome_bind, outcome_check, hblocks, ok_bind]
    split at h
    · rw [if_pos ‹_›]
      exact (hcomponent blocks).2 h
    · rw [if_neg ‹_›]
      obtain ⟨hparams, rfl, rfl⟩ := h
      simp [hparams]

theorem enter_selfClosing_eq_ok {r : Option Element} (hc : e.selfClosing = true) :
    outcome (e.enter scope .standard) = .ok r ↔
      e.blockParams = [] ∧ e.children = [] ∧ r = none := by
  unfold enter
  simp only [hc, if_true, outcome_bind, outcome_check, obey_bind_eq_ok, List.isEmpty_iff,
    outcome_pure, Except.ok.injEq]
  rw [eq_comm (a := r)]

/-- **An element that stays** is one with nothing to desugar. -/
theorem enter_eq_none : outcome (e.enter scope .standard) = .ok none ↔ e.IsPlain scope := by
  unfold IsPlain
  cases hc : e.selfClosing with
  | true => simp [enter_selfClosing_eq_ok hc]
  | false =>
    rw [enter_open_eq_ok hc]
    simp only [Bool.false_eq_true, false_and, false_or, true_and]
    refine and_congr_right fun _ => ?_
    rw [← namedBlocks_eq_nil]
    cases hcomp : e.isComponent scope false <;> simp [and_comm]

/-- A fanned-out invocation has nothing left to desugar. -/
theorem isPlain_fanned {first : Element} {rest : List Element} (hname : e.blockName? = none)
    (hcomp : e.isComponent scope false = true) : (e.fanned first rest).IsPlain scope :=
  .inr ⟨rfl, hname, by simp [fanned], .inl hcomp⟩

/-- **An element that is replaced** is an invocation that passes named blocks. -/
theorem becomes_iff : Becomes (fun e : Element => e.enter scope .standard) e e' ↔
    e.selfClosing = false ∧ e.blockName? = none ∧ e.isComponent scope false = true ∧
      ∃ blocks, e.namedBlocks = .ok blocks ∧ blocks ≠ [] ∧
        outcome (e.fanOut .standard blocks) = .ok e' := by
  unfold Becomes
  cases hc : e.selfClosing with
  | true => simp [enter_selfClosing_eq_ok hc]
  | false =>
    rw [enter_open_eq_ok hc]
    simp only [true_and]
    refine and_congr_right fun _ => ?_
    cases hcomp : e.isComponent scope false with
    | true => simp +contextual
    | false => simp

end Element

/-! ### Calls -/

namespace SubExpr

variable {c c' : SubExpr} {scope : Scope}

theorem outcome_enter (c : SubExpr) (scope : Scope) : outcome (c.enter scope .standard) =
    match BlockQuery.ofPath? c.path.text with
    | some query => some <$> outcome (c.desugarQuery query scope .standard)
    | none => .ok none := by
  unfold enter
  cases BlockQuery.ofPath? c.path.text <;> simp

/-- **A call that is replaced** is a query. -/
theorem becomes_iff : Becomes (fun c : SubExpr => c.enter scope .standard) c c' ↔
    ∃ query block, BlockQuery.ofPath? c.path.text = some query ∧
      IsQuery c.path c.params c.hash scope block ∧ c' = c.answered query block := by
  unfold Becomes
  rw [outcome_enter]
  cases BlockQuery.ofPath? c.path.text with
  | none => simp
  | some query => simp [map_eq_ok, desugarQuery_eq_ok]

/-- **A call stays** exactly when it is no query. -/
theorem settled_iff :
    Settled (fun c : SubExpr => c.enter scope .standard) c ↔
      BlockQuery.ofPath? c.path.text = none := by
  constructor
  · rintro (h | h)
    · rw [outcome_enter] at h
      cases hq : BlockQuery.ofPath? c.path.text with
      | none => rfl
      | some query => simp [hq, map_eq_ok] at h
    · obtain ⟨query, block, -, -, heq⟩ := becomes_iff.1 h
      rw [heq, answered, Path.ofText_text]
      exact ofPath?_helper query
  · intro h
    left
    simp [outcome_enter, h]

end SubExpr

namespace Mustache

variable {m m' : Mustache} {scope : Scope}

theorem outcome_enter (m : Mustache) (scope : Scope) : outcome (m.enter scope .standard) =
    match m.path with
    | .path p =>
      if p.text = Names.yieldKeyword then outcome (m.desugarYield scope .standard)
      else
        match BlockQuery.ofPath? p.text with
        | some query => some <$> outcome (m.desugarQuery query scope .standard)
        | none => .ok none
    | _ => .ok none := by
  unfold enter
  cases m.path with
  | path p =>
    simp only
    split
    · rfl
    · cases BlockQuery.ofPath? p.text <;> simp
  | _ => rfl

/-- **A mustache that is replaced** is a yield to a target or a query. -/
theorem becomes_iff : Becomes (fun m : Mustache => m.enter scope .standard) m m' ↔
    ∃ p, m.path = .path p ∧
      ((p.text = Names.yieldKeyword ∧ p.isSimple scope = .ok true ∧ ∃ target loc,
        m.hash.pairs = [⟨Names.targetKey, .string target, loc⟩] ∧
        (IsInverseName target.value → m.params = []) ∧ m' = m.yieldTo target) ∨
      (p.text ≠ Names.yieldKeyword ∧ ∃ query block, BlockQuery.ofPath? p.text = some query ∧
        IsQuery p m.params m.hash scope block ∧ m' = m.answered p query block)) := by
  unfold Becomes
  rw [outcome_enter]
  cases hpath : m.path with
  | path p =>
    by_cases hy : p.text = Names.yieldKeyword
    · simp [hy, hpath, desugarYield_eq_ok]
    · cases hq : BlockQuery.ofPath? p.text with
      | none => simp [hy, hq]
      | some query => simp [hy, hq, hpath, map_eq_ok, desugarQuery_eq_ok]
  | _ => simp

end Mustache

end TemplateBlocks
