import Mathlib.Data.List.Induction
import TemplateBlocks.Render.Session

/-!
# Values inside values

Arrays and hashes hold values, which may hold others. A *place* leads into a value, one item or
entry after the other; `Value.at?` is what stands there. The parts of an array or a hash that an
operand names are named by the parts of the operand (`part?_eval`). Equal values have equal values
at the same places (`exists_at?_of_same`).
-/

namespace TemplateBlocks

/-! ### Entries -/

namespace Entries

variable {α β : Type}

theorem get?_cons (e : String × α) (es : List (String × α)) (key : String) :
    get? (e :: es) key = if key = e.1 then some e.2 else get? es key := by
  unfold get?
  rw [List.lookup_cons]
  by_cases hkey : key = e.1
  · simp [hkey]
  · have hne : (key == e.1) = false := by simpa using hkey
    simp [hkey, hne]

theorem get?_put (key other : String) (value : α) (es : List (String × α)) :
    get? (put key value es) other = if other = key then some value else get? es other := by
  induction es with
  | nil => rw [put, get?_cons]
  | cons e es ih =>
    by_cases hkey : e.1 = key
    · rw [put, if_pos hkey, get?_cons, get?_cons, hkey]
      split <;> rfl
    · rw [put, if_neg hkey, get?_cons, get?_cons, ih]
      by_cases hother : other = key
      · rw [if_pos hother, if_pos hother, if_neg (hother ▸ Ne.symm hkey)]
      · rw [if_neg hother, if_neg hother]

theorem ofList_concat (pairs : List (String × α)) (p : String × α) :
    ofList (pairs ++ [p]) = put p.1 p.2 (ofList pairs) := by
  simp [ofList]

/-- **The last value under a key counts.** -/
theorem get?_ofList (pairs : List (String × α)) (key : String) :
    get? (ofList pairs) key = get? pairs.reverse key := by
  induction pairs using List.reverseRecOn with
  | nil => rfl
  | append_singleton pairs p ih =>
    rw [ofList_concat, get?_put, ih, List.reverse_concat, get?_cons]

theorem put_ne_nil (key : String) (value : α) (es : List (String × α)) : put key value es ≠ [] := by
  cases es with
  | nil => simp [put]
  | cons e es =>
    rw [put]
    split <;> simp

theorem ofList_eq_nil {pairs : List (String × α)} : ofList pairs = [] ↔ pairs = [] := by
  induction pairs using List.reverseRecOn with
  | nil => simp [ofList]
  | append_singleton pairs p ih => simp [ofList_concat, put_ne_nil]

theorem get?_map_snd (f : α → β) (es : List (String × α)) (key : String) :
    get? (es.map fun e => (e.1, f e.2)) key = (get? es key).map f := by
  induction es with
  | nil => rfl
  | cons e es ih =>
    rw [List.map_cons, get?_cons, get?_cons, ih]
    split <;> rfl

theorem mem_of_get? {es : List (String × α)} {key : String} {value : α}
    (h : get? es key = some value) : (key, value) ∈ es := by
  obtain ⟨front, back, rfl, -⟩ := List.lookup_eq_some_iff.1 h
  simp

end Entries

/-! ### Places in values -/

namespace Value

/-- One step into a value: to an item of an array, or to the value under a key of a hash. -/
inductive Index where
  | item (i : Nat)
  | entry (key : String)
  deriving DecidableEq

/-- The value one step into a value. -/
def part? : Value → Index → Option Value
  | .array items, .item i => items[i]?
  | .hash entries, .entry key => Entries.get? entries key
  | _, _ => none

/-- The value at a place inside a value. -/
def at? (v : Value) : (place : List Index) → Option Value
  | [] => some v
  | i :: place => (v.part? i).bind fun w => w.at? place

/-- The value is neither an array nor a hash nor a marker. -/
def isFlat : Value → Bool
  | .array _ => false
  | .hash _ => false
  | .marker _ => false
  | _ => true

/-- Neither the value nor what is inside of it is a marker. -/
def HoldsNoMarker (v : Value) : Prop := ∀ place m, v.at? place ≠ some (.marker m)

theorem holdsNoMarker_of_isFlat {v : Value} (h : v.isFlat) : v.HoldsNoMarker := by
  intro place m hm
  cases place with
  | nil =>
    cases hm
    cases h
  | cons i place => cases v <;> simp [at?, part?, isFlat] at hm h

/-! ### Equal values -/

theorem exists_of_sameItems {xs ys : List Value} (h : sameItems xs ys) {i : Nat} {x : Value}
    (hx : xs[i]? = some x) : ∃ y, ys[i]? = some y ∧ x.same y := by
  induction xs generalizing ys i with
  | nil => simp at hx
  | cons z zs ih =>
    cases ys with
    | nil => simp [sameItems] at h
    | cons w ws =>
      rw [sameItems, Bool.and_eq_true] at h
      cases i with
      | zero =>
        obtain rfl : z = x := by simpa using hx
        exact ⟨w, rfl, h.1⟩
      | succ i => exact ih h.2 (by simpa using hx)

theorem exists_of_sameEntries {es fs : List (String × Value)} (h : sameEntries es fs)
    {key : String} {x : Value} (hx : Entries.get? es key = some x) :
    ∃ y, Entries.get? fs key = some y ∧ x.same y := by
  induction es with
  | nil => simp [Entries.get?] at hx
  | cons e es ih =>
    obtain ⟨k, z⟩ := e
    rw [sameEntries, Bool.and_eq_true] at h
    rw [Entries.get?_cons] at hx
    split at hx
    next hkey =>
      cases hx
      cases hget : Entries.get? fs k with
      | none => simp [hget] at h
      | some y =>
        rw [hget] at h
        exact ⟨y, hkey ▸ hget, h.1⟩
    next => exact ih h.2 hx

theorem exists_part?_of_same {v w x : Value} {i : Index} (h : v.same w) (hx : v.part? i = some x) :
    ∃ y, w.part? i = some y ∧ x.same y := by
  cases i with
  | item i =>
    cases v with
    | array xs =>
      cases w with
      | array ys => exact exists_of_sameItems (by simpa [same] using h) hx
      | _ => simp [same] at h
    | _ => simp [part?] at hx
  | entry key =>
    cases v with
    | hash es =>
      cases w with
      | hash fs =>
        rw [same, Bool.and_eq_true] at h
        exact exists_of_sameEntries h.2 hx
      | _ => simp [same] at h
    | _ => simp [part?] at hx

/-- **Equal values have equal values at the same places.** -/
theorem exists_at?_of_same {v w x : Value} {place : List Index} (h : v.same w)
    (hx : v.at? place = some x) : ∃ y, w.at? place = some y ∧ x.same y := by
  induction place generalizing v w with
  | nil =>
    cases hx
    exact ⟨w, rfl, h⟩
  | cons i place ih =>
    obtain ⟨v', hv, hx⟩ := Option.bind_eq_some_iff.1 hx
    obtain ⟨w', hw, hsame⟩ := exists_part?_of_same h hv
    obtain ⟨y, hy, hxy⟩ := ih hsame hx
    exact ⟨y, by simp [at?, hw, hy], hxy⟩

end Value

/-! ### Places in operands -/

namespace Operand

/-- The operand one step into an array or a hash of operands. The last entry under a key counts. -/
def part? : Operand → Value.Index → Option Operand
  | .array items, .item i => items[i]?
  | .hash entries, .entry key => Entries.get? entries.reverse key
  | _, _ => none

/-- No marker is written down in the operand: markers come from registers only. -/
inductive IsPlain : Operand → Prop
  | value {v : Value} : v.HoldsNoMarker → IsPlain (.value v)
  | register (i : Nat) : IsPlain (.register i)
  | array {items : List Operand} : (∀ o ∈ items, IsPlain o) → IsPlain (.array items)
  | hash {entries : List (String × Operand)} : (∀ e ∈ entries, IsPlain e.2) →
      IsPlain (.hash entries)

theorem mem_of_part?_array {items : List Operand} {i : Value.Index} {o : Operand}
    (h : (Operand.array items).part? i = some o) : o ∈ items := by
  cases i with
  | item i => exact List.mem_of_getElem? h
  | entry key => simp [part?] at h

theorem mem_of_part?_hash {entries : List (String × Operand)} {i : Value.Index} {o : Operand}
    (h : (Operand.hash entries).part? i = some o) : ∃ key, (key, o) ∈ entries := by
  cases i with
  | item i => simp [part?] at h
  | entry key => exact ⟨key, List.mem_reverse.1 (Entries.mem_of_get? h)⟩

end Operand

namespace Session

variable (registers : List Value)

theorem evalItems_eq_map (items : List Operand) :
    evalItems registers items = items.map (eval registers) := by
  induction items with
  | nil => rfl
  | cons o os ih => rw [evalItems, ih, List.map_cons]

theorem evalEntries_eq_map (entries : List (String × Operand)) :
    evalEntries registers entries = entries.map fun e => (e.1, eval registers e.2) := by
  induction entries with
  | nil => rfl
  | cons e es ih => rw [evalEntries, ih, List.map_cons]

theorem part?_eval_array (items : List Operand) (i : Value.Index) :
    (eval registers (.array items)).part? i =
      ((Operand.array items).part? i).map (eval registers) := by
  cases i with
  | item i => simp [eval, evalItems_eq_map, Value.part?, Operand.part?]
  | entry key => rfl

theorem part?_eval_hash (entries : List (String × Operand)) (i : Value.Index) :
    (eval registers (.hash entries)).part? i =
      ((Operand.hash entries).part? i).map (eval registers) := by
  cases i with
  | item i => rfl
  | entry key =>
    rw [eval, Value.part?, Entries.get?_ofList, evalEntries_eq_map, ← List.map_reverse,
      Entries.get?_map_snd]
    rfl

/-- **The parts of an operand name the parts of its value.** -/
theorem part?_eval {o o' : Operand} {i : Value.Index} (h : o.part? i = some o') :
    (eval registers o).part? i = some (eval registers o') := by
  cases o with
  | array items => rw [part?_eval_array, h, Option.map_some]
  | hash entries => rw [part?_eval_hash, h, Option.map_some]
  | _ => simp [Operand.part?] at h

end Session

end TemplateBlocks
