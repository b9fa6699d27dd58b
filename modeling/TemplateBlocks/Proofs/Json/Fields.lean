import Mathlib.Data.List.Nodup
import TemplateBlocks.Json.Fields

/-!
# Fields and nesting

A field of an object without repetitions is found wherever it stands (`lookup?_of_mem`). What
stands in an array or an object is nested less deep than it, and as legible.
-/

namespace TemplateBlocks.Json

variable {key : String} {j : Json} {fields : List (String × Json)} {items : List Json}

/-! ### Fields by name -/

theorem filter_eq_nil_of_notMem (h : key ∉ fields.map Prod.fst) :
    fields.filter (fun f => f.1 == key) = [] := by
  rw [List.filter_eq_nil_iff]
  intro f hf hkey
  exact h (List.mem_map.2 ⟨f, hf, beq_iff_eq.1 hkey⟩)

theorem lookup?_of_notMem (h : key ∉ fields.map Prod.fst) : lookup? fields key = some none := by
  simp [lookup?, filter_eq_nil_of_notMem h]

/-- **A field that stands once is found**, wherever it stands. -/
theorem lookup?_of_mem (hnodup : (fields.map Prod.fst).Nodup) (h : (key, j) ∈ fields) :
    lookup? fields key = some (some j) := by
  have honly : fields.filter (fun f => f.1 == key) = [(key, j)] := by
    induction fields with
    | nil => simp at h
    | cons f fs ih =>
      rw [List.map_cons, List.nodup_cons] at hnodup
      obtain ⟨hf, hfs⟩ := hnodup
      rcases List.mem_cons.1 h with rfl | h
      · simp [filter_eq_nil_of_notMem hf]
      · have hne : f.1 ≠ key := by
          rintro rfl
          exact hf (List.mem_map.2 ⟨_, h, rfl⟩)
        simp [hne, ih hfs h]
  simp [lookup?, honly]

section Found

variable {α : Type} {decode : Json → Option α}

theorem required?_of_mem (hnodup : (fields.map Prod.fst).Nodup) (h : (key, j) ∈ fields) :
    required? fields key decode = decode j := by
  rw [required?, lookup?_of_mem hnodup h]

theorem defaulted?_of_mem {dflt : α} (hnodup : (fields.map Prod.fst).Nodup)
    (h : (key, j) ∈ fields) : defaulted? fields key dflt decode = decode j := by
  rw [defaulted?, lookup?_of_mem hnodup h]

/-- A value that may be missing, written as null then. -/
theorem nullable?_of_mem (encode : α → Json) {a : Option α}
    (hnodup : (fields.map Prod.fst).Nodup) (h : (key, (a.map encode).getD .null) ∈ fields)
    (hne : ∀ a, encode a ≠ .null) (hdecode : ∀ a, decode (encode a) = some a) :
    nullable? fields key decode = some a := by
  rw [nullable?, lookup?_of_mem hnodup h]
  cases a with
  | none => rfl
  | some a =>
    have hread := hdecode a
    cases hj : encode a with
    | null => exact absurd hj (hne a)
    | _ =>
      rw [hj] at hread
      simp [hj, hread]

end Found

theorem word?_toNat (w : UInt32) : word? (.int w.toNat) = some w := by
  have hlt : w.toNat < UInt32.size := w.toNat_lt
  change (if h : w.toNat < UInt32.size then some (UInt32.ofNatLT w.toNat h) else none) = some w
  rw [dif_pos hlt, UInt32.ofNatLT_toNat]

/-! ### Nesting -/

theorem depth_le_depthItems (h : j ∈ items) : j.depth ≤ depthItems items := by
  induction items with
  | nil => simp at h
  | cons i is ih =>
    rw [depthItems]
    rcases List.mem_cons.1 h with rfl | h
    · omega
    · have := ih h
      omega

theorem depth_le_depthFields (h : (key, j) ∈ fields) : j.depth ≤ depthFields fields := by
  induction fields with
  | nil => simp at h
  | cons f fs ih =>
    obtain ⟨k, i⟩ := f
    rw [depthFields]
    rcases List.mem_cons.1 h with heq | h
    · cases heq
      omega
    · have := ih h
      omega

theorem depth_lt_of_mem_arr (h : j ∈ items) : j.depth < (arr items).depth := by
  have := depth_le_depthItems h
  rw [depth]
  omega

theorem depth_lt_of_mem_obj (h : (key, j) ∈ fields) : j.depth < (obj fields).depth := by
  have := depth_le_depthFields h
  rw [depth]
  omega

/-! ### Legibility -/

@[simp] theorem isLegible_bool (b : Bool) : (bool b).isLegible = true := rfl

@[simp] theorem isLegible_str (s : String) : (str s).isLegible = true := rfl

theorem isLegible_arr : (arr items).isLegible ↔ ∀ j ∈ items, j.isLegible := by
  rw [isLegible]
  induction items with
  | nil => simp [legibleItems]
  | cons i is ih => simp [legibleItems, ih]

theorem isLegible_obj : (obj fields).isLegible ↔ ∀ f ∈ fields, f.2.isLegible := by
  rw [isLegible]
  induction fields with
  | nil => simp [legibleFields]
  | cons f fs ih => simp [legibleFields, ih]

theorem isLegible_arr_map {α : Type} {encode : α → Json} {xs : List α}
    (h : ∀ x ∈ xs, (encode x).isLegible) : (arr (xs.map encode)).isLegible :=
  isLegible_arr.2 (List.forall_mem_map.2 h)

end TemplateBlocks.Json
