import TemplateBlocks.Proofs.Json.Fields
import TemplateBlocks.Tree.Decode
import TemplateBlocks.Tree.Encode

/-!
# Documents that say the same

A document says the same in any order of the fields of its objects, and without the fields that
hold their default. `Loosened j j'` says that `j'` comes from `j` in this way; `default?` lists the
defaults. A field that is left out is judged by what it held in `j`, so that it makes no difference
whether anything was left out inside of it before.

What a reader needs to know of an object is not where its fields stand but what it finds under
their names: `Reads fields fs` says that among the fields `fs` it finds a loosened value, or nothing
where there is a default, for each of `fields`. From it follow the values that are read for
required, optional and repeated fields.
-/

namespace TemplateBlocks

/-! ### Defaults -/

/-- Whether an object with these fields is a path. -/
def spellsPath (fields : List (String × Json)) : Bool := fields.any fun f => f.1 == "original"

/-- What a field holds that is left out of an object with these fields, where it may be. The
segments of a path may be left out, the pieces of a composed attribute value may not. -/
def default? (fields : List (String × Json)) : (key : String) → Option Json
  | "loc" => some (Span.toJson {})
  | "start" | "end" => some (Position.toJson {})
  | "hash" => some (Hash.toJson {})
  | "params" | "pairs" | "blockParams" | "attributes" | "modifiers" | "children" | "comments" =>
    some (.arr [])
  | "parts" => if spellsPath fields then some (.arr []) else none
  | "this" | "data" | "trusting" | "chained" | "selfClosing" => some (.bool false)
  | "inverse" => some .null
  | _ => none

theorem default?_parts (fields : List (String × Json)) :
    default? fields "parts" = if spellsPath fields then some (.arr []) else none := rfl

/-! ### Loosening -/

/-- Neither an array nor an object. -/
def Json.isLeaf : Json → Bool
  | .arr _ => false
  | .obj _ => false
  | _ => true

mutual
/-- The second document is the first one, up to the order of fields and to fields that are left out
because they hold their default. -/
inductive Loosened : Json → Json → Prop
  | leaf {j : Json} : j.isLeaf → Loosened j j
  | arr {items items' : List Json} : LoosenedItems items items' →
      Loosened (.arr items) (.arr items')
  | obj {fields kept fields' : List (String × Json)} : LoosenedFields fields fields kept →
      kept.Perm fields' → Loosened (.obj fields) (.obj fields')
/-- The items of an array, each loosened. -/
inductive LoosenedItems : List Json → List Json → Prop
  | nil : LoosenedItems [] []
  | cons {j j' : Json} {js js' : List Json} : Loosened j j' → LoosenedItems js js' →
      LoosenedItems (j :: js) (j' :: js')
/-- Some fields of an object that has all of the first list, each loosened or left out. -/
inductive LoosenedFields :
    List (String × Json) → List (String × Json) → List (String × Json) → Prop
  | nil {all : List (String × Json)} : LoosenedFields all [] []
  | keep {all fields kept : List (String × Json)} {key : String} {j j' : Json} : Loosened j j' →
      LoosenedFields all fields kept → LoosenedFields all ((key, j) :: fields) ((key, j') :: kept)
  | drop {all fields kept : List (String × Json)} {key : String} {j : Json} :
      default? all key = some j → LoosenedFields all fields kept →
      LoosenedFields all ((key, j) :: fields) kept
end

mutual
/-- A document is its own loosened form. -/
theorem Loosened.refl : (j : Json) → Loosened j j
  | .null => .leaf rfl
  | .bool _ => .leaf rfl
  | .int _ => .leaf rfl
  | .real _ => .leaf rfl
  | .str _ => .leaf rfl
  | .illegible => .leaf rfl
  | .arr items => .arr (LoosenedItems.refl items)
  | .obj fields => .obj (LoosenedFields.refl fields fields) (List.Perm.refl _)
theorem LoosenedItems.refl : (items : List Json) → LoosenedItems items items
  | [] => .nil
  | j :: js => .cons (Loosened.refl j) (LoosenedItems.refl js)
theorem LoosenedFields.refl (all : List (String × Json)) :
    (fields : List (String × Json)) → LoosenedFields all fields fields
  | [] => .nil
  | (_, j) :: fs => .keep (Loosened.refl j) (LoosenedFields.refl all fs)
end

mutual
/-- Nothing becomes illegible. -/
theorem Loosened.isLegible {j j' : Json} : Loosened j j' → j.isLegible → j'.isLegible
  | .leaf _, h => h
  | .arr hitems, h => Json.isLegible_arr.2 (hitems.isLegible (Json.isLegible_arr.1 h))
  | .obj hfields hperm, h => by
    have hkept := hfields.isLegible (Json.isLegible_obj.1 h)
    exact Json.isLegible_obj.2 fun f hf => hkept f (hperm.mem_iff.2 hf)
theorem LoosenedItems.isLegible {js js' : List Json} : LoosenedItems js js' →
    (∀ j ∈ js, j.isLegible) → ∀ j ∈ js', j.isLegible
  | .nil, h => h
  | .cons hj hjs, h => by
    rw [List.forall_mem_cons] at h ⊢
    exact ⟨hj.isLegible h.1, hjs.isLegible h.2⟩
theorem LoosenedFields.isLegible {all fields kept : List (String × Json)} :
    LoosenedFields all fields kept → (∀ f ∈ fields, f.2.isLegible) → ∀ f ∈ kept, f.2.isLegible
  | .nil, h => h
  | .keep hj hfs, h => by
    rw [List.forall_mem_cons] at h ⊢
    exact ⟨hj.isLegible h.1, hfs.isLegible h.2⟩
  | .drop _ hfs, h => hfs.isLegible (List.forall_mem_cons.1 h).2
end

theorem LoosenedItems.forall₂ {js js' : List Json} (h : LoosenedItems js js') :
    List.Forall₂ Loosened js js' := by
  induction js generalizing js' with
  | nil =>
    cases h
    exact .nil
  | cons j js ih =>
    cases h with
    | cons hj hjs => exact .cons hj (ih hjs)

theorem LoosenedFields.keys_sublist {all fields kept : List (String × Json)}
    (h : LoosenedFields all fields kept) :
    (kept.map Prod.fst).Sublist (fields.map Prod.fst) := by
  induction fields generalizing kept with
  | nil =>
    cases h
    exact .slnil
  | cons f fs ih =>
    cases h with
    | keep _ hfs => exact (ih hfs).cons_cons _
    | drop _ hfs => exact (ih hfs).cons _

/-- **Each field is kept or holds its default.** -/
theorem LoosenedFields.kept_or_default {all fields kept : List (String × Json)} {key : String}
    {j : Json} (h : LoosenedFields all fields kept) (hnodup : (fields.map Prod.fst).Nodup)
    (hmem : (key, j) ∈ fields) :
    (∃ j', (key, j') ∈ kept ∧ Loosened j j') ∨
      (key ∉ kept.map Prod.fst ∧ default? all key = some j) := by
  induction fields generalizing kept with
  | nil => simp at hmem
  | cons f fs ih =>
    rw [List.map_cons, List.nodup_cons] at hnodup
    obtain ⟨hf, hfs⟩ := hnodup
    cases h with
    | keep hj hrest =>
      rcases List.mem_cons.1 hmem with heq | hlater
      · cases heq
        exact .inl ⟨_, List.mem_cons_self, hj⟩
      · rcases ih hrest hfs hlater with ⟨j', hj', hl⟩ | ⟨hkey, hd⟩
        · exact .inl ⟨j', List.mem_cons_of_mem _ hj', hl⟩
        · refine .inr ⟨?_, hd⟩
          rw [List.map_cons, List.mem_cons, not_or]
          refine ⟨?_, hkey⟩
          rintro rfl
          exact hf (List.mem_map.2 ⟨_, hlater, rfl⟩)
    | drop hd hrest =>
      rcases List.mem_cons.1 hmem with heq | hlater
      · cases heq
        exact .inr ⟨fun hkey => hf (hrest.keys_sublist.subset hkey), hd⟩
      · exact ih hrest hfs hlater

/-! ### What is read -/

/-- Among the fields `fs` there is a loosened value under the name of each of `fields`, nested less
deep than `depth`, or nothing if it may be left out. There is nothing else but a `type`. -/
structure Reads (fields fs : List (String × Json)) (depth : Nat) : Prop where
  present {key : String} {j : Json} : (key, j) ∈ fields →
    (∃ j', Json.lookup? fs key = some (some j') ∧ Loosened j j' ∧ j'.depth < depth) ∨
      (Json.lookup? fs key = some none ∧ default? fields key = some j)
  absent {key : String} : key ∉ fields.map Prod.fst → key ≠ "type" →
    Json.lookup? fs key = some none

/-- **What is read of a loosened object.** -/
theorem Loosened.reads {fields : List (String × Json)} {j : Json}
    (h : Loosened (.obj fields) j) (hnodup : (fields.map Prod.fst).Nodup) :
    ∃ fs, j = .obj fs ∧ Reads fields fs j.depth := by
  cases h with
  | leaf h => cases h
  | @obj _ kept fs hfields hperm =>
    have hkeys : (kept.map Prod.fst).Nodup := hnodup.sublist hfields.keys_sublist
    have hnodup' : (fs.map Prod.fst).Nodup := (hperm.map _).nodup_iff.1 hkeys
    refine ⟨fs, rfl, ?_, ?_⟩
    · intro key j hmem
      rcases hfields.kept_or_default hnodup hmem with ⟨j', hj', hl⟩ | ⟨hkey, hd⟩
      · have hmem' : (key, j') ∈ fs := hperm.mem_iff.1 hj'
        exact .inl ⟨j', Json.lookup?_of_mem hnodup' hmem', hl, Json.depth_lt_of_mem_obj hmem'⟩
      · refine .inr ⟨Json.lookup?_of_notMem fun hfs => hkey ?_, hd⟩
        exact (hperm.map _).mem_iff.2 hfs
    · intro key hkey _
      refine Json.lookup?_of_notMem fun hfs => hkey ?_
      exact hfields.keys_sublist.subset ((hperm.map _).mem_iff.2 hfs)

theorem default?_tagged (type : Json) (fields : List (String × Json)) (key : String) :
    default? (("type", type) :: fields) key = default? fields key := by
  have hpath : spellsPath (("type", type) :: fields) = spellsPath fields := by simp [spellsPath]
  unfold default?
  rw [hpath]

theorem Loosened.depth_pos {type : String} {fields : List (String × Json)} {j : Json}
    (h : Loosened (tagged type fields) j) : 0 < j.depth := by
  cases h with
  | leaf h => cases h
  | obj _ _ =>
    rw [Json.depth]
    omega

/-- **What is read of a loosened node with a `type`.** -/
theorem Loosened.reads_tagged {type : String} {fields : List (String × Json)} {j : Json}
    (h : Loosened (tagged type fields) j) (hnodup : ("type" :: fields.map Prod.fst).Nodup)
    {p : Json.Place} (hp : p.admits j) (kinds : List String) :
    ∃ fs, tagged? kinds p j = some (type, fs) ∧ Reads fields fs j.depth := by
  obtain ⟨fs, rfl, hpresent, habsent⟩ := h.reads hnodup
  refine ⟨fs, ?_, ?_, ?_⟩
  · rcases hpresent (List.mem_cons_self) with ⟨j', hj', hl, -⟩ | ⟨-, hd⟩
    · cases hl
      have hkind : kindName? kinds p (.str type) = some type := by
        cases p <;> rfl
      simp [tagged?, hp, Json.fields?, Json.required?, hj', hkind]
    · cases hd
  · intro key j hmem
    have := hpresent (List.mem_cons_of_mem _ hmem)
    rwa [default?_tagged] at this
  · intro key hkey hne
    refine habsent ?_ hne
    rw [List.map_cons, List.mem_cons, not_or]
    exact ⟨hne, hkey⟩

/-! ### Fields -/

theorem mapM_loosened {α : Type} {encode : α → Json} {decode : Json → Option α} {xs : List α}
    {items : List Json} (h : List.Forall₂ Loosened (xs.map encode) items)
    (hdecode : ∀ x ∈ xs, ∀ j ∈ items, Loosened (encode x) j → decode j = some x) :
    items.mapM decode = some xs := by
  induction xs generalizing items with
  | nil =>
    cases h
    rfl
  | cons x xs ih =>
    cases h with
    | @cons _ j _ js hj hjs =>
      have hx : decode j = some x := hdecode x (by simp) j (by simp) hj
      have hxs : js.mapM decode = some xs :=
        ih hjs fun y hy i hi => hdecode y (by simp [hy]) i (by simp [hi])
      simp [List.mapM_cons, hx, hxs]

/-- The items of a loosened array, each of which nests less deep by one. -/
theorem items?_loosened {α : Type} {encode : α → Json} {decode : Json → Option α} {xs : List α}
    {j : Json} {depth : Nat} (h : Loosened (.arr (xs.map encode)) j) (hdepth : j.depth < depth)
    (hdecode : ∀ x ∈ xs, ∀ i, Loosened (encode x) i → i.depth + 1 < depth → decode i = some x) :
    Json.items? decode j = some xs := by
  cases h with
  | leaf h => cases h
  | arr hitems =>
    refine mapM_loosened hitems.forall₂ fun x hx i hi hl => hdecode x hx i hl ?_
    have := Json.depth_lt_of_mem_arr hi
    omega

theorem string?_loosened {s : String} {j : Json} (h : Loosened (.str s) j) :
    Json.string? j = some s := by
  cases h
  rfl

theorem bool?_loosened {b : Bool} {j : Json} (h : Loosened (.bool b) j) :
    Json.bool? j = some b := by
  cases h
  rfl

theorem number?_loosened {x : Binary64} (hx : x.isFinite) {j : Json} (h : Loosened (.real x) j) :
    Json.number? j = some x := by
  cases h
  simp [Json.number?, hx]

theorem word?_loosened {w : UInt32} {j : Json} (h : Loosened (.int w.toNat) j) :
    Json.word? j = some w := by
  cases h
  exact Json.word?_toNat w

namespace Reads

variable {fields fs : List (String × Json)} {depth : Nat} {α : Type} {key : String} {j : Json}

/-- A field that may not be left out. -/
theorem required (h : Reads fields fs depth) (hmem : (key, j) ∈ fields)
    (hnone : default? fields key = none) {decode : Json → Option α} {a : α}
    (hdecode : ∀ j', Loosened j j' → j'.depth < depth → decode j' = some a) :
    Json.required? fs key decode = some a := by
  rcases h.present hmem with ⟨j', hj', hl, hd⟩ | ⟨-, hd⟩
  · simp [Json.required?, hj', hdecode j' hl hd]
  · rw [hnone] at hd
    cases hd

/-- A field that may be left out, if it holds the default. -/
theorem defaulted (h : Reads fields fs depth) (hmem : (key, j) ∈ fields)
    {decode : Json → Option α} {a dflt : α} (hdefault : default? fields key = some j → a = dflt)
    (hdecode : ∀ j', Loosened j j' → j'.depth < depth → decode j' = some a) :
    Json.defaulted? fs key dflt decode = some a := by
  rcases h.present hmem with ⟨j', hj', hl, hd⟩ | ⟨hj, hd⟩
  · simp [Json.defaulted?, hj', hdecode j' hl hd]
  · simp [Json.defaulted?, hj, hdefault hd]

/-- A field that holds null says as much as none. -/
theorem nullable_none (h : Reads fields fs depth) (hmem : (key, .null) ∈ fields)
    (decode : Json → Option α) : Json.nullable? fs key decode = some none := by
  rcases h.present hmem with ⟨j', hj', hl, -⟩ | ⟨hj, -⟩
  · cases hl
    simp [Json.nullable?, hj']
  · simp [Json.nullable?, hj]

theorem nullable_some (h : Reads fields fs depth) (hmem : (key, j) ∈ fields)
    (hdefault : default? fields key ≠ some j) {decode : Json → Option α} {a : α}
    (hdecode : ∀ j', Loosened j j' → j'.depth < depth → j' ≠ .null ∧ decode j' = some a) :
    Json.nullable? fs key decode = some (some a) := by
  rcases h.present hmem with ⟨j', hj', hl, hd⟩ | ⟨-, hd⟩
  · obtain ⟨hne, ha⟩ := hdecode j' hl hd
    cases j' with
    | null => exact absurd rfl hne
    | _ => simp [Json.nullable?, hj', ha]
  · exact absurd hd hdefault

theorem word (h : Reads fields fs depth) {w : UInt32} (hmem : (key, .int w.toNat) ∈ fields)
    (hnone : default? fields key = none) : Json.required? fs key Json.word? = some w :=
  h.required hmem hnone fun _ hl _ => word?_loosened hl

theorem string (h : Reads fields fs depth) {s : String} (hmem : (key, .str s) ∈ fields)
    (hnone : default? fields key = none) : Json.required? fs key Json.string? = some s :=
  h.required hmem hnone fun _ hl _ => string?_loosened hl

theorem flag (h : Reads fields fs depth) {b : Bool} (hmem : (key, .bool b) ∈ fields)
    (hoff : default? fields key = some (.bool false)) : flagField? fs key = some b := by
  refine h.defaulted hmem ?_ fun _ hl _ => bool?_loosened hl
  intro hb
  rw [hoff] at hb
  cases hb
  rfl

theorem items (h : Reads fields fs depth) (encode : α → Json) {decode : Json → Option α}
    {xs : List α} (hmem : (key, .arr (xs.map encode)) ∈ fields)
    (hnone : default? fields key = none)
    (hdecode : ∀ x ∈ xs, ∀ i, Loosened (encode x) i → i.depth + 1 < depth → decode i = some x) :
    Json.required? fs key (Json.items? decode) = some xs :=
  h.required hmem hnone fun _ hl hd => items?_loosened hl hd hdecode

theorem list (h : Reads fields fs depth) (encode : α → Json) {decode : Json → Option α}
    {xs : List α} (hmem : (key, .arr (xs.map encode)) ∈ fields)
    (hempty : default? fields key = some (.arr []))
    (hdecode : ∀ x ∈ xs, ∀ i, Loosened (encode x) i → i.depth + 1 < depth → decode i = some x) :
    listField? fs key decode = some xs := by
  refine h.defaulted hmem ?_ fun _ hl hd => items?_loosened hl hd hdecode
  intro hxs
  rw [hempty] at hxs
  simpa using hxs.symm

theorem strings (h : Reads fields fs depth) {ss : List String}
    (hmem : (key, stringsToJson ss) ∈ fields) (hempty : default? fields key = some (.arr [])) :
    listField? fs key Json.string? = some ss :=
  h.list .str hmem hempty fun _ _ _ hl _ => string?_loosened hl

/-- The origin of a node, which is left out for nodes of the source anyway. -/
theorem origin {base : List (String × Json)} {o : Origin} (h : Reads (base ++ o.field) fs depth)
    (hbase : "origin" ∉ base.map Prod.fst) (p : Json.Place) : originField? p fs = some o := by
  cases o with
  | source =>
    have hkey : "origin" ∉ (base ++ Origin.source.field).map Prod.fst := by
      simpa [Origin.field] using hbase
    simp [originField?, Json.defaulted?, h.absent hkey (by decide)]
  | synthetic =>
    have hmem : ("origin", .str "synthetic") ∈ base ++ Origin.synthetic.field := by
      simp [Origin.field]
    refine h.defaulted hmem ?_ ?_
    · rintro ⟨⟩
    · intro j' hl _
      cases hl
      rfl

end Reads

end TemplateBlocks
