import Mathlib.Data.List.Forall2
import Mathlib.Data.List.Nodup
import RadioDriver.Json.Canonical
import RadioDriver.Proofs.Json.Distinct

namespace RadioDriver

namespace Text

theorem unitsLe_cons (x y : Nat) (a b : List Nat) :
    unitsLe (x :: a) (y :: b) = true ↔ x < y ∨ x = y ∧ unitsLe a b = true := by
  simp [unitsLe]

theorem unitsLe_total (a b : List Nat) : unitsLe a b = true ∨ unitsLe b a = true := by
  induction a generalizing b with
  | nil => exact .inl rfl
  | cons x a ih =>
    cases b with
    | nil => exact .inr rfl
    | cons y b =>
      have hrest := ih b
      rw [unitsLe_cons, unitsLe_cons]
      grind

theorem unitsLe_trans {a b c : List Nat} (h : unitsLe a b = true) (h' : unitsLe b c = true) :
    unitsLe a c = true := by
  induction a generalizing b c with
  | nil => rfl
  | cons x a ih =>
    cases b with
    | nil => cases h
    | cons y b =>
      cases c with
      | nil => cases h'
      | cons z c =>
        rw [unitsLe_cons] at h h' ⊢
        have hrest := @ih b c
        grind

theorem unitsLe_antisymm {a b : List Nat} (h : unitsLe a b = true) (h' : unitsLe b a = true) :
    a = b := by
  induction a generalizing b with
  | nil =>
    cases b with
    | nil => rfl
    | cons y b => cases h'
  | cons x a ih =>
    cases b with
    | nil => cases h
    | cons y b =>
      rw [unitsLe_cons] at h h'
      have hrest := @ih b
      grind

theorem unitsOf_append_inj {c d : Char} {a b : List Nat} (h : unitsOf c ++ a = unitsOf d ++ b) :
    c = d ∧ a = b := by
  have hc : c.toNat < 0xD800 ∨ 0xDFFF < c.toNat ∧ c.toNat < 0x110000 := c.valid
  have hd : d.toNat < 0xD800 ∨ 0xDFFF < d.toNat ∧ d.toNat < 0x110000 := d.valid
  rw [← Char.toNat_inj]
  unfold unitsOf at h
  dsimp only at h
  split at h <;> split at h <;>
    simp only [List.cons_append, List.nil_append, List.cons.injEq] at h <;> grind

theorem units_injective {s t : String} (h : units s = units t) : s = t := by
  have hchars : ∀ cs ds : List Char, cs.flatMap unitsOf = ds.flatMap unitsOf → cs = ds := by
    intro cs
    induction cs with
    | nil =>
      intro ds hds
      cases ds with
      | nil => rfl
      | cons d ds =>
        simp only [List.flatMap_nil, List.flatMap_cons, unitsOf] at hds
        split at hds <;> cases hds
    | cons c cs ih =>
      intro ds hds
      cases ds with
      | nil =>
        simp only [List.flatMap_nil, List.flatMap_cons, unitsOf] at hds
        split at hds <;> cases hds
      | cons d ds =>
        obtain ⟨hcd, hrest⟩ := unitsOf_append_inj hds
        rw [hcd, ih ds hrest]
  exact String.toList_inj.mp (hchars _ _ h)

theorem leByUnits_antisymm {s t : String} (h : leByUnits s t = true) (h' : leByUnits t s = true) :
    s = t := units_injective (unitsLe_antisymm h h')

end Text

namespace Json

section
variable {α : Type} {fields others : List (String × α)}

theorem sortedByName_perm (fields : List (String × α)) : (sortedByName fields).Perm fields :=
  List.mergeSort_perm _ _

theorem sortedByName_pairwise (fields : List (String × α)) :
    (sortedByName fields).Pairwise fun a b => Text.leByUnits a.1 b.1 = true := by
  apply List.pairwise_mergeSort
  · intro a b c
    exact Text.unitsLe_trans
  · intro a b
    rw [Bool.or_eq_true]
    exact Text.unitsLe_total _ _

theorem sortedByName_eq_of_perm (h : fields.Perm others) (hnodup : (Fields.names others).Nodup) :
    sortedByName fields = sortedByName others := by
  apply List.Perm.eq_of_pairwise _ (sortedByName_pairwise fields) (sortedByName_pairwise others)
  · exact (sortedByName_perm fields).trans (h.trans (sortedByName_perm others).symm)
  · intro a b ha hb hab hba
    have ha' : a ∈ others := h.mem_iff.mp ((sortedByName_perm fields).mem_iff.mp ha)
    have hb' : b ∈ others := (sortedByName_perm others).mem_iff.mp hb
    exact List.inj_on_of_nodup_map hnodup ha' hb' (Text.leByUnits_antisymm hab hba)

end

/-- Equal up to the order of fields and the spelling of numbers. -/
inductive Alike : Json → Json → Prop
  | null : Alike .null .null
  | bool (b : Bool) : Alike (.bool b) (.bool b)
  /-- Numbers are alike when they have one canonical form, as `1` and `1.0` have. -/
  | number {m n : Number}
    (h : Layout.canonical.render m.toDouble = Layout.canonical.render n.toDouble) :
    Alike (.number m) (.number n)
  | string (s : String) : Alike (.string s) (.string s)
  /-- Items keep their order. -/
  | array {items others : List Json} (hlength : items.length = others.length)
    (h : ∀ v w, (v, w) ∈ items.zip others → Alike v w) : Alike (.array items) (.array others)
  /-- The fields have the same names in any order, and each name leads to alike values. -/
  | object {fields others : Fields Json}
    (hnames : (Fields.names fields).Perm (Fields.names others))
    (h : ∀ name v w, (name, v) ∈ fields → (name, w) ∈ others → Alike v w) :
    Alike (.object fields) (.object others)

theorem canonicalItems_eq_map (items : List Json) :
    canonicalItems items = items.map canonicalChars := by
  induction items with
  | nil => rfl
  | cons v rest ih => rw [canonicalItems, ih, List.map_cons]

theorem canonicalFields_eq_map (fields : Fields Json) :
    canonicalFields fields = fields.map fun f => (f.1, canonicalChars f.2) := by
  induction fields with
  | nil => rfl
  | cons f rest ih => rw [canonicalFields, ih, List.map_cons]

theorem names_canonicalFields (fields : Fields Json) :
    Fields.names (canonicalFields fields) = Fields.names fields := by
  simp [canonicalFields_eq_map, Fields.names]

/-- Fields of the same names, each with one form on both sides, are the same up to their order. -/
theorem canonicalFields_perm {fields others : Fields Json}
    (hnames : (Fields.names fields).Perm (Fields.names others))
    (hnodup : (Fields.names fields).Nodup) (hnodup' : (Fields.names others).Nodup)
    (h : ∀ name v w, (name, v) ∈ fields → (name, w) ∈ others →
      canonicalChars v = canonicalChars w) :
    (canonicalFields fields).Perm (canonicalFields others) := by
  rw [← names_canonicalFields] at hnodup hnodup'
  apply (List.perm_ext_iff_of_nodup hnodup.of_map hnodup'.of_map).mpr
  intro ⟨name, form⟩
  rw [canonicalFields_eq_map, canonicalFields_eq_map, List.mem_map, List.mem_map]
  constructor
  · rintro ⟨⟨_, v⟩, hmem, heq⟩
    cases heq
    obtain ⟨⟨_, w⟩, hmem', rfl⟩ := List.mem_map.mp (hnames.mem_iff.mp (List.mem_map_of_mem hmem))
    exact ⟨_, hmem', congrArg (Prod.mk _) (h _ v w hmem hmem').symm⟩
  · rintro ⟨⟨_, w⟩, hmem', heq⟩
    cases heq
    obtain ⟨⟨_, v⟩, hmem, rfl⟩ := List.mem_map.mp (hnames.mem_iff.mpr (List.mem_map_of_mem hmem'))
    exact ⟨_, hmem, congrArg (Prod.mk _) (h _ v w hmem hmem')⟩

theorem Alike.canonicalChars_eq {v w : Json} (h : Alike v w) (hv : distinct v = true)
    (hw : distinct w = true) : canonicalChars v = canonicalChars w := by
  induction h with
  | null => rfl
  | bool b => rfl
  | number h => exact String.ofList_injective h
  | string s => rfl
  | @array items others hlength h ih =>
    rw [distinct_array] at hv hw
    have hitems : items.map canonicalChars = others.map canonicalChars := by
      apply List.ext_getElem
      · simpa using hlength
      · intro i hi hi'
        rw [List.length_map] at hi hi'
        have hzip : i < (items.zip others).length := by
          rw [List.length_zip]
          omega
        have hpair : (items[i], others[i]) ∈ items.zip others := by
          rw [← List.getElem_zip]
          exact List.getElem_mem hzip
        simpa using ih _ _ hpair (hv _ (List.getElem_mem hi)) (hw _ (List.getElem_mem hi'))
    rw [canonicalChars, canonicalChars, canonicalItems_eq_map, canonicalItems_eq_map, hitems]
  | @object fields others hnames h ih =>
    rw [distinct_object] at hv hw
    have hforms : ∀ name v w, (name, v) ∈ fields → (name, w) ∈ others →
        canonicalChars v = canonicalChars w := fun name v w hmem hmem' =>
      ih name v w hmem hmem' (hv.2 _ hmem) (hw.2 _ hmem')
    have hnodup : (Fields.names (canonicalFields others)).Nodup := by
      rw [names_canonicalFields]
      exact hw.1
    rw [canonicalChars, canonicalChars,
      sortedByName_eq_of_perm (canonicalFields_perm hnames hv.1 hw.1 hforms) hnodup]

end Json

end RadioDriver
