import RadioDriver.Proofs.Json.Fields
import RadioDriver.Proofs.Path.Anchoring

namespace RadioDriver.Json

variable {p q r : String → Bool} {v w : Json} {value : Option Json} {fields others : Fields Json}
  {items : List Json} {name : String}

theorem allItemTexts_iff : allItemTexts p items = true ↔ ∀ v ∈ items, v.allTexts p = true := by
  induction items with
  | nil => simp [allItemTexts]
  | cons v rest ih => simp [allItemTexts, ih]

theorem allFieldTexts_iff :
    allFieldTexts p fields = true ↔ ∀ f ∈ fields, f.2.allTexts p = true := by
  induction fields with
  | nil => simp [allFieldTexts]
  | cons f rest ih => simp [allFieldTexts, ih]

theorem allTexts_string {s : String} : (Json.string s).allTexts p = true ↔ p s = true := Iff.rfl

theorem allTexts_array :
    (Json.array items).allTexts p = true ↔ ∀ v ∈ items, v.allTexts p = true := allItemTexts_iff

theorem allTexts_object : (Json.object fields).allTexts p = true ↔ allFieldTexts p fields = true :=
  Iff.rfl

mutual

theorem allTexts_mapTexts {f : String → String}
    (hf : ∀ s, p s = true → q s = true → r (f s) = true) :
    ∀ v : Json, v.allTexts p = true → v.allTexts q = true → (v.mapTexts f).allTexts r = true
  | .string s, hp, hq => hf s hp hq
  | .array items, hp, hq => allItemTexts_mapItemTexts hf items hp hq
  | .object fields, hp, hq => allFieldTexts_mapFieldTexts hf fields hp hq
  | .null, _, _ => rfl
  | .bool _, _, _ => rfl
  | .number _, _, _ => rfl

theorem allItemTexts_mapItemTexts {f : String → String}
    (hf : ∀ s, p s = true → q s = true → r (f s) = true) :
    ∀ items : List Json, allItemTexts p items = true → allItemTexts q items = true →
      allItemTexts r (mapItemTexts f items) = true
  | [], _, _ => rfl
  | v :: rest, hp, hq => by
    simp only [allItemTexts, Bool.and_eq_true] at hp hq
    rw [mapItemTexts, allItemTexts, allTexts_mapTexts hf v hp.1 hq.1,
      allItemTexts_mapItemTexts hf rest hp.2 hq.2]
    rfl

theorem allFieldTexts_mapFieldTexts {f : String → String}
    (hf : ∀ s, p s = true → q s = true → r (f s) = true) :
    ∀ fields : List (String × Json), allFieldTexts p fields = true →
      allFieldTexts q fields = true → allFieldTexts r (mapFieldTexts f fields) = true
  | [], _, _ => rfl
  | (k, v) :: rest, hp, hq => by
    simp only [allFieldTexts, Bool.and_eq_true] at hp hq
    rw [mapFieldTexts, allFieldTexts, allTexts_mapTexts hf v hp.1 hq.1,
      allFieldTexts_mapFieldTexts hf rest hp.2 hq.2]
    rfl

end

theorem mapItemTexts_eq_map (f : String → String) (items : List Json) :
    mapItemTexts f items = items.map (mapTexts f) := by
  induction items with
  | nil => rfl
  | cons v rest ih => rw [mapItemTexts, ih, List.map_cons]

theorem mapFieldTexts_eq_map (f : String → String) (fields : List (String × Json)) :
    mapFieldTexts f fields = fields.map fun g => (g.1, g.2.mapTexts f) := by
  induction fields with
  | nil => rfl
  | cons g rest ih => rw [mapFieldTexts, ih, List.map_cons]

theorem get?_mapFieldTexts (f : String → String) (fields : Fields Json) (name : String) :
    Fields.get? (mapFieldTexts f fields) name = (Fields.get? fields name).map (mapTexts f) := by
  induction fields with
  | nil => rfl
  | cons g rest ih =>
    rw [mapFieldTexts, Fields.get?, Fields.get?, ih]
    split <;> rfl

theorem allTexts_of_get? (h : allFieldTexts p fields = true)
    (hv : Fields.get? fields name = some v) : v.allTexts p = true :=
  allFieldTexts_iff.mp h _ (Fields.mem_of_get? hv)

theorem allFieldTexts_of_fields? (h : v.allTexts p = true) (hfields : v.fields? = some fields) :
    allFieldTexts p fields = true := by
  cases v with
  | object _ =>
    cases hfields
    exact h
  | _ => cases hfields

theorem allTexts_of_field? (h : v.allTexts p = true) (hw : v.field? name = some w) :
    w.allTexts p = true := by
  obtain ⟨fields, hfields, hw⟩ := Option.bind_eq_some_iff.mp hw
  exact allTexts_of_get? (allFieldTexts_of_fields? h hfields) hw

theorem allFieldTexts_getD (h : ∀ v, value = some v → v.allTexts p = true) :
    allFieldTexts p ((value.bind fields?).getD []) = true := by
  cases hfields : value.bind fields? with
  | none => rfl
  | some fields =>
    obtain ⟨v, hv, hfields⟩ := Option.bind_eq_some_iff.mp hfields
    exact allFieldTexts_of_fields? (h v hv) hfields

theorem allTexts_of_mem_getD (h : ∀ v, value = some v → v.allTexts p = true) :
    ∀ w ∈ (value.bind items?).getD [], w.allTexts p = true := by
  intro w hw
  cases value with
  | none => cases hw
  | some v =>
    cases v with
    | array items => exact allTexts_array.mp (h _ rfl) w hw
    | _ => cases hw

theorem allTexts_of_mem_asList (h : ∀ v, value = some v → v.allTexts p = true) :
    ∀ w ∈ asList value, w.allTexts p = true := by
  intro w hw
  cases value with
  | none => cases hw
  | some v =>
    have hv := h v rfl
    cases v with
    | null => cases hw
    | array items => exact allTexts_array.mp hv w hw
    | _ =>
      rw [List.mem_singleton.mp hw]
      exact hv

theorem allFieldTexts_set (h : allFieldTexts p fields = true) (hv : v.allTexts p = true) :
    allFieldTexts p (Fields.set fields name v) = true := by
  rw [allFieldTexts_iff] at h ⊢
  intro f hf
  rcases Fields.mem_of_mem_set hf with hold | rfl
  · exact h f hold
  · exact hv

theorem allFieldTexts_override (h : allFieldTexts p fields = true)
    (ho : allFieldTexts p others = true) :
    allFieldTexts p (Fields.override fields others) = true := by
  rw [allFieldTexts_iff] at h ho ⊢
  intro f hf
  rcases Fields.mem_of_mem_override hf with hold | hnew
  · exact h f hold
  · exact ho f hnew

theorem allFieldTexts_filter (h : allFieldTexts p fields = true) (keep : String × Json → Bool) :
    allFieldTexts p (fields.filter keep) = true := by
  rw [allFieldTexts_iff] at h ⊢
  exact fun f hf => h f (List.mem_of_mem_filter hf)

theorem allFieldTexts_append :
    allFieldTexts p (fields ++ others) = true ↔
      allFieldTexts p fields = true ∧ allFieldTexts p others = true := by
  simp only [allFieldTexts_iff, List.forall_mem_append]

theorem allTexts_objects {table : Fields (Fields Json)}
    (h : ∀ t ∈ table, allFieldTexts p t.2 = true) :
    (Json.object (Fields.mapValues .object table)).allTexts p = true := by
  rw [allTexts_object, allFieldTexts_iff]
  intro f hf
  obtain ⟨t, ht, rfl⟩ := List.mem_map.mp hf
  exact h t ht

end RadioDriver.Json
