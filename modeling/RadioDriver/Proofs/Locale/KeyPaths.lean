import RadioDriver.Locale.KeyPath
import RadioDriver.Proofs.Json.Texts

namespace RadioDriver.KeyPath

open Json

variable {p : String → Bool} {fields : Fields Json} {items : List Json} {texts path : List String}
  {name : Option String} {s : String} {v : Json} {index : Nat}

theorem mem_keyPaths : s ∈ keyPaths v ↔ s ∈ keysAt [] none v := List.mem_eraseDups

theorem mem_keysAt_string {name key : String} :
    key ∈ keysAt path (some name) (.string s) ↔ isKeyPath name s path = true ∧ key = s := by
  unfold keysAt
  split <;> simp_all

theorem mem_keysInFields :
    s ∈ keysInFields path fields ↔ ∃ f ∈ fields, s ∈ keysAt (path ++ [f.1]) (some f.1) f.2 := by
  induction fields with
  | nil => simp [keysInFields]
  | cons f rest ih =>
    obtain ⟨k, v⟩ := f
    simp [keysInFields, ih]

theorem exists_of_mem_keysInItems (h : s ∈ keysInItems path index items) :
    ∃ v ∈ items, ∃ i : Nat, s ∈ keysAt (path ++ [toString i]) none v := by
  induction items generalizing index with
  | nil => simp [keysInItems] at h
  | cons v rest ih =>
    rw [keysInItems, List.mem_append] at h
    rcases h with hhere | hrest
    · exact ⟨v, List.mem_cons_self, index, hhere⟩
    · obtain ⟨w, hw, i, hs⟩ := ih hrest
      exact ⟨w, List.mem_cons_of_mem v hw, i, hs⟩

theorem keysAt_ofStrings (path : List String) (name : Option String) (texts : List String) :
    keysAt path name (.ofStrings texts) = [] := by
  rw [Json.ofStrings, keysAt, List.eq_nil_iff_forall_not_mem]
  intro s hs
  obtain ⟨v, hv, i, hs⟩ := exists_of_mem_keysInItems hs
  obtain ⟨text, -, rfl⟩ := List.mem_map.mp hv
  simp [keysAt] at hs

mutual

theorem holds_of_mem_keysAt : ∀ (v : Json) {path : List String} {name : Option String} {s : String},
    v.allTexts p = true → s ∈ keysAt path name v → p s = true
  | .string text, path, name, s, h, hs => by
    cases name with
    | none => simp [keysAt] at hs
    | some name =>
      rw [(mem_keysAt_string.mp hs).2]
      exact h
  | .array items, path, name, s, h, hs => holds_of_mem_keysInItems items h hs
  | .object fields, path, name, s, h, hs => holds_of_mem_keysInFields fields h hs
  | .null, path, name, s, h, hs => by simp [keysAt] at hs
  | .bool _, path, name, s, h, hs => by simp [keysAt] at hs
  | .number _, path, name, s, h, hs => by simp [keysAt] at hs

theorem holds_of_mem_keysInItems : ∀ (items : List Json) {path : List String} {index : Nat}
    {s : String}, allItemTexts p items = true → s ∈ keysInItems path index items → p s = true
  | [], path, index, s, h, hs => by simp [keysInItems] at hs
  | v :: rest, path, index, s, h, hs => by
    simp only [allItemTexts, Bool.and_eq_true] at h
    rw [keysInItems, List.mem_append] at hs
    exact hs.elim (holds_of_mem_keysAt v h.1) (holds_of_mem_keysInItems rest h.2)

theorem holds_of_mem_keysInFields : ∀ (fields : List (String × Json)) {path : List String}
    {s : String}, allFieldTexts p fields = true → s ∈ keysInFields path fields → p s = true
  | [], path, s, h, hs => by simp [keysInFields] at hs
  | (k, v) :: rest, path, s, h, hs => by
    simp only [allFieldTexts, Bool.and_eq_true] at h
    rw [keysInFields, List.mem_append] at hs
    exact hs.elim (holds_of_mem_keysAt v h.1) (holds_of_mem_keysInFields rest h.2)

end

/-- A field with another name than those of texts holds a key path only where options are, and only
one that points at device classes or views. -/
theorem isKeyPath_elsewhere {name : String} (h : isKeyPath name s path = true)
    (hname : name ∉ "name" :: textFields) :
    (Text.contains s "deviceClasses." = true ∨ Text.contains s "views." = true) ∧
      ("options" ∈ path ∨ "viewOptions" ∈ path) := by
  rw [List.mem_cons, not_or] at hname
  have hall : (s ≠ "" ∧ ' ' ∉ s.toList) ∧
      (Text.contains s "deviceClasses." = true ∨ Text.contains s "views." = true) ∧
        ("options" ∈ path ∨ "viewOptions" ∈ path) := by
    simpa [isKeyPath, hname.1, hname.2] using h
  exact hall.2

end RadioDriver.KeyPath
