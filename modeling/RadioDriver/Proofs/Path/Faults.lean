import RadioDriver.Proofs.Json.Places

namespace RadioDriver.Path

/-- The fault of the first text that is no portable reference. The names above come before its
own. -/
def firstFault (above : List String) (places : List (List String × String)) : Option PathError :=
  (places.find? fun place => !isPortable place.2).map fun place =>
    .invalid place.2 (Text.join "." (above ++ place.1))

def barring {α : Type} (fault : Option PathError) (a : α) : Except PathError α :=
  fault.elim (.ok a) .error

variable {above : List String} {places : List (List String × String)} {base s : String}
  {e : PathError}

theorem isPortable_eq_false_iff :
    isPortable s = false ↔ isRelativeReference s = true ∧ ∃ c ∈ s.toList, isForbidden c = true := by
  simp [isPortable]

theorem firstFault_append (above : List String) (places more : List (List String × String)) :
    firstFault above (places ++ more) = (firstFault above places).or (firstFault above more) := by
  rw [firstFault, List.find?_append, Option.map_or]
  rfl

theorem firstFault_under (above : List String) (name : String)
    (places : List (List String × String)) :
    firstFault above (places.map (Json.under name)) = firstFault (above ++ [name]) places := by
  rw [firstFault, List.find?_map, Option.map_map]
  simp only [firstFault, Function.comp_def, Json.under, List.append_assoc, List.singleton_append]

/-- The fault of a list of places is that of one which only portable texts come before. -/
theorem firstFault_eq_some_iff :
    firstFault above places = some e ↔ ∃ before location s after,
      places = before ++ (location, s) :: after ∧ (∀ place ∈ before, isPortable place.2 = true) ∧
        isPortable s = false ∧ e = .invalid s (Text.join "." (above ++ location)) := by
  simp only [firstFault, Option.map_eq_some_iff, List.find?_eq_some_iff_append]
  constructor
  · rintro ⟨⟨location, s⟩, ⟨hs, before, after, hplaces, hbefore⟩, rfl⟩
    exact ⟨before, location, s, after, hplaces, by simpa using hbefore, by simpa using hs, rfl⟩
  · rintro ⟨before, location, s, after, hplaces, hbefore, hs, rfl⟩
    exact ⟨(location, s), ⟨by simpa using hs, before, after, hplaces, by simpa using hbefore⟩, rfl⟩

theorem barring_eq_error_iff {α : Type} {fault : Option PathError} {a : α} :
    barring fault a = .error e ↔ fault = some e := by
  cases fault <;> simp [barring]

theorem anchorText_eq (base : String) (location : List String) (s : String) :
    anchorText base location s =
      barring (firstFault location.reverse [([], s)]) (anchored base s) := by
  unfold anchorText firstFault isPortable anchored
  cases hr : isRelativeReference s <;> cases hs : s.toList.any isForbidden <;>
    simp [barring, hr, hs]

theorem barring_bind {α β γ : Type} (fault other : Option PathError) (a : α) (b : β)
    (f : α → β → γ) :
    (do
      let a ← barring fault a
      let b ← barring other b
      return f a b) = barring (fault.or other) (f a b) := by
  cases fault <;> cases other <;> rfl

mutual

/-- Anchoring gives every text its place in the result, unless there is a fault on the way. -/
theorem anchorAt_eq (base : String) : ∀ (v : Json) (location : List String),
    anchorAt base location v =
      barring (firstFault location.reverse v.places) (v.mapTexts (anchored base))
  | .string s, location => by
    rw [anchorAt, anchorText_eq, Json.places, Json.mapTexts]
    cases firstFault location.reverse [([], s)] <;> rfl
  | .array items, location => by
    rw [anchorAt, anchorItems_eq base items, Json.places, Json.mapTexts]
    cases firstFault location.reverse (Json.placesInItems 0 items) <;> rfl
  | .object fields, location => by
    rw [anchorAt, anchorFields_eq base fields, Json.places, Json.mapTexts]
    cases firstFault location.reverse (Json.placesInFields fields) <;> rfl
  | .null, _ => rfl
  | .bool _, _ => rfl
  | .number _, _ => rfl

theorem anchorItems_eq (base : String) :
    ∀ (items : List Json) (location : List String) (index : Nat),
    anchorItems base location index items =
      barring (firstFault location.reverse (Json.placesInItems index items))
        (Json.mapItemTexts (anchored base) items)
  | [], _, _ => rfl
  | v :: rest, location, index => by
    rw [anchorItems, anchorAt_eq base v, anchorItems_eq base rest, Json.placesInItems,
      firstFault_append, firstFault_under, List.reverse_cons, Json.mapItemTexts]
    exact barring_bind _ _ _ _ List.cons

theorem anchorFields_eq (base : String) :
    ∀ (fields : List (String × Json)) (location : List String),
    anchorFields base location fields =
      barring (firstFault location.reverse (Json.placesInFields fields))
        (Json.mapFieldTexts (anchored base) fields)
  | [], _ => rfl
  | (k, v) :: rest, location => by
    rw [anchorFields, anchorAt_eq base v, anchorFields_eq base rest, Json.placesInFields,
      firstFault_append, firstFault_under, List.reverse_cons, Json.mapFieldTexts]
    exact barring_bind _ _ _ _ fun v rest => (k, v) :: rest

end

/-- A value is refused with the fault of its first text that is no portable reference. -/
theorem anchor_eq_error_iff (h : base ≠ "") {v : Json} :
    anchor base v = .error e ↔ ∃ before location s after,
      v.places = before ++ (location, s) :: after ∧ (∀ place ∈ before, isPortable place.2 = true) ∧
        isPortable s = false ∧ e = .invalid s (Text.join "." location) := by
  rw [anchor, if_neg h, anchorAt_eq, barring_eq_error_iff]
  exact firstFault_eq_some_iff

/-- A value is refused when it has a text, at any depth, that is no portable reference. -/
theorem exists_anchor_error_iff (h : base ≠ "") {v : Json} :
    (∃ e, anchor base v = .error e) ↔
      ∃ location s, v.HasText location s ∧ isPortable s = false := by
  rw [anchor, if_neg h, anchorAt_eq]
  simp only [barring_eq_error_iff, ← Option.isSome_iff_exists, firstFault, Option.isSome_map,
    List.find?_isSome, ← Json.mem_places, Prod.exists, Bool.not_eq_eq_eq_not, Bool.not_true]

end RadioDriver.Path
