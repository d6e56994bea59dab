import RadioDriver.Proofs.Json.Texts

namespace RadioDriver.Json

/-- A place seen from above: the name or index comes first. -/
def under (name : String) (place : List String × String) : List String × String :=
  (name :: place.1, place.2)

mutual

/-- The texts of a value in document order, each with what leads to it. -/
def places : Json → List (List String × String)
  | .string s => [([], s)]
  | .array items => placesInItems 0 items
  | .object fields => placesInFields fields
  | .null => []
  | .bool _ => []
  | .number _ => []

def placesInItems (index : Nat) : List Json → List (List String × String)
  | [] => []
  | v :: rest => (places v).map (under (toString index)) ++ placesInItems (index + 1) rest

def placesInFields : List (String × Json) → List (List String × String)
  | [] => []
  | (k, v) :: rest => (places v).map (under k) ++ placesInFields rest

end

/-- Names and indices lead from a value to a text. -/
inductive HasText : Json → List String → String → Prop
  | here (s : String) : HasText (.string s) [] s
  | item {items : List Json} {i : Nat} {v : Json} {location : List String} {s : String}
    (there : items[i]? = some v) (rest : HasText v location s) :
    HasText (.array items) (toString i :: location) s
  | field {fields : Fields Json} {name s : String} {v : Json} {location : List String}
    (there : (name, v) ∈ fields) (rest : HasText v location s) :
    HasText (.object fields) (name :: location) s

mutual

theorem mem_places : ∀ (v : Json) {location : List String} {s : String},
    (location, s) ∈ v.places ↔ v.HasText location s
  | .string t, location, s => by
    rw [places, List.mem_singleton, Prod.mk.injEq]
    constructor
    · rintro ⟨rfl, rfl⟩
      exact .here s
    · rintro ⟨⟩
      exact ⟨rfl, rfl⟩
  | .array items, location, s => by
    rw [places, mem_placesInItems items]
    constructor
    · rintro ⟨i, v, deeper, hv, rfl, htext⟩
      rw [Nat.zero_add]
      exact .item hv htext
    · rintro (_ | ⟨hv, htext⟩)
      exact ⟨_, _, _, hv, by rw [Nat.zero_add], htext⟩
  | .object fields, location, s => by
    rw [places, mem_placesInFields fields]
    constructor
    · rintro ⟨name, v, deeper, hv, rfl, htext⟩
      exact .field hv htext
    · rintro (_ | _ | ⟨hv, htext⟩)
      exact ⟨_, _, _, hv, rfl, htext⟩
  | .null, location, s => ⟨nofun, nofun⟩
  | .bool _, location, s => ⟨nofun, nofun⟩
  | .number _, location, s => ⟨nofun, nofun⟩

theorem mem_placesInItems : ∀ (items : List Json) {index : Nat} {location : List String}
    {s : String},
    (location, s) ∈ placesInItems index items ↔ ∃ i v deeper, items[i]? = some v ∧
      location = toString (index + i) :: deeper ∧ HasText v deeper s
  | [], index, location, s => ⟨nofun, nofun⟩
  | v :: rest, index, location, s => by
    rw [placesInItems, List.mem_append, List.mem_map, mem_placesInItems rest]
    constructor
    · rintro (⟨⟨deeper, t⟩, hplace, heq⟩ | ⟨i, w, deeper, hw, rfl, htext⟩)
      · cases heq
        exact ⟨0, v, deeper, rfl, rfl, (mem_places v).mp hplace⟩
      · refine ⟨i + 1, w, deeper, hw, ?_, htext⟩
        rw [Nat.add_right_comm, Nat.add_assoc]
    · rintro ⟨i, w, deeper, hw, rfl, htext⟩
      cases i with
      | zero =>
        cases hw
        exact .inl ⟨(deeper, s), (mem_places v).mpr htext, rfl⟩
      | succ i =>
        refine .inr ⟨i, w, deeper, hw, ?_, htext⟩
        rw [Nat.add_right_comm, Nat.add_assoc]

theorem mem_placesInFields : ∀ (fields : List (String × Json)) {location : List String}
    {s : String},
    (location, s) ∈ placesInFields fields ↔ ∃ name v deeper, (name, v) ∈ fields ∧
      location = name :: deeper ∧ HasText v deeper s
  | [], location, s => ⟨nofun, nofun⟩
  | (k, v) :: rest, location, s => by
    rw [placesInFields, List.mem_append, List.mem_map, mem_placesInFields rest]
    constructor
    · rintro (⟨⟨deeper, t⟩, hplace, heq⟩ | ⟨name, w, deeper, hw, rfl, htext⟩)
      · cases heq
        exact ⟨k, v, deeper, List.mem_cons_self, rfl, (mem_places v).mp hplace⟩
      · exact ⟨name, w, deeper, List.mem_cons_of_mem _ hw, rfl, htext⟩
    · rintro ⟨name, w, deeper, hw, rfl, htext⟩
      rcases List.mem_cons.mp hw with heq | hw
      · cases heq
        exact .inl ⟨(deeper, s), (mem_places v).mpr htext, rfl⟩
      · exact .inr ⟨name, w, deeper, hw, rfl, htext⟩

end

mutual

theorem places_mapTexts (f : String → String) : ∀ v : Json,
    (v.mapTexts f).places = v.places.map fun place => (place.1, f place.2)
  | .string _ => rfl
  | .array items => placesInItems_mapItemTexts f items 0
  | .object fields => placesInFields_mapFieldTexts f fields
  | .null => rfl
  | .bool _ => rfl
  | .number _ => rfl

theorem placesInItems_mapItemTexts (f : String → String) : ∀ (items : List Json) (index : Nat),
    placesInItems index (mapItemTexts f items) =
      (placesInItems index items).map fun place => (place.1, f place.2)
  | [], _ => rfl
  | v :: rest, index => by
    rw [mapItemTexts, placesInItems, placesInItems, places_mapTexts f v,
      placesInItems_mapItemTexts f rest, List.map_append, List.map_map, List.map_map]
    rfl

theorem placesInFields_mapFieldTexts (f : String → String) : ∀ fields : List (String × Json),
    placesInFields (mapFieldTexts f fields) =
      (placesInFields fields).map fun place => (place.1, f place.2)
  | [] => rfl
  | (k, v) :: rest => by
    rw [mapFieldTexts, placesInFields, placesInFields, places_mapTexts f v,
      placesInFields_mapFieldTexts f rest, List.map_append, List.map_map, List.map_map]
    rfl

end

end RadioDriver.Json
