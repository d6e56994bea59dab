import RadioDriver.Manifest
import RadioDriver.Proofs.Compiler.References
import RadioDriver.Proofs.Device.Unmarked

namespace RadioDriver.Manifest

open RadioDriver.Json RadioDriver.Locale RadioDriver.Device

variable {c : Catalog} {p : String → Bool} {f : String → String} {fields : Fields Json}
  {id name : String}
  {device : Entity} {v : Json}

mutual

/-- Whether every text that stands under a localized name satisfies a test. -/
def allShown (p : String → Bool) : Json → Bool
  | .object fields => allShownFields p fields
  | .array items => allShownItems p items
  | .null => true
  | .bool _ => true
  | .number _ => true
  | .string _ => true

/-- Whether every text under a localized name in the items satisfies a test. -/
def allShownItems (p : String → Bool) : List Json → Bool
  | [] => true
  | v :: rest => allShown p v && allShownItems p rest

/-- Whether every text under a localized name in or below the fields satisfies a test. -/
def allShownFields (p : String → Bool) : List (String × Json) → Bool
  | [] => true
  | (k, v) :: rest =>
    (if localizedNames.contains k then v.allTexts p else allShown p v) && allShownFields p rest

end

theorem allShownItems_iff {items : List Json} :
    allShownItems p items = true ↔ ∀ v ∈ items, allShown p v = true := by
  induction items with
  | nil => simp [allShownItems]
  | cons v rest ih => simp [allShownItems, ih]

mutual

theorem allShown_of_allTexts : ∀ v : Json, v.allTexts p = true → allShown p v = true
  | .object fields, h => allShownFields_of_allFieldTexts fields h
  | .array items, h => allShownItems_of_allItemTexts items h
  | .null, _ => rfl
  | .bool _, _ => rfl
  | .number _, _ => rfl
  | .string _, _ => rfl

theorem allShownItems_of_allItemTexts : ∀ items : List Json,
    allItemTexts p items = true → allShownItems p items = true
  | [], _ => rfl
  | v :: rest, h => by
    simp only [allItemTexts, Bool.and_eq_true] at h
    rw [allShownItems, allShown_of_allTexts v h.1, allShownItems_of_allItemTexts rest h.2]
    rfl

theorem allShownFields_of_allFieldTexts : ∀ fields : List (String × Json),
    allFieldTexts p fields = true → allShownFields p fields = true
  | [], _ => rfl
  | (k, v) :: rest, h => by
    simp only [allFieldTexts, Bool.and_eq_true] at h
    rw [allShownFields, allShownFields_of_allFieldTexts rest h.2, h.1, allShown_of_allTexts v h.1,
      ite_self]
    rfl

end

def localizeField (c : Catalog) (field : String × Json) : String × Json :=
  match field with
  | (k, .string s) => (k, if localizedNames.contains k then c.localized s else .string s)
  | (k, v) => (k, localize c v)

theorem localizeFields_eq_map (c : Catalog) (fields : List (String × Json)) :
    localizeFields c fields = fields.map (localizeField c) := by
  induction fields with
  | nil => rfl
  | cons field rest ih =>
    obtain ⟨k, v⟩ := field
    cases v <;> simp only [localizeFields, localizeField, List.map_cons, ih]

theorem localizeItems_eq_map (c : Catalog) (items : List Json) :
    localizeItems c items = items.map (localize c) := by
  induction items with
  | nil => rfl
  | cons v rest ih => rw [localizeItems, ih, List.map_cons]

theorem allTexts_localizeField (hc : c.Unmarked) (h : v.allTexts isUnmarked = true)
    (hv : (localize c v).allTexts isUnmarked = true) :
    (localizeField c (name, v)).2.allTexts isUnmarked = true := by
  cases v with
  | string s =>
    dsimp only [localizeField]
    split
    · exact hc.localized h
    · exact h
  | _ => exact hv

mutual

theorem allTexts_localize (hc : c.Unmarked) : ∀ v : Json, v.allTexts isUnmarked = true →
    (localize c v).allTexts isUnmarked = true
  | .object fields, h => allFieldTexts_localizeFields hc fields h
  | .array items, h => allItemTexts_localizeItems hc items h
  | .null, _ => rfl
  | .bool _, _ => rfl
  | .number _, _ => rfl
  | .string _, h => h

theorem allItemTexts_localizeItems (hc : c.Unmarked) : ∀ items : List Json,
    allItemTexts isUnmarked items = true → allItemTexts isUnmarked (localizeItems c items) = true
  | [], _ => rfl
  | v :: rest, h => by
    simp only [allItemTexts, Bool.and_eq_true] at h
    rw [localizeItems, allItemTexts, allTexts_localize hc v h.1,
      allItemTexts_localizeItems hc rest h.2]
    rfl

theorem allFieldTexts_localizeFields (hc : c.Unmarked) : ∀ fields : List (String × Json),
    allFieldTexts isUnmarked fields = true →
      allFieldTexts isUnmarked (localizeFields c fields) = true
  | [], _ => rfl
  | (k, v) :: rest, h => by
    simp only [allFieldTexts, Bool.and_eq_true] at h
    have hfield : (localizeField c (k, v)).2.allTexts isUnmarked = true :=
      allTexts_localizeField hc h.1 (allTexts_localize hc v h.1)
    rw [localizeFields_eq_map, List.map_cons, ← localizeFields_eq_map, allFieldTexts, hfield,
      allFieldTexts_localizeFields hc rest h.2]
    rfl

end

theorem allShownFields_iff : allShownFields p fields = true ↔ ∀ field ∈ fields,
    (field.1 ∈ localizedNames → field.2.allTexts p = true) ∧
      (field.1 ∉ localizedNames → allShown p field.2 = true) := by
  induction fields with
  | nil => simp [allShownFields]
  | cons field rest ih =>
    rw [allShownFields, Bool.and_eq_true, ih, List.forall_mem_cons]
    by_cases hname : field.1 ∈ localizedNames <;> simp [hname]

theorem allShown_deviceArgument (c : Catalog) (f : String → String) (id : String) :
    allShown p (localize c ((deviceArgument id).mapTexts f)) = true := by
  rfl

variable (hf : ∀ s, isUnmarked s = true → Path.isPortable s = true → isUnmarked (f s) = true)
include hf

theorem allTexts_localize_mapTexts (hc : c.Unmarked) (h : v.allTexts isUnmarked = true)
    (hportable : v.allTexts Path.isPortable = true) :
    (localize c (v.mapTexts f)).allTexts isUnmarked = true :=
  allTexts_localize hc _ (allTexts_mapTexts hf v h hportable)

theorem allShown_ownCard (hc : c.Unmarked) (h : v.allTexts isUnmarked = true)
    (hportable : (ownCard id v).allTexts Path.isPortable = true) :
    allShown isUnmarked (localize c ((ownCard id v).mapTexts f)) = true := by
  cases v with
  | object card =>
    obtain ⟨own, hown, hfields⟩ := mem_ownCard h
    rw [hown] at hportable ⊢
    show allShownFields isUnmarked (localizeFields c (mapFieldTexts f own)) = true
    rw [localizeFields_eq_map, mapFieldTexts_eq_map, List.map_map, allShownFields_iff,
      List.forall_mem_map]
    intro field hfield
    have hfieldPortable := allFieldTexts_iff.mp (allTexts_object.mp hportable) field hfield
    rcases hfields field hfield with hplain | ⟨args, hargs, rfl⟩
    · have hshown : (localizeField c (field.1, field.2.mapTexts f)).2.allTexts isUnmarked = true :=
        allTexts_localizeField hc (allTexts_mapTexts hf _ hplain hfieldPortable)
          (allTexts_localize_mapTexts hf hc hplain hfieldPortable)
      exact ⟨fun _ => hshown, fun _ => allShown_of_allTexts _ hshown⟩
    · refine ⟨fun hname => absurd hname (by decide : "args" ∉ localizedNames), fun _ => ?_⟩
      show allShownItems isUnmarked
        (localizeItems c (mapItemTexts f (args ++ [deviceArgument id]))) = true
      rw [localizeItems_eq_map, mapItemTexts_eq_map, List.map_map, allShownItems_iff,
        List.forall_mem_map, List.forall_mem_append, List.forall_mem_singleton]
      refine ⟨?_, allShown_deviceArgument c f id⟩
      intro arg harg
      have hargPortable := allTexts_array.mp hfieldPortable arg (List.mem_append_left _ harg)
      exact allShown_of_allTexts _
        (allTexts_localize_mapTexts hf hc (allItemTexts_iff.mp hargs arg harg) hargPortable)
  | _ => exact allShown_of_allTexts _ (allTexts_localize_mapTexts hf hc h hportable)

theorem allShown_cardsIn (hc : c.Unmarked) (h : AllEmitted id device)
    (hportable : allFieldTexts Path.isPortable device = true) (hname : name ∈ flowSections) :
    ∀ card ∈ cardsIn name (mapFieldTexts f device),
      allShown isUnmarked (localize c card) = true := by
  intro card hcard
  rw [cardsIn, get?_mapFieldTexts] at hcard
  cases hv : Fields.get? device name with
  | none =>
    rw [hv] at hcard
    cases hcard
  | some v =>
    rw [hv] at hcard
    cases v with
    | array cards =>
      have hcard' : card ∈ mapItemTexts f cards := hcard
      rw [mapItemTexts_eq_map] at hcard'
      obtain ⟨own, hown, rfl⟩ := List.mem_map.mp hcard'
      have hownPortable := allTexts_array.mp (allTexts_of_get? hportable hv) own hown
      rcases h.card hname hv own hown with hplain | ⟨source, hsource, rfl⟩
      · exact allShown_of_allTexts _ (allTexts_localize_mapTexts hf hc hplain hownPortable)
      · exact allShown_ownCard hf hc hsource hownPortable
    | _ => cases hcard

/-- No text that the platform shows is marked. -/
structure Unmarked (m : Manifest) : Prop where
  names : ∀ d ∈ m.drivers, d.name.allTexts isUnmarked = true
  settings : ∀ d ∈ m.drivers, ∀ v, d.settings = some v → v.allTexts isUnmarked = true
  rawDrivers : ∀ d ∈ m.rawDrivers, d.allTexts isUnmarked = true
  triggers : ∀ card ∈ m.flow.triggers, allShown isUnmarked card = true
  conditions : ∀ card ∈ m.flow.conditions, allShown isUnmarked card = true
  actions : ∀ card ∈ m.flow.actions, allShown isUnmarked card = true

theorem unmarked_driverOf (hc : c.Unmarked) (h : AllEmitted id device)
    (hportable : allFieldTexts Path.isPortable device = true) :
    (driverOf c id (mapFieldTexts f device)).name.allTexts isUnmarked = true ∧
      ∀ v, (driverOf c id (mapFieldTexts f device)).settings = some v →
        v.allTexts isUnmarked = true := by
  have hfield : ∀ {name : String} {v : Json}, name ≠ "id" → name ≠ "signalDefinition" →
      name ∉ flowSections → Fields.get? (mapFieldTexts f device) name = some v →
        v.allTexts isUnmarked = true := by
    intro name v hid hdefinition hflow hv
    rw [get?_mapFieldTexts] at hv
    obtain ⟨w, hw, rfl⟩ := Option.map_eq_some_iff.mp hv
    exact allTexts_mapTexts hf w (h.get? hid hdefinition hflow hw) (allTexts_of_get? hportable hw)
  constructor
  · dsimp only [driverOf]
    split
    · next hname => exact hc.localized (hfield (by decide) (by decide) (by decide) hname)
    · next hname => exact hfield (by decide) (by decide) (by decide) hname
    · rfl
  · intro v hv
    obtain ⟨w, hw, rfl⟩ := Option.map_eq_some_iff.mp hv
    exact allTexts_localize hc w (hfield (by decide) (by decide) (by decide) hw)

theorem unmarked_assembled {parts : Parts} (hc : parts.catalog.Unmarked)
    (hdevices : ∀ d ∈ parts.devices, AllEmitted d.1 d.2)
    (hportable : ∀ d ∈ parts.devices, allFieldTexts Path.isPortable d.2 = true)
    (hdrivers : ∀ d ∈ parts.rawDrivers, d.allTexts isUnmarked = true)
    (hdriversPortable : ∀ d ∈ parts.rawDrivers, d.allTexts Path.isPortable = true)
    (hflow : ∀ v, parts.globalFlow = some v → v.allTexts isUnmarked = true) :
    (assembled parts f).Unmarked := by
  have hglobal := allFieldTexts_localizeFields hc _ (allFieldTexts_getD hflow)
  have hcards : ∀ name ∈ flowSections, ∀ card ∈
      ((parts.devices.map fun d => (d.1, mapFieldTexts f d.2)).map (·.2)).flatMap
          (fun d => (cardsIn name d).map (localize parts.catalog)) ++
        cardsIn name (localizeFields parts.catalog ((parts.globalFlow.bind Json.fields?).getD [])),
      allShown isUnmarked card = true := by
    intro name hname
    rw [List.forall_mem_append]
    constructor
    · intro shown hshown
      obtain ⟨changed, hchanged, hlocalized⟩ := List.mem_flatMap.mp hshown
      rw [List.map_map] at hchanged
      obtain ⟨d, hd, rfl⟩ := List.mem_map.mp hchanged
      obtain ⟨card, hcard, rfl⟩ := List.mem_map.mp hlocalized
      exact allShown_cardsIn hf hc (hdevices d hd) (hportable d hd) hname card hcard
    · intro card hcard
      exact allShown_of_allTexts _
        (allTexts_of_mem_getD (fun _ hv => allTexts_of_get? hglobal hv) card hcard)
  have hnamed : ∀ d ∈ (assembled parts f).drivers, d.name.allTexts isUnmarked = true ∧
      ∀ v, d.settings = some v → v.allTexts isUnmarked = true := by
    intro d hd
    obtain ⟨changed, hchanged, rfl⟩ := List.mem_map.mp hd
    obtain ⟨device, hdevice, rfl⟩ := List.mem_map.mp hchanged
    exact unmarked_driverOf hf hc (hdevices device hdevice) (hportable device hdevice)
  exact {
    names := fun d hd => (hnamed d hd).1
    settings := fun d hd => (hnamed d hd).2
    rawDrivers := by
      intro d hd
      obtain ⟨driver, hdriver, rfl⟩ := List.mem_map.mp hd
      exact allTexts_mapTexts hf driver (hdrivers driver hdriver) (hdriversPortable driver hdriver)
    triggers := hcards "triggers" (by decide)
    conditions := hcards "conditions" (by decide)
    actions := hcards "actions" (by decide) }

end RadioDriver.Manifest
