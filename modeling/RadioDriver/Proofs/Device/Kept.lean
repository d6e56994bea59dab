import RadioDriver.Compiler
import RadioDriver.Proofs.Device.Assembly
import RadioDriver.Proofs.Inherit.FlatFold
import RadioDriver.Proofs.Json.Texts

namespace RadioDriver

theorem Fields.get?_override_of_get? {fields overlay : Fields Json} {name : String} {v : Json}
    (hnodup : (names overlay).Nodup) (h : get? overlay name = some v) :
    get? (override fields overlay) name = some v := by
  rw [get?_override, get?_reverse hnodup, h, Option.some_or]

namespace Json

theorem names_mapFieldTexts (f : String → String) (fields : Fields Json) :
    Fields.names (mapFieldTexts f fields) = Fields.names fields := by
  rw [mapFieldTexts_eq_map, Fields.names, List.map_map]
  rfl

mutual

theorem distinct_mapTexts (f : String → String) : ∀ v : Json, distinct (mapTexts f v) = distinct v
  | .array items => distinctItems_mapItemTexts f items
  | .object fields => distinctFields_mapFieldTexts f fields
  | .string _ => rfl
  | .null => rfl
  | .bool _ => rfl
  | .number _ => rfl

theorem distinctItems_mapItemTexts (f : String → String) :
    ∀ items, distinctItems (mapItemTexts f items) = distinctItems items
  | [] => rfl
  | v :: rest => by
    rw [mapItemTexts, distinctItems, distinctItems, distinct_mapTexts f v,
      distinctItems_mapItemTexts f rest]

theorem distinctFields_mapFieldTexts (f : String → String) :
    ∀ fields, distinctFields (mapFieldTexts f fields) = distinctFields fields
  | [] => rfl
  | (k, v) :: rest => by
    rw [mapFieldTexts, distinctFields, distinctFields, names_mapFieldTexts, distinct_mapTexts f v,
      distinctFields_mapFieldTexts f rest]

end

end Json

namespace DeviceClass

variable {own : Fields Json} {name : String} {v : Json}

theorem get?_combine_own (id : String) (ancestors : List Entity) (hnodup : (Fields.names own).Nodup)
    (hid : name ≠ "id") (hname : name ∉ mergedNames) (h : Fields.get? own name = some v) :
    Fields.get? (combine id ancestors own) name = some v := by
  have hkept : (Fields.names (own.filter fun f => f.1 ∉ mergedNames)).Nodup :=
    hnodup.sublist (List.filter_sublist.map Prod.fst)
  have hfilter : Fields.get? (own.filter fun f => f.1 ∉ mergedNames) name = some v := by
    rw [Fields.get?_filter (fun n => n ∉ mergedNames), if_pos (decide_eq_true hname), h]
  rw [combine, Fields.get?_set_of_ne _ _ hid, Fields.get?_append, Fields.get?_append,
    List.foldl_append, List.foldl_cons, List.foldl_nil, mergePlain,
    Fields.get?_override_of_get? hkept hfilter, Option.some_or, Option.some_or]

theorem get?_combine_image (id : String) (ancestors : List Entity) {images : Fields Json}
    {key : String} (hnodup : (Fields.names images).Nodup)
    (himages : Fields.get? own "images" = some (.object images))
    (h : Fields.get? images key = some v) :
    ∃ merged, Fields.get? (combine id ancestors own) "images" = some (.object merged) ∧
      Fields.get? merged key = some v := by
  have hsplit : objectsUnder "images" (ancestors ++ [own]) =
      objectsUnder "images" ancestors ++ [images] := by
    simp [objectsUnder, List.filterMap_append, himages, Json.fields?]
  rw [get?_combine_images, hsplit, if_neg (by simp)]
  refine ⟨_, rfl, ?_⟩
  rw [List.foldl_append, List.foldl_cons, List.foldl_nil,
    Fields.get?_override_of_get? hnodup h]

end DeviceClass

namespace Device

/-- The fields that an assembly may set. -/
def assembledNames : List String :=
  "driver" :: "signal" :: "signalDefinition" :: "pair" :: flowSections

/-- The fields of a declaration that are taken up into others or made anew. -/
def reworkedNames : List String :=
  "id" :: "extends" :: DeviceClass.mergedNames ++ assembledNames

variable {s : Surroundings} {id name : String} {device made : Entity}
  {registry registry' : Signal.Registry}

theorem get?_of_assemble (hname : name ∉ assembledNames)
    (h : assemble s id device registry = .ok (made, registry')) :
    Fields.get? made name = Fields.get? device name := by
  simp only [assembledNames, List.mem_cons, not_or] at hname
  obtain ⟨hdriver, hsignal, hdefinition, hpair, hcards⟩ := hname
  obtain ⟨signalled, paired, hassign, hpaired, rfl⟩ := assemble_eq_ok h
  rw [get?_ownSections hcards]
  have hsignalled := get?_of_assignSignal hsignal hdefinition hassign
  rw [get?_withDriver hdriver] at hsignalled
  rcases pairUp_eq_ok hpaired with rfl | ⟨_, _, _, -, -, -, rfl⟩
  · exact hsignalled
  · rw [Fields.get?_set_of_ne _ _ hpair, hsignalled]

/-- A device has the plain fields of a declaration and the images that it gives. -/
structure Keeps (own : Fields Json) (device : Entity) : Prop where
  field : ∀ name v, name ∉ reworkedNames → Fields.get? own name = some v →
    Fields.get? device name = some v
  image : ∀ images key v, Fields.get? own "images" = some (.object images) →
    Fields.get? images key = some v →
      ∃ merged, Fields.get? device "images" = some (.object merged) ∧
        Fields.get? merged key = some v

theorem keeps_of_assemble {own : Fields Json} (ancestors : List Entity)
    (hown : (Json.object own).distinct = true)
    (h : assemble s id (DeviceClass.combine id ancestors (Fields.erase own "extends")) registry =
      .ok (made, registry')) : Keeps own made where
  field name v hname hv := by
    simp only [reworkedNames, List.cons_append, List.mem_cons, List.mem_append, not_or] at hname
    obtain ⟨hid, hextends, hmerged, hassembled⟩ := hname
    have hdistinct : (Fields.names (Fields.erase own "extends")).Nodup :=
      (Json.distinct_object.mp hown).1.sublist (List.filter_sublist.map Prod.fst)
    rw [get?_of_assemble hassembled h]
    apply DeviceClass.get?_combine_own id ancestors hdistinct hid hmerged
    rw [Fields.get?_erase_of_ne _ hextends, hv]
  image images key v himages hv := by
    rw [get?_of_assemble (by decide) h]
    have hdistinct := (Json.distinct_object.mp (Json.distinct_of_get? hown himages)).1
    apply DeviceClass.get?_combine_image id ancestors hdistinct _ hv
    rw [Fields.get?_erase_of_ne _ (by decide), himages]

theorem Keeps.mapFieldTexts {own : Fields Json} (h : Keeps own device) (f : String → String) :
    Keeps (Json.mapFieldTexts f own) (Json.mapFieldTexts f device) where
  field name v hname hv := by
    rw [Json.get?_mapFieldTexts] at hv ⊢
    obtain ⟨w, hw, rfl⟩ := Option.map_eq_some_iff.mp hv
    rw [h.field name w hname hw]
    rfl
  image images key v himages hv := by
    rw [Json.get?_mapFieldTexts] at himages ⊢
    obtain ⟨w, hw, hobject⟩ := Option.map_eq_some_iff.mp himages
    cases w with
    | object fields =>
      cases hobject
      rw [Json.get?_mapFieldTexts] at hv
      obtain ⟨x, hx, rfl⟩ := Option.map_eq_some_iff.mp hv
      obtain ⟨merged, hmerged, hkey⟩ := h.image fields key x hw hx
      refine ⟨Json.mapFieldTexts f merged, ?_, ?_⟩
      · rw [hmerged]
        rfl
      · rw [Json.get?_mapFieldTexts, hkey]
        rfl
    | _ => cases hobject

end Device

theorem Resolver.resolveDetached_eq_ok {rules : Rules} {r : Resolver} {pool : Pool} {id : String}
    {declaration : Json} {e : Entity}
    (h : (r.resolveDetached rules pool id declaration).1 = .ok e) :
    ∃ own ancestors, declaration = .object own ∧
      e = rules.combine id ancestors (Fields.erase own "extends") := by
  unfold resolveDetached remember Inherit.expand at h
  dsimp only at h
  split at h
  · split at h
    · cases h
    · split at h
      · cases h
        exact ⟨_, _, rfl, rfl⟩
      · cases h
  · cases h

namespace Compiler

variable {s : Device.Surroundings} {classes : Pool} {declarations : Fields Json} {r : Resolver}
  {registry registry' : Signal.Registry} {devices : Fields Entity} {id : String}

theorem assembleAll_cons_eq_ok {declaration : Json}
    (h : (assembleAll s classes ((id, declaration) :: declarations) r registry).1 =
      .ok (devices, registry')) :
    ∃ resolved r' device grown others,
      r.resolveDetached DeviceClass.rules classes id declaration = (.ok resolved, r') ∧
      Device.assemble s id resolved registry = .ok (device, grown) ∧
      (assembleAll s classes declarations r' grown).1 = .ok (others, registry') ∧
      devices = (id, device) :: others := by
  rw [assembleAll] at h
  split at h
  · cases h
  · next resolved r' hresolve =>
    split at h
    · cases h
    · next device grown hassemble =>
      split at h
      · cases h
      · next others last hrest =>
        cases h
        exact ⟨resolved, r', device, grown, _, hresolve, hassemble, by rw [hrest], rfl⟩

theorem keeps_of_assembleAll {own : Fields Json}
    (h : (assembleAll s classes declarations r registry).1 = .ok (devices, registry'))
    (hdeclared : Fields.get? declarations id = some (.object own))
    (hown : (Json.object own).distinct = true) :
    ∃ device, Fields.get? devices id = some device ∧ Device.Keeps own device := by
  induction declarations generalizing r registry devices with
  | nil => cases hdeclared
  | cons declaration rest ih =>
    obtain ⟨other, declaration⟩ := declaration
    obtain ⟨resolved, r', device, grown, others, hresolve, hassemble, hrest, rfl⟩ :=
      assembleAll_cons_eq_ok h
    -- the first declaration under the id is the one that is looked up
    by_cases hsame : other = id
    · subst hsame
      rw [Fields.get?, if_pos rfl, Option.some_inj] at hdeclared
      obtain ⟨own', ancestors, hobject, rfl⟩ :=
        Resolver.resolveDetached_eq_ok (congrArg Prod.fst hresolve)
      cases hdeclared.symm.trans hobject
      exact ⟨device, if_pos rfl, Device.keeps_of_assemble ancestors hown hassemble⟩
    · rw [Fields.get?, if_neg hsame] at hdeclared ⊢
      exact ih hrest hdeclared

end Compiler

end RadioDriver
