import RadioDriver.Fragment
import RadioDriver.Proofs.Path.Joining

namespace RadioDriver

section
variable {ε α β : Type} {x : Except ε α} {b : β} {e : ε}

theorem except_map_eq_ok {f : α → β} : x.map f = .ok b ↔ ∃ a, x = .ok a ∧ b = f a := by
  cases x with
  | error e => simp [Except.map]
  | ok a => simp [Except.map, eq_comm]

theorem except_bind_eq_ok {f : α → Except ε β} :
    x >>= f = .ok b ↔ ∃ a, x = .ok a ∧ f a = .ok b := by
  cases x with
  | error e => simp [bind, Except.bind]
  | ok a => simp [bind, Except.bind]

theorem except_bind_eq_error {f : α → Except ε β} :
    x >>= f = .error e ↔ x = .error e ∨ ∃ a, x = .ok a ∧ f a = .error e := by
  cases x with
  | error e => simp [bind, Except.bind]
  | ok a => simp [bind, Except.bind]

theorem exists_of_isOk (h : x.isOk = true) : ∃ a, x = .ok a := by
  cases x with
  | error e => cases h
  | ok a => exact ⟨a, rfl⟩

theorem eq_ok_of_isOk (h : x.isOk = true) (a : α) : x = .ok (x.toOption.getD a) := by
  obtain ⟨b, rfl⟩ := exists_of_isOk h
  rfl

end

namespace Json

mutual

/-- A value with every text changed. Names stay. -/
def mapTexts (f : String → String) : Json → Json
  | .string s => .string (f s)
  | .array items => .array (mapItemTexts f items)
  | .object fields => .object (mapFieldTexts f fields)
  | .null => .null
  | .bool b => .bool b
  | .number n => .number n

def mapItemTexts (f : String → String) : List Json → List Json
  | [] => []
  | v :: rest => mapTexts f v :: mapItemTexts f rest

def mapFieldTexts (f : String → String) : List (String × Json) → List (String × Json)
  | [] => []
  | (k, v) :: rest => (k, mapTexts f v) :: mapFieldTexts f rest

end

mutual

/-- Whether every text satisfies a test. -/
def allTexts (p : String → Bool) : Json → Bool
  | .string s => p s
  | .array items => allItemTexts p items
  | .object fields => allFieldTexts p fields
  | .null => true
  | .bool _ => true
  | .number _ => true

def allItemTexts (p : String → Bool) : List Json → Bool
  | [] => true
  | v :: rest => allTexts p v && allItemTexts p rest

def allFieldTexts (p : String → Bool) : List (String × Json) → Bool
  | [] => true
  | (_, v) :: rest => allTexts p v && allFieldTexts p rest

end

mutual

theorem mapTexts_mapTexts (f g : String → String) :
    ∀ v, mapTexts g (mapTexts f v) = mapTexts (fun s => g (f s)) v
  | .string _ => rfl
  | .array items => congrArg Json.array (mapItemTexts_mapItemTexts f g items)
  | .object fields => congrArg Json.object (mapFieldTexts_mapFieldTexts f g fields)
  | .null => rfl
  | .bool _ => rfl
  | .number _ => rfl

theorem mapItemTexts_mapItemTexts (f g : String → String) :
    ∀ items, mapItemTexts g (mapItemTexts f items) = mapItemTexts (fun s => g (f s)) items
  | [] => rfl
  | v :: rest => by
    simp only [mapItemTexts, mapTexts_mapTexts f g v, mapItemTexts_mapItemTexts f g rest]

theorem mapFieldTexts_mapFieldTexts (f g : String → String) :
    ∀ fields, mapFieldTexts g (mapFieldTexts f fields) = mapFieldTexts (fun s => g (f s)) fields
  | [] => rfl
  | (k, v) :: rest => by
    simp only [mapFieldTexts, mapTexts_mapTexts f g v, mapFieldTexts_mapFieldTexts f g rest]

end

end Json

namespace Path

variable {base reference : String}

/-- A text under a base, whatever its characters. -/
def anchored (base s : String) : String := if isRelativeReference s then join base s else s

/-- A text that is no relative reference or has no forbidden character. -/
def isPortable (s : String) : Bool := !(isRelativeReference s && s.toList.any isForbidden)

theorem anchorText_eq_ok_iff {location : List String} {s t : String} :
    anchorText base location s = .ok t ↔ isPortable s = true ∧ t = anchored base s := by
  unfold anchorText isPortable anchored
  cases isRelativeReference s <;> cases s.toList.any isForbidden <;> simp [eq_comm]

mutual

theorem anchorAt_eq_ok_iff (base : String) : ∀ (v : Json) (location : List String) (w : Json),
    anchorAt base location v = .ok w ↔
      v.allTexts isPortable = true ∧ w = v.mapTexts (anchored base)
  | .string s, location, w => by
    simp only [anchorAt, except_map_eq_ok, anchorText_eq_ok_iff, Json.allTexts, Json.mapTexts]
    exact ⟨fun ⟨_, ⟨hp, rfl⟩, hw⟩ => ⟨hp, hw⟩, fun ⟨hp, hw⟩ => ⟨_, ⟨hp, rfl⟩, hw⟩⟩
  | .array items, location, w => by
    simp only [anchorAt, except_map_eq_ok, anchorItems_eq_ok_iff base items, Json.allTexts,
      Json.mapTexts]
    exact ⟨fun ⟨_, ⟨hp, rfl⟩, hw⟩ => ⟨hp, hw⟩, fun ⟨hp, hw⟩ => ⟨_, ⟨hp, rfl⟩, hw⟩⟩
  | .object fields, location, w => by
    simp only [anchorAt, except_map_eq_ok, anchorFields_eq_ok_iff base fields, Json.allTexts,
      Json.mapTexts]
    exact ⟨fun ⟨_, ⟨hp, rfl⟩, hw⟩ => ⟨hp, hw⟩, fun ⟨hp, hw⟩ => ⟨_, ⟨hp, rfl⟩, hw⟩⟩
  | .null, _, _ => by simp [anchorAt, Json.allTexts, Json.mapTexts, eq_comm]
  | .bool _, _, _ => by simp [anchorAt, Json.allTexts, Json.mapTexts, eq_comm]
  | .number _, _, _ => by simp [anchorAt, Json.allTexts, Json.mapTexts, eq_comm]

theorem anchorItems_eq_ok_iff (base : String) :
    ∀ (items : List Json) (location : List String) (index : Nat) (ws : List Json),
    anchorItems base location index items = .ok ws ↔
      Json.allItemTexts isPortable items = true ∧ ws = Json.mapItemTexts (anchored base) items
  | [], _, _, _ => by simp [anchorItems, Json.allItemTexts, Json.mapItemTexts, eq_comm]
  | v :: rest, location, index, ws => by
    simp only [anchorItems, except_bind_eq_ok, anchorAt_eq_ok_iff base v,
      anchorItems_eq_ok_iff base rest, Json.allItemTexts, Json.mapItemTexts, Bool.and_eq_true]
    constructor
    · rintro ⟨_, ⟨hv, rfl⟩, _, ⟨hrest, rfl⟩, hws⟩
      exact ⟨⟨hv, hrest⟩, (Except.ok.inj hws).symm⟩
    · rintro ⟨⟨hv, hrest⟩, rfl⟩
      exact ⟨_, ⟨hv, rfl⟩, _, ⟨hrest, rfl⟩, rfl⟩

theorem anchorFields_eq_ok_iff (base : String) :
    ∀ (fields : List (String × Json)) (location : List String) (ws : List (String × Json)),
    anchorFields base location fields = .ok ws ↔
      Json.allFieldTexts isPortable fields = true ∧ ws = Json.mapFieldTexts (anchored base) fields
  | [], _, _ => by simp [anchorFields, Json.allFieldTexts, Json.mapFieldTexts, eq_comm]
  | (k, v) :: rest, location, ws => by
    simp only [anchorFields, except_bind_eq_ok, anchorAt_eq_ok_iff base v,
      anchorFields_eq_ok_iff base rest, Json.allFieldTexts, Json.mapFieldTexts, Bool.and_eq_true]
    constructor
    · rintro ⟨_, ⟨hv, rfl⟩, _, ⟨hrest, rfl⟩, hws⟩
      exact ⟨⟨hv, hrest⟩, (Except.ok.inj hws).symm⟩
    · rintro ⟨⟨hv, hrest⟩, rfl⟩
      exact ⟨_, ⟨hv, rfl⟩, _, ⟨hrest, rfl⟩, rfl⟩

end

theorem anchor_eq_ok_iff (h : base ≠ "") {v w : Json} :
    anchor base v = .ok w ↔ v.allTexts isPortable = true ∧ w = v.mapTexts (anchored base) := by
  rw [anchor, if_neg h, anchorAt_eq_ok_iff]

theorem anchorObject_eq_ok_iff (h : base ≠ "") {fields others : Fields Json} :
    anchorObject base fields = .ok others ↔
      Json.allFieldTexts isPortable fields = true ∧
        others = Json.mapFieldTexts (anchored base) fields := by
  rw [anchorObject, if_neg h, anchorFields_eq_ok_iff]

/-- A reference anchored under a relative base is anchored again where it stays a relative one. -/
theorem anchored_again (hrelative : isAbsolute (slashed base) = false)
    (h : isRelativeReference reference = true) (root : String) :
    anchored root (anchored base reference) =
      if staysRelative base reference then join root (join base reference)
      else join base reference := by
  have honce : anchored base reference = join base reference := if_pos h
  rw [honce, anchored, isRelativeReference_join hrelative]

/-- Under the way to a directory that is not inside the start, every reference is anchored again but
the one to where the way climbs to. -/
theorem anchored_again_between {start goal : String}
    (houtside : ¬ components start <+: components goal)
    (h : isRelativeReference reference = true) (hne : join (between start goal) reference ≠ "..")
    (root : String) :
    anchored root (anchored (between start goal) reference) =
      join root (join (between start goal) reference) := by
  have honce : anchored (between start goal) reference = join (between start goal) reference :=
    if_pos h
  rw [honce]
  exact if_pos ((climbs_between houtside).isRelativeReference_join_iff.mpr hne)

end Path

theorem Fragment.anchorDrivers_eq_ok_iff {base : String} (h : base ≠ "")
    {drivers others : List Json} :
    anchorDrivers base drivers = .ok others ↔
      (∀ d ∈ drivers, d.allTexts Path.isPortable = true) ∧
        others = drivers.map (Json.mapTexts (Path.anchored base)) := by
  induction drivers generalizing others with
  | nil =>
    constructor
    · intro hnil
      exact ⟨by simp, (Except.ok.inj hnil).symm⟩
    · rintro ⟨-, rfl⟩
      rfl
  | cons d rest ih =>
    simp only [anchorDrivers, except_bind_eq_ok, Path.anchor_eq_ok_iff h, ih, List.forall_mem_cons,
      List.map_cons]
    constructor
    · rintro ⟨_, ⟨hd, rfl⟩, _, ⟨hrest, rfl⟩, hothers⟩
      exact ⟨⟨hd, hrest⟩, (Except.ok.inj hothers).symm⟩
    · rintro ⟨⟨hd, hrest⟩, rfl⟩
      exact ⟨_, ⟨hd, rfl⟩, _, ⟨hrest, rfl⟩, rfl⟩

theorem Fragment.sections_of_anchor {base : String} (h : base ≠ "") {f anchored : Fragment}
    (hanchor : f.anchor base = .ok anchored) :
    anchored.drivers = f.drivers.map (Json.mapTexts (Path.anchored base)) ∧
      anchored.devices = Json.mapFieldTexts (Path.anchored base) f.devices := by
  simp only [Fragment.anchor, except_bind_eq_ok, anchorDrivers_eq_ok_iff h,
    Path.anchorObject_eq_ok_iff h] at hanchor
  obtain ⟨drivers, ⟨-, hdrivers⟩, _, -, _, -, devices, ⟨-, hdevices⟩, _, -, _, -, heq⟩ := hanchor
  rw [← Except.ok.inj heq, hdrivers, hdevices]
  exact ⟨rfl, rfl⟩

end RadioDriver
