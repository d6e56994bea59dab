import RadioDriver.Proofs.Path.Faults

namespace RadioDriver

namespace Fragment

/-- A fragment with every text changed, also those of its locale section. -/
def mapTexts (change : String → String) (f : Fragment) : Fragment where
  views := Json.mapFieldTexts change f.views
  deviceClasses := Json.mapFieldTexts change f.deviceClasses
  devices := Json.mapFieldTexts change f.devices
  signals := Json.mapFieldTexts change f.signals
  drivers := f.drivers.map (Json.mapTexts change)
  locales := f.locales.map (Json.mapFieldTexts change)
  globals := Json.mapFieldTexts change f.globals

/-- Every text outside the locale section satisfies a test. -/
structure AllTexts (p : String → Bool) (f : Fragment) : Prop where
  views : Json.allFieldTexts p f.views = true
  deviceClasses : Json.allFieldTexts p f.deviceClasses = true
  devices : Json.allFieldTexts p f.devices = true
  signals : Json.allFieldTexts p f.signals = true
  drivers : ∀ d ∈ f.drivers, d.allTexts p = true
  globals : Json.allFieldTexts p f.globals = true

variable {change : String → String} {p : String → Bool} {root fields : Fields Json}
  {name base : String}
  {items : List Json} {v : Json} {f : Fragment}

theorem objectSection_mapTexts (change : String → String) (root : Fields Json) (name : String) :
    objectSection (Json.mapFieldTexts change root) name =
      (objectSection root name).map (Json.mapFieldTexts change) := by
  rw [objectSection, objectSection, Json.get?_mapFieldTexts]
  rcases Fields.get? root name with - | v
  · rfl
  · cases v <;> rfl

theorem driverSection_mapTexts (change : String → String) (root : Fields Json) :
    driverSection (Json.mapFieldTexts change root) =
      (driverSection root).map (List.map (Json.mapTexts change)) := by
  rw [driverSection, driverSection, Json.get?_mapFieldTexts]
  rcases Fields.get? root "drivers" with - | v
  · rfl
  · cases v with
    | array items => exact congrArg Except.ok (Json.mapItemTexts_eq_map change items)
    | _ => rfl

theorem localeSection_mapTexts (change : String → String) (root : Fields Json) :
    localeSection (Json.mapFieldTexts change root) =
      (localeSection root).map (Option.map (Json.mapFieldTexts change)) := by
  rw [localeSection, localeSection, Json.get?_mapFieldTexts]
  rcases Fields.get? root "locales" with - | v
  · rfl
  · cases v <;> rfl

theorem checkSignals_mapTexts (change : String → String) (signals : Fields Json) :
    checkSignals (Json.mapFieldTexts change signals) = checkSignals signals := by
  induction signals with
  | nil => rfl
  | cons entry rest ih =>
    obtain ⟨radio, v⟩ := entry
    cases v with
    | object fields => exact ih
    | _ => rfl

theorem globals_mapTexts (change : String → String) (root : Fields Json) :
    (Json.mapFieldTexts change root).filter (fun f => f.1 ∉ sectionNames) =
      Json.mapFieldTexts change (root.filter fun f => f.1 ∉ sectionNames) := by
  rw [Json.mapFieldTexts_eq_map, Json.mapFieldTexts_eq_map, List.filter_map]
  rfl

theorem ofJson_mapTexts (change : String → String) (v : Json) :
    ofJson (v.mapTexts change) = (ofJson v).map (mapTexts change) := by
  cases v with
  | object root =>
    simp only [Json.mapTexts, ofJson, objectSection_mapTexts, driverSection_mapTexts,
      localeSection_mapTexts, globals_mapTexts]
    -- the sections in the order in which they are split, each refused before and after alike
    rcases objectSection root "views" with e | views
    · rfl
    rcases objectSection root "deviceClasses" with e | deviceClasses
    · rfl
    rcases objectSection root "devices" with e | devices
    · rfl
    rcases objectSection root "signals" with e | signals
    · rfl
    have hcheck := checkSignals_mapTexts change signals
    rcases hsignals : checkSignals signals with e | u
    · simp only [Except.map, bind, Except.bind, hcheck, hsignals]
    rcases driverSection root with e | drivers
    · simp only [Except.map, bind, Except.bind, hcheck, hsignals]
    rcases localeSection root with e | locales
    · simp only [Except.map, bind, Except.bind, hcheck, hsignals]
    simp only [Except.map, bind, Except.bind, hcheck, hsignals]
    rfl
  | _ => rfl

theorem allFieldTexts_objectSection (h : Json.allFieldTexts p root = true)
    (hsection : objectSection root name = .ok fields) : Json.allFieldTexts p fields = true := by
  unfold objectSection at hsection
  split at hsection
  · cases hsection
    rfl
  · cases hsection
    rfl
  · next hfields =>
    cases hsection
    exact Json.allTexts_of_get? h hfields
  · cases hsection

theorem allTexts_driverSection (h : Json.allFieldTexts p root = true)
    (hsection : driverSection root = .ok items) : ∀ d ∈ items, d.allTexts p = true := by
  unfold driverSection at hsection
  split at hsection
  · cases hsection
    exact List.forall_mem_nil _
  · cases hsection
    exact List.forall_mem_nil _
  · next hitems =>
    cases hsection
    exact Json.allTexts_array.mp (Json.allTexts_of_get? h hitems)
  · cases hsection

theorem allTexts_of_ofJson (h : v.allTexts p = true) (hsplit : ofJson v = .ok f) :
    f.AllTexts p := by
  cases v with
  | object root =>
    simp only [ofJson, except_bind_eq_ok] at hsplit
    obtain ⟨views, hviews, classes, hclasses, devices, hdevices, signals, hsignals, -, -, drivers,
      hdrivers, locales, -, hdone⟩ := hsplit
    cases hdone
    exact {
      views := allFieldTexts_objectSection h hviews
      deviceClasses := allFieldTexts_objectSection h hclasses
      devices := allFieldTexts_objectSection h hdevices
      signals := allFieldTexts_objectSection h hsignals
      drivers := allTexts_driverSection h hdrivers
      globals := Json.allFieldTexts_filter h _ }
  | _ => cases hsplit

theorem AllTexts.anchor (h : f.AllTexts Path.isPortable) (hbase : base ≠ "") :
    f.anchor base = .ok { f.mapTexts (Path.anchored base) with locales := f.locales } := by
  have hobject : ∀ fields, Json.allFieldTexts Path.isPortable fields = true →
      Path.anchorObject base fields = .ok (Json.mapFieldTexts (Path.anchored base) fields) :=
    fun fields hfields => (Path.anchorObject_eq_ok_iff hbase).mpr ⟨hfields, rfl⟩
  have hdrivers := (anchorDrivers_eq_ok_iff hbase).mpr ⟨h.drivers, rfl⟩
  rw [Fragment.anchor, hdrivers, hobject _ h.views, hobject _ h.deviceClasses, hobject _ h.devices,
    hobject _ h.signals, hobject _ h.globals]
  rfl

/-- Under a base, a value is refused just when a text in it is a relative reference with a forbidden
character, and the fault names the first such text in document order and what leads to it. Otherwise
the relative references are joined onto the base, and the value is the same but for them. A fragment
that is split from such a value and then anchored has the sections of the anchored value, except
that its locale section keeps its texts. -/
theorem relative_references_anchored (hbase : base ≠ "") (v : Json) :
    ((∃ e, Path.anchor base v = .error e) ↔ ∃ location s, v.HasText location s ∧
      Path.isRelativeReference s = true ∧ ∃ c ∈ s.toList, Path.isForbidden c = true) ∧
    (∀ e, Path.anchor base v = .error e ↔ ∃ before location s after,
      v.places = before ++ (location, s) :: after ∧
        (∀ place ∈ before, Path.isPortable place.2 = true) ∧ Path.isPortable s = false ∧
        e = .invalid s (Text.join "." location)) ∧
    ∀ w, Path.anchor base v = .ok w →
      (w = v.mapTexts (Path.anchored base) ∧ w.mapTexts (fun _ => "") = v.mapTexts (fun _ => "") ∧
        w.places = v.places.map fun place => (place.1,
          if Path.isRelativeReference place.2 then Path.join base place.2 else place.2)) ∧
      (∀ e, ofJson w = .error e ↔ ofJson v = .error e) ∧
      ∀ f, ofJson v = .ok f → ∃ g, f.anchor base = .ok g ∧
        ofJson w =
          .ok { g with locales := f.locales.map (Json.mapFieldTexts (Path.anchored base)) } := by
  refine ⟨?_, fun e => Path.anchor_eq_error_iff hbase, fun w hw => ?_⟩
  · rw [Path.exists_anchor_error_iff hbase]
    simp only [Path.isPortable_eq_false_iff]
  · obtain ⟨hportable, rfl⟩ := (Path.anchor_eq_ok_iff hbase).mp hw
    rw [ofJson_mapTexts]
    refine ⟨⟨rfl, Json.mapTexts_mapTexts _ _ v, Json.places_mapTexts _ v⟩, fun e => ?_, ?_⟩
    · cases ofJson v with
      | error e' => exact Iff.rfl
      | ok f => exact ⟨nofun, nofun⟩
    · intro f hsplit
      refine ⟨_, (allTexts_of_ofJson hportable hsplit).anchor hbase, ?_⟩
      rw [hsplit]
      rfl

/-- A driver whose image cannot be a path, after one that can, and a text that only looks like
one. -/
def brokenGallery : Json :=
  .object [("views", .object [("main", .string "a?b")]),
    ("drivers", .array [.object [("image", .string "./a.png")],
      .object [("image", .string "../b?.png")]])]

/-- A gallery of references and other texts, with texts by language. -/
def gallery : Json :=
  .object [("drivers", .array [.object [("image", .string "./a.png")]]),
    ("locales", .object [("en", .object [("hint", .string "./here")])]),
    ("icon", .string "../icon.png")]

/-- The broken gallery is refused for its second driver, and the other is anchored and split. -/
theorem gallery_anchored :
    "lib" ≠ "" ∧
      Path.anchor "lib" brokenGallery = .error (.invalid "../b?.png" "drivers.1.image") ∧
      ∃ w f g, Path.anchor "lib" gallery = .ok w ∧ ofJson gallery = .ok f ∧ f.anchor "lib" = .ok g ∧
        ofJson w =
          .ok { g with locales := f.locales.map (Json.mapFieldTexts (Path.anchored "lib")) } := by
  have hbase : "lib" ≠ "" := by decide
  have hplaces : brokenGallery.places =
      [(["views", "main"], "a?b"), (["drivers", "0", "image"], "./a.png")] ++
      (["drivers", "1", "image"], "../b?.png") :: [] := by decide
  have hlocation : Text.join "." ["drivers", "1", "image"] = "drivers.1.image" := by cbv
  have hportable : gallery.allTexts Path.isPortable = true := by decide
  obtain ⟨-, hrefused, -⟩ := relative_references_anchored hbase brokenGallery
  obtain ⟨-, -, hanchored⟩ := relative_references_anchored hbase gallery
  have hgallery := (Path.anchor_eq_ok_iff hbase).mpr ⟨hportable, rfl⟩
  obtain ⟨f, hsplit⟩ : ∃ f, ofJson gallery = .ok f := ⟨_, rfl⟩
  obtain ⟨g, hg, hboth⟩ := (hanchored _ hgallery).2.2 f hsplit
  refine ⟨hbase, (hrefused _).mpr ⟨_, _, _, _, hplaces, by decide, by decide, ?_⟩, _, f, g,
    hgallery,
    hsplit, hg, hboth⟩
  rw [hlocation]

end Fragment

end RadioDriver
