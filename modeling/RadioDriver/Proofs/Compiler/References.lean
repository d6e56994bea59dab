import RadioDriver.Proofs.Compiler.Atomicity
import RadioDriver.Proofs.Device.Kept
import RadioDriver.Proofs.Path.Anchoring

namespace RadioDriver

namespace Manifest

variable {p : Parts} {m : Manifest}

def assembled (p : Parts) (f : String → String) : Manifest :=
  let devices : Fields Entity := p.devices.map fun d => (d.1, Json.mapFieldTexts f d.2)
  { signals := signalsOf p.radio p.declaredSignals p.registry
    drivers := devices.map fun d => driverOf p.catalog d.1 d.2
    rawDrivers := p.rawDrivers.map (Json.mapTexts f)
    flow := flowOf p.catalog (devices.map (·.2)) p.globalFlow }

theorem anchorDevices_eq_ok_iff {base : String} (h : base ≠ "") {devices others : Fields Entity} :
    anchorDevices base devices = .ok others ↔
      (∀ d ∈ devices, Json.allFieldTexts Path.isPortable d.2 = true) ∧
        others = devices.map fun d => (d.1, Json.mapFieldTexts (Path.anchored base) d.2) := by
  induction devices generalizing others with
  | nil =>
    constructor
    · intro hnil
      exact ⟨by simp, (Except.ok.inj hnil).symm⟩
    · rintro ⟨-, rfl⟩
      rfl
  | cons d rest ih =>
    simp only [anchorDevices, except_bind_eq_ok, Path.anchorObject_eq_ok_iff h, ih,
      List.forall_mem_cons, List.map_cons]
    constructor
    · rintro ⟨_, ⟨hd, rfl⟩, _, ⟨hrest, rfl⟩, hothers⟩
      exact ⟨⟨hd, hrest⟩, (Except.ok.inj hothers).symm⟩
    · rintro ⟨⟨hd, hrest⟩, rfl⟩
      exact ⟨_, ⟨hd, rfl⟩, _, ⟨hrest, rfl⟩, rfl⟩

theorem build_eq_ok_iff (h : p.base ≠ "") :
    build p = .ok m ↔
      (∀ d ∈ p.devices, Json.allFieldTexts Path.isPortable d.2 = true) ∧
        (∀ d ∈ p.rawDrivers, d.allTexts Path.isPortable = true) ∧
          m = assembled p (Path.anchored p.base) := by
  simp only [build, except_bind_eq_ok, anchorDevices_eq_ok_iff h,
    Fragment.anchorDrivers_eq_ok_iff h]
  constructor
  · rintro ⟨_, ⟨hdevices, rfl⟩, _, ⟨hdrivers, rfl⟩, hm⟩
    exact ⟨hdevices, hdrivers, (Except.ok.inj hm).symm⟩
  · rintro ⟨hdevices, hdrivers, rfl⟩
    exact ⟨_, ⟨hdevices, rfl⟩, _, ⟨hdrivers, rfl⟩, rfl⟩

end Manifest

namespace Compiler

variable {c c' c'' : Compiler} {fragment : Fragment} {base : String} {project : Catalog}

theorem anchored_of_addConfig (h : c.addConfig fragment base = (.ok (), c')) :
    c'.options = c.options ∧
      ∃ anchored, fragment.anchor base = .ok anchored ∧
        c'.drivers = c.drivers ++ anchored.drivers ∧
        c'.devices.declarations = Fields.override c.devices.declarations anchored.devices := by
  unfold addConfig at h
  cases hanchor : fragment.anchor base with
  | error e => rw [hanchor] at h; cases h
  | ok anchored =>
    rw [hanchor] at h
    dsimp only at h
    split at h
    · cases h
    · split at h
      · cases h
      · split at h
        · cases h
        · cases h
          exact ⟨rfl, anchored, rfl, rfl, Pool.extend_declarations _ _ _⟩

theorem finalized_of_finalize (h : c.finalize project = (.ok (), c')) :
    c'.options = c.options ∧ c'.drivers = c.drivers ∧ ∃ f, c'.finalized = some f ∧
      (assembleAll c.surroundings c.deviceClasses c.devices.declarations c.classResolver
        c.registry).1 = .ok (f.devices, f.registry) := by
  unfold finalize at h
  split at h
  · cases h
  · next hassembled =>
    dsimp only at h
    split at h
    · cases h
    · cases h
      exact ⟨rfl, rfl, _, rfl, congrArg Prod.fst hassembled⟩

def root (c : Compiler) : String := "./" ++ c.options.driverDir

theorem root_ne_empty (c : Compiler) : c.root ≠ "" := by
  intro h
  have hchars := congrArg String.toList h
  simp [root] at hchars

def parts (c : Compiler) (f : Finalized) : Manifest.Parts where
  radio := c.options.radio
  devices := f.devices
  rawDrivers := c.drivers
  declaredSignals := c.declaredSignals
  globalFlow := Fields.get? c.globals "flow"
  registry := f.registry
  catalog := f.catalog
  base := c.root

theorem manifest_eq_ok_iff {f : Finalized} (hf : c.finalized = some f) {m : Manifest} :
    c.manifest = .ok m ↔
      ((∀ d ∈ f.devices, Json.allFieldTexts Path.isPortable d.2 = true) ∧
        ∀ d ∈ c.drivers, d.allTexts Path.isPortable = true) ∧
      m = Manifest.assembled (c.parts f) (Path.anchored c.root) := by
  have hbuild := Manifest.build_eq_ok_iff (p := c.parts f) (m := m) c.root_ne_empty
  have hmanifest : c.manifest = .ok m ↔ Manifest.build (c.parts f) = .ok m := by
    unfold manifest result parts root
    rw [hf]
    dsimp only [bind, Except.bind]
    generalize Manifest.build _ = built
    cases built with
    | error e => exact ⟨fun h => (by cases h), fun h => (by cases h)⟩
    | ok built =>
      exact ⟨fun h => congrArg _ (Except.ok.inj h), fun h => congrArg _ (Except.ok.inj h)⟩
  rw [hmanifest, hbuild, and_assoc]
  rfl

/-- What a finalization adds to a compiler decides, with that compiler, what manifest there is. -/
theorem manifest_of_core_eq {f : Finalized} (hcore : c'.core = { c with finalized := some f }.core)
    {m : Manifest} :
    c'.manifest = .ok m ↔
      ((∀ d ∈ f.devices, Json.allFieldTexts Path.isPortable d.2 = true) ∧
        ∀ d ∈ c.drivers, d.allTexts Path.isPortable = true) ∧
      m = Manifest.assembled (c.parts f) (Path.anchored c.root) := by
  have hf : c'.finalized = some f := congrArg (·.finalized) hcore
  have hdrivers : c'.drivers = c.drivers := congrArg (·.drivers) hcore
  have hparts : c'.parts f = c.parts f := congrArg (·.parts f) hcore
  have hroot : c'.root = c.root := congrArg (·.root) hcore
  rw [manifest_eq_ok_iff hf, hdrivers, hparts, hroot]

/-- The references of raw drivers, and those that a device declares in plain fields and in its
images, reach the manifest anchored under the fragment's base and, where they are still relative
references, under the driver directory. Under the way to a directory that is not inside the driver
directory only the reference to where the way climbs to is left. -/
theorem references_anchored_twice (hbase : base ≠ "")
    (hrelative : Path.isAbsolute (Path.slashed base) = false)
    (hadd : c.addConfig fragment base = (.ok (), c'))
    (hfinal : c'.finalize project = (.ok (), c'')) :
    ∃ f, c''.finalized = some f ∧
      ((∃ m, c''.manifest = .ok m) ↔
        (∀ d ∈ f.devices, Json.allFieldTexts Path.isPortable d.2 = true) ∧
          ∀ d ∈ c''.drivers, d.allTexts Path.isPortable = true) ∧
      (∀ m, c''.manifest = .ok m →
        m.drivers = (f.devices.map fun d =>
          Manifest.driverOf f.catalog d.1 (Json.mapFieldTexts (Path.anchored c.root) d.2)) ∧
        m.rawDrivers = c.drivers.map (Json.mapTexts (Path.anchored c.root)) ++
          fragment.drivers.map
            (Json.mapTexts fun s => Path.anchored c.root (Path.anchored base s))) ∧
      (∀ s, Path.isRelativeReference s = true →
        Path.anchored c.root (Path.anchored base s) =
          if Path.staysRelative base s then Path.join c.root (Path.join base s)
          else Path.join base s) ∧
      (∀ start goal, base = Path.between start goal →
        ¬ Path.components start <+: Path.components goal →
        ∀ s, Path.isRelativeReference s = true → Path.join base s ≠ ".." →
          Path.anchored c.root (Path.anchored base s) = Path.join c.root (Path.join base s)) ∧
      ∀ id own, (Json.object fragment.devices).distinct = true →
        Fields.get? fragment.devices id = some (.object own) →
        ∃ device, Fields.get? f.devices id = some device ∧
          Device.Keeps
            (Json.mapFieldTexts (fun s => Path.anchored c.root (Path.anchored base s)) own)
            (Json.mapFieldTexts (Path.anchored c.root) device) := by
  obtain ⟨hoptions, anchored, hanchor, hdrivers, hdevices⟩ := anchored_of_addConfig hadd
  obtain ⟨hoptions', hdrivers', f, hf, hassembled⟩ := finalized_of_finalize hfinal
  have hroot : c''.root = c.root := by rw [root, hoptions', hoptions, root]
  obtain ⟨hraw, hanchored⟩ := Fragment.sections_of_anchor hbase hanchor
  refine ⟨f, hf, ?_, ?_, ?_, ?_, ?_⟩
  · simp only [manifest_eq_ok_iff hf, exists_and_left, exists_eq, and_true]
  · intro m hm
    rw [manifest_eq_ok_iff hf, hroot] at hm
    obtain ⟨-, rfl⟩ := hm
    constructor
    · exact List.map_map
    · show c''.drivers.map (Json.mapTexts (Path.anchored c.root)) = _
      rw [hdrivers', hdrivers, hraw, List.map_append, List.map_map]
      congr 1
      apply List.map_congr_left
      intro d _
      exact Json.mapTexts_mapTexts _ _ d
  · intro s hs
    exact Path.anchored_again hrelative hs c.root
  · rintro start goal rfl houtside s hs hne
    exact Path.anchored_again_between houtside hs hne c.root
  · intro id own hdistinct hown
    -- the fragment stands last, so its declaration is the one that is kept
    have hdeclared : Fields.get? c'.devices.declarations id =
        some (.object (Json.mapFieldTexts (Path.anchored base) own)) := by
      rw [hdevices, hanchored]
      apply Fields.get?_override_of_get?
      · rw [Json.names_mapFieldTexts]
        exact (Json.distinct_object.mp hdistinct).1
      · rw [Json.get?_mapFieldTexts, hown]
        rfl
    obtain ⟨device, hdevice, hkeeps⟩ := keeps_of_assembleAll hassembled hdeclared
      ((Json.distinct_mapTexts _ _).trans (Json.distinct_of_get? hdistinct hown))
    refine ⟨device, hdevice, ?_⟩
    rw [← Json.mapFieldTexts_mapFieldTexts]
    exact hkeeps.mapFieldTexts _

def gallery : Fragment := { drivers := [.object [("image", .string "./a.png")]] }

def withGallery (base : String) : Compiler := ((new {}).addConfig gallery base).2

def hallway : Fragment where
  devices := [("lamp", .object [("icon", .string "./i.svg"),
    ("images", .object [("large", .string "./a.png")]),
    ("signal", .object [("id", .string "s")])])]

def withHallway (base : String) : Compiler := ((new {}).addConfig hallway base).2

/-- From beside the driver directory the image of the raw driver is anchored twice, and so are the
icon and the image of the device. -/
theorem gallery_beside_anchored_twice :
    (∃ c'' m, (withGallery "../433_generator").finalize .empty = (.ok (), c'') ∧
      c''.manifest = .ok m ∧
      m.rawDrivers = [.object [("image", .string "./433_generator/a.png")]]) ∧
    ∃ c'' f device images, (withHallway "../433_generator").finalize .empty = (.ok (), c'') ∧
      c''.finalized = some f ∧ Fields.get? f.devices "lamp" = some device ∧
      Fields.get? (Json.mapFieldTexts (Path.anchored "./drivers") device) "icon" =
        some (.string "./433_generator/i.svg") ∧
      Fields.get? (Json.mapFieldTexts (Path.anchored "./drivers") device) "images" =
        some (.object images) ∧
      Fields.get? images "large" = some (.string "./433_generator/a.png") := by
  constructor
  · have hadd : (new {}).addConfig gallery "../433_generator" =
        (.ok (), withGallery "../433_generator") := rfl
    have hfinal : (withGallery "../433_generator").finalize .empty =
        (.ok (), ((withGallery "../433_generator").finalize .empty).2) := rfl
    obtain ⟨f, hf, hmade, htwice, -⟩ :=
      references_anchored_twice (by decide) (by decide) hadd hfinal
    cases hf
    obtain ⟨m, hm⟩ := hmade.mpr (by decide +kernel)
    refine ⟨_, m, hfinal, hm, ?_⟩
    rw [(htwice m hm).2]
    rfl
  · have hadd : (new {}).addConfig hallway "../433_generator" =
        (.ok (), withHallway "../433_generator") := rfl
    have hcoherent := (addConfig_follows (new_coherent {}) hallway "../433_generator").coherent
    have hdone : ((withHallway "../433_generator").completion .empty).isOk = true := by
      decide +kernel
    obtain ⟨done, hdone⟩ := exists_of_isOk hdone
    have hanswer := (finalize_follows hcoherent .empty).answer
    have hfinal : (withHallway "../433_generator").finalize .empty =
        (.ok (), ((withHallway "../433_generator").finalize .empty).2) :=
      Prod.ext (hanswer.trans (by rw [← withHallway, hdone]; rfl)) rfl
    obtain ⟨f, hf, -, -, -, -, hdevices⟩ :=
      references_anchored_twice (by decide) (by decide) hadd hfinal
    obtain ⟨device, hdevice, hkeeps⟩ := hdevices "lamp" _ rfl rfl
    obtain ⟨images, himages, hlarge⟩ := hkeeps.image _ "large" _ rfl rfl
    exact ⟨_, f, device, images, hfinal, hf, hdevice,
      hkeeps.field "icon" _ (by decide) rfl, himages, hlarge⟩

/-- The way from the driver directory to a directory inside it does not climb, so the image is
anchored under it only and not under the driver directory. -/
theorem gallery_inside_left_as_is :
    Path.between "/app/drivers" "/app/drivers/gen/sub" = "gen/sub" ∧
      ∃ c'' m, (withGallery "gen/sub").finalize .empty = (.ok (), c'') ∧ c''.manifest = .ok m ∧
        m.rawDrivers = [.object [("image", .string "gen/sub/a.png")]] ∧
        Path.join "./drivers" (Path.join "gen/sub" "./a.png") = "./drivers/gen/sub/a.png" := by
  refine ⟨by decide +kernel, _, _, rfl, rfl, rfl, by decide +kernel⟩

end Compiler

end RadioDriver
