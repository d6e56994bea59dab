import RadioDriver.Proofs.Compiler.Records
import RadioDriver.Proofs.Fragment.Unmarked
import RadioDriver.Proofs.Manifest.Unmarked

namespace RadioDriver.Compiler

open RadioDriver.Json RadioDriver.Locale RadioDriver.Device

variable {p : History} {c c' : Compiler}

/-- Every text but those the resolvers remember is unmarked. -/
structure Unmarked (c : Compiler) : Prop where
  views : allFieldTexts isUnmarked c.views.declarations = true
  deviceClasses : allFieldTexts isUnmarked c.deviceClasses.declarations = true
  devices : allFieldTexts isUnmarked c.devices.declarations = true
  signals : AllEntryTexts isUnmarked c.declaredSignals
  drivers : ∀ d ∈ c.drivers, d.allTexts isUnmarked = true
  globals : allFieldTexts isUnmarked c.globals = true
  builtin : c.builtin.Clean
  registry : c.registry.Unmarked

section
variable {options : CompilerOptions} {texts : Catalog} {fragments : List Fragment}
  {transforms : List (String × Signal.Transform)}

theorem allFieldTexts_sections {part : Fragment → Fields Json}
    (h : ∀ f ∈ fragments, allFieldTexts isUnmarked (part f) = true) :
    allFieldTexts isUnmarked (Fields.ofPairs (fragments.flatMap part)) = true := by
  rw [allFieldTexts_iff]
  intro field hfield
  obtain ⟨f, hf, hpart⟩ := List.mem_flatMap.mp (Fields.mem_of_mem_ofPairs hfield)
  exact allFieldTexts_iff.mp (h f hf) field hpart

theorem allEntryTexts_declare {declared : Fields (Fields Json)} {signals : Fields Json}
    (h : AllEntryTexts isUnmarked declared)
    (hsignals : ∀ s ∈ signals, s.2.allTexts isUnmarked = true) :
    AllEntryTexts isUnmarked (declare declared signals) := by
  refine List.foldlRecOn signals _ h ?_
  intro table htable s hs
  refine htable.set (allFieldTexts_override (htable.getD s.1 rfl) ?_)
  cases hfields : s.2.fields? with
  | none => rfl
  | some fields => exact allFieldTexts_of_fields? (hsignals s hs) hfields

theorem clean_addTexts (h : texts.Clean) (fragment : Fragment) :
    (addTexts texts fragment).Clean := by
  unfold addTexts
  split
  · exact h
  · exact h.extendAuthored _

theorem Accumulates.unmarked (h : Accumulates options texts transforms fragments c)
    (htexts : texts.Clean) (hfragments : ∀ f ∈ fragments, f.Unmarked) : c.Unmarked where
  views := by
    rw [h.views_eq]
    exact allFieldTexts_sections fun f hf => (hfragments f hf).views
  deviceClasses := by
    rw [h.classes_eq]
    exact allFieldTexts_sections fun f hf => (hfragments f hf).deviceClasses
  devices := by
    rw [h.devices_eq]
    exact allFieldTexts_sections fun f hf => (hfragments f hf).devices
  signals := by
    rw [h.signals_eq]
    apply allEntryTexts_declare .nil
    intro s hs
    obtain ⟨f, hf, hpart⟩ := List.mem_flatMap.mp hs
    exact allFieldTexts_iff.mp (hfragments f hf).signals s hpart
  drivers := by
    rw [h.drivers_eq]
    intro d hd
    obtain ⟨f, hf, hpart⟩ := List.mem_flatMap.mp hd
    exact (hfragments f hf).drivers d hpart
  globals := by
    rw [h.globals_eq]
    exact allFieldTexts_sections fun f hf => (hfragments f hf).globals
  builtin := by
    rw [h.builtin_eq]
    exact List.foldlRecOn fragments addTexts htexts fun _ hmerged f _ => clean_addTexts hmerged f
  registry := by
    rw [h.registry_eq]
    exact fun e he => nomatch he

end

/-- The accepted fragments are unmarked outside their locale sections, and no base holds the
mark. -/
def History.Unmarked (p : History) : Prop :=
  ∀ f ∈ p.added, f.1.Unmarked ∧ fillMark ∉ f.2.toList

theorem History.Unmarked.fragment (h : p.Unmarked) : ∀ f ∈ p.fragments, f.Unmarked := by
  have haccepted : ∀ f ∈ p.accepted, f.1.Unmarked ∧ fillMark ∉ f.2.toList := by
    intro f hf
    rcases List.mem_append.mp hf with hbuiltin | hadded
    · split at hbuiltin
      · rw [List.mem_singleton.mp hbuiltin]
        exact ⟨Builtin.unmarked_fragment, by decide⟩
      · cases hbuiltin
    · exact h f hadded
  intro f hf
  obtain ⟨source, hsource, hanchored⟩ := List.mem_filterMap.mp hf
  obtain ⟨hunmarked, hbase⟩ := haccepted source hsource
  cases hanchor : source.1.anchor source.2 with
  | error e =>
    rw [hanchor] at hanchored
    cases hanchored
  | ok anchored =>
    rw [hanchor] at hanchored
    cases hanchored
    exact hunmarked.anchor hbase hanchor

theorem Past.unmarked (h : Past p c) (hp : p.Unmarked) : c.Unmarked := by
  refine h.records.accumulates.unmarked ?_ hp.fragment
  unfold History.startTexts
  split
  · exact Builtin.clean_catalog
  · exact Catalog.clean_empty

theorem Unmarked.surroundings (h : c.Unmarked) (hresolved : c.Resolved) :
    c.surroundings.Unmarked where
  views := by
    have hcombine : ∀ (id : String) (ancestors : List Entity) (own : Entity),
        (∀ a ∈ ancestors, allFieldTexts isUnmarked a = true) → allFieldTexts isUnmarked own = true →
          allFieldTexts isUnmarked (View.rules.combine id ancestors own) = true :=
      fun _ _ _ => View.allFieldTexts_combine
    exact Lineage.entities_keep hcombine h.views hresolved.views
  declaredSignals := h.signals.getD _ rfl
  globalDriver := fun _ hv => allTexts_of_get? h.globals (eq_some_of_present hv)
  globalSignal := fun _ hv => allTexts_of_get? h.globals (eq_some_of_present hv)

theorem allPrepared_of_detached {classes : Fields Json} {id : String} {declaration : Json}
    {e : Entity}
    (hclasses : allFieldTexts isUnmarked classes = true)
    (hdeclaration : declaration.allTexts isUnmarked = true)
    (h : Lineage.detached DeviceClass.rules classes id declaration = .ok e) : AllPrepared id e := by
  intro f hf
  rcases DeviceClass.field_of_detached hclasses hdeclaration h f hf with hplain | rfl
  · exact .plain hplain
  · exact .id

/-- Devices that are assembled in order, each with the registry that the one before left, are
emitted with unmarked texts. -/
theorem allEmitted_of_assembled {s : Surroundings} {classes declarations : Fields Json}
    {registry registry' : Signal.Registry} {devices : Fields Entity} (hs : s.Unmarked)
    (hclasses : allFieldTexts isUnmarked classes = true)
    (hdeclarations : allFieldTexts isUnmarked declarations = true) (hregistry : registry.Unmarked)
    (h : assembled s classes declarations registry = .ok (devices, registry')) :
    ∀ d ∈ devices, AllEmitted d.1 d.2 := by
  induction declarations generalizing registry devices with
  | nil =>
    cases h
    exact fun d hd => nomatch hd
  | cons declaration rest ih =>
    obtain ⟨id, declaration⟩ := declaration
    simp only [allFieldTexts, Bool.and_eq_true] at hdeclarations
    obtain ⟨resolved, device, grown, others, hdetached, hassemble, hrest, rfl⟩ :=
      assembled_cons_eq_ok h
    have hprepared := allPrepared_of_detached hclasses hdeclarations.1 hdetached
    obtain ⟨hemitted, hgrown⟩ := hprepared.assemble hs hregistry hassemble
    exact List.forall_mem_cons.mpr ⟨hemitted, ih hdeclarations.2 hgrown hrest⟩

theorem Unmarked.allEmitted (h : c.Unmarked) (hresolved : c.Resolved) {project : Catalog}
    {f : Finalized}
    (hdone : c.completion project = .ok f) : ∀ d ∈ f.devices, AllEmitted d.1 d.2 :=
  allEmitted_of_assembled (h.surroundings hresolved) h.deviceClasses h.devices h.registry
    (assembled_of_completion hdone).1

theorem Unmarked.catalog (h : c.Unmarked) (hresolved : c.Resolved) {project : Catalog}
    {f : Finalized}
    (hproject : project.Unmarked) (hdone : c.completion project = .ok f) : f.catalog.Unmarked :=
  hproject.backfill h.builtin (isMarked_keyPaths (h.allEmitted hresolved hdone))
    (assembled_of_completion hdone).2

theorem not_mem_root (h : fillMark ∉ c.options.driverDir.toList) : fillMark ∉ c.root.toList := by
  rw [root, String.toList_append, List.mem_append, not_or]
  exact ⟨by decide, h⟩

theorem locales_of_finalized {f : Finalized} (hf : c.finalized = some f) :
    c.locales = .ok f.catalog := by
  rw [locales, result, hf]
  rfl

/-- No mark is given out. Whatever the files of a project hold, its texts after a finalization end
in no mark, and neither do those a manifest shows: names and settings of drivers, the texts of flow
cards, and drivers that were taken over as they are. -/
theorem finalized_gives_no_mark (h : Past p c) (hp : p.Unmarked)
    (hdriverDir : fillMark ∉ p.options.driverDir.toList) {store : LocaleStore} {disk : Disk}
    {project : Catalog} (hload : ((store.load : StateM Disk _).run disk).1 = .ok project)
    (hfinal : c.finalize project = (.ok (), c')) :
    (∃ catalog, c'.locales = .ok catalog ∧ ∀ t ∈ catalog.tables,
      (∀ leaf ∈ t.2.leaves, isMarked leaf.2 = false) ∧
        ∀ path text, t.2.text? path = some text → isMarked text = false) ∧
      ∀ m, c'.manifest = .ok m → m.Unmarked := by
  have hunmarked := h.unmarked hp
  have hresolved := h.reachable.resolved
  obtain ⟨f, hdone, hcore⟩ := completion_of_finalize h.reachable.coherent hfinal
  have hf : c'.finalized = some f := congrArg (·.finalized) hcore
  have hcatalog := hunmarked.catalog hresolved (store.load_unmarked hload) hdone
  constructor
  · exact ⟨f.catalog, locales_of_finalized hf,
      fun t ht => ⟨fun _ => (hcatalog t ht).leaf, fun _ _ => (hcatalog t ht).text⟩⟩
  · intro m hm
    obtain ⟨⟨hportable, hdriversPortable⟩, rfl⟩ := (manifest_of_core_eq hcore).mp hm
    -- a text that is anchored is made of the root and of itself
    have hroot : fillMark ∉ c.root.toList := by
      apply not_mem_root
      rw [h.records.accumulates.options_eq]
      exact hdriverDir
    exact Manifest.unmarked_assembled (fun _ => Path.isUnmarked_anchored hroot) hcatalog
      (hunmarked.allEmitted hresolved hdone) hportable hunmarked.drivers hdriversPortable
      fun _ hflow => allTexts_of_get? hunmarked.globals hflow

def markedDisk : Disk where
  nodes := [(["t"], .directory),
    (["t", "en.json"], .file "\x7b\"a\":\"A\\u0000\\u0000\",\"y\":\"Y\\u0000\"\x7d".toUTF8)]

/-- A device with key paths in its settings and in a flow card, and texts of which one is marked. -/
def porch : Fragment where
  devices := [("lamp", .object [("name", .string "z"),
    ("settings", .array [.object [("label", .string "a")]]),
    ("triggers", .array [.object [("title", .string "c")]]),
    ("signal", .object [("id", .string "s")])])]
  locales := some [("en", .object [("a", .string "B"), ("c", .string "C\x00\x00")])]

def withPorch : Compiler := ((new {}).perform (.addConfig porch "lib")).2

theorem past_porch : Past { options := {}, added := [(porch, "lib")] } withPorch := by
  have hok : ((new {}).perform (.addConfig porch "lib")).1 = .ok () := rfl
  exact (Past.new {}).accepted hok

theorem unmarked_porch : porch.Unmarked where
  views := rfl
  deviceClasses := rfl
  devices := by decide +kernel
  signals := rfl
  drivers := fun _ h => nomatch h
  globals := rfl

/-- Whether the texts are a merged one, one of the file and two paths, and a manifest shows one
card. -/
def isPorch (f : Finalized) : Bool :=
  (f.catalog.get? "en").map (·.leaves) == some [("a", "B"), ("y", "Y"), ("z", "z"), ("c", "c")] &&
    f.devices.all (fun d => Json.allFieldTexts Path.isPortable d.2) &&
    (Manifest.assembled (withPorch.parts f)
      (Path.anchored withPorch.root)).flow.triggers.length == 1

theorem completion_porch : ∃ project f,
    (((⟨"/t"⟩ : LocaleStore).load : StateM Disk _).run markedDisk).1 = .ok project ∧
      withPorch.completion project = .ok f ∧ isPorch f = true := by
  have hdone : (((⟨"/t"⟩ : LocaleStore).load : StateM Disk _).run markedDisk).1.toOption.any
      (fun project => (withPorch.completion project).toOption.any isPorch) = true := by
    decide +kernel
  obtain ⟨project, hload, hproject⟩ := exists_of_any hdone
  obtain ⟨f, hf, hporch⟩ := exists_of_any hproject
  exact ⟨project, f, hload, hf, hporch⟩

/-- The marks of the directory and of the merged texts are not given out. -/
theorem porch_gives_no_mark :
    ∃ project c' catalog m, withPorch.finalize project = (.ok (), c') ∧
      (((⟨"/t"⟩ : LocaleStore).load : StateM Disk _).run markedDisk).1 = .ok project ∧
      c'.locales = .ok catalog ∧
      (catalog.get? "en").map (·.leaves) =
        some [("a", "B"), ("y", "Y"), ("z", "z"), ("c", "c")] ∧
      (∀ t ∈ catalog.tables, ∀ path text, t.2.text? path = some text → isMarked text = false) ∧
      c'.manifest = .ok m ∧ m.flow.triggers.length = 1 ∧ m.Unmarked := by
  obtain ⟨project, f, hload, hcompletion, hporch⟩ := completion_porch
  have hcoherent := past_porch.reachable.coherent
  have hout :
      withPorch.outcome (.finalize project) = .ok { withPorch with finalized := some f } := by
    rw [outcome, hcompletion]
    rfl
  obtain ⟨hanswer, hcore, -⟩ := perform_of_outcome hcoherent hout
  have hok : withPorch.finalize project = (.ok (), (withPorch.finalize project).2) :=
    Prod.ext hanswer rfl
  have hadded : History.Unmarked { options := {}, added := [(porch, "lib")] } := by
    intro g hg
    rw [List.mem_singleton.mp hg]
    exact ⟨unmarked_porch, by decide⟩
  obtain ⟨⟨catalog, hcatalog, hclean⟩, hshown⟩ :=
    finalized_gives_no_mark past_porch hadded (by decide) hload hok
  have hf : (withPorch.finalize project).2.finalized = some f := congrArg (·.finalized) hcore
  simp only [isPorch, Bool.and_eq_true, beq_iff_eq, List.all_eq_true] at hporch
  obtain ⟨⟨hleaves, hportable⟩, htrigger⟩ := hporch
  have hmanifest := (manifest_of_core_eq hcore).mpr ⟨⟨hportable, List.forall_mem_nil _⟩, rfl⟩
  have hsame : f.catalog = catalog :=
    Except.ok.inj ((locales_of_finalized hf).symm.trans hcatalog)
  exact ⟨project, _, catalog, _, hok, hload, hcatalog, hsame ▸ hleaves,
    fun t ht => (hclean t ht).2, hmanifest, htrigger, hshown _ hmanifest⟩

end RadioDriver.Compiler
