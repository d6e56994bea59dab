import RadioDriver.Proofs.Compiler.Records
import RadioDriver.Proofs.Compiler.References
import RadioDriver.Proofs.Signal.Entries

namespace RadioDriver

namespace Device

open Signal

/-- The device refers to an entry, and holds its form with the names of the commands. -/
structure Carries (device : Entity) (entry : Entry) : Prop where
  signal : Fields.get? device "signal" = some (.string entry.id)
  definition : Fields.get? device "signalDefinition" = some (.object entry.held)

variable {s : Surroundings} {id : String} {device made : Entity} {registry registry' : Registry}
  {ceiling : Ceiling} {entry : Entry}

theorem Carries.set (h : Carries device entry) {name : String} (hsignal : "signal" ≠ name)
    (hdefinition : "signalDefinition" ≠ name) (value : Json) :
    Carries (Fields.set device name value) entry where
  signal := by rw [Fields.get?_set_of_ne _ _ hsignal, h.signal]
  definition := by rw [Fields.get?_set_of_ne _ _ hdefinition, h.definition]

theorem Carries.pairUp (h : Carries device entry) (hpair : pairUp s id device = .ok made) :
    Carries made entry := by
  rcases pairUp_eq_ok hpair with rfl | ⟨_, _, _, -, -, -, rfl⟩
  · exact h
  · exact h.set (by decide) (by decide) _

theorem Carries.ownSections (h : Carries device entry) :
    Carries (flowSections.foldl (ownSection id) device) entry where
  signal := by rw [get?_ownSections (by decide), h.signal]
  definition := by rw [get?_ownSections (by decide), h.definition]

/-- What assembling a device does to the registry: it keeps every entry and adds at most the one
that the device carries. -/
structure Signs (registry registry' : Registry) (device : Entity) (entry : Entry) : Prop where
  transforms_eq : registry'.transforms = registry.transforms
  entries_grow : registry.entries <+: registry'.entries
  mem : entry ∈ registry'.entries
  carries : Carries device entry
  eq_or_flattened : ∀ e ∈ registry'.entries,
    e ∈ registry.entries ∨ e = entry ∧ e.Flattened registry.transforms

theorem signs_of_assignSignal (h : registry.Indexed ceiling)
    (hassign : assignSignal s id device registry = .ok (made, registry')) :
    registry'.Indexed ceiling ∧ ∃ entry, Signs registry registry' made entry := by
  obtain ⟨definition, answer, -, hregister, rfl⟩ := assignSignal_eq_ok hassign
  obtain ⟨hindexed, htransforms, hgrow, entry, hmem, ⟨isNew, rfl⟩, hentries⟩ :=
    Registry.entry_of_register h hregister
  refine ⟨hindexed, entry, htransforms, hgrow, hmem, ⟨?_, ?_⟩, hentries⟩
  · rw [Fields.get?_set_of_ne _ _ (by decide), Fields.get?_set_self]
    rfl
  · rw [Fields.get?_set_self, Registry.signalCopy_answer]

theorem signs_of_assemble (h : registry.Indexed ceiling)
    (hassemble : assemble s id device registry = .ok (made, registry')) :
    registry'.Indexed ceiling ∧ ∃ entry, Signs registry registry' made entry := by
  obtain ⟨signalled, paired, hassign, hpair, rfl⟩ := assemble_eq_ok hassemble
  obtain ⟨hindexed, entry, hsigns⟩ := signs_of_assignSignal h hassign
  exact ⟨hindexed, entry, hsigns.transforms_eq, hsigns.entries_grow, hsigns.mem,
    (hsigns.carries.pairUp hpair).ownSections, hsigns.eq_or_flattened⟩

end Device

namespace Compiler

open Signal

variable {c c' : Compiler}

/-- What assembling devices does to the registry: every device carries an entry of it, and every new
entry is carried by a device. -/
structure AllSign (registry registry' : Registry) (devices : Fields Entity) : Prop where
  entries_grow : registry.entries <+: registry'.entries
  carries : ∀ d ∈ devices, ∃ entry ∈ registry'.entries, Device.Carries d.2 entry
  carried : ∀ e ∈ registry'.entries, e ∈ registry.entries ∨
    e.Flattened registry.transforms ∧ ∃ d ∈ devices, Device.Carries d.2 e

theorem AllSign.carried_of_empty {registry registry' : Registry} {devices : Fields Entity}
    (h : AllSign registry registry' devices) (hempty : registry.entries = []) :
    ∀ e ∈ registry'.entries,
      e.Flattened registry.transforms ∧ ∃ d ∈ devices, Device.Carries d.2 e := by
  intro e he
  rcases h.carried e he with hold | hnew
  · rw [hempty] at hold
    cases hold
  · exact hnew

theorem assembled_allSign {s : Device.Surroundings} {classes declarations : Fields Json}
    {registry registry' : Registry} {devices : Fields Entity} {ceiling : Ceiling}
    (h : registry.Indexed ceiling)
    (hassembled : assembled s classes declarations registry = .ok (devices, registry')) :
    registry'.Indexed ceiling ∧ AllSign registry registry' devices := by
  induction declarations generalizing registry devices with
  | nil =>
    cases hassembled
    exact ⟨h, List.prefix_rfl, by simp, fun e he => .inl he⟩
  | cons declaration rest ih =>
    obtain ⟨id, declaration⟩ := declaration
    obtain ⟨resolved, device, grown, others, -, hassemble, hrest, rfl⟩ :=
      assembled_cons_eq_ok hassembled
    obtain ⟨hgrown, entry, hsigns⟩ := Device.signs_of_assemble h hassemble
    obtain ⟨hlast, hothers⟩ := ih hgrown hrest
    refine ⟨hlast, hsigns.entries_grow.trans hothers.entries_grow, ?_, ?_⟩
    · intro d hd
      rcases List.mem_cons.mp hd with rfl | hd
      · -- the entry is there when the last device is assembled
        exact ⟨entry, hothers.entries_grow.subset hsigns.mem, hsigns.carries⟩
      · exact hothers.carries d hd
    · intro e he
      rcases hothers.carried e he with hold | ⟨hflat, d, hd, hcarries⟩
      · rcases hsigns.eq_or_flattened e hold with hold | ⟨rfl, hflat⟩
        · exact .inl hold
        · exact .inr ⟨hflat, _, List.mem_cons_self, hsigns.carries⟩
      · rw [hsigns.transforms_eq] at hflat
        exact .inr ⟨hflat, d, List.mem_cons_of_mem _ hd, hcarries⟩

end Compiler

namespace Manifest

open Signal

/-- The signal under an id of a radio type. -/
def lookUp (signals : Fields (Fields Json)) (radio id : String) : Option Json :=
  (Fields.get? signals radio).bind (Fields.get? · id)

variable {signals declared : Fields (Fields Json)} {registry : Registry} {ceiling : Ceiling}
  {radio : Radio}

theorem lookUp_eq (signals : Fields (Fields Json)) (radio id : String) :
    lookUp signals radio id = Fields.get? ((Fields.get? signals radio).getD []) id := by
  unfold lookUp
  cases Fields.get? signals radio <;> rfl

theorem lookUp_addSignals (signals : Fields (Fields Json)) (radio : String) (more : Fields Json)
    (other id : String) : lookUp (addSignals signals radio more) other id =
      if other = radio then (Fields.get? more.reverse id).or (lookUp signals other id)
      else lookUp signals other id := by
  rw [lookUp_eq, lookUp_eq, addSignals]
  split
  · next h =>
    rw [h, Fields.get?_set_self, Option.getD_some, Fields.get?_override]
  · next h => rw [Fields.get?_set_of_ne _ _ h]

/-- Tables of signals whose names are apart, each free of repeated ids. -/
structure Tidy (declared : Fields (Fields Json)) : Prop where
  radios : (Fields.names declared).Nodup
  ids : ∀ radio table, Fields.get? declared radio = some table → (Fields.names table).Nodup

theorem lookUp_foldl (h : (Fields.names declared).Nodup) (other id : String) :
    lookUp (declared.foldl (fun acc d => addSignals acc d.1 d.2) signals) other id =
      (Fields.get? ((Fields.get? declared other).getD []).reverse id).or
        (lookUp signals other id) := by
  induction declared generalizing signals with
  | nil => rfl
  | cons d rest ih =>
    obtain ⟨radio, table⟩ := d
    obtain ⟨hnew, hrest⟩ := List.nodup_cons.mp h
    rw [List.foldl_cons, ih hrest, lookUp_addSignals, Fields.get?]
    by_cases hradio : radio = other
    · subst hradio
      -- the radio type is not named again, so its one table decides
      rw [Fields.get?_eq_none_iff.mpr hnew]
      simp [Fields.get?]
    · rw [if_neg hradio, if_neg (Ne.symm hradio)]

theorem lookUp_blank (other id : String) :
    lookUp (Radio.all.map fun r => (r.name, [])) other id = none := by
  simp only [lookUp, Radio.all, List.map_cons, List.map_nil, Fields.get?]
  repeat' split
  all_goals rfl

/-- The manifest has the registered signals of the compiled radio type, and those declared ones that
no registered signal of that type stands before. -/
theorem lookUp_signalsOf (hdeclared : Tidy declared) (hr : registry.Indexed ceiling)
    (other id : String) : lookUp (signalsOf radio declared registry) other id =
      if other = radio.name then
        ((registry.get? id).map signalDefinition).or (lookUp declared other id)
      else lookUp declared other id := by
  have hlisted : lookUp (declared.foldl (fun acc d => addSignals acc d.1 d.2)
      (Radio.all.map fun r => (r.name, []))) other id = lookUp declared other id := by
    rw [lookUp_foldl hdeclared.radios, lookUp_blank, Option.or_none, lookUp_eq]
    cases htable : Fields.get? declared other with
    | none => rfl
    | some table => exact Fields.get?_reverse (hdeclared.ids other table htable) id
  have hids : (Fields.names (registry.entries.map fun e => (e.id, signalDefinition e))).Nodup := by
    rw [Registry.names_listed]
    exact hr.ids_nodup
  rw [signalsOf, lookUp_addSignals, hlisted, Fields.get?_reverse hids, hr.get?_listed]

end Manifest

namespace Compiler

open Signal

variable {c c' : Compiler} {p : History}

theorem nodup_declare (signals : Fields Json) :
    (Fields.names (declare [] signals)).Nodup := by
  induction signals using List.reverseRecOn with
  | nil => exact List.nodup_nil
  | append_singleton signals last ih =>
    rw [declare_append]
    exact Fields.nodup_set ih

theorem Records.tidy (h : Records p c) : Manifest.Tidy c.declaredSignals where
  radios := by
    rw [h.accumulates.signals_eq]
    exact nodup_declare _
  ids := by
    intro radio table htable
    have heq := get?_declare [] (p.fragments.flatMap (·.signals)) radio
    rw [← h.accumulates.signals_eq, htable, Option.getD_some] at heq
    rw [heq]
    apply Fields.nodup_override
    exact List.nodup_nil

theorem Records.lookUp_declared (h : Records p c) (radio id : String) :
    Manifest.lookUp c.declaredSignals radio id =
      Fields.get? (signalsFor radio (p.fragments.flatMap (·.signals))).reverse id := by
  rw [Manifest.lookUp_eq, h.accumulates.signals_eq, get?_declare, Fields.get?_override]
  exact Option.or_none

theorem Records.indexed (h : Records p c) :
    c.registry.entries = [] ∧ c.registry.Indexed p.options.ceiling := by
  rw [h.accumulates.registry_eq]
  have hnew := Registry.indexed_new p.options.ceiling
  exact ⟨rfl, hnew.ceiling_eq, hnew.ids_nodup, hnew.byId_iff, hnew.byContent_eq, hnew.admissible⟩

/-- A manifest has the registered signals of the compiled radio type before the declared ones. -/
theorem Records.lookUp_manifest (h : Records p c) {f : Finalized} {ceiling : Ceiling} {m : Manifest}
    (hcore : c'.core = { c with finalized := some f }.core) (hindexed : f.registry.Indexed ceiling)
    (hm : c'.manifest = .ok m) (radio id : String) :
    Manifest.lookUp m.signals radio id =
      if radio = c.options.radio.name then
        ((f.registry.get? id).map Manifest.signalDefinition).or
          (Manifest.lookUp c.declaredSignals radio id)
      else Manifest.lookUp c.declaredSignals radio id := by
  obtain ⟨-, rfl⟩ := (manifest_of_core_eq hcore).mp hm
  exact Manifest.lookUp_signalsOf h.tidy hindexed radio id

/-- After a finalization the devices and the manifest agree on signals. Every device refers to a
registered signal and holds its fields with the names of its commands, where the manifest has the
flattened commands; every registered signal is that of a device; and a signal that is declared but
not registered, or declared for another radio type, is in the manifest as it was last declared. -/
theorem finalized_signals_agree (h : Reachable c) {project : Catalog}
    (hok : c.finalize project = (.ok (), c')) :
    ∃ f, c'.finalized = some f ∧
      c'.deviceConfig = .ok (.object [("devices", entitiesJson f.devices)]) ∧
      (∀ d ∈ f.devices, ∃ entry held,
        Fields.get? d.2 "signal" = some (.string entry.id) ∧
          Fields.get? d.2 "signalDefinition" = some (.object held) ∧
          c'.currentRegistry.get? entry.id = some entry ∧
          entry.Flattened c.registry.transforms ∧
          ∀ m, c'.manifest = .ok m → ∃ emitted,
            Manifest.lookUp m.signals c.options.radio.name entry.id = some (.object emitted) ∧
              SameSignal entry.commands emitted held) ∧
      (∀ entry ∈ c'.currentRegistry.entries,
        ∃ d ∈ f.devices, Fields.get? d.2 "signal" = some (.string entry.id)) ∧
      ∀ m, c'.manifest = .ok m → ∀ p, Past p c → ∀ radio id definition,
        Fields.get? (signalsFor radio (p.fragments.flatMap (·.signals))).reverse id =
          some definition →
        radio ≠ c.options.radio.name ∨ c'.currentRegistry.get? id = none →
        Manifest.lookUp m.signals radio id = some definition := by
  obtain ⟨f, hcompletion, hcore⟩ := completion_of_finalize h.coherent hok
  obtain ⟨hassembled, -⟩ := assembled_of_completion hcompletion
  have hf : c'.finalized = some f := congrArg (·.finalized) hcore
  have hregistry : c'.currentRegistry = f.registry := congrArg currentRegistry hcore
  obtain ⟨q, hq⟩ := h.exists_past
  have hrecords := hq.records
  obtain ⟨hempty, hindexed⟩ := hrecords.indexed
  obtain ⟨hlast, hsign⟩ := assembled_allSign hindexed hassembled
  have hcarried := hsign.carried_of_empty hempty
  rw [hregistry]
  refine ⟨f, hf, ?_, ?_, ?_, ?_⟩
  · unfold deviceConfig result
    rw [hf]
    rfl
  · intro d hd
    obtain ⟨entry, hentry, hcarries⟩ := hsign.carries d hd
    have hget := hlast.get?_of_mem hentry
    refine ⟨entry, entry.held, hcarries.signal, hcarries.definition, hget,
      (hcarried entry hentry).1, ?_⟩
    intro m hm
    refine ⟨entry.emitted, ?_, Registry.sameSignal_of_admissible (hlast.admissible entry hentry)⟩
    rw [hrecords.lookUp_manifest hcore hlast hm, if_pos rfl, hget, Option.map_some,
      Registry.signalDefinition_eq,
      Option.some_or]
  · intro entry hentry
    obtain ⟨-, d, hd, hcarries⟩ := hcarried entry hentry
    exact ⟨d, hd, hcarries.signal⟩
  · intro m hm p hp radio id definition hdefinition hother
    rw [← hp.records.lookUp_declared] at hdefinition
    rw [hrecords.lookUp_manifest hcore hlast hm, hdefinition]
    split
    · next hradio =>
      rcases hother with hne | hnone
      · exact absurd hradio hne
      · rw [hnone, Option.map_none, Option.none_or]
    · rfl

/-- A device with a signal of its own, and a signal for another radio type. -/
def desk : Fragment :=
  { devices := [("desk", .object [("signal",
      .object [("id", .string "beam"), ("cmds", .object [("on", .string "01")])])])]
    signals := [("868", .object [("spare", .object [("sof", .array [.ofNat 1])])])] }

def withDesk : Compiler := ((new {}).perform (.addConfig desk "")).2

theorem past_desk : Past { options := {}, added := [(desk, "")] } withDesk := by
  have hok : ((new {}).perform (.addConfig desk "")).1 = .ok () := rfl
  exact (Past.new {}).accepted hok

/-- Whether the only device has the signal `beam` and no text that stands against a manifest. -/
def isDesk (f : Finalized) : Bool :=
  match f.devices with
  | [(_, device)] => Json.allFieldTexts Path.isPortable device &&
      (Fields.get? device "signal").bind Json.string? == some "beam"
  | _ => false

theorem completion_desk : ∃ f, withDesk.completion .empty = .ok f ∧ isDesk f = true :=
  exists_of_any (by decide +kernel)

/-- The signal of the desk is in the manifest with its command, and the spare signal beside it. -/
theorem desk_signals_agree :
    ∃ c' m emitted held commands, withDesk.finalize .empty = (.ok (), c') ∧ c'.manifest = .ok m ∧
      Manifest.lookUp m.signals "433" "beam" = some (.object emitted) ∧
      SameSignal commands emitted held ∧
      Manifest.lookUp m.signals "868" "spare" =
        some (.object [("sof", .array [.ofNat 1])]) := by
  obtain ⟨f, hcompletion, hdesk⟩ := completion_desk
  have hreachable := past_desk.reachable
  have hout : withDesk.outcome (.finalize .empty) = .ok { withDesk with finalized := some f } := by
    rw [outcome, hcompletion]
    rfl
  obtain ⟨hanswer, hcore, -⟩ := perform_of_outcome hreachable.coherent hout
  have hok : withDesk.finalize .empty = (.ok (), (withDesk.finalize .empty).2) :=
    Prod.ext hanswer rfl
  obtain ⟨g, hg, -, hdevices, -, hdeclared⟩ := finalized_signals_agree hreachable hok
  have hgf : g = f := by
    have hf : (withDesk.finalize .empty).2.finalized = some f := congrArg (·.finalized) hcore
    exact Option.some.inj (hg.symm.trans hf)
  subst hgf
  unfold isDesk at hdesk
  split at hdesk
  · next id device honly =>
    rw [Bool.and_eq_true, beq_iff_eq] at hdesk
    -- no text stands against the manifest
    have hmanifest := (manifest_of_core_eq hcore).mpr
      ⟨⟨by simpa [honly] using hdesk.1, List.forall_mem_nil _⟩, rfl⟩
    obtain ⟨entry, held, hsignal, -, -, -, hemitted⟩ := hdevices (id, device) (by simp [honly])
    have hbeam : entry.id = "beam" := by
      simpa [hsignal, Json.string?] using hdesk.2
    obtain ⟨emitted, hlookUp, hsame⟩ := hemitted _ hmanifest
    refine ⟨_, _, emitted, held, entry.commands, hok, hmanifest, ?_, hsame, ?_⟩
    · rw [← hbeam]
      exact hlookUp
    · exact hdeclared _ hmanifest _ past_desk "868" "spare" _ rfl (.inl (by decide))
  · cases hdesk

end Compiler

end RadioDriver
