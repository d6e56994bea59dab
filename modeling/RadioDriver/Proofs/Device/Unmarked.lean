import RadioDriver.Proofs.Device.Pairing
import RadioDriver.Proofs.Inherit.Texts
import RadioDriver.Proofs.Locale.KeyPaths
import RadioDriver.Proofs.Signal.Entries
import RadioDriver.Proofs.Signal.Unmarked

namespace RadioDriver

open RadioDriver.Json RadioDriver.Locale RadioDriver.Signal

namespace Device

variable {s : Surroundings} {id name : String} {device made : Entity}
  {registry registry' : Registry} {definition v : Json} {fields : Fields Json}

/-- No text of what the devices share is marked. -/
structure Surroundings.Unmarked (s : Surroundings) : Prop where
  views : AllEntryTexts isUnmarked s.views
  declaredSignals : allFieldTexts isUnmarked s.declaredSignals = true
  globalDriver : ∀ v, s.globalDriver = some v → v.allTexts isUnmarked = true
  globalSignal : ∀ v, s.globalSignal = some v → v.allTexts isUnmarked = true

/-- A field of a device whose flow cards are not its own yet. Only the names of the device and of
the commands may be marked. -/
inductive Prepared (id : String) : String × Json → Prop
  | plain {name : String} {v : Json} (h : v.allTexts isUnmarked = true) : Prepared id (name, v)
  | id : Prepared id ("id", .string id)
  | definition {content : Fields Json} (commands : List String)
      (h : allFieldTexts isUnmarked content = true) :
      Prepared id ("signalDefinition", .object (Fields.set content "cmds" (.ofStrings commands)))

/-- A field of an assembled device: its flow cards were unmarked before they became its own. -/
inductive Emitted (id : String) : String × Json → Prop
  | prepared {f : String × Json} (h : Prepared id f) : Emitted id f
  | cards {name : String} {cards : List Json} (hname : name ∈ flowSections)
      (h : ∀ card ∈ cards, card.allTexts isUnmarked = true) :
      Emitted id (name, .array (cards.map (ownCard id)))

/-- Every field of the device is prepared. -/
def AllPrepared (id : String) (device : Entity) : Prop := ∀ f ∈ device, Prepared id f

/-- Every field of the device is emitted. -/
def AllEmitted (id : String) (device : Entity) : Prop := ∀ f ∈ device, Emitted id f

theorem Prepared.allTexts (h : Prepared id (name, v)) (hid : name ≠ "id")
    (hdefinition : name ≠ "signalDefinition") : v.allTexts isUnmarked = true := by
  cases h with
  | plain h => exact h
  | id => exact absurd rfl hid
  | definition => exact absurd rfl hdefinition

theorem Prepared.allTexts_section (h : Prepared id (name, v)) (hname : name ∈ flowSections) :
    v.allTexts isUnmarked = true := by
  have hids : "id" ∉ flowSections ∧ "signalDefinition" ∉ flowSections := by decide
  exact h.allTexts (fun heq => hids.1 (heq ▸ hname)) (fun heq => hids.2 (heq ▸ hname))

theorem AllPrepared.get? (h : AllPrepared id device) (hid : name ≠ "id")
    (hdefinition : name ≠ "signalDefinition") (hv : Fields.get? device name = some v) :
    v.allTexts isUnmarked = true :=
  (h _ (Fields.mem_of_get? hv)).allTexts hid hdefinition

theorem AllPrepared.set (h : AllPrepared id device) (hv : Prepared id (name, v)) :
    AllPrepared id (Fields.set device name v) := by
  intro f hf
  rcases Fields.mem_of_mem_set hf with hold | rfl
  · exact h f hold
  · exact hv

theorem eq_some_of_present {value : Option Json} (h : present value = some v) : value = some v := by
  unfold present at h
  split at h <;> simp_all

theorem AllPrepared.withDriver (h : AllPrepared id device) (hs : s.Unmarked) :
    AllPrepared id (withDriver s device) := by
  unfold Device.withDriver
  split
  · next driver _ hdriver => exact h.set (.plain (hs.globalDriver _ hdriver))
  · exact h

theorem allTexts_namedSignal (hs : s.Unmarked) (hregistry : registry.Unmarked)
    (hname : isUnmarked name = true) (h : namedSignal s id name registry = .ok definition) :
    definition.allTexts isUnmarked = true := by
  unfold namedSignal at h
  split at h
  · next hdeclared =>
    cases h
    exact allFieldTexts_set (allTexts_of_get? hs.declaredSignals hdeclared)
      (allTexts_string.mpr hname)
  · next hentry _ =>
    cases h
    exact allFieldTexts_set (hregistry _ (Registry.mem_of_get? hentry)).content
      (allTexts_string.mpr hname)
  · cases h

theorem AllPrepared.signalOf (h : AllPrepared id device) (hs : s.Unmarked)
    (hregistry : registry.Unmarked) (hsignal : signalOf s id device registry = .ok definition) :
    definition.allTexts isUnmarked = true := by
  have hsource : ∀ v, (present (Fields.get? device "signal")).or s.globalSignal = some v →
      v.allTexts isUnmarked = true := by
    intro v hv
    rcases Option.or_eq_some_iff.mp hv with hown | ⟨-, hglobal⟩
    · exact h.get? (by decide) (by decide) (eq_some_of_present hown)
    · exact hs.globalSignal v hglobal
  unfold Device.signalOf at hsignal
  split at hsignal
  · cases hsignal
  · next name hname => exact allTexts_namedSignal hs hregistry (hsource _ hname) hsignal
  · next definition hdefinition =>
    cases hsignal
    exact hsource _ hdefinition

theorem prepared_signalCopy {entry : Entry} (h : entry.Unmarked) (isNew : Bool) :
    Prepared id ("signalDefinition", signalCopy (Registry.answer entry isNew)) := by
  rw [Registry.signalCopy_answer, Entry.held]
  split
  · exact .definition _ h.content
  · exact .plain h.content

theorem AllPrepared.assignSignal (h : AllPrepared id device) (hs : s.Unmarked)
    (hregistry : registry.Unmarked)
    (hassign : assignSignal s id device registry = .ok (made, registry')) :
    AllPrepared id made ∧ registry'.Unmarked := by
  obtain ⟨definition, answer, hsignal, hregister, rfl⟩ := assignSignal_eq_ok hassign
  obtain ⟨hgrown, entry, hentry, isNew, rfl⟩ :=
    hregistry.register (h.signalOf hs hregistry hsignal) hregister
  have hunmarked := hgrown entry hentry
  have hid : Prepared id ("signal", .string entry.id) := .plain (allTexts_string.mpr hunmarked.id)
  exact ⟨(h.set hid).set (prepared_signalCopy hunmarked isNew), hgrown⟩

theorem isUnmarked_orderNames {order : Json} (h : order.allTexts isUnmarked = true) :
    ∀ name ∈ orderNames order, isUnmarked name = true := by
  cases order with
  | array items =>
    intro name hname
    obtain ⟨v, hv, hstring⟩ := List.mem_filterMap.mp hname
    have htext : v.allTexts isUnmarked = true := allTexts_array.mp h v hv
    cases v with
    | string text =>
      cases hstring
      exact allTexts_string.mp htext
    | _ => cases hstring
  | string name => exact List.forall_mem_singleton.mpr (allTexts_string.mp h)
  | _ => simp [orderNames]

theorem allTexts_fallback {shown : Entity} (h : allFieldTexts isUnmarked shown = true)
    (option : String) : (fallback (schemaOf shown option)).allTexts isUnmarked = true := by
  have hschema : (schemaOf shown option).allTexts isUnmarked = true := by
    unfold schemaOf
    split
    · rfl
    · cases hget : Fields.get? (View.optionsOf shown) option with
      | none => rfl
      | some schema =>
        exact allTexts_of_get? (allFieldTexts_getD fun _ hv => allTexts_of_get? h hv) hget
  unfold fallback
  cases hdefault : (schemaOf shown option).field? "default" with
  | none => exact allTexts_string.mpr (by decide)
  | some v => exact allTexts_of_field? hschema hdefault

theorem allTexts_flowView {pair : Fields Json} {shown : Entity}
    (hpair : allFieldTexts isUnmarked pair = true) (h : allFieldTexts isUnmarked shown = true)
    (hname : isUnmarked name = true) : (flowView pair name shown).allTexts isUnmarked = true := by
  have hoverrides : allFieldTexts isUnmarked (viewOptions pair) = true :=
    allFieldTexts_getD fun _ hv => allTexts_of_get? hpair hv
  have hgiven : allFieldTexts isUnmarked (givenValues pair name) = true :=
    allFieldTexts_getD fun _ hv => allTexts_of_get? hoverrides hv
  have hvalues : allFieldTexts isUnmarked (allValues shown (givenValues pair name)) = true := by
    refine allFieldTexts_append.mpr ⟨hgiven, allFieldTexts_iff.mpr fun f hf => ?_⟩
    obtain ⟨option, -, rfl⟩ := List.mem_map.mp hf
    exact allTexts_fallback h option
  exact allFieldTexts_set (allFieldTexts_set h (allTexts_object.mpr hvalues))
    (allTexts_string.mpr hname)

theorem AllPrepared.pairUp (h : AllPrepared id device) (hs : s.Unmarked)
    (hpair : pairUp s id device = .ok made) : AllPrepared id made := by
  rcases pairUp_eq_ok hpair with rfl | ⟨pair, order, expanded, hget, horder, hexpand, rfl⟩
  · exact h
  · have hfields : allFieldTexts isUnmarked pair = true := h.get? (by decide) (by decide) hget
    obtain ⟨-, views, rfl, hviews⟩ := expandPair_eq_ok hexpand
    have hordered : order.allTexts isUnmarked = true := allTexts_of_get? hfields horder
    have hflow := (List.forall₂_and_left _ _).mpr ⟨isUnmarked_orderNames hordered, hviews⟩
    have hexpanded : allItemTexts isUnmarked views = true := by
      refine allItemTexts_iff.mpr fun v hv => ?_
      obtain ⟨name, hname, shown, hshown, rfl⟩ := exists_part hflow v hv
      exact allTexts_flowView hfields (hs.views _ (Fields.mem_of_get? hshown)) hname
    refine h.set (.plain ?_)
    simp [Json.allTexts, allFieldTexts, hordered, hexpanded]

theorem mem_ownSections {names : List String} (hnames : names.Nodup) {f : String × Json}
    (h : f ∈ names.foldl (ownSection id) device) :
    f ∈ device ∨ ∃ name ∈ names, ∃ cards, (name, Json.array cards) ∈ device ∧
      f = (name, .array (cards.map (ownCard id))) := by
  induction names generalizing device with
  | nil => exact .inl h
  | cons name rest ih =>
    obtain ⟨hnew, hrest⟩ := List.nodup_cons.mp hnames
    have hown : ∀ g ∈ ownSection id device name, g ∈ device ∨ ∃ cards,
        (name, Json.array cards) ∈ device ∧ g = (name, .array (cards.map (ownCard id))) := by
      intro g hg
      unfold ownSection at hg
      split at hg
      · next cards hcards =>
        exact (Fields.mem_of_mem_set hg).imp_right fun hg => ⟨cards, Fields.mem_of_get? hcards, hg⟩
      · exact .inl hg
    rcases ih hrest h with hkept | ⟨other, hother, cards, hcards, rfl⟩
    · rcases hown f hkept with hold | ⟨cards, hcards, rfl⟩
      · exact .inl hold
      · exact .inr ⟨name, List.mem_cons_self, cards, hcards, rfl⟩
    · -- a later section is as it was when an earlier one was made the device's own
      have hne : other ≠ name := fun heq => hnew (heq ▸ hother)
      have hsame := (hown _ hcards).resolve_right fun ⟨_, _, heq⟩ => hne (congrArg Prod.fst heq)
      exact .inr ⟨other, List.mem_cons_of_mem name hother, cards, hsame, rfl⟩

theorem AllPrepared.ownSections (h : AllPrepared id device) :
    AllEmitted id (flowSections.foldl (ownSection id) device) := by
  intro f hf
  rcases mem_ownSections (by decide) hf with hkept | ⟨name, hname, cards, hcards, rfl⟩
  · exact .prepared (h f hkept)
  · exact .cards hname (allTexts_array.mp ((h _ hcards).allTexts_section hname))

theorem AllPrepared.assemble (h : AllPrepared id device) (hs : s.Unmarked)
    (hregistry : registry.Unmarked)
    (hassemble : assemble s id device registry = .ok (made, registry')) :
    AllEmitted id made ∧ registry'.Unmarked := by
  obtain ⟨signalled, paired, hassign, hpair, rfl⟩ := assemble_eq_ok hassemble
  obtain ⟨hprepared, hgrown⟩ := (h.withDriver hs).assignSignal hs hregistry hassign
  exact ⟨(hprepared.pairUp hs hpair).ownSections, hgrown⟩

theorem AllEmitted.get? (h : AllEmitted id device) (hid : name ≠ "id")
    (hdefinition : name ≠ "signalDefinition") (hflow : name ∉ flowSections)
    (hv : Fields.get? device name = some v) : v.allTexts isUnmarked = true := by
  cases h _ (Fields.mem_of_get? hv) with
  | prepared h => exact h.allTexts hid hdefinition
  | cards hname => exact absurd hname hflow

/-- A card of an emitted device is unmarked, or was before it became the device's own. -/
theorem AllEmitted.card {cards : List Json} (h : AllEmitted id device)
    (hname : name ∈ flowSections) (hcards : Fields.get? device name = some (.array cards)) :
    ∀ card ∈ cards, card.allTexts isUnmarked = true ∨
      ∃ source, source.allTexts isUnmarked = true ∧ card = ownCard id source := by
  intro card hcard
  cases h _ (Fields.mem_of_get? hcards) with
  | prepared hprepared =>
    exact .inl (allTexts_array.mp (hprepared.allTexts_section hname) card hcard)
  | cards _ hsources =>
    obtain ⟨source, hsource, rfl⟩ := List.mem_map.mp hcard
    exact .inr ⟨source, hsources source hsource, rfl⟩

theorem isUnmarked_cardId {card : Fields Json} (h : allFieldTexts isUnmarked card = true) :
    isUnmarked (id ++ ":" ++ cardId (Fields.get? card "id")) = true := by
  have hend : ∀ t : String, isUnmarked t = true → isUnmarked (id ++ ":" ++ t) = true := by
    intro t ht
    by_cases hblank : t = ""
    · rw [hblank, String.append_empty, isUnmarked_append (by decide)]
      decide
    · rw [isUnmarked_append hblank]
      exact ht
  apply hend
  unfold cardId
  split
  · decide
  · next hid => exact allTexts_of_get? h hid
  · next other _ _ => exact other.isUnmarked_compact

/-- The fields of a card that is a device's own: as they were, an unmarked id, or the arguments with
the one that selects the device. -/
theorem mem_ownCard {card : Fields Json} (h : allFieldTexts isUnmarked card = true) :
    ∃ own, ownCard id (.object card) = .object own ∧ ∀ f ∈ own, f.2.allTexts isUnmarked = true ∨
      ∃ args, allItemTexts isUnmarked args = true ∧
        f = ("args", .array (args ++ [deviceArgument id])) := by
  refine ⟨_, rfl, ?_⟩
  intro f hf
  rcases Fields.mem_of_mem_set hf with hset | rfl
  · have hid : allFieldTexts isUnmarked (Fields.set card "id"
        (.string (id ++ ":" ++ cardId (Fields.get? card "id")))) = true :=
      allFieldTexts_set h (isUnmarked_cardId h)
    exact .inl (allFieldTexts_iff.mp hid f hset)
  · refine .inr ⟨_, allItemTexts_iff.mpr ?_, rfl⟩
    exact allTexts_of_mem_getD fun _ hv => allTexts_of_get? h hv

theorem numeral_ne {n : Nat} {word : String} (h : word.toList.any (fun c => !c.isDigit) = true) :
    word ≠ toString n := by
  rintro rfl
  obtain ⟨c, hc, hdigit⟩ := List.any_eq_true.mp h
  have hdigits : c ∈ Nat.toDigits 10 n := by simpa using hc
  simp [Nat.isDigit_of_mem_toDigits (by decide) (by decide) hdigits] at hdigit

theorem not_pointing {word : String} (h : word = "options" ∨ word = "viewOptions") :
    ¬ (Text.contains word "deviceClasses." = true ∨ Text.contains word "views." = true) ∧
      ¬ (Text.contains ("driver_id=" ++ word) "deviceClasses." = true ∨
        Text.contains ("driver_id=" ++ word) "views." = true) := by
  rcases h with rfl | rfl <;> decide +kernel

theorem isUnmarked_key_of_argument {i j : Nat} {key : String} (hname : name ∈ flowSections)
    (h : key ∈ KeyPath.keysAt [id, name, toString i, "args", toString j] none (deviceArgument id)) :
    isUnmarked key = true := by
  obtain ⟨f, hf, hkey⟩ := KeyPath.mem_keysInFields.mp h
  have hfields : f = ("name", .string "device") ∨ f = ("type", .string "device") ∨
      f = ("filter", .string ("driver_id=" ++ id)) := by simpa using hf
  have hplain : isUnmarked "device" = true := by decide
  rcases hfields with rfl | rfl | rfl
  · exact KeyPath.holds_of_mem_keysAt _ (allTexts_string.mpr hplain) hkey
  · exact KeyPath.holds_of_mem_keysAt _ (allTexts_string.mpr hplain) hkey
  · -- only a device that is named like options could be taken for one, and its name points at
    -- nothing
    obtain ⟨hfilter, -⟩ := KeyPath.mem_keysAt_string.mp hkey
    obtain ⟨hpoints, hoptions⟩ := KeyPath.isKeyPath_elsewhere hfilter
      (by decide : "filter" ∉ "name" :: KeyPath.textFields)
    have hsections : "options" ∉ flowSections ∧ "viewOptions" ∉ flowSections := by decide
    have hnumerals : ∀ n : Nat, "options" ≠ toString n ∧ "viewOptions" ≠ toString n :=
      fun n => ⟨numeral_ne (by decide), numeral_ne (by decide)⟩
    have hi := hnumerals i
    have hj := hnumerals j
    have hid : id = "options" ∨ id = "viewOptions" := by
      simp at hoptions
      grind
    exact absurd hpoints (not_pointing hid).2

theorem isUnmarked_key_of_card {card : Json} {i : Nat} {key : String} (hname : name ∈ flowSections)
    (hcard : card.allTexts isUnmarked = true)
    (h : key ∈ KeyPath.keysAt [id, name, toString i] none (ownCard id card)) :
    isUnmarked key = true := by
  cases card with
  | object fields =>
    obtain ⟨own, hown, hfields⟩ := mem_ownCard hcard
    rw [hown] at h
    obtain ⟨f, hf, hkey⟩ := KeyPath.mem_keysInFields.mp h
    rcases hfields f hf with hplain | ⟨args, hargs, rfl⟩
    · exact KeyPath.holds_of_mem_keysAt _ hplain hkey
    · obtain ⟨v, hv, j, hkey⟩ := KeyPath.exists_of_mem_keysInItems hkey
      rcases List.mem_append.mp hv with hv | hv
      · exact KeyPath.holds_of_mem_keysAt _ (allItemTexts_iff.mp hargs v hv) hkey
      · rw [List.mem_singleton.mp hv] at hkey
        exact isUnmarked_key_of_argument hname hkey
  | _ => exact KeyPath.holds_of_mem_keysAt _ hcard h

theorem Prepared.isUnmarked_key {f : String × Json} {key : String} (hf : Prepared id f)
    (h : key ∈ KeyPath.keysAt [id, f.1] (some f.1) f.2) : isUnmarked key = true := by
  cases hf with
  | plain hplain => exact KeyPath.holds_of_mem_keysAt _ hplain h
  | id =>
    obtain ⟨hname, -⟩ := KeyPath.mem_keysAt_string.mp h
    obtain ⟨hpoints, hoptions⟩ := KeyPath.isKeyPath_elsewhere hname
      (by decide : "id" ∉ "name" :: KeyPath.textFields)
    have hid : id = "options" ∨ id = "viewOptions" := by
      simp at hoptions
      grind
    exact absurd hpoints (not_pointing hid).1
  | definition commands hcontent =>
    obtain ⟨g, hg, hkey⟩ := KeyPath.mem_keysInFields.mp h
    rcases Fields.mem_of_mem_set hg with hold | rfl
    · exact KeyPath.holds_of_mem_keysAt _ (allFieldTexts_iff.mp hcontent g hold) hkey
    · rw [KeyPath.keysAt_ofStrings] at hkey
      cases hkey

theorem Emitted.isUnmarked_key {f : String × Json} {key : String} (hf : Emitted id f)
    (h : key ∈ KeyPath.keysAt [id, f.1] (some f.1) f.2) : isUnmarked key = true := by
  cases hf with
  | prepared hf => exact hf.isUnmarked_key h
  | cards hname hcards =>
    obtain ⟨v, hv, i, hkey⟩ := KeyPath.exists_of_mem_keysInItems h
    obtain ⟨card, hcard, rfl⟩ := List.mem_map.mp hv
    exact isUnmarked_key_of_card hname (hcards card hcard) hkey

/-- No key path of emitted devices is marked. Names may be: the name of a device is its id and
selects it in its flow cards, and the names of commands are listed with its signal. None of these is
ever taken for a key path. -/
theorem isMarked_keyPaths {devices : Fields Entity} (h : ∀ d ∈ devices, AllEmitted d.1 d.2) :
    ∀ path ∈ KeyPath.keyPaths (.object (Fields.mapValues .object devices)),
      isMarked path = false := by
  intro path hpath
  obtain ⟨f, hf, hpath⟩ := KeyPath.mem_keysInFields.mp (KeyPath.mem_keyPaths.mp hpath)
  obtain ⟨d, hd, rfl⟩ := List.mem_map.mp hf
  obtain ⟨g, hg, hkey⟩ := KeyPath.mem_keysInFields.mp hpath
  exact isUnmarked_iff.mp ((h d hd g hg).isUnmarked_key hkey)

end Device

end RadioDriver
