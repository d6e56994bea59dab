import Mathlib.Algebra.Order.Field.Power
import Mathlib.Algebra.Order.Field.Rat
import Mathlib.Tactic.NormNum
import Mathlib.Tactic.Positivity
import Mathlib.Tactic.Ring
import RadioDriver.Proofs.Disk.FileMap
import RadioDriver.Proofs.Path.Anchoring
import RadioDriver.Settings.Sources

namespace RadioDriver

namespace Double

def toRat (x : Double) : ℚ := (if x.negative then -1 else 1) * x.mantissa * 2 ^ x.exponent

theorem inUnits_mul (x : Double) {unit : Int} (h : unit ≤ x.exponent) :
    (x.inUnits unit : ℚ) * 2 ^ unit = x.toRat := by
  obtain ⟨n, hn⟩ : ∃ n : Nat, x.exponent = n + unit := ⟨(x.exponent - unit).toNat, by omega⟩
  have hpower : (2 : ℚ) ^ x.exponent = 2 ^ n * 2 ^ unit := by
    rw [hn, zpow_add₀ two_ne_zero, zpow_natCast]
  have hcount : (x.exponent - unit).toNat = n := by omega
  rw [toRat, hpower, inUnits, hcount]
  cases x.negative
  · push_cast
    simp
    ring
  · push_cast
    simp
    ring

theorem lt_iff {x y : Double} : x.lt y = true ↔ x.toRat < y.toRat := by
  have hunit : (0 : ℚ) < 2 ^ min x.exponent y.exponent := zpow_pos two_pos _
  rw [lt, decide_eq_true_iff, ← x.inUnits_mul (min_le_left _ y.exponent),
    ← y.inUnits_mul (min_le_right x.exponent _), mul_lt_mul_iff_left₀ hunit, Int.cast_lt]

theorem le_iff {x y : Double} : x.le y = true ↔ x.toRat ≤ y.toRat := by
  rw [le, Bool.not_eq_true', ← Bool.not_eq_true, lt_iff, not_lt]

theorem toRat_zero (negative : Bool) : (zero negative).toRat = 0 := by
  simp [toRat, zero]

theorem toRat_two : two.toRat = 2 := by
  norm_num [toRat, two]

theorem toRat_half : half.toRat = 1 / 2 := by
  norm_num [toRat, half]

end Double

theorem Text.takeWhile_eq_replicate (c : Char) (cs : List Char) :
    ∃ n, cs.takeWhile (· == c) = List.replicate n c := by
  refine ⟨(cs.takeWhile (· == c)).length, List.eq_replicate_iff.mpr ⟨rfl, fun b hb => ?_⟩⟩
  have hall := List.all_eq_true.mp (List.all_takeWhile (p := (· == c))) b hb
  exact beq_iff_eq.mp hall

theorem Text.head?_dropWhile_ne (c : Char) (cs : List Char) :
    (cs.dropWhile (· == c)).head? ≠ some c := by
  intro h
  have hnot := List.head?_dropWhile_not (· == c) cs
  rw [h] at hnot
  simp at hnot

theorem Text.trim_spec (c : Char) (s : String) :
    (∃ front back,
        s.toList = List.replicate front c ++ (trim c s).toList ++ List.replicate back c) ∧
      (trim c s).toList.head? ≠ some c ∧ (trim c s).toList.getLast? ≠ some c := by
  set rest := s.toList.dropWhile (· == c) with hrest
  set kept := (rest.reverse.dropWhile (· == c)).reverse with hkept
  have htrim : (trim c s).toList = kept := by rw [trim, String.toList_ofList]
  obtain ⟨front, hfront⟩ := takeWhile_eq_replicate c s.toList
  obtain ⟨back, hback⟩ := takeWhile_eq_replicate c rest.reverse
  have hsplit : rest = kept ++ List.replicate back c := by
    have hreverse := congrArg List.reverse
      (List.takeWhile_append_dropWhile (p := (· == c)) (l := rest.reverse))
    rw [hback, List.reverse_append, List.reverse_replicate, List.reverse_reverse] at hreverse
    exact hreverse.symm
  rw [htrim]
  refine ⟨⟨front, back, ?_⟩, ?_, ?_⟩
  · rw [List.append_assoc, ← hsplit, ← hfront, hrest, List.takeWhile_append_dropWhile]
  · intro hhead
    refine head?_dropWhile_ne c s.toList ?_
    rw [← hrest, hsplit, List.head?_append, hhead]
    rfl
  · rw [hkept, List.getLast?_reverse]
    exact head?_dropWhile_ne c rest.reverse

namespace Settings

/-- A value names a radio type, as a text or as a bare number. -/
def GivesRadio (v : Json) (radio : Radio) : Prop :=
  v = .string radio.name ∨ ∃ n, v = .number n ∧ n.render = radio.name

/-- A value is a sensitivity ceiling above zero and at most two. -/
def GivesCeiling (v : Json) (ceiling : Double) : Prop :=
  v.double? = some ceiling ∧ 0 < ceiling.toRat ∧ ceiling.toRat ≤ 2

/-- Where there is a value, it gives something. -/
def Usable {α : Type} (given : Option Json) (Gives : Json → α → Prop) : Prop :=
  ∀ v, given = some v → ∃ a, Gives v a

/-- A setting is what its value gives, or the default where there is no value. -/
def Answers {α : Type} (given : Option Json) (Gives : Json → α → Prop) (default a : α) : Prop :=
  given = none ∧ a = default ∨ ∃ v, given = some v ∧ Gives v a

/-- Each setting that is checked is absent or of the right type and in its range. -/
structure Acceptable (merged : Json) : Prop where
  radio : Usable (valueAt merged ["config_type"]) GivesRadio
  ceiling : Usable (valueAt merged ["signal", "max_sensitivity"]) GivesCeiling
  policy : Usable (valueAt merged ["locales", "sentinel"])
    fun v (policy : MarkerPolicy) => v = .string policy.label
  configDir : Usable (valueAt merged ["config_dir"]) fun v text => v = .string text
  driverDir : Usable (valueAt merged ["driver_dir"]) fun v text => v = .string text

variable {merged v : Json} {key : String}

theorem valueAt_singleton (merged : Json) (key : String) :
    valueAt merged [key] = merged.field? key := by
  rw [valueAt]
  cases merged.field? key <;> rfl

theorem radio_ofName?_eq_some {name : String} {radio : Radio} :
    Radio.ofName? name = some radio ↔ name = radio.name := by
  constructor
  · intro h
    have hfound := List.find?_some h
    exact (beq_iff_eq.mp hfound).symm
  · rintro rfl
    exact Radio.ofName?_name radio

theorem policy_ofName?_eq_some {name : String} {policy : MarkerPolicy} :
    MarkerPolicy.ofName? name = some policy ↔ name = policy.label := by
  unfold MarkerPolicy.ofName?
  constructor
  · intro h
    split at h
    · next heq =>
      cases h
      exact heq
    · split at h
      · next heq =>
        cases h
        exact heq
      · cases h
  · rintro rfl
    cases policy <;> rfl

theorem givesRadio_string (name : String) (radio : Radio) :
    GivesRadio (.string name) radio ↔ Radio.ofName? name = some radio := by
  rw [radio_ofName?_eq_some]
  simp [GivesRadio]

theorem givesRadio_number (n : Number) (radio : Radio) :
    GivesRadio (.number n) radio ↔ Radio.ofName? n.render = some radio := by
  rw [radio_ofName?_eq_some]
  simp [GivesRadio]

theorem radioOf_eq_ok {radio : Radio} :
    radioOf merged = .ok radio ↔
      Answers (valueAt merged ["config_type"]) GivesRadio .rf433 radio := by
  rw [valueAt_singleton, radioOf]
  unfold Answers
  cases hv : merged.field? "config_type" with
  | none => simp [eq_comm]
  | some v =>
    cases v with
    | string name =>
      cases hfound : Radio.ofName? name <;> simp [givesRadio_string, hfound]
    | number n =>
      cases hfound : Radio.ofName? n.render <;> simp [givesRadio_number, hfound]
    | _ => simp [GivesRadio]

theorem checkSensitivity_eq_ok :
    checkSensitivity merged = .ok () ↔
      Usable (valueAt merged ["signal", "max_sensitivity"]) GivesCeiling := by
  unfold checkSensitivity Usable GivesCeiling
  cases valueAt merged ["signal", "max_sensitivity"] with
  | none => simp
  | some v =>
    cases hx : v.double? with
    | none => simp [hx]
    | some x =>
      have hzero := Double.toRat_zero false
      have htwo := Double.toRat_two
      simp [hx, Double.lt_iff, Double.le_iff, hzero, htwo]

theorem checkPolicy_eq_ok :
    checkPolicy merged = .ok () ↔
      Usable (valueAt merged ["locales", "sentinel"])
        fun v (policy : MarkerPolicy) => v = .string policy.label := by
  unfold checkPolicy Usable
  cases valueAt merged ["locales", "sentinel"] with
  | none => simp
  | some v =>
    have hname : ∀ {name : String} {e : SettingsError},
        (if (MarkerPolicy.ofName? name).isSome then Except.ok () else .error e) = .ok () ↔
          ∃ policy : MarkerPolicy, name = policy.label := by
      intro name e
      simp only [← policy_ofName?_eq_some, ← Option.isSome_iff_exists]
      split <;> simp_all
    refine hname.trans ?_
    cases v with
    | string name => simp [Json.string?]
    | _ =>
      -- what is no text is taken for the empty one, which names no policy
      constructor
      · rintro ⟨policy, hpolicy⟩
        cases policy <;> simp [Json.string?, MarkerPolicy.label] at hpolicy
      · intro h
        obtain ⟨policy, hpolicy⟩ := h _ rfl
        cases hpolicy

theorem checkText_eq_ok :
    checkText merged key = .ok () ↔
      Usable (valueAt merged [key]) fun v text => v = .string text := by
  rw [valueAt_singleton, checkText]
  unfold Usable
  cases merged.field? key with
  | none => simp
  | some v => cases v <;> simp

theorem check_eq_ok : check merged = .ok () ↔ Acceptable merged := by
  have hradio : (∃ radio, radioOf merged = .ok radio) ↔
      Usable (valueAt merged ["config_type"]) GivesRadio := by
    simp only [radioOf_eq_ok, Answers, Usable]
    cases valueAt merged ["config_type"] <;> simp
  unfold check
  constructor
  · intro h
    obtain ⟨radio, hfirst, h⟩ := except_bind_eq_ok.mp h
    obtain ⟨_, hsensitivity, h⟩ := except_bind_eq_ok.mp h
    obtain ⟨_, hpolicy, h⟩ := except_bind_eq_ok.mp h
    obtain ⟨_, hconfig, hdriver⟩ := except_bind_eq_ok.mp h
    exact ⟨hradio.mp ⟨radio, hfirst⟩, checkSensitivity_eq_ok.mp hsensitivity,
      checkPolicy_eq_ok.mp hpolicy, checkText_eq_ok.mp hconfig, checkText_eq_ok.mp hdriver⟩
  · intro h
    obtain ⟨radio, hfirst⟩ := hradio.mpr h.radio
    rw [hfirst, checkSensitivity_eq_ok.mpr h.ceiling, checkPolicy_eq_ok.mpr h.policy,
      checkText_eq_ok.mpr h.configDir, checkText_eq_ok.mpr h.driverDir]
    rfl

/-- Every setting is what its merged value says. -/
structure Effective (s : Settings) : Prop where
  radio : Answers (s.get? "config_type") GivesRadio .rf433 s.radio
  configDir : Answers (s.get? "config_dir") (fun v text => v = .string text) "433_generator"
    s.configDir
  driverDir : Answers (s.get? "driver_dir") (fun v text => v = .string text) "drivers" s.driverDir
  policy : Answers (s.get? "locales.sentinel") (fun v policy => v = .string policy.label) .keep
    s.policy
  ceiling : Answers (s.get? "signal.max_sensitivity") GivesCeiling .half s.ceiling
  inRange : 0 < s.ceiling.toRat ∧ s.ceiling.toRat ≤ 2
  /-- No check stands behind this one: a value that is no text is passed over. -/
  localesDir : Answers (s.get? "locales.dir")
    (fun v text => v = .string text ∨ v.string? = none ∧ text = "locales") "locales" s.localesDir
  options : s.compilerOptions.radio = s.radio ∧ s.compilerOptions.ceiling = s.ceiling
  /-- The directory of the drivers stands in the options without slashes at its ends. -/
  trimmed : (∃ front back, s.driverDir.toList = List.replicate front '/' ++
      s.compilerOptions.driverDir.toList ++ List.replicate back '/') ∧
    s.compilerOptions.driverDir.toList.head? ≠ some '/' ∧
    s.compilerOptions.driverDir.toList.getLast? ≠ some '/'

theorem answers_text {given : Option Json} {default : String}
    (h : Usable given fun v text => v = .string text) :
    Answers given (fun v text => v = .string text) default
      ((given.bind Json.string?).getD default) := by
  cases given with
  | none => exact .inl ⟨rfl, rfl⟩
  | some v =>
    obtain ⟨text, rfl⟩ := h v rfl
    exact .inr ⟨_, rfl, rfl⟩

theorem radio_answers {s : Settings} (h : Acceptable s.merged) :
    Answers (s.get? "config_type") GivesRadio .rf433 s.radio := by
  obtain ⟨radio, hradio, -⟩ := except_bind_eq_ok.mp (check_eq_ok.mpr h)
  have hown : s.radio = radio := by rw [Settings.radio, hradio]; rfl
  rw [hown]
  exact radioOf_eq_ok.mp hradio

theorem policy_answers {s : Settings} (h : Acceptable s.merged) :
    Answers (s.get? "locales.sentinel") (fun v policy => v = .string policy.label) .keep
      s.policy := by
  have hget : s.get? "locales.sentinel" = valueAt s.merged ["locales", "sentinel"] := rfl
  unfold policy text?
  rw [hget]
  cases hv : valueAt s.merged ["locales", "sentinel"] with
  | none => exact .inl ⟨rfl, rfl⟩
  | some v =>
    obtain ⟨policy, rfl⟩ := h.policy v hv
    refine .inr ⟨_, rfl, ?_⟩
    cases policy <;> rfl

theorem ceiling_answers {s : Settings} (h : Acceptable s.merged) :
    Answers (s.get? "signal.max_sensitivity") GivesCeiling .half s.ceiling := by
  have hget : s.get? "signal.max_sensitivity" =
      valueAt s.merged ["signal", "max_sensitivity"] := rfl
  unfold ceiling double?
  rw [hget]
  cases hv : valueAt s.merged ["signal", "max_sensitivity"] with
  | none => exact .inl ⟨rfl, rfl⟩
  | some v =>
    obtain ⟨x, hx⟩ := h.ceiling v hv
    refine .inr ⟨v, rfl, ?_⟩
    rw [Option.bind_some, hx.1]
    exact hx

theorem ceiling_inRange {s : Settings} (h : Acceptable s.merged) :
    0 < s.ceiling.toRat ∧ s.ceiling.toRat ≤ 2 := by
  rcases ceiling_answers h with ⟨-, hdefault⟩ | ⟨v, -, -, hrange⟩
  · rw [hdefault, Double.toRat_half]
    norm_num
  · exact hrange

theorem localesDir_answers (s : Settings) :
    Answers (s.get? "locales.dir")
      (fun v text => v = .string text ∨ v.string? = none ∧ text = "locales") "locales"
      s.localesDir := by
  unfold localesDir text?
  cases s.get? "locales.dir" with
  | none => exact .inl ⟨rfl, rfl⟩
  | some v =>
    refine .inr ⟨v, rfl, ?_⟩
    cases v with
    | string text => exact .inl rfl
    | _ => exact .inr ⟨rfl, rfl⟩

theorem effective_of_acceptable {s : Settings} (h : Acceptable s.merged) : s.Effective where
  radio := radio_answers h
  configDir := answers_text h.configDir
  driverDir := answers_text h.driverDir
  policy := policy_answers h
  ceiling := ceiling_answers h
  inRange := ceiling_inRange h
  localesDir := localesDir_answers s
  options := ⟨rfl, rfl⟩
  trimmed := Text.trim_spec '/' s.driverDir

/-- The layer that a settings file makes, if there is such a file. -/
inductive FileLayer (d : Disk) : Option String → List Json → Prop
  | unasked : FileLayer d none []
  | absent {path : String} : ((Files.exists? path : StateM Disk Bool).run d).1 = false →
      FileLayer d (some path) []
  | present {path text : String} {bytes : ByteArray} {v : Json} : d.read path = .ok bytes →
      Text.decodeUtf8 bytes = .ok text → Toml.read? text = some v → FileLayer d (some path) [v]

/-- The layers of a run, from the built-in one to that of the command line, merged. -/
def Merges (d : Disk) (host project : Option String) (commandLine : Option Json) (merged : Json) :
    Prop :=
  ∃ hostLayer projectLayer, FileLayer d host hostLayer ∧ FileLayer d project projectLayer ∧
    merged = mergeLayers ([defaults] ++ hostLayer ++ projectLayer ++ commandLine.toList)

variable {d d' : Disk} {path host project : Option String} {origin : SettingsOrigin}

theorem readLayer_run (d : Disk) (origin : SettingsOrigin) (path : Option String) :
    (readLayer origin path : StateM Disk _).run d =
      (match path with
        | none => .ok []
        | some path =>
          if ((Files.exists? path : StateM Disk Bool).run d).1 then
            match d.read path with
            | .error e => .error (.io e)
            | .ok bytes => (layerOf origin path bytes).map ([·])
          else .ok [], d) := by
  cases path with
  | none => rfl
  | some path =>
    unfold readLayer
    have hexists : (Files.exists? path : StateM Disk Bool).run d =
        (((Files.exists? path : StateM Disk Bool).run d).1, d) := rfl
    dsimp only
    rw [run_bind_state, hexists]
    cases ((Files.exists? path : StateM Disk Bool).run d).1 with
    | false => rfl
    | true =>
      have hread : (Files.read path : StateM Disk _).run d = (d.read path, d) := rfl
      simp only [if_true]
      rw [run_bind_state, hread]
      cases d.read path <;> rfl

theorem layerOf_eq_ok {p : String} {bytes : ByteArray} {layer : SettingsSource × Json} :
    layerOf origin p bytes = .ok layer → ∃ text, Text.decodeUtf8 bytes = .ok text ∧
      Toml.read? text = some layer.2 := by
  intro h
  unfold layerOf at h
  split at h
  · cases h
  · next text htext =>
    split at h
    · cases h
    · next v hv =>
      cases h
      exact ⟨text, htext, hv⟩

theorem exists_of_read {p : String} {bytes : ByteArray} (h : d.read p = .ok bytes) :
    ((Files.exists? p : StateM Disk Bool).run d).1 = true := by
  unfold Disk.read at h
  obtain ⟨found, hfound, -⟩ := except_bind_eq_ok.mp h
  show ((d.lookup p).toOption.map fun found => found.2.kind).isSome = true
  rw [hfound]
  rfl

theorem fileLayer_iff (origin : SettingsOrigin) {layer : List Json} :
    FileLayer d path layer ↔ ∃ layers, (readLayer origin path : StateM Disk _).run d =
      (.ok layers, d) ∧ layers.map (·.2) = layer := by
  rw [readLayer_run]
  constructor
  · rintro (- | habsent | ⟨hread, htext, hv⟩)
    · exact ⟨[], rfl, rfl⟩
    · refine ⟨[], ?_, rfl⟩
      simp only [habsent, Bool.false_eq_true, if_false]
    · simp only [exists_of_read hread, if_true, hread, layerOf, htext, hv]
      exact ⟨_, rfl, rfl⟩
  · rintro ⟨layers, hrun, rfl⟩
    have hresult := congrArg Prod.fst hrun
    dsimp only at hresult
    cases path with
    | none =>
      cases hresult
      exact .unasked
    | some p =>
      dsimp only at hresult
      split at hresult
      · cases hread : d.read p with
        | error e =>
          rw [hread] at hresult
          cases hresult
        | ok bytes =>
          rw [hread] at hresult
          obtain ⟨layer, hlayer, rfl⟩ := except_map_eq_ok.mp hresult
          obtain ⟨text, htext, hv⟩ := layerOf_eq_ok hlayer
          exact .present hread htext hv
      · next hnone =>
        cases hresult
        exact .absent (Bool.not_eq_true _ ▸ hnone)

theorem ofLayers_eq_ok {layers : List (SettingsSource × Json)} {s : Settings} :
    ofLayers layers = .ok s ↔ Acceptable (mergeLayers (layers.map (·.2))) ∧
      s = ⟨mergeLayers (layers.map (·.2)), layers.map (·.1)⟩ := by
  unfold ofLayers
  rw [← check_eq_ok]
  constructor
  · intro h
    obtain ⟨_, hcheck, h⟩ := except_bind_eq_ok.mp h
    exact ⟨hcheck, (Except.ok.inj h).symm⟩
  · rintro ⟨hcheck, rfl⟩
    dsimp only
    rw [hcheck]
    rfl

theorem read_run {hostLayer projectLayer : List Json} (commandLine : Option Json)
    (hhost : FileLayer d host hostLayer) (hproject : FileLayer d project projectLayer) :
    ∃ layers, (read host project commandLine : StateM Disk _).run d = (ofLayers layers, d) ∧
      layers.map (·.2) = [defaults] ++ hostLayer ++ projectLayer ++ commandLine.toList := by
  obtain ⟨hosts, hhosts, rfl⟩ := (fileLayer_iff .host).mp hhost
  obtain ⟨projects, hprojects, rfl⟩ := (fileLayer_iff .project).mp hproject
  refine ⟨[({ origin := .builtin }, defaults)] ++ hosts ++ projects ++
    commandLine.toList.map fun v => ({ origin := .cli }, v), ?_, ?_⟩
  · unfold read
    rw [run_bind_state, hhosts]
    dsimp only
    rw [run_bind_state, hprojects]
    cases commandLine <;> rfl
  · cases commandLine <;> simp

theorem layers_of_read {commandLine : Option Json} {s : Settings}
    (h : (read host project commandLine : StateM Disk _).run d = (.ok s, d')) :
    ∃ hostLayer projectLayer, FileLayer d host hostLayer ∧ FileLayer d project projectLayer := by
  unfold read at h
  obtain ⟨hosts, d₁, hhosts, h⟩ := ok_of_run_bind h fun e d₁ hc => by cases hc
  obtain ⟨projects, d₂, hprojects, -⟩ := ok_of_run_bind h fun e d₂ hc => by cases hc
  have hd₁ : d = d₁ := by
    rw [readLayer_run] at hhosts
    exact congrArg Prod.snd hhosts
  have hd₂ : d₁ = d₂ := by
    rw [readLayer_run] at hprojects
    exact congrArg Prod.snd hprojects
  subst hd₁ hd₂
  exact ⟨_, _, (fileLayer_iff .host).mpr ⟨hosts, hhosts, rfl⟩,
    (fileLayer_iff .project).mpr ⟨projects, hprojects, rfl⟩⟩

/-- Settings that are read are merged from the built-in ones, the two files and the command line,
each of those that are checked is absent or usable, and every accessor answers with the merged value
or, without one, with its default; the locale directory alone has its default for a value that is no
text as well. Where the files can be read, nothing but an unusable value is refused. -/
theorem accepted_settings_effective (d : Disk) (host project : Option String)
    (commandLine : Option Json) :
    (∀ s d', (read host project commandLine : StateM Disk _).run d = (.ok s, d') →
      d' = d ∧ Merges d host project commandLine s.merged ∧ Acceptable s.merged ∧ s.Effective) ∧
    ∀ merged, Merges d host project commandLine merged →
      (Acceptable merged ↔ ∃ s, (read host project commandLine : StateM Disk _).run d = (.ok s, d) ∧
        s.merged = merged) := by
  constructor
  · intro s d' h
    obtain ⟨hostLayer, projectLayer, hhost, hproject⟩ := layers_of_read h
    obtain ⟨layers, hrun, hlayers⟩ := read_run commandLine hhost hproject
    rw [hrun] at h
    obtain ⟨hok, rfl⟩ := Prod.mk.inj h
    obtain ⟨hacceptable, hs⟩ := ofLayers_eq_ok.mp hok
    have hmerged : s.merged = mergeLayers (layers.map (·.2)) := congrArg Settings.merged hs
    rw [← hmerged] at hacceptable
    rw [hlayers] at hmerged
    exact ⟨rfl, ⟨_, _, hhost, hproject, hmerged⟩, hacceptable, effective_of_acceptable hacceptable⟩
  · rintro merged ⟨hostLayer, projectLayer, hhost, hproject, rfl⟩
    obtain ⟨layers, hrun, hlayers⟩ := read_run commandLine hhost hproject
    rw [hrun, ← hlayers]
    constructor
    · intro hacceptable
      exact ⟨_, congrArg (·, d) (ofLayers_eq_ok.mpr ⟨hacceptable, rfl⟩), rfl⟩
    · rintro ⟨s, hok, -⟩
      exact (ofLayers_eq_ok.mp (Prod.mk.inj hok).1).1

def hostSample : String :=
  "config_type = 868\n[locales]\nsentinel = \"strip\"\n[signal]\nmax_sensitivity = 1.5\n"

def projectSample : String := "driver_dir = \"/out/drivers/\"\n"

def settingsDisk : Disk where
  nodes := [(["home.toml"], .file hostSample.toUTF8), (["app.toml"], .file projectSample.toUTF8)]

def commandLineSample : Json := .object [("config_dir", .string "src")]

def layerSample (text : String) : Json := (Toml.read? text).getD .null

def mergedSample : Json :=
  mergeLayers [defaults, layerSample hostSample, layerSample projectSample, commandLineSample]

theorem acceptable_of_isOk {merged : Json} (h : (check merged).isOk = true) : Acceptable merged :=
  check_eq_ok.mp (eq_ok_of_isOk h ())

theorem fileLayer_sample {p : String} (text : String)
    (h : (settingsDisk.read p).toOption = some text.toUTF8)
    (htoml : (Toml.read? text).isSome = true) :
    FileLayer settingsDisk (some p) [layerSample text] := by
  have hread : settingsDisk.read p = .ok text.toUTF8 := by
    cases hp : settingsDisk.read p with
    | error e =>
      rw [hp] at h
      cases h
    | ok bytes =>
      rw [hp] at h
      exact congrArg Except.ok (Option.some.inj h)
  refine .present hread (Text.decodeUtf8_toUTF8 text) ?_
  obtain ⟨v, hv⟩ := Option.isSome_iff_exists.mp htoml
  rw [layerSample, hv]
  rfl

theorem merges_sample : Merges settingsDisk (some "/home.toml") (some "/app.toml")
    (some commandLineSample) mergedSample :=
  ⟨_, _, fileLayer_sample hostSample (by decide +kernel) (by decide +kernel),
    fileLayer_sample projectSample (by decide +kernel) (by decide +kernel), rfl⟩

theorem acceptable_sample : Acceptable mergedSample := by
  have hcheck : (check mergedSample).isOk = true := by decide +kernel
  exact acceptable_of_isOk hcheck

/-- The sample is accepted, and its settings come from all four layers. -/
theorem sample_settings_effective :
    ∃ s, (read (some "/home.toml") (some "/app.toml") (some commandLineSample) : StateM Disk _).run
        settingsDisk = (.ok s, settingsDisk) ∧
      s.merged = mergedSample ∧ s.Effective := by
  obtain ⟨hread, hfound⟩ := accepted_settings_effective settingsDisk (some "/home.toml")
    (some "/app.toml") (some commandLineSample)
  obtain ⟨s, hrun, hmerged⟩ := (hfound mergedSample merges_sample).mp acceptable_sample
  exact ⟨s, hrun, hmerged, (hread s settingsDisk hrun).2.2.2⟩

/-- What the command line sets where it gives a number for the directory of the locale files. -/
def numberedDirectory : Json := .object [("locales", .object [("dir", .ofNat 5)])]

/-- A directory of the locale files that is no text is accepted, and the default answers for it. -/
theorem locale_directory_replaced :
    ∃ s, (read none none (some numberedDirectory) : StateM Disk _).run {} = (.ok s, {}) ∧
      s.get? "locales.dir" = some (.ofNat 5) ∧ s.localesDir = "locales" := by
  have hcheck : (check (mergeLayers [defaults, numberedDirectory])).isOk = true := by decide +kernel
  have hunasked : FileLayer ({} : Disk) none [] := .unasked
  obtain ⟨layers, hrun, hlayers⟩ := read_run (some numberedDirectory) hunasked hunasked
  have hmerged : mergeLayers (layers.map (·.2)) = mergeLayers [defaults, numberedDirectory] :=
    congrArg mergeLayers hlayers
  have hacceptable := acceptable_of_isOk hcheck
  refine ⟨⟨mergeLayers (layers.map (·.2)), layers.map (·.1)⟩, ?_, ?_, ?_⟩
  · rw [hrun, ofLayers_eq_ok.mpr ⟨hmerged ▸ hacceptable, rfl⟩]
  · rw [hmerged]
    rfl
  · rw [hmerged]
    rfl

end Settings

end RadioDriver
