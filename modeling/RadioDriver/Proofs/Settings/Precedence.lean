import RadioDriver.Proofs.Json.Distinct
import RadioDriver.Settings.Effective

namespace RadioDriver.Settings

/-- The layer has no value at the path, and nothing but objects on the way to it. -/
def Silent (layer : Json) (path : List String) : Prop :=
  valueAt layer path = none ∧ ∀ above v, above <+: path → above ≠ path →
    valueAt layer above = some v → v.isObject = true

variable {base overlay layer v w : Json} {fields others : Fields Json} {key : String}
  {path rest : List String}

theorem merge_null (v : Json) : merge .null v = v := by cases v <;> rfl

theorem get?_mergeFields (h : (Fields.names others).Nodup) (key : String) :
    Fields.get? (mergeFields fields others) key =
      match Fields.get? others key with
      | none => Fields.get? fields key
      | some v => some (merge ((Fields.get? fields key).getD .null) v) := by
  induction others generalizing fields with
  | nil => rfl
  | cons f rest ih =>
    obtain ⟨k, v⟩ := f
    obtain ⟨hnew, hrest⟩ := List.nodup_cons.mp h
    rw [mergeFields, ih hrest, Fields.get?]
    by_cases hk : k = key
    · -- the name comes once, so what is merged under it stays
      subst hk
      rw [Fields.get?_eq_none_iff.mpr hnew, Fields.get?_set_self, if_pos rfl]
      cases Fields.get? fields k with
      | none => exact congrArg some (merge_null v).symm
      | some old => rfl
    · have hother : key ≠ k := Ne.symm hk
      rw [Fields.get?_set_of_ne _ _ hother, Fields.get?_erase_of_ne _ hother, if_neg hk]

theorem names_set_erase (fields : Fields Json) (name : String) (value : Json) :
    Fields.names (Fields.set (Fields.erase fields name) name value) =
      (Fields.names fields).filter (· ≠ name) ++ [name] := by
  have herased : name ∉ Fields.names (Fields.erase fields name) := by
    rw [← Fields.get?_eq_none_iff, Fields.get?_erase_self]
  have hnames : Fields.names (Fields.erase fields name) =
      (Fields.names fields).filter (· ≠ name) := by
    rw [Fields.erase, Fields.names, Fields.names, List.filter_map]
    rfl
  rw [Fields.set_eq_append herased, Fields.names_append, hnames]
  rfl

theorem names_mergeFields (h : (Fields.names others).Nodup) :
    Fields.names (mergeFields fields others) =
      (Fields.names fields).filter (· ∉ Fields.names others) ++ Fields.names others := by
  induction others generalizing fields with
  | nil => simp [mergeFields, Fields.names]
  | cons f rest ih =>
    obtain ⟨k, v⟩ := f
    obtain ⟨hnew, hrest⟩ := List.nodup_cons.mp h
    have hnew : k ∉ Fields.names rest := hnew
    have hcons : Fields.names ((k, v) :: rest) = k :: Fields.names rest := rfl
    have hkept : ((Fields.names fields).filter (· ≠ k)).filter (· ∉ Fields.names rest) =
        (Fields.names fields).filter (· ∉ k :: Fields.names rest) := by
      rw [List.filter_filter]
      apply List.filter_congr
      intro name _
      simp [Bool.and_comm]
    have hlast : [k].filter (· ∉ Fields.names rest) = [k] := by simp [hnew]
    rw [mergeFields, ih hrest, names_set_erase, hcons, List.filter_append, hkept, hlast,
      List.append_assoc, List.singleton_append]

theorem merge_of_not_object (h : overlay.isObject = false) : merge base overlay = overlay := by
  cases overlay with
  | object others => cases h
  | _ => rfl

theorem isObject_merge_object (base : Json) (others : Fields Json) :
    (merge base (.object others)).isObject = true := by
  cases base <;> rfl

theorem field?_merge_object (h : (Json.object others).distinct = true) (base : Json)
    (key : String) :
    (merge base (.object others)).field? key =
      match Fields.get? others key with
      | none => base.field? key
      | some v => some (merge ((base.field? key).getD .null) v) := by
  obtain ⟨hnodup, -⟩ := Json.distinct_object.mp h
  cases base with
  | object fields => exact get?_mergeFields hnodup key
  | _ =>
    show Fields.get? others key = _
    cases Fields.get? others key with
    | none => rfl
    | some v => exact congrArg some (merge_null v).symm

theorem valueAt_object (fields : Fields Json) (key : String) (rest : List String) :
    valueAt (.object fields) (key :: rest) =
      (Fields.get? fields key).bind (valueAt · rest) := rfl

theorem silent_nil : ¬ Silent layer [] := by
  rintro ⟨hnone, -⟩
  cases hnone

theorem Silent.isObject (h : Silent layer path) : layer.isObject = true := by
  cases path with
  | nil => exact absurd h silent_nil
  | cons key rest => exact h.2 [] layer List.nil_prefix (List.cons_ne_nil key rest).symm rfl

theorem silent_object :
    Silent (.object fields) (key :: rest) ↔
      ∀ v, Fields.get? fields key = some v → Silent v rest := by
  constructor
  · rintro ⟨hnone, habove⟩ v hv
    rw [valueAt_object, hv] at hnone
    refine ⟨hnone, fun above w hpre hne hw => ?_⟩
    apply habove (key :: above) w (List.cons_prefix_cons.mpr ⟨rfl, hpre⟩)
    · exact fun heq => hne (List.cons.inj heq).2
    · rw [valueAt_object, hv]
      exact hw
  · intro hbelow
    constructor
    · rw [valueAt_object, Option.bind_eq_none_iff]
      exact fun v hv => (hbelow v hv).1
    · intro above w hpre hne hw
      cases above with
      | nil =>
        cases hw
        rfl
      | cons first above =>
        obtain ⟨rfl, htail⟩ := List.cons_prefix_cons.mp hpre
        rw [valueAt_object] at hw
        obtain ⟨v, hv, hw⟩ := Option.bind_eq_some_iff.mp hw
        exact (hbelow v hv).2 above w htail (fun heq => hne (by rw [heq])) hw

theorem Silent.valueAt_getD (h : Silent layer path) (lower : Option Json) :
    valueAt (lower.getD .null) path = lower.bind (valueAt · path) := by
  cases lower with
  | some v => rfl
  | none =>
    cases path with
    | nil => exact absurd h silent_nil
    | cons key rest => rfl

/-- A layer gives its own value to a path, and where it is silent the value of what lies below. -/
theorem valueAt_merge (hd : overlay.distinct = true) (hv : v.isObject = false) :
    valueAt (merge base overlay) path = some v ↔
      valueAt overlay path = some v ∨ Silent overlay path ∧ valueAt base path = some v := by
  induction path generalizing base overlay with
  | nil =>
    have hsame : merge base overlay = v ↔ overlay = v := by
      cases overlay with
      | object others =>
        have hmerged := isObject_merge_object base others
        constructor <;> rintro rfl
        · rw [hv] at hmerged
          cases hmerged
        · cases hv
      | _ => rfl
    simpa [valueAt, silent_nil] using hsame
  | cons key rest ih =>
    by_cases hobject : overlay.isObject = true
    · cases overlay with
      | object others =>
        have hmerged : valueAt (merge base (.object others)) (key :: rest) =
            ((merge base (.object others)).field? key).bind (valueAt · rest) := rfl
        have hbase : valueAt base (key :: rest) = (base.field? key).bind (valueAt · rest) := rfl
        rw [hmerged, field?_merge_object hd, valueAt_object, silent_object, hbase]
        cases hkey : Fields.get? others key with
        | none => simp
        | some w =>
          have hrest := @ih ((base.field? key).getD .null) w (Json.distinct_of_get? hd hkey)
          simp only [Option.bind_some, Option.some.injEq, forall_eq', hrest]
          exact or_congr_right (and_congr_right fun hsilent => by rw [hsilent.valueAt_getD])
      | _ => cases hobject
    · have hnot := Bool.eq_false_iff.mpr hobject
      have hsilent : ¬ Silent overlay (key :: rest) := fun h => hobject h.isObject
      simp [merge_of_not_object hnot, hsilent]

theorem valueAt_merge_object (hd : overlay.distinct = true)
    (hbase : valueAt base path = some (.object fields))
    (hoverlay : valueAt overlay path = some (.object others)) :
    valueAt (merge base overlay) path = some (.object (mergeFields fields others)) := by
  induction path generalizing base overlay with
  | nil =>
    cases hbase
    cases hoverlay
    rfl
  | cons key rest ih =>
    cases overlay with
    | object laid =>
      have hmerged : valueAt (merge base (.object laid)) (key :: rest) =
          ((merge base (.object laid)).field? key).bind (valueAt · rest) := rfl
      obtain ⟨lower, hlower, hbase⟩ := Option.bind_eq_some_iff.mp hbase
      obtain ⟨upper, hupper, hoverlay⟩ := Option.bind_eq_some_iff.mp hoverlay
      have hupper : Fields.get? laid key = some upper := hupper
      rw [hmerged, field?_merge_object hd, hupper, hlower]
      exact ih (Json.distinct_of_get? hd hupper) hbase hoverlay
    | _ => cases hoverlay

theorem distinct_of_valueAt (hd : layer.distinct = true) (hv : valueAt layer path = some v) :
    v.distinct = true := by
  induction path generalizing layer with
  | nil =>
    cases hv
    exact hd
  | cons key rest ih =>
    obtain ⟨w, hw, hvalue⟩ := Option.bind_eq_some_iff.mp hv
    cases layer with
    | object fields => exact ih (Json.distinct_of_get? hd hw) hvalue
    | _ => cases hw

/-- Layers merged over a base give a path the value of the last that is not silent, or that of the
base. -/
theorem valueAt_foldl_merge {layers : List Json} (hd : ∀ layer ∈ layers, layer.distinct = true)
    (hv : v.isObject = false) :
    valueAt (layers.foldl merge base) path = some v ↔
      (∃ lower layer upper, layers = lower ++ layer :: upper ∧ valueAt layer path = some v ∧
        ∀ later ∈ upper, Silent later path) ∨
      (∀ layer ∈ layers, Silent layer path) ∧ valueAt base path = some v := by
  induction layers generalizing base with
  | nil => simp
  | cons first rest ih =>
    obtain ⟨hfirst, hrest⟩ := List.forall_mem_cons.mp hd
    rw [List.foldl_cons, ih hrest, valueAt_merge hfirst hv]
    constructor
    · rintro (⟨lower, layer, upper, rfl, hlayer, hlater⟩ | ⟨hlater, hvalue | ⟨hsilent, hvalue⟩⟩)
      · exact .inl ⟨first :: lower, layer, upper, rfl, hlayer, hlater⟩
      · exact .inl ⟨[], first, rest, rfl, hvalue, hlater⟩
      · exact .inr ⟨List.forall_mem_cons.mpr ⟨hsilent, hlater⟩, hvalue⟩
    · rintro (⟨lower, layer, upper, hsplit, hlayer, hlater⟩ | ⟨hsilent, hvalue⟩)
      · cases lower with
        | nil =>
          cases hsplit
          exact .inr ⟨hlater, .inl hlayer⟩
        | cons other lower =>
          cases hsplit
          exact .inl ⟨lower, layer, upper, rfl, hlayer, hlater⟩
      · obtain ⟨hsilent, hlater⟩ := List.forall_mem_cons.mp hsilent
        exact .inr ⟨hlater, .inr ⟨hsilent, hvalue⟩⟩

/-- A path of merged layers has the value of the last layer that says something of it. Where an
object is laid over an object, at any depth, the names that only the lower one has come first, and
then all names of the upper one, each in their order. -/
theorem last_layer_decides {layers : List Json} (hne : layers ≠ [])
    (hd : ∀ layer ∈ layers, layer.distinct = true) :
    (∀ path v, v.isObject = false →
      (valueAt (mergeLayers layers) path = some v ↔
        ∃ lower layer upper, layers = lower ++ layer :: upper ∧ valueAt layer path = some v ∧
          ∀ later ∈ upper, Silent later path)) ∧
    ∀ base overlay : Json, overlay.distinct = true → ∀ path fields others,
      valueAt base path = some (.object fields) → valueAt overlay path = some (.object others) →
        ∃ merged, valueAt (merge base overlay) path = some (.object merged) ∧
          Fields.names merged =
            (Fields.names fields).filter (· ∉ Fields.names others) ++ Fields.names others := by
  constructor
  · intro path v hv
    have hempty : ¬ ((∀ layer ∈ layers, Silent layer path) ∧ valueAt .null path = some v) := by
      rintro ⟨hsilent, hvalue⟩
      obtain ⟨first, rest, rfl⟩ := List.exists_cons_of_ne_nil hne
      cases path with
      | nil => exact silent_nil (hsilent first List.mem_cons_self)
      | cons key path => cases hvalue
    rw [mergeLayers, valueAt_foldl_merge hd hv, or_iff_left hempty]
  · intro base overlay hoverlay path fields others hfields hothers
    have hdistinct : (Json.object others).distinct = true := distinct_of_valueAt hoverlay hothers
    exact ⟨_, valueAt_merge_object hoverlay hfields hothers,
      names_mergeFields (Json.distinct_object.mp hdistinct).1⟩

def lowFields : Fields Json :=
  [("config_dir", .string "src"), ("signal", .object [("mode", .string "ook")])]

def highFields : Fields Json :=
  [("signal", .object [("floor", .ofNat 3)]), ("config_type", .string "868")]

/-- Layers of which the second cuts off what the first has of the signal. -/
def cutLayers : List Json := [.object lowFields, .object [("signal", .null)],
  .object [("signal", .object [("gain", .ofNat 2), ("floor", .ofNat 1)])], .object highFields]

/-- The third layer gives the gain, about which the last is silent. No layer gives a mode, since the
second cuts off the first. -/
theorem cutLayers_last_decides :
    cutLayers ≠ [] ∧ (∀ layer ∈ cutLayers, layer.distinct = true) ∧
      valueAt (mergeLayers cutLayers) ["signal", "gain"] = some (.ofNat 2) ∧
      valueAt (mergeLayers cutLayers) ["signal", "mode"] ≠ some (.string "ook") ∧
      ∃ merged, valueAt (merge (.object lowFields) (.object highFields)) [] =
          some (.object merged) ∧
        Fields.names merged = ["config_dir", "signal", "config_type"] := by
  have hne : cutLayers ≠ [] := List.cons_ne_nil _ _
  have hd : ∀ layer ∈ cutLayers, layer.distinct = true := by decide +kernel
  obtain ⟨hvalues, hnames⟩ := last_layer_decides hne hd
  refine ⟨hne, hd, ?_, ?_, hnames _ _ (by decide +kernel) [] lowFields highFields rfl rfl⟩
  · -- the last layer has a signal, and no gain in it
    refine (hvalues _ (.ofNat 2) rfl).mpr ⟨[_, _], _, [_], rfl, rfl, ?_⟩
    intro later hlater
    rw [List.mem_singleton.mp hlater]
    refine silent_object.mpr fun v hv => ?_
    cases hv
    exact silent_object.mpr fun w hw => by cases hw
  · have hmode : valueAt (mergeLayers cutLayers) ["signal", "mode"] = none := rfl
    rw [hmode]
    exact nofun

end RadioDriver.Settings
