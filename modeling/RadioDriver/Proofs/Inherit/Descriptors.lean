import RadioDriver.Inherit.DeviceClass
import RadioDriver.Proofs.Inherit.Sources
import RadioDriver.Proofs.Locale.Placement

namespace RadioDriver.DeviceClass

open RadioDriver.Locale

variable {name view key : String} {pairs : List (Fields Json)}

def listNames : List String := ["prepend", "append"]

theorem mem_listNames : name ∈ listNames ↔ name = "prepend" ∨ name = "append" := by
  simp [listNames]

/-- The options of a view in a table, with fresh ones for a view that it does not have. -/
def optionsIn (table : Fields (Fields Json)) (view : String) : Fields Json :=
  (Fields.get? table view).getD freshOptions

theorem get?_freshOptions (hname : name ∉ listNames) : Fields.get? freshOptions name = none := by
  obtain ⟨hprepend, happend⟩ := not_or.mp (mt mem_listNames.mpr hname)
  simp [freshOptions, Fields.get?, Ne.symm hprepend, Ne.symm happend]

/-- The options that a value gives, which are none unless it is an object. -/
def optionsGiven (v : Option Json) : Fields Json := (v.bind Json.fields?).getD []

theorem distinct_optionsGiven {v : Option Json} (h : ∀ w, v = some w → w.distinct = true) :
    (Json.object (optionsGiven v)).distinct = true := by
  cases v with
  | none => rfl
  | some v =>
    have hv := h v rfl
    cases v with
    | object fields => exact hv
    | _ => rfl

section
variable {table : Fields (Fields Json)} {fields options : Fields Json} {items : List Json}
  {views : Fields Json} {field : String × Json}

theorem mergeView_eq (table : Fields (Fields Json)) (view : String × Json) :
    mergeView table view = Fields.set table view.1
      ((optionsGiven (some view.2)).foldl mergeViewField (optionsIn table view.1)) := by
  obtain ⟨view, v⟩ := view
  cases v <;> rfl

theorem get?_mergeViewFields_list (hname : name ∈ listNames)
    (h : Fields.get? options name = some (.array items)) (hnodup : (Fields.names fields).Nodup) :
    Fields.get? (fields.foldl mergeViewField options) name =
      some (.array (items ++ Json.asList (Fields.get? fields name))) := by
  induction fields generalizing options items with
  | nil => simpa [Fields.get?, Json.asList] using h
  | cons f rest ih =>
    obtain ⟨k, v⟩ := f
    obtain ⟨hnew, hrest⟩ := List.nodup_cons.mp hnodup
    rw [List.foldl_cons, Fields.get?]
    by_cases hk : k = name
    · subst hk
      have hset : Fields.get? (mergeViewField options (k, v)) k =
          some (.array (items ++ Json.asList (some v))) := by
        rw [mergeViewField, if_pos (mem_listNames.mp hname), Fields.get?_set_self, h]
        rfl
      have hlater : Fields.get? rest k = none := Fields.get?_eq_none_iff.mpr hnew
      rw [ih hset hrest, hlater, if_pos rfl]
      simp [Json.asList]
    · have hkept : Fields.get? (mergeViewField options (k, v)) name = some (.array items) := by
        rw [← h, mergeViewField]
        split <;> exact Fields.get?_set_of_ne _ _ (Ne.symm hk)
      rw [ih hkept hrest, if_neg hk]

theorem get?_mergeViewFields (hname : name ∉ listNames) (hnodup : (Fields.names fields).Nodup) :
    Fields.get? (fields.foldl mergeViewField options) name =
      (Fields.get? fields name).or (Fields.get? options name) := by
  induction fields generalizing options with
  | nil => rfl
  | cons f rest ih =>
    obtain ⟨k, v⟩ := f
    obtain ⟨hnew, hrest⟩ := List.nodup_cons.mp hnodup
    rw [List.foldl_cons, Fields.get?, ih hrest]
    by_cases hk : k = name
    · subst hk
      have hlater : Fields.get? rest k = none := Fields.get?_eq_none_iff.mpr hnew
      rw [mergeViewField, if_neg (mt mem_listNames.mpr hname), Fields.get?_set_self, hlater,
        if_pos rfl]
      rfl
    · have hkept : Fields.get? (mergeViewField options (k, v)) name = Fields.get? options name := by
        rw [mergeViewField]
        split <;> exact Fields.get?_set_of_ne _ _ (Ne.symm hk)
      rw [hkept, if_neg hk]

theorem isSome_mergeViews :
    (Fields.get? (views.foldl mergeView table) view).isSome = true ↔
      (Fields.get? views view).isSome = true ∨ (Fields.get? table view).isSome = true := by
  induction views generalizing table with
  | nil => simp [Fields.get?]
  | cons f rest ih =>
    obtain ⟨k, v⟩ := f
    rw [List.foldl_cons, ih, mergeView_eq, Fields.get?]
    by_cases hk : k = view
    · subst hk
      simp [Fields.get?_set_self]
    · rw [Fields.get?_set_of_ne _ _ (Ne.symm hk), if_neg hk]

theorem optionsIn_mergeViews (hnodup : (Fields.names views).Nodup) :
    optionsIn (views.foldl mergeView table) view =
      (optionsGiven (Fields.get? views view)).foldl mergeViewField (optionsIn table view) := by
  induction views generalizing table with
  | nil => rfl
  | cons f rest ih =>
    obtain ⟨k, v⟩ := f
    obtain ⟨hnew, hrest⟩ := List.nodup_cons.mp hnodup
    rw [List.foldl_cons, ih hrest, mergeView_eq, Fields.get?]
    by_cases hk : k = view
    · subst hk
      have hlater : Fields.get? rest k = none := Fields.get?_eq_none_iff.mpr hnew
      rw [hlater, if_pos rfl, optionsIn, Fields.get?_set_self]
      rfl
    · rw [if_neg hk, optionsIn, Fields.get?_set_of_ne _ _ (Ne.symm hk)]
      rfl

theorem distinct_mergeViewField (h : (Json.object options).distinct = true)
    (hfield : field.2.distinct = true) :
    (Json.object (mergeViewField options field)).distinct = true := by
  unfold mergeViewField
  split
  · refine Json.distinct_set h (Json.distinct_array.mpr ?_)
    rw [List.forall_mem_append]
    constructor
    · exact Json.distinct_of_mem_asList fun w hw => Json.distinct_of_get? h hw
    · exact Json.distinct_of_mem_asList fun w hw => Option.some.inj hw ▸ hfield
  · exact Json.distinct_set h hfield

theorem distinct_optionsIn (h : (Json.object (Fields.mapValues .object table)).distinct = true)
    (view : String) : (Json.object (optionsIn table view)).distinct = true := by
  unfold optionsIn
  cases hget : Fields.get? table view with
  | none => rfl
  | some options =>
    have hobject : Fields.get? (Fields.mapValues Json.object table) view =
        some (.object options) := by
      rw [Fields.get?_mapValues, hget]
      rfl
    exact Json.distinct_of_get? h hobject

theorem distinct_mergeView (h : (Json.object (Fields.mapValues .object table)).distinct = true)
    (hfield : field.2.distinct = true) :
    (Json.object (Fields.mapValues .object (mergeView table field))).distinct = true := by
  have hgiven : (Json.object (optionsGiven (some field.2))).distinct = true :=
    distinct_optionsGiven fun w hw => Option.some.inj hw ▸ hfield
  rw [mergeView_eq, Fields.mapValues_set]
  refine Json.distinct_set h ?_
  exact List.foldlRecOn _ mergeViewField (motive := fun options =>
    (Json.object options).distinct = true) (distinct_optionsIn h field.1) fun options ho f hf =>
      distinct_mergeViewField ho ((Json.distinct_object.mp hgiven).2 f hf)

end

/-- What the pairing descriptors come to in a table of view options. -/
structure Tabled (pairs : List (Fields Json)) (table : Fields (Fields Json)) : Prop where
  named : ∀ view, (Fields.get? table view).isSome = true ↔
    ∃ p ∈ pairs, (valueAt p ["viewOptions", view]).isSome = true
  list : ∀ view, ∀ name ∈ listNames, Fields.get? (optionsIn table view) name =
    some (.array (pairs.flatMap fun p => Json.asList (valueAt p ["viewOptions", view, name])))
  option : ∀ view, ∀ name ∉ listNames, Fields.get? (optionsIn table view) name =
    lastOf (valueAt · ["viewOptions", view, name]) pairs
  distinct : (Json.object (Fields.mapValues .object table)).distinct = true

section
variable {table : Fields (Fields Json)} {pair views : Fields Json}

theorem tabled_nil : Tabled [] [] where
  named view := by simp [Fields.get?]
  list view name hname := by
    rcases mem_listNames.mp hname with rfl | rfl <;> rfl
  option view name hname := get?_freshOptions hname
  distinct := rfl

theorem mergeViewOptions_eq (table : Fields (Fields Json)) (pair : Fields Json) :
    mergeViewOptions table pair =
      (optionsGiven (Fields.get? pair "viewOptions")).foldl mergeView table := by
  unfold mergeViewOptions
  cases Fields.get? pair "viewOptions" with
  | none => rfl
  | some v => cases v <;> rfl

theorem valueAt_optionsGiven (fields : Fields Json) (name next : String) (rest : List String) :
    valueAt fields (name :: next :: rest) =
      valueAt (optionsGiven (Fields.get? fields name)) (next :: rest) := by
  rw [valueAt_below_object, optionsGiven]
  cases (Fields.get? fields name).bind Json.fields? with
  | none => cases rest <;> rfl
  | some inner => rfl

theorem Tabled.concat (h : Tabled pairs table) (hpair : (Json.object pair).distinct = true) :
    Tabled (pairs ++ [pair]) (mergeViewOptions table pair) := by
  have hbelow : ∀ view rest, valueAt pair ("viewOptions" :: view :: rest) =
      valueAt (optionsGiven (Fields.get? pair "viewOptions")) (view :: rest) :=
    fun view rest => valueAt_optionsGiven pair "viewOptions" view rest
  have hdistinct : (Json.object (optionsGiven (Fields.get? pair "viewOptions"))).distinct = true :=
    distinct_optionsGiven fun w hw => Json.distinct_of_get? hpair hw
  rw [mergeViewOptions_eq]
  generalize optionsGiven (Fields.get? pair "viewOptions") = views at hbelow hdistinct ⊢
  obtain ⟨hnodup, hvalues⟩ := Json.distinct_object.mp hdistinct
  have hfield : ∀ view name, valueAt pair ["viewOptions", view, name] =
      Fields.get? (optionsGiven (Fields.get? views view)) name := by
    intro view name
    rw [hbelow, valueAt_optionsGiven]
    rfl
  have hoptions : ∀ view, (Fields.names (optionsGiven (Fields.get? views view))).Nodup :=
    fun view => (Json.distinct_object.mp
      (distinct_optionsGiven fun w hw => Json.distinct_of_get? hdistinct hw)).1
  refine ⟨fun view => ?_, fun view name hname => ?_, fun view name hname => ?_, ?_⟩
  · have hview : valueAt pair ["viewOptions", view] = Fields.get? views view := hbelow view []
    rw [isSome_mergeViews, h.named, ← hview]
    simp only [List.mem_append, List.mem_singleton, or_and_right, exists_or, exists_eq_left]
    exact or_comm
  · rw [optionsIn_mergeViews hnodup, get?_mergeViewFields_list hname (h.list view name hname)
      (hoptions view), ← hfield, List.flatMap_append]
    simp
  · rw [optionsIn_mergeViews hnodup, get?_mergeViewFields hname (hoptions view), ← hfield,
      h.option view name hname, lastOf_concat]
  · exact List.foldlRecOn views mergeView (motive := fun table =>
      (Json.object (Fields.mapValues .object table)).distinct = true) h.distinct
      fun table htable f hf => distinct_mergeView htable (hvalues f hf)

theorem tabled_mergeViewOptions (h : ∀ p ∈ pairs, (Json.object p).distinct = true) :
    Tabled pairs (pairs.foldl mergeViewOptions []) := by
  induction pairs using List.reverseRecOn with
  | nil => exact tabled_nil
  | append_singleton pairs last ih =>
    rw [List.foldl_append, List.foldl_cons, List.foldl_nil]
    exact (ih fun p hp => h p (List.mem_append_left _ hp)).concat (h last (by simp))

end

theorem get?_optionsIn (table : Fields (Fields Json)) (view : String) (hname : name ∉ listNames) :
    Fields.get? (optionsIn table view) name =
      (Fields.get? table view).bind (Fields.get? · name) := by
  unfold optionsIn
  cases Fields.get? table view with
  | none => exact get?_freshOptions hname
  | some options => rfl

theorem get?_mergePairs_viewOptions (pairs : List (Fields Json))
    (h : ∀ p ∈ pairs, (Fields.names p).Nodup) :
    Fields.get? (mergePairs pairs) "viewOptions" =
      some (.object (Fields.mapValues .object (pairs.foldl mergeViewOptions []))) := by
  have hplain := Fields.get?_foldl_override_filter h (fun n => n ≠ "viewOptions") "viewOptions"
  rw [mergePairs, Fields.get?_append, hplain]
  rfl

theorem get?_mergePairs (h : ∀ p ∈ pairs, (Fields.names p).Nodup) (hkey : key ≠ "viewOptions") :
    Fields.get? (mergePairs pairs) key = lastOf (Fields.get? · key) pairs := by
  have hplain := Fields.get?_foldl_override_filter h (fun n => n ≠ "viewOptions") key
  have hlast : Fields.get? [("viewOptions",
      Json.object (Fields.mapValues .object (pairs.foldl mergeViewOptions [])))] key = none := by
    simp [Fields.get?, Ne.symm hkey]
  rw [if_pos (decide_eq_true hkey)] at hplain
  rw [mergePairs, Fields.get?_append, hlast, Option.or_none]
  exact hplain

theorem mergePairs_eq_set (h : ∀ p ∈ pairs, (Fields.names p).Nodup) :
    mergePairs pairs = Fields.set
      (pairs.foldl (fun acc p => Fields.override acc (p.filter fun f => f.1 ≠ "viewOptions")) [])
      "viewOptions" (.object (Fields.mapValues .object (pairs.foldl mergeViewOptions []))) := by
  -- no plain field has the name, so that it is set behind all of them
  have hplain := Fields.get?_foldl_override_filter h (fun n => n ≠ "viewOptions") "viewOptions"
  rw [Fields.set_eq_append (Fields.get?_eq_none_iff.mp hplain)]
  rfl

theorem valueAt_mergePairs_view (h : ∀ p ∈ pairs, (Fields.names p).Nodup) (view : String) :
    valueAt (mergePairs pairs) ["viewOptions", view] =
      (Fields.get? (pairs.foldl mergeViewOptions []) view).map Json.object := by
  rw [valueAt_below_object, get?_mergePairs_viewOptions pairs h]
  exact Fields.get?_mapValues _ _ view

theorem valueAt_mergePairs_option (h : ∀ p ∈ pairs, (Fields.names p).Nodup) (view name : String) :
    valueAt (mergePairs pairs) ["viewOptions", view, name] =
      (Fields.get? (pairs.foldl mergeViewOptions []) view).bind (Fields.get? · name) := by
  rw [valueAt_below_object, get?_mergePairs_viewOptions pairs h, Option.bind_some, Json.fields?,
    Option.bind_some, valueAt_below_object, Fields.get?_mapValues]
  cases Fields.get? (pairs.foldl mergeViewOptions []) view <;> rfl

theorem distinct_mergePairs (h : ∀ p ∈ pairs, (Json.object p).distinct = true) :
    (Json.object (mergePairs pairs)).distinct = true := by
  rw [mergePairs_eq_set fun p hp => (Json.distinct_object.mp (h p hp)).1]
  exact Json.distinct_set (Json.distinct_foldl_override h _) (tabled_mergeViewOptions h).distinct

end RadioDriver.DeviceClass
