import Mathlib.Data.List.Forall2
import RadioDriver.Proofs.Device.Assembly
import RadioDriver.Proofs.Inherit.ViewFold

namespace RadioDriver.Device

/-- The names in a view order: its texts, or one text alone. -/
def orderNames : Json → List String
  | .array items => items.filterMap Json.string?
  | .string name => [name]
  | _ => []

def viewOptions (pair : Fields Json) : Fields Json :=
  ((Fields.get? pair "viewOptions").bind Json.fields?).getD []

/-- The values that a pairing descriptor gives to the options of a view. -/
def givenValues (pair : Fields Json) (view : String) : Fields Json :=
  ((Fields.get? (viewOptions pair) view).bind Json.fields?).getD []

/-- The options that every view has, and that stand in for its own options of these names. -/
def contentOptions : List String := ["prepend", "append"]

/-- What a view says of an option. Nothing is said of the content around a view. -/
def schemaOf (view : Entity) (option : String) : Json :=
  if option ∈ contentOptions then .object []
  else (Fields.get? (View.optionsOf view) option).getD (.object [])

/-- The values that count as no. -/
inductive Falsy : Json → Prop
  | null : Falsy .null
  | false : Falsy (.bool false)
  | empty : Falsy (.string "")
  | zero {n : Number} {negative : Bool} (h : n.toDouble = .zero negative) : Falsy (.number n)

/-- An option that only the device can give a value: it is required and has no default. -/
def Demanding (schema : Json) : Prop :=
  schema.field? "default" = none ∧ ∃ v, schema.field? "required" = some v ∧ ¬ Falsy v

/-- The value of an option that is not given: its default, even `null`, or else the empty text. -/
def fallback (schema : Json) : Json := (schema.field? "default").getD (.string "")

/-- The options among these that no value is given to, with what they fall back on. -/
def leftOpen (schema : String → Json) (options : List String) (given : Fields Json) : Fields Json :=
  (options.eraseDups.filter (· ∉ Fields.names given)).map fun option =>
    (option, fallback (schema option))

/-- The given values, and behind them those that the other options of the view fall back on. -/
def allValues (view : Entity) (given : Fields Json) : Fields Json :=
  given ++ leftOpen (schemaOf view) (Fields.names (View.optionsOf view) ++ contentOptions) given

/-- A view of a flow: the resolved view under its name, with values in place of its schema. -/
def flowView (pair : Fields Json) (name : String) (view : Entity) : Json :=
  .object (Fields.override view
    [("options", .object (allValues view (givenValues pair name))), ("id", .string name)])

/-- The device gives values to all demanding options of a view. -/
def Supplied (view : Entity) (given : Fields Json) : Prop :=
  ∀ option, Demanding (schemaOf view option) → option ∈ Fields.names given

/-- A descriptor whose view order can be expanded. -/
structure Expandable (s : Surroundings) (pair : Fields Json) (order : Json) : Prop where
  texts : ∀ items, order = .array items → ∀ v ∈ items, ∃ name, v = .string name
  known : ∀ name ∈ orderNames order, ∃ view, Fields.get? s.views name = some view
  supplied : ∀ name ∈ orderNames order, ∀ view, Fields.get? s.views name = some view →
    Supplied view (givenValues pair name)

/-- What is wrong with a descriptor that cannot be expanded, and the error that says so. -/
inductive Unexpandable (s : Surroundings) (device : String) (pair : Fields Json) (order : Json) :
    CompileError → Prop
  | notText {items : List Json} {v : Json} (array : order = .array items) (listed : v ∈ items)
      (plain : ∀ name, v ≠ .string name) :
      Unexpandable s device pair order (.unknownView device v.compact)
  | unknownView {name : String} (listed : name ∈ orderNames order)
      (absent : Fields.get? s.views name = none) :
      Unexpandable s device pair order (.unknownView device name)
  | missingOption {name option : String} {view : Entity} (listed : name ∈ orderNames order)
      (known : Fields.get? s.views name = some view) (demanding : Demanding (schemaOf view option))
      (missing : option ∉ Fields.names (givenValues pair name)) :
      Unexpandable s device pair order (.missingOption device name option)

variable {s : Surroundings} {id name option : String} {device made signalled view : Entity}
  {pair schema values given filled expanded overrides : Fields Json} {order : Json}
  {names found : List String} {items views : List Json} {shown : Json} {error : CompileError}
  {registry registry' : Signal.Registry}

theorem Unexpandable.not_expandable (h : Unexpandable s id pair order error) :
    ¬ Expandable s pair order := by
  intro hgood
  cases h with
  | notText array listed plain =>
    obtain ⟨name, hname⟩ := hgood.texts _ array _ listed
    exact plain name hname
  | unknownView listed absent =>
    obtain ⟨view, hview⟩ := hgood.known _ listed
    rw [absent] at hview
    cases hview
  | missingOption listed known demanding missing =>
    exact missing (hgood.supplied _ listed _ known _ demanding)

theorem isZero_iff {x : Double} : x.isZero = true ↔ ∃ negative, x = .zero negative := by
  constructor
  · intro h
    obtain ⟨negative, mantissa, exponent, hcanonical⟩ := x
    obtain rfl : mantissa = 0 := by simpa [Double.isZero] using h
    -- only the least exponent goes with fewer than 53 bits
    obtain rfl : exponent = -1074 := hcanonical.2.2.2.resolve_left (by decide)
    exact ⟨negative, rfl⟩
  · rintro ⟨negative, rfl⟩
    rfl

theorem isTruthy_iff {v : Json} : v.isTruthy = true ↔ ¬ Falsy v := by
  constructor
  · intro htruthy hfalsy
    cases hfalsy with
    | zero h => simp [Json.isTruthy, isZero_iff.mpr ⟨_, h⟩] at htruthy
    | _ => simp [Json.isTruthy] at htruthy
  · intro h
    cases v with
    | null => exact absurd .null h
    | bool b =>
      cases b with
      | false => exact absurd .false h
      | true => rfl
    | number n =>
      rw [Json.isTruthy, Bool.not_eq_true', Bool.eq_false_iff]
      intro hzero
      obtain ⟨negative, hdouble⟩ := isZero_iff.mp hzero
      exact h (.zero hdouble)
    | string text =>
      refine decide_eq_true fun hempty => h ?_
      rw [hempty]
      exact .empty
    | _ => rfl

section
variable {schemaAt : String → Json} {options : List String} {fields : Json}

theorem leftOpen_of_mem (h : option ∈ Fields.names given) :
    leftOpen schemaAt (option :: options) given = leftOpen schemaAt options given := by
  unfold leftOpen
  rw [List.eraseDups_cons, Fields.eraseDups_filter, List.filter_cons, if_neg (by simpa using h),
    List.filter_filter]
  congr 1
  apply List.filter_congr
  intro other _
  by_cases heq : other = option
  · simp [heq, h]
  · simp [heq]

theorem leftOpen_of_not_mem (h : option ∉ Fields.names given) (v : Json) :
    leftOpen schemaAt (option :: options) given =
      (option, fallback (schemaAt option)) ::
        leftOpen schemaAt options (given ++ [(option, v)]) := by
  have hgrown : Fields.names (given ++ [(option, v)]) = Fields.names given ++ [option] :=
    Fields.names_append _ _
  unfold leftOpen
  rw [List.eraseDups_cons, Fields.eraseDups_filter, List.filter_cons, if_pos (by simpa using h),
    List.filter_filter, List.map_cons, hgrown]
  congr 2
  apply List.filter_congr
  intro other _
  by_cases heq : other = option <;> simp [heq]

/-- The schema says this of the options that have no value yet. -/
def Describes (schema : Fields Json) (schemaAt : String → Json) (values : Fields Json) : Prop :=
  ∀ option ∉ Fields.names values, ∀ fields, Fields.get? schema option = some fields →
    schemaAt option = fields

theorem Describes.head (h : Describes ((option, fields) :: schema) schemaAt values)
    (hnew : option ∉ Fields.names values) : schemaAt option = fields :=
  h option hnew fields (by rw [Fields.get?, if_pos rfl])

/-- When the first option has a value, what is said of the others is in the rest of the schema. -/
theorem Describes.tail (h : Describes ((option, fields) :: schema) schemaAt values)
    (hkept : Fields.names values ⊆ Fields.names filled) (hmem : option ∈ Fields.names filled) :
    Describes schema schemaAt filled := by
  intro other hother v hv
  have hne : option ≠ other := by
    rintro rfl
    exact hother hmem
  exact h other (fun hold => hother (hkept hold)) v (by rw [Fields.get?, if_neg hne, hv])

theorem fillOptions_of_mem (h : option ∈ Fields.names values) :
    fillOptions id name ((option, fields) :: schema) values =
      fillOptions id name schema values := by
  rw [fillOptions, if_pos (Fields.contains_iff.mpr h)]

theorem fillOptions_of_demanding (hnew : option ∉ Fields.names values) (h : Demanding fields) :
    fillOptions id name ((option, fields) :: schema) values =
      .error (.missingOption id name option) := by
  obtain ⟨hdefault, v, hrequired, hfalsy⟩ := h
  rw [fillOptions, if_neg (mt Fields.contains_iff.mp hnew)]
  simp [hdefault, hrequired, isTruthy_iff.mpr hfalsy]

theorem fillOptions_of_not_demanding (hnew : option ∉ Fields.names values)
    (h : ¬ Demanding fields) :
    fillOptions id name ((option, fields) :: schema) values =
      fillOptions id name schema (values ++ [(option, fallback fields)]) := by
  rw [fillOptions, if_neg (mt Fields.contains_iff.mp hnew), fallback, ← Fields.set_eq_append hnew]
  cases hdefault : fields.field? "default" with
  | some v => rfl
  | none =>
    have hoptional : ¬ ((fields.field? "required").map Json.isTruthy).getD false = true := by
      intro hrequired
      cases hv : fields.field? "required" with
      | none => simp [hv] at hrequired
      | some v => exact h ⟨hdefault, v, hv, isTruthy_iff.mp (by simpa [hv] using hrequired)⟩
    simp only [if_neg hoptional, Option.getD_none]

/-- Options that can be filled get all that they fall back on, and none of them demands more. -/
theorem fillOptions_eq_ok (hschema : Describes schema schemaAt values)
    (h : fillOptions id name schema values = .ok filled) :
    (∀ option ∈ Fields.names schema, Demanding (schemaAt option) →
        option ∈ Fields.names values) ∧
      filled = values ++ leftOpen schemaAt (Fields.names schema) values := by
  induction schema generalizing values with
  | nil =>
    cases h
    simp [Fields.names, leftOpen]
  | cons f rest ih =>
    obtain ⟨option, fields⟩ := f
    have hnames : Fields.names ((option, fields) :: rest) = option :: Fields.names rest := rfl
    rw [hnames, List.forall_mem_cons]
    by_cases hmem : option ∈ Fields.names values
    · rw [fillOptions_of_mem hmem] at h
      obtain ⟨hrest, hfilled⟩ := ih (hschema.tail (List.Subset.refl _) hmem) h
      rw [leftOpen_of_mem hmem]
      exact ⟨⟨fun _ => hmem, hrest⟩, hfilled⟩
    · have hhere := hschema.head hmem
      by_cases hdemanding : Demanding fields
      · rw [fillOptions_of_demanding hmem hdemanding] at h
        cases h
      · rw [fillOptions_of_not_demanding hmem hdemanding] at h
        have hgrown : Fields.names (values ++ [(option, fallback fields)]) =
            Fields.names values ++ [option] := Fields.names_append _ _
        obtain ⟨hrest, hfilled⟩ := ih (hschema.tail (by simp [hgrown]) (by simp [hgrown])) h
        rw [leftOpen_of_not_mem hmem (fallback fields), hhere]
        refine ⟨⟨fun hdemands => absurd hdemands hdemanding, fun other hother hdemands => ?_⟩, ?_⟩
        · have hvalue := hrest other hother hdemands
          rw [hgrown, List.mem_append, List.mem_singleton] at hvalue
          refine hvalue.resolve_right ?_
          rintro rfl
          exact hdemanding (hhere ▸ hdemands)
        · rw [hfilled, List.append_assoc, List.singleton_append]

/-- Options that cannot be filled have one among them that demands a value and gets none. -/
theorem fillOptions_eq_error (hschema : Describes schema schemaAt values)
    (h : fillOptions id name schema values = .error error) :
    ∃ option, Demanding (schemaAt option) ∧ option ∉ Fields.names values ∧
      error = .missingOption id name option := by
  induction schema generalizing values with
  | nil => cases h
  | cons f rest ih =>
    obtain ⟨option, fields⟩ := f
    by_cases hmem : option ∈ Fields.names values
    · rw [fillOptions_of_mem hmem] at h
      exact ih (hschema.tail (List.Subset.refl _) hmem) h
    · have hhere := hschema.head hmem
      by_cases hdemanding : Demanding fields
      · rw [fillOptions_of_demanding hmem hdemanding] at h
        cases h
        exact ⟨option, hhere ▸ hdemanding, hmem, rfl⟩
      · rw [fillOptions_of_not_demanding hmem hdemanding] at h
        have hgrown : Fields.names (values ++ [(option, fallback fields)]) =
            Fields.names values ++ [option] := Fields.names_append _ _
        obtain ⟨other, hdemands, hmissing, herror⟩ :=
          ih (hschema.tail (by simp [hgrown]) (by simp [hgrown])) h
        refine ⟨other, hdemands, fun hold => hmissing ?_, herror⟩
        rw [hgrown]
        exact List.mem_append_left _ hold

end

/-- The schema of a view, with the content around it, says of every option what the view does. -/
theorem describes_optionSchema (view : Entity) (values : Fields Json) :
    Describes (optionSchema view) (schemaOf view) values := by
  intro option _ fields hget
  have hoptions : optionSchema view = Fields.set (Fields.set (View.optionsOf view) "prepend"
    (.object [])) "append" (.object []) := rfl
  rw [hoptions] at hget
  unfold schemaOf
  by_cases happend : option = "append"
  · rw [happend, Fields.get?_set_self] at hget
    rw [if_pos (by simp [contentOptions, happend]), ← Option.some.inj hget]
  · rw [Fields.get?_set_of_ne _ _ happend] at hget
    by_cases hprepend : option = "prepend"
    · rw [hprepend, Fields.get?_set_self] at hget
      rw [if_pos (by simp [contentOptions, hprepend]), ← Option.some.inj hget]
    · rw [Fields.get?_set_of_ne _ _ hprepend] at hget
      rw [if_neg (by simp [contentOptions, happend, hprepend]), hget]
      rfl

theorem mem_optionSchema_of_demanding (h : Demanding (schemaOf view option)) :
    option ∈ Fields.names (optionSchema view) := by
  have hnothing : ¬ Demanding (.object []) := by
    rintro ⟨-, v, hv, -⟩
    cases hv
  unfold schemaOf at h
  split at h
  · exact absurd h hnothing
  · cases hget : Fields.get? (View.optionsOf view) option with
    | none =>
      rw [hget] at h
      exact absurd h hnothing
    | some fields =>
      have hown := Fields.mem_names_of_get? hget
      exact Fields.mem_names_set.mpr (.inr (Fields.mem_names_set.mpr (.inr hown)))

theorem leftOpen_optionSchema (view : Entity) (given : Fields Json) :
    leftOpen (schemaOf view) (Fields.names (optionSchema view)) given =
      leftOpen (schemaOf view) (Fields.names (View.optionsOf view) ++ contentOptions) given := by
  have hnames : (Fields.names (optionSchema view)).eraseDups =
      (Fields.names (View.optionsOf view) ++ contentOptions).eraseDups := by
    rw [optionSchema, Fields.eraseDups_names_set]
    have hboth : Fields.names (View.optionsOf view) ++ contentOptions =
        (Fields.names (View.optionsOf view) ++ ["prepend"]) ++ ["append"] := by
      simp [contentOptions]
    rw [hboth]
    exact Fields.eraseDups_append_congr (Fields.eraseDups_names_set _ _ _) rfl
  rw [leftOpen, hnames, ← leftOpen]

theorem expandView_eq_ok (h : expandView s id (viewOptions pair) name = .ok shown) :
    ∃ view, Fields.get? s.views name = some view ∧ Supplied view (givenValues pair name) ∧
      shown = flowView pair name view := by
  unfold expandView at h
  split at h
  · cases h
  · next view hview =>
    obtain ⟨values, hfill, hdone⟩ := except_bind_eq_ok.mp h
    obtain ⟨hsupplied, hvalues⟩ := fillOptions_eq_ok (describes_optionSchema view _) hfill
    refine ⟨view, hview, fun option hdemands => ?_, ?_⟩
    · exact hsupplied option (mem_optionSchema_of_demanding hdemands) hdemands
    · rw [leftOpen_optionSchema] at hvalues
      cases hdone
      rw [hvalues]
      rfl

theorem expandView_eq_error (hlisted : name ∈ orderNames order)
    (h : expandView s id (viewOptions pair) name = .error error) :
    Unexpandable s id pair order error := by
  unfold expandView at h
  split at h
  · next habsent =>
    cases h
    exact .unknownView hlisted habsent
  · next view hview =>
    rcases except_bind_eq_error.mp h with hfill | ⟨values, -, hdone⟩
    · obtain ⟨option, hdemands, hmissing, rfl⟩ :=
        fillOptions_eq_error (describes_optionSchema view _) hfill
      exact .missingOption hlisted hview hdemands hmissing
    · cases hdone

theorem expandViews_eq_ok (h : expandViews s id overrides names = .ok views) :
    List.Forall₂ (fun name shown => expandView s id overrides name = .ok shown) names views := by
  induction names generalizing views with
  | nil =>
    cases h
    exact .nil
  | cons name rest ih =>
    obtain ⟨shown, hshown, h⟩ := except_bind_eq_ok.mp h
    obtain ⟨more, hmore, hdone⟩ := except_bind_eq_ok.mp h
    cases hdone
    exact .cons hshown (ih hmore)

theorem expandViews_eq_error (h : expandViews s id overrides names = .error error) :
    ∃ name ∈ names, expandView s id overrides name = .error error := by
  induction names with
  | nil => cases h
  | cons name rest ih =>
    rcases except_bind_eq_error.mp h with hfirst | ⟨shown, -, h⟩
    · exact ⟨name, List.mem_cons_self, hfirst⟩
    · rcases except_bind_eq_error.mp h with hrest | ⟨more, -, hdone⟩
      · obtain ⟨other, hother, herror⟩ := ih hrest
        exact ⟨other, List.mem_cons_of_mem _ hother, herror⟩
      · cases hdone

theorem names_eq_ok (h : viewNames.names id items = .ok found) : items = found.map .string := by
  induction items generalizing found with
  | nil =>
    cases h
    rfl
  | cons item rest ih =>
    cases item with
    | string name =>
      obtain ⟨more, hmore, rfl⟩ := except_map_eq_ok.mp h
      rw [ih hmore, List.map_cons]
    | _ => cases h

theorem names_eq_error (h : viewNames.names id items = .error error) :
    ∃ v ∈ items, (∀ name, v ≠ .string name) ∧ error = .unknownView id v.compact := by
  induction items with
  | nil => cases h
  | cons item rest ih =>
    cases item with
    | string name =>
      rw [viewNames.names] at h
      cases hrest : viewNames.names id rest with
      | ok names =>
        rw [hrest] at h
        cases h
      | error e =>
        rw [hrest] at h
        cases h
        obtain ⟨v, hv, hplain⟩ := ih hrest
        exact ⟨v, List.mem_cons_of_mem _ hv, hplain⟩
    | _ =>
      cases h
      refine ⟨_, List.mem_cons_self, ?_, rfl⟩
      rintro name ⟨⟩

theorem viewNames_eq_ok (h : viewNames id order = .ok found) :
    (∀ items, order = .array items → ∀ v ∈ items, ∃ name, v = .string name) ∧
      found = orderNames order := by
  cases order with
  | array items =>
    obtain rfl := names_eq_ok h
    constructor
    · rintro _ ⟨⟩ v hv
      obtain ⟨name, -, rfl⟩ := List.mem_map.mp hv
      exact ⟨name, rfl⟩
    · simp [orderNames, List.filterMap_map, Function.comp_def, Json.string?]
  | _ =>
    cases h
    refine ⟨?_, rfl⟩
    rintro items ⟨⟩

theorem expandPair_eq_ok (h : expandPair s id pair order = .ok expanded) :
    Expandable s pair order ∧ ∃ views,
      expanded = [("viewOrder", order), ("views", .array views)] ∧
      List.Forall₂ (fun name shown => ∃ view, Fields.get? s.views name = some view ∧
        shown = flowView pair name view) (orderNames order) views := by
  obtain ⟨names, hnames, h⟩ := except_bind_eq_ok.mp h
  obtain ⟨views, hviews, hdone⟩ := except_bind_eq_ok.mp h
  obtain ⟨htexts, rfl⟩ := viewNames_eq_ok hnames
  have hshown : List.Forall₂ (fun name shown =>
      (∃ view, Fields.get? s.views name = some view ∧ Supplied view (givenValues pair name)) ∧
        ∃ view, Fields.get? s.views name = some view ∧ shown = flowView pair name view)
      (orderNames order) views := by
    refine (expandViews_eq_ok hviews).imp fun name shown hview => ?_
    obtain ⟨view, hget, hsupplied, hflow⟩ := expandView_eq_ok hview
    exact ⟨⟨view, hget, hsupplied⟩, view, hget, hflow⟩
  obtain ⟨hgood, hflow⟩ := (List.forall₂_and_left _ _).mp hshown
  cases hdone
  refine ⟨⟨htexts, fun name hname => ?_, fun name hname view hview => ?_⟩, views, rfl, hflow⟩
  · obtain ⟨view, hget, -⟩ := hgood name hname
    exact ⟨view, hget⟩
  · obtain ⟨known, hget, hsupplied⟩ := hgood name hname
    rw [hview] at hget
    cases hget
    exact hsupplied

theorem expandPair_eq_error (h : expandPair s id pair order = .error error) :
    Unexpandable s id pair order error := by
  rcases except_bind_eq_error.mp h with hnames | ⟨names, hnames, h⟩
  · cases order with
    | array items =>
      obtain ⟨v, hv, hplain, rfl⟩ := names_eq_error hnames
      exact .notText rfl hv hplain
    | _ => cases hnames
  · obtain ⟨-, rfl⟩ := viewNames_eq_ok hnames
    rcases except_bind_eq_error.mp h with hviews | ⟨views, -, hdone⟩
    · obtain ⟨name, hname, herror⟩ := expandViews_eq_error hviews
      exact expandView_eq_error hname herror
    · cases hdone

theorem assemble_of_signalled (hpair : Fields.get? device "pair" = some (.object pair))
    (horder : Fields.get? pair "viewOrder" = some order)
    (hsignal : assignSignal s id (withDriver s device) registry = .ok (signalled, registry')) :
    assemble s id device registry = (expandPair s id pair order).map fun expanded =>
      (flowSections.foldl (ownSection id) (Fields.set signalled "pair" (.object expanded)),
        registry') := by
  have hkept : Fields.get? signalled "pair" = some (.object pair) := by
    rw [get?_of_assignSignal (by decide) (by decide) hsignal, get?_withDriver (by decide), hpair]
  have hpairUp : pairUp s id signalled = (expandPair s id pair order).map fun expanded =>
      Fields.set signalled "pair" (.object expanded) := by
    rw [pairUp, hkept]
    simp only [horder]
    cases expandPair s id pair order <;> rfl
  rw [assemble, hsignal]
  simp only [bind, Except.bind, hpairUp]
  cases expandPair s id pair order <;> rfl

/-- Once its signal is assigned, a device with a view order is assembled just when the order lists
nothing but names of views and the device gives all that these demand. Its flow then has these views
in order, each with the given values followed by what the other options fall back on. An error names
what is wrong. -/
theorem assemble_expands_pair (hpair : Fields.get? device "pair" = some (.object pair))
    (horder : Fields.get? pair "viewOrder" = some order)
    (hsignal : assignSignal s id (withDriver s device) registry = .ok (signalled, registry')) :
    ((∃ made, assemble s id device registry = .ok made) ↔ Expandable s pair order) ∧
    (∀ made, assemble s id device registry = .ok made → ∃ views,
      Fields.get? made.1 "pair" = some (.object [("viewOrder", order), ("views", .array views)]) ∧
      List.Forall₂ (fun name shown => ∃ view, Fields.get? s.views name = some view ∧
        shown = flowView pair name view) (orderNames order) views) ∧
    ∀ error, assemble s id device registry = .error error →
      Unexpandable s id pair order error := by
  rw [assemble_of_signalled hpair horder hsignal]
  cases hexpand : expandPair s id pair order with
  | error e =>
    have hwrong := expandPair_eq_error hexpand
    refine ⟨⟨?_, fun hgood => absurd hgood hwrong.not_expandable⟩, ?_, ?_⟩
    · rintro ⟨_, ⟨⟩⟩
    · rintro _ ⟨⟩
    · rintro _ ⟨⟩
      exact hwrong
  | ok expanded =>
    obtain ⟨hgood, views, rfl, hviews⟩ := expandPair_eq_ok hexpand
    refine ⟨⟨fun _ => hgood, fun _ => ⟨_, rfl⟩⟩, ?_, ?_⟩
    · rintro _ ⟨⟩
      refine ⟨views, ?_, hviews⟩
      rw [get?_ownSections (by decide), Fields.get?_set_self]
    · rintro _ ⟨⟩

/-- A view with an option of each kind, one of them hidden by the content around the view. -/
def choiceView : Entity :=
  [("options", .object [("title", .object [("required", .bool true)]),
      ("append", .object [("required", .bool true), ("default", .string "hidden")]),
      ("body", .object [("required", .string "yes"), ("default", .null)]),
      ("hint", .object [("required", .ofInt 0)])]),
    ("template", .string "./choice.html")]

def household : Surroundings where
  views := [("choice", choiceView), ("done", [])]
  declaredSignals := []
  globalDriver := none
  globalSignal := some (.object [("id", .string "on")])

/-- A pairing descriptor that shows one view twice, and gives no object to the other. -/
def lampPair : Fields Json :=
  [("viewOrder", .ofStrings ["choice", "done", "choice"]),
    ("viewOptions", .object [("choice", .object [("title", .string "begin"), ("more", .null)]),
      ("done", .string "ill-shaped")])]

theorem assemble_expands_lampPair :
    ∃ made, assemble household "lamp" [("pair", .object lampPair)] {} = .ok made ∧
      Fields.get? made.1 "pair" = some (.object
        [("viewOrder", .ofStrings ["choice", "done", "choice"]), ("views", .array [
          .object [("options", .object [("title", .string "begin"), ("more", .null),
              ("append", .string ""), ("body", .null), ("hint", .string ""),
              ("prepend", .string "")]),
            ("template", .string "./choice.html"), ("id", .string "choice")],
          .object [("options", .object [("prepend", .string ""), ("append", .string "")]),
            ("id", .string "done")],
          .object [("options", .object [("title", .string "begin"), ("more", .null),
              ("append", .string ""), ("body", .null), ("hint", .string ""),
              ("prepend", .string "")]),
            ("template", .string "./choice.html"), ("id", .string "choice")]])]) := by
  obtain ⟨⟨signalled, registry⟩, hsignal⟩ := exists_of_isOk (show (assignSignal household "lamp"
    (withDriver household [("pair", .object lampPair)]) {}).isOk = true by decide +kernel)
  obtain ⟨made, hmade⟩ := exists_of_isOk (show (assemble household "lamp"
    [("pair", .object lampPair)] {}).isOk = true by decide +kernel)
  obtain ⟨-, hflow, -⟩ := assemble_expands_pair rfl rfl hsignal
  obtain ⟨views, hpair, hviews⟩ := hflow made hmade
  have horder : orderNames (.ofStrings ["choice", "done", "choice"]) =
    ["choice", "done", "choice"] := rfl
  rw [horder] at hviews
  rcases hviews with _ | ⟨⟨_, ⟨⟩, rfl⟩, _ | ⟨⟨_, ⟨⟩, rfl⟩, _ | ⟨⟨_, ⟨⟩, rfl⟩, _ | _⟩⟩⟩
  exact ⟨made, hmade, hpair⟩

end RadioDriver.Device
