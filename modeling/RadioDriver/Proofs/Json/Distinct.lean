import RadioDriver.Json.Reader
import RadioDriver.Proofs.Json.Fields

namespace RadioDriver.Json

mutual

/-- Whether every object at any depth names its fields apart, as maps do. -/
def distinct : Json → Bool
  | .object fields => distinctFields fields
  | .array items => distinctItems items
  | .null => true
  | .bool _ => true
  | .number _ => true
  | .string _ => true

def distinctItems : List Json → Bool
  | [] => true
  | v :: rest => distinct v && distinctItems rest

/-- Whether the fields are named apart, and so are those below them. -/
def distinctFields : List (String × Json) → Bool
  | [] => true
  | (k, v) :: rest => !(Fields.names rest).contains k && distinct v && distinctFields rest

end

theorem distinct_array {items : List Json} :
    distinct (.array items) = true ↔ ∀ v ∈ items, distinct v = true := by
  have hitems : distinct (.array items) = distinctItems items := rfl
  rw [hitems]
  induction items with
  | nil => simp [distinctItems]
  | cons v rest ih => simp [distinctItems, ih rfl]

theorem distinct_object {fields : Fields Json} :
    distinct (.object fields) = true ↔
      (Fields.names fields).Nodup ∧ ∀ f ∈ fields, distinct f.2 = true := by
  have hfields : distinct (.object fields) = distinctFields fields := rfl
  rw [hfields]
  induction fields with
  | nil => simp [distinctFields, Fields.names]
  | cons f rest ih =>
    obtain ⟨k, v⟩ := f
    have hnames : Fields.names ((k, v) :: rest) = k :: Fields.names rest := rfl
    simp [distinctFields, ih rfl, hnames, List.nodup_cons, and_assoc, and_left_comm]

section
variable {fields others : Fields Json} {name : String} {v : Json}

theorem distinct_of_get? (h : (Json.object fields).distinct = true)
    (hv : Fields.get? fields name = some v) : v.distinct = true :=
  (distinct_object.mp h).2 _ (Fields.mem_of_get? hv)

theorem distinct_set (h : (Json.object fields).distinct = true) (hv : v.distinct = true) :
    (Json.object (Fields.set fields name v)).distinct = true := by
  obtain ⟨hnodup, hvalues⟩ := distinct_object.mp h
  refine distinct_object.mpr ⟨Fields.nodup_set hnodup, fun f hf => ?_⟩
  rcases Fields.mem_of_mem_set hf with hold | rfl
  · exact hvalues f hold
  · exact hv

theorem distinct_override (h : (Json.object fields).distinct = true)
    (ho : ∀ f ∈ others, f.2.distinct = true) :
    (Json.object (Fields.override fields others)).distinct = true := by
  obtain ⟨hnodup, hvalues⟩ := distinct_object.mp h
  refine distinct_object.mpr ⟨Fields.nodup_override hnodup others, fun f hf => ?_⟩
  rcases Fields.mem_of_mem_override hf with hold | hnew
  · exact hvalues f hold
  · exact ho f hnew

theorem distinct_filter (h : (Json.object fields).distinct = true) (p : String × Json → Bool) :
    (Json.object (fields.filter p)).distinct = true := by
  obtain ⟨hnodup, hvalues⟩ := distinct_object.mp h
  refine distinct_object.mpr ⟨?_, fun f hf => hvalues f (List.mem_of_mem_filter hf)⟩
  exact hnodup.sublist (List.filter_sublist.map Prod.fst)

theorem distinct_foldl_override {sources : List (Fields Json)}
    (h : ∀ s ∈ sources, (Json.object s).distinct = true) (p : String × Json → Bool) :
    (Json.object (sources.foldl (fun acc s => Fields.override acc (s.filter p)) [])).distinct =
      true :=
  List.foldlRecOn sources _ (motive := fun fields => (Json.object fields).distinct = true) rfl
    fun _ hacc s hs => distinct_override hacc (distinct_object.mp (distinct_filter (h s hs) p)).2

theorem distinct_of_mem_asList {v : Option Json} (h : ∀ w, v = some w → w.distinct = true) :
    ∀ w ∈ asList v, w.distinct = true := by
  intro w hw
  cases v with
  | none => cases hw
  | some v =>
    have hv := h v rfl
    cases v with
    | null => cases hw
    | array items => exact distinct_array.mp hv w hw
    | _ =>
      rw [List.mem_singleton.mp hw]
      exact hv

end

namespace Reader

/-- What is read with this much fuel names nothing twice. -/
structure ReadsDistinct (fuel : Nat) : Prop where
  value : ∀ {depth cs v rest}, readValue fuel depth cs = some (v, rest) → distinct v = true
  items : ∀ {depth cs items rest}, readItems fuel depth cs = some (items, rest) →
    ∀ v ∈ items, distinct v = true
  fields : ∀ {depth cs pairs rest}, readFields fuel depth cs = some (pairs, rest) →
    ∀ f ∈ pairs, distinct f.2 = true

theorem distinct_ofPairs {pairs : List (String × Json)} (h : ∀ f ∈ pairs, distinct f.2 = true) :
    distinct (.object (Fields.ofPairs pairs)) = true := by
  rw [distinct_object]
  constructor
  · exact Fields.nodup_ofPairs pairs
  · intro f hf
    exact h f (Fields.mem_of_mem_ofPairs hf)

section
variable {fuel depth : Nat} {cs rest : List Char}

theorem ReadsDistinct.value_succ (h : ReadsDistinct fuel) {v : Json}
    (hread : readValue (fuel + 1) depth cs = some (v, rest)) : distinct v = true := by
  rw [readValue] at hread
  split at hread
  case h_2 =>
    split at hread
    · cases hread
    · split at hread
      · cases hread
        rfl
      · obtain ⟨_, hitems, heq⟩ := Option.map_eq_some_iff.mp hread
        cases heq
        exact distinct_array.mpr (h.items hitems)
  case h_3 =>
    split at hread
    · cases hread
    · split at hread
      · cases hread
        rfl
      · obtain ⟨_, hfields, heq⟩ := Option.map_eq_some_iff.mp hread
        cases heq
        exact distinct_ofPairs (h.fields hfields)
  -- Texts, literals and numbers hold no names.
  all_goals
    obtain ⟨_, _, heq⟩ := Option.map_eq_some_iff.mp hread
    cases heq
    rfl

theorem ReadsDistinct.items_succ (h : ReadsDistinct fuel) {items : List Json}
    (hread : readItems (fuel + 1) depth cs = some (items, rest)) :
    ∀ v ∈ items, distinct v = true := by
  rw [readItems] at hread
  split at hread
  · cases hread
  · rename_i hvalue
    have hfirst := h.value hvalue
    split at hread
    · obtain ⟨_, hmore, heq⟩ := Option.map_eq_some_iff.mp hread
      cases heq
      exact List.forall_mem_cons.mpr ⟨hfirst, h.items hmore⟩
    · cases hread
      simpa using hfirst
    · cases hread

theorem ReadsDistinct.fields_succ (h : ReadsDistinct fuel) {pairs : List (String × Json)}
    (hread : readFields (fuel + 1) depth cs = some (pairs, rest)) :
    ∀ f ∈ pairs, distinct f.2 = true := by
  rw [readFields] at hread
  split at hread
  · split at hread
    · cases hread
    · split at hread
      · split at hread
        · cases hread
        · rename_i hvalue
          have hfirst := h.value hvalue
          split at hread
          · obtain ⟨_, hmore, heq⟩ := Option.map_eq_some_iff.mp hread
            cases heq
            exact List.forall_mem_cons.mpr ⟨hfirst, h.fields hmore⟩
          · cases hread
            simpa using hfirst
          · cases hread
      · cases hread
  · cases hread

end

theorem readsDistinct (fuel : Nat) : ReadsDistinct fuel := by
  induction fuel with
  | zero => constructor <;> simp [readValue, readItems, readFields]
  | succ fuel ih => exact ⟨ih.value_succ, ih.items_succ, ih.fields_succ⟩

end Reader

theorem distinct_of_read? {s : String} {v : Json} (h : read? s = some v) : distinct v = true := by
  unfold read? at h
  dsimp only at h
  split at h
  · cases h
  · rename_i hread
    split at h
    · cases h
      exact (Reader.readsDistinct _).value hread
    · cases h

end RadioDriver.Json
