import Mathlib.Data.List.Induction
import Mathlib.Data.List.Nodup
import RadioDriver.Json.Fields

namespace RadioDriver.Fields

variable {α : Type} {fields others : Fields α} {name : String} {value : α}

theorem get?_eq_none_iff : get? fields name = none ↔ name ∉ names fields := by
  induction fields with
  | nil => simp [get?, names]
  | cons f rest ih =>
    obtain ⟨k, v⟩ := f
    by_cases hk : k = name
    · simp [get?, names, hk]
    · simp [get?, hk, ih, names, Ne.symm hk]

theorem get?_eq_none_iff_forall : get? fields name = none ↔ ∀ f ∈ fields, f.1 ≠ name := by
  rw [get?_eq_none_iff, names, List.mem_map]
  constructor
  · intro h f hf heq
    exact h ⟨f, hf, heq⟩
  · rintro h ⟨f, hf, heq⟩
    exact h f hf heq

theorem contains_iff : contains fields name = true ↔ name ∈ names fields := by
  rw [contains, Option.isSome_iff_ne_none, Ne, get?_eq_none_iff, not_not]

theorem get?_of_mem (h : (names fields).Nodup) (hmem : (name, value) ∈ fields) :
    get? fields name = some value := by
  induction fields with
  | nil => cases hmem
  | cons f rest ih =>
    obtain ⟨k, v⟩ := f
    obtain ⟨hnew, hrest⟩ := List.nodup_cons.mp h
    rcases List.mem_cons.mp hmem with heq | hmem
    · cases heq
      exact if_pos rfl
    · have hold : name ∈ names rest := List.mem_map_of_mem (f := Prod.fst) hmem
      have hne : k ≠ name := fun heq => hnew (heq ▸ hold)
      rw [get?, if_neg hne]
      exact ih hrest hmem

theorem mem_of_get? (h : get? fields name = some value) : (name, value) ∈ fields := by
  induction fields with
  | nil => cases h
  | cons f rest ih =>
    obtain ⟨k, v⟩ := f
    by_cases hk : k = name
    · simp [get?, hk] at h
      simp [hk, h]
    · simp [get?, hk] at h
      exact List.mem_cons_of_mem _ (ih h)

theorem eq_of_get? (hnames : names fields = names others) (hnodup : (names fields).Nodup)
    (h : ∀ name, get? fields name = get? others name) : fields = others := by
  have hnodup' : (names others).Nodup := hnames ▸ hnodup
  apply List.ext_getElem
  · simpa [names] using congrArg List.length hnames
  · intro i hi hi'
    have hname : fields[i].1 = others[i].1 := by
      simpa [names] using List.getElem_of_eq hnames (i := i) (by simpa [names] using hi)
    have hvalue : get? fields fields[i].1 = some fields[i].2 :=
      get?_of_mem hnodup (List.getElem_mem hi)
    have hvalue' : get? others others[i].1 = some others[i].2 :=
      get?_of_mem hnodup' (List.getElem_mem hi')
    rw [h, hname, hvalue'] at hvalue
    exact Prod.ext hname (Option.some.inj hvalue).symm

theorem get?_of_perm (h : fields.Perm others) (hnodup : (names fields).Nodup) (name : String) :
    get? fields name = get? others name := by
  have hnodup' : (names others).Nodup := (h.map Prod.fst).nodup_iff.mp hnodup
  ext value
  constructor
  · intro hvalue
    exact get?_of_mem hnodup' (h.mem_iff.mp (mem_of_get? hvalue))
  · intro hvalue
    exact get?_of_mem hnodup (h.mem_iff.mpr (mem_of_get? hvalue))

theorem mem_of_mem_set {f : String × α} (h : f ∈ set fields name value) :
    f ∈ fields ∨ f = (name, value) := by
  induction fields with
  | nil => exact .inr (List.mem_singleton.mp h)
  | cons g rest ih =>
    rw [set] at h
    split at h <;> grind

theorem mem_names_set {other : String} :
    other ∈ names (set fields name value) ↔ other = name ∨ other ∈ names fields := by
  induction fields with
  | nil => simp [set, names]
  | cons g rest ih =>
    by_cases hk : g.1 = name
    · simp [set, names, hk]
    · simp [set, names, hk] at ih ⊢
      grind

theorem nodup_set (h : (names fields).Nodup) : (names (set fields name value)).Nodup := by
  induction fields with
  | nil => exact List.nodup_singleton _
  | cons g rest ih =>
    obtain ⟨k, v⟩ := g
    obtain ⟨hnew, hrest⟩ := List.nodup_cons.mp h
    rw [set]
    split
    · exact List.nodup_cons.mpr ⟨hnew, hrest⟩
    · rename_i hk
      refine List.nodup_cons.mpr ⟨fun hmem => ?_, ih hrest⟩
      rcases mem_names_set.mp hmem with heq | hold
      · exact hk heq
      · exact hnew hold

theorem set_of_get? (h : get? fields name = some value) : set fields name value = fields := by
  induction fields with
  | nil => cases h
  | cons g rest ih =>
    obtain ⟨k, w⟩ := g
    rw [get?] at h
    rw [set]
    split
    · next hk =>
      rw [if_pos hk] at h
      cases h
      rfl
    · next hk =>
      rw [if_neg hk] at h
      rw [ih h]

theorem mem_of_mem_override {f : String × α} (h : f ∈ override fields others) :
    f ∈ fields ∨ f ∈ others := by
  induction others generalizing fields with
  | nil => exact .inl h
  | cons g rest ih =>
    rcases ih h with hset | hrest
    · rcases mem_of_mem_set hset with hold | rfl
      · exact .inl hold
      · exact .inr List.mem_cons_self
    · exact .inr (List.mem_cons_of_mem _ hrest)

theorem nodup_override (h : (names fields).Nodup) (others : Fields α) :
    (names (override fields others)).Nodup := by
  induction others generalizing fields with
  | nil => exact h
  | cons g rest ih => exact ih (nodup_set h)

/-- Fields that are set in turn and kept by a test pass it, and each of them is of some source. -/
theorem mem_of_mem_foldl_override {sources : List (Fields α)} {p : String × α → Bool}
    {f : String × α}
    (h : f ∈ sources.foldl (fun fields s => override fields (s.filter p)) []) :
    p f = true ∧ ∃ s ∈ sources, f ∈ s := by
  revert f
  apply List.foldlRecOn sources (fun fields s => override fields (s.filter p))
    (motive := fun fields => ∀ {f}, f ∈ fields → p f = true ∧ ∃ s ∈ sources, f ∈ s)
  · intro f hf
    cases hf
  · intro fields hfields s hs f hf
    rcases mem_of_mem_override hf with hold | hnew
    · exact hfields hold
    · obtain ⟨hmem, hkept⟩ := List.mem_filter.mp hnew
      exact ⟨hkept, s, hs, hmem⟩

theorem get?_foldl_override_none {sources : List (Fields α)} (h : ∀ s ∈ sources, get? s name = none)
    (p : String × α → Bool) :
    get? (sources.foldl (fun fields s => override fields (s.filter p)) []) name = none := by
  rw [get?_eq_none_iff_forall]
  intro f hf
  obtain ⟨-, s, hs, hmem⟩ := mem_of_mem_foldl_override hf
  exact get?_eq_none_iff_forall.mp (h s hs) f hmem

theorem nodup_foldl_override (p : String × α → Bool) (sources : List (Fields α)) :
    (names (sources.foldl (fun fields s => override fields (s.filter p)) [])).Nodup :=
  List.foldlRecOn sources _ (motive := fun fields => (names fields).Nodup) List.nodup_nil
    fun _ hfields _ _ => nodup_override hfields _

theorem mem_of_mem_ofPairs {pairs : List (String × α)} {f : String × α} (h : f ∈ ofPairs pairs) :
    f ∈ pairs := by
  rcases mem_of_mem_override h with hnil | hpairs
  · cases hnil
  · exact hpairs

theorem nodup_ofPairs (pairs : List (String × α)) : (names (ofPairs pairs)).Nodup := by
  apply nodup_override
  exact List.nodup_nil

section
variable {first other more others : List α} [BEq α] [LawfulBEq α]

/-- It does not matter whether repeats are erased before or after some items are left out. -/
theorem eraseDups_filter (p : α → Bool) (items : List α) :
    (items.filter p).eraseDups = items.eraseDups.filter p := by
  cases items with
  | nil => rfl
  | cons item rest =>
    have hrest := eraseDups_filter p (rest.filter fun next => !next == item)
    rw [List.eraseDups_cons, List.filter_cons, List.filter_cons, ← hrest, List.filter_filter]
    split
    · simp only [List.eraseDups_cons, List.filter_filter, Bool.and_comm]
    · next hp =>
      congr 1
      apply List.filter_congr
      intro next _
      by_cases heq : next = item
      · simp [heq, hp]
      · simp [heq]
termination_by items.length
decreasing_by exact Nat.lt_succ_of_le (List.length_filter_le _ _)

theorem nodup_eraseDups (items : List α) : items.eraseDups.Nodup := by
  cases items with
  | nil => exact List.nodup_nil
  | cons item rest =>
    have hrest := nodup_eraseDups (rest.filter fun next => !next == item)
    rw [List.eraseDups_cons]
    refine List.nodup_cons.mpr ⟨?_, hrest⟩
    rw [List.mem_eraseDups]
    simp
termination_by items.length
decreasing_by exact Nat.lt_succ_of_le (List.length_filter_le _ _)

theorem eraseDups_of_nodup {items : List α} (h : items.Nodup) : items.eraseDups = items := by
  induction items with
  | nil => rfl
  | cons item rest ih =>
    obtain ⟨hnew, hrest⟩ := List.nodup_cons.mp h
    have hkept : rest.filter (fun next => !next == item) = rest := by
      rw [List.filter_eq_self]
      intro next hnext
      have hne : next ≠ item := fun heq => hnew (heq ▸ hnext)
      simpa using hne
    rw [List.eraseDups_cons, hkept, ih hrest]

/-- Which items appear first, and in what order, is the same when each part is gone through
without its repeats. -/
theorem eraseDups_append_congr (hfirst : first.eraseDups = other.eraseDups)
    (hmore : more.eraseDups = others.eraseDups) :
    (first ++ more).eraseDups = (other ++ others).eraseDups := by
  have hmem : ∀ item, item ∈ first ↔ item ∈ other := by
    intro item
    rw [← List.mem_eraseDups, hfirst, List.mem_eraseDups]
  have hnew : (fun item => !first.elem item) = fun item => !other.elem item := by
    funext item
    simp [hmem]
  rw [List.eraseDups_append, List.eraseDups_append, hfirst, List.removeAll, List.removeAll,
    eraseDups_filter, eraseDups_filter, hmore, hnew]

end

theorem names_set (fields : Fields α) (name : String) (value : α) :
    names (set fields name value) =
      if name ∈ names fields then names fields else names fields ++ [name] := by
  induction fields with
  | nil => rfl
  | cons f rest ih =>
    obtain ⟨k, v⟩ := f
    by_cases hk : k = name
    · simp [set, names, hk]
    · have hne : name ≠ k := Ne.symm hk
      simp only [names] at ih ⊢
      by_cases hmem : name ∈ rest.map (·.1) <;> simp [set, hk, hne, ih, hmem]

theorem names_set_of_eraseDups {given : List String} (h : names fields = given.eraseDups)
    (name : String) (value : α) :
    names (set fields name value) = (given ++ [name]).eraseDups := by
  rw [names_set, h, List.eraseDups_append]
  by_cases hk : name ∈ given
  · simp [hk, List.removeAll]
  · simp [hk, List.removeAll, List.eraseDups_cons]

theorem eraseDups_names_set (fields : Fields α) (name : String) (value : α) :
    (names (set fields name value)).eraseDups = (names fields ++ [name]).eraseDups := by
  rw [names_set, List.eraseDups_append]
  by_cases hk : name ∈ names fields
  · simp [hk, List.removeAll]
  · simp [hk, List.removeAll, List.eraseDups_append]

theorem set_eq_append (h : name ∉ names fields) (value : α) :
    set fields name value = fields ++ [(name, value)] := by
  induction fields with
  | nil => rfl
  | cons f rest ih =>
    obtain ⟨k, v⟩ := f
    obtain ⟨hne, hrest⟩ := not_or.mp (mt List.mem_cons.mpr h)
    rw [set, if_neg (Ne.symm hne), ih hrest]
    rfl

theorem foldl_eq_append {step : Fields α → String × α → Fields α}
    (hstep : ∀ old, ∀ f ∈ others, f.1 ∉ names old → step old f = old ++ [f])
    (hnodup : (names (fields ++ others)).Nodup) :
    others.foldl step fields = fields ++ others := by
  induction others generalizing fields with
  | nil => exact (List.append_nil fields).symm
  | cons f rest ih =>
    have hmoved : fields ++ f :: rest = fields ++ [f] ++ rest := by simp
    have hnew : f.1 ∉ names fields := by
      intro hmem
      rw [names, List.map_append] at hnodup
      exact (List.nodup_append.mp hnodup).2.2 f.1 hmem f.1 List.mem_cons_self rfl
    rw [List.foldl_cons, hstep fields f List.mem_cons_self hnew, hmoved]
    apply ih
    · exact fun old g hg => hstep old g (List.mem_cons_of_mem f hg)
    · rwa [← hmoved]

theorem ofPairs_of_nodup (h : (names fields).Nodup) : ofPairs fields = fields :=
  foldl_eq_append (fun _ _ _ hnew => set_eq_append hnew _) h

/-- What is set under a name that a test leaves out does not show in the fields that it keeps. -/
theorem filter_set (p : String → Bool) (h : p name = false) (fields : Fields α) (value : α) :
    (set fields name value).filter (fun f => p f.1) = fields.filter fun f => p f.1 := by
  induction fields with
  | nil => simp [set, h]
  | cons f rest ih =>
    obtain ⟨k, v⟩ := f
    rw [set]
    split
    · next hk => simp [hk, h]
    · rw [List.filter_cons, List.filter_cons, ih]

theorem erase_of_get?_none (h : get? fields name = none) : erase fields name = fields :=
  List.filter_eq_self.mpr fun f hf => decide_eq_true (get?_eq_none_iff_forall.mp h f hf)

theorem names_mapValues {β : Type} (f : α → β) (fields : Fields α) :
    names (mapValues f fields) = names fields := by
  simp [names, mapValues]

theorem mapValues_set {β : Type} (f : α → β) (fields : Fields α) (name : String) (value : α) :
    mapValues f (set fields name value) = set (mapValues f fields) name (f value) := by
  induction fields with
  | nil => rfl
  | cons g rest ih =>
    obtain ⟨k, v⟩ := g
    have hcons : mapValues f ((k, v) :: rest) = (k, f v) :: mapValues f rest := rfl
    rw [set, hcons, set]
    split
    · rfl
    · rw [← ih]
      rfl

theorem names_append (fields others : Fields α) :
    names (fields ++ others) = names fields ++ names others := List.map_append

theorem get?_append (fields others : Fields α) (name : String) :
    get? (fields ++ others) name = (get? fields name).or (get? others name) := by
  induction fields with
  | nil => rfl
  | cons f rest ih =>
    obtain ⟨k, v⟩ := f
    by_cases hk : k = name <;> simp [get?, hk, ih]

theorem get?_filter (p : String → Bool) (fields : Fields α) (name : String) :
    get? (fields.filter fun f => p f.1) name = if p name then get? fields name else none := by
  induction fields with
  | nil => simp [get?]
  | cons f rest ih =>
    obtain ⟨k, v⟩ := f
    by_cases hk : k = name
    · subst hk
      cases hp : p k <;> simp [get?, hp, ih]
    · cases hp : p k <;> simp [get?, hp, hk, ih]

theorem get?_mapValues {β : Type} (f : α → β) (fields : Fields α) (name : String) :
    get? (mapValues f fields) name = (get? fields name).map f := by
  induction fields with
  | nil => rfl
  | cons g rest ih =>
    obtain ⟨k, v⟩ := g
    have hcons : mapValues f ((k, v) :: rest) = (k, f v) :: mapValues f rest := rfl
    rw [hcons, get?, get?, ih]
    split <;> rfl

theorem get?_override (fields overlay : Fields α) (name : String) :
    get? (override fields overlay) name = (get? overlay.reverse name).or (get? fields name) := by
  induction overlay using List.reverseRecOn with
  | nil => rfl
  | append_singleton overlay last ih =>
    obtain ⟨k, v⟩ := last
    have hlast : override fields (overlay ++ [(k, v)]) = set (override fields overlay) k v := by
      simp [override]
    rw [hlast, List.reverse_append, List.reverse_singleton, get?_append]
    by_cases hk : k = name
    · subst hk
      simp [get?_set_self, get?]
    · rw [get?_set_of_ne _ _ (Ne.symm hk), ih]
      simp [get?, hk]

theorem get?_reverse (h : (names fields).Nodup) (name : String) :
    get? fields.reverse name = get? fields name := by
  have hreverse : (names fields.reverse).Nodup := by
    simpa [names] using h
  cases hvalue : get? fields name with
  | none =>
    rw [get?_eq_none_iff] at hvalue ⊢
    simpa [names] using hvalue
  | some value => exact get?_of_mem hreverse (by simpa using mem_of_get? hvalue)

/-- The names of settings in the order of their first appearance, each with the value it was set to
last. -/
structure Latest (settings : List (String × α)) (fields : Fields α) : Prop where
  names_eq : names fields = (names settings).eraseDups
  get?_eq : ∀ name, get? fields name = get? settings.reverse name

theorem ofPairs_concat (settings : List (String × α)) (last : String × α) :
    ofPairs (settings ++ [last]) = set (ofPairs settings) last.1 last.2 := by
  simp [ofPairs, override]

theorem override_ofPairs (settings more : List (String × α)) :
    override (ofPairs settings) more = ofPairs (settings ++ more) := by
  simp [ofPairs, override]

theorem names_ofPairs (settings : List (String × α)) :
    names (ofPairs settings) = (names settings).eraseDups := by
  induction settings using List.reverseRecOn with
  | nil => rfl
  | append_singleton settings last ih =>
    obtain ⟨k, v⟩ := last
    have hnames : names (settings ++ [(k, v)]) = names settings ++ [k] := by simp [names]
    rw [ofPairs_concat, hnames]
    exact names_set_of_eraseDups ih k v

theorem latest_ofPairs (settings : List (String × α)) : Latest settings (ofPairs settings) where
  names_eq := names_ofPairs settings
  get?_eq name := by rw [ofPairs, get?_override, get?, Option.or_none]

end RadioDriver.Fields
