import RadioDriver.Proofs.Locale.Readable

namespace RadioDriver

namespace Locale

/-- The text that a path of segments leads to. -/
def textAt (fields : Fields Json) (path : List String) : Option String :=
  (valueAt fields path).bind Json.string?

def nodeAt : Json → List String → Option Json
  | v, [] => some v
  | .object fields, path => valueAt fields path
  | _, _ => none

variable {fields : Fields Json} {name : String} {path other : List String} {text : String}

theorem valueAt_nil (fields : Fields Json) : valueAt fields [] = none := by
  cases fields <;> rfl

theorem valueAt_empty (path : List String) : valueAt [] path = none := by
  rcases path with - | ⟨name, - | ⟨next, rest⟩⟩ <;> rfl

theorem valueAt_eq_bind (fields : Fields Json) (name : String) (rest : List String) :
    valueAt fields (name :: rest) = (Fields.get? fields name).bind (nodeAt · rest) := by
  cases rest with
  | nil => cases hv : Fields.get? fields name <;> simp [valueAt, nodeAt, hv]
  | cons next rest =>
    rw [valueAt_cons]
    rcases Fields.get? fields name with - | v
    · exact valueAt_empty _
    · cases v with
      | null => exact valueAt_empty _
      | _ => rfl

/-- The names of fields lead from a value to a text. -/
inductive LeadsTo : Json → List String → String → Prop
  | here (s : String) : LeadsTo (.string s) [] s
  | field {fields : Fields Json} {name s : String} {v : Json} {names : List String}
    (there : (name, v) ∈ fields) (rest : LeadsTo v names s) :
    LeadsTo (.object fields) (name :: names) s

theorem leadsTo_cons_iff {k : String} {v : Json} {rest : Fields Json} {names : List String} :
    LeadsTo (.object ((k, v) :: rest)) names text ↔
      (∃ deeper, names = k :: deeper ∧ LeadsTo v deeper text) ∨
        LeadsTo (.object rest) names text := by
  constructor
  · rintro (_ | ⟨there, hrest⟩)
    rcases List.mem_cons.mp there with heq | there
    · cases heq
      exact .inl ⟨_, rfl, hrest⟩
    · exact .inr (.field there hrest)
  · rintro (⟨deeper, rfl, hrest⟩ | _ | ⟨there, hrest⟩)
    · exact .field List.mem_cons_self hrest
    · exact .field (List.mem_cons_of_mem _ there) hrest

mutual

/-- The leaves of a value are the texts that names lead to, each below the path by its names. -/
theorem mem_leavesAt : ∀ (v : Json) {path place text : String},
    (place, text) ∈ leavesAt path v ↔ ∃ names, place = names.foldl below path ∧ LeadsTo v names text
  | .object fields, path, place, text => mem_leavesBelow fields
  | .string s, path, place, text => by
    rw [leavesAt, List.mem_singleton, Prod.mk.injEq]
    constructor
    · rintro ⟨rfl, rfl⟩
      exact ⟨[], rfl, .here text⟩
    · rintro ⟨names, hplace, htext⟩
      cases htext
      exact ⟨hplace, rfl⟩
  | .null, path, place, text => ⟨nofun, nofun⟩
  | .bool _, path, place, text => ⟨nofun, nofun⟩
  | .number _, path, place, text => ⟨nofun, nofun⟩
  | .array _, path, place, text => ⟨nofun, nofun⟩

theorem mem_leavesBelow : ∀ (fields : List (String × Json)) {path place text : String},
    (place, text) ∈ leavesBelow path fields ↔
      ∃ names, place = names.foldl below path ∧ LeadsTo (.object fields) names text
  | [], path, place, text => ⟨nofun, nofun⟩
  | (k, v) :: rest, path, place, text => by
    rw [leavesBelow, List.mem_append, mem_leavesAt v, mem_leavesBelow rest]
    simp only [leadsTo_cons_iff]
    constructor
    · rintro (⟨deeper, hplace, htext⟩ | ⟨names, hplace, htext⟩)
      · exact ⟨k :: deeper, hplace, .inl ⟨deeper, rfl, htext⟩⟩
      · exact ⟨names, hplace, .inr htext⟩
    · rintro ⟨names, hplace, ⟨deeper, rfl, htext⟩ | htext⟩
      · exact .inl ⟨deeper, hplace, htext⟩
      · exact .inr ⟨names, hplace, htext⟩

end

theorem foldl_below (path : String) (names : List String) :
    names.foldl below path = Text.join "." (path :: names) := by
  induction names generalizing path with
  | nil => rfl
  | cons name rest ih =>
    rw [List.foldl_cons, ih, Text.join]
    cases rest with
    | nil => rfl
    | cons next rest => simp only [Text.join, below, String.append_assoc]

/-- The leaves of a tree are the texts that names lead to, each at its names joined by dots. -/
theorem mem_leavesOf_joined {place : String} :
    (place, text) ∈ LocaleTable.leavesOf fields ↔
      ∃ names, place = Text.join "." names ∧ LeadsTo (.object fields) names text := by
  induction fields with
  | nil => exact ⟨nofun, nofun⟩
  | cons f rest ih =>
    obtain ⟨k, v⟩ := f
    rw [LocaleTable.leavesOf, List.mem_append, mem_leavesAt v, ih]
    simp only [leadsTo_cons_iff, foldl_below]
    constructor
    · rintro (⟨deeper, hplace, htext⟩ | ⟨names, hplace, htext⟩)
      · exact ⟨k :: deeper, hplace, .inl ⟨deeper, rfl, htext⟩⟩
      · exact ⟨names, hplace, .inr htext⟩
    · rintro ⟨names, hplace, ⟨deeper, rfl, htext⟩ | htext⟩
      · exact .inl ⟨deeper, hplace, htext⟩
      · exact .inr ⟨names, hplace, htext⟩

theorem nodeAt_cons (fields : Fields Json) (name : String) (rest : List String) :
    nodeAt (.object fields) (name :: rest) = (Fields.get? fields name).bind (nodeAt · rest) :=
  valueAt_eq_bind fields name rest

theorem leadsTo_of_nodeAt {v : Json} {names : List String}
    (h : nodeAt v names = some (.string text)) :
    LeadsTo v names text := by
  induction names generalizing v with
  | nil =>
    cases h
    exact .here text
  | cons name rest ih =>
    cases v with
    | object fields =>
      rw [nodeAt_cons] at h
      obtain ⟨w, hw, hrest⟩ := Option.bind_eq_some_iff.mp h
      exact .field (Fields.mem_of_get? hw) (ih hrest)
    | _ => cases h

theorem LeadsTo.nodeAt {P : Json → Prop} {v : Json} {names : List String}
    (hobject : ∀ fields, P (.object fields) →
      (Fields.names fields).Nodup ∧ ∀ f ∈ fields, P f.2)
    (h : LeadsTo v names text) (hv : P v) : nodeAt v names = some (.string text) := by
  induction h with
  | here => rfl
  | field there rest ih =>
    obtain ⟨hnodup, hfields⟩ := hobject _ hv
    rw [nodeAt_cons, Fields.get?_of_mem hnodup there]
    exact ih (hfields _ there)

theorem textAt_iff_nodeAt {names : List String} :
    textAt fields names = some text ↔ nodeAt (.object fields) names = some (.string text) := by
  cases names with
  | nil => simp [textAt, valueAt_nil, nodeAt]
  | cons name rest =>
    have hnode : nodeAt (.object fields) (name :: rest) = valueAt fields (name :: rest) := rfl
    rw [hnode, textAt, Option.bind_eq_some_iff]
    constructor
    · rintro ⟨v, hv, htext⟩
      cases v with
      | string s =>
        cases htext
        exact hv
      | _ => cases htext
    · intro hv
      exact ⟨_, hv, rfl⟩

theorem plain_object : plain (.object fields) = true ↔
    (Fields.names fields).Nodup ∧ ∀ f ∈ fields, '.' ∉ f.1.toList ∧ plain f.2 = true := by
  have hfields : plain (.object fields) = plainFields fields := rfl
  rw [hfields]
  induction fields with
  | nil => simp [plainFields, Fields.names]
  | cons f rest ih =>
    obtain ⟨k, v⟩ := f
    have hnames : Fields.names ((k, v) :: rest) = k :: Fields.names rest := rfl
    simp only [plainFields, Bool.and_eq_true, Bool.not_eq_true', List.contains_eq_mem,
      decide_eq_false_iff_not, ih rfl, hnames, List.nodup_cons, List.forall_mem_cons]
    tauto

theorem leadsTo_iff_textAt {names : List String} (h : plainFields fields = true) :
    LeadsTo (.object fields) names text ↔ textAt fields names = some text := by
  rw [textAt_iff_nodeAt]
  refine ⟨fun hleads => ?_, leadsTo_of_nodeAt⟩
  refine hleads.nodeAt (P := fun v => plain v = true) (fun fields hplain => ?_) h
  obtain ⟨hnodup, hfields⟩ := plain_object.mp hplain
  exact ⟨hnodup, fun f hf => (hfields f hf).2⟩

theorem LeadsTo.dot_not_mem {v : Json} {names : List String} (h : LeadsTo v names text)
    (hv : plain v = true) : ∀ name ∈ names, '.' ∉ name.toList := by
  induction h with
  | here => exact List.forall_mem_nil _
  | field there rest ih =>
    obtain ⟨hdot, hplain⟩ := (plain_object.mp hv).2 _ there
    exact List.forall_mem_cons.mpr ⟨hdot, ih hplain⟩

theorem LeadsTo.ne_nil {names : List String} (h : LeadsTo (.object fields) names text) :
    names ≠ [] := by
  cases h
  exact List.cons_ne_nil _ _

theorem LeadsTo.segments_join {names : List String} (h : LeadsTo (.object fields) names text)
    (hdot : ∀ name ∈ names, '.' ∉ name.toList) :
    LocaleTable.segments (Text.join "." names) = names := Text.split_join_names h.ne_nil hdot

theorem mem_leavesOf {place : String} (h : plainFields fields = true) :
    (place, text) ∈ LocaleTable.leavesOf fields ↔
      textAt fields (LocaleTable.segments place) = some text := by
  rw [mem_leavesOf_joined]
  constructor
  · rintro ⟨names, rfl, hleads⟩
    rw [hleads.segments_join (hleads.dot_not_mem h)]
    exact (leadsTo_iff_textAt h).mp hleads
  · intro htext
    have hleads := (leadsTo_iff_textAt h).mpr htext
    refine ⟨_, LocaleTable.segments_injective ?_, hleads⟩
    exact (hleads.segments_join (hleads.dot_not_mem h)).symm

mutual

theorem markedPaths_eq : ∀ (v : Json) (path : String),
    markedPaths path v = ((leavesAt path v).filter fun leaf => isMarked leaf.2).map (·.1)
  | .object fields, path => markedBelow_eq fields path
  | .string s, path => by
    rw [markedPaths, leavesAt]
    cases hs : isMarked s <;> simp [hs]
  | .null, path => rfl
  | .bool _, path => rfl
  | .number _, path => rfl
  | .array _, path => rfl

theorem markedBelow_eq : ∀ (fields : List (String × Json)) (path : String),
    markedBelow path fields =
      ((leavesBelow path fields).filter fun leaf => isMarked leaf.2).map (·.1)
  | [], path => rfl
  | (k, v) :: rest, path => by
    rw [markedBelow, leavesBelow, List.filter_append, List.map_append, ← markedPaths_eq v,
      ← markedBelow_eq rest]

end

theorem markedLeaves_eq (fields : Fields Json) :
    LocaleTable.markedLeaves fields =
      ((LocaleTable.leavesOf fields).filter fun leaf => isMarked leaf.2).map (·.1) := by
  induction fields with
  | nil => rfl
  | cons f rest ih =>
    obtain ⟨k, v⟩ := f
    rw [LocaleTable.markedLeaves, LocaleTable.leavesOf, List.filter_append, List.map_append,
      ← markedPaths_eq v, ih]

theorem mem_markedLeaves {place : String} (h : plainFields fields = true) :
    place ∈ LocaleTable.markedLeaves fields ↔
      ∃ text, textAt fields (LocaleTable.segments place) = some text ∧ isMarked text = true := by
  rw [markedLeaves_eq]
  constructor
  · intro hmem
    obtain ⟨⟨place', text⟩, hleaf, rfl⟩ := List.mem_map.mp hmem
    obtain ⟨hleaf, hmark⟩ := List.mem_filter.mp hleaf
    exact ⟨text, (mem_leavesOf h).mp hleaf, hmark⟩
  · rintro ⟨text, htext, hmark⟩
    exact List.mem_map.mpr ⟨(place, text), List.mem_filter.mpr ⟨(mem_leavesOf h).mpr htext, hmark⟩,
      rfl⟩

theorem isMarked_push (s : String) : isMarked (s.push fillMark) = true := by
  simp [isMarked]

theorem isMarked_trimEnd (s : String) : isMarked (Text.trimEnd fillMark s) = false := by
  have hhead := List.head?_dropWhile_not (· == fillMark) s.toList.reverse
  unfold isMarked Text.trimEnd
  rw [String.toList_ofList, List.getLast?_reverse]
  cases hc : (s.toList.reverse.dropWhile (· == fillMark)).head? with
  | none => rfl
  | some c =>
    rw [hc] at hhead
    simpa using hhead

theorem trimEnd_push (s : String) :
    Text.trimEnd fillMark (s.push fillMark) = Text.trimEnd fillMark s := by
  simp [Text.trimEnd]

theorem trimEnd_of_not_marked {s : String} (h : isMarked s = false) :
    Text.trimEnd fillMark s = s := by
  have hkeep : s.toList.reverse.dropWhile (· == fillMark) = s.toList.reverse := by
    cases hr : s.toList.reverse with
    | nil => rfl
    | cons c rest =>
      have hlast : s.toList.getLast? = some c := by
        rw [← List.head?_reverse, hr]
        rfl
      rw [isMarked, hlast] at h
      exact List.dropWhile_cons_of_neg (by simpa using h)
  rw [Text.trimEnd, hkeep, List.reverse_reverse, String.ofList_toList]

theorem names_cleanedFields (fields : Fields Json) :
    Fields.names (cleanedFields fields) = Fields.names fields := by
  induction fields with
  | nil => rfl
  | cons f rest ih => exact congrArg (f.1 :: ·) ih

theorem get?_cleanedFields (fields : Fields Json) (name : String) :
    Fields.get? (cleanedFields fields) name = (Fields.get? fields name).map cleaned := by
  induction fields with
  | nil => rfl
  | cons f rest ih =>
    obtain ⟨k, v⟩ := f
    rw [cleanedFields, Fields.get?, Fields.get?, ih]
    split <;> rfl

theorem nodeAt_cleaned (v : Json) (path : List String) :
    nodeAt (cleaned v) path = (nodeAt v path).map cleaned := by
  induction path generalizing v with
  | nil => rfl
  | cons name rest ih =>
    cases v with
    | object fields =>
      have hobject : ∀ fields : Fields Json, nodeAt (.object fields) (name :: rest) =
          (Fields.get? fields name).bind (nodeAt · rest) := fun fields =>
        valueAt_eq_bind fields name rest
      rw [cleaned, hobject, hobject, get?_cleanedFields, Option.bind_map, Option.map_bind]
      exact Option.bind_congr fun v _ => ih v
    | _ => rfl

theorem textAt_cleanedFields (fields : Fields Json) (path : List String) :
    textAt (cleanedFields fields) path = (textAt fields path).map (Text.trimEnd fillMark) := by
  cases path with
  | nil => rw [textAt, textAt, valueAt_nil, valueAt_nil]; rfl
  | cons name rest =>
    have hnode : valueAt (cleanedFields fields) (name :: rest) =
        (valueAt fields (name :: rest)).map cleaned :=
      nodeAt_cleaned (.object fields) (name :: rest)
    rw [textAt, textAt, hnode]
    rcases valueAt fields (name :: rest) with - | v
    · rfl
    · cases v <;> rfl

mutual

theorem plain_cleaned : ∀ v : Json, plain (cleaned v) = plain v
  | .object fields => plainFields_cleanedFields fields
  | .string _ => rfl
  | .null => rfl
  | .bool _ => rfl
  | .number _ => rfl
  | .array _ => rfl

theorem plainFields_cleanedFields : ∀ fields : List (String × Json),
    plainFields (cleanedFields fields) = plainFields fields
  | [] => rfl
  | (k, v) :: rest => by
    rw [cleanedFields, plainFields, plainFields, plain_cleaned v, plainFields_cleanedFields rest,
      names_cleanedFields]

end

mutual

theorem cleaned_eq_self : ∀ (v : Json) {path : String},
    (∀ leaf ∈ leavesAt path v, isMarked leaf.2 = false) → cleaned v = v
  | .object fields, path, h => congrArg Json.object (cleanedFields_below_eq_self fields h)
  | .string s, path, h => by
    rw [cleaned, trimEnd_of_not_marked (h (path, s) (List.mem_singleton_self _))]
  | .null, path, _ => rfl
  | .bool _, path, _ => rfl
  | .number _, path, _ => rfl
  | .array _, path, _ => rfl

theorem cleanedFields_below_eq_self : ∀ (fields : List (String × Json)) {path : String},
    (∀ leaf ∈ leavesBelow path fields, isMarked leaf.2 = false) → cleanedFields fields = fields
  | [], path, _ => rfl
  | (k, v) :: rest, path, h => by
    rw [cleanedFields, cleaned_eq_self v fun leaf hleaf => h leaf (List.mem_append_left _ hleaf),
      cleanedFields_below_eq_self rest fun leaf hleaf => h leaf (List.mem_append_right _ hleaf)]

end

theorem cleanedFields_eq_self
    (h : ∀ leaf ∈ LocaleTable.leavesOf fields, isMarked leaf.2 = false) :
    cleanedFields fields = fields := by
  induction fields with
  | nil => rfl
  | cons f rest ih =>
    obtain ⟨k, v⟩ := f
    rw [cleanedFields, cleaned_eq_self v fun leaf hleaf => h leaf (List.mem_append_left _ hleaf),
      ih fun leaf hleaf => h leaf (List.mem_append_right _ hleaf)]

theorem cleanedFields_set (fields : Fields Json) (name : String) (v : Json) :
    cleanedFields (Fields.set fields name v) =
      Fields.set (cleanedFields fields) name (cleaned v) := by
  induction fields with
  | nil => rfl
  | cons f rest ih =>
    obtain ⟨k, w⟩ := f
    rw [cleanedFields, Fields.set, Fields.set]
    split
    · rfl
    · rw [cleanedFields, ih]

/-- What a field is replaced by does not show once marks are off, if it is the same then. -/
theorem cleanedFields_set_eq {v w : Json} (h : Fields.get? fields name = some v)
    (hw : cleaned w = cleaned v) :
    cleanedFields (Fields.set fields name w) = cleanedFields fields := by
  rw [cleanedFields_set, hw]
  apply Fields.set_of_get?
  rw [get?_cleanedFields, h]
  rfl

theorem cleanedFields_markAt (fields : Fields Json) (path : List String) :
    cleanedFields (markAt fields path) = cleanedFields fields := by
  induction path generalizing fields with
  | nil => cases fields <;> rfl
  | cons name rest ih =>
    cases rest with
    | nil =>
      rw [markAt]
      split
      · next s hs =>
        refine cleanedFields_set_eq hs ?_
        rw [cleaned, cleaned, trimEnd_push]
      · rfl
    | cons next rest =>
      rw [markAt]
      · split
        · next inner hinner =>
          refine cleanedFields_set_eq hinner ?_
          rw [cleaned, cleaned, ih]
        · rfl
      · exact fun hc => by cases hc

theorem setAt_markAt {walked : List String} {whole : String} (h : textAt fields path = some text) :
    setAt walked whole (.string (text.push fillMark)) fields path = .ok (markAt fields path) := by
  induction path generalizing fields walked with
  | nil => cases fields <;> rfl
  | cons name rest ih =>
    obtain ⟨v, hv, htext⟩ := Option.bind_eq_some_iff.mp h
    cases rest with
    | nil =>
      cases v with
      | string s =>
        have hs : Fields.get? fields name = some (.string s) := hv
        cases htext
        simp only [setAt, markAt, hs]
      | _ => cases htext
    | cons next rest =>
      rw [valueAt_eq_bind] at hv
      obtain ⟨node, hnode, hv⟩ := Option.bind_eq_some_iff.mp hv
      cases node with
      | object inner =>
        have hbelow : textAt inner (next :: rest) = some text :=
          Option.bind_eq_some_iff.mpr ⟨v, hv, htext⟩
        have hmark : markAt fields (name :: next :: rest) =
            Fields.set fields name (.object (markAt inner (next :: rest))) := by
          rw [markAt, hnode]
          exact fun hc => by cases hc
        rw [setAt_cons, hnode, hmark]
        dsimp only [container?]
        rw [ih hbelow]
        rfl
      | _ => cases hv

def markAll (fields : Fields Json) (paths : List String) : Fields Json :=
  paths.foldl (fun tree p => markAt tree (LocaleTable.segments p)) fields

theorem cleanedFields_markAll (fields : Fields Json) (paths : List String) :
    cleanedFields (markAll fields paths) = cleanedFields fields := by
  induction paths generalizing fields with
  | nil => rfl
  | cons p rest ih => exact (ih _).trans (cleanedFields_markAt fields _)

theorem textAt_markAll {paths : List String} (hdistinct : paths.Nodup)
    (h : ∀ p ∈ paths, (textAt fields (LocaleTable.segments p)).isSome) (place : String) :
    textAt (markAll fields paths) (LocaleTable.segments place) =
      (textAt fields (LocaleTable.segments place)).map fun text =>
        if place ∈ paths then text.push fillMark else text := by
  induction paths generalizing fields with
  | nil => simp [markAll]
  | cons p rest ih =>
    obtain ⟨hnew, hdistinct⟩ := List.nodup_cons.mp hdistinct
    obtain ⟨text, htext⟩ := Option.isSome_iff_exists.mp (h p List.mem_cons_self)
    have hset := @setAt_markAt fields _ text [] p htext
    have hself : textAt (markAt fields (LocaleTable.segments p)) (LocaleTable.segments p) =
        some (text.push fillMark) := by
      rw [textAt, valueAt_setAt_self hset (LocaleTable.segments_ne_nil p)]
      rfl
    have hother : ∀ place, place ≠ p →
        textAt (markAt fields (LocaleTable.segments p)) (LocaleTable.segments place) =
          textAt fields (LocaleTable.segments place) := fun place hne =>
      textAt_setAt hset rfl (LocaleTable.segments_ne_nil p) fun heq =>
        hne (LocaleTable.segments_injective heq)
    have htexts : ∀ q ∈ rest, (textAt (markAt fields (LocaleTable.segments p))
        (LocaleTable.segments q)).isSome := by
      intro q hq
      rw [hother q fun heq => hnew (heq ▸ hq)]
      exact h q (List.mem_cons_of_mem p hq)
    have hstep : markAll fields (p :: rest) =
        markAll (markAt fields (LocaleTable.segments p)) rest := rfl
    rw [hstep, ih hdistinct htexts]
    by_cases hp : place = p
    · subst hp
      rw [hself, htext]
      simp [hnew]
    · rw [hother place hp]
      simp [hp]

theorem plainFields_markAll {paths : List String} (hplain : plainFields fields = true) :
    plainFields (markAll fields paths) = true := by
  rw [← plainFields_cleanedFields, cleanedFields_markAll, plainFields_cleanedFields, hplain]

end Locale

end RadioDriver
