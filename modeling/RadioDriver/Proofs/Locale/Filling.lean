import Mathlib.Data.List.Forall2
import RadioDriver.Locale.Backfill
import RadioDriver.Proofs.Locale.Table

namespace RadioDriver.Backfill

/-- The text that is built in for a language at a path, unless it is the path itself. -/
def translation? (builtin : Catalog) (language path : String) : Option String :=
  (builtin.get? language).bind fun table => (table.text? path).filter fun text => text ≠ path

theorem builtinText?_eq (builtin : Catalog) (language path : String) :
    builtinText? builtin language path = translation? builtin language path := rfl

/-- What a language's table holds at a path once it is filled, and where its text comes from. -/
def cell (builtin : Catalog) (path language : String) (table : LocaleTable) :
    Json × Option Provenance :=
  match table.authored? path with
  | some text => (.string text, some .authored)
  | none =>
    match translation? builtin language path with
    | some text => (.string text, some .fallback)
    | none =>
      if language = defaultLanguage then (.string path, some .authored) else (.null, none)

/-- Whether a language that is not the default one has a text at the path neither of its own nor
built in. -/
def isMissing (builtin : Catalog) (path language : String) (table : LocaleTable) : Bool :=
  (table.authored? path).isNone && (translation? builtin language path).isNone &&
    language ≠ defaultLanguage

/-- The languages among tables in which a path is missing. -/
def missingIn (builtin : Catalog) (path : String) (tables : Fields LocaleTable) :
    List MissingText :=
  (tables.filter fun t => isMissing builtin path t.1 t.2).map fun t => ⟨t.1, path⟩

/-- What filling a path does to the table of a language. -/
structure Fills (builtin : Catalog) (path language : String) (t t' : LocaleTable) : Prop where
  free : ¬ t.Obstructed path
  value : t'.get? path = some (cell builtin path language t).1
  provenance : t'.provenance? path = (cell builtin path language t).2
  text_of_ne : ∀ other, other ≠ path → t'.text? other = t.text? other
  isFallback_of_ne : ∀ other, other ≠ path → t'.isFallback other = t.isFallback other
  get?_of_apart : ∀ other, LocaleTable.Apart path other → t'.get? other = t.get? other
  obstructed_of_apart : ∀ other, LocaleTable.Apart path other →
    (t'.Obstructed other ↔ t.Obstructed other)

variable {builtin : Catalog} {path language : String} {t t' : LocaleTable}

theorem Fills.authored?_of_ne (h : Fills builtin path language t t') {other : String}
    (hne : other ≠ path) : t'.authored? other = t.authored? other := by
  unfold LocaleTable.authored?
  rw [h.text_of_ne other hne, h.isFallback_of_ne other hne]

theorem Fills.provenance?_of_ne (h : Fills builtin path language t t') {other : String}
    (hne : other ≠ path) : t'.provenance? other = t.provenance? other := by
  unfold LocaleTable.provenance?
  rw [h.text_of_ne other hne, h.isFallback_of_ne other hne]

theorem Fills.cell_of_ne (h : Fills builtin path language t t') {other : String}
    (hne : other ≠ path) : cell builtin other language t' = cell builtin other language t := by
  unfold cell
  rw [h.authored?_of_ne hne]

theorem Fills.isMissing_of_ne (h : Fills builtin path language t t') {other : String}
    (hne : other ≠ path) :
    isMissing builtin other language t' = isMissing builtin other language t := by
  unfold isMissing
  rw [h.authored?_of_ne hne]

theorem Fills.text?_isSome (h : Fills builtin path language t t')
    (hd : language = defaultLanguage) : (t'.text? path).isSome := by
  have hvalue := h.value
  unfold cell at hvalue
  unfold LocaleTable.text?
  rw [hvalue]
  cases t.authored? path with
  | some text => rfl
  | none =>
    cases translation? builtin language path with
    | some text => rfl
    | none => rw [if_pos hd]; rfl

theorem text?_of_authored? {text : String} (h : t.authored? path = some text) :
    t.text? path = some text ∧ t.isFallback path = false := by
  obtain ⟨htext, hp⟩ := Option.filter_eq_some_iff.mp h
  simp only [Bool.and_eq_true, Bool.not_eq_true'] at hp
  exact ⟨htext, hp.2⟩

theorem get?_of_text? {text : String} (h : t.text? path = some text) :
    t.get? path = some (.string text) := by
  obtain ⟨v, hv, hs⟩ := Option.bind_eq_some_iff.mp h
  cases v with
  | string s =>
    cases hs
    exact hv
  | _ => cases hs

/-- A text that a person wrote is what the cell holds, and filling leaves the table alone. -/
theorem fills_of_authored {text : String} (h : t.authored? path = some text) :
    Fills builtin path language t t where
  free := by
    apply LocaleTable.not_obstructed_of_text?
    rw [(text?_of_authored? h).1]
    rfl
  value := by
    simp only [cell, h]
    exact get?_of_text? (text?_of_authored? h).1
  provenance := by
    simp only [cell, h, LocaleTable.provenance?, (text?_of_authored? h).1, (text?_of_authored? h).2]
    rfl
  text_of_ne _ _ := rfl
  isFallback_of_ne _ _ := rfl
  get?_of_apart _ _ := rfl
  obstructed_of_apart _ _ := Iff.rfl

theorem fills_of_set {value : Json} {provenance : Provenance}
    (h : t.set path value provenance = .ok t')
    (hcell : cell builtin path language t = (value, value.string?.map fun _ => provenance))
    (hv : value.isObject = false) : Fills builtin path language t t' where
  free := LocaleTable.not_obstructed_of_set h
  value := by
    rw [hcell]
    exact LocaleTable.get?_set_self h
  provenance := by
    rw [hcell, LocaleTable.provenance?, LocaleTable.text?, LocaleTable.get?_set_self h,
      LocaleTable.isFallback_set h, if_pos rfl]
    cases value with
    | string s => cases provenance <;> rfl
    | _ => rfl
  text_of_ne _ hne := LocaleTable.text?_set_of_ne h hv hne
  isFallback_of_ne other hne := by rw [LocaleTable.isFallback_set h, if_neg hne]
  get?_of_apart _ ha := LocaleTable.get?_set_apart h ha
  obstructed_of_apart _ ha := LocaleTable.obstructed_set_apart h ha

/-- How filling one path in one table may end. -/
inductive FillsTable (builtin : Catalog) (path language : String) (t : LocaleTable) :
    Except LocaleError (LocaleTable × Bool) → Prop
  | fills {t' : LocaleTable} (h : Fills builtin path language t t') :
    FillsTable builtin path language t (.ok (t', isMissing builtin path language t))
  | collides (leaf place : String) (h : t.Obstructed path) :
    FillsTable builtin path language t (.error (.collision leaf place))

theorem fillsTable_of_set {value : Json} {provenance : Provenance} {missing : Bool}
    (hcell : cell builtin path language t = (value, value.string?.map fun _ => provenance))
    (hv : value.isObject = false) (hm : isMissing builtin path language t = missing) :
    FillsTable builtin path language t ((t.set path value provenance).map (·, missing)) := by
  by_cases h : t.Obstructed path
  · obtain ⟨leaf, place, hset⟩ := LocaleTable.set_of_obstructed h value provenance
    rw [hset]
    exact .collides leaf place h
  · obtain ⟨t', hset⟩ := LocaleTable.exists_set h value provenance
    rw [hset, ← hm]
    exact .fills (fills_of_set hset hcell hv)

theorem fillTable_fills (builtin : Catalog) (path language : String) (t : LocaleTable) :
    FillsTable builtin path language t (fillTable builtin path language t) := by
  -- along the preferences: an authored text, a built-in one, the path itself, nothing
  unfold fillTable
  cases ha : t.authored? path with
  | some text =>
    have hm : isMissing builtin path language t = false := by simp [isMissing, ha]
    rw [if_pos Option.isSome_some, ← hm]
    exact .fills (fills_of_authored ha)
  | none =>
    rw [if_neg (by simp), builtinText?_eq]
    cases hb : translation? builtin language path with
    | some text =>
      have hm : isMissing builtin path language t = false := by simp [isMissing, ha, hb]
      apply fillsTable_of_set _ rfl hm
      simp [cell, ha, hb, Json.string?]
    | none =>
      dsimp only
      by_cases hd : language = defaultLanguage
      · have hm : isMissing builtin path language t = false := by simp [isMissing, hd]
        rw [if_pos hd]
        apply fillsTable_of_set _ rfl hm
        subst hd
        simp [cell, ha, hb, Json.string?]
      · have hm : isMissing builtin path language t = true := by simp [isMissing, ha, hb, hd]
        rw [if_neg hd]
        apply fillsTable_of_set _ rfl hm
        simp [cell, ha, hb, hd, Json.string?]

/-- The languages are the same, and so is how the two tables of each are related. -/
def Tablewise (R : String → LocaleTable → LocaleTable → Prop)
    (tables tables' : Fields LocaleTable) : Prop :=
  List.Forall₂ (fun t t' => t'.1 = t.1 ∧ R t.1 t.2 t'.2) tables tables'

section
variable {R S T : String → LocaleTable → LocaleTable → Prop}
  {tables tables' tables'' : Fields LocaleTable}

theorem Tablewise.comp (h : Tablewise R tables tables') (h' : Tablewise S tables' tables'')
    (hT : ∀ language t t' t'', R language t t' → S language t' t'' → T language t t'') :
    Tablewise T tables tables'' := by
  induction h generalizing tables'' with
  | nil =>
    cases h'
    exact .nil
  | cons hhead _ ih =>
    obtain ⟨hname, hR⟩ := hhead
    cases h' with
    | cons hhead' htail' =>
      obtain ⟨hname', hS⟩ := hhead'
      rw [hname] at hname' hS
      exact .cons ⟨hname', hT _ _ _ _ hR hS⟩ (ih htail')

theorem Tablewise.refl (hR : ∀ language t, R language t t) (tables : Fields LocaleTable) :
    Tablewise R tables tables :=
  List.forall₂_same.mpr fun t _ => ⟨rfl, hR t.1 t.2⟩

theorem Tablewise.names (h : Tablewise R tables tables') :
    Fields.names tables' = Fields.names tables := by
  induction h with
  | nil => rfl
  | cons hhead _ ih => exact congrArg₂ List.cons hhead.1 ih

theorem Tablewise.get? (h : Tablewise R tables tables') {language : String} {t : LocaleTable}
    (ht : Fields.get? tables language = some t) :
    ∃ t', Fields.get? tables' language = some t' ∧ R language t t' := by
  induction h with
  | nil => cases ht
  | @cons a b _ _ hhead _ ih =>
    obtain ⟨name, t₁⟩ := a
    obtain ⟨name', t₂⟩ := b
    obtain ⟨hname, hR⟩ := hhead
    subst hname
    rw [Fields.get?] at ht ⊢
    split at ht
    · next heq =>
      subst heq
      cases ht
      exact ⟨t₂, if_pos rfl, hR⟩
    · next hne =>
      rw [if_neg hne]
      exact ih ht

theorem Tablewise.exists_of_mem (h : Tablewise R tables tables') {t : String × LocaleTable}
    (ht : t ∈ tables) : ∃ t', (t.1, t') ∈ tables' ∧ R t.1 t.2 t' := by
  induction h with
  | nil => cases ht
  | @cons a b _ _ hhead _ ih =>
    rcases List.mem_cons.mp ht with rfl | ht
    · refine ⟨b.2, ?_, hhead.2⟩
      rw [← hhead.1]
      exact List.mem_cons_self
    · obtain ⟨t', hmem, hR⟩ := ih ht
      exact ⟨t', List.mem_cons_of_mem b hmem, hR⟩

theorem Tablewise.exists_of_mem_right (h : Tablewise R tables tables') {t' : String × LocaleTable}
    (ht : t' ∈ tables') : ∃ t, (t'.1, t) ∈ tables ∧ R t'.1 t t'.2 := by
  induction h with
  | nil => cases ht
  | @cons a b _ _ hhead _ ih =>
    rcases List.mem_cons.mp ht with rfl | ht
    · refine ⟨a.2, ?_, ?_⟩
      · rw [hhead.1]
        exact List.mem_cons_self
      · rw [hhead.1]
        exact hhead.2
    · obtain ⟨t, hmem, hR⟩ := ih ht
      exact ⟨t, List.mem_cons_of_mem a hmem, hR⟩

end

/-- How filling one path in every table may end. -/
inductive FillsPath (builtin : Catalog) (path : String) (tables : Fields LocaleTable) :
    Except LocaleError (Fields LocaleTable × List MissingText) → Prop
  | fills {tables' : Fields LocaleTable} (h : Tablewise (Fills builtin path) tables tables') :
    FillsPath builtin path tables (.ok (tables', missingIn builtin path tables))
  | collides (leaf place : String) (h : ∃ t ∈ tables, t.2.Obstructed path) :
    FillsPath builtin path tables (.error (.collision leaf place))

theorem missingIn_cons (builtin : Catalog) (path : String) (t : String × LocaleTable)
    (rest : Fields LocaleTable) :
    missingIn builtin path (t :: rest) =
      if isMissing builtin path t.1 t.2 then ⟨t.1, path⟩ :: missingIn builtin path rest
      else missingIn builtin path rest := by
  unfold missingIn
  rw [List.filter_cons]
  split <;> rfl

theorem missingIn_of_ne {tables tables' : Fields LocaleTable}
    (h : Tablewise (Fills builtin path) tables tables') {other : String} (hne : other ≠ path) :
    missingIn builtin other tables' = missingIn builtin other tables := by
  induction h with
  | nil => rfl
  | @cons a b _ _ hhead _ ih =>
    rw [missingIn_cons, missingIn_cons, ih, hhead.1, hhead.2.isMissing_of_ne hne]

theorem fillPath_fills (builtin : Catalog) (path : String) (tables : Fields LocaleTable) :
    FillsPath builtin path tables (fillPath builtin path tables) := by
  induction tables with
  | nil => exact .fills .nil
  | cons t rest ih =>
    obtain ⟨language, table⟩ := t
    have hhere := fillTable_fills builtin path language table
    simp only [fillPath, bind, Except.bind]
    generalize fillTable builtin path language table = here at hhere
    cases hhere with
    | collides leaf place h => exact .collides leaf place ⟨_, List.mem_cons_self, h⟩
    | @fills table' h =>
      generalize fillPath builtin path rest = others at ih
      cases ih with
      | collides leaf place ho =>
        obtain ⟨t, ht, ho⟩ := ho
        exact .collides leaf place ⟨t, List.mem_cons_of_mem _ ht, ho⟩
      | @fills rest' hrest =>
        have hall : Tablewise (Fills builtin path) ((language, table) :: rest)
            ((language, table') :: rest') := .cons ⟨rfl, h⟩ hrest
        have hfills := FillsPath.fills hall
        rw [missingIn_cons] at hfills
        exact hfills

end RadioDriver.Backfill
