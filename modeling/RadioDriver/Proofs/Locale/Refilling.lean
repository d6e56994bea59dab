import RadioDriver.Proofs.Json.Fields
import RadioDriver.Proofs.Locale.Backfill
import RadioDriver.Proofs.Locale.Clean

namespace RadioDriver

theorem Locale.setAt_of_valueAt {fields : Fields Json} {path walked : List String} {whole : String}
    {value : Json} (h : valueAt fields path = some value) (hv : value.isObject = false) :
    setAt walked whole value fields path = .ok fields := by
  induction path generalizing fields walked with
  | nil =>
    rw [valueAt_nil] at h
    cases h
  | cons segment rest ih =>
    cases rest with
    | nil =>
      have hget : Fields.get? fields segment = some value := h
      rw [setAt]
      split
      · next children hc =>
        rw [hget] at hc
        cases hc
        cases hv
      · rw [Fields.set_of_get? hget]
    | cons next rest =>
      rw [valueAt_eq_bind] at h
      obtain ⟨node, hnode, h⟩ := Option.bind_eq_some_iff.mp h
      cases node with
      | object inner =>
        have hinner : valueAt inner (next :: rest) = some value := h
        rw [setAt_cons, hnode]
        simp only [container?, ih hinner, Except.map, Fields.set_of_get? hnode]
      | _ => cases h

theorem Text.insertSorted_of_mem {text : String} {texts : List String} (h : text ∈ texts)
    (hsorted : texts.Pairwise (· < ·)) : insertSorted text texts = texts := by
  apply (sorted_insertSorted text hsorted).eq_of_mem_iff hsorted
  intro other
  rw [mem_insertSorted, or_iff_right_of_imp]
  rintro rfl
  exact h

namespace LocaleTable

variable {t : LocaleTable} {path language : String} {value : Json} {provenance : Provenance}

theorem set_of_held (hsorted : t.fallback.Pairwise (· < ·)) (h : t.get? path = some value)
    (hv : value.isObject = false) (hp : t.isFallback path = (provenance == .fallback)) :
    t.set path value provenance = .ok t := by
  have htree : Locale.setAt [] path value t.tree (segments path) = .ok t.tree :=
    Locale.setAt_of_valueAt h hv
  unfold set
  rw [htree]
  cases provenance with
  | fallback =>
    have hmem : path ∈ t.fallback := List.contains_iff_mem.mp hp
    simp only [bind, Except.bind, pure, Except.pure, Text.insertSorted_of_mem hmem hsorted]
  | authored =>
    have hnot : path ∉ t.fallback := fun hmem => by
      rw [isFallback, List.contains_iff_mem.mpr hmem] at hp
      cases hp
    have hkeep : t.fallback.filter (· ≠ path) = t.fallback := by
      simp only [List.filter_eq_self, decide_eq_true_eq]
      exact fun other hother heq => hnot (heq ▸ hother)
    simp only [bind, Except.bind, pure, Except.pure, hkeep]

theorem isFallback_of_provenance? (h : t.provenance? path = some provenance) :
    t.isFallback path = (provenance == .fallback) := by
  obtain ⟨text, -, hp⟩ := Option.map_eq_some_iff.mp h
  cases hf : t.isFallback path <;> simp [hf] at hp <;> subst hp <;> rfl

theorem authored?_of_get? (h : t.get? path = some value) :
    t.authored? path = value.string?.filter fun s => s ≠ path && !t.isFallback path := by
  unfold authored? text?
  rw [h, Option.bind_some]

/-- A table as it comes back from its files under a policy. -/
def reread (policy : MarkerPolicy) (language : String) (t : LocaleTable) :
    Except LocaleError LocaleTable :=
  match policy with
  | .keep => ofTree language (t.render .keep)
  | .strip => (ofTree language (t.render .strip)).map (·.markFallback t.fallback)

theorem Clean.reread (h : t.Clean) (policy : MarkerPolicy) (language : String) :
    t.reread policy language = .ok t := by
  cases policy with
  | keep => exact h.ofTree_keep language
  | strip =>
    unfold LocaleTable.reread
    rw [h.ofTree_strip, Except.map, h.markFallback_strip]

end LocaleTable

/-- Every table of the catalog is clean. -/
def Catalog.Clean (c : Catalog) : Prop := ∀ t ∈ c.tables, t.2.Clean

namespace Backfill

variable {builtin : Catalog} {path language : String} {paths : List String}
  {tables tables' : Fields LocaleTable} {t t' : LocaleTable} {missing : List MissingText}

theorem unmarked_of_builtinText? {text : String} (hbuiltin : builtin.Clean)
    (h : builtinText? builtin language path = some text) : Locale.isMarked text = false := by
  obtain ⟨table, htable, husable⟩ := Option.bind_eq_some_iff.mp h
  have hclean : table.Clean := hbuiltin _ (Fields.mem_of_get? htable)
  exact hclean.unmarked_text (Option.filter_eq_some_iff.mp husable).1

/-- The paths that stand for themselves in the default language are without marks. -/
def PathsUnmarked (builtin : Catalog) (paths : List String) : Prop :=
  ∀ path ∈ paths, builtinText? builtin defaultLanguage path = none → Locale.isMarked path = false

theorem pathsUnmarked_pathsOf {tree : Json} (hbuiltin : builtin.Clean)
    (hkeys : ∀ path ∈ KeyPath.keyPaths tree, Locale.isMarked path = false)
    (space : Option String) : PathsUnmarked builtin (pathsOf tree builtin space) := by
  intro path hpath hnone
  cases space with
  | none => exact hkeys path hpath
  | some space =>
    rcases List.mem_append.mp hpath with hkey | hruntime
    · exact hkeys path hkey
    unfold runtimePaths at hruntime
    cases htable : builtin.get? defaultLanguage with
    | none =>
      rw [htable] at hruntime
      cases hruntime
    | some table =>
      rw [htable] at hruntime
      obtain ⟨⟨place, text⟩, hleaf, rfl⟩ := List.mem_map.mp (List.mem_filter.mp hruntime).1
      have hclean : table.Clean := hbuiltin _ (Fields.mem_of_get? htable)
      have htext := (LocaleTable.mem_leaves hclean.plain).mp hleaf
      have hself : text = place := by
        simpa [builtinText?, htable, LocaleTable.usable?, htext] using hnone
      exact hself ▸ hclean.unmarked_text htext

theorem set_of_map {x : Except LocaleError LocaleTable} {flag m : Bool}
    (h : x.map (·, flag) = .ok (t', m)) : x = .ok t' := by
  cases x with
  | error e => cases h
  | ok t =>
    cases h
    rfl

/-- What holds of a table goes on to hold when a leaf is set, unless a marked text is set or what is
no text is said to be filled in. -/
def KeptBySetting (P : LocaleTable → Prop) : Prop :=
  ∀ {t t' : LocaleTable} {path : String} {value : Json} {provenance : Provenance},
    P t → t.set path value provenance = .ok t' → value.isObject = false →
      (∀ text, value.string? = some text → Locale.isMarked text = false) →
        (provenance = .fallback → value.string?.isSome) → P t'

variable {P : LocaleTable → Prop}

theorem KeptBySetting.text {text : String} {provenance : Provenance} (hP : KeptBySetting P)
    (ht : P t) (h : t.set path (.string text) provenance = .ok t')
    (htext : Locale.isMarked text = false) : P t' := by
  apply hP ht h rfl
  · intro other hother
    cases hother
    exact htext
  · exact fun _ => rfl

theorem KeptBySetting.fillTable {m : Bool} (hP : KeptBySetting P) (hbuiltin : builtin.Clean)
    (hpath : builtinText? builtin defaultLanguage path = none → Locale.isMarked path = false)
    (ht : P t) (h : fillTable builtin path language t = .ok (t', m)) : P t' := by
  unfold Backfill.fillTable at h
  split at h
  · cases h
    exact ht
  cases htext : builtinText? builtin language path with
  | some text =>
    simp only [htext] at h
    exact hP.text ht (set_of_map h) (unmarked_of_builtinText? hbuiltin htext)
  | none =>
    simp only [htext] at h
    split at h
    · next hd =>
      subst hd
      exact hP.text ht (set_of_map h) (hpath htext)
    · apply hP ht (set_of_map h) rfl
      · intro other hother
        cases hother
      · intro hc
        cases hc

theorem KeptBySetting.fillPath (hP : KeptBySetting P) (hbuiltin : builtin.Clean)
    (hpath : builtinText? builtin defaultLanguage path = none → Locale.isMarked path = false)
    (ht : ∀ t ∈ tables, P t.2) (h : fillPath builtin path tables = .ok (tables', missing)) :
    ∀ t ∈ tables', P t.2 := by
  induction tables generalizing tables' missing with
  | nil =>
    cases h
    exact ht
  | cons t rest ih =>
    obtain ⟨language, table⟩ := t
    simp only [Backfill.fillPath, bind, Except.bind] at h
    cases hhere : Backfill.fillTable builtin path language table with
    | error e =>
      rw [hhere] at h
      cases h
    | ok here =>
      cases hrest : Backfill.fillPath builtin path rest with
      | error e =>
        simp only [hhere, hrest] at h
        cases h
      | ok others =>
        simp only [hhere, hrest] at h
        cases h
        obtain ⟨hfirst, hothers⟩ := List.forall_mem_cons.mp ht
        have hkept : P here.1 := hP.fillTable hbuiltin hpath hfirst hhere
        exact List.forall_mem_cons.mpr ⟨hkept, ih hothers hrest⟩

theorem KeptBySetting.fillPaths (hP : KeptBySetting P) (hbuiltin : builtin.Clean)
    (hpaths : PathsUnmarked builtin paths) (ht : ∀ t ∈ tables, P t.2)
    (h : fillPaths builtin paths tables = .ok (tables', missing)) :
    ∀ t ∈ tables', P t.2 := by
  induction paths generalizing tables missing with
  | nil =>
    cases h
    exact ht
  | cons path rest ih =>
    obtain ⟨hpath, hrest⟩ := List.forall_mem_cons.mp hpaths
    simp only [Backfill.fillPaths, bind, Except.bind] at h
    cases hhere : Backfill.fillPath builtin path tables with
    | error e =>
      rw [hhere] at h
      cases h
    | ok here =>
      cases hothers : Backfill.fillPaths builtin rest here.1 with
      | error e =>
        simp only [hhere, hothers] at h
        cases h
      | ok others =>
        simp only [hhere, hothers] at h
        cases h
        exact ih hrest (hP.fillPath hbuiltin hpath ht hhere) hothers

theorem keptBySetting_clean : KeptBySetting LocaleTable.Clean := LocaleTable.Clean.set

/-- A leaf that was filled is filled with itself: an authored text stays, a built-in one is filled
in again, a path stands for itself, or there is nothing. -/
theorem Completes.fillTable_again (h : Completes builtin paths language t t') (hclean : t'.Clean)
    (hpath : path ∈ paths) :
    fillTable builtin path language t' = .ok (t', isMissing builtin path language t) := by
  have hvalue := h.value path hpath
  have hprovenance := h.provenance path hpath
  unfold cell at hvalue hprovenance
  unfold fillTable isMissing
  rw [builtinText?_eq]
  -- along the outcomes of the first filling
  cases ha : t.authored? path with
  | some text =>
    simp only [ha] at hvalue hprovenance
    have hne : text ≠ path := by
      have hkept := (Option.filter_eq_some_iff.mp ha).2
      simp only [Bool.and_eq_true, decide_eq_true_eq] at hkept
      exact hkept.1
    have hagain : t'.authored? path = some text := by
      rw [LocaleTable.authored?_of_get? hvalue,
        LocaleTable.isFallback_of_provenance? hprovenance]
      simp [Json.string?, hne]
    simp [hagain]
  | none =>
    cases hb : translation? builtin language path with
    | some text =>
      simp only [ha, hb] at hvalue hprovenance
      have hfallback := LocaleTable.isFallback_of_provenance? hprovenance
      have hnone : t'.authored? path = none := by
        rw [LocaleTable.authored?_of_get? hvalue, hfallback]
        simp [Json.string?]
      have hset : t'.set path (.string text) .fallback = .ok t' :=
        LocaleTable.set_of_held hclean.sorted hvalue rfl hfallback
      simp [hnone, hset, Except.map]
    | none =>
      simp only [ha, hb] at hvalue hprovenance
      by_cases hd : language = defaultLanguage
      · rw [if_pos hd] at hvalue hprovenance
        have hnone : t'.authored? path = none := by
          rw [LocaleTable.authored?_of_get? hvalue]
          simp [Json.string?]
        have hset : t'.set path (.string path) .authored = .ok t' :=
          LocaleTable.set_of_held hclean.sorted hvalue rfl
            (LocaleTable.isFallback_of_provenance? hprovenance)
        simp [hnone, hd, hset, Except.map]
      · rw [if_neg hd] at hvalue hprovenance
        have hnone : t'.authored? path = none := by
          rw [LocaleTable.authored?_of_get? hvalue]
          rfl
        -- only texts are filled in, and here is none
        have hfallback : t'.isFallback path = false := by
          apply Bool.eq_false_iff.mpr
          intro hf
          have htext := hclean.texts path (List.contains_iff_mem.mp hf)
          simp [LocaleTable.text?, hvalue, Json.string?] at htext
        have hset : t'.set path .null .authored = .ok t' :=
          LocaleTable.set_of_held hclean.sorted hvalue rfl hfallback
        simp [hnone, hd, hset, Except.map]

theorem fillPath_again (hpath : path ∈ paths)
    (h : Tablewise (fun language t t' => Completes builtin paths language t t' ∧ t'.Clean)
      tables tables') :
    fillPath builtin path tables' = .ok (tables', missingIn builtin path tables) := by
  induction h with
  | nil => rfl
  | @cons t t' rest rest' hhead _ ih =>
    obtain ⟨language, table'⟩ := t'
    obtain ⟨hname, hcompletes, hclean⟩ := hhead
    dsimp only at hname hclean
    subst hname
    have hhere := hcompletes.fillTable_again hclean hpath
    rw [missingIn_cons]
    simp only [fillPath, hhere, ih, bind, Except.bind, pure, Except.pure]

theorem fillPaths_again {rest : List String} (hrest : rest ⊆ paths)
    (h : Tablewise (fun language t t' => Completes builtin paths language t t' ∧ t'.Clean)
      tables tables') :
    fillPaths builtin rest tables' =
      .ok (tables', rest.flatMap fun path => missingIn builtin path tables) := by
  induction rest with
  | nil => rfl
  | cons path rest ih =>
    obtain ⟨hpath, hrest⟩ := List.cons_subset.mp hrest
    simp only [fillPaths, fillPath_again hpath h, ih hrest, bind, Except.bind, pure, Except.pure,
      List.flatMap_cons]

theorem Tablewise.and_right {R : String → LocaleTable → LocaleTable → Prop}
    {P : LocaleTable → Prop} (h : Tablewise R tables tables') (hP : ∀ t ∈ tables', P t.2) :
    Tablewise (fun language t t' => R language t t' ∧ P t') tables tables' := by
  induction h with
  | nil => exact .nil
  | cons hhead _ ih =>
    obtain ⟨hfirst, hrest⟩ := List.forall_mem_cons.mp hP
    exact .cons ⟨hhead.1, hhead.2, hfirst⟩ (ih hrest)

theorem fillPaths_fillPaths (hbuiltin : builtin.Clean) (hpaths : PathsUnmarked builtin paths)
    (hnodup : paths.Nodup) (hd : defaultLanguage ∈ Fields.names tables)
    (ht : ∀ t ∈ tables, t.2.Clean) (h : fillPaths builtin paths tables = .ok (tables', missing)) :
    fillPaths builtin paths tables' = .ok (tables', missing) := by
  have hnest := not_nested_of_fillPaths hd h
  have hclean := keptBySetting_clean.fillPaths hbuiltin hpaths ht h
  have hfills := fillPaths_fills builtin hnest hnodup tables
  rw [h] at hfills
  cases hfills with
  | fills hcompletes _ => exact fillPaths_again (List.Subset.refl _) (hcompletes.and_right hclean)

end Backfill

namespace Catalog

variable {project builtin filled c : Catalog} {tree : Json} {space : Option String}
  {missing : List MissingText}

theorem eq_of_tables {d : Catalog} (h : c.tables = d.tables) : c = d := by
  cases c
  cases d
  cases h
  rfl

theorem backfill_eq_ok_iff :
    project.backfill builtin tree space = .ok (filled, missing) ↔
      Backfill.fillPaths builtin (Backfill.pathsOf tree builtin space) project.tables =
        .ok (filled.tables, missing) := by
  rw [fillPaths_of_backfill]
  cases project.backfill builtin tree space with
  | error e => simp [Except.map]
  | ok out =>
    obtain ⟨c, m⟩ := out
    simp only [Except.map, Except.ok.injEq, Prod.mk.injEq]
    exact and_congr_left fun _ => ⟨congrArg tables, eq_of_tables⟩

def rereadInto (policy : MarkerPolicy) : Fields LocaleTable → Catalog → Except LocaleError Catalog
  | [], c => .ok c
  | (language, table) :: rest, c => do
    let table ← table.reread policy language
    rereadInto policy rest (c.insert language table)

/-- The catalog as it comes back from its files under a policy. -/
def reread (policy : MarkerPolicy) (c : Catalog) : Except LocaleError Catalog :=
  rereadInto policy c.tables empty

theorem rereadInto_clean (policy : MarkerPolicy) {tables : Fields LocaleTable}
    (h : ∀ t ∈ tables, t.2.Clean) (c : Catalog) :
    rereadInto policy tables c = .ok (tables.foldl (fun c t => c.insert t.1 t.2) c) := by
  induction tables generalizing c with
  | nil => rfl
  | cons t rest ih =>
    obtain ⟨hfirst, hrest⟩ := List.forall_mem_cons.mp h
    simp only [rereadInto, hfirst.reread policy, bind, Except.bind, List.foldl_cons]
    exact ih hrest _

theorem get?_insert (c : Catalog) (language other : String) (table : LocaleTable) :
    (c.insert language table).get? other =
      if other = language then some table else c.get? other := by
  by_cases h : other = language
  · subst h
    rw [if_pos rfl]
    exact get?_insertTable_self c.tables
  · rw [if_neg h]
    exact get?_insertTable_of_ne c.tables h

theorem get?_foldl_insert {tables : Fields LocaleTable} (h : (Fields.names tables).Nodup)
    (c : Catalog) (language : String) :
    (tables.foldl (fun c t => c.insert t.1 t.2) c).get? language =
      (Fields.get? tables language).or (c.get? language) := by
  induction tables generalizing c with
  | nil => rfl
  | cons t rest ih =>
    obtain ⟨name, table⟩ := t
    obtain ⟨hnew, hrest⟩ := List.nodup_cons.mp h
    rw [List.foldl_cons, ih hrest, get?_insert, Fields.get?]
    by_cases heq : language = name
    · subst heq
      simp [Fields.get?_eq_none_iff.mpr hnew]
    · simp [heq, Ne.symm heq]

theorem eq_of_get? {d : Catalog} (h : ∀ language, c.get? language = d.get? language) : c = d := by
  have hnames : Fields.names c.tables = Fields.names d.tables := by
    apply c.sorted.eq_of_mem_iff d.sorted
    intro language
    have hnone : Fields.get? c.tables language = none ↔ Fields.get? d.tables language = none := by
      rw [show Fields.get? c.tables language = Fields.get? d.tables language from h language]
    rw [Fields.get?_eq_none_iff, Fields.get?_eq_none_iff] at hnone
    exact not_iff_not.mp hnone
  exact eq_of_tables (Fields.eq_of_get? hnames c.languages_nodup h)

theorem Clean.reread (h : c.Clean) (policy : MarkerPolicy) : c.reread policy = .ok c := by
  unfold Catalog.reread
  rw [rereadInto_clean policy h, Except.ok.injEq]
  apply eq_of_get?
  intro language
  rw [get?_foldl_insert c.languages_nodup]
  cases ht : c.get? language with
  | some table =>
    rw [show Fields.get? c.tables language = some table from ht]
    rfl
  | none =>
    -- the default language is in every catalog, and no other in the empty one
    have hnot : language ∉ Fields.names c.tables := Fields.get?_eq_none_iff.mp ht
    have hne : defaultLanguage ≠ language := fun heq => hnot (heq ▸ c.default_mem)
    simp [show Fields.get? c.tables language = none from ht, get?, empty, Fields.get?, hne]

/-- Filling a project that was filled changes nothing and misses the same texts. So does filling
what comes back from its files, with marks kept or with marks stripped and filled texts listed. -/
theorem backfill_again (hproject : project.Clean) (hbuiltin : builtin.Clean)
    (hkeys : ∀ path ∈ KeyPath.keyPaths tree, Locale.isMarked path = false)
    (h : project.backfill builtin tree space = .ok (filled, missing)) :
    filled.backfill builtin tree space = .ok (filled, missing) ∧
      ∀ policy, ∃ reread, filled.reread policy = .ok reread ∧
        reread.backfill builtin tree space = .ok (filled, missing) := by
  have hrun := backfill_eq_ok_iff.mp h
  have hpaths := Backfill.pathsUnmarked_pathsOf hbuiltin hkeys space
  have hplain : builtin.Plain := fun t ht => (hbuiltin t ht).plain
  have hnodup := Backfill.pathsOf_nodup tree hplain.readable space
  have hclean : filled.Clean := Backfill.keptBySetting_clean.fillPaths hbuiltin hpaths hproject hrun
  have hagain : filled.backfill builtin tree space = .ok (filled, missing) :=
    backfill_eq_ok_iff.mpr
      (Backfill.fillPaths_fillPaths hbuiltin hpaths hnodup project.default_mem hproject hrun)
  exact ⟨hagain, fun policy => ⟨filled, hclean.reread policy, hagain⟩⟩

def titles : Catalog :=
  empty.insert defaultLanguage
    ⟨[("views", .object [("done", .object [("title", .string "Done")])])], []⟩

def lampTable : LocaleTable := ⟨[("lamp", .object [("name", .string "Lampje")])], []⟩

/-- A lamp that is named in the project and whose title is built in. -/
def lamp : Json :=
  .object [("label", .string "lamp.name"), ("title", .string "views.done.title")]

/-- Of the four texts one is authored, one filled in, one its own path and one missing, and all stay
so. -/
theorem backfill_lamp_again :
    (empty.insert "nl" lampTable).Clean ∧ titles.Clean ∧
      (∀ path ∈ KeyPath.keyPaths lamp, Locale.isMarked path = false) ∧
      ∃ filled, (empty.insert "nl" lampTable).backfill titles lamp (some "views") =
          .ok (filled, [⟨"nl", "views.done.title"⟩]) ∧
        filled.backfill titles lamp (some "views") = .ok (filled, [⟨"nl", "views.done.title"⟩]) ∧
        ∀ policy, ∃ reread, filled.reread policy = .ok reread ∧
          reread.backfill titles lamp (some "views") =
            .ok (filled, [⟨"nl", "views.done.title"⟩]) := by
  have hproject : (empty.insert "nl" lampTable).Clean := by
    intro t ht
    rcases List.mem_pair.mp ht with rfl | rfl
    · exact ⟨rfl, by decide, by decide, .nil⟩
    · exact ⟨by decide +kernel, by decide +kernel, by decide, .nil⟩
  have hbuiltin : titles.Clean := by
    intro t ht
    rw [List.mem_singleton.mp ht]
    exact ⟨by decide +kernel, by decide +kernel, by decide, .nil⟩
  have hkeys : ∀ path ∈ KeyPath.keyPaths lamp, Locale.isMarked path = false := by
    decide +kernel
  obtain ⟨filled, h⟩ : ∃ filled, (empty.insert "nl" lampTable).backfill titles lamp
      (some "views") = .ok (filled, [⟨"nl", "views.done.title"⟩]) := ⟨_, rfl⟩
  exact ⟨hproject, hbuiltin, hkeys, filled, h, backfill_again hproject hbuiltin hkeys h⟩

end Catalog

end RadioDriver
