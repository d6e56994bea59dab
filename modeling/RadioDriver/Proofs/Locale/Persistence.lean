import RadioDriver.Disk.Tree
import RadioDriver.Proofs.Json.RoundTrip
import RadioDriver.Proofs.Locale.Clean
import RadioDriver.Proofs.Locale.Files
import RadioDriver.Proofs.Path.Anchoring

namespace RadioDriver

namespace LocaleStore

variable {s : LocaleStore} {policy : MarkerPolicy} {c : Catalog} {d d' : Disk}
  {language : String} {placed : List String}

theorem persist_ok (h : (s.persist c policy : StateM Disk _).run d = (.ok placed, d')) :
    ∃ targets w d₁, (s.stageTables policy c.tables {} : StateM Disk _).run
        ((Files.makeDirs s.directory : StateM Disk _).run d).2 = ((.ok targets, w), d₁) ∧
      (w.commit : StateM Disk _).run d₁ = (.ok placed, d') := by
  unfold persist at h
  obtain ⟨targets, w, d₁, hstage, h⟩ := ok_of_run_bind_with h fun e w d₁ hc => by cases hc
  obtain ⟨placed', d₂, hcommit, h⟩ := ok_of_run_bind h fun e d₂ hc => by cases hc
  cases h
  unfold stage at hstage
  obtain ⟨u, d₀, hmake, hstage⟩ := ok_of_run_bind hstage fun e d₀ hc => by cases hc
  rw [hmake]
  exact ⟨targets, w, d₁, hstage, hcommit⟩

theorem persist_held (hlanguages : ∀ language ∈ c.languages, IsLanguage language)
    (hrun : (s.persist c policy : StateM Disk _).run d = (.ok placed, d')) :
    ∀ entry ∈ c.tables, Held (Disk.entryMap s.directory) s policy d' entry := by
  obtain ⟨targets, w, d₁, hstage, hcommit⟩ := persist_ok hrun
  have hstaged := staged_tables hlanguages c.languages_nodup (separate_filePaths hlanguages) hstage
  exact fun entry => hstaged.held (Disk.entryMap_movesDirectories s.directory) hcommit

theorem readText_run {path text : String} (h : d.read path = .ok text.toUTF8) :
    (Files.readText path : StateM Disk _).run d = (.ok text, d) := by
  have hread : (Files.read path : StateM Disk _).run d = (.ok text.toUTF8, d) := by
    rw [← h]
    rfl
  unfold Files.readText
  rw [run_bind_state, hread]
  dsimp only
  rw [Text.decodeUtf8_toUTF8]
  rfl

theorem readJson_run {path text : String} {v : Json} (h : d.read path = .ok text.toUTF8)
    (hjson : Json.read? text = some v) : (readJson path : StateM Disk _).run d = (.ok v, d) := by
  unfold readJson
  rw [run_bind_state, readText_run h]
  dsimp only
  rw [hjson]
  rfl

/-- A program that leaves the disk as it is. -/
def Reads {α : Type} (x : StateM Disk α) : Prop := ∀ d, (x.run d).2 = d

theorem Reads.bind {α β : Type} {x : StateM Disk α} {f : α → StateM Disk β} (h : Reads x)
    (hf : ∀ a, Reads (f a)) : Reads (x >>= f) := by
  intro d
  rw [run_bind_state, hf, h]

theorem Reads.run_eq {α : Type} {x : StateM Disk α} {a : α} (h : Reads x)
    (ha : (x.run d).1 = a) : x.run d = (a, d) := Prod.ext ha (h d)

theorem reads_pure {α : Type} (a : α) : Reads (pure a) := fun _ => rfl

theorem reads_readJson (path : String) : Reads (readJson path) := by
  refine Reads.bind (Reads.bind (fun _ => rfl) ?_) ?_
  · rintro (e | bytes)
    · exact reads_pure _
    · dsimp only
      split <;> exact reads_pure _
  · rintro (e | text)
    · exact reads_pure _
    · dsimp only
      split <;> exact reads_pure _

theorem reads_loadTable (s : LocaleStore) (language : String) : Reads (s.loadTable language) := by
  refine (reads_readJson _).bind ?_
  rintro (e | tree)
  · exact reads_pure _
  · dsimp only
    split
    · exact reads_pure _
    · refine Reads.bind (Reads.bind (fun _ => rfl) fun _ => reads_pure _) fun isFile => ?_
      split
      · refine (reads_readJson _).bind ?_
        rintro (e | v) <;> exact reads_pure _
      · exact reads_pure _

theorem pathsOf_ofStrings (path : String) (paths : List String) :
    pathsOf path (.ofStrings paths) = .ok paths := by
  have hall : (paths.map Json.string).mapM Json.string? = some paths := by
    induction paths with
    | nil => rfl
    | cons p rest ih => simp [Json.string?, ih]
  unfold pathsOf Json.ofStrings
  rw [Json.items?, Option.bind_some, hall]

theorem ofTree_of_not_side {table : LocaleTable} (hclean : table.Clean)
    (hside : ¬ HasSide policy table) (language : String) :
    LocaleTable.ofTree language (table.render policy) = .ok table := by
  cases policy with
  | keep => exact hclean.ofTree_keep language
  | strip =>
    have hempty : table.fallback = [] := by
      by_contra hne
      exact hside ⟨rfl, hne⟩
    rw [hclean.ofTree_strip, ← hempty]

theorem names_side (h : IsLanguage language) :
    Disk.Names s.directory (s.sidePath language) (language ++ ".autofill" ++ ".json") :=
  sidePath_eq s language ▸
    names_text (slash_not_mem_stem h (List.mem_cons_of_mem _ (List.mem_singleton_self _)))

section Table

variable {tree : Json} {table : LocaleTable} (hlanguage : IsLanguage language)
  (htext : (readJson (s.textPath language) : StateM Disk _).run d = (.ok tree, d))
  (htable : LocaleTable.ofTree language tree = .ok table)
include hlanguage htext htable

theorem loadTable_unlisted
    (hside : (Disk.entryMap s.directory).node? d (s.sidePath language) = none) :
    (s.loadTable language : StateM Disk _).run d = (.ok table, d) := by
  unfold loadTable
  rw [run_bind_state, htext]
  dsimp only
  rw [htable]
  dsimp only
  rw [run_bind_state, (Disk.entryMap s.directory).isFile_run d ⟨_, names_side hlanguage⟩, hside]
  rfl

theorem loadTable_listed {paths : List String} {text : String}
    (hside : (Disk.entryMap s.directory).node? d (s.sidePath language) =
      some (.file text.toUTF8)) (hlist : Json.read? text = some (.ofStrings paths)) :
    (s.loadTable language : StateM Disk _).run d = (.ok (table.markFallback paths), d) := by
  have hread : (readJson (s.sidePath language) : StateM Disk _).run d =
      (.ok (.ofStrings paths), d) := readJson_run ((names_side hlanguage).read hside) hlist
  unfold loadTable
  rw [run_bind_state, htext]
  dsimp only
  rw [htable]
  dsimp only
  rw [run_bind_state, (Disk.entryMap s.directory).isFile_run d ⟨_, names_side hlanguage⟩, hside]
  change ((readJson (s.sidePath language) >>= fun r => _ : StateM Disk _).run d) = _
  rw [run_bind_state, hread]
  dsimp only
  rw [pathsOf_ofStrings, Except.map]
  rfl

end Table

section Held

variable {entry : String × LocaleTable}
  (h : Held (Disk.entryMap s.directory) s policy d entry) (hlanguage : IsLanguage entry.1)
  (hjson : Json.read? (entry.2.render policy).tabbed = some (entry.2.render policy))
include h hlanguage hjson

theorem Held.readJson_text :
    (readJson (s.textPath entry.1) : StateM Disk _).run d = (.ok (entry.2.render policy), d) := by
  have hnames : Disk.Names s.directory (s.textPath entry.1) _ := names_text hlanguage.2.2
  exact readJson_run (hnames.read h.text) hjson

theorem Held.loadTable (hclean : entry.2.Clean) :
    (s.loadTable entry.1 : StateM Disk _).run d = (.ok entry.2, d) := by
  have htext := h.readJson_text hlanguage hjson
  by_cases hside : HasSide policy entry.2
  · have hstrip : policy = .strip := hside.1
    subst hstrip
    have hlist := Json.read?_ofStrings entry.2.fallback
    rw [loadTable_listed hlanguage htext (hclean.ofTree_strip _) (h.listed hside) hlist,
      hclean.markFallback_strip]
  · exact loadTable_unlisted hlanguage htext (ofTree_of_not_side hclean hside _) (h.unlisted hside)

end Held

theorem not_contains_dot {text : String} (h : '.' ∉ text.toList) :
    Text.contains text "." = false := by
  rw [Bool.eq_false_iff, ne_eq, Text.contains_iff]
  exact fun hinside => h (hinside.subset (List.mem_singleton_self '.'))

theorem languageOf?_text (h : IsLanguage language) :
    languageOf? (language ++ ".json") = some language := by
  obtain ⟨c, stem, hreverse⟩ : ∃ c stem, language.toList.reverse = c :: stem := by
    apply List.exists_cons_of_ne_nil
    intro hnil
    exact h.1 (String.toList_eq_nil_iff.mp (List.reverse_eq_nil_iff.mp hnil))
  have hchars : (language ++ ".json").toList.reverse = ['n', 'o', 's', 'j', '.'] ++ c :: stem := by
    rw [String.toList_append, List.reverse_append, hreverse]
    rfl
  have hlanguage : String.ofList (c :: stem).reverse = language := by
    rw [← hreverse, List.reverse_reverse, String.ofList_toList]
  have hsplit : Path.splitName (language ++ ".json") = (language, some "json") := by
    unfold Path.splitName
    rw [hchars]
    simp [← hlanguage]
  simp [languageOf?, hsplit, not_contains_dot h.2.1]

theorem storedLanguages_run (s : LocaleStore) (d : Disk) :
    (s.storedLanguages : StateM Disk _).run d =
      (LocaleTable.insertAll ((d.fileNames s.directory).filterMap languageOf?) [], d) := rfl

theorem loadTables_run {languages : List String} (c : Catalog)
    (h : ∀ language ∈ languages, ∃ table,
      ((s.loadTable language : StateM Disk _).run d).1 = .ok table) :
    ∃ loaded, ((s.loadTables languages c : StateM Disk _).run d).1 = .ok loaded ∧
      ∀ language table, ((s.loadTable language : StateM Disk _).run d).1 = .ok table →
        (language ∈ languages ∨ c.get? language = some table) →
          loaded.get? language = some table := by
  induction languages generalizing c with
  | nil => exact ⟨c, rfl, fun _ _ _ hmem => hmem.resolve_left List.not_mem_nil⟩
  | cons language rest ih =>
    obtain ⟨table, htable⟩ := h language List.mem_cons_self
    obtain ⟨loaded, hloaded, hget⟩ := ih (c.insert language table) fun other hother =>
      h other (List.mem_cons_of_mem _ hother)
    refine ⟨loaded, ?_, ?_⟩
    · unfold loadTables
      rw [run_bind_state, (reads_loadTable s language).run_eq htable]
      exact hloaded
    · intro other table' htable' hmem
      apply hget other table' htable'
      by_cases heq : other = language
      · subst heq
        rw [htable] at htable'
        cases htable'
        exact .inr (Catalog.get?_insertTable_self c.tables)
      · rcases hmem with hmem | hmem
        · exact .inl ((List.mem_cons.mp hmem).resolve_left heq)
        · exact .inr ((Catalog.get?_insertTable_of_ne c.tables heq).trans hmem)

theorem stored_of_file (hdirectory : s.directory ≠ "") (hlanguage : IsLanguage language)
    {bytes : ByteArray}
    (hfile : (Disk.entryMap s.directory).node? d (s.textPath language) = some (.file bytes)) :
    ((Files.isDir s.directory : StateM Disk Bool).run d).1 = true ∧
      language ∈ ((s.storedLanguages : StateM Disk _).run d).1 := by
  have hnames : Disk.Names s.directory (s.textPath language) _ := names_text hlanguage.2.2
  obtain ⟨hcheck, base, hbase, hfile⟩ := hnames.within hfile
  have hcheck := Disk.checkPath_directory (isName_text hlanguage.2.2) hdirectory hcheck
  constructor
  · have hrun : (Files.isDir s.directory : StateM Disk Bool).run d =
        (((d.lookup s.directory).toOption.map fun found => found.2.kind) == some .directory, d) :=
      rfl
    rw [hrun, Disk.lookup_directory hcheck hbase]
    rfl
  · rw [storedLanguages_run]
    have hlisted := Disk.mem_fileNames hcheck hbase hfile
    exact LocaleTable.mem_insertAll.mpr (.inl (List.mem_filterMap.mpr
      ⟨language ++ ".json", hlisted, languageOf?_text hlanguage⟩))

theorem load_run (hdir : ((Files.isDir s.directory : StateM Disk Bool).run d).1 = true)
    (h : ∀ language ∈ ((s.storedLanguages : StateM Disk _).run d).1, ∃ table,
      ((s.loadTable language : StateM Disk _).run d).1 = .ok table) :
    ∃ loaded, ((s.load : StateM Disk _).run d).1 = .ok loaded ∧
      ∀ language table, ((s.loadTable language : StateM Disk _).run d).1 = .ok table →
        language ∈ ((s.storedLanguages : StateM Disk _).run d).1 →
          loaded.get? language = some table := by
  obtain ⟨loaded, hloaded, hget⟩ := loadTables_run (s := s) (d := d) .empty h
  refine ⟨loaded, ?_, fun language table htable hmem => hget language table htable (.inl hmem)⟩
  have hisDir : (Files.isDir s.directory : StateM Disk Bool).run d = (true, d) :=
    Reads.run_eq (Reads.bind (fun _ => rfl) fun _ => reads_pure _) hdir
  unfold load
  rw [run_bind_state, hisDir]
  exact hloaded

/-- Every language that the directory tells and that is not among those given can be loaded. -/
def OthersLoad (s : LocaleStore) (languages : List String) (d : Disk) : Prop :=
  ∀ language ∈ ((s.storedLanguages : StateM Disk _).run d).1, language ∉ languages →
    ∃ table, ((s.loadTable language : StateM Disk _).run d).1 = .ok table

theorem load_held (hdirectory : s.directory ≠ "")
    (hlanguages : ∀ language ∈ c.languages, IsLanguage language)
    (hheld : ∀ entry ∈ c.tables, Held (Disk.entryMap s.directory) s policy d entry)
    (hclean : ∀ entry ∈ c.tables, entry.2.Clean)
    (hjson : ∀ entry ∈ c.tables,
      Json.read? (entry.2.render policy).tabbed = some (entry.2.render policy))
    (hothers : s.OthersLoad c.languages d) :
    ∃ loaded, ((s.load : StateM Disk _).run d).1 = .ok loaded ∧
      ∀ language table, c.get? language = some table → loaded.get? language = some table := by
  have hloads : ∀ entry ∈ c.tables,
      ((s.loadTable entry.1 : StateM Disk _).run d).1 = .ok entry.2 := by
    intro entry hentry
    rw [(hheld entry hentry).loadTable (hlanguages _ (List.mem_map_of_mem hentry))
      (hjson entry hentry) (hclean entry hentry)]
  have hstored : ∀ entry ∈ c.tables,
      ((Files.isDir s.directory : StateM Disk Bool).run d).1 = true ∧
        entry.1 ∈ ((s.storedLanguages : StateM Disk _).run d).1 := fun entry hentry =>
    stored_of_file hdirectory (hlanguages _ (List.mem_map_of_mem hentry)) (hheld entry hentry).text
  -- the default language has a file, so the directory is there
  obtain ⟨entry, hentry, -⟩ := List.mem_map.mp c.default_mem
  obtain ⟨loaded, hloaded, hget⟩ := load_run (hstored entry hentry).1 (by
    intro language hlanguage
    by_cases hmem : language ∈ c.languages
    · obtain ⟨entry, hentry, rfl⟩ := List.mem_map.mp hmem
      exact ⟨entry.2, hloads entry hentry⟩
    · exact hothers language hlanguage hmem)
  refine ⟨loaded, hloaded, ?_⟩
  intro language table htable
  have hentry := Fields.mem_of_get? htable
  have hload := hloads (language, table) hentry
  have hmem := (hstored (language, table) hentry).2
  exact hget language table hload hmem

/-- Tables are clean from the time they are read and stay clean whatever texts are set in them.
Clean tables that are persisted under either policy, over whatever was there, are loaded as they
were, trees and filled-in paths alike, when the directory has a path and no other language of it
stops the loading. The printed trees are taken to read back. -/
theorem clean_tables_round_trip :
    (∀ (language : String) (fields : Fields Json), Locale.plainFields fields = true →
      ∃ table, LocaleTable.ofTree language (.object fields) = .ok table ∧ table.Clean) ∧
    (∀ (t : LocaleTable) (paths : List String), t.Clean → (t.markFallback paths).Clean) ∧
    (∀ (t t' : LocaleTable) (path text : String) (provenance : Provenance), t.Clean →
      Locale.isMarked text = false → t.set path (.string text) provenance = .ok t' → t'.Clean) ∧
    (∀ (t t' : LocaleTable) (path : String), t.Clean →
      t.set path .null .authored = .ok t' → t'.Clean) ∧
    ∀ (s : LocaleStore) (policy : MarkerPolicy) (c : Catalog) (d d' : Disk)
      (placed : List String), s.directory ≠ "" →
      (∀ entry ∈ c.tables, entry.2.Clean) →
      (∀ language ∈ c.languages, language ≠ "" ∧ '.' ∉ language.toList ∧ '/' ∉ language.toList) →
      (∀ entry ∈ c.tables,
        Json.read? (entry.2.render policy).tabbed = some (entry.2.render policy)) →
      (s.persist c policy : StateM Disk _).run d = (.ok placed, d') →
      s.OthersLoad c.languages d' →
      ∃ loaded, ((s.load : StateM Disk _).run d').1 = .ok loaded ∧
        ∀ language table, c.get? language = some table →
          loaded.get? language = some table := by
  refine ⟨?_, ?_, ?_, ?_, ?_⟩
  · exact fun language fields h => LocaleTable.clean_ofTree h
  · exact fun t paths h => h.markFallback paths
  · intro t t' path text provenance h hmark hset
    apply h.set hset rfl
    · intro other hother
      cases hother
      exact hmark
    · exact fun _ => rfl
  · intro t t' path h hset
    apply h.set hset rfl
    · intro other hother
      cases hother
    · intro hc
      cases hc
  · intro s policy c d d' placed hdirectory hclean hlanguages hjson hrun hothers
    exact load_held hdirectory hlanguages (persist_held hlanguages hrun) hclean hjson hothers

def sampleTree : Fields Json :=
  [("views", .object [("title", .string "Done!\x00"), ("body", .string "Finished")])]

def sampleTable : LocaleTable :=
  ⟨[("views", .object [("title", .string "Done!"), ("body", .string "Finished")])],
    ["views.title"]⟩

def sampleCatalog : Catalog := Catalog.empty.insert defaultLanguage sampleTable

/-- A directory with the files of an earlier run, of which neither can be read. -/
def sampleDisk : Disk where
  nodes := [(["texts"], .directory), (["texts", "en.json"], .file ⟨#[1]⟩),
    (["texts", "en.autofill.json"], .file ⟨#[2]⟩)]

def sampleStore : LocaleStore := ⟨"/texts"⟩

theorem clean_sampleTable : sampleTable.Clean where
  plain := by decide +kernel
  unmarked := by decide +kernel
  texts := by decide +kernel
  sorted := List.pairwise_singleton _ _

theorem readable_sample (policy : MarkerPolicy) : Json.read? (sampleTable.render policy).tabbed =
    some (sampleTable.render policy) := by
  have hrecoverable : (sampleTable.render policy).recoverable Json.Reader.maxDepth = true := by
    cases policy <;> decide +kernel
  apply (Json.read?_tabbed_eq_some_iff hrecoverable).mpr
  cases policy <;> decide +kernel

theorem persist_sample (policy : MarkerPolicy) : ∃ placed,
    ((sampleStore.persist sampleCatalog policy : StateM Disk _).run sampleDisk).1 = .ok placed ∧
      ((sampleStore.storedLanguages : StateM Disk _).run
        ((sampleStore.persist sampleCatalog policy : StateM Disk _).run sampleDisk).2).1 =
          ["en"] := by
  cases policy with
  | keep => exact ⟨["/texts/en.json"], by decide +kernel⟩
  | strip => exact ⟨["/texts/en.json", "/texts/en.autofill.json"], by decide +kernel⟩

theorem clean_entries : ∀ entry ∈ sampleCatalog.tables, entry.2.Clean :=
  List.forall_mem_singleton.mpr clean_sampleTable

theorem readable_entries (policy : MarkerPolicy) : ∀ entry ∈ sampleCatalog.tables,
    Json.read? (entry.2.render policy).tabbed = some (entry.2.render policy) :=
  List.forall_mem_singleton.mpr (readable_sample policy)

theorem othersLoad_sample {d : Disk}
    (h : ((sampleStore.storedLanguages : StateM Disk _).run d).1 = ["en"]) :
    sampleStore.OthersLoad sampleCatalog.languages d := by
  intro language hlanguage hnot
  rw [h] at hlanguage
  rw [List.mem_singleton.mp hlanguage] at hnot
  exact absurd sampleCatalog.default_mem hnot

/-- The sample is clean from the start, stays clean, and comes back under both policies. -/
theorem sample_round_trip :
    (∃ table, LocaleTable.ofTree "en" (.object sampleTree) = .ok table ∧ table.Clean) ∧
    (sampleTable.markFallback ["views.body", "views.none"]).Clean ∧
    (∃ t, sampleTable.set "views.body" (.string "Ready") .fallback = .ok t ∧ t.Clean) ∧
    (∃ t, sampleTable.set "views.title" .null .authored = .ok t ∧ t.Clean) ∧
    ∀ policy, ∃ placed d loaded,
      (sampleStore.persist sampleCatalog policy : StateM Disk _).run sampleDisk =
        (.ok placed, d) ∧
      ((sampleStore.load : StateM Disk _).run d).1 = .ok loaded ∧
      loaded.get? "en" = some sampleTable := by
  obtain ⟨hread, hmark, hset, hclear, hload⟩ := clean_tables_round_trip
  refine ⟨hread "en" sampleTree (by decide +kernel), hmark _ _ clean_sampleTable, ?_, ?_, ?_⟩
  · have hok : (sampleTable.set "views.body" (.string "Ready") .fallback).isOk = true := by
      decide +kernel
    obtain ⟨t, ht⟩ := exists_of_isOk hok
    exact ⟨t, ht, hset _ t _ "Ready" _ clean_sampleTable (by decide +kernel) ht⟩
  · have hok : (sampleTable.set "views.title" .null .authored).isOk = true := by decide +kernel
    obtain ⟨t, ht⟩ := exists_of_isOk hok
    exact ⟨t, ht, hclear _ t _ clean_sampleTable ht⟩
  · intro policy
    obtain ⟨placed, hplaced, hstored⟩ := persist_sample policy
    rcases hrun : (sampleStore.persist sampleCatalog policy : StateM Disk _).run sampleDisk with
      ⟨r, d⟩
    rw [hrun] at hplaced hstored
    have hplaced : r = .ok placed := hplaced
    have hstored : ((sampleStore.storedLanguages : StateM Disk _).run d).1 = ["en"] := hstored
    subst hplaced
    obtain ⟨loaded, hloaded, hget⟩ := hload sampleStore policy sampleCatalog sampleDisk d placed
      (by decide) clean_entries (by decide +kernel) (readable_entries policy) hrun
      (othersLoad_sample hstored)
    exact ⟨placed, d, loaded, rfl, hloaded, hget "en" sampleTable rfl⟩

/-- A catalog of clean tables that is persisted and is not loaded again as it was. -/
structure Loses (s : LocaleStore) (policy : MarkerPolicy) (c : Catalog) (d : Disk) : Prop where
  clean : ∀ entry ∈ c.tables, entry.2.Clean
  languages : ∀ language ∈ c.languages,
    language ≠ "" ∧ '.' ∉ language.toList ∧ '/' ∉ language.toList
  readable : ∀ entry ∈ c.tables,
    Json.read? (entry.2.render policy).tabbed = some (entry.2.render policy)
  persisted : ((s.persist c policy : StateM Disk _).run d).1.isOk = true
  lost : ¬ ∃ loaded,
    ((s.load : StateM Disk _).run ((s.persist c policy : StateM Disk _).run d).2).1 = .ok loaded ∧
      ∀ language table, c.get? language = some table → loaded.get? language = some table

/-- A directory that holds a file of another language that cannot be read. -/
def blockedDisk : Disk :=
  ((Disk.putTree "/texts/nl.json" (.file "\x7b".toUTF8) : StateM Disk _).run {}).2

def loadedTitle? (s : LocaleStore) (d : Disk) : Option String := do
  let loaded ← ((s.load : StateM Disk _).run d).1.toOption
  (← loaded.get? "en").text? "views.title"

theorem loses_of_loadedTitle? {s : LocaleStore} {policy : MarkerPolicy} {d : Disk}
    (hruns : ((s.persist sampleCatalog policy : StateM Disk _).run d).1.isOk = true ∧
      s.loadedTitle? ((s.persist sampleCatalog policy : StateM Disk _).run d).2 = none) :
    Loses s policy sampleCatalog d := by
  refine ⟨clean_entries, by decide +kernel, readable_entries policy, hruns.1, ?_⟩
  rintro ⟨loaded, hload, hget⟩
  have htitle := hruns.2
  rw [loadedTitle?, hload] at htitle
  change (loaded.get? "en").bind (·.text? "views.title") = none at htitle
  rw [hget "en" sampleTable rfl] at htitle
  cases htitle

/-- The empty path stands for the directory in which relative paths begin when files are persisted,
and for none when they are loaded. A file of another language that cannot be read stops the loading
of all, until it is taken away. -/
theorem persisted_catalog_lost :
    (Loses ⟨""⟩ .keep sampleCatalog (.scratch "home") ∧
      (((LocaleStore.persist ⟨""⟩ sampleCatalog .keep : StateM Disk _).run
        (.scratch "home")).2.listing ["home"]).map Prod.fst = ["en.json"]) ∧
    Loses sampleStore .keep sampleCatalog blockedDisk ∧
      (((sampleStore.persist sampleCatalog .keep : StateM Disk _).run blockedDisk).2.removeTree
        "/texts/nl.json").toOption.bind sampleStore.loadedTitle? = some "Done!" :=
  ⟨⟨loses_of_loadedTitle? (by decide +kernel), by decide +kernel⟩,
    loses_of_loadedTitle? (by decide +kernel), by decide +kernel⟩

end LocaleStore

end RadioDriver
