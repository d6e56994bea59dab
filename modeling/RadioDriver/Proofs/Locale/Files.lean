import RadioDriver.Locale.Store
import RadioDriver.Proofs.Disk.Replacing

namespace RadioDriver.LocaleStore

/-- Whether a text can name the files of a language. -/
def IsLanguage (language : String) : Prop :=
  language ≠ "" ∧ '.' ∉ language.toList ∧ '/' ∉ language.toList

def filePaths (s : LocaleStore) (language : String) : List String :=
  [s.textPath language, s.sidePath language]

def stems (language : String) : List String := [language, language ++ ".autofill"]

variable {s : LocaleStore} {language other stem stem' : String}

theorem sidePath_eq (s : LocaleStore) (language : String) :
    s.sidePath language = s.textPath (language ++ ".autofill") := by
  rw [sidePath, textPath, String.append_assoc]
  rfl

theorem textPath_mem (s : LocaleStore) (language : String) :
    s.textPath language ∈ s.filePaths language := List.mem_cons_self

theorem sidePath_mem (s : LocaleStore) (language : String) :
    s.sidePath language ∈ s.filePaths language :=
  List.mem_cons_of_mem _ (List.mem_singleton_self _)

theorem mem_filePaths {path : String} (h : path ∈ s.filePaths language) :
    ∃ stem ∈ stems language, path = s.textPath stem := by
  rcases List.mem_pair.mp h with rfl | rfl
  · exact ⟨language, List.mem_cons_self, rfl⟩
  · exact ⟨_, List.mem_cons_of_mem _ (List.mem_singleton_self _), sidePath_eq s language⟩

theorem slash_not_mem_stem (h : IsLanguage language) (hs : stem ∈ stems language) :
    '/' ∉ stem.toList := by
  rcases List.mem_pair.mp hs with rfl | rfl
  · exact h.2.2
  · rw [String.toList_append, List.mem_append]
    exact not_or.mpr ⟨h.2.2, by decide⟩

theorem language_eq_of_stem (h : IsLanguage language) (ho : IsLanguage other)
    (hs : stem ∈ stems language) (hs' : stem ∈ stems other) : language = other := by
  have hdot : ∀ name : String, '.' ∈ (name ++ ".autofill").toList := by
    intro name
    rw [String.toList_append, List.mem_append]
    exact .inr (by decide)
  rcases List.mem_pair.mp hs with rfl | rfl <;> rcases List.mem_pair.mp hs' with heq | heq
  · exact heq
  · exact absurd (heq ▸ hdot other) h.2.1
  · exact absurd (heq ▸ hdot language) ho.2.1
  · have htext := congrArg String.toList heq
    rw [String.toList_append, String.toList_append] at htext
    exact String.toList_injective (List.append_cancel_right htext)

theorem isName_text (h : '/' ∉ stem.toList) : Path.IsName (stem ++ ".json") := by
  have hending : Path.IsEnding "json" := by
    unfold Path.IsEnding
    decide
  have hsplit : stem ++ ".json" = (stem ++ ".") ++ "json" := by
    rw [String.append_assoc]
    rfl
  rw [hsplit]
  apply hending.isName_append
  rw [String.toList_append, List.mem_append]
  exact not_or.mpr ⟨h, by decide⟩

theorem names_text (h : '/' ∉ stem.toList) :
    Disk.Names s.directory (s.textPath stem) (stem ++ ".json") := .child (isName_text h)

theorem components_text_inj (h : '/' ∉ stem.toList) (h' : '/' ∉ stem'.toList)
    (heq : Path.components (s.textPath stem) = Path.components (s.textPath stem')) :
    stem = stem' := by
  rw [(names_text h).components, (names_text h').components] at heq
  have htext := congrArg String.toList (List.cons.inj (List.append_cancel_left heq)).1
  rw [String.toList_append, String.toList_append] at htext
  exact String.toList_injective (List.append_cancel_right htext)

theorem filePaths_inj (h : IsLanguage language) (ho : IsLanguage other) {path path' : String}
    (hpath : path ∈ s.filePaths language) (hpath' : path' ∈ s.filePaths other)
    (heq : Path.components path = Path.components path') : language = other ∧ path = path' := by
  obtain ⟨stem, hstem, rfl⟩ := mem_filePaths hpath
  obtain ⟨stem', hstem', rfl⟩ := mem_filePaths hpath'
  have hsame := components_text_inj (slash_not_mem_stem h hstem) (slash_not_mem_stem ho hstem') heq
  subst hsame
  exact ⟨language_eq_of_stem h ho hstem hstem', rfl⟩

theorem textPath_ne_sidePath (h : IsLanguage language) :
    s.textPath language ≠ s.sidePath language := by
  rw [sidePath_eq]
  intro heq
  have hslash := fun stem => @slash_not_mem_stem language stem h
  have hself := components_text_inj (hslash _ (by simp [stems])) (hslash _ (by simp [stems]))
    (congrArg Path.components heq)
  have hdot : '.' ∈ language.toList := by
    rw [hself, String.toList_append, List.mem_append]
    exact .inr (by decide)
  exact h.2.1 hdot

theorem beside_ne_text (h : '/' ∉ stem.toList) (h' : '/' ∉ stem'.toList) {ending : String}
    (hending : ending ∈ [".tmp", ".bak"]) :
    Path.components (Path.sibling (s.textPath stem) ending) ≠
      Path.components (s.textPath stem') := by
  have hlast : Path.IsEnding ending ∧ ending.toList.getLast? ≠ some 'n' ∧ ending.toList ≠ [] := by
    rcases List.mem_pair.mp hending with rfl | rfl
    · exact ⟨isEnding_tmp, by decide, by decide⟩
    · exact ⟨isEnding_bak, by decide, by decide⟩
  obtain ⟨hending, hlast, hne⟩ := hlast
  rw [((names_text h).sibling hending).components, (names_text h').components]
  intro heq
  have htext := congrArg (fun name : String => name.toList.getLast?)
    (List.cons.inj (List.append_cancel_left heq)).1
  simp only [String.toList_append] at htext
  rw [List.getLast?_append_of_ne_nil _ hne, List.getLast?_append_of_ne_nil _ (by decide)] at htext
  exact hlast htext

variable {languages : List String}

theorem separate_filePaths (hlanguages : ∀ language ∈ languages, IsLanguage language) :
    (Disk.entryMap s.directory).Separate (languages.flatMap s.filePaths) := by
  have hstem : ∀ path ∈ languages.flatMap s.filePaths,
      ∃ stem, path = s.textPath stem ∧ '/' ∉ stem.toList := by
    intro path hpath
    obtain ⟨language, hlanguage, hpath⟩ := List.mem_flatMap.mp hpath
    obtain ⟨stem, hstem, rfl⟩ := mem_filePaths hpath
    exact ⟨stem, rfl, slash_not_mem_stem (hlanguages language hlanguage) hstem⟩
  constructor
  · intro path hpath
    obtain ⟨stem, rfl, hslash⟩ := hstem path hpath
    have hnames : Disk.Names s.directory (s.textPath stem) _ := names_text hslash
    exact ⟨⟨_, hnames⟩, ⟨_, hnames.sibling isEnding_tmp⟩, ⟨_, hnames.sibling isEnding_bak⟩⟩
  · intro path hpath path' hpath' ending hending
    obtain ⟨stem, rfl, hslash⟩ := hstem path hpath
    obtain ⟨stem', rfl, hslash'⟩ := hstem path' hpath'
    exact beside_ne_text hslash hslash' hending

/-- Whether a side file is written for a table. -/
def HasSide (policy : MarkerPolicy) (table : LocaleTable) : Prop :=
  policy = .strip ∧ table.fallback ≠ []

instance (policy : MarkerPolicy) (table : LocaleTable) : Decidable (HasSide policy table) :=
  inferInstanceAs (Decidable (_ ∧ _))

def documents (s : LocaleStore) (policy : MarkerPolicy) (entry : String × LocaleTable) :
    List (String × Json) :=
  (s.textPath entry.1, entry.2.render policy) ::
    if HasSide policy entry.2 then [(s.sidePath entry.1, .ofStrings entry.2.fallback)] else []

def encodeAll (files : List (String × Json)) : List (String × ByteArray) :=
  files.map fun f => (f.1, encode f.2)

variable {policy : MarkerPolicy} {entry : String × LocaleTable} {tables : Fields LocaleTable}

theorem documents_of_side (h : HasSide policy entry.2) :
    s.documents policy entry = [(s.textPath entry.1, entry.2.render policy),
      (s.sidePath entry.1, .ofStrings entry.2.fallback)] := by
  rw [documents, if_pos h]

theorem documents_of_not_side (h : ¬ HasSide policy entry.2) :
    s.documents policy entry = [(s.textPath entry.1, entry.2.render policy)] := by
  rw [documents, if_neg h]

theorem text_mem_documents (s : LocaleStore) (policy : MarkerPolicy)
    (entry : String × LocaleTable) :
    (s.textPath entry.1, entry.2.render policy) ∈ s.documents policy entry := List.mem_cons_self

theorem side_mem_documents (s : LocaleStore) (h : HasSide policy entry.2) :
    (s.sidePath entry.1, .ofStrings entry.2.fallback) ∈ s.documents policy entry := by
  rw [documents_of_side h]
  exact List.mem_cons_of_mem _ (List.mem_singleton_self _)

theorem mem_filePaths_of_mem_documents {f : String × Json}
    (h : f ∈ s.documents policy entry) : f.1 ∈ s.filePaths entry.1 := by
  by_cases hside : HasSide policy entry.2
  · rw [documents_of_side hside] at h
    rcases List.mem_pair.mp h with rfl | rfl
    · exact textPath_mem s entry.1
    · exact sidePath_mem s entry.1
  · rw [documents_of_not_side hside] at h
    rw [List.mem_singleton.mp h]
    exact textPath_mem s entry.1

theorem document_ne_side (hlanguages : ∀ language ∈ Fields.names tables, IsLanguage language)
    (hdistinct : (Fields.names tables).Nodup) (hentry : entry ∈ tables)
    (hside : ¬ HasSide policy entry.2) {f : String × Json}
    (hf : f ∈ tables.flatMap (s.documents policy)) :
    Path.components (s.sidePath entry.1) ≠ Path.components f.1 := by
  obtain ⟨other, hother, hf⟩ := List.mem_flatMap.mp hf
  have hlanguage := hlanguages entry.1 (List.mem_map_of_mem hentry)
  intro heq
  obtain ⟨hname, hpath⟩ := filePaths_inj hlanguage (hlanguages other.1 (List.mem_map_of_mem hother))
    (sidePath_mem s entry.1) (mem_filePaths_of_mem_documents hf) heq
  have hsame := List.inj_on_of_nodup_map hdistinct hentry hother hname
  rw [← hsame, documents_of_not_side hside] at hf
  rw [List.mem_singleton.mp hf] at hpath
  exact textPath_ne_sidePath hlanguage hpath.symm

theorem nodup_documents (hlanguages : ∀ language ∈ Fields.names tables, IsLanguage language)
    (hdistinct : (Fields.names tables).Nodup) :
    ((tables.flatMap (s.documents policy)).map fun f => Path.components f.1).Nodup := by
  have hlanguage : ∀ entry ∈ tables, IsLanguage entry.1 := fun entry hentry =>
    hlanguages entry.1 (List.mem_map_of_mem hentry)
  rw [List.map_flatMap, List.nodup_flatMap]
  constructor
  · intro entry hentry
    by_cases hside : HasSide policy entry.2
    · rw [documents_of_side hside, List.map_cons, List.map_singleton]
      refine List.nodup_cons.mpr ⟨?_, List.nodup_singleton _⟩
      rw [List.mem_singleton]
      intro heq
      exact textPath_ne_sidePath (hlanguage entry hentry) (filePaths_inj (hlanguage entry hentry)
        (hlanguage entry hentry) (textPath_mem s _) (sidePath_mem s _) heq).2
    · rw [documents_of_not_side hside, List.map_singleton]
      exact List.nodup_singleton _
  · have hne : tables.Pairwise fun a b => a.1 ≠ b.1 := List.pairwise_map.mp hdistinct
    refine hne.imp_of_mem fun ha hb hab => ?_
    intro place hplace hplace'
    obtain ⟨f, hf, rfl⟩ := List.mem_map.mp hplace
    obtain ⟨g, hg, heq⟩ := List.mem_map.mp hplace'
    exact hab (filePaths_inj (hlanguage _ ha) (hlanguage _ hb) (mem_filePaths_of_mem_documents hf)
      (mem_filePaths_of_mem_documents hg) heq.symm).1

section Staging

variable {σ : Type} [Files (StateM σ)] {M : FileMap σ} {w w' : StagedWrites} {s₀ s₁ s₂ : σ}
  {written : List (String × ByteArray)} {paths targets : List String}

theorem stageFile_ok {target : String} {v : Json}
    (h : (stageFile target v w : StateM σ _).run s₁ = ((.ok (), w'), s₂)) :
    (w.stage target (encode v) : StateM σ _).run s₁ = ((.ok (), w'), s₂) := by
  unfold stageFile at h
  obtain ⟨u, w₁, s₃, hstage, h⟩ := ok_of_run_bind_with h fun e w₁ s₃ hc => by cases hc
  cases h
  exact hstage

variable (M) in
/-- The side file that a table leaves to be removed, if it was there. -/
def stale (s : LocaleStore) (policy : MarkerPolicy) (s₀ : σ) (entry : String × LocaleTable) :
    List String :=
  if ¬ HasSide policy entry.2 ∧ (M.node? s₀ (s.sidePath entry.1)).isSome then
    [s.sidePath entry.1] else []

theorem mem_stale {path : String} (h : path ∈ stale M s policy s₀ entry) :
    ¬ HasSide policy entry.2 ∧ (M.node? s₀ (s.sidePath entry.1)).isSome ∧
      path = s.sidePath entry.1 := by
  unfold stale at h
  split at h
  · next hside => exact ⟨hside.1, hside.2, List.mem_singleton.mp h⟩
  · cases h

theorem stageTable_ok (hprepared : M.Prepared s₀ written w s₁) (hseparate : M.Separate paths)
    (hpaths : ∀ path ∈ s.filePaths entry.1, path ∈ paths)
    (hwritten : ∀ f ∈ written, f.1 ∈ paths)
    (hdistinct : ((written ++ encodeAll (s.documents policy entry)).map fun f =>
      Path.components f.1).Nodup)
    (hrun : (s.stageTable policy entry.1 entry.2 w : StateM σ _).run s₁ =
      ((.ok targets, w'), s₂)) :
    M.Prepared s₀ (written ++ encodeAll (s.documents policy entry)) w' s₂ ∧
      w'.removals = w.removals ++ stale M s policy s₀ entry := by
  have hside : s.sidePath entry.1 ∈ paths := hpaths _ (sidePath_mem s entry.1)
  unfold stageTable at hrun
  obtain ⟨u, w₁, s₃, htext, hrun⟩ := ok_of_run_bind_with hrun fun e w₁ s₃ hc => by cases hc
  have hfirst := hprepared.stage (stageFile_ok htext)
  have hremovals : w₁.removals = w.removals := by
    rw [(FileMap.stage_ok (stageFile_ok htext)).2]
  dsimp only at hrun
  by_cases hs : HasSide policy entry.2
  · have hstrip : policy = .strip ∧ entry.2.fallback ≠ [] := hs
    rw [if_pos hstrip] at hrun
    obtain ⟨v, w₂, s₄, hlist, hrun⟩ := ok_of_run_bind_with hrun fun e w₂ s₄ hc => by cases hc
    have hsecond := hfirst.stage (stageFile_ok hlist)
    have hremovals' : w₂.removals = w₁.removals := by
      rw [(FileMap.stage_ok (stageFile_ok hlist)).2]
    cases hrun
    rw [List.append_assoc] at hsecond
    rw [documents_of_side hs, stale, if_neg (fun hc => hc.1 hs), List.append_nil, ← hremovals]
    exact ⟨hsecond, hremovals'⟩
  · have hstrip : ¬ (policy = .strip ∧ entry.2.fallback ≠ []) := hs
    rw [documents_of_not_side hs] at hdistinct ⊢
    have hmem : ∀ f ∈ written ++ [(s.textPath entry.1, encode (entry.2.render policy))],
        f.1 ∈ paths := by
      intro f hf
      rcases List.mem_append.mp hf with hf | hf
      · exact hwritten f hf
      · rw [List.mem_singleton.mp hf]
        exact hpaths _ (textPath_mem s entry.1)
    rw [if_neg hstrip, run_bind_state, M.exists?_run s₃ (hseparate.covers _ hside).1,
      hfirst.node?_eq hseparate hmem hdistinct hside] at hrun
    cases hthere : (M.node? s₀ (s.sidePath entry.1)).isSome with
    | true =>
      rw [hthere] at hrun
      cases hrun
      rw [stale, if_pos ⟨hs, hthere⟩, ← hremovals]
      exact ⟨hfirst.remove _, rfl⟩
    | false =>
      rw [hthere] at hrun
      cases hrun
      rw [stale, if_neg (fun hc => by rw [hthere] at hc; cases hc.2), List.append_nil]
      exact ⟨hfirst, hremovals⟩

theorem stageTables_ok (hprepared : M.Prepared s₀ written w s₁) (hseparate : M.Separate paths)
    (hpaths : ∀ entry ∈ tables, ∀ path ∈ s.filePaths entry.1, path ∈ paths)
    (hwritten : ∀ f ∈ written, f.1 ∈ paths)
    (hdistinct : ((written ++ encodeAll (tables.flatMap (s.documents policy))).map fun f =>
      Path.components f.1).Nodup)
    (hrun : (s.stageTables policy tables w : StateM σ _).run s₁ = ((.ok targets, w'), s₂)) :
    M.Prepared s₀ (written ++ encodeAll (tables.flatMap (s.documents policy))) w' s₂ ∧
      w'.removals = w.removals ++ tables.flatMap (stale M s policy s₀) := by
  induction tables generalizing written w s₁ targets with
  | nil =>
    cases hrun
    exact ⟨by simpa [encodeAll] using hprepared, by simp⟩
  | cons entry rest ih =>
    have hsplit : written ++ encodeAll ((entry :: rest).flatMap (s.documents policy)) =
        (written ++ encodeAll (s.documents policy entry)) ++
          encodeAll (rest.flatMap (s.documents policy)) := by
      rw [List.flatMap_cons, encodeAll, List.map_append, ← List.append_assoc]
      rfl
    rw [hsplit] at hdistinct ⊢
    have hfirst := (List.map_append ▸ hdistinct : (_ ++ _ : List _).Nodup).of_append_left
    unfold stageTables at hrun
    obtain ⟨here, w₁, s₃, hhere, hrun⟩ := ok_of_run_bind_with hrun fun e w₁ s₃ hc => by cases hc
    obtain ⟨more, w₂, s₄, hrest, hrun⟩ := ok_of_run_bind_with hrun fun e w₂ s₄ hc => by cases hc
    cases hrun
    obtain ⟨hprepared', hremovals⟩ := stageTable_ok hprepared hseparate
      (hpaths entry List.mem_cons_self) hwritten hfirst hhere
    have hwritten' : ∀ f ∈ written ++ encodeAll (s.documents policy entry), f.1 ∈ paths := by
      intro f hf
      rcases List.mem_append.mp hf with hf | hf
      · exact hwritten f hf
      · obtain ⟨g, hg, rfl⟩ := List.mem_map.mp hf
        exact hpaths entry List.mem_cons_self _ (mem_filePaths_of_mem_documents hg)
    obtain ⟨hall, hremovals'⟩ := ih hprepared'
      (fun other hother => hpaths other (List.mem_cons_of_mem _ hother)) hwritten' hdistinct hrest
    refine ⟨hall, ?_⟩
    rw [hremovals', hremovals, List.flatMap_cons, List.append_assoc]

variable (M) in
/-- What a table's files hold once they are committed: its texts, and a side file when there is one
and no other. -/
structure Held (s : LocaleStore) (policy : MarkerPolicy) (s₀ : σ) (entry : String × LocaleTable) :
    Prop where
  text : M.node? s₀ (s.textPath entry.1) = some (.file (encode (entry.2.render policy)))
  listed : HasSide policy entry.2 →
    M.node? s₀ (s.sidePath entry.1) = some (.file (encode (.ofStrings entry.2.fallback)))
  unlisted : ¬ HasSide policy entry.2 → M.node? s₀ (s.sidePath entry.1) = none

variable (M) in
/-- The files of tables are staged, and nothing else. -/
structure Staged (s : LocaleStore) (policy : MarkerPolicy) (tables : Fields LocaleTable) (s₀ : σ)
    (w : StagedWrites) (s₁ : σ) : Prop where
  languages : ∀ language ∈ Fields.names tables, IsLanguage language
  distinct : (Fields.names tables).Nodup
  separate : M.Separate ((Fields.names tables).flatMap s.filePaths)
  prepared : M.Prepared s₀ (encodeAll (tables.flatMap (s.documents policy))) w s₁
  removals : w.removals = tables.flatMap (stale M s policy s₀)

theorem mem_filePaths_of_mem_tables (hentry : entry ∈ tables) {path : String}
    (hpath : path ∈ s.filePaths entry.1) : path ∈ (Fields.names tables).flatMap s.filePaths :=
  List.mem_flatMap.mpr ⟨entry.1, List.mem_map_of_mem hentry, hpath⟩

theorem Staged.places_nodup (h : Staged M s policy tables s₀ w s₁) :
    ((encodeAll (tables.flatMap (s.documents policy))).map fun f =>
      Path.components f.1).Nodup := by
  rw [encodeAll, List.map_map]
  exact nodup_documents h.languages h.distinct

theorem staged_tables (hlanguages : ∀ language ∈ Fields.names tables, IsLanguage language)
    (hdistinct : (Fields.names tables).Nodup)
    (hseparate : M.Separate ((Fields.names tables).flatMap s.filePaths))
    (hrun : (s.stageTables policy tables {} : StateM σ _).run s₀ = ((.ok targets, w), s₁)) :
    Staged M s policy tables s₀ w s₁ := by
  have hplaces : (([] ++ encodeAll (tables.flatMap (s.documents policy))).map
      fun f : String × ByteArray => Path.components f.1).Nodup := by
    rw [List.nil_append, encodeAll, List.map_map]
    exact nodup_documents hlanguages hdistinct
  obtain ⟨hprepared, hremovals⟩ := stageTables_ok .start hseparate
    (fun entry hentry path => mem_filePaths_of_mem_tables hentry)
    (fun f hf => absurd hf List.not_mem_nil) hplaces hrun
  exact ⟨hlanguages, hdistinct, hseparate, hprepared, hremovals⟩

theorem Staged.mem_displaced (h : Staged M s policy tables s₀ w s₁) {path : String}
    (hpath : path ∈ w.displaced) :
    (∃ f ∈ tables.flatMap (s.documents policy), path = f.1) ∨
      ∃ entry ∈ tables, path ∈ stale M s policy s₀ entry := by
  rcases List.mem_append.mp hpath with hpath | hpath
  · rw [h.prepared.staged, encodeAll, List.map_map, List.map_map] at hpath
    obtain ⟨f, hf, rfl⟩ := List.mem_map.mp hpath
    exact .inl ⟨f, hf, rfl⟩
  · rw [h.removals] at hpath
    exact .inr (List.mem_flatMap.mp hpath)

theorem Staged.separate_displaced (h : Staged M s policy tables s₀ w s₁) :
    M.Separate w.displaced := by
  apply h.separate.mono
  intro path hpath
  rcases h.mem_displaced hpath with ⟨f, hf, rfl⟩ | ⟨entry, hentry, hstale⟩
  · obtain ⟨entry, hentry, hf⟩ := List.mem_flatMap.mp hf
    exact mem_filePaths_of_mem_tables hentry (mem_filePaths_of_mem_documents hf)
  · rw [(mem_stale hstale).2.2]
    exact mem_filePaths_of_mem_tables hentry (sidePath_mem s entry.1)

/-- A commit that succeeds replaces the files of tables, of which there are some, whatever
directories are in their way. -/
theorem Staged.replaced (h : Staged M s policy tables s₀ w s₁) (hM : M.MovesDirectories)
    (hentry : entry ∈ tables) (hcommit : (w.commit : StateM σ _).run s₁ = (.ok targets, s₂)) :
    M.Replaced w (M.holds s₁) (M.holds s₂) := by
  apply FileMap.commit_replaces hM (h.prepared.startable h.places_nodup h.separate_displaced) _
    hcommit
  have hmem := List.mem_flatMap.mpr ⟨entry, hentry, text_mem_documents s policy entry⟩
  exact List.ne_nil_of_mem (h.prepared.mem_staged (List.mem_map_of_mem hmem))

theorem Staged.document (h : Staged M s policy tables s₀ w s₁)
    (hreplaced : M.Replaced w (M.holds s₁) (M.holds s₂)) (hentry : entry ∈ tables)
    {path : String} {v : Json} (hf : (path, v) ∈ s.documents policy entry) :
    M.node? s₂ path = some (.file (encode v)) := by
  have hmem : (path, v) ∈ tables.flatMap (s.documents policy) :=
    List.mem_flatMap.mpr ⟨entry, hentry, hf⟩
  have hwritten : (path, encode v) ∈ encodeAll (tables.flatMap (s.documents policy)) :=
    List.mem_map.mpr ⟨_, hmem, rfl⟩
  exact h.prepared.node?_of_mem h.places_nodup h.separate_displaced hreplaced hwritten

theorem Staged.no_side (h : Staged M s policy tables s₀ w s₁)
    (hreplaced : M.Replaced w (M.holds s₁) (M.holds s₂)) (hentry : entry ∈ tables)
    (hside : ¬ HasSide policy entry.2) : M.node? s₂ (s.sidePath entry.1) = none := by
  have hne : ∀ f ∈ tables.flatMap (s.documents policy),
      Path.components (s.sidePath entry.1) ≠ Path.components f.1 := fun f hf =>
    document_ne_side h.languages h.distinct hentry hside hf
  -- a side file that was there is removed by the commit, and one that was not is not written
  by_cases hthere : (M.node? s₀ (s.sidePath entry.1)).isSome
  · apply h.prepared.node?_of_removal hreplaced
    · rw [h.removals]
      refine List.mem_flatMap.mpr ⟨entry, hentry, ?_⟩
      rw [stale, if_pos ⟨hside, hthere⟩]
      exact List.mem_singleton_self _
    · intro f hf
      obtain ⟨g, hg, rfl⟩ := List.mem_map.mp hf
      exact hne g hg
  · have hframe : M.node? s₂ (s.sidePath entry.1) = M.node? s₀ (s.sidePath entry.1) := by
      apply h.prepared.node?_of_apart h.places_nodup h.separate_displaced hreplaced
      intro path hpath
      have hentry' := mem_filePaths_of_mem_tables hentry (sidePath_mem s entry.1)
      rcases h.mem_displaced hpath with ⟨f, hf, rfl⟩ | ⟨other, hother, hstale⟩
      · obtain ⟨other, hother, hf'⟩ := List.mem_flatMap.mp hf
        have hpath' := mem_filePaths_of_mem_tables hother (mem_filePaths_of_mem_documents hf')
        exact ⟨hne f hf, fun ending hending =>
          (h.separate.apart _ hpath' _ hentry' ending hending).symm⟩
      · obtain ⟨-, hsome, rfl⟩ := mem_stale hstale
        have hpath' := mem_filePaths_of_mem_tables hother (sidePath_mem s other.1)
        refine ⟨?_, fun ending hending => (h.separate.apart _ hpath' _ hentry' ending hending).symm⟩
        intro heq
        have hsame := (filePaths_inj (h.languages _ (List.mem_map_of_mem hentry))
          (h.languages _ (List.mem_map_of_mem hother)) (sidePath_mem s entry.1)
          (sidePath_mem s other.1) heq).2
        rw [← hsame] at hsome
        exact hthere hsome
    rw [hframe]
    exact Option.not_isSome_iff_eq_none.mp hthere

theorem Staged.held (h : Staged M s policy tables s₀ w s₁) (hM : M.MovesDirectories)
    (hcommit : (w.commit : StateM σ _).run s₁ = (.ok targets, s₂)) (hentry : entry ∈ tables) :
    Held M s policy s₂ entry := by
  have hreplaced := h.replaced hM hentry hcommit
  exact ⟨h.document hreplaced hentry (text_mem_documents s policy entry),
    fun hside => h.document hreplaced hentry (side_mem_documents s hside),
    h.no_side hreplaced hentry⟩

end Staging

end RadioDriver.LocaleStore
