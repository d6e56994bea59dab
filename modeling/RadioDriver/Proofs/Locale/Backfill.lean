import Mathlib.Data.List.Nodup
import RadioDriver.Proofs.Locale.Clean
import RadioDriver.Proofs.Locale.Filling

namespace RadioDriver

namespace Backfill

/-- A path begins with the name of the namespace, if there is one, and a dot. -/
def Under (space : Option String) (path : String) : Prop :=
  ∃ name ∈ space, (name ++ ".").toList <+: path.toList

instance (space : Option String) (path : String) : Decidable (Under space path) :=
  inferInstanceAs (Decidable (∃ name ∈ space, (name ++ ".").toList <+: path.toList))

/-- The paths that want a text: those that a device tree names, then those of the texts built in for
the default language that lie under the namespace and that the tree does not name. -/
def wantedPaths (tree : Json) (builtin : Catalog) (space : Option String) : List String :=
  let texts := (builtin.get? defaultLanguage).elim [] LocaleTable.leaves
  KeyPath.keyPaths tree ++
    (texts.map (·.1)).filter fun path => Under space path ∧ path ∉ KeyPath.keyPaths tree

theorem pathsOf_eq_wantedPaths (tree : Json) (builtin : Catalog) (space : Option String) :
    pathsOf tree builtin space = wantedPaths tree builtin space := by
  unfold pathsOf wantedPaths
  cases space with
  | none => simp [Under]
  | some space =>
    unfold runtimePaths
    cases builtin.get? defaultLanguage with
    | none => rfl
    | some table =>
      dsimp only [Option.elim]
      rw [List.append_cancel_left_eq]
      apply List.filter_congr
      intro path _
      simp [Under, Text.startsWith, ← List.isPrefixOf_iff_prefix]

theorem mem_wantedPaths {tree : Json} {builtin : Catalog} {space : Option String} {path : String}
    (h : Readable builtin) :
    path ∈ wantedPaths tree builtin space ↔ path ∈ KeyPath.keyPaths tree ∨ Under space path ∧
      ∃ table, builtin.get? defaultLanguage = some table ∧ (table.text? path).isSome := by
  unfold wantedPaths
  cases htable : builtin.get? defaultLanguage with
  | none => simp
  | some table =>
    have hleaf : path ∈ table.leaves.map (·.1) ↔ (table.text? path).isSome := by
      rw [List.mem_map, Option.isSome_iff_exists]
      constructor
      · rintro ⟨⟨place, text⟩, hmem, rfl⟩
        exact ⟨text, (LocaleTable.mem_leaves (h table htable)).mp hmem⟩
      · rintro ⟨text, htext⟩
        exact ⟨(path, text), (LocaleTable.mem_leaves (h table htable)).mpr htext, rfl⟩
    by_cases hnamed : path ∈ KeyPath.keyPaths tree
    · simp [hnamed]
    · simp [hnamed, hleaf, and_comm]

/-- One of the paths lies below another. -/
def Nested (paths : List String) : Prop :=
  ∃ path ∈ paths, ∃ other ∈ paths, path ≠ other ∧
    LocaleTable.segments path <+: LocaleTable.segments other

/-- One of the paths is obstructed in one of the languages. -/
def Blocked (tables : Fields LocaleTable) (paths : List String) : Prop :=
  ∃ t ∈ tables, ∃ path ∈ paths, t.2.Obstructed path

/-- What filling paths does to the table of a language. -/
structure Completes (builtin : Catalog) (paths : List String) (language : String)
    (t t' : LocaleTable) : Prop where
  value : ∀ path ∈ paths, t'.get? path = some (cell builtin path language t).1
  provenance : ∀ path ∈ paths, t'.provenance? path = (cell builtin path language t).2
  text_of_not_mem : ∀ other, other ∉ paths → t'.text? other = t.text? other
  provenance_of_not_mem : ∀ other, other ∉ paths → t'.provenance? other = t.provenance? other
  get?_of_apart : ∀ other, (∀ path ∈ paths, LocaleTable.Apart path other) →
    t'.get? other = t.get? other

/-- How filling paths that do not lie below one another may end. -/
inductive FillsPaths (builtin : Catalog) (paths : List String) (tables : Fields LocaleTable) :
    Except LocaleError (Fields LocaleTable × List MissingText) → Prop
  | fills {tables' : Fields LocaleTable} (h : Tablewise (Completes builtin paths) tables tables')
    (hfree : ¬ Blocked tables paths) :
    FillsPaths builtin paths tables
      (.ok (tables', paths.flatMap fun path => missingIn builtin path tables))
  | collides (leaf place : String) (h : Blocked tables paths) :
    FillsPaths builtin paths tables (.error (.collision leaf place))

variable {builtin : Catalog} {path language : String} {paths rest : List String}
  {tables tables' : Fields LocaleTable} {t t' t'' : LocaleTable}

theorem apart_of_not_nested (h : ¬ Nested (path :: rest)) {other : String} (ho : other ∈ rest)
    (hne : other ≠ path) : LocaleTable.Apart path other := by
  constructor
  · intro hpre
    exact h ⟨path, List.mem_cons_self, other, List.mem_cons_of_mem path ho, hne.symm, hpre⟩
  · intro hpre
    exact h ⟨other, List.mem_cons_of_mem path ho, path, List.mem_cons_self, hne, hpre⟩

theorem not_nested_tail (h : ¬ Nested (path :: rest)) : ¬ Nested rest := by
  rintro ⟨a, ha, b, hb, hne, hpre⟩
  exact h ⟨a, List.mem_cons_of_mem path ha, b, List.mem_cons_of_mem path hb, hne, hpre⟩

theorem Completes.cons (hnew : path ∉ rest)
    (hapart : ∀ other ∈ rest, LocaleTable.Apart path other)
    (h : Fills builtin path language t t') (hrest : Completes builtin rest language t' t'') :
    Completes builtin (path :: rest) language t t'' := by
  have hne : ∀ other ∈ rest, other ≠ path := fun other ho heq => hnew (heq ▸ ho)
  constructor
  · -- a cell may hold null, so that its text alone would not show it unchanged
    intro p hp
    rcases List.mem_cons.mp hp with rfl | hp
    · rw [hrest.get?_of_apart p fun other ho => (hapart other ho).symm]
      exact h.value
    · rw [← h.cell_of_ne (hne p hp)]
      exact hrest.value p hp
  · intro p hp
    rcases List.mem_cons.mp hp with rfl | hp
    · rw [hrest.provenance_of_not_mem p hnew]
      exact h.provenance
    · rw [← h.cell_of_ne (hne p hp)]
      exact hrest.provenance p hp
  · intro other ho
    rw [hrest.text_of_not_mem other (List.not_mem_of_not_mem_cons ho),
      h.text_of_ne other (List.ne_of_not_mem_cons ho)]
  · intro other ho
    rw [hrest.provenance_of_not_mem other (List.not_mem_of_not_mem_cons ho),
      h.provenance?_of_ne (List.ne_of_not_mem_cons ho)]
  · intro other ha
    rw [hrest.get?_of_apart other fun p hp => ha p (List.mem_cons_of_mem path hp),
      h.get?_of_apart other (ha path List.mem_cons_self)]

theorem fillPaths_cons (builtin : Catalog) (path : String) (rest : List String)
    (tables : Fields LocaleTable) :
    (∃ leaf place, fillPaths builtin (path :: rest) tables = .error (.collision leaf place) ∧
        ∃ t ∈ tables, t.2.Obstructed path) ∨
      ∃ middle, Tablewise (Fills builtin path) tables middle ∧
        fillPaths builtin (path :: rest) tables =
          (fillPaths builtin rest middle).map fun out =>
            (out.1, missingIn builtin path tables ++ out.2) := by
  have hhere := fillPath_fills builtin path tables
  simp only [fillPaths, bind, Except.bind]
  generalize fillPath builtin path tables = here at hhere
  cases hhere with
  | collides leaf place h => exact .inl ⟨leaf, place, rfl, h⟩
  | @fills middle h =>
    refine .inr ⟨middle, h, ?_⟩
    dsimp only
    cases fillPaths builtin rest middle <;> rfl

/-- Paths that do not lie below one another are filled unless one of them is obstructed. They are
filled one after another in tables that earlier paths have changed, and the outcome is still that of
each path alone. -/
theorem fillPaths_fills (builtin : Catalog) (hnest : ¬ Nested paths) (hnodup : paths.Nodup)
    (tables : Fields LocaleTable) :
    FillsPaths builtin paths tables (fillPaths builtin paths tables) := by
  induction paths generalizing tables with
  | nil =>
    have hid : Tablewise (Completes builtin []) tables tables := by
      apply Tablewise.refl
      intro language t
      exact ⟨by simp, by simp, fun _ _ => rfl, fun _ _ => rfl, fun _ _ => rfl⟩
    apply FillsPaths.fills hid
    rintro ⟨t, -, path, hpath, -⟩
    cases hpath
  | cons path rest ih =>
    obtain ⟨hnew, hrest⟩ := List.nodup_cons.mp hnodup
    have hapart : ∀ other ∈ rest, LocaleTable.Apart path other := by
      intro other ho
      apply apart_of_not_nested hnest ho
      rintro rfl
      exact hnew ho
    rcases fillPaths_cons builtin path rest tables with
      ⟨leaf, place, heq, t, ht, hobs⟩ | ⟨middle, hmiddle, heq⟩
    · rw [heq]
      exact .collides leaf place ⟨t, ht, path, List.mem_cons_self, hobs⟩
    have hothers := ih (not_nested_tail hnest) hrest middle
    rw [heq]
    generalize fillPaths builtin rest middle = others at hothers
    cases hothers with
    | collides leaf place h =>
      -- filling the first path put nothing in the way of the others, so they were obstructed before
      obtain ⟨t', ht', other, ho, hobs⟩ := h
      obtain ⟨t, ht, hfills⟩ := hmiddle.exists_of_mem_right ht'
      have hbefore := (hfills.obstructed_of_apart other (hapart other ho)).mp hobs
      exact .collides leaf place ⟨_, ht, other, List.mem_cons_of_mem path ho, hbefore⟩
    | @fills tables' hcompletes hfree =>
      have hall : Tablewise (Completes builtin (path :: rest)) tables tables' :=
        hmiddle.comp hcompletes fun _ _ _ _ => Completes.cons hnew hapart
      have hmissing : (rest.flatMap fun other => missingIn builtin other middle) =
          rest.flatMap fun other => missingIn builtin other tables := by
        apply List.flatMap_congr
        intro other ho
        exact missingIn_of_ne hmiddle fun heq => hnew (heq ▸ ho)
      have hopen : ¬ Blocked tables (path :: rest) := by
        rintro ⟨t, ht, other, ho, hobs⟩
        obtain ⟨t', ht', hfills⟩ := hmiddle.exists_of_mem ht
        rcases List.mem_cons.mp ho with rfl | ho
        · exact hfills.free hobs
        · have hafter := (hfills.obstructed_of_apart other (hapart other ho)).mpr hobs
          exact hfree ⟨_, ht', other, ho, hafter⟩
      have hdone := FillsPaths.fills hall hopen
      rw [List.flatMap_cons, ← hmissing] at hdone
      exact hdone

/-- The table keeps the texts at other paths and, in the default language, has one at each. -/
structure Sweeps (paths : List String) (language : String) (t t' : LocaleTable) : Prop where
  text_of_not_mem : ∀ other, other ∉ paths → t'.text? other = t.text? other
  text_isSome : language = defaultLanguage → ∀ path ∈ paths, (t'.text? path).isSome

theorem fillPaths_error {e : LocaleError} (h : fillPaths builtin paths tables = .error e) :
    ∃ leaf place, e = .collision leaf place := by
  induction paths generalizing tables with
  | nil => cases h
  | cons path rest ih =>
    rcases fillPaths_cons builtin path rest tables with
      ⟨leaf, place, heq, -⟩ | ⟨middle, -, heq⟩
    · rw [heq] at h
      cases h
      exact ⟨leaf, place, rfl⟩
    · rw [heq] at h
      cases hrest : fillPaths builtin rest middle with
      | error e' =>
        rw [hrest] at h
        cases h
        exact ih hrest
      | ok out =>
        rw [hrest] at h
        cases h

theorem fillPaths_sweeps {missing : List MissingText}
    (h : fillPaths builtin paths tables = .ok (tables', missing)) :
    Tablewise (Sweeps paths) tables tables' := by
  induction paths generalizing tables missing with
  | nil =>
    cases h
    apply Tablewise.refl
    intro language t
    exact ⟨fun _ _ => rfl, by simp⟩
  | cons path rest ih =>
    rcases fillPaths_cons builtin path rest tables with
      ⟨leaf, place, heq, -⟩ | ⟨middle, hmiddle, heq⟩
    · rw [heq] at h
      cases h
    rw [heq] at h
    cases hrest : fillPaths builtin rest middle with
    | error e =>
      rw [hrest] at h
      cases h
    | ok out =>
      rw [hrest] at h
      cases h
      apply hmiddle.comp (ih hrest)
      intro language t t' t'' hfills hsweeps
      constructor
      · intro other ho
        rw [hsweeps.text_of_not_mem other (List.not_mem_of_not_mem_cons ho),
          hfills.text_of_ne other (List.ne_of_not_mem_cons ho)]
      · intro hd p hp
        -- a later path leaves the text alone, unless it is the same path and fills it again
        by_cases hmem : p ∈ rest
        · exact hsweeps.text_isSome hd p hmem
        · have heq : p = path := (List.mem_cons.mp hp).resolve_right hmem
          subst heq
          rw [hsweeps.text_of_not_mem p hmem]
          exact hfills.text?_isSome hd

/-- Paths below one another are never all filled: the default language would have a text at each. -/
theorem not_nested_of_fillPaths {missing : List MissingText}
    (hd : defaultLanguage ∈ Fields.names tables)
    (h : fillPaths builtin paths tables = .ok (tables', missing)) : ¬ Nested paths := by
  rintro ⟨path, hp, other, ho, hne, hpre⟩
  obtain ⟨⟨language, t⟩, ht, heq⟩ := List.mem_map.mp hd
  obtain ⟨t', -, hsweeps⟩ := (fillPaths_sweeps h).exists_of_mem ht
  exact LocaleTable.not_prefix_of_text? (hsweeps.text_isSome heq path hp)
    (hsweeps.text_isSome heq other ho) hne hpre

theorem mem_missingIn {m : MissingText} (h : m ∈ missingIn builtin path tables) :
    m.path = path ∧ m.language ≠ defaultLanguage := by
  obtain ⟨t, ht, rfl⟩ := List.mem_map.mp h
  have hmissing := (List.mem_filter.mp ht).2
  simp only [isMissing, Bool.and_eq_true, decide_eq_true_eq] at hmissing
  exact ⟨rfl, hmissing.2⟩

theorem missingIn_nodup (h : (Fields.names tables).Nodup) :
    (missingIn builtin path tables).Nodup := by
  apply List.Nodup.of_map MissingText.language
  have hlanguages : (missingIn builtin path tables).map MissingText.language =
      (tables.filter fun t => isMissing builtin path t.1 t.2).map (·.1) := by
    unfold missingIn
    rw [List.map_map]
    rfl
  rw [hlanguages]
  exact h.sublist (List.filter_sublist.map _)

theorem missing_nodup (hpaths : paths.Nodup) (h : (Fields.names tables).Nodup) :
    (paths.flatMap fun path => missingIn builtin path tables).Nodup := by
  -- reports of one path differ in the language, those of two paths in the path
  rw [List.nodup_flatMap]
  constructor
  · intro path _
    exact missingIn_nodup h
  · refine hpaths.imp ?_
    intro path other hne m hm hm'
    exact hne ((mem_missingIn hm).1.symm.trans (mem_missingIn hm').1)

end Backfill

namespace Catalog

/-- A project with paths filled, and the texts it misses: by path, then by language. -/
structure Filled (project builtin : Catalog) (paths : List String) (filled : Catalog)
    (missing : List MissingText) : Prop where
  languages_eq : filled.languages = project.languages
  completes : ∀ language t, project.get? language = some t →
    ∃ t', filled.get? language = some t' ∧ Backfill.Completes builtin paths language t t'
  missing_eq : missing = paths.flatMap fun path => Backfill.missingIn builtin path project.tables
  missing_nodup : missing.Nodup
  missing_ne_default : ∀ m ∈ missing, m.language ≠ defaultLanguage

variable {project builtin filled : Catalog} {tree : Json} {space : Option String}

theorem fillPaths_of_backfill (project builtin : Catalog) (tree : Json) (space : Option String) :
    Backfill.fillPaths builtin (Backfill.pathsOf tree builtin space) project.tables =
      (project.backfill builtin tree space).map fun out => (out.1.tables, out.2) := by
  unfold backfill
  split
  · next e h => exact h
  · next tables missing h => exact h

theorem backfill_of_error {e : LocaleError} (h : project.backfill builtin tree space = .error e)
    (hnodup : (Backfill.pathsOf tree builtin space).Nodup) :
    (Backfill.Nested (Backfill.pathsOf tree builtin space) ∨
        Backfill.Blocked project.tables (Backfill.pathsOf tree builtin space)) ∧
      ∃ leaf place, e = .collision leaf place := by
  have hrun := fillPaths_of_backfill project builtin tree space
  rw [h] at hrun
  refine ⟨?_, Backfill.fillPaths_error hrun⟩
  by_cases hnest : Backfill.Nested (Backfill.pathsOf tree builtin space)
  · exact .inl hnest
  · have hfills := Backfill.fillPaths_fills builtin hnest hnodup project.tables
    rw [hrun] at hfills
    cases hfills with
    | collides leaf place hblocked => exact .inr hblocked

theorem backfill_of_ok {missing : List MissingText}
    (h : project.backfill builtin tree space = .ok (filled, missing))
    (hnodup : (Backfill.pathsOf tree builtin space).Nodup) :
    ¬ Backfill.Nested (Backfill.pathsOf tree builtin space) ∧
      ¬ Backfill.Blocked project.tables (Backfill.pathsOf tree builtin space) ∧
      Filled project builtin (Backfill.pathsOf tree builtin space) filled missing := by
  have hrun := fillPaths_of_backfill project builtin tree space
  rw [h] at hrun
  have hnest := Backfill.not_nested_of_fillPaths project.default_mem hrun
  have hfills := Backfill.fillPaths_fills builtin hnest hnodup project.tables
  rw [hrun] at hfills
  dsimp only [Except.map] at hfills
  generalize htables : filled.tables = tables at hfills
  cases hfills with
  | fills hcompletes hfree =>
    refine ⟨hnest, hfree, ?_, ?_, rfl, ?_, ?_⟩
    · rw [languages, htables]
      exact hcompletes.names
    · intro language t ht
      rw [get?, htables]
      exact hcompletes.get? ht
    · exact Backfill.missing_nodup hnodup project.languages_nodup
    · intro m hm
      obtain ⟨path, -, hm⟩ := List.mem_flatMap.mp hm
      exact (Backfill.mem_missingIn hm).2

/-- Filling fails just when a wanted path lies below another or is obstructed in a language, always
with a collision. Otherwise every language has at every wanted path what its cell says, and no other
text is changed. -/
theorem backfill_spec (project : Catalog) {builtin : Catalog} (hbuiltin : Backfill.Readable builtin)
    (tree : Json) (space : Option String) :
    let paths := Backfill.wantedPaths tree builtin space
    (∀ path, path ∈ paths ↔ path ∈ KeyPath.keyPaths tree ∨ Backfill.Under space path ∧
        ∃ table, builtin.get? defaultLanguage = some table ∧ (table.text? path).isSome) ∧
      ((∃ e, project.backfill builtin tree space = .error e) ↔
        Backfill.Nested paths ∨ Backfill.Blocked project.tables paths) ∧
      (∀ e, project.backfill builtin tree space = .error e →
        ∃ leaf place, e = .collision leaf place) ∧
      ∀ filled missing, project.backfill builtin tree space = .ok (filled, missing) →
        Filled project builtin paths filled missing := by
  have hnodup := Backfill.pathsOf_nodup tree hbuiltin space
  intro paths
  have hpaths : Backfill.pathsOf tree builtin space = paths :=
    Backfill.pathsOf_eq_wantedPaths tree builtin space
  refine ⟨fun path => Backfill.mem_wantedPaths hbuiltin, ⟨?_, ?_⟩, ?_, ?_⟩
  · rintro ⟨e, h⟩
    rw [← hpaths]
    exact (backfill_of_error h hnodup).1
  · intro h
    rw [← hpaths] at h
    cases hout : project.backfill builtin tree space with
    | error e => exact ⟨e, rfl⟩
    | ok out =>
      obtain ⟨hnest, hfree, -⟩ := backfill_of_ok hout hnodup
      rcases h with h | h
      · exact absurd h hnest
      · exact absurd h hfree
  · intro e h
    exact (backfill_of_error h hnodup).2
  · intro filled missing h
    rw [← hpaths]
    exact (backfill_of_ok h hnodup).2.2

def titledDevice : Json := .object [("title", .string "views.done.title")]

def screens : Catalog :=
  empty.insert defaultLanguage ⟨[("lamp", .object [("name", .string "Lamp")]),
    ("views", .object [("done", .object [("title", .string "Done"), ("body", .string "Well")])])],
    []⟩

/-- The device names the title and the namespace brings the body, both of which Dutch misses. -/
theorem backfill_views :
    Backfill.Readable screens ∧
      Backfill.wantedPaths titledDevice screens (some "views") =
        ["views.done.title", "views.done.body"] ∧
      ∃ filled, (empty.insert "nl" {}).backfill screens titledDevice (some "views") =
          .ok (filled, [⟨"nl", "views.done.title"⟩, ⟨"nl", "views.done.body"⟩]) ∧
        Filled (empty.insert "nl" {}) screens
          (Backfill.wantedPaths titledDevice screens (some "views")) filled
          [⟨"nl", "views.done.title"⟩, ⟨"nl", "views.done.body"⟩] := by
  have hreadable : Backfill.Readable screens := by
    intro table h
    cases h
    decide +kernel
  have hwanted : Backfill.wantedPaths titledDevice screens (some "views") =
      ["views.done.title", "views.done.body"] := by decide +kernel
  refine ⟨hreadable, hwanted, _, rfl, ?_⟩
  exact (backfill_spec (empty.insert "nl" {}) hreadable titledDevice (some "views")).2.2.2 _ _ rfl

end Catalog

end RadioDriver
