import RadioDriver.Proofs.Disk.FileMap

namespace RadioDriver

open StagedWrites

theorem isEnding_tmp : Path.IsEnding ".tmp" := by
  unfold Path.IsEnding
  decide

theorem isEnding_bak : Path.IsEnding ".bak" := by
  unfold Path.IsEnding
  decide

theorem components_temporary_inj {path other : String}
    (h : Path.components (Path.sibling path ".tmp") = Path.components (Path.sibling other ".tmp")) :
    Path.components path = Path.components other :=
  (Path.components_sibling_inj isEnding_tmp isEnding_tmp h).1

theorem components_backup_inj {path other : String}
    (h : Path.components (Path.sibling path ".bak") = Path.components (Path.sibling other ".bak")) :
    Path.components path = Path.components other :=
  (Path.components_sibling_inj isEnding_bak isEnding_bak h).1

theorem temporary_ne_backup (path other : String) :
    Path.components (Path.sibling path ".tmp") ≠ Path.components (Path.sibling other ".bak") :=
  fun heq => absurd (Path.components_sibling_inj isEnding_tmp isEnding_bak heq).2 (by decide)

def StagedFile.rename (f : StagedFile) : String × String := (f.temporary, f.target)

def Displaced.rename (d : Displaced) : String × String := (d.target, d.backup)

def Displaced.renameBack (d : Displaced) : String × String := (d.backup, d.target)

namespace FileMap

variable {σ : Type} [Files (StateM σ)] (M : FileMap σ)

section Steps

variable {rest : List String} {aside : List Displaced}

theorem displace_cons {path : String} (s : σ) (h : M.covers path) :
    (displace (path :: rest) aside : StateM σ _).run s =
      if (M.node? s path).isSome then
        match (Files.rename path (Path.sibling path ".bak") : StateM σ _).run s with
        | (.ok (), s) =>
          (displace rest (aside ++ [⟨Path.sibling path ".bak", path⟩]) : StateM σ _).run s
        | (.error e, s) => ((.error ⟨path, e⟩, aside), s)
      else (displace rest aside : StateM σ _).run s := by
  rw [displace, run_bind_state, exists?_run M s h]
  split
  · rw [run_bind_state]
    rcases (Files.rename path (Path.sibling path ".bak") : StateM σ _).run s with ⟨r, s'⟩
    cases r <;> rfl
  · rfl

theorem place_cons {file : StagedFile} {files : List StagedFile} {placed : List String} (s : σ) :
    (place (file :: files) placed : StateM σ _).run s =
      match (Files.rename file.temporary file.target : StateM σ _).run s with
      | (.ok (), s) => (place files (placed ++ [file.target]) : StateM σ _).run s
      | (.error e, s) => ((.error ⟨file.target, e⟩, placed), s) := by
  rw [place, run_bind_state]
  rcases (Files.rename file.temporary file.target : StateM σ _).run s with ⟨r, s'⟩
  cases r <;> rfl

theorem restore_cons {d : Displaced} (s : σ) :
    (restore (d :: aside) : StateM σ _).run s =
      match (Files.rename d.backup d.target : StateM σ _).run s with
      | (.ok (), s) => (restore aside : StateM σ _).run s
      | (.error e, s) =>
        (⟨d.target, e⟩ :: ((restore aside : StateM σ _).run s).1,
          ((restore aside : StateM σ _).run s).2) := by
  rw [restore, run_bind_state]
  rcases (Files.rename d.backup d.target : StateM σ _).run s with ⟨r, s'⟩
  cases r <;> rfl

end Steps

/-- Some of the files at `paths` are moved to their backups, and nothing else has changed. -/
structure SetAside (paths : List String) (before : Places) (s : σ) (aside : List Displaced) :
    Prop where
  moves : Moves (aside.map Displaced.rename) before (M.holds s)
  backup : ∀ d ∈ aside, d.target ∈ paths ∧ d.backup = Path.sibling d.target ".bak" ∧
    M.takes d.target = true ∧ M.takes d.backup = true
  distinct : (aside.map fun d => Path.components d.target).Nodup

/-- Paths of which no backup is another one. -/
structure Separable (paths : List String) : Prop where
  covers : ∀ path ∈ paths, M.covers path ∧ M.covers (Path.sibling path ".bak")
  apart : ∀ path ∈ paths, ∀ other ∈ paths,
    Path.components (Path.sibling path ".bak") ≠ Path.components other

/-- Paths whose files can be set aside: none is a directory besides. -/
structure Displaceable (paths : List String) (before : Places) : Prop
    extends M.Separable paths where
  plain : ∀ path ∈ paths, M.takes path = true →
    before (Path.components path) ≠ some .directory

variable {M} {paths targets : List String} {before : Places} {aside aside' : List Displaced}
  {s s' : σ}

theorem SetAside.start (paths : List String) (s : σ) : M.SetAside paths (M.holds s) s [] := by
  refine ⟨Moves.nil _, ?_, List.nodup_nil⟩
  intro d h
  cases h

theorem SetAside.holds_of_ne (h : M.SetAside paths before s aside) {place : List String}
    (hne : ∀ d ∈ aside, place ≠ Path.components d.target ∧ place ≠ Path.components d.backup) :
    M.holds s place = before place := by
  apply h.moves.frame
  intro r hr
  obtain ⟨d, hd, rfl⟩ := List.mem_map.mp hr
  exact hne d hd

theorem SetAside.not_target (h : M.SetAside paths before s aside)
    (hd : M.Separable paths) {path : String} (hpath : path ∈ paths) :
    ∀ r ∈ aside.map Displaced.rename, Path.components path ≠ Path.components r.2 := by
  intro r hr
  obtain ⟨d, hmem, rfl⟩ := List.mem_map.mp hr
  obtain ⟨htarget, hbackup, -⟩ := h.backup d hmem
  have := hd.apart d.target htarget path hpath
  rw [← hbackup] at this
  exact this.symm

theorem SetAside.plain (h : M.SetAside paths before s aside) (hd : M.Displaceable paths before)
    {path : String} (hpath : path ∈ paths) (htakes : M.takes path = true) :
    M.holds s (Path.components path) ≠ some .directory :=
  h.moves.plain (h.not_target hd.toSeparable hpath) (hd.plain path hpath htakes)

theorem SetAside.step (h : M.SetAside paths before s aside) (hd : M.Separable paths)
    {path : String} (hpath : path ∈ paths)
    (hmoved : M.Moved path (Path.sibling path ".bak") s s') :
    M.SetAside paths before s' (aside ++ [⟨Path.sibling path ".bak", path⟩]) := by
  have hsource := h.moves.not_source hmoved.ne_none
  refine ⟨?_, ?_, ?_⟩
  · rw [hmoved.holds, List.map_append]
    refine h.moves.snoc hmoved.ne_none (h.not_target hd hpath) ?_
      (hd.apart path hpath path hpath).symm
    intro r hr
    have hother := hsource r hr
    obtain ⟨d, hmem, rfl⟩ := List.mem_map.mp hr
    obtain ⟨htarget, hbackup', -⟩ := h.backup d hmem
    refine ⟨hd.apart path hpath d.target htarget, ?_⟩
    -- the backup of another file is another place
    intro heq
    have heq : Path.components (Path.sibling path ".bak") = Path.components d.backup := heq
    rw [hbackup'] at heq
    exact hother (components_backup_inj heq)
  · intro d hmem
    rcases List.mem_append.mp hmem with hmem | hmem
    · exact h.backup d hmem
    · rw [List.mem_singleton.mp hmem]
      exact ⟨hpath, rfl, hmoved.takes_source, hmoved.takes_target⟩
  · rw [List.map_append, List.nodup_append]
    refine ⟨h.distinct, List.pairwise_singleton _ _, ?_⟩
    intro place hplace other hother heq
    obtain ⟨d, hmem, rfl⟩ := List.mem_map.mp hplace
    rw [List.mem_singleton.mp hother] at heq
    exact hsource _ (List.mem_map_of_mem hmem) heq.symm

theorem SetAside.empty (h' : M.SetAside paths before s' aside') (hd : M.Separable paths)
    (h : M.SetAside paths before s aside) (hsub : aside ⊆ aside') {path : String}
    (hpath : path ∈ paths) (hnone : M.holds s (Path.components path) = none) :
    M.holds s' (Path.components path) = none := by
  by_cases hsource : ∃ d ∈ aside', Path.components path = Path.components d.target
  · obtain ⟨d, hmem, heq⟩ := hsource
    rw [heq]
    exact (h'.moves.source d.rename (List.mem_map_of_mem hmem)).1
  · have hframe : ∀ {s : σ} {aside : List Displaced}, M.SetAside paths before s aside →
        aside ⊆ aside' → M.holds s (Path.components path) = before (Path.components path) := by
      intro s aside h hsub
      refine h.moves.frame _ fun r hr => ⟨fun heq => hsource ?_, h.not_target hd hpath r hr⟩
      obtain ⟨d, hmem, rfl⟩ := List.mem_map.mp hr
      exact ⟨d, hsub hmem, heq⟩
    rw [hframe h' (List.Subset.refl _), ← hframe h hsub, hnone]

/-- Setting files aside moves some of them, and all that are there unless it stops at a fault, as
long as no rename leads to a state that is `lost`. -/
theorem displace_run_or (lost : σ → Prop) {r : Except WriteError Unit} (hd : M.Separable paths)
    (hlost : ∀ {s targets} aside, targets ⊆ paths → lost s →
      lost ((displace targets aside : StateM σ _).run s).2)
    (hmoves : ∀ {path s s₁ aside}, path ∈ paths → M.SetAside paths before s aside →
      (Files.rename path (Path.sibling path ".bak") : StateM σ _).run s = (.ok (), s₁) →
        lost s₁ ∨ M.Moved path (Path.sibling path ".bak") s s₁)
    (htargets : targets ⊆ paths) (h : M.SetAside paths before s aside)
    (hrun : (displace targets aside : StateM σ _).run s = ((r, aside'), s')) :
    lost s' ∨ M.SetAside paths before s' aside' ∧ aside ⊆ aside' ∧
      (r = .ok () → ∀ path ∈ targets, M.takes path = true →
        M.holds s' (Path.components path) = none) := by
  induction targets generalizing aside s with
  | nil =>
    cases hrun
    exact .inr ⟨h, List.Subset.refl _, fun _ path hpath => absurd hpath List.not_mem_nil⟩
  | cons path rest ih =>
    have hpath : path ∈ paths := htargets List.mem_cons_self
    have hrest : rest ⊆ paths := fun _ hmem => htargets (List.mem_cons_of_mem path hmem)
    obtain ⟨hcovers, hbackup⟩ := hd.covers path hpath
    rw [M.displace_cons s hcovers] at hrun
    split at hrun
    · next hsome =>
      rcases hrename : (Files.rename path (Path.sibling path ".bak") : StateM σ _).run s
        with ⟨r₁, s₁⟩
      rw [hrename] at hrun
      cases r₁ with
      | error e =>
        have hsame := M.rename_error hcovers hbackup hrename
        cases hrun
        exact .inr ⟨⟨hsame ▸ h.moves, h.backup, h.distinct⟩, List.Subset.refl _,
          fun hc => by cases hc⟩
      | ok u =>
        rcases hmoves hpath h hrename with hend | hmoved
        · have hend := hlost (aside ++ [⟨Path.sibling path ".bak", path⟩]) hrest hend
          rw [show (displace rest _ : StateM σ _).run s₁ = _ from hrun] at hend
          exact .inl hend
        have hstep := h.step hd hpath hmoved
        refine (ih hrest hstep hrun).imp_right ?_
        rintro ⟨hend, hsub, hempty⟩
        refine ⟨hend, fun _ hmem => hsub (List.mem_append_left _ hmem), ?_⟩
        intro hok other hother hother'
        rcases List.mem_cons.mp hother with rfl | hother
        · apply hend.empty hd hstep hsub hpath
          rw [hmoved.holds]
          exact Places.moved_source _ (hd.apart other hpath other hpath).symm
        · exact hempty hok other hother hother'
    · next hnone =>
      refine (ih hrest h hrun).imp_right ?_
      rintro ⟨hend, hsub, hempty⟩
      refine ⟨hend, hsub, ?_⟩
      intro hok other hother hother'
      rcases List.mem_cons.mp hother with rfl | hother
      · apply hend.empty hd h hsub hpath
        rw [← M.node?_of_takes s hother']
        exact Option.not_isSome_iff_eq_none.mp hnone
      · exact hempty hok other hother hother'

theorem displace_run {r : Except WriteError Unit} (hd : M.Displaceable paths before)
    (htargets : targets ⊆ paths) (h : M.SetAside paths before s aside)
    (hrun : (displace targets aside : StateM σ _).run s = ((r, aside'), s')) :
    M.SetAside paths before s' aside' ∧ aside ⊆ aside' ∧
      (r = .ok () → ∀ path ∈ targets, M.takes path = true →
        M.holds s' (Path.components path) = none) := by
  refine (displace_run_or (fun _ => False) hd.toSeparable (fun _ _ hc => hc) ?_ htargets h
    hrun).resolve_left id
  intro path s s₁ aside hpath haside hrename
  obtain ⟨hcovers, hbackup⟩ := hd.covers path hpath
  rcases M.rename_run hcovers hbackup (haside.plain hd hpath) hrename with ⟨e, hc, -⟩ | ⟨-, hmoved⟩
  · cases hc
  · exact .inr hmoved

/-- Renames that can follow one another: no source is a directory or a target, and the targets are
different. A run of them that stops at a fault is a run of fewer moves. -/
structure Movable (renames : List (String × String)) (before : Places) : Prop where
  covers : ∀ r ∈ renames, M.covers r.1 ∧ M.covers r.2
  plain : ∀ r ∈ renames, before (Path.components r.1) ≠ some .directory
  apart : ∀ r ∈ renames, ∀ t ∈ renames, Path.components r.1 ≠ Path.components t.2
  distinct : (renames.map fun r => Path.components r.2).Nodup

theorem Movable.step {done rest : List (String × String)} {source target : String}
    {r : Except OsError Unit} (hm : M.Movable (done ++ (source, target) :: rest) before)
    (h : Moves done before (M.holds s))
    (hrun : (Files.rename source target : StateM σ _).run s = (r, s')) :
    (∃ e, r = .error e ∧ M.holds s' = M.holds s) ∨
      r = .ok () ∧ M.takes target = true ∧
        Moves (done ++ [(source, target)]) before (M.holds s') := by
  have hmem : (source, target) ∈ done ++ (source, target) :: rest :=
    List.mem_append_right _ List.mem_cons_self
  have hearlier : ∀ {t}, t ∈ done → t ∈ done ++ (source, target) :: rest :=
    fun ht => List.mem_append_left _ ht
  have hst : ∀ t ∈ done, Path.components source ≠ Path.components t.2 :=
    fun t ht => hm.apart _ hmem t (hearlier ht)
  have htt : ∀ t ∈ done, Path.components target ≠ Path.components t.1 ∧
      Path.components target ≠ Path.components t.2 := by
    intro t ht
    refine ⟨(hm.apart t (hearlier ht) _ hmem).symm, fun heq => ?_⟩
    have hdistinct := hm.distinct
    rw [List.map_append, List.nodup_append] at hdistinct
    exact hdistinct.2.2 _ (List.mem_map_of_mem ht) _ List.mem_cons_self heq.symm
  obtain ⟨hsource, htarget⟩ := hm.covers _ hmem
  rcases M.rename_run hsource htarget (fun _ => h.plain hst (hm.plain _ hmem)) hrun with
    herror | ⟨hok, hmoved⟩
  · exact .inl herror
  · refine .inr ⟨hok, hmoved.takes_target, ?_⟩
    rw [hmoved.holds]
    exact h.snoc hmoved.ne_none hst htt (hm.apart _ hmem _ hmem)

/-- Putting staged files into place moves the first of them, and all unless it stops at a fault. -/
theorem place_run {done files : List StagedFile} {placed : List String}
    {r : Except WriteError Unit} (hm : M.Movable ((done ++ files).map StagedFile.rename) before)
    (h : Moves (done.map StagedFile.rename) before (M.holds s))
    (htakes : ∀ f ∈ done, M.takes f.target = true)
    (hrun : (place files (done.map (·.target)) : StateM σ _).run s = ((r, placed), s')) :
    ∃ more left, files = more ++ left ∧ (r = .ok () → left = []) ∧
      placed = (done ++ more).map (·.target) ∧
      (∀ f ∈ done ++ more, M.takes f.target = true) ∧
      Moves ((done ++ more).map StagedFile.rename) before (M.holds s') := by
  induction files generalizing done s with
  | nil =>
    cases hrun
    refine ⟨[], [], rfl, fun _ => rfl, ?_⟩
    rw [List.append_nil]
    exact ⟨rfl, htakes, h⟩
  | cons file files ih =>
    have hlist : done ++ file :: files = (done ++ [file]) ++ files := by simp
    have hstep : M.Movable (done.map StagedFile.rename ++ (file.temporary, file.target) ::
        files.map StagedFile.rename) before := by
      rw [List.map_append] at hm
      exact hm
    rw [place_cons] at hrun
    rcases hrename : (Files.rename file.temporary file.target : StateM σ _).run s with ⟨r₁, s₁⟩
    rw [hrename] at hrun
    rcases hstep.step h hrename with ⟨e, rfl, hsame⟩ | ⟨rfl, htarget, hmoves⟩
    · cases hrun
      rw [← hsame] at h
      refine ⟨[], file :: files, rfl, (fun hc => by cases hc), ?_⟩
      rw [List.append_nil]
      exact ⟨rfl, htakes, h⟩
    · have htakes' : ∀ f ∈ done ++ [file], M.takes f.target = true := by
        intro f hf
        rcases List.mem_append.mp hf with hf | hf
        · exact htakes f hf
        · rw [List.mem_singleton.mp hf]
          exact htarget
      have hmoves' : Moves ((done ++ [file]).map StagedFile.rename) before (M.holds s₁) := by
        rw [List.map_append]
        exact hmoves
      have hrun' : (place files ((done ++ [file]).map (·.target)) : StateM σ _).run s₁ =
          ((r, placed), s') := by
        rw [List.map_append]
        exact hrun
      obtain ⟨more, left, hmore, hall, hend⟩ := ih (hlist ▸ hm) hmoves' htakes' hrun'
      refine ⟨file :: more, left, by rw [hmore]; rfl, hall, ?_⟩
      rwa [List.append_assoc] at hend

theorem restore_run {back rest : List Displaced}
    (hm : M.Movable ((back ++ rest).map Displaced.renameBack) before)
    (h : Moves (back.map Displaced.renameBack) before (M.holds s))
    (hrun : (restore rest : StateM σ _).run s = ([], s')) :
    Moves ((back ++ rest).map Displaced.renameBack) before (M.holds s') := by
  induction rest generalizing back s with
  | nil =>
    cases hrun
    rwa [List.append_nil]
  | cons d rest ih =>
    have hlist : back ++ d :: rest = (back ++ [d]) ++ rest := by simp
    have hstep : M.Movable (back.map Displaced.renameBack ++ (d.backup, d.target) ::
        rest.map Displaced.renameBack) before := by
      rw [List.map_append] at hm
      exact hm
    rw [restore_cons] at hrun
    rcases hrename : (Files.rename d.backup d.target : StateM σ _).run s with ⟨r₁, s₁⟩
    rw [hrename] at hrun
    rcases hstep.step h hrename with ⟨e, rfl, -⟩ | ⟨rfl, -, hmoves⟩
    · cases hrun
    · have hmoves' : Moves ((back ++ [d]).map Displaced.renameBack) before (M.holds s₁) := by
        rw [List.map_append]
        exact hmoves
      rw [hlist] at hm ⊢
      exact ih hm hmoves' hrun

end FileMap

end RadioDriver
