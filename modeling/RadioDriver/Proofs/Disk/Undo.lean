import Mathlib.Data.List.Nodup
import RadioDriver.Proofs.Disk.Swap

namespace RadioDriver

namespace StagedWrites

/-- The paths that a commit sets aside. -/
def displaced (w : StagedWrites) : List String := w.staged.map (·.target) ++ w.removals

theorem target_mem_displaced {w : StagedWrites} {f : StagedFile} (h : f ∈ w.staged) :
    f.target ∈ w.displaced := List.mem_append_left _ (List.mem_map_of_mem h)

end StagedWrites

namespace FileMap

open StagedWrites

variable {σ : Type} [Files (StateM σ)] (M : FileMap σ)

/-- What a commit can start from: targets are different, staged files stand beside their targets,
and nothing beside a path is a path of the commit itself. -/
structure Startable (w : StagedWrites) (before : Places) : Prop where
  covers : ∀ path ∈ w.displaced, M.covers path ∧ M.covers (Path.sibling path ".tmp") ∧
    M.covers (Path.sibling path ".bak")
  apart : ∀ path ∈ w.displaced, ∀ other ∈ w.displaced, ∀ ending ∈ [".tmp", ".bak"],
    Path.components (Path.sibling path ending) ≠ Path.components other
  distinct : (w.staged.map fun f => Path.components f.target).Nodup
  staged : ∀ f ∈ w.staged, f.temporary = Path.sibling f.target ".tmp" ∧
    M.takes f.temporary = true ∧ before (Path.components f.temporary) ≠ some .directory

/-- What a commit can start from and go back to: no path of it is a directory. -/
structure Ready (w : StagedWrites) (before : Places) : Prop extends M.Startable w before where
  plain : ∀ path ∈ w.displaced, M.takes path = true →
    before (Path.components path) ≠ some .directory

variable {M} {w : StagedWrites} {before : Places} {s s' middle : σ} {done : Progress}
  {files : List StagedFile}

theorem Startable.separable (h : M.Startable w before) : M.Separable w.displaced where
  covers path hpath := ⟨(h.covers path hpath).1, (h.covers path hpath).2.2⟩
  apart path hpath other hother := h.apart path hpath other hother _ (by simp)

theorem Ready.displaceable (h : M.Ready w before) : M.Displaceable w.displaced before where
  toSeparable := h.separable
  plain := h.plain

theorem Startable.temporary_ne_target (h : M.Startable w before) {f : StagedFile}
    (hf : f ∈ w.staged)
    {path : String} (hpath : path ∈ w.displaced) :
    Path.components f.temporary ≠ Path.components path := by
  rw [(h.staged f hf).1]
  exact h.apart _ (target_mem_displaced hf) path hpath _ (by simp)

theorem Startable.temporary_ne_backup (h : M.Startable w before) {f : StagedFile}
    (hf : f ∈ w.staged)
    (path : String) :
    Path.components f.temporary ≠ Path.components (Path.sibling path ".bak") := by
  rw [(h.staged f hf).1]
  exact RadioDriver.temporary_ne_backup f.target path

theorem Startable.movable {aside : List Displaced} (h : M.Startable w before)
    (ha : M.SetAside w.displaced before middle aside) :
    M.Movable (w.staged.map StagedFile.rename) (M.holds middle) := by
  refine ⟨?_, ?_, ?_, ?_⟩
  · intro r hr
    obtain ⟨f, hf, rfl⟩ := List.mem_map.mp hr
    obtain ⟨htarget, htemporary, -⟩ := h.covers f.target (target_mem_displaced hf)
    rw [← (h.staged f hf).1] at htemporary
    exact ⟨htemporary, htarget⟩
  · intro r hr
    obtain ⟨f, hf, rfl⟩ := List.mem_map.mp hr
    refine ha.moves.plain ?_ (h.staged f hf).2.2
    intro r' hr'
    obtain ⟨d, hd, rfl⟩ := List.mem_map.mp hr'
    have hbackup := h.temporary_ne_backup hf d.target
    rw [← (ha.backup d hd).2.1] at hbackup
    exact hbackup
  · intro r hr t ht
    obtain ⟨f, hf, rfl⟩ := List.mem_map.mp hr
    obtain ⟨g, hg, rfl⟩ := List.mem_map.mp ht
    exact h.temporary_ne_target hf (target_mem_displaced hg)
  · rw [List.map_map]
    exact h.distinct

theorem Ready.drop (h : M.Ready w before)
    (hplain : ∀ f ∈ w.staged, M.holds s (Path.components f.temporary) ≠ some .directory) :
    M.holds ((w.drop : StateM σ Unit).run s).2 =
      (M.holds s).erased (w.staged.map fun f => Path.components f.temporary) := by
  have hplaces : (w.staged.map (·.temporary)).map Path.components =
      w.staged.map fun f => Path.components f.temporary := by
    rw [List.map_map]
    rfl
  rw [← hplaces]
  apply M.removeAll_holds
  all_goals
    intro path hpath
    obtain ⟨f, hf, rfl⟩ := List.mem_map.mp hpath
  · have hcovers := (h.covers f.target (target_mem_displaced hf)).2.1
    rwa [← (h.staged f hf).1] at hcovers
  · exact (h.staged f hf).2.1
  · exact hplain f hf

/-- How far a swap came: files were set aside up to `middle`, and of the staged files the first ones
were put into place. -/
structure Swapped (w : StagedWrites) (before : Places) (done : Progress) (files : List StagedFile)
    (middle s : σ) : Prop where
  aside : M.SetAside w.displaced before middle done.aside
  first : files <+: w.staged
  placed : done.placed = files.map (·.target)
  takes : ∀ f ∈ files, M.takes f.target = true
  moves : Moves (files.map StagedFile.rename) (M.holds middle) (M.holds s)
  /-- Nothing is put into place before all that was in the way is aside. -/
  emptied : files ≠ [] → ∀ path ∈ w.displaced, M.takes path = true →
    M.holds middle (Path.components path) = none

/-- Once what was in the way is aside, staged files are put into place, and all of them unless that
fails. -/
theorem Startable.place {r : Except WriteError Unit} {aside : List Displaced} {placed : List String}
    (h : M.Startable w before) (haside : M.SetAside w.displaced before middle aside)
    (hempty : ∀ path ∈ w.displaced, M.takes path = true →
      M.holds middle (Path.components path) = none)
    (hplace : (StagedWrites.place w.staged [] : StateM σ _).run middle = ((r, placed), s')) :
    ∃ files, M.Swapped w before ⟨aside, placed⟩ files middle s' ∧
      (r = .ok () → files = w.staged) := by
  have hmovable : M.Movable (([] ++ w.staged).map StagedFile.rename) (M.holds middle) :=
    h.movable haside
  obtain ⟨files, left, hfiles, hall, hplaced, htakes, hmoves⟩ := place_run hmovable
    (Moves.nil _) (fun f hf => absurd hf List.not_mem_nil) hplace
  refine ⟨files, ⟨haside, ⟨left, hfiles.symm⟩, hplaced, htakes, hmoves, fun _ => hempty⟩, ?_⟩
  intro hok
  rw [hfiles, hall hok, List.append_nil]

theorem swap_run {r : Except WriteError Unit} (h : M.Ready w (M.holds s))
    (hrun : (w.swap : StateM σ _).run s = ((r, done), s')) :
    ∃ files middle, M.Swapped w (M.holds s) done files middle s' ∧
      (r = .ok () → files = w.staged ∧ ∀ path ∈ w.displaced, M.takes path = true →
        M.holds middle (Path.components path) = none) := by
  unfold swap at hrun
  rw [run_bind_state] at hrun
  rcases hdisplace : (displace w.displaced [] : StateM σ _).run s with ⟨⟨r₁, aside⟩, middle⟩
  have hdisplace' : (displace (w.staged.map (·.target) ++ w.removals) [] : StateM σ _).run s =
      ((r₁, aside), middle) := hdisplace
  obtain ⟨haside, -, hempty⟩ := displace_run h.displaceable (List.Subset.refl _)
    (.start w.displaced s) hdisplace
  rw [hdisplace'] at hrun
  cases r₁ with
  | error e =>
    cases hrun
    refine ⟨[], middle, ⟨haside, List.nil_prefix, rfl, ?_, Moves.nil _, ?_⟩, ?_⟩
    · intro f hf
      cases hf
    · exact fun hc => absurd rfl hc
    · intro hc
      cases hc
  | ok u =>
    have hempty := hempty rfl
    rcases hplace : (StagedWrites.place w.staged [] : StateM σ _).run middle with ⟨⟨r₂, placed⟩, s₂⟩
    dsimp only at hrun
    rw [run_bind_state, hplace] at hrun
    cases hrun
    obtain ⟨files, hswapped, hall⟩ := h.place haside hempty hplace
    exact ⟨files, middle, hswapped, fun hok => ⟨hall hok, hempty⟩⟩

theorem Swapped.holds_of_ne (hs : M.Swapped w before done files middle s) {place : List String}
    (hne : ∀ f ∈ files, place ≠ Path.components f.temporary ∧ place ≠ Path.components f.target) :
    M.holds s place = M.holds middle place := by
  apply hs.moves.frame
  intro r hr
  obtain ⟨f, hf, rfl⟩ := List.mem_map.mp hr
  exact hne f hf

section Backups

variable (h : M.Startable w before) (hs : M.Swapped w before done files middle s)
include h hs

theorem Swapped.backup_ne_target {d : Displaced} (hd : d ∈ done.aside) {path : String}
    (hpath : path ∈ w.displaced) : Path.components d.backup ≠ Path.components path := by
  obtain ⟨htarget, hbackup, -⟩ := hs.aside.backup d hd
  rw [hbackup]
  exact h.apart _ htarget path hpath _ (by simp)

theorem Swapped.holds_backup {d : Displaced} (hd : d ∈ done.aside) :
    M.holds s (Path.components d.backup) = before (Path.components d.target) := by
  have haside : M.holds middle (Path.components d.backup) = before (Path.components d.target) :=
    hs.aside.moves.target d.rename (List.mem_map_of_mem hd)
  rw [← haside]
  apply hs.holds_of_ne
  intro f hf
  have hf := hs.first.mem hf
  have htemporary := h.temporary_ne_backup hf d.target
  rw [← (hs.aside.backup d hd).2.1] at htemporary
  exact ⟨htemporary.symm, hs.backup_ne_target h hd (target_mem_displaced hf)⟩

theorem Swapped.removeBackups_of_ne {place : List String}
    (hne : ∀ d ∈ done.aside, place ≠ Path.components d.backup) :
    M.holds ((removeAll (done.aside.map (·.backup)) : StateM σ Unit).run s).2 place =
      M.holds s place := by
  apply M.removeAll_of_ne
  all_goals
    intro path hpath
    obtain ⟨d, hd, rfl⟩ := List.mem_map.mp hpath
  · obtain ⟨htarget, hbackup, -⟩ := hs.aside.backup d hd
    rw [hbackup]
    exact (h.covers d.target htarget).2.2
  · exact hne d hd

end Backups

section Undo

variable (h : M.Ready w before) (hs : M.Swapped w before done files middle s)
include h hs

theorem Swapped.erased_backup {d : Displaced} (hd : d ∈ done.aside) :
    (M.holds s).erased (files.map fun f => Path.components f.target)
      (Path.components d.backup) = before (Path.components d.target) := by
  rw [Places.erased_of_not_mem, hs.holds_backup h.toStartable hd]
  intro hmem
  obtain ⟨f, hf, heq⟩ := List.mem_map.mp hmem
  exact hs.backup_ne_target h.toStartable hd (target_mem_displaced (hs.first.mem hf)) heq.symm

theorem Swapped.removePlaced :
    M.holds ((removeAll done.placed : StateM σ Unit).run s).2 =
      (M.holds s).erased (files.map fun f => Path.components f.target) := by
  have hplaced : done.placed.map Path.components =
      files.map fun f => Path.components f.target := by
    rw [hs.placed, List.map_map]
    rfl
  rw [← hplaced]
  apply M.removeAll_holds
  all_goals
    rw [hs.placed]
    intro path hpath
    obtain ⟨f, hf, rfl⟩ := List.mem_map.mp hpath
  · exact (h.covers _ (target_mem_displaced (hs.first.mem hf))).1
  · exact hs.takes f hf
  · have hmoved : M.holds s (Path.components f.target) =
        M.holds middle (Path.components f.temporary) :=
      hs.moves.target f.rename (List.mem_map_of_mem hf)
    rw [hmoved]
    exact (h.movable hs.aside).plain f.rename (List.mem_map_of_mem (hs.first.mem hf))

theorem Swapped.removeBackups :
    M.holds ((removeAll (done.aside.map (·.backup)) : StateM σ Unit).run s).2 =
      (M.holds s).erased (done.aside.map fun d => Path.components d.backup) := by
  have hbackups : (done.aside.map (·.backup)).map Path.components =
      done.aside.map fun d => Path.components d.backup := by
    rw [List.map_map]
    rfl
  rw [← hbackups]
  apply M.removeAll_holds
  all_goals
    intro path hpath
    obtain ⟨d, hd, rfl⟩ := List.mem_map.mp hpath
    obtain ⟨htarget, hbackup, htakes, htakes'⟩ := hs.aside.backup d hd
  · rw [hbackup]
    exact (h.covers d.target htarget).2.2
  · exact htakes'
  · rw [hs.holds_backup h.toStartable hd]
    exact h.plain d.target htarget htakes

theorem Swapped.restorable :
    M.Movable (done.aside.reverse.map Displaced.renameBack)
      ((M.holds s).erased (files.map fun f => Path.components f.target)) := by
  have hback : ∀ r ∈ done.aside.reverse.map Displaced.renameBack,
      ∃ d ∈ done.aside, r = (d.backup, d.target) := by
    intro r hr
    obtain ⟨d, hd, rfl⟩ := List.mem_map.mp hr
    exact ⟨d, List.mem_reverse.mp hd, rfl⟩
  refine ⟨?_, ?_, ?_, ?_⟩
  · intro r hr
    obtain ⟨d, hd, rfl⟩ := hback r hr
    obtain ⟨htarget, hbackup, -⟩ := hs.aside.backup d hd
    obtain ⟨hcovers, -, hcovers'⟩ := h.covers d.target htarget
    rw [← hbackup] at hcovers'
    exact ⟨hcovers', hcovers⟩
  · intro r hr
    obtain ⟨d, hd, rfl⟩ := hback r hr
    obtain ⟨htarget, -, htakes, -⟩ := hs.aside.backup d hd
    rw [hs.erased_backup h hd]
    exact h.plain d.target htarget htakes
  · intro r hr t ht
    obtain ⟨d, hd, rfl⟩ := hback r hr
    obtain ⟨e, he, rfl⟩ := hback t ht
    exact hs.backup_ne_target h.toStartable hd (hs.aside.backup e he).1
  · rw [List.map_map, List.map_reverse, List.nodup_reverse]
    exact hs.aside.distinct

/-- When placed files are removed and others moved back, every place but those of the staged files
holds what it held. -/
theorem Swapped.restored {after : Places} {place : List String}
    (hfresh : ∀ path ∈ w.displaced, M.takes (Path.sibling path ".bak") = true →
      before (Path.components (Path.sibling path ".bak")) = none)
    (hback : Moves (done.aside.reverse.map Displaced.renameBack)
      ((M.holds s).erased (files.map fun f => Path.components f.target)) after)
    (hnot : place ∉ w.staged.map fun f => Path.components f.temporary) :
    after place = before place := by
  have hreverse : ∀ {d}, d ∈ done.aside →
      (d.backup, d.target) ∈ done.aside.reverse.map Displaced.renameBack := fun hd =>
    List.mem_map.mpr ⟨_, List.mem_reverse.mpr hd, rfl⟩
  by_cases htarget : ∃ d ∈ done.aside, place = Path.components d.target
  · obtain ⟨d, hd, rfl⟩ := htarget
    rw [hback.target _ (hreverse hd), hs.erased_backup h hd]
  by_cases hbackup : ∃ d ∈ done.aside, place = Path.components d.backup
  · obtain ⟨d, hd, rfl⟩ := hbackup
    obtain ⟨hmem, heq, -, htakes⟩ := hs.aside.backup d hd
    rw [(hback.source _ (hreverse hd)).1]
    rw [heq] at htakes ⊢
    exact (hfresh d.target hmem htakes).symm
  have haside : M.holds middle place = before place := hs.aside.holds_of_ne fun d hd =>
    ⟨fun heq => htarget ⟨d, hd, heq⟩, fun heq => hbackup ⟨d, hd, heq⟩⟩
  have hframe : after place =
      (M.holds s).erased (files.map fun f => Path.components f.target) place := by
    apply hback.frame
    intro r hr
    obtain ⟨d, hd, rfl⟩ := List.mem_map.mp hr
    have hd := List.mem_reverse.mp hd
    exact ⟨fun heq => hbackup ⟨d, hd, heq⟩, fun heq => htarget ⟨d, hd, heq⟩⟩
  rw [hframe, ← haside]
  by_cases hplaced : place ∈ files.map fun f => Path.components f.target
  · -- what was not in the way of a placed file was not there
    obtain ⟨f, hf, rfl⟩ := List.mem_map.mp hplaced
    rw [Places.erased_of_mem _ hplaced]
    have hsome : files ≠ [] := List.ne_nil_of_mem hf
    exact (hs.emptied hsome f.target (target_mem_displaced (hs.first.mem hf))
      (hs.takes f hf)).symm
  · rw [Places.erased_of_not_mem _ hplaced]
    apply hs.holds_of_ne
    intro f hf
    refine ⟨fun heq => hnot ?_, fun heq => hplaced ?_⟩
    · exact List.mem_map.mpr ⟨f, hs.first.mem hf, heq.symm⟩
    · exact List.mem_map.mpr ⟨f, hf, heq.symm⟩

theorem Swapped.undo
    (hfresh : ∀ path ∈ w.displaced, M.takes (Path.sibling path ".bak") = true →
      before (Path.components (Path.sibling path ".bak")) = none)
    (hrun : (w.undo done : StateM σ _).run s = ([], s')) :
    M.holds s' = before.erased (w.staged.map fun f => Path.components f.temporary) := by
  have hremoved := hs.removePlaced h
  generalize hs₁ : ((removeAll done.placed : StateM σ Unit).run s).2 = s₁ at hremoved
  rcases hrestore : (restore done.aside.reverse : StateM σ _).run s₁ with ⟨lost, s₂⟩
  have hend : lost = [] ∧ ((w.drop : StateM σ Unit).run s₂).2 = s' := by
    change (((restore done.aside.reverse : StateM σ _).run
      ((removeAll done.placed : StateM σ Unit).run s).2).1,
      ((w.drop : StateM σ Unit).run ((restore done.aside.reverse : StateM σ _).run
        ((removeAll done.placed : StateM σ Unit).run s).2).2).2) = _ at hrun
    rw [hs₁, hrestore] at hrun
    exact Prod.mk.inj hrun
  obtain ⟨rfl, rfl⟩ := hend
  have hmovable : M.Movable (([] ++ done.aside.reverse).map Displaced.renameBack)
      (M.holds s₁) := by
    rw [hremoved]
    exact hs.restorable h
  have hback : Moves (([] ++ done.aside.reverse).map Displaced.renameBack) (M.holds s₁)
      (M.holds s₂) := restore_run hmovable (Moves.nil _) hrestore
  rw [List.nil_append] at hback
  have htargets : ∀ {place}, place ∉ files.map (fun f => Path.components f.target) →
      M.holds s₁ place = M.holds s place := by
    intro place hnot
    rw [hremoved, Places.erased_of_not_mem _ hnot]
  have hstaged : ∀ f ∈ w.staged, M.holds s₂ (Path.components f.temporary) ≠ some .directory := by
    intro f hf
    have hnot : ∀ g ∈ w.staged, Path.components f.temporary ≠ Path.components g.target :=
      fun g hg => h.temporary_ne_target hf (target_mem_displaced hg)
    apply hback.plain
    · intro r hr
      obtain ⟨d, hd, rfl⟩ := List.mem_map.mp hr
      exact h.temporary_ne_target hf (hs.aside.backup d (List.mem_reverse.mp hd)).1
    · rw [htargets]
      · apply hs.moves.plain
        · intro r hr
          obtain ⟨g, hg, rfl⟩ := List.mem_map.mp hr
          exact hnot g (hs.first.mem hg)
        · exact (h.movable hs.aside).plain f.rename (List.mem_map_of_mem hf)
      · intro hmem
        obtain ⟨g, hg, heq⟩ := List.mem_map.mp hmem
        exact hnot g (hs.first.mem hg) heq.symm
  rw [h.drop hstaged]
  funext place
  by_cases hmem : place ∈ w.staged.map fun f => Path.components f.temporary
  · rw [Places.erased_of_mem _ hmem, Places.erased_of_mem _ hmem]
  · rw [Places.erased_of_not_mem _ hmem, Places.erased_of_not_mem _ hmem]
    exact hs.restored h hfresh (hremoved ▸ hback) hmem

end Undo

/-- What a commit that succeeds does: staged files are at their targets, the other paths are empty,
and places that are neither paths nor beside them are as they were. -/
structure Replaced (w : StagedWrites) (before after : Places) : Prop where
  target : ∀ f ∈ w.staged, M.takes f.target = true ∧
    before (Path.components f.temporary) ≠ none ∧
    after (Path.components f.target) = before (Path.components f.temporary)
  removal : ∀ path ∈ w.displaced,
    (∀ f ∈ w.staged, Path.components path ≠ Path.components f.target) →
      M.takes path = true → after (Path.components path) = none
  temporary : ∀ f ∈ w.staged, after (Path.components f.temporary) = none
  frame : ∀ place, (∀ path ∈ w.displaced, place ≠ Path.components path ∧
      place ≠ Path.components (Path.sibling path ".bak")) →
    (∀ f ∈ w.staged, place ≠ Path.components f.temporary) → after place = before place

/-- What it does besides where no path is a directory: nothing new is left beside them. -/
structure Settled (w : StagedWrites) (before after : Places) : Prop
    extends M.Replaced w before after where
  backup : ∀ path ∈ w.displaced,
    after (Path.components (Path.sibling path ".bak")) = none ∨
      after (Path.components (Path.sibling path ".bak")) =
        before (Path.components (Path.sibling path ".bak"))

section Whole

variable (hs : M.Swapped w before done w.staged middle s)
  (hempty : ∀ path ∈ w.displaced, M.takes path = true →
    M.holds middle (Path.components path) = none)
include hs hempty

/-- A swap that came the whole way has replaced everything once the backups are removed. -/
theorem Swapped.replaced (h : M.Startable w before) :
    M.Replaced w before
      (M.holds ((removeAll (done.aside.map (·.backup)) : StateM σ Unit).run s).2) := by
  have htemporary : ∀ f ∈ w.staged, ∀ d ∈ done.aside,
      Path.components f.temporary ≠ Path.components d.backup := by
    intro f hf d hd
    rw [(hs.aside.backup d hd).2.1]
    exact h.temporary_ne_backup hf d.target
  refine ⟨?_, ?_, ?_, ?_⟩
  · intro f hf
    have hstaged : M.holds middle (Path.components f.temporary) =
        before (Path.components f.temporary) := hs.aside.holds_of_ne fun d hd =>
      ⟨h.temporary_ne_target hf (hs.aside.backup d hd).1, htemporary f hf d hd⟩
    refine ⟨hs.takes f hf, ?_, ?_⟩
    · rw [← hstaged]
      exact (hs.moves.source f.rename (List.mem_map_of_mem hf)).2
    · rw [hs.removeBackups_of_ne h fun d hd =>
        (hs.backup_ne_target h hd (target_mem_displaced hf)).symm, ← hstaged]
      exact hs.moves.target f.rename (List.mem_map_of_mem hf)
  · intro path hpath hnot htakes
    rw [hs.removeBackups_of_ne h fun d hd => (hs.backup_ne_target h hd hpath).symm,
      hs.holds_of_ne fun f hf => ⟨(h.temporary_ne_target hf hpath).symm, hnot f hf⟩]
    exact hempty path hpath htakes
  · intro f hf
    rw [hs.removeBackups_of_ne h (htemporary f hf)]
    exact (hs.moves.source f.rename (List.mem_map_of_mem hf)).1
  · intro place hdisplaced hstaged
    have hne : ∀ d ∈ done.aside, place ≠ Path.components d.target ∧
        place ≠ Path.components d.backup := by
      intro d hd
      obtain ⟨htarget, hbackup, -⟩ := hs.aside.backup d hd
      rw [hbackup]
      exact hdisplaced d.target htarget
    rw [hs.removeBackups_of_ne h fun d hd => (hne d hd).2, hs.holds_of_ne fun f hf =>
      ⟨hstaged f hf, (hdisplaced f.target (target_mem_displaced hf)).1⟩, hs.aside.holds_of_ne hne]

theorem Swapped.settled (h : M.Ready w before) :
    M.Settled w before
      (M.holds ((removeAll (done.aside.map (·.backup)) : StateM σ Unit).run s).2) := by
  refine ⟨hs.replaced hempty h.toStartable, ?_⟩
  intro path hpath
  by_cases hmem : ∃ d ∈ done.aside,
      Path.components (Path.sibling path ".bak") = Path.components d.backup
  · obtain ⟨d, hd, heq⟩ := hmem
    rw [heq, hs.removeBackups h]
    exact .inl (Places.erased_of_mem _ (List.mem_map_of_mem hd))
  · have hne : ∀ d ∈ done.aside,
        Path.components (Path.sibling path ".bak") ≠ Path.components d.backup :=
      fun d hd heq => hmem ⟨d, hd, heq⟩
    have hapart : ∀ other ∈ w.displaced,
        Path.components (Path.sibling path ".bak") ≠ Path.components other :=
      fun other hother => h.apart path hpath other hother _ (by simp)
    refine .inr ?_
    rw [hs.removeBackups_of_ne h.toStartable hne,
      hs.holds_of_ne fun f hf => ⟨(h.temporary_ne_backup hf path).symm,
        hapart _ (target_mem_displaced hf)⟩,
      hs.aside.holds_of_ne fun d hd => ⟨hapart _ (hs.aside.backup d hd).1, hne d hd⟩]

end Whole

/-- Whatever a failed swap moved aside can be moved back. -/
def Recoverable (w : StagedWrites) (s : σ) : Prop :=
  ∀ e done s', (w.swap : StateM σ _).run s = ((.error e, done), s') →
    ((w.undo done : StateM σ _).run s').1 = []

theorem commit_error {e : WriteError} (h : M.Ready w (M.holds s))
    (hfresh : ∀ path ∈ w.displaced, M.takes (Path.sibling path ".bak") = true →
      M.holds s (Path.components (Path.sibling path ".bak")) = none)
    (hrecoverable : Recoverable w s)
    (hrun : (w.commit : StateM σ _).run s = (.error e, s')) :
    M.holds s' = (M.holds s).erased (w.staged.map fun f => Path.components f.temporary) := by
  unfold commit at hrun
  rw [run_bind_state] at hrun
  rcases hswap : (w.swap : StateM σ _).run s with ⟨⟨r, done⟩, s₁⟩
  rw [hswap] at hrun
  obtain ⟨files, middle, hswapped, -⟩ := swap_run h hswap
  cases r with
  | error e₁ =>
    have hend : ((w.undo done : StateM σ _).run s₁).2 = s' := (Prod.mk.inj hrun).2
    exact hswapped.undo h hfresh (Prod.ext (hrecoverable e₁ done s₁ hswap) hend)
  | ok u => cases hrun

theorem commit_eq_ok {placed : List String}
    (hrun : (w.commit : StateM σ _).run s = (.ok placed, s')) :
    ∃ done s₁, (w.swap : StateM σ _).run s = ((.ok (), done), s₁) ∧ placed = done.placed ∧
      ((removeAll (done.aside.map (·.backup)) : StateM σ Unit).run s₁).2 = s' := by
  unfold commit at hrun
  obtain ⟨u, done, s₁, hswap, hrun⟩ := ok_of_run_bind_with hrun fun e done s₁ hc => by cases hc
  obtain ⟨hplaced, hend⟩ := Prod.mk.inj hrun
  exact ⟨done, s₁, hswap, (Except.ok.inj hplaced).symm, hend⟩

theorem commit_ok {placed : List String} (h : M.Ready w (M.holds s))
    (hrun : (w.commit : StateM σ _).run s = (.ok placed, s')) :
    placed = w.staged.map (·.target) ∧ M.Settled w (M.holds s) (M.holds s') := by
  obtain ⟨done, s₁, hswap, rfl, rfl⟩ := commit_eq_ok hrun
  obtain ⟨files, middle, hswapped, hall⟩ := swap_run h hswap
  obtain ⟨rfl, hempty⟩ := hall rfl
  exact ⟨hswapped.placed, hswapped.settled hempty h⟩

end FileMap

end RadioDriver
