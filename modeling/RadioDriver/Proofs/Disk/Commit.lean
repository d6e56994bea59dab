import RadioDriver.Proofs.Disk.Directory
import RadioDriver.Proofs.Disk.Undo

namespace RadioDriver

namespace FileMap

open StagedWrites

variable {σ : Type} [Files (StateM σ)] {M : FileMap σ} {w : StagedWrites} {s s' : σ}

variable (M) in
/-- How a commit is prepared: files are staged and removals are added in any order, and what is
staged may vanish again. -/
inductive Prepared (s₀ : σ) : List (String × ByteArray) → StagedWrites → σ → Prop
  | start : Prepared s₀ [] {} s₀
  | stage {files : List (String × ByteArray)} {w w' : StagedWrites} {s s' : σ} {target : String}
      {bytes : ByteArray} : Prepared s₀ files w s →
      (w.stage target bytes : StateM σ _).run s = ((.ok (), w'), s') →
        Prepared s₀ (files ++ [(target, bytes)]) w' s'
  | remove {files : List (String × ByteArray)} {w : StagedWrites} {s : σ} (target : String) :
      Prepared s₀ files w s → Prepared s₀ files (w.remove target) s
  | vanish {files : List (String × ByteArray)} {w : StagedWrites} {s s' : σ} {f : StagedFile} :
      Prepared s₀ files w s → f ∈ w.staged →
      M.holds s' = (M.holds s).without (Path.components f.temporary) → Prepared s₀ files w s'

theorem stage_ok {w' : StagedWrites} {target : String} {bytes : ByteArray}
    (h : (w.stage target bytes : StateM σ _).run s = ((.ok (), w'), s')) :
    (Files.write (Path.sibling target ".tmp") bytes : StateM σ _).run s = (.ok (), s') ∧
      w' = { w with staged := w.staged ++ [⟨Path.sibling target ".tmp", target⟩] } := by
  unfold stage at h
  obtain ⟨u, s₁, hwrite, h⟩ := ok_of_run_bind h fun e s₁ hc => by cases hc
  cases h
  exact ⟨hwrite, rfl⟩

variable {s₀ : σ} {written : List (String × ByteArray)}

theorem Prepared.staged (h : M.Prepared s₀ written w s) :
    w.staged = written.map fun f => ⟨Path.sibling f.1 ".tmp", f.1⟩ := by
  induction h with
  | start => rfl
  | stage _ hstage ih =>
    rw [(stage_ok hstage).2, List.map_append, ← ih]
    rfl
  | remove target _ ih => exact ih
  | vanish _ _ _ ih => exact ih

/-- Staging changes no other places, and each staged file holds what was written or has vanished. -/
theorem Prepared.holds (h : M.Prepared s₀ written w s)
    (hcovers : ∀ f ∈ written, M.covers (Path.sibling f.1 ".tmp"))
    (hdistinct : (written.map fun f => Path.components f.1).Nodup) :
    (∀ place, (∀ f ∈ written, place ≠ Path.components (Path.sibling f.1 ".tmp")) →
      M.holds s place = M.holds s₀ place) ∧
    ∀ f ∈ written, M.takes (Path.sibling f.1 ".tmp") = true ∧
      (M.holds s (Path.components (Path.sibling f.1 ".tmp")) = some (.file f.2) ∨
        M.holds s (Path.components (Path.sibling f.1 ".tmp")) = none) := by
  induction h with
  | start => exact ⟨fun _ _ => rfl, fun f hf => absurd hf List.not_mem_nil⟩
  | @stage written w w' s s' target bytes _ hstage ih =>
    have hcovers' : ∀ f ∈ written, M.covers (Path.sibling f.1 ".tmp") :=
      fun f hf => hcovers f (List.mem_append_left _ hf)
    rw [List.map_append, List.nodup_append] at hdistinct
    obtain ⟨hdistinct, -, hnew⟩ := hdistinct
    obtain ⟨hframe, hfiles⟩ := ih hcovers' hdistinct
    have hlast : (target, bytes) ∈ written ++ [(target, bytes)] :=
      List.mem_append_right _ (List.mem_singleton_self _)
    obtain ⟨htakes, hwritten⟩ := M.write_ok (hcovers _ hlast) (stage_ok hstage).1
    refine ⟨?_, ?_⟩
    · intro place hne
      rw [hwritten, Function.update_of_ne (hne _ hlast)]
      exact hframe place fun f hf => hne f (List.mem_append_left _ hf)
    · intro f hf
      rcases List.mem_append.mp hf with hf | hf
      · have hne : Path.components (Path.sibling f.1 ".tmp") ≠
            Path.components (Path.sibling target ".tmp") := by
          intro heq
          exact hnew _ (List.mem_map_of_mem hf) _ (List.mem_singleton_self _)
            (components_temporary_inj heq)
        rw [hwritten, Function.update_of_ne hne]
        exact hfiles f hf
      · rw [List.mem_singleton.mp hf]
        refine ⟨htakes, .inl ?_⟩
        rw [hwritten, Function.update_self]
  | remove target _ ih => exact ih hcovers hdistinct
  | @vanish written w s s' g hprepared hg hgone ih =>
    obtain ⟨hframe, hfiles⟩ := ih hcovers hdistinct
    rw [hprepared.staged] at hg
    obtain ⟨lost, hlost, rfl⟩ := List.mem_map.mp hg
    refine ⟨?_, ?_⟩
    · intro place hne
      rw [hgone, Places.without, Function.update_of_ne (hne lost hlost)]
      exact hframe place hne
    · intro f hf
      refine ⟨(hfiles f hf).1, ?_⟩
      rw [hgone, Places.without]
      by_cases heq : Path.components (Path.sibling f.1 ".tmp") =
          Path.components (Path.sibling lost.1 ".tmp")
      · rw [heq, Function.update_self]
        exact .inr rfl
      · rw [Function.update_of_ne heq]
        exact (hfiles f hf).2

variable (M) in
/-- Paths that files can be staged for or removed from: none is a directory, and what is beside
them is none of them. -/
structure Clear (paths : List String) (s₀ : σ) : Prop where
  covers : ∀ path ∈ paths, M.covers path ∧ M.covers (Path.sibling path ".tmp") ∧
    M.covers (Path.sibling path ".bak")
  plain : ∀ path ∈ paths, M.node? s₀ path ≠ some .directory
  apart : ∀ path ∈ paths, ∀ other ∈ paths, ∀ ending ∈ [".tmp", ".bak"],
    Path.components (Path.sibling path ending) ≠ Path.components other

variable (M) in
/-- Paths that files can be staged for or removed from, directories or not: what is beside them is
none of them. -/
structure Separate (paths : List String) : Prop where
  covers : ∀ path ∈ paths, M.covers path ∧ M.covers (Path.sibling path ".tmp") ∧
    M.covers (Path.sibling path ".bak")
  apart : ∀ path ∈ paths, ∀ other ∈ paths, ∀ ending ∈ [".tmp", ".bak"],
    Path.components (Path.sibling path ending) ≠ Path.components other

theorem Clear.separate {paths : List String} (h : M.Clear paths s₀) : M.Separate paths :=
  ⟨h.covers, h.apart⟩

theorem Separate.mono {paths more : List String} (h : M.Separate more)
    (hsub : ∀ path ∈ paths, path ∈ more) : M.Separate paths where
  covers path hpath := h.covers path (hsub path hpath)
  apart path hpath other hother := h.apart path (hsub path hpath) other (hsub other hother)

theorem Prepared.node?_eq {paths : List String} (h : M.Prepared s₀ written w s)
    (hseparate : M.Separate paths) (hwritten : ∀ f ∈ written, f.1 ∈ paths)
    (hdistinct : (written.map fun f => Path.components f.1).Nodup) {path : String}
    (hpath : path ∈ paths) : M.node? s path = M.node? s₀ path := by
  have hframe := (h.holds (fun f hf => (hseparate.covers f.1 (hwritten f hf)).2.1) hdistinct).1
  unfold FileView.node?
  rw [hframe _ fun f hf => (hseparate.apart f.1 (hwritten f hf) path hpath _ (by simp)).symm]

theorem Prepared.mem_staged (h : M.Prepared s₀ written w s) {f : String × ByteArray}
    (hf : f ∈ written) : ⟨Path.sibling f.1 ".tmp", f.1⟩ ∈ w.staged := by
  rw [h.staged]
  exact List.mem_map_of_mem hf

theorem Prepared.mem_displaced (h : M.Prepared s₀ written w s) {f : String × ByteArray}
    (hf : f ∈ written) : f.1 ∈ w.displaced := target_mem_displaced (h.mem_staged hf)

theorem Prepared.node?_of_removal (h : M.Prepared s₀ written w s)
    (hreplaced : M.Replaced w (M.holds s) (M.holds s')) {path : String} (hpath : path ∈ w.removals)
    (hne : ∀ f ∈ written, Path.components path ≠ Path.components f.1) : M.node? s' path = none := by
  refine M.node?_eq_none fun htakes => ?_
  refine hreplaced.removal path (List.mem_append_right _ hpath) ?_ htakes
  intro g hg
  rw [h.staged] at hg
  obtain ⟨f, hf, rfl⟩ := List.mem_map.mp hg
  exact hne f hf

section Prepared

variable (h : M.Prepared s₀ written w s)
  (hdistinct : (written.map fun f => Path.components f.1).Nodup)
include h hdistinct

section Separate

variable (hseparate : M.Separate w.displaced)
include hseparate

theorem Prepared.places :
    (∀ place, (∀ f ∈ written, place ≠ Path.components (Path.sibling f.1 ".tmp")) →
      M.holds s place = M.holds s₀ place) ∧
    ∀ f ∈ written, M.takes (Path.sibling f.1 ".tmp") = true ∧
      (M.holds s (Path.components (Path.sibling f.1 ".tmp")) = some (.file f.2) ∨
        M.holds s (Path.components (Path.sibling f.1 ".tmp")) = none) :=
  h.holds (fun f hf => (hseparate.covers f.1 (h.mem_displaced hf)).2.1) hdistinct

theorem Prepared.startable : M.Startable w (M.holds s) := by
  obtain ⟨-, hfiles⟩ := h.places hdistinct hseparate
  refine ⟨hseparate.covers, hseparate.apart, ?_, ?_⟩
  · rw [h.staged, List.map_map]
    exact hdistinct
  · intro f hf
    rw [h.staged] at hf
    obtain ⟨g, hg, rfl⟩ := List.mem_map.mp hf
    obtain ⟨htakes, hcontent⟩ := hfiles g hg
    refine ⟨rfl, htakes, ?_⟩
    rcases hcontent with hcontent | hcontent
    · exact fun hc => by cases hcontent.symm.trans hc
    · exact fun hc => by cases hcontent.symm.trans hc

section Replaced

variable (hreplaced : M.Replaced w (M.holds s) (M.holds s'))
include hreplaced

theorem Prepared.node?_of_mem {f : String × ByteArray} (hf : f ∈ written) :
    M.node? s' f.1 = some (.file f.2) := by
  obtain ⟨htakes, hsome, htarget⟩ := hreplaced.target _ (h.mem_staged hf)
  rw [M.node?_of_takes s' htakes, htarget]
  exact ((h.places hdistinct hseparate).2 f hf).2.resolve_right hsome

theorem Prepared.node?_of_apart {path : String}
    (hdisplaced : ∀ other ∈ w.displaced, Path.components path ≠ Path.components other ∧
      ∀ ending ∈ [".tmp", ".bak"],
        Path.components path ≠ Path.components (Path.sibling other ending)) :
    M.node? s' path = M.node? s₀ path := by
  have hwritten : ∀ f ∈ written, Path.components path ≠
      Path.components (Path.sibling f.1 ".tmp") := fun f hf =>
    (hdisplaced f.1 (h.mem_displaced hf)).2 _ (by simp)
  have hcommit : M.holds s' (Path.components path) = M.holds s (Path.components path) := by
    apply hreplaced.frame
    · exact fun other hother =>
        ⟨(hdisplaced other hother).1, (hdisplaced other hother).2 _ (by simp)⟩
    · intro g hg
      rw [h.staged] at hg
      obtain ⟨f, hf, rfl⟩ := List.mem_map.mp hg
      exact hwritten f hf
  unfold FileView.node?
  rw [hcommit, (h.places hdistinct hseparate).1 _ hwritten]

end Replaced

end Separate

section Clear

variable (hclear : M.Clear w.displaced s₀)
include hclear

theorem Prepared.ready : M.Ready w (M.holds s) := by
  refine ⟨h.startable hdistinct hclear.separate, ?_⟩
  intro path hpath htakes
  have hsame : M.holds s (Path.components path) = M.holds s₀ (Path.components path) :=
    (h.places hdistinct hclear.separate).1 _ fun f hf =>
      (hclear.apart f.1 (h.mem_displaced hf) path hpath _ (by simp)).symm
  rw [hsame, ← M.node?_of_takes s₀ htakes]
  exact hclear.plain path hpath

variable (hfresh : ∀ path ∈ w.displaced, ∀ ending ∈ [".tmp", ".bak"],
  M.node? s₀ (Path.sibling path ending) = none)
include hfresh

theorem Prepared.fresh_temporary {f : String × ByteArray} (hf : f ∈ written) :
    M.holds s₀ (Path.components (Path.sibling f.1 ".tmp")) = none := by
  have htakes := ((h.places hdistinct hclear.separate).2 f hf).1
  rw [← M.node?_of_takes s₀ htakes]
  exact hfresh f.1 (h.mem_displaced hf) _ (by simp)

theorem Prepared.fresh_backup {path : String} (hpath : path ∈ w.displaced)
    (htakes : M.takes (Path.sibling path ".bak") = true) :
    M.holds s (Path.components (Path.sibling path ".bak")) = none := by
  have hne : ∀ f ∈ written, Path.components (Path.sibling path ".bak") ≠
      Path.components (Path.sibling f.1 ".tmp") := by
    intro f hf
    exact ((h.ready hdistinct hclear).temporary_ne_backup (h.mem_staged hf) path).symm
  rw [(h.places hdistinct hclear.separate).1 _ hne, ← M.node?_of_takes s₀ htakes]
  exact hfresh path hpath _ (by simp)

theorem Prepared.commit_error {e : WriteError} (hrecoverable : Recoverable w s)
    (hrun : (w.commit : StateM σ _).run s = (.error e, s')) : M.holds s' = M.holds s₀ := by
  have hend := FileMap.commit_error (h.ready hdistinct hclear)
    (fun _ => h.fresh_backup hdistinct hclear hfresh) hrecoverable hrun
  rw [hend, h.staged, List.map_map]
  funext place
  by_cases hmem : place ∈ written.map fun f => Path.components (Path.sibling f.1 ".tmp")
  · obtain ⟨f, hf, rfl⟩ := List.mem_map.mp hmem
    rw [h.fresh_temporary hdistinct hclear hfresh hf]
    exact Places.erased_of_mem _ hmem
  · have hne : ∀ f ∈ written, place ≠ Path.components (Path.sibling f.1 ".tmp") :=
      fun f hf heq => hmem (List.mem_map.mpr ⟨f, hf, heq.symm⟩)
    rw [← (h.places hdistinct hclear.separate).1 place hne]
    exact Places.erased_of_not_mem _ hmem

theorem Prepared.beside {path : String} (hsettled : M.Settled w (M.holds s) (M.holds s'))
    (hpath : path ∈ w.displaced) {ending : String} (hending : ending ∈ [".tmp", ".bak"]) :
    M.node? s' (Path.sibling path ending) = none := by
  refine M.node?_eq_none fun htakes => ?_
  simp only [List.mem_cons, List.not_mem_nil, or_false] at hending
  rcases hending with rfl | rfl
  · by_cases hmem : ∃ f ∈ w.staged,
        Path.components (Path.sibling path ".tmp") = Path.components f.temporary
    · obtain ⟨f, hf, heq⟩ := hmem
      rw [heq]
      exact hsettled.temporary f hf
    · have hstaged : ∀ f ∈ w.staged,
          Path.components (Path.sibling path ".tmp") ≠ Path.components f.temporary :=
        fun f hf heq => hmem ⟨f, hf, heq⟩
      have hdisplaced : ∀ other ∈ w.displaced,
          Path.components (Path.sibling path ".tmp") ≠ Path.components other ∧
          Path.components (Path.sibling path ".tmp") ≠
            Path.components (Path.sibling other ".bak") := by
        intro other hother
        exact ⟨hclear.apart path hpath other hother _ (by simp),
          RadioDriver.temporary_ne_backup path other⟩
      have hwritten : ∀ f ∈ written, Path.components (Path.sibling path ".tmp") ≠
          Path.components (Path.sibling f.1 ".tmp") := by
        intro f hf
        exact hstaged ⟨Path.sibling f.1 ".tmp", f.1⟩ (h.mem_staged hf)
      rw [hsettled.frame _ hdisplaced hstaged, (h.places hdistinct hclear.separate).1 _ hwritten,
        ← M.node?_of_takes s₀ htakes]
      exact hfresh path hpath _ (by simp)
  · rcases hsettled.backup path hpath with hnone | hsame
    · exact hnone
    · rw [hsame]
      exact h.fresh_backup hdistinct hclear hfresh hpath htakes

end Clear

end Prepared

/-- A prepared commit is all or nothing. If it fails and what it moved can be moved back, every
place holds what it held before anything was staged. If it does not fail, the staged files are
placed, the removals are away, and nothing is left beside them. -/
theorem commit_all_or_nothing (M : FileMap σ) {s₀ s s' : σ}
    {written : List (String × ByteArray)} {w : StagedWrites}
    {result : Except WriteError (List String)} (hprepared : M.Prepared s₀ written w s)
    (hdistinct : (written.map fun f => Path.components f.1).Nodup)
    (hclear : M.Clear w.displaced s₀)
    (hfresh : ∀ path ∈ w.displaced, ∀ ending ∈ [".tmp", ".bak"],
      M.node? s₀ (Path.sibling path ending) = none)
    (hrun : (w.commit : StateM σ _).run s = (result, s')) :
    (∀ e, result = .error e → Recoverable w s →
      M.holds s' = M.holds s₀ ∧
        ∀ path ∈ w.displaced, ∀ ending ∈ [".tmp", ".bak"],
          M.node? s' (Path.sibling path ending) = none) ∧
    ∀ placed, result = .ok placed →
      placed = written.map (·.1) ∧
        (∀ f ∈ written, M.node? s' f.1 = some (.file f.2)) ∧
        (∀ path ∈ w.removals,
          (∀ f ∈ written, Path.components path ≠ Path.components f.1) →
            M.node? s' path = none) ∧
        ∀ path ∈ w.displaced, ∀ ending ∈ [".tmp", ".bak"],
          M.node? s' (Path.sibling path ending) = none := by
  constructor
  · rintro e rfl hrecoverable
    have hsame := hprepared.commit_error hdistinct hclear hfresh hrecoverable hrun
    refine ⟨hsame, ?_⟩
    intro path hpath ending hending
    rw [← hfresh path hpath ending hending, FileView.node?, FileView.node?, hsame]
  · rintro placed rfl
    obtain ⟨hplaced, hsettled⟩ := commit_ok (hprepared.ready hdistinct hclear) hrun
    have hreplaced := hsettled.toReplaced
    have hseparate := hclear.separate
    refine ⟨?_, ?_, ?_, ?_⟩
    · rw [hplaced, hprepared.staged, List.map_map]
      rfl
    · exact fun f hf => hprepared.node?_of_mem hdistinct hseparate hreplaced hf
    · exact fun path hpath hne =>
        hprepared.node?_of_removal hreplaced hpath hne
    · exact fun path hpath ending hending =>
        hprepared.beside hdistinct hclear hfresh hsettled hpath hending

end FileMap

namespace Disk

open StagedWrites

def shelf : Disk where
  nodes := [(["out"], .directory), (["out", "a"], .file ⟨#[1]⟩), (["out", "b"], .file ⟨#[2]⟩)]

def stagedShelf : Disk where
  nodes := [(["out", "b.tmp"], .file ⟨#[4]⟩), (["out", "a.tmp"], .file ⟨#[3]⟩)] ++ shelf.nodes

def lossyShelf : Disk where
  nodes := (["out", "a.tmp"], .file ⟨#[3]⟩) :: shelf.nodes

def shelfWrites : StagedWrites where
  staged := [⟨"out/a.tmp", "out/a"⟩, ⟨"out/b.tmp", "out/b"⟩]

def shelfTexts : List (String × ByteArray) := [("out/a", ⟨#[3]⟩), ("out/b", ⟨#[4]⟩)]

theorem covers_shelf : ∀ path ∈ shelfWrites.displaced, (entryMap "out").covers path ∧
    (entryMap "out").covers (Path.sibling path ".tmp") ∧
    (entryMap "out").covers (Path.sibling path ".bak") := by
  have hentry : ∀ name, Path.IsName name →
      (entryMap "out").covers (Path.child "out" name) ∧
      (entryMap "out").covers (Path.sibling (Path.child "out" name) ".tmp") ∧
      (entryMap "out").covers (Path.sibling (Path.child "out" name) ".bak") := by
    intro name hname
    have hnames : Names "out" (Path.child "out" name) name := Names.child hname
    exact ⟨⟨_, hnames⟩, ⟨_, hnames.sibling isEnding_tmp⟩, ⟨_, hnames.sibling isEnding_bak⟩⟩
  intro path hpath
  have hpath : path ∈ [Path.child "out" "a", Path.child "out" "b"] := hpath
  rcases List.mem_pair.mp hpath with rfl | rfl
  · exact hentry "a" (by unfold Path.IsName; decide)
  · exact hentry "b" (by unfold Path.IsName; decide)

theorem prepared_stagedShelf :
    (entryMap "out").Prepared shelf shelfTexts shelfWrites stagedShelf := by
  have hfirst : (entryMap "out").Prepared shelf [("out/a", ⟨#[3]⟩)]
      { staged := [⟨"out/a.tmp", "out/a"⟩] } lossyShelf := .stage .start rfl
  exact .stage hfirst rfl

theorem prepared_lossyShelf :
    (entryMap "out").Prepared shelf shelfTexts shelfWrites lossyShelf := by
  have hstaged : ⟨"out/b.tmp", "out/b"⟩ ∈ shelfWrites.staged :=
    List.mem_cons_of_mem _ List.mem_cons_self
  have hlost := (entryMap "out").removeFile stagedShelf
    (covers_shelf "out/b" (List.mem_cons_of_mem _ List.mem_cons_self)).2.1
  exact .vanish prepared_stagedShelf hstaged hlost

theorem clear_shelf : (entryMap "out").Clear shelfWrites.displaced shelf := by
  have hkinds : ∀ path ∈ shelfWrites.displaced,
      ((entryMap "out").node? shelf path).map Node.kind = some .file := by decide +kernel
  refine ⟨covers_shelf, ?_, by decide +kernel⟩
  intro path hpath hdir
  have hkind := hkinds path hpath
  rw [hdir] at hkind
  cases hkind

theorem fresh_shelf : ∀ path ∈ shelfWrites.displaced, ∀ ending ∈ [".tmp", ".bak"],
    (entryMap "out").node? shelf (Path.sibling path ending) = none := by
  have hkinds : ∀ path ∈ shelfWrites.displaced, ∀ ending ∈ [".tmp", ".bak"],
      ((entryMap "out").node? shelf (Path.sibling path ending)).map Node.kind = none := by
    decide +kernel
  exact fun path hpath ending hending =>
    Option.map_eq_none_iff.mp (hkinds path hpath ending hending)

theorem recoverable_lossyShelf : FileMap.Recoverable shelfWrites lossyShelf := by
  have hstop : ((shelfWrites.swap : StateM Disk _).run lossyShelf).1 =
      (.error ⟨"out/b", .notFound⟩,
        ⟨[⟨"out/a.bak", "out/a"⟩, ⟨"out/b.bak", "out/b"⟩], ["out/a"]⟩) := by decide +kernel
  intro e done d hswap
  rw [hswap] at hstop
  cases hstop
  have hdisk : d = ((shelfWrites.swap : StateM Disk _).run lossyShelf).2 := by rw [hswap]
  rw [hdisk]
  decide +kernel

/-- The files are replaced together, and neither is when a staged file is lost. -/
theorem commit_shelf :
    ((shelfWrites.commit : StateM Disk _).run lossyShelf).1 = .error ⟨"out/b", .notFound⟩ ∧
      (entryMap "out").holds ((shelfWrites.commit : StateM Disk _).run lossyShelf).2 =
        (entryMap "out").holds shelf ∧
      ((shelfWrites.commit : StateM Disk _).run stagedShelf).1 = .ok ["out/a", "out/b"] ∧
      ∀ f ∈ shelfTexts, (entryMap "out").node?
        ((shelfWrites.commit : StateM Disk _).run stagedShelf).2 f.1 = some (.file f.2) := by
  have hfail : ((shelfWrites.commit : StateM Disk _).run lossyShelf).1 =
      .error ⟨"out/b", .notFound⟩ := by decide +kernel
  have hplaced : ((shelfWrites.commit : StateM Disk _).run stagedShelf).1 =
      .ok ["out/a", "out/b"] := by decide +kernel
  have hdistinct : (shelfTexts.map fun f => Path.components f.1).Nodup := by decide +kernel
  rcases hlossy : (shelfWrites.commit : StateM Disk _).run lossyShelf with ⟨r, d⟩
  rcases hstaged : (shelfWrites.commit : StateM Disk _).run stagedShelf with ⟨r', d'⟩
  rw [hlossy] at hfail
  rw [hstaged] at hplaced
  have hnothing := (entryMap "out").commit_all_or_nothing prepared_lossyShelf hdistinct
    clear_shelf fresh_shelf hlossy
  have hall := (entryMap "out").commit_all_or_nothing prepared_stagedShelf hdistinct
    clear_shelf fresh_shelf hstaged
  exact ⟨hfail, (hnothing.1 _ hfail recoverable_lossyShelf).1, hplaced,
    (hall.2 _ hplaced).2.1⟩

end Disk

end RadioDriver
