import RadioDriver.Proofs.Disk.Commit

namespace RadioDriver

namespace FileMap

open StagedWrites

variable {σ : Type} [Files (StateM σ)] {M : FileMap σ} {w : StagedWrites} {s s' : σ}
  {targets : List String} {aside : List Displaced} {placed : List String}

variable (M) in
/-- Nothing is at any place. -/
def Lost (s : σ) : Prop := ∀ place, M.holds s place = none

variable (M) in
/-- A directory that is renamed moves as a file does, unless the way to all places goes through
it. -/
def MovesDirectories : Prop :=
  ∀ {source target : String} {s s' : σ}, M.covers source → M.covers target →
    M.holds s (Path.components source) = some .directory →
      (Files.rename source target : StateM σ _).run s = (.ok (), s') →
        M.Lost s' ∨
          M.holds s' = (M.holds s).moved (Path.components source) (Path.components target)

theorem Lost.node? (h : M.Lost s) (path : String) : M.node? s path = none :=
  M.node?_eq_none fun _ => h _

theorem Lost.displace (h : M.Lost s) (hcovers : ∀ path ∈ targets, M.covers path) :
    (StagedWrites.displace targets aside : StateM σ _).run s = ((.ok (), aside), s) := by
  induction targets with
  | nil => rfl
  | cons path rest ih =>
    obtain ⟨hpath, hrest⟩ := List.forall_mem_cons.mp hcovers
    rw [M.displace_cons s hpath, h.node? path]
    exact ih hrest

theorem Lost.place_ne_ok {before : Places} (h : M.Lost s) (hw : M.Startable w before)
    (hne : w.staged ≠ []) {placed' : List String} {s' : σ} :
    (StagedWrites.place w.staged placed : StateM σ _).run s ≠ ((.ok (), placed'), s') := by
  obtain ⟨file, files, hfiles⟩ := List.exists_cons_of_ne_nil hne
  have hfile : file ∈ w.staged := hfiles ▸ List.mem_cons_self
  obtain ⟨htarget, htemporary, -⟩ := hw.covers _ (target_mem_displaced hfile)
  rw [← (hw.staged file hfile).1] at htemporary
  rw [hfiles, place_cons]
  intro hrun
  rcases hrename : (Files.rename file.temporary file.target : StateM σ _).run s with ⟨r, s₁⟩
  rw [hrename] at hrun
  cases r with
  | error e => cases hrun
  | ok u => exact (M.rename_ok htemporary htarget hrename).2.2.1 (h.node? _)

theorem moved_or_lost (hM : M.MovesDirectories) {source target : String}
    (hs : M.covers source) (ht : M.covers target)
    (h : (Files.rename source target : StateM σ _).run s = (.ok (), s')) :
    M.Lost s' ∨ M.Moved source target s s' := by
  obtain ⟨hsource, htarget, hnode, hmoved⟩ := M.rename_ok hs ht h
  rw [M.node?_of_takes s hsource] at hnode hmoved
  by_cases hdir : M.holds s (Path.components source) = some .directory
  · exact (hM hs ht hdir h).imp_right fun hholds => ⟨hsource, htarget, hnode, hholds⟩
  · exact .inr ⟨hsource, htarget, hnode, hmoved hdir⟩

/-- A swap that succeeds came the whole way, whatever directories it had to set aside. -/
theorem swap_ok (hM : M.MovesDirectories) (h : M.Startable w (M.holds s)) (hne : w.staged ≠ [])
    {done : Progress} (hrun : (w.swap : StateM σ _).run s = ((.ok (), done), s')) :
    ∃ middle, M.Swapped w (M.holds s) done w.staged middle s' ∧
      ∀ path ∈ w.displaced, M.takes path = true →
        M.holds middle (Path.components path) = none := by
  unfold swap at hrun
  obtain ⟨u, aside, middle, hdisplace, hrun⟩ :=
    ok_of_run_bind_with hrun fun e aside s₁ hc => by cases hc
  rcases hplace : (StagedWrites.place w.staged [] : StateM σ _).run middle with ⟨⟨r, placed⟩, s₂⟩
  dsimp only at hrun
  rw [run_bind_state, hplace] at hrun
  cases hrun
  have hlost : ∀ {s targets} aside, targets ⊆ w.displaced → M.Lost s →
      M.Lost ((displace targets aside : StateM σ _).run s).2 := by
    intro s targets aside htargets hlost
    rw [hlost.displace fun path hpath => (h.covers path (htargets hpath)).1]
    exact hlost
  have haside := displace_run_or M.Lost h.separable hlost
    (fun hpath _ hrename =>
      moved_or_lost hM (h.covers _ hpath).1 (h.covers _ hpath).2.2 hrename)
    (List.Subset.refl _) (.start w.displaced s) hdisplace
  rcases haside with hgone | ⟨haside, -, hempty⟩
  · exact absurd hplace (hgone.place_ne_ok h hne)
  · obtain ⟨files, hswapped, hall⟩ := h.place haside (hempty rfl) hplace
    rw [hall rfl] at hswapped
    exact ⟨middle, hswapped, hempty rfl⟩

/-- A commit that succeeds has replaced everything, whatever directories were in its way. -/
theorem commit_replaces (hM : M.MovesDirectories) (h : M.Startable w (M.holds s))
    (hne : w.staged ≠ []) (hrun : (w.commit : StateM σ _).run s = (.ok placed, s')) :
    M.Replaced w (M.holds s) (M.holds s') := by
  obtain ⟨done, s₁, hswap, -, rfl⟩ := commit_eq_ok hrun
  -- something is staged, so a lost directory would have stopped the swap
  obtain ⟨middle, hswapped, hempty⟩ := swap_ok hM h hne hswap
  exact hswapped.replaced hempty h

end FileMap

namespace Disk

variable {d d' : Disk} {place goal goal' source target base : Location} {names : List String}
  {directory path name other : String}

theorem Opens.unique (h : d.Opens place names goal) (h' : d'.Opens place names goal') :
    goal = goal' := by
  induction names generalizing place with
  | nil => exact (Except.ok.inj h.1).symm.trans (Except.ok.inj h'.1)
  | cons name rest ih =>
    obtain ⟨-, h⟩ := opens_cons.mp h
    obtain ⟨-, h'⟩ := opens_cons.mp h'
    split_ifs at h h'
    · exact ih h h'
    · exact ih h h'
    · exact ih h.2 h'.2

theorem within?_of_here (hhere : d'.here = d.here) (h : d.within? directory = some base) :
    d'.within? directory = none ∨ d'.within? directory = some base := by
  cases h' : d'.within? directory with
  | none => exact .inl rfl
  | some base' =>
    rw [within?_eq_some] at h h'
    rw [start, hhere] at h'
    exact .inr (congrArg some (h'.unique h))

theorem nodeIn_cons (at_ : Location) (node : Node) (rest : List (Location × Node)) :
    nodeIn ((at_, node) :: rest) place = if at_ = place then some node else nodeIn rest place := rfl

/-- Of the places as deep as a tree that is moved, only its own and the one that it comes to are
changed. -/
theorem nodeIn_moveTree (nodes : List (Location × Node)) (hst : source ≠ target)
    (htarget : target.length = source.length) (hplace : place.length = source.length) :
    nodeIn ((nodes.filter fun n => n.1 ≠ target).map fun n =>
        if source.isPrefixOf n.1 then (target ++ n.1.drop source.length, n.2) else n) place =
      if place = target then nodeIn nodes source
      else if place = source then none else nodeIn nodes place := by
  induction nodes with
  | nil => simp [nodeIn]
  | cons n rest ih =>
    obtain ⟨k, v⟩ := n
    rw [nodeIn_cons, nodeIn_cons]
    by_cases hk : k = target
    · subst hk
      rw [List.filter_cons_of_neg (by simp), ih, if_neg (Ne.symm hst)]
      split_ifs with heq <;> first | rfl | exact absurd ‹_› (Ne.symm heq)
    rw [List.filter_cons_of_pos (by simpa using hk), List.map_cons]
    by_cases hpre : source <+: k
    · obtain ⟨below, rfl⟩ := hpre
      have hmoved : source.isPrefixOf (source ++ below) = true :=
        List.isPrefixOf_iff_prefix.mpr (List.prefix_append source below)
      dsimp only
      rw [if_pos hmoved, List.drop_left, nodeIn_cons, ih]
      by_cases hbelow : below = []
      · subst hbelow
        rw [List.append_nil, List.append_nil, if_pos rfl]
        by_cases ht : place = target
        · rw [if_pos ht.symm, if_pos ht]
        rw [if_neg (Ne.symm ht), if_neg ht, if_neg ht]
        by_cases hs : place = source
        · rw [if_pos hs, if_pos hs]
        · rw [if_neg hs, if_neg hs, if_neg (Ne.symm hs)]
      · -- what lies deeper is none of the places
        have hdeep : ∀ start : Location, start.length = source.length →
            start ++ below ≠ place ∧ start ++ below ≠ source := by
          intro start hstart
          have hlength : 0 < below.length := List.length_pos_of_ne_nil hbelow
          constructor <;> intro heq <;> have := congrArg List.length heq <;>
            rw [List.length_append] at this <;> omega
        rw [if_neg (hdeep target htarget).1, if_neg (hdeep source rfl).1,
          if_neg (hdeep source rfl).2]
    · have hsource : k ≠ source := by
        rintro rfl
        exact hpre List.prefix_rfl
      dsimp only
      rw [if_neg (by simpa using hpre), nodeIn_cons, ih, if_neg hsource]
      split_ifs <;> simp_all

theorem entriesOf_eq_none {place : List String} (d : Disk)
    (h : ∀ other, place ≠ Path.components directory ++ [other]) :
    entriesOf directory d place = none := by
  unfold entriesOf
  split_ifs with hdir
  · cases hlast : place.getLast? with
    | none => cases d.within? directory <;> rfl
    | some other =>
      obtain ⟨front, rfl⟩ := List.getLast?_eq_some_iff.mp hlast
      rw [List.dropLast_concat] at hdir
      exact absurd (congrArg (· ++ [other]) hdir) (h other)
  · rfl

/-- One entry has moved onto another when that is how the places in their directory differ. -/
theorem Names.entriesOf_moved {newName : String} {path' : String} (h : Names directory path name)
    (h' : Names directory path' newName) (hne : name ≠ newName)
    (hbase : d.within? directory = some base) (hbase' : d'.within? directory = some base)
    (hnode : ∀ other, d'.node? (base ++ [other]) =
      if other = newName then d.node? (base ++ [name])
      else if other = name then none else d.node? (base ++ [other])) :
    Disk.entriesOf directory d' = (Disk.entriesOf directory d).moved (Path.components path)
      (Path.components path') := by
  funext place
  rw [h.components, h'.components]
  by_cases hplace : ∃ other, place = Path.components directory ++ [other]
  · obtain ⟨other, rfl⟩ := hplace
    have hinj : ∀ {a b : String}, a ≠ b →
        Path.components directory ++ [a] ≠ Path.components directory ++ [b] :=
      fun hab heq => hab (by simpa using heq)
    rw [entriesOf_append, hbase', Option.bind_some, hnode]
    split_ifs with hnew hold
    · rw [hnew, Places.moved_target, entriesOf_append, hbase, Option.bind_some]
    · rw [hold, Places.moved_source _ (hinj hne)]
    · rw [Places.moved_of_ne _ (hinj hold) (hinj hnew), entriesOf_append, hbase, Option.bind_some]
  · have hplace : ∀ other, place ≠ Path.components directory ++ [other] :=
      fun other heq => hplace ⟨other, heq⟩
    rw [Places.moved_of_ne _ (hplace _) (hplace _), entriesOf_eq_none d' hplace,
      entriesOf_eq_none d hplace]

theorem moveEntry_directory {e f : Entry} (h : d.moveEntry .directory e f = .ok d') :
    e.place = f.place ∧ d' = d ∨ e.place ≠ f.place ∧ d' = d.moveTree e.place f.place := by
  unfold moveEntry at h
  dsimp only at h
  split at h
  · next hfile => cases hfile
  · split at h
    · next hsame =>
      cases h
      exact .inl ⟨hsame, rfl⟩
    · next hne =>
      split at h
      · cases h
      · split at h
        · cases h
        · cases hcheck : d.checkReplace .directory f.place with
          | error e =>
            rw [hcheck] at h
            cases h
          | ok u =>
            rw [hcheck] at h
            exact .inr ⟨hne, (Except.ok.inj h).symm⟩

theorem Names.rename_directory {newName path' : String} (h : Names directory path name)
    (h' : Names directory path' newName)
    (hdir : Disk.entriesOf directory d (Path.components path) = some .directory)
    (hr : d.rename path path' = .ok d') :
    (∀ place, Disk.entriesOf directory d' place = none) ∨
      Disk.entriesOf directory d' = (Disk.entriesOf directory d).moved (Path.components path)
        (Path.components path') := by
  obtain ⟨-, base, hbase, hr⟩ := h.entry_of_bind hr
  obtain ⟨-, base', hbase', hr⟩ := h'.entry_of_bind hr
  have hsame : base = base' := Option.some.inj (hbase.symm.trans hbase')
  subst hsame
  rw [h.entriesOf, hbase, Option.bind_some] at hdir
  rw [h.isSpecial, h'.isSpecial] at hr
  obtain ⟨-, hr⟩ := check_of_bind hr
  simp only [Entry.place, hdir] at hr
  obtain ⟨-, hr⟩ := check_of_bind hr
  rcases moveEntry_directory hr with ⟨heq, rfl⟩ | ⟨hne, hmoved⟩
  · have hname : name = newName := by simpa [Entry.place] using heq
    right
    rw [h.components, h'.components, hname, Places.moved_self]
  have hmoved : d' = d.moveTree (base ++ [name]) (base ++ [newName]) := hmoved
  have hst : base ++ [name] ≠ base ++ [newName] := hne
  have hname : name ≠ newName := fun hc => hst (by rw [hc])
  have hhere : d'.here = d.here := by
    rw [hmoved]
    rfl
  rcases within?_of_here hhere hbase with hgone | hbase'
  · left
    intro place
    unfold Disk.entriesOf
    rw [hgone]
    exact ite_self _
  · right
    refine h.entriesOf_moved h' hname hbase hbase' fun other => ?_
    have hplace : ∀ name : String, base ++ [name] ≠ [] := fun name =>
      List.append_ne_nil_of_right_ne_nil _ (List.cons_ne_nil _ _)
    rw [hmoved, node?_of_ne_nil _ (hplace other), node?_of_ne_nil _ (hplace name),
      node?_of_ne_nil _ (hplace other)]
    refine (nodeIn_moveTree d.nodes hst (by simp) (by simp)).trans ?_
    simp only [List.append_cancel_left_eq, List.cons.injEq, and_true]

theorem entryMap_movesDirectories (directory : String) :
    (entryMap directory).MovesDirectories := by
  rintro source target d d' ⟨name, h⟩ ⟨newName, h'⟩ hdir hr
  exact h.rename_directory h' hdir (change_ok hr)

end Disk

end RadioDriver
