import RadioDriver.Proofs.Disk.Leftovers

namespace RadioDriver

namespace Disk

open StagedWrites

variable {d₀ d d' d'' : Disk} {place : Location} {path source target : String} {α β : Type}

/-- The path leads to a directory. -/
def IsDirectory (d : Disk) (path : String) : Prop :=
  ∃ place, d.lookup path = .ok (place, .directory)

theorem isDir_run (d : Disk) (path : String) :
    ((Files.isDir path : StateM Disk Bool).run d).1 = true ↔ d.IsDirectory path := by
  unfold IsDirectory
  show (((d.lookup path).toOption.map fun found => found.2.kind) == some .directory) = true ↔ _
  rcases d.lookup path with e | ⟨place, node⟩
  · constructor
    · intro h
      cases h
    · rintro ⟨place, h⟩
      cases h
  · cases node with
    | directory => exact ⟨fun _ => ⟨place, rfl⟩, fun _ => rfl⟩
    | file bytes =>
      constructor
      · intro h
        cases h
      · rintro ⟨place, h⟩
        cases h

theorem plain_of_isDir_run {paths : List String}
    (h : ∀ path ∈ paths, ((Files.isDir path : StateM Disk Bool).run d).1 = false) :
    ∀ path ∈ paths, ¬ d.IsDirectory path := by
  intro path hpath hdir
  rw [← isDir_run, h path hpath] at hdir
  cases hdir

theorem isDirectory_iff :
    d.IsDirectory path ↔
      checkPath path = .ok () ∧ ∃ place, d.Opens (d.start path) (Text.split '/' path) place := by
  unfold IsDirectory Disk.lookup Opens
  cases hcheck : checkPath path with
  | error e => simp [bind, Except.bind]
  | ok u =>
    cases hwalk : d.walk (d.start path) (Text.split '/' path) with
    | error e => simp [bind, Except.bind]
    | ok place =>
      rcases hnode : d.node? place with - | - | bytes <;>
        simp [bind, Except.bind, pure, Except.pure, throw, throwThe, MonadExceptOf.throw, hnode]

theorem SameDirectories.refl (d : Disk) : SameDirectories d d := ⟨rfl, fun _ => Iff.rfl⟩

theorem SameDirectories.trans (h : SameDirectories d d') (h' : SameDirectories d' d'') :
    SameDirectories d d'' := ⟨h.1.trans h'.1, fun place => (h.2 place).trans (h'.2 place)⟩

theorem SameDirectories.isDirectory (h : SameDirectories d d') :
    d'.IsDirectory path ↔ d.IsDirectory path := by
  have hstart : d'.start path = d.start path := by rw [start, start, h.1]
  rw [isDirectory_iff, isDirectory_iff, hstart]
  exact and_congr_right fun _ => exists_congr fun place => (opens_congr h.2).symm

theorem SameDirectories.reaches (h : SameDirectories d d') :
    d'.Reaches path place ↔ d.Reaches path place :=
  ⟨fun hr => hr.congr h.1 fun other => (h.2 other).mpr,
    fun hr => hr.congr h.1.symm fun other => (h.2 other).mp⟩

theorem named_unslashed (path : String) :
    Path.named (unslashed path) = Path.named (Text.split '/' path) := by
  have hsplit : Text.split '/' path =
      unslashed path ++ ((Text.split '/' path).reverse.takeWhile (· == "")).reverse := by
    rw [unslashed, ← List.reverse_append, List.takeWhile_append_dropWhile, List.reverse_reverse]
  have hempty : Path.named ((Text.split '/' path).reverse.takeWhile (· == "")).reverse = [] := by
    apply Path.named_eq_nil
    intro segment hsegment
    have hblank := List.all_eq_true.mp (List.all_takeWhile (p := (· == ""))) segment
      (List.mem_reverse.mp hsegment)
    rw [beq_iff_eq.mp hblank]
    rfl
  conv_rhs => rw [hsplit, Path.named_append, hempty, List.append_nil]

/-- An entry that is a directory is one that the path leads to, with slashes behind it or not. -/
theorem isDirectory_of_entry {e : Entry} (h : d.entry path = .ok e) (hspecial : e.isSpecial = false)
    (hcheck : e.check = .ok ()) (hdir : d.node? e.place = some .directory) :
    d.IsDirectory path := by
  obtain ⟨hpath, hopens, hname, -⟩ := parts_of_entry h
  have hname' : ¬ (e.name = "" ∨ e.name = ".") ∧ e.name ≠ ".." := by
    simpa [Entry.isSpecial, not_or] using hspecial
  have hsize : e.name.utf8ByteSize ≤ maxName := by
    unfold Entry.check at hcheck
    split at hcheck
    · cases hcheck
    · omega
  have hlast : (unslashed path).dropLast ++ [e.name] = unslashed path := by
    rcases List.eq_nil_or_concat (unslashed path) with hnil | ⟨front, last, hsplit⟩
    · rw [hnil] at hname
      exact absurd (Or.inl hname) hname'.1
    · rw [hsplit, List.concat_eq_append, List.getLast?_concat] at hname
      rw [hsplit, List.concat_eq_append, List.dropLast_concat, hname, Option.getD_some]
  have hwalk : d.Opens (d.start path) (unslashed path) e.place := by
    rw [← hlast]
    refine ⟨?_, hdir⟩
    rw [walk_append, hopens.1]
    show d.walk e.directory [e.name] = _
    rw [walk_cons_of_directory hopens.2, if_neg hname'.1, if_neg hname'.2,
      if_neg (Nat.not_lt.mpr hsize)]
    rfl
  refine isDirectory_iff.mpr ⟨hpath, e.place, ?_⟩
  rw [← opens_named, ← named_unslashed, opens_named]
  exact hwalk

theorem not_slashed_of_moveEntry {e f : Entry} {bytes : ByteArray}
    (h : d.moveEntry (.file bytes) e f = .ok d') : e.slashed = false ∧ f.slashed = false := by
  unfold moveEntry at h
  cases he : e.slashed <;> cases hf : f.slashed
  · exact ⟨rfl, rfl⟩
  all_goals
    rw [he, hf] at h
    cases h

theorem rename_of_not_directory (hplain : ¬ d.IsDirectory source)
    (h : d.rename source target = .ok d') :
    ∃ p q bytes, d.Reaches source p ∧ d.Reaches target q ∧ d.node? p = some (.file bytes) ∧
      (p = q ∧ d' = d ∨
        d.node? q ≠ some .directory ∧ d' = (d.erase p).put q (.file bytes)) := by
  unfold Disk.rename at h
  cases hsource : d.entry source with
  | error e' => rw [hsource] at h; cases h
  | ok e =>
    cases htarget : d.entry target with
    | error e' => rw [hsource, htarget] at h; cases h
    | ok f =>
      simp only [bind, Except.bind, hsource, htarget] at h
      split at h
      · cases h
      · next hnames =>
        rw [Bool.or_eq_true, not_or, Bool.not_eq_true, Bool.not_eq_true] at hnames
        cases hcheck : e.check with
        | error e' => rw [hcheck] at h; cases h
        | ok u =>
          rw [hcheck] at h
          rcases hnode : d.node? e.place with - | - | bytes
          · simp only [hnode] at h
            cases h
          · exact absurd (isDirectory_of_entry hsource hnames.1 hcheck hnode) hplain
          · simp only [hnode] at h
            cases hcheck' : f.check with
            | error e' => rw [hcheck'] at h; cases h
            | ok u =>
              rw [hcheck'] at h
              obtain ⟨hes, hfs⟩ := not_slashed_of_moveEntry h
              exact ⟨e.place, f.place, bytes, reaches_of_entry hsource hnames.1 hes hcheck,
                reaches_of_entry htarget hnames.2 hfs hcheck', hnode, moveEntry_file h⟩

theorem not_isDirectory_sibling {ending : String} (he : Path.IsEnding ending)
    (hreaches : d.Reaches (Path.sibling target ending) place)
    (hplain : d.node? place ≠ some .directory) : ¬ d.IsDirectory (Path.sibling target ending) := by
  rintro ⟨other, hother⟩
  obtain ⟨front, name, hsplit, hname⟩ := Path.split_sibling he target
  obtain ⟨hreaches', hnode⟩ := reaches_of_lookup hsplit hname hother
  rw [hreaches'.unique hreaches] at hnode
  exact hplain hnode

/-- Between two disks nothing changed but what certain places hold, and no directory did. -/
structure ChangedWithin (places : Location → Prop) (d d' : Disk) : Prop where
  sameDirectories : SameDirectories d d'
  frame : ∀ place, ¬ places place → d'.node? place = d.node? place

variable {places : Location → Prop}

theorem ChangedWithin.refl (d : Disk) : ChangedWithin places d d :=
  ⟨SameDirectories.refl d, fun _ _ => rfl⟩

theorem ChangedWithin.trans (h : ChangedWithin places d d') (h' : ChangedWithin places d' d'') :
    ChangedWithin places d d'' :=
  ⟨h.sameDirectories.trans h'.sameDirectories,
    fun place hp => (h'.frame place hp).trans (h.frame place hp)⟩

theorem changedWithin_erase {bytes : ByteArray} (hplace : places place) (hnil : place ≠ [])
    (hfile : d.node? place = some (.file bytes)) : ChangedWithin places d (d.erase place) := by
  refine ⟨.of_erase hnil (by simp [hfile]), fun other hother => node?_erase_of_ne d ?_⟩
  rintro rfl
  exact hother hplace

theorem changedWithin_put {bytes : ByteArray} (hplace : places place) (hnil : place ≠ [])
    (hplain : d.node? place ≠ some .directory) :
    ChangedWithin places d (d.put place (.file bytes)) := by
  refine ⟨.of_put hnil hplain, fun other hother => node?_put_of_ne d _ ?_⟩
  rintro rfl
  exact hother hplace

theorem changedWithin_rename (hplain : ¬ d.IsDirectory source)
    (hsource : ∀ place, d.Reaches source place → places place)
    (htarget : ∀ place, d.Reaches target place → places place)
    (h : d.rename source target = .ok d') : ChangedWithin places d d' := by
  obtain ⟨p, q, bytes, hp, hq, hnode, ⟨-, rfl⟩ | ⟨hnot, rfl⟩⟩ := rename_of_not_directory hplain h
  · exact ChangedWithin.refl _
  · have herase := changedWithin_erase (hsource p hp) hp.ne_nil hnode
    have hnot' : (d.erase p).node? q ≠ some .directory :=
      fun hc => hnot ((herase.sameDirectories.2 q).mpr hc)
    exact herase.trans (changedWithin_put (htarget q hq) hq.ne_nil hnot')

/-- A program that, on any disk with the directories of a given one, changes nothing but what
certain places hold. -/
def StaysWithin (places : Location → Prop) (d₀ : Disk) (x : StateM Disk α) : Prop :=
  ∀ d, SameDirectories d₀ d → ChangedWithin places d (x.run d).2

theorem staysWithin_pure (a : α) : StaysWithin places d₀ (pure a) := fun d _ => ChangedWithin.refl d

theorem StaysWithin.bind {x : StateM Disk α} {f : α → StateM Disk β}
    (h : StaysWithin places d₀ x) (hf : ∀ a, StaysWithin places d₀ (f a)) :
    StaysWithin places d₀ (x >>= f) := by
  intro d hsame
  rw [run_bind_state]
  have hfirst := h d hsame
  exact hfirst.trans (hf _ _ (hsame.trans hfirst.sameDirectories))

theorem staysWithin_removeFile (h : ∀ place, d₀.Reaches path place → places place) :
    StaysWithin places d₀ (Files.removeFile path) := by
  intro d hsame
  show ChangedWithin places d ((change (·.removeFile path)).run d).2
  rw [change_run]
  cases hremove : d.removeFile path with
  | error e => exact ChangedWithin.refl d
  | ok d' =>
    obtain ⟨place, bytes, hreaches, hnode, rfl⟩ := removeFile_eq_ok_iff.mp hremove
    exact changedWithin_erase (h place (hsame.reaches.mp hreaches)) hreaches.ne_nil hnode

theorem staysWithin_rename (hplain : ¬ d₀.IsDirectory source)
    (hsource : ∀ place, d₀.Reaches source place → places place)
    (htarget : ∀ place, d₀.Reaches target place → places place) :
    StaysWithin places d₀ (Files.rename source target) := by
  intro d hsame
  show ChangedWithin places d ((change (·.rename source target)).run d).2
  rw [change_run]
  cases hrename : d.rename source target with
  | error e => exact ChangedWithin.refl d
  | ok d' =>
    exact changedWithin_rename (fun hc => hplain (hsame.isDirectory.mp hc))
      (fun place hp => hsource place (hsame.reaches.mp hp))
      (fun place hp => htarget place (hsame.reaches.mp hp)) hrename

theorem staysWithin_removeAll {paths : List String}
    (h : ∀ path ∈ paths, ∀ place, d₀.Reaches path place → places place) :
    StaysWithin places d₀ (removeAll paths) := by
  induction paths with
  | nil => exact staysWithin_pure ()
  | cons path rest ih =>
    rw [removeAll]
    refine (staysWithin_removeFile (h path List.mem_cons_self)).bind fun _ => ?_
    exact ih fun other hother => h other (List.mem_cons_of_mem path hother)

/-- Where a commit keeps what it moves aside: beside a target or a removal that is there before, or
that is itself the backup of another. A file that already stands under that name is replaced. -/
inductive Parked (d : Disk) (w : StagedWrites) : Location → Prop
  | there {path : String} {place backup : Location} : path ∈ w.displaced →
      d.Reaches path place → d.node? place ≠ none →
      d.Reaches (Path.sibling path ".bak") backup → Parked d w backup
  | again {path : String} {place backup : Location} : path ∈ w.displaced →
      d.Reaches path place → Parked d w place →
      d.Reaches (Path.sibling path ".bak") backup → Parked d w backup

/-- The places that a commit may change. -/
inductive Owned (d : Disk) (w : StagedWrites) : Location → Prop
  | displaced {path : String} {place : Location} : path ∈ w.displaced → d.Reaches path place →
      Owned d w place
  | temporary {f : StagedFile} {place : Location} : f ∈ w.staged →
      d.Reaches (Path.sibling f.target ".tmp") place → Owned d w place
  | parked {place : Location} : Parked d w place → Owned d w place

/-- Each staged file stands beside its target, and neither it nor what the commit replaces or
removes is a directory. -/
structure Regular (d : Disk) (w : StagedWrites) : Prop where
  named : ∀ f ∈ w.staged, f.temporary = Path.sibling f.target ".tmp"
  temporary : ∀ f ∈ w.staged, ¬ d.IsDirectory f.temporary
  displaced : ∀ path ∈ w.displaced, ¬ d.IsDirectory path

variable {w : StagedWrites} {aside : List Displaced}

/-- How far a commit has come while it moves files aside: what is there was there before or is a
backup. -/
structure Displacing (d₀ : Disk) (w : StagedWrites) (d : Disk) (aside : List Displaced) :
    Prop where
  changed : ChangedWithin (Owned d₀ w) d₀ d
  origin : ∀ place, d.node? place ≠ none → d₀.node? place ≠ none ∨ Parked d₀ w place
  target : ∀ m ∈ aside, m.target ∈ w.displaced
  parked : ∀ m ∈ aside, ∀ place, d₀.Reaches m.backup place → Parked d₀ w place
  plain : ∀ m ∈ aside, ¬ d₀.IsDirectory m.backup

theorem Displacing.start (d₀ : Disk) (w : StagedWrites) : Displacing d₀ w d₀ [] where
  changed := ChangedWithin.refl d₀
  origin := fun _ h => .inl h
  target := by simp
  parked := by simp
  plain := by simp

theorem Displacing.step (h : Displacing d₀ w d aside) (hregular : Regular d₀ w)
    (hpath : path ∈ w.displaced) (hr : d.rename path (Path.sibling path ".bak") = .ok d') :
    Displacing d₀ w d' (aside ++ [⟨Path.sibling path ".bak", path⟩]) := by
  have hsame := h.changed.sameDirectories
  have hplain : ¬ d.IsDirectory path := fun hc =>
    hregular.displaced path hpath (hsame.isDirectory.mp hc)
  obtain ⟨p, q, bytes, hp, hq, hnode, hmove⟩ := rename_of_not_directory hplain hr
  have hp₀ := hsame.reaches.mp hp
  have hq₀ := hsame.reaches.mp hq
  have hparked : Parked d₀ w q := by
    rcases h.origin p (by simp [hnode]) with hthere | hbackup
    · exact .there hpath hp₀ hthere hq₀
    · exact .again hpath hp₀ hbackup hq₀
  have hbackup : d.node? q ≠ some .directory := by
    rcases hmove with ⟨rfl, -⟩ | ⟨hnot, -⟩
    · simp [hnode]
    · exact hnot
  refine ⟨?_, ?_, List.forall_mem_append.mpr ⟨h.target, List.forall_mem_singleton.mpr hpath⟩,
    List.forall_mem_append.mpr ⟨h.parked, List.forall_mem_singleton.mpr ?_⟩,
    List.forall_mem_append.mpr ⟨h.plain, List.forall_mem_singleton.mpr ?_⟩⟩
  · refine h.changed.trans (changedWithin_rename hplain ?_ ?_ hr)
    · intro place hplace
      exact .displaced hpath (hsame.reaches.mp hplace)
    · intro place hplace
      exact hplace.unique hq ▸ .parked hparked
  · intro place hplace
    rcases hmove with ⟨-, rfl⟩ | ⟨-, rfl⟩
    · exact h.origin place hplace
    · by_cases hback : place = q
      · exact .inr (hback ▸ hparked)
      · rw [node?_put_of_ne _ _ hback] at hplace
        by_cases hgone : place = p
        · rw [hgone, node?_erase_self d hp.ne_nil] at hplace
          exact absurd rfl hplace
        · rw [node?_erase_of_ne d hgone] at hplace
          exact h.origin place hplace
  · intro place hplace
    exact hplace.unique hq₀ ▸ hparked
  · exact fun hc => not_isDirectory_sibling isEnding_bak hq hbackup (hsame.isDirectory.mpr hc)

theorem Displacing.run {paths : List String} {r : Except WriteError Unit × List Displaced}
    (h : Displacing d₀ w d aside) (hregular : Regular d₀ w)
    (hpaths : ∀ path ∈ paths, path ∈ w.displaced)
    (hrun : (displace paths aside : StateM Disk _).run d = (r, d')) :
    Displacing d₀ w d' r.2 := by
  induction paths generalizing d aside with
  | nil =>
    cases hrun
    exact h
  | cons path rest ih =>
    have hrest : ∀ other ∈ rest, other ∈ w.displaced :=
      fun other hother => hpaths other (List.mem_cons_of_mem path hother)
    rw [displace, run_bind_state] at hrun
    -- a look at what is there changes nothing
    have hlook : ((Files.exists? path : StateM Disk Bool).run d).2 = d := rfl
    rw [hlook] at hrun
    split at hrun
    · have hstep : (Files.rename path (Path.sibling path ".bak") : StateM Disk _).run d = _ :=
        change_run (·.rename path (Path.sibling path ".bak")) d
      rw [run_bind_state, hstep] at hrun
      cases hr : d.rename path (Path.sibling path ".bak") with
      | error e =>
        rw [hr] at hrun
        cases hrun
        exact h
      | ok d₁ =>
        rw [hr] at hrun
        exact ih (h.step hregular (hpaths path List.mem_cons_self) hr) hrest hrun
    · exact ih h hrest hrun

theorem staysWithin_place {files : List StagedFile} {placed : List String}
    (hregular : Regular d₀ w) (hfiles : ∀ f ∈ files, f ∈ w.staged) :
    StaysWithin (Owned d₀ w) d₀ (StagedWrites.place files placed) := by
  induction files generalizing placed with
  | nil => exact staysWithin_pure _
  | cons f rest ih =>
    have hf := hfiles f List.mem_cons_self
    rw [StagedWrites.place]
    refine StaysWithin.bind (staysWithin_rename (hregular.temporary f hf) ?_ ?_) fun r => ?_
    · intro place hplace
      rw [hregular.named f hf] at hplace
      exact .temporary hf hplace
    · exact fun place hplace => .displaced (target_mem_displaced hf) hplace
    · cases r with
      | error e => exact staysWithin_pure _
      | ok u => exact ih fun g hg => hfiles g (List.mem_cons_of_mem f hg)

theorem Displacing.restore (h : Displacing d₀ w d aside) {back : List Displaced}
    (hback : ∀ m ∈ back, m ∈ aside) : StaysWithin (Owned d₀ w) d₀ (restore back) := by
  induction back with
  | nil => exact staysWithin_pure _
  | cons m rest ih =>
    have hm := hback m List.mem_cons_self
    have hrest := ih fun other hother => hback other (List.mem_cons_of_mem m hother)
    rw [StagedWrites.restore]
    refine StaysWithin.bind (staysWithin_rename (h.plain m hm) ?_ ?_) fun r => ?_
    · exact fun place hplace => .parked (h.parked m hm place hplace)
    · exact fun place hplace => .displaced (h.target m hm) hplace
    · cases r with
      | error e => exact hrest.bind fun lost => staysWithin_pure _
      | ok u => exact hrest

theorem mem_displaced_of_place {files : List StagedFile} {placed : List String}
    {r : Except WriteError Unit × List String} (hfiles : ∀ f ∈ files, f ∈ w.staged)
    (hplaced : ∀ path ∈ placed, path ∈ w.displaced)
    (hrun : (StagedWrites.place files placed : StateM Disk _).run d = (r, d')) :
    ∀ path ∈ r.2, path ∈ w.displaced := by
  induction files generalizing d placed with
  | nil =>
    cases hrun
    exact hplaced
  | cons f rest ih =>
    rw [FileMap.place_cons] at hrun
    split at hrun
    · refine ih (fun g hg => hfiles g (List.mem_cons_of_mem f hg)) ?_ hrun
      intro path hpath
      rcases List.mem_append.mp hpath with hpath | hpath
      · exact hplaced path hpath
      · rw [List.mem_singleton.mp hpath]
        exact target_mem_displaced (hfiles f List.mem_cons_self)
    · cases hrun
      exact hplaced

/-- How far a swap has come: nothing but what a commit owns has changed, and what an undoing or the
end of the commit will touch is owned too. -/
theorem displacing_of_swap {r : Except WriteError Unit} {done : Progress}
    (hregular : Regular d w) (hrun : (w.swap : StateM Disk _).run d = ((r, done), d')) :
    ∃ d₁, Displacing d w d₁ done.aside ∧ ChangedWithin (Owned d w) d d' ∧
      ∀ path ∈ done.placed, path ∈ w.displaced := by
  unfold swap at hrun
  rw [run_bind_state] at hrun
  rcases hdisplace : (displace w.displaced [] : StateM Disk _).run d with ⟨⟨r₁, aside⟩, d₁⟩
  have hmoved := (Displacing.start d w).run hregular (fun _ h => h) hdisplace
  have hstep : (displace (w.staged.map (·.target) ++ w.removals) [] : StateM Disk _).run d =
      ((r₁, aside), d₁) := hdisplace
  rw [hstep] at hrun
  refine ⟨d₁, ?_⟩
  cases r₁ with
  | error e =>
    cases hrun
    exact ⟨hmoved, hmoved.changed, by simp⟩
  | ok u =>
    dsimp only at hrun
    rw [run_bind_state] at hrun
    cases hrun
    refine ⟨hmoved, hmoved.changed.trans ?_, ?_⟩
    · exact staysWithin_place hregular (fun _ h => h) d₁ hmoved.changed.sameDirectories
    · have hnone : ∀ path ∈ ([] : List String), path ∈ w.displaced := fun _ h => nomatch h
      exact mem_displaced_of_place (fun _ h => h) hnone rfl

theorem Displacing.undo (h : Displacing d₀ w d aside) (hregular : Regular d₀ w)
    {placed : List String} (hplaced : ∀ path ∈ placed, path ∈ w.displaced) :
    StaysWithin (Owned d₀ w) d₀ (w.undo ⟨aside, placed⟩) := by
  refine (staysWithin_removeAll fun path hpath place hplace => ?_).bind fun _ => ?_
  · exact .displaced (hplaced path hpath) hplace
  refine (h.restore fun m hm => List.mem_reverse.mp hm).bind fun lost => ?_
  refine (staysWithin_removeAll fun path hpath place hplace => ?_).bind fun _ => ?_
  · obtain ⟨f, hf, rfl⟩ := List.mem_map.mp hpath
    rw [hregular.named f hf] at hplace
    exact .temporary hf hplace
  · exact staysWithin_pure lost

theorem changedWithin_commit (hregular : Regular d w) :
    ChangedWithin (Owned d w) d ((w.commit : StateM Disk _).run d).2 := by
  rcases hswap : (w.swap : StateM Disk _).run d with ⟨⟨r, done⟩, d'⟩
  obtain ⟨d₁, hmoved, hchanged, hplaced⟩ := displacing_of_swap hregular hswap
  have hsame := hchanged.sameDirectories
  refine hchanged.trans ?_
  unfold commit
  rw [run_bind_state, hswap]
  cases r with
  | error e => exact (hmoved.undo hregular hplaced).bind (fun _ => staysWithin_pure _) d' hsame
  | ok u =>
    refine StaysWithin.bind (staysWithin_removeAll fun path hpath place hplace => ?_)
      (fun _ => staysWithin_pure _) d' hsame
    obtain ⟨m, hm, rfl⟩ := List.mem_map.mp hpath
    exact .parked (hmoved.parked m hm place hplace)

/-- Whatever comes of it, a commit changes only places that it owns. -/
theorem commit_frame (hregular : Regular d w) (hplace : ¬ Owned d w place) :
    ((w.commit : StateM Disk _).run d).2.node? place = d.node? place :=
  (changedWithin_commit hregular).frame place hplace

/-- A text is staged over one file and beside another name; two more files stand there. -/
def drawer : Disk where
  nodes := [(["out"], .directory), (["out", "a"], .file ⟨#[1]⟩), (["out", "a.tmp"], .file ⟨#[3]⟩),
    (["out", "b.tmp"], .file ⟨#[4]⟩), (["out", "a.bak"], .file ⟨#[8]⟩),
    (["out", "b.bak"], .file ⟨#[9]⟩)]

def drawerWrites : StagedWrites where
  staged := [⟨"out/a.tmp", "out/a"⟩, ⟨"out/b.tmp", "out/b"⟩]

theorem place_of_reaches (h : d.Reaches path place) :
    (d.entry path).toOption.map Entry.place = some place := by
  obtain ⟨e, hentry, hplace, -, -, -⟩ := h.entry
  rw [hentry, ← hplace]
  rfl

theorem regular_drawer : drawer.Regular drawerWrites := by
  have hplain : ∀ path ∈ drawerWrites.staged.map (·.temporary) ++ drawerWrites.displaced,
      ¬ drawer.IsDirectory path := plain_of_isDir_run (by decide +kernel)
  refine ⟨by decide +kernel, ?_, ?_⟩
  · exact fun f hf => hplain _ (List.mem_append_left _ (List.mem_map_of_mem hf))
  · exact fun path hpath => hplain _ (List.mem_append_right _ hpath)

theorem parked_drawer (h : Parked drawer drawerWrites place) : place = ["out", "a.bak"] := by
  have hpaths : ∀ path ∈ drawerWrites.displaced, path = "out/a" ∨ path = "out/b" := by
    decide +kernel
  have hbeside : (drawer.entry (Path.sibling "out/a" ".bak")).toOption.map Entry.place =
      some ["out", "a.bak"] := by decide +kernel
  have hnew : (drawer.entry "out/b").toOption.map Entry.place = some ["out", "b"] := by
    decide +kernel
  induction h with
  | @there path place backup hpath hreaches hthere hbackup =>
    rcases hpaths path hpath with rfl | rfl
    · exact Option.some.inj ((place_of_reaches hbackup).symm.trans hbeside)
    · have hplace : place = ["out", "b"] :=
        Option.some.inj ((place_of_reaches hreaches).symm.trans hnew)
      exact absurd (by rw [hplace]; rfl) hthere
  | @again path place backup hpath hreaches _ hbackup ih =>
    rcases hpaths path hpath with rfl | rfl
    · exact Option.some.inj ((place_of_reaches hbackup).symm.trans hbeside)
    · have hplace : place = ["out", "b"] :=
        Option.some.inj ((place_of_reaches hreaches).symm.trans hnew)
      exact absurd (ih.symm.trans hplace) (by decide)

/-- Nothing was there to be kept beside the new file, so that what stands under that name stays. -/
theorem commit_frame_drawer :
    drawer.Regular drawerWrites ∧ ¬ drawer.Owned drawerWrites ["out", "b.bak"] ∧
      ((drawerWrites.commit : StateM Disk _).run drawer).1 = .ok ["out/a", "out/b"] ∧
      ((drawerWrites.commit : StateM Disk _).run drawer).2.node? ["out", "b.bak"] =
        drawer.node? ["out", "b.bak"] := by
  have hforeign : ¬ drawer.Owned drawerWrites ["out", "b.bak"] := by
    have hdisplaced : ∀ path ∈ drawerWrites.displaced,
        (drawer.entry path).toOption.map Entry.place ≠ some ["out", "b.bak"] := by decide +kernel
    have htemporary : ∀ f ∈ drawerWrites.staged,
        (drawer.entry (Path.sibling f.target ".tmp")).toOption.map Entry.place ≠
          some ["out", "b.bak"] := by decide +kernel
    intro howned
    cases howned with
    | displaced hpath hreaches => exact hdisplaced _ hpath (place_of_reaches hreaches)
    | temporary hf hreaches => exact htemporary _ hf (place_of_reaches hreaches)
    | parked hparked => exact absurd (parked_drawer hparked) (by decide)
  exact ⟨regular_drawer, hforeign, by decide +kernel, commit_frame regular_drawer hforeign⟩

def crate : Disk where
  nodes := [(["out"], .directory), (["out", "a.tmp"], .directory),
    (["out", "a.tmp", "c"], .file ⟨#[7]⟩), (["out", "b.tmp"], .file ⟨#[4]⟩)]

/-- What stands under the name of a backup is lost, and what is below a directory in the place of a
staged file is moved. Neither is a target, nor beside one under the name of a staged file. -/
theorem commit_moves_bystanders :
    (drawer.Regular drawerWrites ∧
      (∀ path ∈ drawerWrites.displaced ++ drawerWrites.staged.map (·.temporary),
        ¬ drawer.Reaches path ["out", "a.bak"]) ∧
      drawer.fileAt ["out", "a.bak"] = some ⟨#[8]⟩ ∧
      ((drawerWrites.commit : StateM Disk _).run drawer).1 = .ok ["out/a", "out/b"] ∧
      ((drawerWrites.commit : StateM Disk _).run drawer).2.fileAt ["out", "a.bak"] = none) ∧
    (∀ path ∈ drawerWrites.displaced, ¬ crate.IsDirectory path) ∧
      (∀ path ∈ drawerWrites.displaced ++ drawerWrites.staged.map (·.temporary),
        ¬ crate.Reaches path ["out", "a.tmp", "c"]) ∧
      crate.fileAt ["out", "a.tmp", "c"] = some ⟨#[7]⟩ ∧
      ((drawerWrites.commit : StateM Disk _).run crate).2.fileAt ["out", "a.tmp", "c"] = none := by
  have hbackup : ∀ path ∈ drawerWrites.displaced ++ drawerWrites.staged.map (·.temporary),
      (drawer.entry path).toOption.map Entry.place ≠ some ["out", "a.bak"] := by decide +kernel
  have hbelow : ∀ path ∈ drawerWrites.displaced ++ drawerWrites.staged.map (·.temporary),
      (crate.entry path).toOption.map Entry.place ≠ some ["out", "a.tmp", "c"] := by decide +kernel
  have hplain : ∀ path ∈ drawerWrites.displaced, ¬ crate.IsDirectory path :=
    plain_of_isDir_run (by decide +kernel)
  refine ⟨⟨regular_drawer, ?_, by decide +kernel, by decide +kernel, by decide +kernel⟩, hplain,
    ?_, by decide +kernel, by decide +kernel⟩
  · exact fun path hpath hreaches => hbackup path hpath (place_of_reaches hreaches)
  · exact fun path hpath hreaches => hbelow path hpath (place_of_reaches hreaches)

end Disk

end RadioDriver
