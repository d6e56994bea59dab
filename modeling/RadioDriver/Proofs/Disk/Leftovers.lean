import RadioDriver.Proofs.Disk.Reaching
import RadioDriver.Proofs.Disk.Undo

namespace RadioDriver

theorem Path.split_sibling {ending : String} (he : IsEnding ending) (target : String) :
    ∃ front name, Text.split '/' (sibling target ending) = front ++ [name] ∧ IsName name := by
  have hchild : ∀ directory name, IsName name →
      ∃ front name', Text.split '/' (child directory name) = front ++ [name'] ∧ IsName name' := by
    intro directory name h
    obtain ⟨front, hsplit, -⟩ := split_child h
    exact ⟨front, name, hsplit, h⟩
  unfold sibling withFileName
  cases hname : fileName? target with
  | some name => exact hchild _ _ (he.isName_append (isName_of_fileName? hname).2.2.2)
  | none =>
    rw [Option.getD_none, String.empty_append]
    exact hchild _ _ he.isName

namespace Disk

open StagedWrites

variable {d₀ d d' : Disk} {place : Location} {target : String} {node : Node} {bytes : ByteArray}
  {staged : List StagedFile} {w : StagedWrites}

theorem lookup_sibling_iff :
    d.lookup (Path.sibling target ".tmp") = .ok (place, node) ↔
      d.Reaches (Path.sibling target ".tmp") place ∧ d.node? place = some node := by
  obtain ⟨front, name, hsplit, hname⟩ := Path.split_sibling isEnding_tmp target
  exact ⟨reaches_of_lookup hsplit hname, fun h => h.1.lookup h.2⟩

/-- Files were staged between two disks: each stands beside its target on the second disk, and all
other files are as on the first. -/
structure Staged (d₀ d : Disk) (staged : List StagedFile) : Prop where
  named : ∀ f ∈ staged, f.temporary = Path.sibling f.target ".tmp"
  left : ∀ f ∈ staged, ∃ place bytes, d.lookup f.temporary = .ok (place, .file bytes)
  frame : ∀ place, (∀ f ∈ staged, ∀ node, d.lookup f.temporary ≠ .ok (place, node)) →
    d.fileAt place = d₀.fileAt place

theorem staged_nil (d : Disk) : Staged d d [] := by
  constructor
  · simp
  · simp
  · intro place _
    rfl

theorem Staged.extends (h : Staged d₀ d staged) (hextends : Extends d d') :
    Staged d₀ d' staged := by
  have hlookup : ∀ f ∈ staged, ∀ {place node}, d.lookup f.temporary = .ok (place, node) →
      d'.lookup f.temporary = .ok (place, node) := by
    intro f hf place node hfound
    rw [h.named f hf, lookup_sibling_iff] at hfound ⊢
    exact ⟨hextends.reaches hfound.1, hextends.node hfound.2⟩
  refine ⟨h.named, ?_, ?_⟩
  · intro f hf
    obtain ⟨place, bytes, hfound⟩ := h.left f hf
    exact ⟨place, bytes, hlookup f hf hfound⟩
  · intro place hplace
    rw [hextends.fileAt_eq]
    exact h.frame place fun f hf node hfound => hplace f hf node (hlookup f hf hfound)

theorem Staged.write (h : Staged d₀ d staged)
    (hwrite : d.write (Path.sibling target ".tmp") bytes = .ok d') :
    Staged d₀ d' (staged ++ [⟨Path.sibling target ".tmp", target⟩]) := by
  obtain ⟨p, hreaches, hdir, rfl⟩ := write_eq_ok_iff.mp hwrite
  have hnil := hreaches.ne_nil
  have hsame : SameDirectories d (d.put p (.file bytes)) := .of_put hnil hdir
  have hkeep : ∀ {path q}, d.Reaches path q → (d.put p (.file bytes)).Reaches path q :=
    fun hq => hq.congr hsame.1.symm fun q => (hsame.2 q).mp
  have hnew : (d.put p (.file bytes)).lookup (Path.sibling target ".tmp") = .ok (p, .file bytes) :=
    (hkeep hreaches).lookup (node?_put_self d _ hnil)
  -- a file that was staged before may have been written over, but it is a file
  have hold : ∀ f ∈ staged, ∀ {q node}, d.lookup f.temporary = .ok (q, node) →
      (d.put p (.file bytes)).lookup f.temporary =
        .ok (q, if q = p then .file bytes else node) := by
    intro f hf q node hfound
    rw [h.named f hf, lookup_sibling_iff] at hfound ⊢
    refine ⟨hkeep hfound.1, ?_⟩
    split
    · next heq => rw [heq, node?_put_self d _ hnil]
    · next hne => rw [node?_put_of_ne d _ hne, hfound.2]
  refine ⟨?_, ?_, ?_⟩
  · intro f hf
    rcases List.mem_append.mp hf with hf | hf
    · exact h.named f hf
    · rw [List.mem_singleton.mp hf]
  · intro f hf
    rcases List.mem_append.mp hf with hf | hf
    · obtain ⟨q, old, hfound⟩ := h.left f hf
      refine ⟨q, if q = p then bytes else old, ?_⟩
      rw [hold f hf hfound]
      split <;> rfl
    · rw [List.mem_singleton.mp hf]
      exact ⟨p, bytes, hnew⟩
  · intro q hq
    have hne : q ≠ p := by
      rintro rfl
      exact hq _ (List.mem_append_right _ List.mem_cons_self) _ hnew
    rw [fileAt_congr (node?_put_of_ne d _ hne)]
    refine h.frame q fun f hf node hfound => ?_
    exact hq f (List.mem_append_left _ hf) _ (hold f hf hfound)

theorem stage_of_write (w : StagedWrites)
    (h : d.write (Path.sibling target ".tmp") bytes = .ok d') :
    (w.stage target bytes : StateM Disk _).run d =
      ((.ok (), { w with staged := w.staged ++ [⟨Path.sibling target ".tmp", target⟩] }), d') := by
  have hwrite : (Files.write (Path.sibling target ".tmp") bytes : StateM Disk _).run d =
      (.ok (), d') := by
    show (change (·.write (Path.sibling target ".tmp") bytes)).run d = _
    rw [change_run, h]
  unfold stage
  rw [run_bind_state, hwrite]
  rfl

theorem stage_of_write_error (w : StagedWrites) {e : OsError}
    (h : d.write (Path.sibling target ".tmp") bytes = .error e) :
    (w.stage target bytes : StateM Disk _).run d =
      ((.error ⟨Path.sibling target ".tmp", e⟩, w), d) := by
  have hwrite : (Files.write (Path.sibling target ".tmp") bytes : StateM Disk _).run d =
      (.error e, d) := by
    show (change (·.write (Path.sibling target ".tmp") bytes)).run d = _
    rw [change_run, h]
  -- what could not be written is no file, so that nothing is removed
  obtain ⟨e', hremove⟩ := removeFile_of_write_error h
  have hgone : (Files.removeFile (Path.sibling target ".tmp") : StateM Disk _).run d =
      (.error e', d) := by
    show (change (·.removeFile (Path.sibling target ".tmp"))).run d = _
    rw [change_run, hremove]
  unfold stage
  rw [run_bind_state, hwrite]
  dsimp only
  rw [run_bind_state, hgone]
  rfl

theorem stage_run {r : Except WriteError Unit} {w' : StagedWrites}
    (hrun : (w.stage target bytes : StateM Disk _).run d = ((r, w'), d')) :
    (r = .ok () ∧ d.write (Path.sibling target ".tmp") bytes = .ok d' ∧
        w'.staged = w.staged ++ [⟨Path.sibling target ".tmp", target⟩]) ∨
      ((∃ e e', r = .error e ∧ d.write (Path.sibling target ".tmp") bytes = .error e') ∧ d' = d ∧
        w' = w) := by
  cases hwrite : d.write (Path.sibling target ".tmp") bytes with
  | ok d₁ =>
    rw [stage_of_write w hwrite] at hrun
    cases hrun
    exact .inl ⟨rfl, rfl, rfl⟩
  | error e =>
    rw [stage_of_write_error w hwrite] at hrun
    cases hrun
    exact .inr ⟨⟨_, e, rfl, rfl⟩, rfl, rfl⟩

theorem Staged.stage {r : Except WriteError Unit} {w' : StagedWrites} (h : Staged d₀ d w.staged)
    (hrun : (w.stage target bytes : StateM Disk _).run d = ((r, w'), d')) :
    Staged d₀ d' w'.staged := by
  rcases stage_run hrun with ⟨-, hwrite, hstaged⟩ | ⟨-, rfl, rfl⟩
  · rw [hstaged]
    exact h.write hwrite
  · exact h

/-- Nothing is on the second disk that is not on the first, where the directories are the same. -/
structure Shrinks (d d' : Disk) : Prop where
  sameDirectories : SameDirectories d d'
  node : ∀ {place node}, d'.node? place = some node → d.node? place = some node

theorem Shrinks.refl (d : Disk) : Shrinks d d := ⟨⟨rfl, fun _ => Iff.rfl⟩, id⟩

theorem shrinks_removeFile (path : String) (d : Disk) :
    Shrinks d ((Files.removeFile path : StateM Disk _).run d).2 := by
  show Shrinks d ((change (·.removeFile path)).run d).2
  rw [change_run]
  cases hremove : d.removeFile path with
  | error e => exact Shrinks.refl d
  | ok d' =>
    -- only a regular file can be removed, so no directory goes
    obtain ⟨place, bytes, hreaches, hnode, rfl⟩ := removeFile_eq_ok_iff.mp hremove
    have hplain : d.node? place ≠ some .directory := by simp [hnode]
    refine ⟨.of_erase hreaches.ne_nil hplain, ?_⟩
    intro other node hother
    by_cases hsame : other = place
    · rw [hsame, node?_erase_self d hreaches.ne_nil] at hother
      cases hother
    · rwa [node?_erase_of_ne d hsame] at hother

/-- No file is where a path leads to on a disk. -/
def NoFile (d : Disk) (path : String) : Prop :=
  ∀ place bytes, d.Reaches path place → d.node? place ≠ some (.file bytes)

theorem NoFile.shrinks {path : String} (h : d.NoFile path) (hshrinks : Shrinks d d') :
    d'.NoFile path := by
  intro place bytes hreaches hnode
  have hback : d.Reaches path place := hreaches.congr hshrinks.sameDirectories.1
    fun other => (hshrinks.sameDirectories.2 other).mpr
  exact h place bytes hback (hshrinks.node hnode)

theorem noFile_removeFile (path : String) (d : Disk) :
    ((Files.removeFile path : StateM Disk _).run d).2.NoFile path := by
  show ((change (·.removeFile path)).run d).2.NoFile path
  rw [change_run]
  cases hremove : d.removeFile path with
  | error e =>
    intro place bytes hreaches hnode
    have hok := removeFile_eq_ok_iff.mpr ⟨place, bytes, hreaches, hnode, rfl⟩
    rw [hremove] at hok
    cases hok
  | ok d' =>
    obtain ⟨place, bytes, hreaches, hnode, rfl⟩ := removeFile_eq_ok_iff.mp hremove
    intro other bytes' hother hfile
    have hplain : d.node? place ≠ some .directory := by simp [hnode]
    have hsame := SameDirectories.of_erase hreaches.ne_nil hplain
    have hback : d.Reaches path other := hother.congr hsame.1 fun q => (hsame.2 q).mpr
    rw [hback.unique hreaches, node?_erase_self d hreaches.ne_nil] at hfile
    cases hfile

theorem noFile_removeAll {paths : List String} {path : String} (d : Disk)
    (h : path ∈ paths ∨ d.NoFile path) :
    ((removeAll paths : StateM Disk Unit).run d).2.NoFile path := by
  induction paths generalizing d with
  | nil => exact h.resolve_left (by simp)
  | cons first rest ih =>
    rw [removeAll, run_bind_state]
    apply ih
    rcases h with h | h
    · rcases List.mem_cons.mp h with rfl | h
      · exact .inr (noFile_removeFile path d)
      · exact .inl h
    · exact .inr (h.shrinks (shrinks_removeFile first d))

theorem noFile_of_commit_error {e : WriteError} {f : StagedFile}
    (hrun : (w.commit : StateM Disk _).run d = (.error e, d')) (hf : f ∈ w.staged) :
    d'.NoFile f.temporary := by
  unfold commit at hrun
  rw [run_bind_state] at hrun
  split at hrun
  · unfold undo at hrun
    cases hrun
    exact noFile_removeAll _ (.inl (List.mem_map_of_mem hf))
  · cases hrun

end Disk

end RadioDriver
