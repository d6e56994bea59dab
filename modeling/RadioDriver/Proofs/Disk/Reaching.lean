import RadioDriver.Proofs.Disk.Directory

namespace RadioDriver

namespace Disk

variable {d d' d'' : Disk} {place other : Location} {path : String}

/-- The bytes of the regular file at a place. -/
def fileAt (d : Disk) (place : Location) : Option ByteArray :=
  match d.node? place with
  | some (.file bytes) => some bytes
  | _ => none

theorem fileAt_eq_some {bytes : ByteArray} :
    d.fileAt place = some bytes ↔ d.node? place = some (.file bytes) := by
  unfold fileAt
  split
  · next h => simp [h]
  · next h =>
    constructor
    · intro hc
      cases hc
    · intro hc
      exact absurd hc (h bytes)

theorem fileAt_congr (h : d'.node? place = d.node? place) : d'.fileAt place = d.fileAt place := by
  rw [fileAt, fileAt, h]

/-- The path names an entry of a directory that is there, with nothing behind the name. -/
structure Reaches (d : Disk) (path : String) (place : Location) : Prop where
  check : checkPath path = .ok ()
  split : ∃ front name directory, Text.split '/' path = front ++ [name] ∧ Path.IsName name ∧
    name.utf8ByteSize ≤ maxName ∧ d.Opens (d.start path) front directory ∧
    place = directory ++ [name]

theorem Reaches.ne_nil (h : d.Reaches path place) : place ≠ [] := by
  obtain ⟨front, name, directory, -, -, -, -, rfl⟩ := h.split
  exact List.append_ne_nil_of_right_ne_nil _ (List.cons_ne_nil _ _)

theorem Reaches.unique (h : d.Reaches path place) (h' : d.Reaches path other) : place = other := by
  obtain ⟨front, name, directory, hsplit, -, -, hopens, rfl⟩ := h.split
  obtain ⟨front', name', directory', hsplit', -, -, hopens', rfl⟩ := h'.split
  obtain ⟨rfl, hname⟩ := List.append_inj' (hsplit.symm.trans hsplit') rfl
  have hdirectory : directory = directory' := Except.ok.inj (hopens.1.symm.trans hopens'.1)
  rw [hname, hdirectory]

theorem Reaches.congr (h : d.Reaches path place) (hhere : d'.here = d.here)
    (hdirs : ∀ place, d.node? place = some .directory → d'.node? place = some .directory) :
    d'.Reaches path place := by
  obtain ⟨front, name, directory, hsplit, hname, hsize, hopens, hplace⟩ := h.split
  have hstart : d'.start path = d.start path := by rw [start, start, hhere]
  have hkeep : ∀ {names start goal}, d.Opens start names goal → d'.Opens start names goal := by
    intro names
    induction names with
    | nil => exact fun h => ⟨h.1, hdirs _ h.2⟩
    | cons name rest ih =>
      intro start goal h
      rw [opens_cons] at h ⊢
      refine ⟨hdirs _ h.1, ?_⟩
      grind
  refine ⟨h.check, front, name, directory, hsplit, hname, hsize, ?_, hplace⟩
  rw [hstart]
  exact hkeep hopens

theorem Reaches.entry (h : d.Reaches path place) :
    ∃ e, d.entry path = .ok e ∧ e.place = place ∧ e.isSpecial = false ∧ e.slashed = false ∧
      e.check = .ok () := by
  obtain ⟨front, name, directory, hsplit, hname, hsize, ⟨hwalk, hdir⟩, rfl⟩ := h.split
  refine ⟨⟨directory, name, false⟩, ?_, rfl, ?_, rfl, if_neg (Nat.not_lt.mpr hsize)⟩
  · rw [entry_eq hsplit hname.1, h.check, hwalk]
    simp only [Except.bind, hdir]
  · simp [Entry.isSpecial, hname.1, hname.2.1, hname.2.2.1]

def unslashed (path : String) : List String :=
  ((Text.split '/' path).reverse.dropWhile (· == "")).reverse

theorem parts_of_entry {e : Entry} (h : d.entry path = .ok e) :
    checkPath path = .ok () ∧ d.Opens (d.start path) (unslashed path).dropLast e.directory ∧
      e.name = (unslashed path).getLast?.getD "" ∧
      e.slashed = decide ((unslashed path).length < (Text.split '/' path).length) := by
  unfold Disk.entry at h
  cases hcheck : checkPath path with
  | error e' =>
    rw [hcheck] at h
    cases h
  | ok u =>
    cases hwalk : d.walk (d.start path) (unslashed path).dropLast with
    | error e' =>
      simp only [bind, Except.bind, hcheck] at h
      rw [← unslashed, hwalk] at h
      cases h
    | ok directory =>
      simp only [bind, Except.bind, hcheck] at h
      rw [← unslashed, hwalk] at h
      rcases hnode : d.node? directory with - | - | bytes
      · simp only [hnode] at h
        cases h
      · simp only [hnode] at h
        cases h
        exact ⟨rfl, ⟨hwalk, hnode⟩, rfl, rfl⟩
      · simp only [hnode] at h
        cases h

theorem reaches_of_entry {e : Entry} (h : d.entry path = .ok e) (hspecial : e.isSpecial = false)
    (hslashed : e.slashed = false) (hcheck : e.check = .ok ()) : d.Reaches path e.place := by
  obtain ⟨hpath, hopens, hname, hend⟩ := parts_of_entry h
  have hwhole : unslashed path = Text.split '/' path := by
    have hlength : ¬ (unslashed path).length < (Text.split '/' path).length := by
      rw [hslashed] at hend
      simpa using hend.symm
    have hsuffix : (Text.split '/' path).reverse.dropWhile (· == "") <:+
        (Text.split '/' path).reverse := List.dropWhile_suffix _
    rw [unslashed, List.length_reverse] at hlength
    have hsame := hsuffix.eq_of_length (by
      have hle := hsuffix.length_le
      rw [List.length_reverse] at hle ⊢
      omega)
    rw [unslashed, hsame, List.reverse_reverse]
  rw [hwhole] at hopens hname
  obtain ⟨front, last, hsplit⟩ : ∃ front last, Text.split '/' path = front ++ [last] := by
    rcases List.eq_nil_or_concat (Text.split '/' path) with hnil | ⟨front, last, hsplit⟩
    · exact absurd hnil (Text.split_ne_nil _ _)
    · exact ⟨front, last, by rw [hsplit, List.concat_eq_append]⟩
  have hlast : e.name = last := by rw [hname, hsplit, List.getLast?_concat, Option.getD_some]
  rw [hsplit, List.dropLast_concat] at hopens
  have hisName : Path.IsName last := by
    rw [Entry.isSpecial, hlast] at hspecial
    simp only [Bool.or_eq_false_iff, beq_eq_false_iff_ne] at hspecial
    have hslash : '/' ∉ last.toList := by
      apply Text.not_mem_of_mem_split
      rw [hsplit]
      exact List.mem_append_right _ List.mem_cons_self
    exact ⟨hspecial.1.1, hspecial.1.2, hspecial.2, hslash⟩
  have hsize : last.utf8ByteSize ≤ maxName := by
    rw [Entry.check, hlast] at hcheck
    split at hcheck
    · cases hcheck
    · omega
  refine ⟨hpath, front, last, e.directory, hsplit, hisName, hsize, hopens, ?_⟩
  rw [Entry.place, hlast]

theorem write_eq_ok_iff {bytes : ByteArray} :
    d.write path bytes = .ok d' ↔
      ∃ place, d.Reaches path place ∧ d.node? place ≠ some .directory ∧
        d' = d.put place (.file bytes) := by
  constructor
  · intro h
    unfold Disk.write at h
    cases hentry : d.entry path with
    | error e => rw [hentry] at h; cases h
    | ok e =>
      simp only [bind, Except.bind, hentry] at h
      split at h
      · cases h
      · next hplain =>
        rw [Bool.or_eq_true, not_or, Bool.not_eq_true, Bool.not_eq_true] at hplain
        cases hcheck : e.check with
        | error e' => rw [hcheck] at h; cases h
        | ok u =>
          rw [hcheck] at h
          have hreaches := reaches_of_entry hentry hplain.1 hplain.2 hcheck
          dsimp only at h
          split at h
          · cases h
          · next hdir => exact ⟨_, hreaches, hdir, (Except.ok.inj h).symm⟩
  · rintro ⟨place, hreaches, hdir, rfl⟩
    obtain ⟨e, hentry, rfl, hspecial, hslashed, hcheck⟩ := hreaches.entry
    unfold Disk.write
    simp only [bind, Except.bind, hentry, hspecial, hslashed, hcheck, Bool.or_self,
      Bool.false_eq_true, if_false]
    rfl

theorem removeFile_eq_ok_iff :
    d.removeFile path = .ok d' ↔
      ∃ place bytes, d.Reaches path place ∧ d.node? place = some (.file bytes) ∧
        d' = d.erase place := by
  constructor
  · intro h
    unfold Disk.removeFile at h
    cases hentry : d.entry path with
    | error e => rw [hentry] at h; cases h
    | ok e =>
      simp only [bind, Except.bind, hentry] at h
      split at h
      · cases h
      · next hplain =>
        rw [Bool.not_eq_true] at hplain
        cases hcheck : e.check with
        | error e' => rw [hcheck] at h; cases h
        | ok u =>
          rw [hcheck] at h
          dsimp only at h
          split at h
          · cases h
          · cases h
          · next bytes hnode =>
            split at h
            · cases h
            · next hslashed =>
              rw [Bool.not_eq_true] at hslashed
              exact ⟨_, bytes, reaches_of_entry hentry hplain hslashed hcheck, hnode,
                (Except.ok.inj h).symm⟩
  · rintro ⟨place, bytes, hreaches, hnode, rfl⟩
    obtain ⟨e, hentry, rfl, hspecial, hslashed, hcheck⟩ := hreaches.entry
    unfold Disk.removeFile
    simp only [bind, Except.bind, hentry, hspecial, hslashed, hcheck, hnode, Bool.false_eq_true,
      if_false]
    rfl

theorem removeFile_of_write_error {bytes : ByteArray} {e : OsError}
    (h : d.write path bytes = .error e) : ∃ e', d.removeFile path = .error e' := by
  cases hremove : d.removeFile path with
  | error e' => exact ⟨e', rfl⟩
  | ok d' =>
    obtain ⟨place, old, hreaches, hnode, -⟩ := removeFile_eq_ok_iff.mp hremove
    have hwrite : d.write path bytes = .ok (d.put place (.file bytes)) :=
      write_eq_ok_iff.mpr ⟨place, hreaches, by simp [hnode], rfl⟩
    rw [h] at hwrite
    cases hwrite

theorem walk_name {directory : Location} {name : String}
    (hdir : d.node? directory = some .directory) (hname : Path.IsName name) :
    d.walk directory [name] =
      if maxName < name.utf8ByteSize then .error .nameTooLong else .ok (directory ++ [name]) := by
  have hskip : ¬ (name = "" ∨ name = ".") := not_or.mpr ⟨hname.1, hname.2.1⟩
  rw [walk_cons_of_directory hdir, if_neg hskip, if_neg hname.2.2.1]
  rfl

theorem Reaches.lookup {node : Node} (h : d.Reaches path place)
    (hnode : d.node? place = some node) : d.lookup path = .ok (place, node) := by
  obtain ⟨front, name, directory, hsplit, hname, hsize, ⟨hwalk, hdir⟩, rfl⟩ := h.split
  rw [lookup_eq hsplit, h.check, hwalk]
  simp only [Except.bind, walk_name hdir hname, if_neg (Nat.not_lt.mpr hsize), hnode]

theorem reaches_of_lookup {front : List String} {name : String} {node : Node}
    (hsplit : Text.split '/' path = front ++ [name]) (hname : Path.IsName name)
    (h : d.lookup path = .ok (place, node)) :
    d.Reaches path place ∧ d.node? place = some node := by
  rw [lookup_eq hsplit] at h
  cases hcheck : checkPath path with
  | error e => rw [hcheck] at h; cases h
  | ok u =>
    cases hwalk : d.walk (d.start path) front with
    | error e => rw [hcheck, hwalk] at h; cases h
    | ok directory =>
      rw [hcheck, hwalk] at h
      simp only [Except.bind] at h
      cases hlast : d.walk directory [name] with
      | error e => rw [hlast] at h; cases h
      | ok last =>
        rw [hlast] at h
        have hdir := directory_of_walk_cons hlast
        rw [walk_name hdir hname] at hlast
        split at hlast
        · cases hlast
        · next hsize =>
          cases hlast
          dsimp only at h
          split at h
          · next found hfound =>
            cases h
            exact ⟨⟨hcheck, front, name, directory, hsplit, hname, Nat.le_of_not_lt hsize,
              ⟨hwalk, hdir⟩, rfl⟩, hfound⟩
          · cases h

/-- What one disk holds the other holds too, and its files are no others. -/
structure Extends (d d' : Disk) : Prop where
  here : d'.here = d.here
  node : ∀ {place node}, d.node? place = some node → d'.node? place = some node
  file : ∀ {place bytes}, d'.node? place = some (.file bytes) → d.node? place = some (.file bytes)

theorem Extends.refl (d : Disk) : Extends d d := ⟨rfl, id, id⟩

theorem Extends.trans (h : Extends d d') (h' : Extends d' d'') : Extends d d'' :=
  ⟨h'.here.trans h.here, fun hnode => h'.node (h.node hnode), fun hfile => h.file (h'.file hfile)⟩

theorem Extends.fileAt_eq (h : Extends d d') (place : Location) :
    d'.fileAt place = d.fileAt place := by
  apply Option.ext
  intro bytes
  rw [fileAt_eq_some, fileAt_eq_some]
  exact ⟨h.file, h.node⟩

theorem Extends.reaches (h : Extends d d') (hreaches : d.Reaches path place) :
    d'.Reaches path place := hreaches.congr h.here fun _ => h.node

theorem extends_of_makeDir (h : d.makeDir path = .ok d') : Extends d d' := by
  unfold Disk.makeDir at h
  cases hentry : d.entry path with
  | error e => rw [hentry] at h; cases h
  | ok e =>
    simp only [bind, Except.bind, hentry] at h
    split at h
    · cases h
    · cases hcheck : e.check with
      | error e' => rw [hcheck] at h; cases h
      | ok u =>
        rw [hcheck] at h
        dsimp only at h
        split at h
        · cases h
        · next hnone =>
          cases h
          have hplace : e.place ≠ [] := List.append_ne_nil_of_right_ne_nil _ (List.cons_ne_nil _ _)
          refine ⟨rfl, ?_, ?_⟩
          · intro place node hnode
            rw [node?_put_of_ne]
            · exact hnode
            · rintro rfl
              rw [hnone] at hnode
              cases hnode
          · intro place bytes hnode
            by_cases hsame : place = e.place
            · rw [hsame, node?_put_self d _ hplace] at hnode
              cases hnode
            · rwa [node?_put_of_ne d _ hsame] at hnode

/-- A program that may make directories and does nothing else to a disk. -/
def Grows {α : Type} (x : StateM Disk α) : Prop := ∀ d, Extends d (x.run d).2

theorem Grows.bind {α β : Type} {x : StateM Disk α} {f : α → StateM Disk β} (h : Grows x)
    (hf : ∀ a, Grows (f a)) : Grows (x >>= f) := by
  intro d
  rw [run_bind_state]
  exact (h d).trans (hf _ _)

theorem grows_pure {α : Type} (a : α) : Grows (pure a) := fun d => Extends.refl d

theorem grows_makeDir (path : String) : Grows (Files.makeDir path) := by
  intro d
  show Extends d ((change (·.makeDir path)).run d).2
  rw [change_run]
  cases h : d.makeDir path with
  | error e => exact Extends.refl d
  | ok d' => exact extends_of_makeDir h

theorem grows_makeDirOnce (path : String) : Grows (Files.makeDirOnce path) := by
  refine (grows_makeDir path).bind ?_
  rintro (e | u)
  · refine Grows.bind (Grows.bind (fun d => Extends.refl d) fun _ => grows_pure _) fun isDir => ?_
    split <;> exact grows_pure _
  · exact grows_pure _

theorem grows_makeDirsWithin (depth : Nat) (path : String) :
    Grows (Files.makeDirsWithin depth path) := by
  induction depth generalizing path with
  | zero => exact grows_pure _
  | succ depth ih =>
    rw [Files.makeDirsWithin]
    split
    · exact grows_pure _
    · refine (grows_makeDirOnce path).bind fun made => ?_
      split
      · exact grows_pure _
      · split
        · exact grows_pure _
        · refine (ih _).bind fun above => ?_
          split
          · exact grows_pure _
          · exact grows_makeDirOnce path
      · exact grows_pure _

theorem grows_makeDirs (path : String) : Grows (Files.makeDirs path) :=
  grows_makeDirsWithin _ path

end Disk

end RadioDriver
