import Mathlib.Tactic.SplitIfs
import RadioDriver.Proofs.Disk.FileMap

namespace RadioDriver

namespace Disk

/-- The names lead from a place to a directory. -/
def Opens (d : Disk) (place : Location) (names : List String) (goal : Location) : Prop :=
  d.walk place names = .ok goal ∧ d.node? goal = some .directory

/-- Both disks begin relative paths in one place and have the same directories. -/
def SameDirectories (d d' : Disk) : Prop :=
  d.here = d'.here ∧
    ∀ place, d.node? place = some .directory ↔ d'.node? place = some .directory

variable {d d' : Disk} {place goal : Location} {names : List String}

theorem walk_cons_of_directory (h : d.node? place = some .directory) (name : String)
    (rest : List String) :
    d.walk place (name :: rest) =
      if name = "" ∨ name = "." then d.walk place rest
      else if name = ".." then d.walk place.dropLast rest
      else if maxName < name.utf8ByteSize then .error .nameTooLong
      else d.walk (place ++ [name]) rest := by
  rw [walk, h]

theorem directory_of_walk_cons {name : String} {rest : List String}
    (h : d.walk place (name :: rest) = .ok goal) : d.node? place = some .directory := by
  rw [walk] at h
  cases hnode : d.node? place with
  | none =>
    rw [hnode] at h
    cases h
  | some node =>
    cases node with
    | directory => rfl
    | file bytes =>
      rw [hnode] at h
      cases h

theorem Opens.start (h : d.Opens place names goal) : d.node? place = some .directory := by
  cases names with
  | nil =>
    have hgoal : place = goal := Except.ok.inj h.1
    rw [hgoal]
    exact h.2
  | cons name rest => exact directory_of_walk_cons h.1

theorem opens_cons {name : String} {rest : List String} :
    d.Opens place (name :: rest) goal ↔ d.node? place = some .directory ∧
      if name = "" ∨ name = "." then d.Opens place rest goal
      else if name = ".." then d.Opens place.dropLast rest goal
      else name.utf8ByteSize ≤ maxName ∧ d.Opens (place ++ [name]) rest goal := by
  by_cases hdir : d.node? place = some .directory
  · unfold Opens
    rw [walk_cons_of_directory hdir]
    split_ifs with hskip hup hsize
    · exact (and_iff_right hdir).symm
    · exact (and_iff_right hdir).symm
    · constructor
      · intro h
        cases h.1
      · intro h
        exact absurd hsize (Nat.not_lt.mpr h.2.1)
    · exact ⟨fun h => ⟨hdir, Nat.le_of_not_lt hsize, h⟩, fun h => h.2.2⟩
  · exact ⟨fun h => absurd h.start hdir, fun h => absurd h.1 hdir⟩

theorem opens_named : d.Opens place (Path.named names) goal ↔ d.Opens place names goal := by
  induction names generalizing place with
  | nil => exact Iff.rfl
  | cons name rest ih =>
    by_cases hskip : name = "" ∨ name = "."
    · have hnamed : Path.named (name :: rest) = Path.named rest := by
        rcases hskip with rfl | rfl <;> rfl
      rw [hnamed, ih, opens_cons, if_pos hskip]
      exact ⟨fun h => ⟨h.start, h⟩, fun h => h.2⟩
    · have hnamed : Path.named (name :: rest) = name :: Path.named rest := by
        apply List.filter_cons_of_pos
        simpa [Path.isComponent] using hskip
      rw [hnamed, opens_cons, opens_cons, if_neg hskip, if_neg hskip, ih, ih]

theorem opens_congr (h : ∀ place, d.node? place = some .directory ↔
    d'.node? place = some .directory) : d.Opens place names goal ↔ d'.Opens place names goal := by
  induction names generalizing place with
  | nil => exact and_congr_right fun _ => h goal
  | cons name rest ih => rw [opens_cons, opens_cons, h, ih, ih, ih]

theorem walk_append (d : Disk) (place : Location) (names more : List String) :
    d.walk place (names ++ more) = d.walk place names >>= fun goal => d.walk goal more := by
  induction names generalizing place with
  | nil => rfl
  | cons name rest ih =>
    rw [List.cons_append, walk, walk]
    cases d.node? place with
    | none => rfl
    | some node =>
      cases node with
      | file bytes => rfl
      | directory =>
        dsimp only
        split
        · exact ih place
        · split
          · exact ih place.dropLast
          · split
            · rfl
            · exact ih (place ++ [name])

def within? (d : Disk) (directory : String) : Option Location :=
  match d.walk (d.start directory) (Text.split '/' directory) with
  | .error _ => none
  | .ok place =>
    match d.node? place with
    | some .directory => some place
    | _ => none

/-- The path names an entry of the directory, with nothing behind the name. -/
structure Names (directory path name : String) : Prop where
  isName : Path.IsName name
  components : Path.components path = Path.components directory ++ [name]
  last : (Text.split '/' path).getLast? = some name

variable {directory path name : String}

theorem within?_eq_some :
    d.within? directory = some goal ↔
      d.Opens (d.start directory) (Text.split '/' directory) goal := by
  unfold within? Opens
  cases hwalk : d.walk (d.start directory) (Text.split '/' directory) with
  | error e => simp
  | ok place =>
    simp only [Except.ok.injEq]
    split
    · next hdir =>
      rw [Option.some.injEq]
      exact ⟨fun heq => ⟨heq, heq ▸ hdir⟩, fun h => h.1⟩
    · next hnot =>
      constructor
      · intro h
        cases h
      · rintro ⟨rfl, hdir⟩
        exact absurd hdir hnot

theorem within?_congr (h : SameDirectories d d') :
    d'.within? directory = d.within? directory := by
  have hstart : d'.start directory = d.start directory := by
    unfold start
    rw [h.1]
  apply Option.ext
  intro goal
  rw [within?_eq_some, within?_eq_some, hstart]
  exact (opens_congr h.2).symm

theorem slash_not_mem_named (path : String) : "/" ∉ Path.named (Text.split '/' path) := by
  intro hmem
  exact Text.not_mem_of_mem_split (List.mem_filter.mp hmem).1 (List.mem_singleton_self '/')

theorem Names.split (h : Names directory path name) :
    ∃ front, Text.split '/' path = front ++ [name] ∧
      Path.named front = Path.named (Text.split '/' directory) ∧
      Path.isAbsolute path = Path.isAbsolute directory := by
  obtain ⟨front, hfront⟩ := List.getLast?_eq_some_iff.mp h.last
  have hcomponents := h.components
  have hroot : "/" ∉ Path.named front := by
    intro hmem
    refine slash_not_mem_named path ?_
    rw [hfront, Path.named_append]
    exact List.mem_append_left _ hmem
  have hroot' : "/" ∉ Path.named (Text.split '/' directory) := slash_not_mem_named directory
  rw [Path.components_eq, Path.components_eq, hfront, Path.named_append,
    Path.named_singleton h.isName] at hcomponents
  refine ⟨front, hfront, ?_⟩
  cases hp : Path.isAbsolute path <;> cases hd : Path.isAbsolute directory <;>
    simp only [hp, hd, if_true, Bool.false_eq_true, if_false] at hcomponents
  · exact ⟨List.append_cancel_right hcomponents, rfl⟩
  · have hsame : Path.named front = "/" :: Path.named (Text.split '/' directory) :=
      List.append_cancel_right hcomponents
    exact absurd (hsame ▸ List.mem_cons_self) hroot
  · have hsame : "/" :: Path.named front = Path.named (Text.split '/' directory) :=
      List.append_cancel_right hcomponents
    exact absurd (hsame ▸ List.mem_cons_self) hroot'
  · exact ⟨List.append_cancel_right (List.cons.inj hcomponents).2, rfl⟩

theorem Names.child (h : Path.IsName name) : Names directory (Path.child directory name) name := by
  obtain ⟨front, hsplit, -⟩ := Path.split_child h
  refine ⟨h, Path.components_child h, ?_⟩
  rw [hsplit, List.getLast?_concat]

theorem Names.sibling (h : Names directory path name) {ending : String}
    (he : Path.IsEnding ending) :
    Names directory (Path.sibling path ending) (name ++ ending) := by
  have hfile := Path.fileName?_of_getLast? h.last h.isName
  have hname := he.isName_append h.isName.2.2.2
  have hparent : Path.components ((Path.parent? path).getD "") = Path.components directory := by
    have hcomponents := Path.components_of_fileName? hfile
    rw [h.components] at hcomponents
    exact (List.append_cancel_right hcomponents).symm
  refine ⟨hname, ?_, ?_⟩
  · rw [Path.components_sibling_of_name hfile he, hparent]
  · rw [Path.sibling, Path.withFileName, hfile]
    exact (Names.child hname).last

theorem Names.opens (h : Names directory path name) {front : List String}
    (hfront : Text.split '/' path = front ++ [name]) :
    d.Opens (d.start path) front goal ↔ d.within? directory = some goal := by
  obtain ⟨front', hfront', hnamed, habs⟩ := h.split
  have hsame : front = front' := List.append_cancel_right (hfront.symm.trans hfront')
  have hstart : d.start path = d.start directory := by
    unfold start
    exact congrArg (fun b => if b = true then [] else d.here) habs
  rw [within?_eq_some, hsame, hstart, ← opens_named, hnamed, opens_named]

theorem entry_eq {front : List String} (hsplit : Text.split '/' path = front ++ [name])
    (hname : name ≠ "") :
    d.entry path = (checkPath path).bind fun _ => (d.walk (d.start path) front).bind fun place =>
      match d.node? place with
      | some .directory => .ok ⟨place, name, false⟩
      | some (.file _) => .error .notADirectory
      | none => .error .notFound := by
  have htrim : ((Text.split '/' path).reverse.dropWhile (· == "")).reverse = front ++ [name] := by
    rw [hsplit, List.reverse_append, List.reverse_singleton, List.singleton_append,
      List.dropWhile_cons_of_neg (by simpa using hname)]
    simp
  have hslashed : decide ((front ++ [name]).length < (front ++ [name]).length) = false :=
    decide_eq_false (Nat.lt_irrefl _)
  unfold Disk.entry
  dsimp only
  rw [htrim, hsplit, List.dropLast_concat, List.getLast?_concat, Option.getD_some, hslashed]
  rfl

theorem Names.entry (h : Names directory path name) {e : Entry} :
    d.entry path = .ok e ↔ checkPath path = .ok () ∧
      ∃ place, d.within? directory = some place ∧ e = ⟨place, name, false⟩ := by
  obtain ⟨front, hfront, -, -⟩ := h.split
  simp only [entry_eq hfront h.isName.1, ← h.opens hfront, Opens]
  cases checkPath path with
  | error e' => simp [Except.bind]
  | ok u =>
    cases d.walk (d.start path) front with
    | error e' => simp [Except.bind]
    | ok place =>
      rcases hnode : d.node? place with - | - | bytes
      · simp [Except.bind, hnode]
      · constructor
        · intro he
          simp only [Except.bind, hnode] at he
          exact ⟨rfl, place, ⟨rfl, hnode⟩, (Except.ok.inj he).symm⟩
        · rintro ⟨-, goal, ⟨hsame, -⟩, rfl⟩
          cases hsame
          simp only [Except.bind, hnode]
      · simp [Except.bind, hnode]

def takes (path : String) : Bool :=
  (checkPath path).isOk &&
    decide (((Text.split '/' path).getLast?.getD "").utf8ByteSize ≤ maxName)

theorem Names.takes (h : Names directory path name) :
    takes path = true ↔ checkPath path = .ok () ∧ name.utf8ByteSize ≤ maxName := by
  unfold Disk.takes
  rw [h.last, Option.getD_some, Bool.and_eq_true, decide_eq_true_iff]
  refine and_congr_left fun _ => ?_
  cases checkPath path with
  | error e => simp [Except.isOk, Except.toBool]
  | ok u => simp [Except.isOk, Except.toBool]

/-- What the entries of a directory are, by the components of their paths. -/
def entriesOf (directory : String) (d : Disk) : Places := fun place =>
  if place.dropLast = Path.components directory then
    (d.within? directory).bind fun base => place.getLast?.bind fun name => d.node? (base ++ [name])
  else none

theorem entriesOf_append (directory other : String) (d : Disk) :
    entriesOf directory d (Path.components directory ++ [other]) =
      (d.within? directory).bind fun base => d.node? (base ++ [other]) := by
  unfold entriesOf
  rw [List.dropLast_concat, if_pos rfl, List.getLast?_concat]
  rfl

theorem Names.entriesOf (h : Names directory path name) (d : Disk) :
    entriesOf directory d (Path.components path) =
      (d.within? directory).bind fun base => d.node? (base ++ [name]) := by
  rw [h.components, entriesOf_append]

theorem lookup_eq {front : List String} (hfront : Text.split '/' path = front ++ [name]) :
    d.lookup path = (checkPath path).bind fun _ =>
      ((d.walk (d.start path) front).bind fun base => d.walk base [name]).bind fun place =>
        match d.node? place with
        | some node => .ok (place, node)
        | none => .error .notFound := by
  unfold Disk.lookup
  rw [hfront, walk_append]
  cases checkPath path with
  | error e => rfl
  | ok u => cases d.walk (d.start path) front <;> rfl

theorem Names.lookup (h : Names directory path name) (d : Disk) :
    (d.lookup path).toOption.map Prod.snd =
      if Disk.takes path then Disk.entriesOf directory d (Path.components path) else none := by
  obtain ⟨front, hfront, -, -⟩ := h.split
  rw [h.entriesOf, lookup_eq hfront]
  cases hcheck : checkPath path with
  | error e =>
    have hnot : ¬ Disk.takes path = true := by
      rw [h.takes, hcheck]
      exact fun hc => by cases hc.1
    rw [if_neg hnot]
    rfl
  | ok u =>
    cases hbase : d.within? directory with
    | none =>
      -- no directory holds the entry, so that its name is not reached
      have herror : ∃ e, (d.walk (d.start path) front).bind (fun base => d.walk base [name]) =
          .error e := by
        cases hwalk : d.walk (d.start path) front with
        | error e => exact ⟨e, rfl⟩
        | ok base =>
          have hdir : d.node? base ≠ some .directory := by
            intro hdir
            have := (h.opens hfront).mp ⟨hwalk, hdir⟩
            rw [hbase] at this
            cases this
          rcases hnode : d.node? base with - | - | bytes
          · exact ⟨.notFound, by simp only [Except.bind, walk, hnode]⟩
          · exact absurd hnode hdir
          · exact ⟨.notADirectory, by simp only [Except.bind, walk, hnode]⟩
      obtain ⟨e, he⟩ := herror
      rw [he, Option.bind_none, ite_self]
      rfl
    | some base =>
      obtain ⟨hwalk, hdir⟩ := (h.opens hfront).mpr hbase
      have hskip : ¬ (name = "" ∨ name = ".") := not_or.mpr ⟨h.isName.1, h.isName.2.1⟩
      rw [hwalk]
      simp only [Except.bind, walk_cons_of_directory hdir, if_neg hskip, if_neg h.isName.2.2.1]
      by_cases hsize : maxName < name.utf8ByteSize
      · have hnot : ¬ Disk.takes path = true := fun hc =>
          absurd (h.takes.mp hc).2 (Nat.not_le.mpr hsize)
        rw [if_neg hnot, if_pos hsize]
        rfl
      · rw [if_pos (h.takes.mpr ⟨hcheck, Nat.le_of_not_lt hsize⟩), if_neg hsize]
        simp only [walk, Option.bind_some]
        cases d.node? (base ++ [name]) <;> rfl

theorem lookup_directory (hcheck : checkPath directory = .ok ())
    (h : d.within? directory = some place) : d.lookup directory = .ok (place, .directory) := by
  obtain ⟨hwalk, hdir⟩ := within?_eq_some.mp h
  unfold Disk.lookup
  simp only [bind, Except.bind, hcheck, hwalk, hdir]
  rfl

/-- Where a name below a directory can be used, so can the directory, unless it is empty. -/
theorem checkPath_directory (hname : Path.IsName name) (hne : directory ≠ "")
    (h : checkPath (Path.child directory name) = .ok ()) : checkPath directory = .ok () := by
  obtain ⟨more, hmore⟩ := Path.exists_child_eq_append hname directory
  rw [hmore] at h
  unfold checkPath at h ⊢
  split at h
  · cases h
  · next hnul =>
    split at h
    · cases h
    · split at h
      · cases h
      · next hsize =>
        rw [String.toList_append] at hnul
        rw [String.utf8ByteSize_append] at hsize
        rw [if_neg, if_neg hne, if_neg (by omega)]
        intro hc
        apply hnul
        rw [List.contains_iff_mem] at hc ⊢
        exact List.mem_append_left _ hc

theorem mem_of_nodeIn {nodes : List (Location × Node)} {node : Node}
    (h : nodeIn nodes place = some node) : (place, node) ∈ nodes := by
  induction nodes with
  | nil => cases h
  | cons n rest ih =>
    obtain ⟨k, v⟩ := n
    rw [nodeIn] at h
    split at h
    · next heq =>
      cases h
      rw [heq]
      exact List.mem_cons_self
    · exact List.mem_cons_of_mem _ (ih h)

theorem mem_fileNames {bytes : ByteArray} (hcheck : checkPath directory = .ok ())
    (h : d.within? directory = some place)
    (hfile : d.node? (place ++ [name]) = some (.file bytes)) : name ∈ d.fileNames directory := by
  have hplace : place ++ [name] ≠ [] := List.append_ne_nil_of_right_ne_nil _ (List.cons_ne_nil _ _)
  rw [node?_of_ne_nil d hplace] at hfile
  rw [fileNames, lookup_directory hcheck h]
  refine List.mem_filterMap.mpr ⟨_, mem_of_nodeIn hfile, ?_⟩
  rw [fileNameIn, List.dropLast_concat, if_pos rfl, List.getLast?_concat]

theorem SameDirectories.of_put {bytes : ByteArray} (hplace : place ≠ [])
    (h : d.node? place ≠ some .directory) : SameDirectories d (d.put place (.file bytes)) := by
  refine ⟨rfl, fun other => ?_⟩
  by_cases heq : other = place
  · subst heq
    rw [node?_put_self d _ hplace]
    exact ⟨fun hc => absurd hc h, fun hc => by cases hc⟩
  · rw [node?_put_of_ne d _ heq]

theorem SameDirectories.of_erase (hplace : place ≠ [])
    (h : d.node? place ≠ some .directory) : SameDirectories d (d.erase place) := by
  refine ⟨rfl, fun other => ?_⟩
  by_cases heq : other = place
  · subst heq
    rw [node?_erase_self d hplace]
    exact ⟨fun hc => absurd hc h, fun hc => by cases hc⟩
  · rw [node?_erase_of_ne d heq]

theorem entriesOf_update {base : Location} (h : Names directory path name)
    (hsame : SameDirectories d d') (hbase : d.within? directory = some base)
    (hnode : ∀ other, other ≠ base ++ [name] → d'.node? other = d.node? other) :
    entriesOf directory d' = Function.update (entriesOf directory d) (Path.components path)
      (d'.node? (base ++ [name])) := by
  have hbase' : d'.within? directory = some base := by rw [within?_congr hsame, hbase]
  funext place
  by_cases heq : place = Path.components path
  · rw [heq, Function.update_self, h.entriesOf, hbase']
    rfl
  · rw [Function.update_of_ne heq]
    unfold entriesOf
    split_ifs with hdir
    · rw [hbase, hbase']
      cases hlast : place.getLast? with
      | none => rfl
      | some other =>
        obtain ⟨front, rfl⟩ := List.getLast?_eq_some_iff.mp hlast
        rw [List.dropLast_concat] at hdir
        apply hnode
        intro hc
        apply heq
        rw [h.components, hdir, List.append_cancel_left hc]
    · rfl

theorem Names.isSpecial (h : Names directory path name) (base : Location) (slashed : Bool) :
    (Entry.mk base name slashed).isSpecial = false := by
  simp [Entry.isSpecial, h.isName.1, h.isName.2.1, h.isName.2.2.1]

theorem Names.entry_of_bind {α : Type} {f : Entry → Except OsError α} {a : α}
    (h : Names directory path name) (hf : (d.entry path).bind f = .ok a) :
    checkPath path = .ok () ∧ ∃ base, d.within? directory = some base ∧
      f ⟨base, name, false⟩ = .ok a := by
  cases he : d.entry path with
  | error e =>
    rw [he] at hf
    cases hf
  | ok e =>
    obtain ⟨hcheck, base, hbase, rfl⟩ := h.entry.mp he
    rw [he] at hf
    exact ⟨hcheck, base, hbase, hf⟩

theorem check_of_bind {α : Type} {e : Entry} {f : Unit → Except OsError α} {a : α}
    (hf : e.check.bind f = .ok a) : e.name.utf8ByteSize ≤ maxName ∧ f () = .ok a := by
  unfold Entry.check at hf
  split at hf
  · cases hf
  · next hsize => exact ⟨Nat.le_of_not_lt hsize, hf⟩

theorem Names.write (h : Names directory path name) {bytes : ByteArray}
    (hw : d.write path bytes = .ok d') :
    Disk.takes path = true ∧ Disk.entriesOf directory d' =
      Function.update (Disk.entriesOf directory d) (Path.components path) (some (.file bytes)) := by
  obtain ⟨hcheck, base, hbase, hw⟩ := h.entry_of_bind hw
  have hplace : base ++ [name] ≠ [] := List.append_ne_nil_of_right_ne_nil _ (List.cons_ne_nil _ _)
  rw [h.isSpecial] at hw
  obtain ⟨hsize, hw⟩ := check_of_bind hw
  have hput : d.node? (base ++ [name]) ≠ some .directory ∧
      d' = d.put (base ++ [name]) (.file bytes) := by
    unfold Entry.place at hw
    cases hnode : d.node? (base ++ [name]) with
    | none =>
      rw [hnode] at hw
      exact ⟨(fun hc => by cases hc), (Except.ok.inj hw).symm⟩
    | some node =>
      rw [hnode] at hw
      cases node with
      | directory => cases hw
      | file bytes' => exact ⟨(fun hc => by cases hc), (Except.ok.inj hw).symm⟩
  obtain ⟨hdir, rfl⟩ := hput
  refine ⟨h.takes.mpr ⟨hcheck, hsize⟩, ?_⟩
  rw [entriesOf_update h (.of_put hplace hdir) hbase fun other hne => node?_put_of_ne d _ hne,
    node?_put_self d _ hplace]

theorem Names.removeFile (h : Names directory path name) (hr : d.removeFile path = .ok d') :
    Disk.takes path = true ∧
      (∃ bytes, Disk.entriesOf directory d (Path.components path) = some (.file bytes)) ∧
      Disk.entriesOf directory d' =
        (Disk.entriesOf directory d).without (Path.components path) := by
  obtain ⟨hcheck, base, hbase, hr⟩ := h.entry_of_bind hr
  have hplace : base ++ [name] ≠ [] := List.append_ne_nil_of_right_ne_nil _ (List.cons_ne_nil _ _)
  rw [h.isSpecial] at hr
  obtain ⟨hsize, hr⟩ := check_of_bind hr
  have herase : ∃ bytes, d.node? (base ++ [name]) = some (.file bytes) ∧
      d' = d.erase (base ++ [name]) := by
    unfold Entry.place at hr
    rcases hnode : d.node? (base ++ [name]) with - | - | bytes
    · rw [hnode] at hr
      cases hr
    · rw [hnode] at hr
      cases hr
    · rw [hnode] at hr
      exact ⟨bytes, rfl, (Except.ok.inj hr).symm⟩
  obtain ⟨bytes, hnode, rfl⟩ := herase
  have hdir : d.node? (base ++ [name]) ≠ some .directory := by
    rw [hnode]
    exact fun hc => by cases hc
  refine ⟨h.takes.mpr ⟨hcheck, hsize⟩, ⟨bytes, ?_⟩, ?_⟩
  · rw [h.entriesOf, hbase]
    exact hnode
  · rw [entriesOf_update h (.of_erase hplace hdir) hbase fun other hne => node?_erase_of_ne d hne,
      node?_erase_self d hplace]
    rfl

theorem Names.exists_removeFile (h : Names directory path name) (htakes : Disk.takes path = true)
    {bytes : ByteArray}
    (hfile : Disk.entriesOf directory d (Path.components path) = some (.file bytes)) :
    ∃ d', d.removeFile path = .ok d' := by
  obtain ⟨hcheck, hsize⟩ := h.takes.mp htakes
  rw [h.entriesOf] at hfile
  obtain ⟨base, hbase, hnode⟩ := Option.bind_eq_some_iff.mp hfile
  have hentry : d.entry path = .ok ⟨base, name, false⟩ := h.entry.mpr ⟨hcheck, base, hbase, rfl⟩
  have hsize : (Entry.mk base name false).check = .ok () := if_neg (Nat.not_lt.mpr hsize)
  refine ⟨d.erase (base ++ [name]), ?_⟩
  unfold Disk.removeFile
  rw [hentry]
  simp only [bind, Except.bind, h.isSpecial, hsize, Entry.place, hnode, Bool.false_eq_true,
    if_false]
  rfl

theorem Names.entriesOf_move {target newName : String} {base : Location} {bytes : ByteArray}
    (h : Names directory path name) (ht : Names directory target newName)
    (hbase : d.within? directory = some base)
    (hnode : d.node? (base ++ [name]) = some (.file bytes))
    (hnot : d.node? (base ++ [newName]) ≠ some .directory) :
    Disk.entriesOf directory ((d.erase (base ++ [name])).put (base ++ [newName]) (.file bytes)) =
      (Disk.entriesOf directory d).moved (Path.components path) (Path.components target) := by
  have hplace : base ++ [name] ≠ [] := List.append_ne_nil_of_right_ne_nil _ (List.cons_ne_nil _ _)
  have hplace' : base ++ [newName] ≠ [] :=
    List.append_ne_nil_of_right_ne_nil _ (List.cons_ne_nil _ _)
  have hfile : d.node? (base ++ [name]) ≠ some .directory := by
    rw [hnode]
    exact fun hc => by cases hc
  have herase : SameDirectories d (d.erase (base ++ [name])) := .of_erase hplace hfile
  have hbase' : (d.erase (base ++ [name])).within? directory = some base := by
    rw [within?_congr herase, hbase]
  have hnot' : (d.erase (base ++ [name])).node? (base ++ [newName]) ≠ some .directory :=
    fun hc => hnot ((herase.2 _).mpr hc)
  rw [entriesOf_update ht (.of_put hplace' hnot') hbase' fun other hne => node?_put_of_ne _ _ hne,
    node?_put_self _ _ hplace',
    entriesOf_update h herase hbase fun other hne => node?_erase_of_ne d hne,
    node?_erase_self d hplace, Places.moved, Places.without, h.entriesOf, hbase]
  rw [Option.bind_some, hnode]

theorem moveEntry_file {e f : Entry} {bytes : ByteArray}
    (h : d.moveEntry (.file bytes) e f = .ok d') :
    e.place = f.place ∧ d' = d ∨
      d.node? f.place ≠ some .directory ∧ d' = (d.erase e.place).put f.place (.file bytes) := by
  unfold moveEntry at h
  dsimp only at h
  split at h
  · cases h
  · split at h
    · next hsame =>
      cases h
      exact .inl ⟨hsame, rfl⟩
    · split at h
      · cases h
      · split at h
        · cases h
        · refine .inr ?_
          unfold checkReplace at h
          rcases hnode : d.node? f.place with - | - | bytes'
          · rw [hnode] at h
            exact ⟨(fun hc => by cases hc), (Except.ok.inj h).symm⟩
          · rw [hnode] at h
            cases h
          · rw [hnode] at h
            exact ⟨(fun hc => by cases hc), (Except.ok.inj h).symm⟩

theorem Names.rename {target newName : String} (h : Names directory path name)
    (ht : Names directory target newName) (hr : d.rename path target = .ok d') :
    Disk.takes path = true ∧ Disk.takes target = true ∧
      Disk.entriesOf directory d (Path.components path) ≠ none ∧
      (Disk.entriesOf directory d (Path.components path) ≠ some .directory →
        Disk.entriesOf directory d' = (Disk.entriesOf directory d).moved (Path.components path)
          (Path.components target)) := by
  obtain ⟨hcheck, base, hbase, hr⟩ := h.entry_of_bind hr
  obtain ⟨hcheck', base', hbase', hr⟩ := ht.entry_of_bind hr
  have hsame : base = base' := Option.some.inj (hbase.symm.trans hbase')
  subst hsame
  rw [h.isSpecial, ht.isSpecial] at hr
  obtain ⟨hsize, hr⟩ := check_of_bind hr
  cases hnode : d.node? (base ++ [name]) with
  | none =>
    simp only [Entry.place, hnode] at hr
    cases hr
  | some moved =>
    simp only [Entry.place, hnode] at hr
    obtain ⟨hsize', hr⟩ := check_of_bind hr
    have hholds : Disk.entriesOf directory d (Path.components path) = some moved := by
      rw [h.entriesOf, hbase]
      exact hnode
    refine ⟨h.takes.mpr ⟨hcheck, hsize⟩, ht.takes.mpr ⟨hcheck', hsize'⟩, ?_, ?_⟩
    · rw [hholds]
      exact fun hc => by cases hc
    · intro hdir
      cases moved with
      | directory => exact absurd hholds hdir
      | file bytes =>
        rcases moveEntry_file hr with ⟨heq, rfl⟩ | ⟨hnot, rfl⟩
        · have hname : name = newName := by simpa [Entry.place] using heq
          have hpath : Path.components path = Path.components target := by
            rw [h.components, ht.components, hname]
          rw [hpath, Places.moved_self]
        · exact h.entriesOf_move ht hbase hnode hnot

theorem change_run (f : Disk → Except OsError Disk) (d : Disk) :
    (change f).run d = match f d with
      | .ok d => (.ok (), d)
      | .error e => (.error e, d) := rfl

theorem change_ok {f : Disk → Except OsError Disk} (h : (change f).run d = (.ok (), d')) :
    f d = .ok d' := by
  rw [change_run] at h
  cases hf : f d with
  | error e =>
    rw [hf] at h
    cases h
  | ok d₁ =>
    rw [hf] at h
    cases h
    rfl

theorem change_error {f : Disk → Except OsError Disk} {e : OsError}
    (h : (change f).run d = (.error e, d')) : d' = d := by
  rw [change_run] at h
  cases hf : f d with
  | error e =>
    rw [hf] at h
    cases h
    rfl
  | ok d₁ =>
    rw [hf] at h
    cases h

/-- The entries of a directory, as a map of the file system. Following a path depends on which
places are directories and on nothing else, and putting, moving and removing files leaves these as
they are. -/
def entryMap (directory : String) : FileMap Disk where
  covers path := ∃ name, Names directory path name
  takes := takes
  holds := entriesOf directory
  kind? := by
    rintro path d ⟨name, h⟩
    change ((d.lookup path).toOption.map fun found => found.2.kind, d) = _
    rw [FileView.node?, ← h.lookup d, Option.map_map]
    rfl
  write_ok := by
    rintro path bytes d d' ⟨name, h⟩ hw
    exact h.write (change_ok hw)
  rename_ok := by
    rintro source target d d' ⟨name, h⟩ ⟨newName, ht⟩ hr
    obtain ⟨htakes, htakes', hnode, hmoved⟩ := h.rename ht (change_ok hr)
    rw [FileView.node?, if_pos htakes]
    exact ⟨htakes, htakes', hnode, hmoved⟩
  rename_error := by
    rintro source target d d' e - - hr
    rw [change_error hr]
  removeFile := by
    rintro path d ⟨name, h⟩
    change entriesOf directory ((change (·.removeFile path)).run d).2 = _
    rw [change_run]
    cases hr : d.removeFile path with
    | ok d' =>
      obtain ⟨htakes, ⟨bytes, hfile⟩, hholds⟩ := h.removeFile hr
      rw [FileView.node?, if_pos htakes]
      exact hholds.trans (if_pos (congrArg (Option.map Node.kind) hfile)).symm
    | error e =>
      refine (if_neg ?_).symm
      intro hfile
      obtain ⟨node, hnode, hkind⟩ := Option.map_eq_some_iff.mp hfile
      rw [FileView.node?] at hnode
      split at hnode
      · next htakes =>
        cases node with
        | directory => cases hkind
        | file bytes =>
          obtain ⟨d', hd'⟩ := h.exists_removeFile htakes hnode
          rw [hr] at hd'
          cases hd'
      · cases hnode

section Entries

variable {node : Node} {bytes : ByteArray}

theorem Names.node?_eq (h : Names directory path name) (d : Disk) :
    (entryMap directory).node? d path = (d.lookup path).toOption.map Prod.snd := (h.lookup d).symm

theorem Names.within (h : Names directory path name)
    (hnode : (entryMap directory).node? d path = some node) :
    checkPath path = .ok () ∧
      ∃ base, d.within? directory = some base ∧ d.node? (base ++ [name]) = some node := by
  rw [FileView.node?] at hnode
  split at hnode
  · next htakes =>
    have hentry : Disk.entriesOf directory d (Path.components path) = some node := hnode
    rw [h.entriesOf] at hentry
    exact ⟨(h.takes.mp htakes).1, Option.bind_eq_some_iff.mp hentry⟩
  · cases hnode

theorem Names.read (h : Names directory path name)
    (hfile : (entryMap directory).node? d path = some (.file bytes)) :
    d.read path = .ok bytes := by
  rw [h.node?_eq] at hfile
  unfold Disk.read
  cases hlookup : d.lookup path with
  | error e =>
    rw [hlookup] at hfile
    cases hfile
  | ok found =>
    obtain ⟨place, node⟩ := found
    rw [hlookup] at hfile
    cases hfile
    rfl

end Entries

end Disk

end RadioDriver
