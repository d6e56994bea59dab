import Mathlib.Logic.Function.Basic
import RadioDriver.Disk.Basic
import RadioDriver.Disk.StagedWrites
import RadioDriver.Proofs.Path.Components

namespace RadioDriver

abbrev Places := List String → Option Node

namespace Places

def without (m : Places) (place : List String) : Places := Function.update m place none

def moved (m : Places) (source target : List String) : Places :=
  Function.update (m.without source) target (m source)

def erased (m : Places) (places : List (List String)) : Places :=
  fun place => if place ∈ places then none else m place

theorem moved_target (m : Places) (source target : List String) :
    m.moved source target target = m source := Function.update_self ..

theorem moved_source (m : Places) {source target : List String} (h : source ≠ target) :
    m.moved source target source = none := by
  rw [moved, Function.update_of_ne h, without, Function.update_self]

theorem moved_of_ne (m : Places) {source target place : List String} (hs : place ≠ source)
    (ht : place ≠ target) : m.moved source target place = m place := by
  rw [moved, Function.update_of_ne ht, without, Function.update_of_ne hs]

theorem moved_self (m : Places) (place : List String) : m.moved place place = m := by
  rw [moved, without, Function.update_idem, Function.update_eq_self]

theorem erased_of_mem (m : Places) {places : List (List String)} {place : List String}
    (h : place ∈ places) : m.erased places place = none := if_pos h

theorem erased_of_not_mem (m : Places) {places : List (List String)} {place : List String}
    (h : place ∉ places) : m.erased places place = m place := if_neg h

theorem without_of_none {m : Places} {place : List String} (h : m place = none) :
    m.without place = m := by
  rw [without, ← h, Function.update_eq_self]

theorem erased_cons (m : Places) (place : List String) (places : List (List String)) :
    (m.without place).erased places = m.erased (place :: places) := by
  funext other
  by_cases h : other = place
  · subst h
    rw [erased_of_mem m List.mem_cons_self]
    by_cases hmem : other ∈ places
    · exact erased_of_mem _ hmem
    · rw [erased_of_not_mem _ hmem, without, Function.update_self]
  · by_cases hmem : other ∈ places
    · rw [erased_of_mem _ hmem, erased_of_mem _ (List.mem_cons_of_mem place hmem)]
    · have hnot : other ∉ place :: places := fun hc => (List.mem_cons.mp hc).elim h hmem
      rw [erased_of_not_mem _ hmem, erased_of_not_mem _ hnot, without, Function.update_of_ne h]

end Places

/-- Renames as moves of places, each from its first path to its second, seen from the maps before
and after. -/
structure Moves (renames : List (String × String)) (before after : Places) : Prop where
  /-- A target holds what its source held. -/
  target : ∀ r ∈ renames, after (Path.components r.2) = before (Path.components r.1)
  /-- A source is empty, and held something. -/
  source : ∀ r ∈ renames,
    after (Path.components r.1) = none ∧ before (Path.components r.1) ≠ none
  frame : ∀ place, (∀ r ∈ renames, place ≠ Path.components r.1 ∧ place ≠ Path.components r.2) →
    after place = before place

namespace Moves

variable {renames : List (String × String)} {before after : Places} {source target : String}

theorem nil (m : Places) : Moves [] m m := by
  refine ⟨?_, ?_, fun _ _ => rfl⟩
  · intro r h
    cases h
  · intro r h
    cases h

theorem not_source (h : Moves renames before after) {place : List String}
    (hp : after place ≠ none) : ∀ r ∈ renames, place ≠ Path.components r.1 := by
  rintro r hr rfl
  exact hp (h.source r hr).1

theorem of_not_target (h : Moves renames before after) {place : List String}
    (ht : ∀ r ∈ renames, place ≠ Path.components r.2) :
    after place = none ∨ after place = before place := by
  by_cases hs : ∃ r ∈ renames, place = Path.components r.1
  · obtain ⟨r, hr, rfl⟩ := hs
    exact .inl (h.source r hr).1
  · refine .inr (h.frame place fun r hr => ⟨fun heq => hs ⟨r, hr, heq⟩, ht r hr⟩)

theorem plain (h : Moves renames before after) {place : List String}
    (ht : ∀ r ∈ renames, place ≠ Path.components r.2) (hp : before place ≠ some .directory) :
    after place ≠ some .directory := by
  rcases h.of_not_target ht with hnone | hsame
  · rw [hnone]
    exact fun hc => by cases hc
  · rwa [hsame]

theorem snoc (h : Moves renames before after) (hs : after (Path.components source) ≠ none)
    (hst : ∀ r ∈ renames, Path.components source ≠ Path.components r.2)
    (htt : ∀ r ∈ renames, Path.components target ≠ Path.components r.1 ∧
      Path.components target ≠ Path.components r.2)
    (hne : Path.components source ≠ Path.components target) :
    Moves (renames ++ [(source, target)]) before
      (after.moved (Path.components source) (Path.components target)) := by
  have hss := h.not_source hs
  have hsame := h.frame _ fun r hr => ⟨hss r hr, hst r hr⟩
  refine ⟨?_, ?_, ?_⟩
  · intro r hr
    rcases List.mem_append.mp hr with hr | hr
    · rw [Places.moved_of_ne _ (hst r hr).symm (htt r hr).2.symm, h.target r hr]
    · rw [List.mem_singleton.mp hr, Places.moved_target, hsame]
  · intro r hr
    rcases List.mem_append.mp hr with hr | hr
    · rw [Places.moved_of_ne _ (hss r hr).symm (htt r hr).1.symm]
      exact h.source r hr
    · rw [List.mem_singleton.mp hr, Places.moved_source _ hne, ← hsame]
      exact ⟨rfl, hs⟩
  · intro place hplace
    have hlast := hplace _ (List.mem_append_right _ (List.mem_singleton_self _))
    rw [Places.moved_of_ne _ hlast.1 hlast.2]
    exact h.frame place fun r hr => hplace r (List.mem_append_left _ hr)

end Moves

/-- How the paths of a file system are read as places of a map. -/
structure FileView (σ : Type) where
  /-- The paths that the map tells about. -/
  covers : String → Prop
  /-- Whether the system takes a path; one that it refuses, such as a long one, leads nowhere. -/
  takes : String → Bool
  /-- What places hold in a state. -/
  holds : σ → Places

def FileView.node? {σ : Type} (view : FileView σ) (s : σ) (path : String) : Option Node :=
  if view.takes path then view.holds s (Path.components path) else none

/-- A part of a file system that behaves as a map. A rename of a file moves it and replaces what is
in the way, or has no effect; removing takes a file away. -/
structure FileMap (σ : Type) [Files (StateM σ)] extends FileView σ where
  kind? : ∀ {path : String} (s : σ), covers path →
    (Files.kind? path : StateM σ _).run s = ((toFileView.node? s path).map Node.kind, s)
  write_ok : ∀ {path : String} {bytes : ByteArray} {s s' : σ}, covers path →
    (Files.write path bytes : StateM σ _).run s = (.ok (), s') →
      takes path = true ∧
        holds s' = Function.update (holds s) (Path.components path) (some (.file bytes))
  rename_ok : ∀ {source target : String} {s s' : σ}, covers source → covers target →
    (Files.rename source target : StateM σ _).run s = (.ok (), s') →
      takes source = true ∧ takes target = true ∧
        toFileView.node? s source ≠ none ∧
        (toFileView.node? s source ≠ some .directory →
          holds s' = (holds s).moved (Path.components source) (Path.components target))
  rename_error : ∀ {source target : String} {s s' : σ} {e : OsError}, covers source →
    covers target → (Files.rename source target : StateM σ _).run s = (.error e, s') →
      holds s' = holds s
  removeFile : ∀ {path : String} (s : σ), covers path →
    holds ((Files.removeFile path : StateM σ _).run s).2 =
      if (toFileView.node? s path).map Node.kind = some .file then
        (holds s).without (Path.components path)
      else holds s

theorem run_bind_state {σ α β : Type} (x : StateM σ α) (f : α → StateM σ β) (s : σ) :
    (x >>= f).run s = (f (x.run s).1).run (x.run s).2 := rfl

theorem ok_of_run_bind {σ ε α β : Type} {x : StateM σ (Except ε α)} {f : Except ε α → StateM σ β}
    {s s' : σ} {b : β} (h : (x >>= f).run s = (b, s'))
    (herror : ∀ e s₁, (f (.error e)).run s₁ ≠ (b, s')) :
    ∃ a s₁, x.run s = (.ok a, s₁) ∧ (f (.ok a)).run s₁ = (b, s') := by
  rw [run_bind_state] at h
  rcases hx : x.run s with ⟨r, s₁⟩
  rw [hx] at h
  cases r with
  | error e => exact absurd h (herror e s₁)
  | ok a => exact ⟨a, s₁, rfl, h⟩

theorem ok_of_run_bind_with {σ ε α γ β : Type} {x : StateM σ (Except ε α × γ)}
    {f : Except ε α × γ → StateM σ β} {s s' : σ} {b : β} (h : (x >>= f).run s = (b, s'))
    (herror : ∀ e c s₁, (f (.error e, c)).run s₁ ≠ (b, s')) :
    ∃ a c s₁, x.run s = ((.ok a, c), s₁) ∧ (f (.ok a, c)).run s₁ = (b, s') := by
  rw [run_bind_state] at h
  rcases hx : x.run s with ⟨⟨r, c⟩, s₁⟩
  rw [hx] at h
  cases r with
  | error e => exact absurd h (herror e c s₁)
  | ok a => exact ⟨a, c, s₁, rfl, h⟩

namespace FileMap

open StagedWrites

variable {σ : Type} [Files (StateM σ)] (M : FileMap σ)

theorem node?_of_takes {path : String} (s : σ) (h : M.takes path = true) :
    M.node? s path = M.holds s (Path.components path) := if_pos h

theorem node?_eq_none {path : String} {s : σ}
    (h : M.takes path = true → M.holds s (Path.components path) = none) :
    M.node? s path = none := by
  unfold FileView.node?
  split
  · next htakes => exact h htakes
  · rfl

theorem exists?_run {path : String} (s : σ) (h : M.covers path) :
    (Files.exists? path : StateM σ Bool).run s = ((M.node? s path).isSome, s) := by
  unfold Files.exists?
  rw [run_bind_state, M.kind? s h]
  cases M.node? s path <;> rfl

theorem isFile_run {path : String} (s : σ) (h : M.covers path) :
    (Files.isFile path : StateM σ Bool).run s =
      ((M.node? s path).map Node.kind == some .file, s) := by
  unfold Files.isFile
  rw [run_bind_state, M.kind? s h]
  rfl

/-- A rename that moves what its source holds, and has something to move. -/
structure Moved (source target : String) (s s' : σ) : Prop where
  takes_source : M.takes source = true
  takes_target : M.takes target = true
  ne_none : M.holds s (Path.components source) ≠ none
  holds : M.holds s' = (M.holds s).moved (Path.components source) (Path.components target)

theorem rename_run {source target : String} {s s' : σ} {r : Except OsError Unit}
    (hs : M.covers source) (ht : M.covers target)
    (hplain : M.takes source = true → M.holds s (Path.components source) ≠ some .directory)
    (h : (Files.rename source target : StateM σ _).run s = (r, s')) :
    (∃ e, r = .error e ∧ M.holds s' = M.holds s) ∨ r = .ok () ∧ M.Moved source target s s' := by
  cases r with
  | error e => exact .inl ⟨e, rfl, M.rename_error hs ht h⟩
  | ok u =>
    obtain ⟨hsource, htarget, hnode, hmoved⟩ := M.rename_ok hs ht h
    rw [M.node?_of_takes s hsource] at hnode hmoved
    exact .inr ⟨rfl, hsource, htarget, hnode, hmoved (hplain hsource)⟩

theorem removeAll_of_ne {paths : List String} {s : σ} (hcovers : ∀ path ∈ paths, M.covers path)
    {place : List String} (hne : ∀ path ∈ paths, place ≠ Path.components path) :
    M.holds ((removeAll paths : StateM σ Unit).run s).2 place = M.holds s place := by
  induction paths generalizing s with
  | nil => rfl
  | cons path rest ih =>
    have hfirst : M.holds ((Files.removeFile path : StateM σ _).run s).2 place =
        M.holds s place := by
      rw [M.removeFile s (hcovers path List.mem_cons_self)]
      split
      · rw [Places.without, Function.update_of_ne (hne path List.mem_cons_self)]
      · rfl
    rw [← hfirst]
    exact ih (fun other hother => hcovers other (List.mem_cons_of_mem path hother))
      fun other hother => hne other (List.mem_cons_of_mem path hother)

theorem removeAll_holds {paths : List String} {s : σ} (hcovers : ∀ path ∈ paths, M.covers path)
    (htakes : ∀ path ∈ paths, M.takes path = true)
    (hplain : ∀ path ∈ paths, M.holds s (Path.components path) ≠ some .directory) :
    M.holds ((removeAll paths : StateM σ Unit).run s).2 =
      (M.holds s).erased (paths.map Path.components) := by
  induction paths generalizing s with
  | nil => rfl
  | cons path rest ih =>
    have hnode := M.node?_of_takes s (htakes path List.mem_cons_self)
    have hfirst : M.holds ((Files.removeFile path : StateM σ _).run s).2 =
        (M.holds s).without (Path.components path) := by
      rw [M.removeFile s (hcovers path List.mem_cons_self), hnode]
      cases hplace : M.holds s (Path.components path) with
      | none => exact (Places.without_of_none hplace).symm
      | some node =>
        cases node with
        | directory => exact absurd hplace (hplain path List.mem_cons_self)
        | file bytes => rfl
    have hrest := ih (s := ((Files.removeFile path : StateM σ _).run s).2)
      (fun other hother => hcovers other (List.mem_cons_of_mem path hother))
      (fun other hother => htakes other (List.mem_cons_of_mem path hother)) (by
        intro other hother
        rw [hfirst, Places.without]
        by_cases heq : Path.components other = Path.components path
        · rw [heq, Function.update_self]
          exact fun hc => by cases hc
        · rw [Function.update_of_ne heq]
          exact hplain other (List.mem_cons_of_mem path hother))
    rw [List.map_cons, ← Places.erased_cons, ← hfirst]
    exact hrest

end FileMap

end RadioDriver
