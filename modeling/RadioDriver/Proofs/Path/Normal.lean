import Mathlib.Data.List.Induction
import RadioDriver.Proofs.Path.Joining

namespace RadioDriver.Path

variable {absolute : Bool} {walked names segments : List String} {segment : String}

/-- A segment that leads down: a component other than `..`. -/
def Descends (segment : String) : Prop := isComponent segment = true ∧ segment ≠ ".."

theorem isComponent_eq_false : isComponent segment = false ↔ segment = "" ∨ segment = "." := by
  simp [isComponent, Classical.or_iff_not_imp_left]

theorem Descends.not_blank (h : Descends segment) : ¬ (segment = "" ∨ segment = ".") := by
  simpa [isComponent] using h.1

theorem push_blank (h : isComponent segment = false) : push absolute walked segment = walked := by
  unfold push
  rw [if_pos (isComponent_eq_false.mp h)]

theorem Descends.push (h : Descends segment) :
    push absolute walked segment = segment :: walked := by
  unfold Path.push
  rw [if_neg h.not_blank, if_neg h.2]

theorem push_climb :
    push absolute walked ".." =
      match walked with
      | [] => if absolute then [] else [".."]
      | last :: outer =>
        if last ≠ ".." then outer else if absolute then walked else ".." :: walked := by
  have hnamed : ¬ (".." = "" ∨ ".." = ".") := by decide
  unfold push
  exact (if_neg hnamed).trans (if_pos rfl)

theorem Descends.push_climb (h : Descends segment) :
    Path.push absolute (segment :: walked) ".." = walked := by
  rw [Path.push_climb]
  exact if_pos h.2

theorem segment_cases (segment : String) :
    isComponent segment = false ∨ Descends segment ∨ segment = ".." := by
  by_cases hclimb : segment = ".."
  · exact .inr (.inr hclimb)
  · cases h : isComponent segment with
    | false => exact .inl rfl
    | true => exact .inr (.inl ⟨h, hclimb⟩)

theorem foldl_push_names (h : ∀ name ∈ names, Descends name) (walked : List String) :
    names.foldl (push absolute) walked = names.reverse ++ walked := by
  induction names generalizing walked with
  | nil => rfl
  | cons name names ih =>
    obtain ⟨hname, hnames⟩ := List.forall_mem_cons.mp h
    rw [List.foldl_cons, hname.push, ih hnames, List.reverse_cons, List.append_assoc,
      List.singleton_append]

theorem foldl_push_climbs (h : ∀ name ∈ names, Descends name) (walked : List String) :
    (names.map fun _ => "..").foldl (push absolute) (names ++ walked) = walked := by
  induction names with
  | nil => rfl
  | cons name names ih =>
    obtain ⟨hname, hnames⟩ := List.forall_mem_cons.mp h
    rw [List.map_cons, List.cons_append, List.foldl_cons, hname.push_climb, ih hnames]

theorem foldl_push_named (segments walked : List String) :
    (named segments).foldl (push absolute) walked = segments.foldl (push absolute) walked := by
  induction segments generalizing walked with
  | nil => rfl
  | cons segment segments ih =>
    rw [List.foldl_cons, named, List.filter_cons]
    cases h : isComponent segment with
    | false => rw [if_neg Bool.false_ne_true, push_blank h, ← ih]; rfl
    | true => rw [if_pos rfl, List.foldl_cons, ← ih]; rfl

/-- What is walked, the innermost first: names, and before them climbs, of which there are none
below the root. -/
def Settled (absolute : Bool) (walked : List String) : Prop :=
  ∃ names climbs, walked = names ++ List.replicate climbs ".." ∧
    (∀ name ∈ names, Descends name) ∧ (absolute = true → climbs = 0)

theorem settled_push (h : Settled absolute walked) (segment : String) :
    Settled absolute (push absolute walked segment) := by
  obtain ⟨names, climbs, rfl, hnames, hroot⟩ := h
  rcases segment_cases segment with hblank | hname | rfl
  · rw [push_blank hblank]
    exact ⟨names, climbs, rfl, hnames, hroot⟩
  · rw [hname.push]
    exact ⟨segment :: names, climbs, rfl, List.forall_mem_cons.mpr ⟨hname, hnames⟩, hroot⟩
  · cases names with
    | cons name names =>
      obtain ⟨hname, hnames⟩ := List.forall_mem_cons.mp hnames
      rw [List.cons_append, hname.push_climb]
      exact ⟨names, climbs, rfl, hnames, hroot⟩
    | nil =>
      -- no name is left to take away: the climb is kept, but there is none below the root
      cases absolute with
      | true =>
        obtain rfl := hroot rfl
        exact ⟨[], 0, rfl, hnames, fun _ => rfl⟩
      | false =>
        refine ⟨[], climbs + 1, ?_, hnames, nofun⟩
        cases climbs <;> rfl

theorem settled_foldl (h : Settled absolute walked) (segments : List String) :
    Settled absolute (segments.foldl (push absolute) walked) := by
  induction segments generalizing walked with
  | nil => exact h
  | cons segment segments ih => exact ih (settled_push h segment)

/-- What a walk leaves: climbs, of which there are none below the root, and then names. -/
theorem normalized_eq (absolute : Bool) (segments : List String) :
    ∃ climbs names, normalized absolute segments = List.replicate climbs ".." ++ names ∧
      (∀ name ∈ names, Descends name) ∧ (absolute = true → climbs = 0) := by
  have hstart : Settled absolute [] := ⟨[], 0, rfl, by simp, fun _ => rfl⟩
  obtain ⟨names, climbs, hwalked, hnames, hroot⟩ := settled_foldl hstart segments
  refine ⟨climbs, names.reverse, ?_, by simpa using hnames, hroot⟩
  rw [normalized, hwalked, List.reverse_append, List.reverse_replicate]

theorem foldl_push_replicate (climbs : Nat) :
    (List.replicate climbs "..").foldl (push false) [] = List.replicate climbs ".." := by
  induction climbs with
  | zero => rfl
  | succ climbs ih =>
    have hclimb : push false (List.replicate climbs "..") ".." =
        List.replicate (climbs + 1) ".." := by cases climbs <;> rfl
    rw [List.replicate_succ', List.foldl_append, ih, ← List.replicate_succ']
    exact hclimb

theorem foldl_push_normalized_start (absolute : Bool) (segments : List String) :
    (normalized absolute segments).foldl (push absolute) [] =
      segments.foldl (push absolute) [] := by
  obtain ⟨climbs, names, heq, hnames, hroot⟩ := normalized_eq absolute segments
  have hwalked : segments.foldl (push absolute) [] =
      names.reverse ++ List.replicate climbs ".." := by
    rw [← List.reverse_reverse (segments.foldl _ _), ← normalized, heq, List.reverse_append,
      List.reverse_replicate]
  have hclimbs : (List.replicate climbs "..").foldl (push absolute) [] =
      List.replicate climbs ".." := by
    cases absolute with
    | true =>
      rw [hroot rfl]
      rfl
    | false => exact foldl_push_replicate climbs
  rw [hwalked, heq, List.foldl_append, hclimbs, foldl_push_names hnames]

/-- A step of a relative walk changes what the walk leaves as it changes what comes after it,
whatever was walked before. -/
theorem foldl_push_reverse_push (h : ∀ s ∈ walked, isComponent s = true) (segment : String)
    (before : List String) :
    (push false walked segment).reverse.foldl (push absolute) before =
      push absolute (walked.reverse.foldl (push absolute) before) segment := by
  have hpiled : (segment :: walked).reverse.foldl (push absolute) before =
      push absolute (walked.reverse.foldl (push absolute) before) segment := by
    rw [List.reverse_cons, List.foldl_append]
    rfl
  rcases segment_cases segment with hblank | hname | rfl
  · rw [push_blank hblank, push_blank hblank]
  · rw [hname.push, hpiled]
  · cases walked with
    | nil => rfl
    | cons last outer =>
      by_cases hlast : last = ".."
      · subst hlast
        exact hpiled
      · have hdown : Descends last := ⟨h last List.mem_cons_self, hlast⟩
        rw [hdown.push_climb, List.reverse_cons, List.foldl_append, List.foldl_cons,
          List.foldl_nil, hdown.push, hdown.push_climb]

/-- What a relative walk leaves walks as it does, whatever was walked before: a climb that takes
away a name of the walk undoes it, and any other climb is kept for what came before. -/
theorem foldl_push_normalized (segments before : List String) :
    (normalized false segments).foldl (push absolute) before =
      segments.foldl (push absolute) before := by
  -- from the end, where the last step of the walk is the outermost push
  induction segments using List.reverseRecOn with
  | nil => rfl
  | append_singleton segments segment ih =>
    have hcomponents : ∀ s ∈ segments.foldl (push false) [], isComponent s = true := by
      intro s hs
      rcases mem_normalized (List.mem_reverse.mpr hs) with rfl | ⟨-, hcomponent⟩
      · rfl
      · exact hcomponent
    rw [normalized, List.foldl_append, List.foldl_append]
    refine (foldl_push_reverse_push hcomponents segment before).trans ?_
    exact congrArg (push absolute · segment) ih

end RadioDriver.Path
