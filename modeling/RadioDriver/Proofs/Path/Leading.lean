import RadioDriver.Path.Between
import RadioDriver.Proofs.Path.Composing

namespace RadioDriver.Path

variable {absolute : Bool} {start goal : String}

theorem afterCommon_append (common up down : List String) :
    afterCommon (common ++ up) (common ++ down) = afterCommon up down := by
  induction common with
  | nil => rfl
  | cons name common ih =>
    rw [List.cons_append, List.cons_append, afterCommon, if_pos rfl, ih]

theorem afterCommon_shared (start goal : List String) :
    ∃ shared, start = shared ++ (afterCommon start goal).1 ∧
      goal = shared ++ (afterCommon start goal).2 := by
  fun_induction afterCommon start goal with
  | case1 start name goal ih =>
    obtain ⟨shared, hstart, hgoal⟩ := ih
    exact ⟨name :: shared, congrArg (name :: ·) hstart, congrArg (name :: ·) hgoal⟩
  | case2 name start other goal hne => exact ⟨[], rfl, rfl⟩
  | case3 start goal h => exact ⟨[], rfl, rfl⟩

def left (start goal : String) : List String :=
  (afterCommon (components start) (components goal)).1

def entered (start goal : String) : List String :=
  (afterCommon (components start) (components goal)).2

theorem afterCommon_components (h : isAbsolute start = isAbsolute goal) :
    afterCommon (components start) (components goal) =
      afterCommon (named (Text.split '/' start)) (named (Text.split '/' goal)) := by
  rw [components_eq, components_eq, h]
  cases isAbsolute goal with
  | true => exact afterCommon_append ["/"] _ _
  | false => rfl

theorem named_split_shared (h : isAbsolute start = isAbsolute goal) :
    ∃ shared, named (Text.split '/' start) = shared ++ left start goal ∧
      named (Text.split '/' goal) = shared ++ entered start goal := by
  rw [left, entered, afterCommon_components h]
  exact afterCommon_shared _ _

theorem isStep_of_mem_named {path segment : String} (h : segment ∈ named (Text.split '/' path)) :
    IsStep segment := by
  obtain ⟨hmem, hcomponent⟩ := List.mem_filter.mp h
  exact ⟨hcomponent, Text.not_mem_of_mem_split hmem⟩

theorem mem_split_of_mem_entered {segment : String} (h : isAbsolute start = isAbsolute goal)
    (hs : segment ∈ entered start goal) :
    segment ∈ named (Text.split '/' goal) := by
  obtain ⟨shared, -, hgoal⟩ := named_split_shared h
  rw [hgoal]
  exact List.mem_append_right _ hs

/-- The segments of the way: climbs out of what only the start has, then what only the goal has. -/
def way (start goal : String) : List String :=
  (left start goal).map (fun _ => "..") ++ entered start goal

theorem between_eq (start goal : String) :
    between start goal = if way start goal = [] then "." else Text.join "/" (way start goal) := by
  unfold between
  dsimp only
  rw [← left, ← entered, ← way]
  cases way start goal with
  | nil => rfl
  | cons segment rest => exact (if_neg (List.cons_ne_nil _ _)).symm

theorem isStep_way (h : isAbsolute start = isAbsolute goal) :
    ∀ s ∈ way start goal, IsStep s := by
  intro s hs
  rcases List.mem_append.mp hs with hs | hs
  · obtain ⟨-, -, rfl⟩ := List.mem_map.mp hs
    exact isStep_climb
  · exact isStep_of_mem_named (mem_split_of_mem_entered h hs)

theorem named_split_between (h : isAbsolute start = isAbsolute goal) :
    named (Text.split '/' (between start goal)) = way start goal := by
  rw [between_eq]
  split
  · next hnil =>
    rw [hnil]
    rfl
  · rw [named_split_join fun s hs => (isStep_way h s hs).2]
    exact List.filter_eq_self.mpr fun s hs => (isStep_way h s hs).1

theorem isAbsolute_between (h : isAbsolute start = isAbsolute goal) :
    isAbsolute (between start goal) = false := by
  rw [between_eq]
  split
  · rfl
  · exact isAbsolute_steps (isStep_way h)

theorem between_ne_empty (h : isAbsolute start = isAbsolute goal) : between start goal ≠ "" := by
  rw [between_eq]
  split
  · decide
  · next hne => exact fun hempty => hne ((join_eq_empty_iff (isStep_way h)).mp hempty)

theorem mem_between {c : Char} (h : isAbsolute start = isAbsolute goal)
    (hc : c ∈ (between start goal).toList) : c = '/' ∨ c = '.' ∨ c ∈ goal.toList := by
  rw [between_eq] at hc
  split at hc
  · exact .inr (.inl (by simpa using hc))
  rcases Text.mem_join hc with hslash | ⟨segment, hsegment, hc⟩
  · exact .inl (by simpa using hslash)
  rcases List.mem_append.mp hsegment with hclimb | hentered
  · obtain ⟨-, -, rfl⟩ := List.mem_map.mp hclimb
    exact .inr (.inl (by simpa using hc))
  · have hmem := (List.mem_filter.mp (mem_split_of_mem_entered h hentered)).1
    exact .inr (.inr (Text.mem_of_mem_split hmem hc))

/-- A way that names tell: both directories are below the root or neither is, and beyond a beginning
that they share the start goes down only. -/
structure HasWay (start goal : String) : Prop where
  start_slashed : '\\' ∉ start.toList
  goal_slashed : '\\' ∉ goal.toList
  root : isAbsolute start = isAbsolute goal
  down : ∃ common up more, components start = common ++ up ∧ components goal = common ++ more ∧
    ".." ∉ up

/-- The beginning that is taken away is the longest: what is left of the start goes down as well. -/
theorem HasWay.left_descends (h : HasWay start goal) : ∀ name ∈ left start goal, Descends name := by
  obtain ⟨common, up, more, hstart, hgoal, hup⟩ := h.down
  obtain ⟨further, hfurther, -⟩ := afterCommon_shared up more
  obtain ⟨shared, hnamed, -⟩ := named_split_shared h.root
  intro name hname
  have hstep : IsStep name := isStep_of_mem_named (by
    rw [hnamed]
    exact List.mem_append_right _ hname)
  refine ⟨hstep.1, ?_⟩
  rintro rfl
  rw [left, hstart, hgoal, afterCommon_append] at hname
  rw [hfurther] at hup
  exact hup (List.mem_append_right _ hname)

theorem HasWay.isAbsolute_slashed (h : HasWay start goal) :
    isAbsolute (slashed start) = isAbsolute (slashed goal) := by
  rw [slashed_of_not_mem h.start_slashed, slashed_of_not_mem h.goal_slashed, h.root]

theorem slashed_between (h : HasWay start goal) :
    slashed (between start goal) = between start goal := by
  apply slashed_of_not_mem
  intro hc
  rcases mem_between h.root hc with hslash | hdot | hgoal
  · cases hslash
  · cases hdot
  · exact h.goal_slashed hgoal

/-- A walk to the start and along the way is a walk to the goal: the climbs take away what the start
has beyond the shared beginning. -/
theorem foldl_push_between (h : HasWay start goal) (walked : List String) :
    (Text.split '/' start ++ Text.split '/' (between start goal)).foldl (push absolute) walked =
      (Text.split '/' goal).foldl (push absolute) walked := by
  obtain ⟨shared, hstart, hgoal⟩ := named_split_shared h.root
  let reached := shared.foldl (push absolute) walked
  have hclimbs : (left start goal).map (fun _ => "..") =
      (left start goal).reverse.map fun _ => ".." := by
    rw [List.map_const', List.map_const', List.length_reverse]
  have hnames : ∀ name ∈ (left start goal).reverse, Descends name := fun name hname =>
    h.left_descends name (List.mem_reverse.mp hname)
  -- the climbs take back just the names that only the start has
  calc (Text.split '/' start ++ Text.split '/' (between start goal)).foldl (push absolute) walked
    _ = (shared ++ left start goal ++ way start goal).foldl (push absolute) walked := by
      rw [← foldl_push_named, named_append, hstart, named_split_between h.root]
    _ = (way start goal).foldl (push absolute) ((left start goal).reverse ++ reached) := by
      rw [List.foldl_append, List.foldl_append, foldl_push_names h.left_descends]
    _ = (entered start goal).foldl (push absolute) reached := by
      rw [way, List.foldl_append, hclimbs, foldl_push_climbs hnames]
    _ = (Text.split '/' goal).foldl (push absolute) walked := by
      rw [← List.foldl_append, ← hgoal, foldl_push_named]

theorem steps_between (h : HasWay start goal) :
    steps start (between start goal) = steps goal "" := by
  rw [steps, steps, normalized_append_empty, slashed_between h, slashed_of_not_mem h.start_slashed,
    slashed_of_not_mem h.goal_slashed, h.root, normalized, foldl_push_between h, normalized]

theorem steps_join_between (h : HasWay start goal) (reference : String) :
    steps start (join (between start goal) reference) = steps goal reference := by
  have hrelative : isAbsolute (slashed (between start goal)) = false := by
    rw [slashed_between h, isAbsolute_between h.root]
  rw [steps_join_right start hrelative, slashed_between h, slashed_of_not_mem h.start_slashed,
    steps, slashed_of_not_mem h.goal_slashed, h.root, normalized, List.foldl_append,
    foldl_push_between h, ← List.foldl_append, normalized]

theorem follow_between {place : List String} (h : HasWay start goal) (hplace : ".." ∉ place) :
    follow (leadsTo place start) (Text.split '/' (between start goal)) = leadsTo place goal := by
  have hroot : ".." ∉ (if isAbsolute goal then [] else place) := by
    split
    · exact List.not_mem_nil
    · exact hplace
  rw [leadsTo, leadsTo, ← follow_append, h.root, follow_eq hroot, follow_eq hroot,
    foldl_push_between h]

/-- The path `base` is the directory `goal` seen from `start`: joined to `start` it is `goal`, what
is joined to it leads to where it leads from `goal`, and from everywhere it leads on from `start` to
`goal`. -/
structure Denotes (start base goal : String) : Prop where
  given : base ≠ ""
  directory : SameUpToDot (join start base) (join goal "")
  references : ∀ reference, SameUpToDot (join start (join base reference)) (join goal reference)
  arrives : ∀ place, ".." ∉ place →
    follow (leadsTo place start) (Text.split '/' base) = leadsTo place goal

theorem HasWay.denotes (h : HasWay start goal) : Denotes start (between start goal) goal where
  given := between_ne_empty h.root
  directory := sameUpToDot_join h.isAbsolute_slashed (steps_between h)
  references reference := sameUpToDot_join h.isAbsolute_slashed (steps_join_between h reference)
  arrives _ hplace := follow_between h hplace

end RadioDriver.Path
