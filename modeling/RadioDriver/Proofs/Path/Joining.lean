import RadioDriver.Path.Join
import RadioDriver.Proofs.Path.Components

namespace RadioDriver.Path

variable {absolute : Bool} {walked segments : List String} {segment base reference : String}

/-- A segment that a walk can leave: it names an entry or climbs. -/
def IsStep (segment : String) : Prop := isComponent segment = true ∧ '/' ∉ segment.toList

def walk (base reference : String) : List String :=
  normalized false (Text.split '/' (slashed base) ++ Text.split '/' (slashed reference))

theorem isStep_climb : IsStep ".." := ⟨rfl, by decide⟩

theorem mem_push {s : String} (h : s ∈ push absolute walked segment) :
    s ∈ walked ∨ s = ".." ∨ s = segment ∧ isComponent segment = true := by
  unfold push at h
  split at h
  · exact .inl h
  · rename_i hnamed
    have hcomponent : isComponent segment = true := by simpa [isComponent] using hnamed
    grind

theorem mem_normalized {s : String} (h : s ∈ normalized absolute segments) :
    s = ".." ∨ s ∈ segments ∧ isComponent s = true := by
  have hfold : ∀ walked : List String, s ∈ segments.foldl (push absolute) walked →
      s ∈ walked ∨ s = ".." ∨ s ∈ segments ∧ isComponent s = true := by
    clear h
    induction segments with
    | nil => exact fun _ hwalked => .inl hwalked
    | cons segment segments ih =>
      intro walked hs
      have hpush := @mem_push absolute walked segment s
      have hrest := ih _ hs
      grind
  simpa using hfold [] (List.mem_reverse.mp h)

theorem isStep_normalized (h : ∀ s ∈ segments, '/' ∉ s.toList) :
    ∀ s ∈ normalized absolute segments, IsStep s := by
  intro s hs
  rcases mem_normalized hs with rfl | ⟨hmem, hcomponent⟩
  · exact isStep_climb
  · exact ⟨hcomponent, h s hmem⟩

theorem isStep_walk (base reference : String) : ∀ s ∈ walk base reference, IsStep s := by
  apply isStep_normalized
  intro s hs
  rcases List.mem_append.mp hs with hs | hs
  · exact Text.not_mem_of_mem_split hs
  · exact Text.not_mem_of_mem_split hs

theorem mem_slashed {c : Char} {s : String} (h : c ∈ (slashed s).toList) :
    c = '/' ∨ c ∈ s.toList := by
  rw [slashed, String.toList_ofList, List.mem_map] at h
  grind

theorem mem_join {c : Char} (h : c ∈ (join base reference).toList) :
    c = '/' ∨ c = '.' ∨ c ∈ base.toList ∨ c ∈ reference.toList := by
  have hwalk : ∀ {absolute : Bool}, c ∈ (Text.join "/" (normalized absolute
      (Text.split '/' (slashed base) ++ Text.split '/' (slashed reference)))).toList →
      c = '/' ∨ c = '.' ∨ c ∈ base.toList ∨ c ∈ reference.toList := by
    intro absolute hc
    rcases Text.mem_join hc with hslash | ⟨segment, hsegment, hc⟩
    · exact .inl (by simpa using hslash)
    rcases mem_normalized hsegment with rfl | ⟨hsegment, -⟩
    · exact .inr (.inl (by simpa using hc))
    rcases List.mem_append.mp hsegment with hsegment | hsegment
    · exact (mem_slashed (Text.mem_of_mem_split hsegment hc)).imp_right fun h => .inr (.inl h)
    · exact (mem_slashed (Text.mem_of_mem_split hsegment hc)).imp_right fun h => .inr (.inr h)
  unfold join at h
  dsimp only at h
  split at h
  · rw [String.toList_append, List.mem_append] at h
    exact h.elim (fun hc => .inl (by simpa using hc)) hwalk
  · split at h
    · exact .inr (.inl (by simpa using h))
    · split at h
      · rw [String.toList_append, List.mem_append] at h
        refine h.elim (fun hc => ?_) hwalk
        have hdot : c = '.' ∨ c = '/' := by simpa using hc
        exact hdot.elim (fun hc => .inr (.inl hc)) .inl
      · exact hwalk h

theorem getLast?_push (h : walked.getLast? = some "..") (segment : String) :
    (push false walked segment).getLast? = some ".." := by
  unfold push
  split
  · exact h
  · split
    · cases walked with
      | nil => cases h
      | cons last outer =>
        dsimp only
        split
        · rename_i hlast
          cases outer with
          | nil => exact absurd (Option.some.inj h) hlast
          | cons next outer => simpa using h
        · simpa using h
    · cases walked with
      | nil => cases h
      | cons last outer => simpa using h

theorem normalized_climb (segments : List String) :
    ∃ rest, normalized false (".." :: segments) = ".." :: rest := by
  have hfold : ∀ walked : List String, walked.getLast? = some ".." →
      (segments.foldl (push false) walked).getLast? = some ".." := by
    induction segments with
    | nil => exact fun _ h => h
    | cons segment segments ih => exact fun walked h => ih _ (getLast?_push h segment)
  have hlast := hfold [".."] rfl
  rw [← List.head?_reverse] at hlast
  exact List.head?_eq_some_iff.mp hlast

theorem startsWith_iff {s start : String} :
    Text.startsWith s start = true ↔ ∃ rest, s = start ++ rest := by
  rw [Text.startsWith, List.isPrefixOf_iff_prefix]
  constructor
  · rintro ⟨rest, hrest⟩
    refine ⟨String.ofList rest, String.toList_injective ?_⟩
    rw [String.toList_append, String.toList_ofList, hrest]
  · rintro ⟨rest, rfl⟩
    rw [String.toList_append]
    exact List.prefix_append _ _

/-- A joined path begins with a segment and a slash when that segment is the first of several. -/
theorem startsWith_join_iff (h : ∀ s ∈ segments, IsStep s) (segment : String)
    (hsegment : '/' ∉ segment.toList) :
    Text.startsWith (Text.join "/" segments) (segment ++ "/") = true ↔
      ∃ rest, rest ≠ [] ∧ segments = segment :: rest := by
  rw [startsWith_iff]
  constructor
  · rintro ⟨rest, hrest⟩
    have hne : segments ≠ [] := by
      rintro rfl
      have hchars := congrArg String.toList hrest
      simp [Text.join] at hchars
    refine ⟨Text.split '/' rest, Text.split_ne_nil _ _, ?_⟩
    calc segments = Text.split '/' (Text.join "/" segments) :=
          (Text.split_join_names hne fun s hs => (h s hs).2).symm
      _ = Text.split '/' (segment ++ "/" ++ rest) := by rw [hrest]
      _ = Text.split '/' segment ++ Text.split '/' rest := Text.split_join '/' segment rest
      _ = segment :: Text.split '/' rest := by rw [Text.split_of_not_mem hsegment]; rfl
  · rintro ⟨rest, hne, rfl⟩
    cases rest with
    | nil => exact absurd rfl hne
    | cons next rest => exact ⟨_, rfl⟩

theorem join_eq_empty_iff (h : ∀ s ∈ segments, IsStep s) :
    Text.join "/" segments = "" ↔ segments = [] := by
  constructor
  · intro hempty
    by_cases hne : segments = []
    · exact hne
    · have hsplit := Text.split_join_names hne fun s hs => (h s hs).2
      have hblank : segments = [""] := by
        rw [← hsplit]
        exact congrArg (Text.split '/') hempty
      rw [hblank] at h
      exact absurd (h "" List.mem_cons_self).1 (by decide)
  · rintro rfl
    rfl

theorem join_relative (h : isAbsolute (slashed base) = false) :
    join base reference =
      if Text.join "/" (walk base reference) = "" then "."
      else if Text.startsWith (slashed base) "./" &&
          !Text.startsWith (Text.join "/" (walk base reference)) "../" then
        "./" ++ Text.join "/" (walk base reference)
      else Text.join "/" (walk base reference) := by
  rw [isAbsolute] at h
  simp only [join, h, walk, Bool.false_eq_true, if_false]
  rfl

/-- Whether a reference is a relative one also when it is seen from the base: the base begins with
`./` and the walk does not end at its start, or the walk climbs and does not end where it climbed
to. -/
def staysRelative (base reference : String) : Bool :=
  match walk base reference with
  | [] => false
  | [_] => Text.startsWith (slashed base) "./"
  | first :: _ :: _ => first == ".." || Text.startsWith (slashed base) "./"

theorem staysRelative_iff :
    staysRelative base reference = true ↔
      Text.startsWith (slashed base) "./" = true ∧ walk base reference ≠ [] ∨
        ∃ rest, rest ≠ [] ∧ walk base reference = ".." :: rest := by
  unfold staysRelative
  split <;> simp_all [or_comm]

/-- A joined path is a relative reference exactly when the reference stays a relative one. -/
theorem isRelativeReference_join (h : isAbsolute (slashed base) = false) :
    isRelativeReference (join base reference) = staysRelative base reference := by
  have hsteps := isStep_walk base reference
  have hclimbs := startsWith_join_iff hsteps ".." (by decide)
  have hempty := join_eq_empty_iff hsteps
  have hdot : Text.startsWith (Text.join "/" (walk base reference)) "./" = false := by
    rw [← Bool.not_eq_true]
    intro hdot
    obtain ⟨rest, -, hwalk⟩ := (startsWith_join_iff hsteps "." (by decide)).mp hdot
    rw [hwalk] at hsteps
    exact absurd (hsteps "." List.mem_cons_self).1 (by decide)
  rw [Bool.eq_iff_iff, staysRelative_iff, join_relative h, ← hclimbs, ne_eq, ← hempty]
  generalize Text.join "/" (walk base reference) = joined at hdot
  split
  · rename_i hblank
    have hclimb : Text.startsWith "" "../" = false := by decide
    have hplain : isRelativeReference "." = false := by decide
    simp [hblank, hclimb, hplain]
  · rename_i hfull
    split
    · rename_i hprefix
      have hrelative : isRelativeReference ("./" ++ joined) = true := by
        rw [isRelativeReference, startsWith_iff.mpr ⟨joined, rfl⟩]
        rfl
      simp_all
    · rename_i hprefix
      rw [isRelativeReference, hdot, Bool.false_or]
      grind

/-- A path that begins with `..`. -/
def Climbs (path : String) : Prop := path = ".." ∨ Text.startsWith path "../" = true

theorem slashed_append (s t : String) : slashed (s ++ t) = slashed s ++ slashed t := by
  simp [slashed, String.ofList_append]

theorem Climbs.slashed (h : Climbs base) : Climbs (slashed base) := by
  rcases h with rfl | h
  · exact .inl (by decide)
  · obtain ⟨rest, rfl⟩ := startsWith_iff.mp h
    rw [slashed_append]
    exact .inr (startsWith_iff.mpr ⟨_, rfl⟩)

theorem Climbs.isAbsolute (h : Climbs base) : isAbsolute base = false := by
  rcases h with rfl | h
  · decide
  · obtain ⟨rest, rfl⟩ := startsWith_iff.mp h
    rw [isAbsolute_append (by decide)]
    decide

theorem Climbs.startsWith_dot (h : Climbs base) : Text.startsWith base "./" = false := by
  rcases h with rfl | h
  · decide
  · obtain ⟨rest, rfl⟩ := startsWith_iff.mp h
    rw [Text.startsWith, String.toList_append]
    rfl

theorem Climbs.split (h : Climbs base) : ∃ more, Text.split '/' base = ".." :: more := by
  rcases h with rfl | h
  · exact ⟨[], by decide⟩
  · obtain ⟨rest, rfl⟩ := startsWith_iff.mp h
    exact ⟨_, Text.split_join '/' ".." rest⟩

/-- From a base that climbs, every reference but the one to where the base climbed to stays a
relative one. -/
theorem Climbs.isRelativeReference_join_iff (h : Climbs base) :
    isRelativeReference (join base reference) = true ↔ join base reference ≠ ".." := by
  obtain ⟨more, hmore⟩ := h.slashed.split
  obtain ⟨rest, hrest⟩ := normalized_climb (more ++ Text.split '/' (Path.slashed reference))
  have hwalk : walk base reference = ".." :: rest := by
    rw [walk, hmore, List.cons_append, hrest]
  constructor
  · intro hrelative heq
    rw [heq] at hrelative
    exact absurd hrelative (by decide)
  · intro hne
    rw [isRelativeReference_join h.slashed.isAbsolute, staysRelative_iff]
    refine .inr ⟨rest, ?_, hwalk⟩
    rintro rfl
    apply hne
    rw [join_relative h.slashed.isAbsolute, hwalk, h.slashed.startsWith_dot]
    rfl

theorem afterCommon_fst_eq_nil_iff {start goal : List String} :
    (afterCommon start goal).1 = [] ↔ start <+: goal := by
  fun_induction afterCommon start goal with
  | case1 a start goal ih => simp [ih]
  | case2 a start b goal hne => simp [hne]
  | case3 start goal h =>
    cases start with
    | nil => simp
    | cons a start =>
      cases goal with
      | nil => simp
      | cons b goal => exact (h a start b goal rfl rfl).elim

theorem climbs_between {start goal : String} (h : ¬ components start <+: components goal) :
    Climbs (between start goal) := by
  have hup : (afterCommon (components start) (components goal)).1 ≠ [] :=
    fun hnil => h (afterCommon_fst_eq_nil_iff.mp hnil)
  unfold between
  dsimp only
  generalize (afterCommon (components start) (components goal)).1 = up at hup
  cases up with
  | nil => exact absurd rfl hup
  | cons first up =>
    rw [List.map_cons, List.cons_append]
    cases up.map (fun _ => "..") ++ (afterCommon (components start) (components goal)).2 with
    | nil => exact .inl rfl
    | cons next rest => exact .inr (startsWith_iff.mpr ⟨_, rfl⟩)

end RadioDriver.Path
