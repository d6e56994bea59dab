import RadioDriver.Proofs.Path.Normal

namespace RadioDriver.Path

variable {absolute : Bool} {base reference other more path b : String}

def steps (base reference : String) : List String :=
  normalized (isAbsolute (slashed base))
    (Text.split '/' (slashed base) ++ Text.split '/' (slashed reference))

theorem isStep_steps (base reference : String) : ∀ s ∈ steps base reference, IsStep s := by
  apply isStep_normalized
  intro s hs
  rcases List.mem_append.mp hs with hs | hs <;> exact Text.not_mem_of_mem_split hs

theorem named_steps (base reference : String) :
    named (steps base reference) = steps base reference :=
  List.filter_eq_self.mpr fun s hs => (isStep_steps base reference s hs).1

theorem steps_relative (h : isAbsolute (slashed base) = false) :
    steps base reference = walk base reference := by rw [steps, h, walk]

theorem join_absolute (h : isAbsolute (slashed base) = true) :
    join base reference = "/" ++ Text.join "/" (steps base reference) := by
  rw [steps, h]
  rw [isAbsolute] at h
  simp only [join, h, if_true]

theorem join_of_relative (h : isAbsolute (slashed base) = false) :
    join base reference =
      if steps base reference = [] then "."
      else if Text.startsWith (slashed base) "./" &&
          !Text.startsWith (Text.join "/" (steps base reference)) "../" then
        "./" ++ Text.join "/" (steps base reference)
      else Text.join "/" (steps base reference) := by
  rw [join_relative h, ← steps_relative h]
  simp only [join_eq_empty_iff (isStep_steps base reference)]

theorem join_relative_cases (h : isAbsolute (slashed base) = false) :
    steps base reference = [] ∧ join base reference = "." ∨
      steps base reference ≠ [] ∧ (join base reference = Text.join "/" (steps base reference) ∨
        join base reference = "./" ++ Text.join "/" (steps base reference)) := by
  rw [join_of_relative h]
  split
  · next hnil => exact .inl ⟨hnil, rfl⟩
  · next hne =>
    refine .inr ⟨hne, ?_⟩
    split
    · exact .inr rfl
    · exact .inl rfl

theorem named_split_steps (base reference : String) :
    named (Text.split '/' (Text.join "/" (steps base reference))) = steps base reference := by
  rw [named_split_join fun s hs => (isStep_steps base reference s hs).2, named_steps]

theorem split_root (rest : String) :
    Text.split '/' ("/" ++ rest) = "" :: Text.split '/' rest := by
  have hcut := Text.split_join '/' "" rest
  rw [String.empty_append] at hcut
  exact hcut

theorem split_dot (rest : String) :
    Text.split '/' ("./" ++ rest) = "." :: Text.split '/' rest := by
  have hlead : "./" = "." ++ String.singleton '/' := by decide
  rw [hlead, Text.split_join, Text.split_of_not_mem (by decide)]
  rfl

theorem named_cons_blank {segment : String} (h : isComponent segment = false)
    (segments : List String) : named (segment :: segments) = named segments := by
  rw [named, List.filter_cons, if_neg (by simp [h])]
  rfl

theorem named_split_path (base reference : String) :
    named (Text.split '/' (join base reference)) = steps base reference := by
  have hsteps := named_split_steps base reference
  cases h : isAbsolute (slashed base) with
  | true =>
    rw [join_absolute h, split_root, named_cons_blank rfl, hsteps]
  | false =>
    rcases join_relative_cases h with ⟨hnil, hjoin⟩ | ⟨-, hjoin | hjoin⟩
    · rw [hjoin, hnil]
      rfl
    · rw [hjoin, hsteps]
    · rw [hjoin, split_dot, named_cons_blank rfl, hsteps]

theorem not_mem_slashed (s : String) : '\\' ∉ (slashed s).toList := by
  rw [slashed, String.toList_ofList, List.mem_map]
  grind

theorem slashed_of_not_mem (h : '\\' ∉ path.toList) : slashed path = path := by
  have hsame : path.toList.map (fun c => if c = '\\' then '/' else c) = path.toList.map id :=
    List.map_congr_left fun c hc => if_neg fun (heq : c = '\\') => h (heq ▸ hc)
  rw [slashed, hsame, List.map_id, String.ofList_toList]

theorem slashed_slashed (s : String) : slashed (slashed s) = slashed s :=
  slashed_of_not_mem (not_mem_slashed s)

theorem join_slashed (base reference : String) :
    join (slashed base) (slashed reference) = join base reference := by
  rw [join, join, slashed_slashed, slashed_slashed]

theorem not_mem_join (base reference : String) : '\\' ∉ (join base reference).toList := by
  rw [← join_slashed]
  intro h
  rcases mem_join h with hslash | hdot | hbase | hreference
  · cases hslash
  · cases hdot
  · exact not_mem_slashed base hbase
  · exact not_mem_slashed reference hreference

theorem slashed_join (base reference : String) :
    slashed (join base reference) = join base reference :=
  slashed_of_not_mem (not_mem_join base reference)

theorem not_startsWith_blank {segments : List String} (h : ∀ s ∈ segments, IsStep s)
    {segment : String} (hblank : isComponent segment = false) (hslash : '/' ∉ segment.toList) :
    Text.startsWith (Text.join "/" segments) (segment ++ "/") = false := by
  rw [← Bool.not_eq_true]
  intro hstart
  obtain ⟨rest, -, hsegments⟩ := (startsWith_join_iff h segment hslash).mp hstart
  rw [hsegments] at h
  have hstep := (h segment List.mem_cons_self).1
  rw [hblank] at hstep
  cases hstep

theorem isAbsolute_steps {segments : List String} (h : ∀ s ∈ segments, IsStep s) :
    isAbsolute (Text.join "/" segments) = false :=
  @not_startsWith_blank segments h "" rfl (by decide)

theorem isAbsolute_join (base reference : String) :
    isAbsolute (slashed (join base reference)) = isAbsolute (slashed base) := by
  rw [slashed_join]
  cases h : isAbsolute (slashed base) with
  | true =>
    rw [join_absolute h, isAbsolute_append (by decide)]
    rfl
  | false =>
    rcases join_relative_cases h with ⟨-, hjoin⟩ | ⟨-, hjoin | hjoin⟩
    · rw [hjoin]
      rfl
    · rw [hjoin]
      exact isAbsolute_steps (isStep_steps base reference)
    · rw [hjoin, isAbsolute_append (by decide)]
      rfl

/-- The same path, but for a `./` in front of one of the two. -/
def SameUpToDot (path other : String) : Prop :=
  path = other ∨ path = "./" ++ other ∨ other = "./" ++ path

theorem sameUpToDot_join (hroot : isAbsolute (slashed base) = isAbsolute (slashed other))
    (hsteps : steps base reference = steps other more) :
    SameUpToDot (join base reference) (join other more) := by
  cases h : isAbsolute (slashed base) with
  | true =>
    rw [join_absolute h, join_absolute (hroot ▸ h), hsteps]
    exact .inl rfl
  | false =>
    have hcases := @join_relative_cases base reference h
    have hothers := @join_relative_cases other more (hroot ▸ h)
    rw [hsteps] at hcases
    rcases hcases with ⟨hnil, hjoin⟩ | ⟨hne, hjoin⟩
    · rcases hothers with ⟨-, hother⟩ | ⟨hne, -⟩
      · exact .inl (hjoin.trans hother.symm)
      · exact absurd hnil hne
    · rcases hothers with ⟨hnil, -⟩ | ⟨-, hother⟩
      · exact absurd hnil hne
      · rcases hjoin with hjoin | hjoin <;> rcases hother with hother | hother
        · exact .inl (hjoin.trans hother.symm)
        · exact .inr (.inr (by rw [hjoin, hother]))
        · exact .inr (.inl (by rw [hjoin, hother]))
        · exact .inl (hjoin.trans hother.symm)

theorem foldl_push_path (h : isAbsolute (slashed base) = false) (walked : List String) :
    (Text.split '/' (join base reference)).foldl (push absolute) walked =
      (Text.split '/' (slashed base) ++ Text.split '/' (slashed reference)).foldl
        (push absolute) walked := by
  rw [← foldl_push_named, named_split_path, steps, h, foldl_push_normalized]

theorem foldl_push_path_start (base reference : String) :
    (Text.split '/' (join base reference)).foldl (push (isAbsolute (slashed base))) [] =
      (Text.split '/' (slashed base) ++ Text.split '/' (slashed reference)).foldl
        (push (isAbsolute (slashed base))) [] := by
  rw [← foldl_push_named, named_split_path, steps, foldl_push_normalized_start]

theorem steps_join_left (a b c : String) :
    steps (join a b) c = normalized (isAbsolute (slashed a))
      (Text.split '/' (slashed a) ++ Text.split '/' (slashed b) ++ Text.split '/' (slashed c)) := by
  rw [steps, isAbsolute_join, slashed_join, normalized, normalized, List.foldl_append,
    foldl_push_path_start, ← List.foldl_append]

theorem steps_join_right (a : String) (h : isAbsolute (slashed b) = false) (c : String) :
    steps a (join b c) = normalized (isAbsolute (slashed a))
      (Text.split '/' (slashed a) ++ Text.split '/' (slashed b) ++ Text.split '/' (slashed c)) := by
  rw [steps, slashed_join, normalized, normalized, List.foldl_append, foldl_push_path h,
    ← List.foldl_append, List.append_assoc]

theorem steps_join_assoc (a : String) (h : isAbsolute (slashed b) = false) (c : String) :
    steps a (join b c) = steps (join a b) c := by
  rw [steps_join_right a h, steps_join_left]

theorem normalized_append_empty (absolute : Bool) (segments : List String) :
    normalized absolute (segments ++ Text.split '/' (slashed "")) =
      normalized absolute segments := by
  have hempty : Text.split '/' (slashed "") = [""] := by decide
  have hblank : isComponent "" = false := rfl
  rw [normalized, hempty, List.foldl_append, List.foldl_cons, List.foldl_nil, push_blank hblank,
    normalized]

theorem steps_join_empty (base reference : String) :
    steps (join base reference) "" = steps base reference := by
  rw [steps_join_left, normalized_append_empty, steps]

theorem join_join_empty (base reference : String) :
    join (join base reference) "" = join base reference := by
  have hroot := isAbsolute_join base reference
  have hsteps := steps_join_empty base reference
  cases h : isAbsolute (slashed base) with
  | true => rw [join_absolute (hroot.trans h), hsteps, join_absolute h]
  | false =>
    have hdot : Text.startsWith (Text.join "/" (steps base reference)) "./" = false :=
      @not_startsWith_blank _ (isStep_steps base reference) "." rfl (by decide)
    rw [join_of_relative (hroot.trans h), hsteps, slashed_join]
    by_cases hnil : steps base reference = []
    · rw [if_pos hnil, join_of_relative h, if_pos hnil]
    by_cases hkept : (Text.startsWith (slashed base) "./" &&
        !Text.startsWith (Text.join "/" (steps base reference)) "../") = true
    · have hjoin : join base reference = "./" ++ Text.join "/" (steps base reference) := by
        rw [join_of_relative h, if_neg hnil, if_pos hkept]
      have hstart : Text.startsWith (join base reference) "./" = true :=
        startsWith_iff.mpr ⟨_, hjoin⟩
      rw [Bool.and_eq_true] at hkept
      rw [if_neg hnil, hstart, Bool.true_and, if_pos hkept.2, hjoin]
    · have hjoin : join base reference = Text.join "/" (steps base reference) := by
        rw [join_of_relative h, if_neg hnil, if_neg hkept]
      rw [if_neg hnil, hjoin, hdot, Bool.false_and, if_neg Bool.false_ne_true]

/-- Where segments lead from a place: names lead down, and climbs up to the root. -/
def follow (place : List String) : List String → List String
  | [] => place
  | segment :: rest =>
    if segment = "" ∨ segment = "." then follow place rest
    else if segment = ".." then follow place.dropLast rest
    else follow (place ++ [segment]) rest

/-- Where a path leads from a place. -/
def leadsTo (place : List String) (path : String) : List String :=
  follow (if isAbsolute path then [] else place) (Text.split '/' path)

theorem follow_append (place segments more : List String) :
    follow place (segments ++ more) = follow (follow place segments) more := by
  induction segments generalizing place with
  | nil => rfl
  | cons segment segments ih =>
    rw [List.cons_append, follow, follow, ih, ih, ih]
    split
    · rfl
    · split <;> rfl

theorem follow_eq {place : List String} (h : ".." ∉ place) (segments : List String) :
    follow place segments = (segments.foldl (push true) place.reverse).reverse := by
  induction segments generalizing place with
  | nil => rw [follow, List.foldl_nil, List.reverse_reverse]
  | cons segment segments ih =>
    rw [follow, List.foldl_cons]
    rcases segment_cases segment with hblank | hname | rfl
    · rw [if_pos (isComponent_eq_false.mp hblank), push_blank hblank, ih h]
    · have hplace : ".." ∉ place ++ [segment] := by simp [h, Ne.symm hname.2]
      rw [if_neg hname.not_blank, if_neg hname.2, hname.push, ih hplace, List.reverse_append]
      rfl
    · have hnamed : ¬ (".." = "" ∨ ".." = ".") := by decide
      have hout : ".." ∉ place.dropLast := fun hmem => h (List.dropLast_subset _ hmem)
      rw [if_neg hnamed, if_pos rfl, ih hout]
      -- a climb takes the last name away, and from the root it leads nowhere else
      cases place using List.reverseRecOn with
      | nil => rfl
      | append_singleton outer last =>
        have hlast : ".." ≠ last := fun heq => h (by simp [heq])
        rw [List.dropLast_concat, List.reverse_append, List.reverse_singleton,
          List.singleton_append, push_climb]
        exact congrArg (fun walked => (segments.foldl (push true) walked).reverse)
          (if_pos hlast.symm).symm

/-- A joined path leads from every place to where the base and then the reference lead. -/
theorem leadsTo_join {place : List String} (h : ".." ∉ place) (base reference : String) :
    leadsTo place (join base reference) =
      follow (leadsTo place (slashed base)) (Text.split '/' (slashed reference)) := by
  have hroot := isAbsolute_join base reference
  rw [slashed_join] at hroot
  rw [leadsTo, leadsTo, hroot, ← follow_append]
  -- an absolute base leads from the root, whatever the place
  cases habs : isAbsolute (slashed base) with
  | true =>
    have hstart := foldl_push_path_start base reference
    rw [habs] at hstart
    have hempty : ".." ∉ ([] : List String) := List.not_mem_nil
    rw [if_pos rfl, follow_eq hempty, follow_eq hempty, List.reverse_nil, hstart]
  | false =>
    rw [if_neg Bool.false_ne_true, follow_eq h, follow_eq h, foldl_push_path habs]

/-- A path in normal form: `.` or `/` alone, or names, which only a relative path may have climbs
and a `./` in front of. -/
inductive Normal : Bool → String → Prop
  | here : Normal false "."
  | root : Normal true "/"
  | below {rest : String} (named : ∀ name ∈ Text.split '/' rest, IsName name) :
    Normal true ("/" ++ rest)
  | relative {lead rest : String} {climbs : Nat} {names : List String}
    (front : lead = "" ∨ lead = "./")
    (parts : Text.split '/' rest = List.replicate climbs ".." ++ names)
    (named : ∀ name ∈ names, IsName name) : Normal false (lead ++ rest)

theorem steps_eq (base reference : String) :
    ∃ climbs names, steps base reference = List.replicate climbs ".." ++ names ∧
      (∀ name ∈ names, IsName name) ∧ (isAbsolute (slashed base) = true → climbs = 0) := by
  obtain ⟨climbs, names, heq, hnames, hroot⟩ := normalized_eq (isAbsolute (slashed base))
    (Text.split '/' (slashed base) ++ Text.split '/' (slashed reference))
  refine ⟨climbs, names, heq, fun name hname => ?_, hroot⟩
  have hstep := isStep_steps base reference name (by
    rw [steps, heq]
    exact List.mem_append_right _ hname)
  have hnamed : name ≠ "" ∧ name ≠ "." := by simpa [isComponent] using hstep.1
  exact ⟨hnamed.1, hnamed.2, (hnames name hname).2, hstep.2⟩

theorem normal_join (base reference : String) :
    Normal (isAbsolute (slashed base)) (join base reference) := by
  obtain ⟨climbs, names, hsteps, hnames, hroot⟩ := steps_eq base reference
  have hsplit : steps base reference ≠ [] →
      Text.split '/' (Text.join "/" (steps base reference)) = steps base reference :=
    fun hne => Text.split_join_names hne fun s hs => (isStep_steps base reference s hs).2
  cases h : isAbsolute (slashed base) with
  | true =>
    rw [join_absolute h]
    by_cases hnil : steps base reference = []
    · rw [hnil]
      exact .root
    · refine .below fun name hname => ?_
      rw [hsplit hnil, hsteps, hroot h] at hname
      exact hnames name hname
  | false =>
    rcases join_relative_cases h with ⟨-, hjoin⟩ | ⟨hne, hjoin | hjoin⟩
    · rw [hjoin]
      exact .here
    · rw [hjoin, ← String.empty_append (s := Text.join _ _)]
      exact .relative (.inl rfl) ((hsplit hne).trans hsteps) hnames
    · rw [hjoin]
      exact .relative (.inr rfl) ((hsplit hne).trans hsteps) hnames

theorem Normal.ne_empty (h : Normal absolute path) : path ≠ "" := by
  cases h with
  | here => decide
  | root => decide
  | below named => simp [String.append_eq_empty_iff]
  | relative front parts named =>
    rename_i lead rest climbs names
    intro hempty
    obtain ⟨-, rfl⟩ := String.append_eq_empty_iff.mp hempty
    have hblank : [""] = List.replicate climbs ".." ++ names := parts
    cases climbs with
    | zero =>
      rw [List.replicate_zero, List.nil_append] at hblank
      exact (named "" (hblank ▸ List.mem_singleton_self "")).1 rfl
    | succ climbs => exact absurd (List.cons.inj hblank).1 (by decide)

theorem isAbsolute_slashed (path : String) :
    isAbsolute (slashed path) = (Text.startsWith path "/" || Text.startsWith path "\\") := by
  have hslash : "/".toList = ['/'] := rfl
  have hbackslash : "\\".toList = ['\\'] := rfl
  rw [isAbsolute, Text.startsWith, hslash, Text.startsWith, hslash, Text.startsWith, hbackslash,
    slashed, String.toList_ofList]
  cases path.toList with
  | nil => rfl
  | cons c chars =>
    by_cases hc : c = '\\'
    · simp [List.isPrefixOf, hc]
    · simp [List.isPrefixOf, hc, Ne.symm hc]

/-- A joined path is in normal form, leads to where the base and then the reference lead, and joined
with nothing stays as it is. A reference seen from a joined path is the joined reference seen from
the base, but for a `./` in front. -/
theorem join_normalizes_and_composes :
    (∀ base reference, join base reference ≠ "" ∧ '\\' ∉ (join base reference).toList ∧
      Normal (isAbsolute (slashed base)) (join base reference) ∧
      join (join base reference) "" = join base reference ∧
      ∀ place, ".." ∉ place → leadsTo place (join base reference) =
        follow (leadsTo place (slashed base)) (Text.split '/' (slashed reference))) ∧
    ∀ a b c, Text.startsWith b "/" = false → Text.startsWith b "\\" = false →
      SameUpToDot (join a (join b c)) (join (join a b) c) := by
  constructor
  · intro base reference
    have hnormal := normal_join base reference
    exact ⟨hnormal.ne_empty, not_mem_join base reference, hnormal, join_join_empty base reference,
      fun place h => leadsTo_join h base reference⟩
  · intro a b c hslash hbackslash
    have hrelative : isAbsolute (slashed b) = false := by
      rw [isAbsolute_slashed, hslash, hbackslash]
      rfl
    exact sameUpToDot_join (isAbsolute_join a b).symm (steps_join_assoc a hrelative c)

/-- The start of a base that begins with a `./` is `.`, so only in one step is the `./` kept. -/
theorem lib_join_composes :
    leadsTo ["app"] (join "./lib" "../x.js") = ["app", "x.js"] ∧
      Text.startsWith ".." "/" = false ∧ Text.startsWith ".." "\\" = false ∧
      SameUpToDot (join "./lib" (join ".." "x.js")) (join (join "./lib" "..") "x.js") ∧
      join "./lib" (join ".." "x.js") = "./x.js" ∧ join (join "./lib" "..") "x.js" = "x.js" := by
  have hslash : Text.startsWith ".." "/" = false := by decide
  have hbackslash : Text.startsWith ".." "\\" = false := by decide
  have hlead := (join_normalizes_and_composes.1 "./lib" "../x.js").2.2.2.2 ["app"] (by decide)
  exact ⟨hlead.trans (by decide +kernel), hslash, hbackslash,
    join_normalizes_and_composes.2 "./lib" ".." "x.js" hslash hbackslash, by decide +kernel,
    by decide +kernel⟩

end RadioDriver.Path
