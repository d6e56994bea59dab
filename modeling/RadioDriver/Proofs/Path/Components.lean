import RadioDriver.Path.Between
import RadioDriver.Path.Entry
import RadioDriver.Proofs.Text.Pieces

namespace RadioDriver.Path

def isComponent (segment : String) : Bool := segment ≠ "" ∧ segment ≠ "."

def named (parts : List String) : List String := parts.filter isComponent

def isAbsolute (path : String) : Bool := Text.startsWith path "/"

/-- A segment that names an entry of its directory. -/
def IsName (name : String) : Prop := name ≠ "" ∧ name ≠ "." ∧ name ≠ ".." ∧ '/' ∉ name.toList

variable {path name ending : String} {parts : List String}

theorem components_eq (path : String) :
    components path = if isAbsolute path then "/" :: named (Text.split '/' path)
      else named (Text.split '/' path) := rfl

theorem IsName.isComponent (h : IsName name) : isComponent name = true := by
  simp [Path.isComponent, h.1, h.2.1]

theorem named_append (parts more : List String) :
    named (parts ++ more) = named parts ++ named more := List.filter_append ..

theorem named_singleton (h : IsName name) : named [name] = [name] :=
  List.filter_eq_self.mpr fun segment hs => by rw [List.mem_singleton.mp hs, h.isComponent]

theorem named_eq_nil (h : ∀ segment ∈ parts, isComponent segment = false) :
    named parts = [] :=
  List.filter_eq_nil_iff.mpr fun segment hs => by rw [h segment hs]; exact Bool.false_ne_true

theorem named_trimSegments (parts : List String) :
    named (trimSegments parts) = named parts := by
  let dropped := parts.reverse.takeWhile fun s => s == "" || s == "."
  have hcut : dropped ++ parts.reverse.dropWhile (fun s => s == "" || s == ".") =
      parts.reverse := List.takeWhile_append_dropWhile
  have hsplit : parts = trimSegments parts ++ dropped.reverse := by
    rw [trimSegments, ← List.reverse_append, hcut, List.reverse_reverse]
  have hnone : named dropped.reverse = [] := by
    apply named_eq_nil
    intro segment hs
    have hall := List.all_eq_true.mp (List.all_takeWhile (p := fun s => s == "" || s == "."))
      segment (List.mem_reverse.mp hs)
    rcases Bool.or_eq_true_iff.mp hall with h | h <;> simp [isComponent, beq_iff_eq.mp h]
  have hnamed := congrArg named hsplit
  rw [named_append, hnone, List.append_nil] at hnamed
  exact hnamed.symm

theorem relativeSegments_cases (parts : List String) :
    (∃ rest, parts = "." :: rest ∧ trimSegments parts = [] ∧ relativeSegments parts = ["."]) ∨
      relativeSegments parts = trimSegments parts := by
  unfold relativeSegments
  split
  · next rest htrim => exact .inl ⟨rest, rfl, htrim, rfl⟩
  · exact .inr rfl

theorem named_relativeSegments (parts : List String) :
    named (relativeSegments parts) = named parts := by
  rw [← named_trimSegments parts]
  rcases relativeSegments_cases parts with ⟨rest, -, htrim, hrel⟩ | hrel
  · rw [hrel, htrim]
    rfl
  · rw [hrel]

theorem trimSegments_start (parts : List String) : trimSegments parts <+: parts := by
  have hsuffix := List.dropWhile_suffix (l := parts.reverse) fun s => s == "" || s == "."
  have := List.reverse_prefix.mpr hsuffix
  rwa [List.reverse_reverse] at this

theorem trimSegments_eq (h : ∃ front, parts = front ++ [name]) (hname : IsName name) :
    trimSegments parts = parts := by
  obtain ⟨front, rfl⟩ := h
  have hkeep : (name == "" || name == ".") = false := by simp [hname.1, hname.2.1]
  rw [trimSegments, List.reverse_append, List.reverse_singleton, List.singleton_append,
    List.dropWhile_cons_of_neg (by simpa using hkeep)]
  simp

theorem isComponent_of_getLast? (h : (trimSegments parts).getLast? = some name) :
    isComponent name = true := by
  rw [trimSegments, List.getLast?_reverse] at h
  have hhead := List.head?_dropWhile_not (fun s => s == "" || s == ".") parts.reverse
  rw [h] at hhead
  simpa [isComponent, and_comm] using hhead

theorem head?_of_relativeSegments (h : (relativeSegments parts).head? = some name) :
    parts.head? = some name := by
  rcases relativeSegments_cases parts with ⟨rest, rfl, -, hrel⟩ | hrel
  · rwa [hrel] at h
  · obtain ⟨rest, hrest⟩ := trimSegments_start parts
    rw [hrel] at h
    rw [← hrest, List.head?_append, h]
    rfl

theorem mem_of_mem_relativeSegments (h : name ∈ relativeSegments parts) : name ∈ parts := by
  rcases relativeSegments_cases parts with ⟨rest, rfl, -, hrel⟩ | hrel
  · rw [hrel] at h
    rw [List.mem_singleton.mp h]
    exact List.mem_cons_self
  · exact (trimSegments_start parts).mem (hrel ▸ h)

theorem isAbsolute_iff : isAbsolute path = true ↔ ∃ chars, path.toList = '/' :: chars := by
  have hslash : "/".toList = ['/'] := rfl
  unfold isAbsolute Text.startsWith
  rw [hslash]
  cases path.toList with
  | nil => simp
  | cons c chars =>
    simp only [List.isPrefixOf, Bool.and_true, beq_iff_eq, List.cons.injEq, exists_eq_right']
    exact eq_comm

theorem isAbsolute_append {more : String} (h : path ≠ "") :
    isAbsolute (path ++ more) = isAbsolute path := by
  obtain ⟨c, chars, hchars⟩ := List.exists_cons_of_ne_nil (mt String.toList_eq_nil_iff.mp h)
  rw [Bool.eq_iff_iff, isAbsolute_iff, isAbsolute_iff, String.toList_append, hchars]
  simp

theorem isAbsolute_of_not_mem (h : '/' ∉ name.toList) : isAbsolute name = false := by
  refine Bool.eq_false_iff.mpr fun habs => ?_
  obtain ⟨chars, hchars⟩ := isAbsolute_iff.mp habs
  rw [hchars] at h
  exact h List.mem_cons_self

theorem split_relative (hrel : isAbsolute path = false) (hne : path ≠ "") :
    ∃ first rest, first ≠ "" ∧ Text.split '/' path = first :: rest := by
  obtain ⟨c, chars, hchars⟩ := List.exists_cons_of_ne_nil (mt String.toList_eq_nil_iff.mp hne)
  have hc : c ≠ '/' := by
    rintro rfl
    rw [isAbsolute_iff.mpr ⟨chars, hchars⟩] at hrel
    cases hrel
  obtain ⟨piece, more, hp⟩ := List.exists_cons_of_ne_nil (Text.pieces_ne_nil '/' chars)
  refine ⟨String.ofList (c :: piece), more.map String.ofList, ?_, ?_⟩
  · intro hempty
    have hnil := congrArg String.toList hempty
    rw [String.toList_ofList] at hnil
    cases hnil
  · rw [Text.split, hchars, Text.pieces, if_neg hc, hp]
    rfl

theorem split_absolute (h : isAbsolute path = true) :
    ∃ rest, Text.split '/' path = "" :: rest := by
  obtain ⟨chars, hchars⟩ := isAbsolute_iff.mp h
  refine ⟨(Text.pieces '/' chars).map String.ofList, ?_⟩
  rw [Text.split, hchars, Text.pieces, if_pos rfl]
  rfl

theorem named_split_join (h : ∀ segment ∈ parts, '/' ∉ segment.toList) :
    named (Text.split '/' (Text.join "/" parts)) = named parts := by
  cases parts with
  | nil => rfl
  | cons segment rest => exact congrArg named (Text.split_join_names (List.cons_ne_nil _ _) h)

theorem components_absolute_join (h : ∀ segment ∈ parts, '/' ∉ segment.toList) :
    components ("/" ++ Text.join "/" parts) = "/" :: named parts := by
  have habs : isAbsolute ("/" ++ Text.join "/" parts) = true := by
    rw [isAbsolute_append (by decide)]
    rfl
  have hsplit := Text.split_join '/' "" (Text.join "/" parts)
  have htext : "" ++ String.singleton '/' ++ Text.join "/" parts =
      "/" ++ Text.join "/" parts := by
    rw [String.empty_append]
    rfl
  rw [htext] at hsplit
  rw [components_eq, habs, if_pos rfl, hsplit, named_append, named_split_join h]
  rfl

theorem components_relative_join (h : ∀ segment ∈ parts, '/' ∉ segment.toList)
    (hfirst : ∀ rest, parts ≠ "" :: rest) :
    components (Text.join "/" parts) = named parts := by
  have hrel : isAbsolute (Text.join "/" parts) = false := by
    cases parts with
    | nil => rfl
    | cons segment rest =>
      have hsegment := isAbsolute_of_not_mem (h segment List.mem_cons_self)
      cases rest with
      | nil => exact hsegment
      | cons next rest =>
        have hne : segment ≠ "" := fun heq => hfirst _ (by rw [heq])
        rw [Text.join, String.append_assoc, isAbsolute_append hne]
        exact hsegment
  rw [components_eq, hrel, if_neg Bool.false_ne_true, named_split_join h]

theorem split_child {directory : String} (h : IsName name) :
    ∃ front, Text.split '/' (child directory name) = front ++ [name] ∧
      named front = named (Text.split '/' directory) := by
  have hname := Text.split_of_not_mem h.2.2.2
  have hrel : Text.startsWith name "/" = false := isAbsolute_of_not_mem h.2.2.2
  unfold child
  rw [if_neg (by simp [hrel])]
  by_cases hempty : directory = ""
  · rw [if_pos (.inl hempty), hempty, String.empty_append, hname]
    exact ⟨[], rfl, rfl⟩
  · by_cases hend : Text.endsWith directory "/" = true
    · rw [if_pos (.inr hend)]
      obtain ⟨cs, hcs⟩ := List.isSuffixOf_iff_suffix.mp hend
      have hdir : directory = String.ofList cs ++ String.singleton '/' := by
        apply String.toList_injective
        rw [String.toList_append, String.toList_ofList, ← hcs]
        rfl
      refine ⟨Text.split '/' (String.ofList cs), ?_, ?_⟩
      · rw [hdir, Text.split_join, hname]
      · have hsplit := Text.split_join '/' (String.ofList cs) ""
        rw [String.append_empty] at hsplit
        rw [hdir, hsplit, named_append]
        exact (List.append_nil _).symm
    · rw [if_neg (not_or.mpr ⟨hempty, hend⟩)]
      refine ⟨Text.split '/' directory, ?_, rfl⟩
      rw [← hname]
      exact Text.split_join '/' directory name

theorem isAbsolute_child {directory : String} (h : IsName name) :
    isAbsolute (child directory name) = isAbsolute directory := by
  have hrel : Text.startsWith name "/" = false := isAbsolute_of_not_mem h.2.2.2
  unfold child
  rw [if_neg (by simp [hrel])]
  by_cases hempty : directory = ""
  · rw [if_pos (.inl hempty), hempty, String.empty_append]
    exact hrel
  · split
    · exact isAbsolute_append hempty
    · rw [String.append_assoc, isAbsolute_append hempty]

theorem exists_child_eq_append (h : IsName name) (directory : String) :
    ∃ more, child directory name = directory ++ more := by
  have hrel : Text.startsWith name "/" = false := isAbsolute_of_not_mem h.2.2.2
  unfold child
  rw [if_neg (by simp [hrel])]
  split
  · exact ⟨name, rfl⟩
  · exact ⟨"/" ++ name, String.append_assoc ..⟩

theorem components_child {directory : String} (h : IsName name) :
    components (child directory name) = components directory ++ [name] := by
  obtain ⟨front, hsplit, hfront⟩ := split_child h
  rw [components_eq, components_eq, isAbsolute_child h, hsplit, named_append, hfront,
    named_singleton h]
  split <;> rfl

theorem segments_absolute (h : isAbsolute path = true) :
    ∃ rest, Text.split '/' path = "" :: rest ∧ segments path = trimSegments rest := by
  obtain ⟨rest, hsplit⟩ := split_absolute h
  refine ⟨rest, hsplit, ?_⟩
  unfold segments
  rw [hsplit]
  split
  · next heq => rw [(List.cons.inj heq).2]
  · next hnot => exact absurd rfl (hnot rest)

theorem segments_relative (h : isAbsolute path = false) (hne : path ≠ "") :
    ∃ first rest, first ≠ "" ∧ Text.split '/' path = first :: rest ∧
      segments path = relativeSegments (first :: rest) := by
  obtain ⟨first, rest, hfirst, hsplit⟩ := split_relative h hne
  refine ⟨first, rest, hfirst, hsplit, ?_⟩
  unfold segments
  rw [hsplit]
  split
  · next heq => exact absurd (List.cons.inj heq).1 hfirst
  · rfl

theorem slash_not_mem_of_mem_segments (h : name ∈ segments path) : '/' ∉ name.toList := by
  apply Text.not_mem_of_mem_split (a := path)
  unfold segments at h
  split at h
  · next rest hsplit =>
    rw [hsplit]
    exact List.mem_cons_of_mem _ ((trimSegments_start rest).mem h)
  · exact mem_of_mem_relativeSegments h

theorem fileName?_eq_some : fileName? path = some name ↔
    (segments path).getLast? = some name ∧ name ≠ "." ∧ name ≠ ".." := by
  unfold fileName?
  cases (segments path).getLast? with
  | none => simp
  | some last =>
    simp only [Option.ite_none_left_eq_some, not_or, Option.some.injEq]
    constructor
    · rintro ⟨hdots, rfl⟩
      exact ⟨rfl, hdots⟩
    · rintro ⟨rfl, hdots⟩
      exact ⟨hdots, rfl⟩

theorem isName_of_fileName? (h : fileName? path = some name) : IsName name := by
  obtain ⟨hlast, hdot, hdots⟩ := fileName?_eq_some.mp h
  have hslash := slash_not_mem_of_mem_segments (List.mem_of_getLast? hlast)
  refine ⟨?_, hdot, hdots, hslash⟩
  rintro rfl
  have hcomponent : isComponent "" = true := by
    unfold segments at hlast
    split at hlast
    · exact isComponent_of_getLast? hlast
    · unfold relativeSegments at hlast
      split at hlast
      · exact absurd (Option.some.inj hlast) (by decide)
      · exact isComponent_of_getLast? hlast
  exact absurd hcomponent (by decide)

theorem components_of_fileName? (h : fileName? path = some name) :
    components path = components ((parent? path).getD "") ++ [name] := by
  have hname := isName_of_fileName? h
  obtain ⟨front, hfront⟩ := List.getLast?_eq_some_iff.mp (fileName?_eq_some.mp h).1
  have hslash : ∀ part ∈ front, '/' ∉ part.toList := by
    intro part hpart
    apply slash_not_mem_of_mem_segments
    rw [hfront]
    exact List.mem_append_left _ hpart
  have hdrop : (segments path).dropLast = front := by rw [hfront, List.dropLast_concat]
  have hparent : parent? path =
      if isAbsolute path then some ("/" ++ Text.join "/" (trimSegments front))
      else some (Text.join "/" (relativeSegments front)) := by
    unfold parent?
    rw [← hdrop]
    split
    · next hnil => exact absurd (hfront.symm.trans hnil) (by simp)
    · rfl
  have hlast : named (segments path) = named front ++ [name] := by
    rw [hfront, named_append, named_singleton hname]
  cases habs : isAbsolute path with
  | true =>
    obtain ⟨rest, hsplit, hsegments⟩ := segments_absolute habs
    have hcomponents : components path = "/" :: named (segments path) := by
      rw [components_eq, habs, if_pos rfl, hsplit, hsegments, named_trimSegments]
      rfl
    have htrim : ∀ part ∈ trimSegments front, '/' ∉ part.toList := fun part hpart =>
      hslash part ((trimSegments_start front).mem hpart)
    rw [hparent, habs, if_pos rfl, Option.getD_some, components_absolute_join htrim,
      named_trimSegments, hcomponents, hlast]
    rfl
  | false =>
    have hne : path ≠ "" := by
      rintro rfl
      cases hfront.symm.trans (show segments "" = [] by decide) |> List.append_eq_nil_iff.mp |>.2
    obtain ⟨first, rest, hfirst, hsplit, hsegments⟩ := segments_relative habs hne
    have hcomponents : components path = named (segments path) := by
      rw [components_eq, habs, if_neg Bool.false_ne_true, hsplit, hsegments,
        named_relativeSegments]
    have hrelative : ∀ part ∈ relativeSegments front, '/' ∉ part.toList := fun part hpart =>
      hslash part (mem_of_mem_relativeSegments hpart)
    have hstart : ∀ more, relativeSegments front ≠ "" :: more := by
      intro more hmore
      -- the first segment of the directory is the first of the whole path
      have hhead : front.head? = some "" := head?_of_relativeSegments (by rw [hmore]; rfl)
      have hsame : (first :: rest).head? = some "" := by
        apply head?_of_relativeSegments
        rw [← hsegments, hfront, List.head?_append, hhead]
        rfl
      exact hfirst (Option.some.inj hsame)
    rw [hparent, habs, if_neg Bool.false_ne_true, Option.getD_some,
      components_relative_join hrelative hstart, named_relativeSegments, hcomponents, hlast]

theorem fileName?_of_getLast? (h : (Text.split '/' path).getLast? = some name)
    (hname : IsName name) : fileName? path = some name := by
  refine fileName?_eq_some.mpr ⟨?_, hname.2.1, hname.2.2.1⟩
  cases habs : isAbsolute path with
  | true =>
    obtain ⟨rest, hsplit, hsegments⟩ := segments_absolute habs
    rw [hsplit, List.getLast?_cons] at h
    have hlast : rest.getLast? = some name := by
      cases hrest : rest.getLast? with
      | none =>
        rw [hrest] at h
        exact absurd (Option.some.inj h).symm hname.1
      | some last => rwa [hrest] at h
    rw [hsegments, trimSegments_eq (List.getLast?_eq_some_iff.mp hlast) hname]
    exact hlast
  | false =>
    have hne : path ≠ "" := by
      rintro rfl
      exact hname.1 (Option.some.inj h).symm
    obtain ⟨first, rest, -, hsplit, hsegments⟩ := segments_relative habs hne
    rw [hsplit] at h
    have htrim := trimSegments_eq (List.getLast?_eq_some_iff.mp h) hname
    rcases relativeSegments_cases (first :: rest) with ⟨-, -, hnil, -⟩ | hrel
    · exact absurd (htrim.symm.trans hnil) (List.cons_ne_nil first rest)
    · rw [hsegments, hrel, htrim]
      exact h

/-- What is added to a name: four characters, like `.tmp`, and no slash among them. -/
def IsEnding (ending : String) : Prop := ending.toList.length = 4 ∧ '/' ∉ ending.toList

variable {other ending different : String}

theorem IsEnding.isName_append (h : IsEnding ending) (hname : '/' ∉ name.toList) :
    IsName (name ++ ending) := by
  have hlength : ∀ short : String, short.toList.length < 4 → name ++ ending ≠ short := by
    rintro short hshort rfl
    rw [String.toList_append, List.length_append, h.1] at hshort
    omega
  refine ⟨hlength _ (by decide), hlength _ (by decide), hlength _ (by decide), ?_⟩
  rw [String.toList_append, List.mem_append]
  exact not_or.mpr ⟨hname, h.2⟩

theorem IsEnding.isName (h : IsEnding ending) : IsName ending := by
  have hempty := h.isName_append (show '/' ∉ "".toList by decide)
  rwa [String.empty_append] at hempty

theorem components_sibling_of_name (h : fileName? path = some name) (he : IsEnding ending) :
    components (sibling path ending) =
      components ((parent? path).getD "") ++ [name ++ ending] := by
  rw [sibling, withFileName, h]
  exact components_child (he.isName_append (isName_of_fileName? h).2.2.2)

theorem components_sibling_of_none (h : fileName? path = none) (he : IsEnding ending) :
    components (sibling path ending) = components path ++ [ending] := by
  rw [sibling, withFileName, h]
  rw [Option.getD_none, String.empty_append]
  exact components_child he.isName

theorem components_sibling_inj (he : IsEnding ending) (hd : IsEnding different)
    (h : components (sibling path ending) = components (sibling other different)) :
    components path = components other ∧ ending = different := by
  have hlen : ending.toList.length = different.toList.length := he.1.trans hd.1.symm
  -- an ending that is added to a name makes a longer one than the ending alone
  have hlonger : ∀ {name e : String}, name ≠ "" →
      e.toList.length < (name ++ e).toList.length := by
    intro name e hname
    have hpos : 0 < name.toList.length :=
      List.length_pos_iff.mpr fun hnil => hname (String.toList_eq_nil_iff.mp hnil)
    rw [String.toList_append, List.length_append]
    omega
  cases hp : fileName? path with
  | none =>
    rw [components_sibling_of_none hp he] at h
    cases ho : fileName? other with
    | none =>
      rw [components_sibling_of_none ho hd] at h
      obtain ⟨hfront, hlast⟩ := List.append_inj' h rfl
      exact ⟨hfront, (List.cons.inj hlast).1⟩
    | some name =>
      rw [components_sibling_of_name ho hd] at h
      obtain ⟨-, hlast⟩ := List.append_inj' h rfl
      have := hlonger (e := different) (isName_of_fileName? ho).1
      rw [← (List.cons.inj hlast).1, hlen] at this
      exact absurd this (Nat.lt_irrefl _)
  | some name =>
    rw [components_sibling_of_name hp he] at h
    cases ho : fileName? other with
    | none =>
      rw [components_sibling_of_none ho hd] at h
      obtain ⟨-, hlast⟩ := List.append_inj' h rfl
      have := hlonger (e := ending) (isName_of_fileName? hp).1
      rw [(List.cons.inj hlast).1, hlen] at this
      exact absurd this (Nat.lt_irrefl _)
    | some next =>
      rw [components_sibling_of_name ho hd] at h
      obtain ⟨hfront, hlast⟩ := List.append_inj' h rfl
      have htext := congrArg String.toList (List.cons.inj hlast).1
      rw [String.toList_append, String.toList_append] at htext
      obtain ⟨hname, hending⟩ := List.append_inj' htext hlen
      rw [components_of_fileName? hp, components_of_fileName? ho, hfront,
        String.toList_injective hname]
      exact ⟨rfl, String.toList_injective hending⟩

end RadioDriver.Path
