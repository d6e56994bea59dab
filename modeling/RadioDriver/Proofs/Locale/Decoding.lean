import RadioDriver.Proofs.Json.Distinct
import RadioDriver.Proofs.Locale.Unmarked

namespace RadioDriver

namespace LocaleTable

open RadioDriver.Locale (LeadsTo isMarked)

/-- No other names lead to a leaf with the dotted path of these. -/
def Unshared (fields : Fields Json) (names : List String) : Prop :=
  ∀ other s, LeadsTo (.object fields) other s → Text.join "." other = Text.join "." names →
    other = names

variable {language path text s : String} {fields : Fields Json} {names : List String}
  {t : LocaleTable}

theorem leadsTo_iff_of_distinct (h : (Json.object fields).distinct = true) :
    LeadsTo (.object fields) names s ↔ Locale.textAt fields names = some s := by
  rw [Locale.textAt_iff_nodeAt]
  refine ⟨fun hleads => ?_, Locale.leadsTo_of_nodeAt⟩
  exact hleads.nodeAt (P := fun v => v.distinct = true) (fun _ => Json.distinct_object.mp) h

theorem text?_ofTree (h : ofTree language (.object fields) = .ok t) (path : String) :
    t.text? path = (Locale.textAt fields (segments path)).map (Text.trimEnd fillMark) := by
  cases h
  exact Locale.textAt_cleanedFields fields _

theorem mem_leaves_ofTree (h : ofTree language (.object fields) = .ok t) :
    (path, text) ∈ t.leaves ↔ ∃ names s, LeadsTo (.object fields) names s ∧
      path = Text.join "." names ∧ text = Text.trimEnd fillMark s := by
  cases h
  rw [leaves, Locale.leavesOf_cleanedFields, List.mem_map]
  constructor
  · rintro ⟨⟨place, s⟩, hleaf, heq⟩
    obtain ⟨names, rfl, hleads⟩ := Locale.mem_leavesOf_joined.mp hleaf
    cases heq
    exact ⟨names, s, hleads, rfl, rfl⟩
  · rintro ⟨names, s, hleads, rfl, rfl⟩
    exact ⟨(_, s), Locale.mem_leavesOf_joined.mpr ⟨names, rfl, hleads⟩, rfl⟩

theorem isFallback_ofTree (h : ofTree language (.object fields) = .ok t) :
    t.isFallback path = true ↔ ∃ names s, LeadsTo (.object fields) names s ∧
      Text.join "." names = path ∧ isMarked s = true := by
  cases h
  have hmem : (insertAll (markedLeaves fields) []).contains path = true ↔
      path ∈ markedLeaves fields := by
    rw [List.contains_iff_mem, mem_insertAll]
    simp
  rw [isFallback, hmem, Locale.markedLeaves_eq, List.mem_map]
  constructor
  · rintro ⟨⟨place, s⟩, hleaf, rfl⟩
    obtain ⟨hleaf, hmark⟩ := List.mem_filter.mp hleaf
    obtain ⟨names, rfl, hleads⟩ := Locale.mem_leavesOf_joined.mp hleaf
    exact ⟨names, s, hleads, rfl, hmark⟩
  · rintro ⟨names, s, hleads, rfl, hmark⟩
    have hleaf := Locale.mem_leavesOf_joined.mpr ⟨names, rfl, hleads⟩
    exact ⟨(_, s), List.mem_filter.mpr ⟨hleaf, hmark⟩, rfl⟩

section
variable (htree : ofTree language (.object fields) = .ok t)
  (hfound : ∀ {names s}, LeadsTo (.object fields) names s → Locale.textAt fields names = some s)
  (hleads : LeadsTo (.object fields) names s) (hdot : ∀ name ∈ names, '.' ∉ name.toList)
include htree hfound hleads hdot

/-- A leaf that the tree has once is found where no name on the way to it holds a dot. -/
theorem text?_joined : t.text? (Text.join "." names) = some (Text.trimEnd fillMark s) := by
  rw [text?_ofTree htree, hleads.segments_join hdot, hfound hleads]
  rfl

/-- If no other leaf has its path, a leaf is said to be filled in just when it is marked. -/
theorem Unshared.provenance?_joined (h : Unshared fields names) :
    t.provenance? (Text.join "." names) =
      some (if isMarked s then .fallback else .authored) := by
  have hfallback : t.isFallback (Text.join "." names) = isMarked s := by
    rw [Bool.eq_iff_iff, isFallback_ofTree htree]
    constructor
    · rintro ⟨other, marked, hother, hpath, hmark⟩
      obtain rfl := h other marked hother hpath
      have hsame : some marked = some s := (hfound hother).symm.trans (hfound hleads)
      cases hsame
      exact hmark
    · intro hmark
      exact ⟨names, s, hleads, rfl, hmark⟩
  rw [provenance?, text?_joined htree hfound hleads hdot, hfallback]
  rfl

end

theorem unshared_of_plain (h : Locale.plainFields fields = true)
    (hleads : LeadsTo (.object fields) names s) : Unshared fields names := by
  intro other marked hother hpath
  rw [← hother.segments_join (hother.dot_not_mem h), hpath,
    hleads.segments_join (hleads.dot_not_mem h)]

/-- Every leaf of a tree that is read is listed at its names joined by dots, and that path is filled
in just when such a leaf is marked. A text is looked up by the names that a path is cut into. So a
leaf is found if no name on the way to it holds a dot, and said to be filled in just when it is
marked, unless a name with a dot makes its path that of another leaf too. In a tree without such
names all leaves are listed, found and told apart. -/
theorem decoded_leaves (language : String) (fields : Fields Json)
    (hdistinct : (Json.object fields).distinct = true) :
    ∃ t, ofTree language (.object fields) = .ok t ∧
      (∀ path text, (path, text) ∈ t.leaves ↔ ∃ names s, LeadsTo (.object fields) names s ∧
        path = Text.join "." names ∧ text = Text.trimEnd fillMark s) ∧
      (∀ path, t.isFallback path = true ↔ ∃ names s, LeadsTo (.object fields) names s ∧
        Text.join "." names = path ∧ isMarked s = true) ∧
      (∀ path, t.text? path =
        (Locale.textAt fields (segments path)).map (Text.trimEnd fillMark)) ∧
      (∀ names s, LeadsTo (.object fields) names s → (∀ name ∈ names, '.' ∉ name.toList) →
        t.text? (Text.join "." names) = some (Text.trimEnd fillMark s) ∧
        (Unshared fields names → t.provenance? (Text.join "." names) =
          some (if isMarked s then .fallback else .authored))) ∧
      (Locale.plainFields fields = true → ∀ names s, LeadsTo (.object fields) names s →
        (∀ name ∈ names, '.' ∉ name.toList) ∧ Unshared fields names) := by
  obtain ⟨t, htree⟩ : ∃ t, ofTree language (.object fields) = .ok t := ⟨_, rfl⟩
  refine ⟨t, htree, fun path text => mem_leaves_ofTree htree, fun path => isFallback_ofTree htree,
    text?_ofTree htree, ?_, ?_⟩
  · intro names s hleads hdot
    have hfound : ∀ {names s}, LeadsTo (.object fields) names s →
        Locale.textAt fields names = some s := (leadsTo_iff_of_distinct hdistinct).mp
    exact ⟨text?_joined htree hfound hleads hdot,
      fun hunshared => hunshared.provenance?_joined htree hfound hleads hdot⟩
  · intro hplain names s hleads
    exact ⟨hleads.dot_not_mem hplain, unshared_of_plain hplain hleads⟩

def doneView : Fields Json :=
  [("views", .object [("done", .object [("title", .string "Done!\x00"),
    ("body", .string "Finished")])])]

/-- The title is filled in, and the body is not. -/
theorem doneView_decoded :
    (Json.object doneView).distinct = true ∧ ∃ t, ofTree "en" (.object doneView) = .ok t ∧
      t.provenance? "views.done.title" = some .fallback ∧
      t.provenance? "views.done.body" = some .authored := by
  have hdistinct : (Json.object doneView).distinct = true := by decide
  have hplain : Locale.plainFields doneView = true := by decide
  have hbelow : ("views", Json.object [("done", .object [("title", .string "Done!\x00"),
      ("body", .string "Finished")])]) ∈ doneView := List.mem_singleton_self _
  have htitle : LeadsTo (.object doneView) ["views", "done", "title"] "Done!\x00" :=
    .field hbelow (.field (List.mem_singleton_self _) (.field List.mem_cons_self (.here _)))
  have hbody : LeadsTo (.object doneView) ["views", "done", "body"] "Finished" :=
    .field hbelow (.field (List.mem_singleton_self _)
      (.field (List.mem_cons_of_mem _ (List.mem_singleton_self _)) (.here _)))
  obtain ⟨t, ht, -, -, -, hfound, hapart⟩ := decoded_leaves "en" doneView hdistinct
  obtain ⟨htitleDots, htitleAlone⟩ := hapart hplain _ _ htitle
  obtain ⟨hbodyDots, hbodyAlone⟩ := hapart hplain _ _ hbody
  exact ⟨hdistinct, t, ht, (hfound _ _ htitle htitleDots).2 htitleAlone,
    (hfound _ _ hbody hbodyDots).2 hbodyAlone⟩

def dottedTitle : Fields Json := [("pair.title", .string "Koppelen")]

/-- A filled in title behind a name with a dot, and an authored one at the place that its path is
cut into. -/
def sharedTitle : Fields Json :=
  [("pair.title", .string "Pair\x00"), ("pair", .object [("title", .string "Koppelen")])]

/-- An authored title that is listed cannot be found, and another that can be is taken for filled
in. -/
theorem dotted_titles_misread :
    (LeadsTo (.object dottedTitle) ["pair.title"] "Koppelen" ∧
      ∃ t, ofTree "en" (.object dottedTitle) = .ok t ∧ ("pair.title", "Koppelen") ∈ t.leaves ∧
        t.text? "pair.title" = none ∧ t.provenance? "pair.title" = none) ∧
    LeadsTo (.object sharedTitle) ["pair", "title"] "Koppelen" ∧ isMarked "Koppelen" = false ∧
      ∃ t, ofTree "en" (.object sharedTitle) = .ok t ∧ t.text? "pair.title" = some "Koppelen" ∧
        t.provenance? "pair.title" = some .fallback := by
  have hdotted : LeadsTo (.object dottedTitle) ["pair.title"] "Koppelen" :=
    .field (List.mem_singleton_self _) (.here _)
  have hplaced : LeadsTo (.object sharedTitle) ["pair", "title"] "Koppelen" :=
    .field (List.mem_cons_of_mem _ (List.mem_singleton_self _))
      (.field (List.mem_singleton_self _) (.here _))
  have hmarked : LeadsTo (.object sharedTitle) ["pair.title"] "Pair\x00" :=
    .field List.mem_cons_self (.here _)
  obtain ⟨t, ht⟩ : ∃ t, ofTree "en" (.object dottedTitle) = .ok t := ⟨_, rfl⟩
  obtain ⟨u, hu⟩ : ∃ u, ofTree "en" (.object sharedTitle) = .ok u := ⟨_, rfl⟩
  have hnone : t.text? "pair.title" = none := by
    rw [text?_ofTree ht]
    decide
  have hsome : u.text? "pair.title" = some "Koppelen" := by
    rw [text?_ofTree hu]
    decide
  have hfallback : u.isFallback "pair.title" = true :=
    (isFallback_ofTree hu).mpr ⟨_, _, hmarked, rfl, by decide⟩
  refine ⟨⟨hdotted, t, ht, ?_, hnone, ?_⟩, hplaced, by decide, u, hu, hsome, ?_⟩
  · exact (mem_leaves_ofTree ht).mpr ⟨_, _, hdotted, rfl, by decide⟩
  · rw [provenance?, hnone]
    rfl
  · rw [provenance?, hsome, hfallback]
    rfl

end LocaleTable

end RadioDriver
