import RadioDriver.Proofs.Locale.Decoding
import RadioDriver.Proofs.Locale.InPlace

namespace RadioDriver

namespace LocaleTable

open RadioDriver.Locale (LeadsTo isMarked)

/-- An unmarked leaf of the tree has this text at the path. -/
def Brings (tree : Json) (path text : String) : Prop :=
  ∃ names, LeadsTo tree names text ∧ isMarked text = false ∧ Text.join "." names = path

/-- Nothing stands in the way of the texts that are brought. -/
def Admits (t : LocaleTable) (brings : String → String → Prop) : Prop :=
  ∀ path text, brings path text → ¬ t.Obstructed path

/-- The texts that are brought are in the table as authored ones, and all others as they were. -/
structure Takes (t : LocaleTable) (brings : String → String → Prop) (t' : LocaleTable) : Prop where
  brought : ∀ path text, brings path text →
    t'.text? path = some text ∧ t'.provenance? path = some .authored
  kept : ∀ path, (∀ text, ¬ brings path text) →
    t'.text? path = t.text? path ∧ t'.provenance? path = t.provenance? path

variable {t t₁ t' source : LocaleTable} {path text language : String} {fields : Fields Json}
  {brings : String → String → Prop}

theorem not_apart_self (path : String) : ¬ Apart path path := fun h => h.1 List.prefix_rfl

theorem not_obstructed_empty (path : String) : ¬ Obstructed {} path := by
  rintro (⟨children, hchildren⟩ | ⟨above, v, -, -, hv, -⟩)
  · exact nomatch (Locale.valueAt_empty _).symm.trans hchildren
  · exact nomatch (Locale.valueAt_empty _).symm.trans hv

theorem Takes.after_set (hset : t.set path (.string text) .authored = .ok t₁)
    (happart : ∀ other s, brings other s → Apart path other) (h : t₁.Takes brings t') :
    t.Takes (fun other s => (other, s) = (path, text) ∨ brings other s) t' where
  brought := by
    rintro other s (heq | hbrings)
    · cases heq
      have hplaced := placed_of_set hset rfl
      obtain ⟨htext, hprovenance⟩ := h.kept path fun s hs => not_apart_self path (happart path s hs)
      rw [htext, hprovenance, text?, hplaced.there]
      exact ⟨rfl, hplaced.marked text rfl⟩
    · exact h.brought other s hbrings
  kept := by
    intro other hnone
    have hne : other ≠ path := by
      rintro rfl
      exact hnone text (.inl rfl)
    obtain ⟨htext, hprovenance⟩ := h.kept other fun s hs => hnone s (.inr hs)
    rw [htext, hprovenance]
    exact ⟨text?_set_of_ne hset rfl hne, provenance?_set_of_ne hset rfl hne⟩

theorem admits_after_set (hset : t.set path (.string text) .authored = .ok t₁)
    (happart : ∀ other s, brings other s → Apart path other) :
    t₁.Admits brings ↔ t.Admits fun other s => (other, s) = (path, text) ∨ brings other s := by
  constructor
  · rintro h other s (heq | hbrings)
    · cases heq
      exact not_obstructed_of_set hset
    · exact fun hobstructed => h other s hbrings
        ((obstructed_set_apart hset (happart other s hbrings)).mpr hobstructed)
  · intro h other s hbrings hobstructed
    exact h other s (.inr hbrings)
      ((obstructed_set_apart hset (happart other s hbrings)).mp hobstructed)

/-- The leaves of a table lie apart, so that none gets in the way of another when they are set one
at a time. -/
theorem leaves_apart (h : Locale.plainFields t.tree = true) :
    t.leaves.Pairwise fun a b => Apart a.1 b.1 := by
  have hnodup : t.leaves.Pairwise fun a b => a.1 ≠ b.1 :=
    List.pairwise_map.mp (Locale.leavesOf_spread h).1
  refine hnodup.imp_of_mem ?_
  rintro ⟨path, s⟩ ⟨other, s'⟩ hleaf hother hne
  have htext : (t.text? path).isSome := Option.isSome_of_eq_some ((mem_leaves h).mp hleaf)
  have htext' : (t.text? other).isSome := Option.isSome_of_eq_some ((mem_leaves h).mp hother)
  exact ⟨not_prefix_of_text? htext htext' hne, not_prefix_of_text? htext' htext hne.symm⟩

theorem provenance?_of_plain (htree : ofTree language (.object fields) = .ok source)
    (hplain : Locale.plainFields fields = true) {names : List String} {s : String}
    (hleads : LeadsTo (.object fields) names s) :
    source.provenance? (Text.join "." names) =
      some (if isMarked s then .fallback else .authored) :=
  (unshared_of_plain hplain hleads).provenance?_joined htree (Locale.leadsTo_iff_textAt hplain).mp
    hleads (hleads.dot_not_mem hplain)

theorem authored_leaf_iff (htree : ofTree language (.object fields) = .ok source)
    (hplain : Locale.plainFields fields = true) :
    (path, text) ∈ source.leaves ∧ source.provenance? path = some .authored ↔
      Brings (.object fields) path text := by
  rw [mem_leaves_ofTree htree]
  constructor
  · rintro ⟨⟨names, s, hleads, rfl, rfl⟩, hauthored⟩
    rw [provenance?_of_plain htree hplain hleads] at hauthored
    cases hmark : isMarked s with
    | true =>
      rw [hmark] at hauthored
      cases hauthored
    | false =>
      rw [Locale.trimEnd_of_not_marked hmark]
      exact ⟨names, hleads, hmark, rfl⟩
  · rintro ⟨names, hleads, hmark, rfl⟩
    refine ⟨⟨names, text, hleads, rfl, (Locale.trimEnd_of_not_marked hmark).symm⟩, ?_⟩
    rw [provenance?_of_plain htree hplain hleads, hmark]
    rfl

end LocaleTable

namespace Catalog

open LocaleTable

variable {source : LocaleTable} {leaves : List (String × String)} {language : String}
  {fields languages : Fields Json} {c : Catalog}

/-- The text is one of the leaves, and the source holds it as authored. -/
def Sets (source : LocaleTable) (leaves : List (String × String)) (path text : String) : Prop :=
  (path, text) ∈ leaves ∧ source.provenance? path = some .authored

theorem sets_cons_of_authored {path : String} (text : String)
    (h : source.provenance? path = some .authored) :
    Sets source ((path, text) :: leaves) =
      fun other s => (other, s) = (path, text) ∨ Sets source leaves other s := by
  funext other s
  rw [Sets, List.mem_cons, or_and_right, eq_iff_iff]
  refine or_congr_left (and_iff_left_of_imp fun heq => ?_)
  cases heq
  exact h

theorem sets_cons_of_not_authored {path : String} (text : String)
    (h : ¬ source.provenance? path = some .authored) :
    Sets source ((path, text) :: leaves) = Sets source leaves := by
  funext other s
  rw [Sets, List.mem_cons, or_and_right, eq_iff_iff]
  refine or_iff_right fun hhere => h ?_
  cases hhere.1
  exact hhere.2

/-- Leaves that lie apart are all set, unless something stands in the way of one in the first
place. -/
theorem addAuthored_of_apart (source : LocaleTable)
    (happart : leaves.Pairwise fun a b => Apart a.1 b.1) (t : LocaleTable) :
    ((addAuthored source leaves t).1 = .ok () ↔ t.Admits (Sets source leaves)) ∧
    ((addAuthored source leaves t).1 = .ok () →
      t.Takes (Sets source leaves) (addAuthored source leaves t).2) := by
  induction leaves generalizing t with
  | nil =>
    have hnone : ∀ path text, ¬ Sets source [] path text := fun _ _ h => List.not_mem_nil h.1
    refine ⟨iff_of_true rfl fun path text h => absurd h (hnone path text), fun _ => ?_⟩
    exact ⟨fun path text h => absurd h (hnone path text), fun _ _ => ⟨rfl, rfl⟩⟩
  | cons leaf rest ih =>
    obtain ⟨path, text⟩ := leaf
    obtain ⟨hhere, hrest⟩ := List.pairwise_cons.mp happart
    rw [addAuthored]
    split
    · next hauthored =>
      rw [sets_cons_of_authored text hauthored]
      split
      · next t₁ hset =>
        have haparts : ∀ other s, Sets source rest other s → Apart path other :=
          fun other s h => hhere (other, s) h.1
        obtain ⟨hok, htakes⟩ := ih hrest t₁
        exact ⟨hok.trans (admits_after_set hset haparts), fun h =>
          (htakes h).after_set hset haparts⟩
      · next e hset =>
        refine ⟨iff_of_false (fun h => by cases h) fun hadmits => ?_, fun h => by cases h⟩
        obtain ⟨t₁, hok⟩ := exists_set (hadmits path text (.inl rfl)) (.string text) .authored
        rw [hset] at hok
        cases hok
    · next hnot =>
      rw [sets_cons_of_not_authored text hnot]
      exact ih hrest t

/-- A tree whose names have no dots is merged into a table as a whole, whatever the order of its
leaves. -/
theorem addAuthored_tree (htree : ofTree language (.object fields) = .ok source)
    (hplain : Locale.plainFields fields = true) (t : LocaleTable) :
    ((addAuthored source source.leaves t).1 = .ok () ↔ t.Admits (Brings (.object fields))) ∧
    ((addAuthored source source.leaves t).1 = .ok () →
      t.Takes (Brings (.object fields)) (addAuthored source source.leaves t).2) := by
  have hbrings : Brings (.object fields) = Sets source source.leaves := by
    funext path text
    exact propext (authored_leaf_iff htree hplain).symm
  have hsource : Locale.plainFields source.tree = true := by
    cases htree
    exact (Locale.plainFields_cleanedFields fields).trans hplain
  rw [hbrings]
  exact addAuthored_of_apart source (leaves_apart hsource) t

theorem get?_insert_self (c : Catalog) (language : String) (t : LocaleTable) :
    (c.insert language t).get? language = some t := get?_insertTable_self c.tables

theorem get?_insert_of_ne (c : Catalog) (t : LocaleTable) {other : String} (h : other ≠ language) :
    (c.insert language t).get? other = c.get? other := get?_insertTable_of_ne c.tables h

theorem get?_extendLanguages_of_not_mem (c : Catalog) {other : String}
    (h : other ∉ Fields.names languages) :
    (extendLanguages languages c).2.get? other = c.get? other := by
  induction languages generalizing c with
  | nil => rfl
  | cons entry rest ih =>
    obtain ⟨language, tree⟩ := entry
    obtain ⟨hne, hrest⟩ := not_or.mp fun hmem => h (List.mem_cons.mpr hmem)
    rw [extendLanguages]
    split
    · rfl
    · split
      · rw [ih _ hrest, get?_insert_of_ne _ _ hne]
      · rw [get?_insert_of_ne _ _ hne]

theorem extendLanguages_of_plain (hnodup : (Fields.names languages).Nodup)
    (hplain : ∀ entry ∈ languages, Locale.plain entry.2 = true) (c : Catalog) :
    ((extendLanguages languages c).1 = .ok () ↔ ∀ entry ∈ languages,
      entry.2.isObject = true ∧ ((c.get? entry.1).getD {}).Admits (Brings entry.2)) ∧
    ((extendLanguages languages c).1 = .ok () → ∀ entry ∈ languages,
      ∃ t, (extendLanguages languages c).2.get? entry.1 = some t ∧
        ((c.get? entry.1).getD {}).Takes (Brings entry.2) t) := by
  induction languages generalizing c with
  | nil => exact ⟨iff_of_true rfl (List.forall_mem_nil _), fun _ => List.forall_mem_nil _⟩
  | cons entry rest ih =>
    obtain ⟨language, tree⟩ := entry
    obtain ⟨hnew, hdistinct⟩ := List.nodup_cons.mp hnodup
    obtain ⟨htreePlain, hrestPlain⟩ := List.forall_mem_cons.mp hplain
    -- the other languages find their tables as they were
    have hothers : ∀ t, ∀ entry ∈ rest, (c.insert language t).get? entry.1 = c.get? entry.1 := by
      intro t entry hentry
      apply get?_insert_of_ne
      intro heq
      exact hnew (List.mem_map.mpr ⟨entry, hentry, heq⟩)
    rw [List.forall_mem_cons, List.forall_mem_cons, extendLanguages]
    split
    · next e htree =>
      have hnot : tree.isObject = false := by
        cases tree with
        | object fields => cases htree
        | _ => rfl
      refine ⟨iff_of_false (fun h => by cases h) fun h => ?_, fun h => by cases h⟩
      rw [hnot] at h
      cases h.1.1
    · next source htree =>
      cases tree with
      | object fields =>
        obtain ⟨hok, htakes⟩ := addAuthored_tree htree htreePlain ((c.get? language).getD {})
        split
        · next t hadd =>
          rw [hadd] at hok htakes
          obtain ⟨hrestOk, hrestTakes⟩ := ih hdistinct hrestPlain (c.insert language t)
          have hsame : (∀ entry ∈ rest, entry.2.isObject = true ∧
              (((c.insert language t).get? entry.1).getD {}).Admits (Brings entry.2)) ↔
                ∀ entry ∈ rest, entry.2.isObject = true ∧
                  ((c.get? entry.1).getD {}).Admits (Brings entry.2) :=
            forall₂_congr fun entry hentry => by rw [hothers t entry hentry]
          constructor
          · rw [hrestOk, hsame]
            exact (and_iff_right ⟨rfl, hok.mp rfl⟩).symm
          · intro hdone
            refine ⟨⟨t, ?_, htakes rfl⟩, fun entry hentry => ?_⟩
            · rw [get?_extendLanguages_of_not_mem _ hnew, get?_insert_self]
            · obtain ⟨t', ht', hentryTakes⟩ := hrestTakes hdone entry hentry
              rw [hothers t entry hentry] at hentryTakes
              exact ⟨t', ht', hentryTakes⟩
        · next e t hadd =>
          rw [hadd] at hok
          refine ⟨iff_of_false (fun h => by cases h) fun h => ?_, fun h => by cases h⟩
          cases hok.mpr h.1.2
      | _ => cases htree

/-- Trees by language whose names have no dots are merged just when each is an object and nothing in
the table of its language stands in the way of its unmarked leaves. These are authored texts then,
also where a text was filled in before. Every other text, also where a leaf is marked or is no text,
stays as it was with its provenance. A language that is new gets a table, and one that is not among
the trees keeps its own. -/
theorem extendAuthored_merges (c : Catalog) (languages : Fields Json)
    (hnodup : (Fields.names languages).Nodup)
    (hplain : ∀ entry ∈ languages, Locale.plain entry.2 = true) :
    ((c.extendAuthored (.object languages)).1 = .ok () ↔
      ∀ language tree, (language, tree) ∈ languages →
        tree.isObject = true ∧ ∀ t, c.get? language = some t → t.Admits (Brings tree)) ∧
    ((c.extendAuthored (.object languages)).1 = .ok () →
      (∀ language tree, (language, tree) ∈ languages →
        ∃ t, (c.extendAuthored (.object languages)).2.get? language = some t ∧
          ((c.get? language).getD {}).Takes (Brings tree) t) ∧
      ∀ language, language ∉ Fields.names languages →
        (c.extendAuthored (.object languages)).2.get? language = c.get? language) := by
  have hmerged : c.extendAuthored (.object languages) = extendLanguages languages c := rfl
  obtain ⟨hok, htakes⟩ := extendLanguages_of_plain hnodup hplain c
  rw [hmerged]
  refine ⟨hok.trans ?_, fun hdone => ⟨?_, ?_⟩⟩
  · constructor
    · intro h language tree hentry
      obtain ⟨hobject, hadmits⟩ := h _ hentry
      refine ⟨hobject, fun t ht => ?_⟩
      rw [ht] at hadmits
      exact hadmits
    · rintro h ⟨language, tree⟩ hentry
      obtain ⟨hobject, hadmits⟩ := h language tree hentry
      refine ⟨hobject, ?_⟩
      cases ht : c.get? language with
      | none => exact fun path _ _ => not_obstructed_empty path
      | some t => exact hadmits t ht
  · exact fun language tree hentry => htakes hdone _ hentry
  · exact fun language hnot => get?_extendLanguages_of_not_mem c hnot

def filledTable : LocaleTable := ⟨[("done", .object [("title", .string "Done!")])], ["done.title"]⟩

def filledCatalog : Catalog := empty.insert "en" filledTable

def englishTexts : Json :=
  .object [("done", .object [("title", .string "Finished"), ("body", .string "Auto\x00")])]

def dutchTexts : Json := .object [("done", .object [("title", .string "Klaar!")])]

theorem admits_englishTexts : filledTable.Admits (Brings englishTexts) := by
  have hpath : Text.join "." ["done", "title"] = "done.title" := by cbv
  rintro path text ⟨names, hleads, hmark, rfl⟩
  obtain ⟨⟩ | ⟨hdone, hleads⟩ := hleads
  cases List.mem_singleton.mp hdone
  obtain ⟨⟩ | ⟨hleaf, hleads⟩ := hleads
  rcases List.mem_cons.mp hleaf with htitle | hbody
  · cases htitle
    cases hleads
    apply not_obstructed_of_text?
    rw [hpath]
    decide
  · cases List.mem_singleton.mp hbody
    cases hleads
    exact absurd hmark (by decide)

/-- The title that was filled in is replaced by the authored one, and the Dutch one comes with a
table of its own. -/
theorem englishTexts_merged :
    (Fields.names [("en", englishTexts), ("nl", dutchTexts)]).Nodup ∧
      (∀ entry ∈ [("en", englishTexts), ("nl", dutchTexts)], Locale.plain entry.2 = true) ∧
      ∃ en nl,
        (filledCatalog.extendAuthored
          (.object [("en", englishTexts), ("nl", dutchTexts)])).2.get? "en" =
          some en ∧
        (filledCatalog.extendAuthored
          (.object [("en", englishTexts), ("nl", dutchTexts)])).2.get? "nl" =
          some nl ∧
        en.text? "done.title" = some "Finished" ∧ en.provenance? "done.title" = some .authored ∧
        nl.text? "done.title" = some "Klaar!" := by
  have hnodup : (Fields.names [("en", englishTexts), ("nl", dutchTexts)]).Nodup := by decide
  have hplain : ∀ entry ∈ [("en", englishTexts), ("nl", dutchTexts)],
      Locale.plain entry.2 = true := by decide
  have hen : filledCatalog.get? "en" = some filledTable := by cbv
  have hnl : filledCatalog.get? "nl" = none := by cbv
  obtain ⟨hok, hmerge⟩ := extendAuthored_merges filledCatalog _ hnodup hplain
  obtain ⟨htakes, -⟩ := hmerge <| hok.mpr <| by
    intro language tree hentry
    rcases List.mem_cons.mp hentry with heq | hentry
    · cases heq
      refine ⟨rfl, fun t ht => ?_⟩
      rw [hen] at ht
      cases ht
      exact admits_englishTexts
    · cases List.mem_singleton.mp hentry
      refine ⟨rfl, fun t ht => ?_⟩
      rw [hnl] at ht
      cases ht
  obtain ⟨en, henTable, henTakes⟩ := htakes "en" _ List.mem_cons_self
  obtain ⟨nl, hnlTable, hnlTakes⟩ :=
    htakes "nl" _ (List.mem_cons_of_mem _ (List.mem_singleton_self _))
  have hpath : Text.join "." ["done", "title"] = "done.title" := by cbv
  have hfinished := henTakes.brought "done.title" "Finished"
    ⟨_, .field List.mem_cons_self (.field List.mem_cons_self (.here _)), by decide, hpath⟩
  have hklaar := hnlTakes.brought "done.title" "Klaar!"
    ⟨_, .field List.mem_cons_self (.field List.mem_cons_self (.here _)), by decide, hpath⟩
  exact ⟨hnodup, hplain, en, nl, henTable, hnlTable, hfinished.1, hfinished.2, hklaar.1⟩

end Catalog

end RadioDriver
