import RadioDriver.Text.Pieces

namespace RadioDriver.Text

variable {separator : Char} {s t : List Char}

/-- The pieces one after another with the separator between neighbours. -/
def glue (separator : Char) : List (List Char) → List Char
  | [] => []
  | [piece] => piece
  | piece :: next :: more => piece ++ separator :: glue separator (next :: more)

theorem glue_pieces (separator : Char) (s : List Char) :
    glue separator (pieces separator s) = s := by
  induction s with
  | nil => rfl
  | cons c rest ih =>
    rw [pieces]
    split
    · next hc =>
      subst hc
      obtain ⟨piece, more, hp⟩ := List.exists_cons_of_ne_nil (pieces_ne_nil c rest)
      rw [hp] at ih ⊢
      rw [glue, ih]
      rfl
    · split
      · next hp => exact absurd hp (pieces_ne_nil separator rest)
      · next piece more hp =>
        rw [hp] at ih
        cases more with
        | nil => rw [glue] at ih ⊢; rw [ih]
        | cons next more => rw [glue] at ih ⊢; rw [List.cons_append, ih]

theorem pieces_injective (h : pieces separator s = pieces separator t) : s = t := by
  rw [← glue_pieces separator s, h, glue_pieces]

theorem pieces_of_not_mem (h : separator ∉ s) : pieces separator s = [s] := by
  induction s with
  | nil => rfl
  | cons c rest ih =>
    have hc : c ≠ separator := fun hc => h (hc ▸ List.mem_cons_self)
    rw [pieces, if_neg hc, ih (fun hr => h (List.mem_cons_of_mem c hr))]

theorem pieces_append_cons (separator : Char) (s t : List Char) :
    pieces separator (s ++ separator :: t) = pieces separator s ++ pieces separator t := by
  induction s with
  | nil => simp [pieces]
  | cons c rest ih =>
    rw [List.cons_append, pieces, pieces, ih]
    split
    · rfl
    · obtain ⟨piece, more, hp⟩ := List.exists_cons_of_ne_nil (pieces_ne_nil separator rest)
      rw [hp]
      rfl

theorem not_mem_pieces {piece : List Char} (h : piece ∈ pieces separator s) :
    separator ∉ piece := by
  induction s generalizing piece with
  | nil =>
    rw [List.mem_singleton.mp h]
    exact List.not_mem_nil
  | cons c rest ih =>
    rw [pieces] at h
    split at h
    · rcases List.mem_cons.mp h with rfl | h
      · exact List.not_mem_nil
      · exact ih h
    · next hc =>
      obtain ⟨first, more, hp⟩ := List.exists_cons_of_ne_nil (pieces_ne_nil separator rest)
      rw [hp] at h
      rcases List.mem_cons.mp h with rfl | h
      · intro hmem
        rcases List.mem_cons.mp hmem with heq | hmem
        · exact hc heq.symm
        · exact ih (hp ▸ List.mem_cons_self) hmem
      · exact ih (hp ▸ List.mem_cons_of_mem first h)

theorem mem_of_mem_pieces {piece : List Char} {c : Char} (h : piece ∈ pieces separator s)
    (hc : c ∈ piece) : c ∈ s := by
  induction s generalizing piece with
  | nil =>
    rw [List.mem_singleton.mp h] at hc
    exact hc
  | cons first rest ih =>
    obtain ⟨next, more, hp⟩ := List.exists_cons_of_ne_nil (pieces_ne_nil separator rest)
    rw [hp] at ih
    rw [pieces, hp] at h
    grind

theorem split_ne_nil (separator : Char) (s : String) : split separator s ≠ [] := by
  intro h
  exact pieces_ne_nil separator s.toList (List.map_eq_nil_iff.mp h)

theorem split_injective {a b : String} (h : split separator a = split separator b) : a = b := by
  have hpieces : pieces separator a.toList = pieces separator b.toList :=
    (List.map_inj_right fun _ _ hxy => String.ofList_injective hxy).mp h
  exact String.toList_injective (pieces_injective hpieces)

theorem split_of_not_mem {a : String} (h : separator ∉ a.toList) : split separator a = [a] := by
  rw [split, pieces_of_not_mem h, List.map_singleton, String.ofList_toList]

theorem split_join (separator : Char) (a b : String) :
    split separator (a ++ String.singleton separator ++ b) =
      split separator a ++ split separator b := by
  have hlist : (a ++ String.singleton separator ++ b).toList =
      a.toList ++ separator :: b.toList := by simp
  rw [split, hlist, pieces_append_cons, List.map_append]
  rfl

theorem not_mem_of_mem_split {a piece : String} (h : piece ∈ split separator a) :
    separator ∉ piece.toList := by
  obtain ⟨chars, hchars, rfl⟩ := List.mem_map.mp h
  rw [String.toList_ofList]
  exact not_mem_pieces hchars

theorem mem_of_mem_split {a piece : String} {c : Char} (h : piece ∈ split separator a)
    (hc : c ∈ piece.toList) : c ∈ a.toList := by
  obtain ⟨chars, hchars, rfl⟩ := List.mem_map.mp h
  rw [String.toList_ofList] at hc
  exact mem_of_mem_pieces hchars hc

theorem mem_join {between : String} {names : List String} {c : Char}
    (h : c ∈ (join between names).toList) :
    c ∈ between.toList ∨ ∃ name ∈ names, c ∈ name.toList := by
  induction names with
  | nil => cases h
  | cons name rest ih =>
    cases rest with
    | nil => exact .inr ⟨name, List.mem_singleton_self name, h⟩
    | cons next rest =>
      simp only [join, String.toList_append, List.mem_append] at h
      grind

theorem split_join_names {names : List String} (hne : names ≠ [])
    (h : ∀ name ∈ names, separator ∉ name.toList) :
    split separator (join (String.singleton separator) names) = names := by
  induction names with
  | nil => exact absurd rfl hne
  | cons name rest ih =>
    have hname := split_of_not_mem (h name List.mem_cons_self)
    cases rest with
    | nil => exact hname
    | cons next rest =>
      rw [join, split_join, hname,
        ih (List.cons_ne_nil next rest) fun other hother => h other (List.mem_cons_of_mem _ hother)]
      rfl

theorem occursIn_iff {needle : List Char} : occursIn needle s = true ↔ needle <:+: s := by
  induction s with
  | nil => simp [occursIn]
  | cons c rest ih =>
    rw [occursIn, Bool.or_eq_true, List.isPrefixOf_iff_prefix, ih, List.infix_cons_iff]

theorem contains_iff {a needle : String} :
    contains a needle = true ↔ needle.toList <:+: a.toList := occursIn_iff

end RadioDriver.Text
