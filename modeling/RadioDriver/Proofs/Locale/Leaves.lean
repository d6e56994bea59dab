import RadioDriver.Locale.Backfill
import RadioDriver.Proofs.Json.Fields
import RadioDriver.Proofs.Text.Pieces

namespace RadioDriver

namespace Locale

mutual

/-- Whether the objects of a value name their fields apart, as maps do, and without dots. -/
def plain : Json → Bool
  | .object fields => plainFields fields
  | .null => true
  | .bool _ => true
  | .number _ => true
  | .string _ => true
  | .array _ => true

/-- Whether fields are named apart and without dots, at every depth. -/
def plainFields : List (String × Json) → Bool
  | [] => true
  | (k, v) :: rest =>
    !k.toList.contains '.' && !(Fields.names rest).contains k && plain v && plainFields rest

end

theorem plainFields_cons {k : String} {v : Json} {rest : List (String × Json)}
    (h : plainFields ((k, v) :: rest) = true) :
    '.' ∉ k.toList ∧ k ∉ Fields.names rest ∧ plain v = true ∧ plainFields rest = true := by
  simpa [plainFields, and_assoc] using h

theorem segments_below (path : String) {name : String} (h : '.' ∉ name.toList) :
    LocaleTable.segments (below path name) = LocaleTable.segments path ++ [name] := by
  have hjoin := Text.split_join '.' path name
  rw [Text.split_of_not_mem h] at hjoin
  exact hjoin

/-- The leaves have different paths, and each lies at or below one of the names from the start. -/
def Spread (start names : List String) (leaves : List (String × String)) : Prop :=
  (leaves.map (·.1)).Nodup ∧
    ∀ leaf ∈ leaves, ∃ name ∈ names, start ++ [name] <+: LocaleTable.segments leaf.1

variable {start names others : List String} {leaves more : List (String × String)}

theorem spread_nil (start : List String) : Spread start [] [] := by
  constructor
  · exact List.nodup_nil
  · intro leaf h
    cases h

theorem Spread.grow (h : Spread start [] leaves) (names : List String) :
    Spread start names leaves := by
  refine ⟨h.1, ?_⟩
  intro leaf hleaf
  obtain ⟨_, hnone, -⟩ := h.2 leaf hleaf
  cases hnone

theorem Spread.append (h : Spread start names leaves) (hm : Spread start others more)
    (hne : ∀ name ∈ names, name ∉ others) : Spread start (names ++ others) (leaves ++ more) := by
  constructor
  · rw [List.map_append, List.nodup_append]
    refine ⟨h.1, hm.1, ?_⟩
    intro a ha b hb heq
    obtain ⟨leaf, hleaf, rfl⟩ := List.mem_map.mp ha
    obtain ⟨leaf', hleaf', rfl⟩ := List.mem_map.mp hb
    obtain ⟨name, hname, hpre⟩ := h.2 leaf hleaf
    obtain ⟨name', hname', hpre'⟩ := hm.2 leaf' hleaf'
    rw [← heq] at hpre'
    -- two beginnings of one path that are equally long
    have hsame : start ++ [name] = start ++ [name'] :=
      (List.prefix_of_prefix_length_le hpre hpre' (by simp)).eq_of_length (by simp)
    have : name = name' := by simpa using hsame
    subst this
    exact hne name hname hname'
  · intro leaf hleaf
    rcases List.mem_append.mp hleaf with hleaf | hleaf
    · obtain ⟨name, hname, hpre⟩ := h.2 leaf hleaf
      exact ⟨name, List.mem_append_left _ hname, hpre⟩
    · obtain ⟨name, hname, hpre⟩ := hm.2 leaf hleaf
      exact ⟨name, List.mem_append_right _ hname, hpre⟩

theorem Spread.up {name : String} (h : Spread (start ++ [name]) names leaves) :
    Spread start [name] leaves := by
  refine ⟨h.1, ?_⟩
  intro leaf hleaf
  obtain ⟨_, -, hpre⟩ := h.2 leaf hleaf
  exact ⟨name, List.mem_singleton_self name, (List.prefix_append _ _).trans hpre⟩

theorem spread_singleton {path name text : String}
    (hpath : LocaleTable.segments path = start ++ [name]) :
    Spread start [name] [(path, text)] := by
  constructor
  · exact List.pairwise_singleton _ path
  · intro leaf hleaf
    rw [List.mem_singleton.mp hleaf, hpath]
    exact ⟨name, List.mem_singleton_self name, List.prefix_rfl⟩

mutual

theorem leavesAt_spread : ∀ (v : Json) {start : List String} {path name : String},
    plain v = true → LocaleTable.segments path = start ++ [name] →
      Spread start [name] (leavesAt path v)
  | .object fields, start, path, name, h, hpath => by
    have hbelow := leavesBelow_spread fields path h
    rw [hpath] at hbelow
    exact hbelow.up
  | .string s, start, path, name, _, hpath => spread_singleton hpath
  | .null, start, path, name, _, _ => (spread_nil start).grow _
  | .bool _, start, path, name, _, _ => (spread_nil start).grow _
  | .number _, start, path, name, _, _ => (spread_nil start).grow _
  | .array _, start, path, name, _, _ => (spread_nil start).grow _

theorem leavesBelow_spread : ∀ (fields : List (String × Json)) (path : String),
    plainFields fields = true →
      Spread (LocaleTable.segments path) (Fields.names fields) (leavesBelow path fields)
  | [], path, _ => spread_nil _
  | (k, v) :: rest, path, h => by
    obtain ⟨hdot, hnew, hv, hrest⟩ := plainFields_cons h
    have hhere := leavesAt_spread v hv (segments_below path hdot)
    refine hhere.append (leavesBelow_spread rest path hrest) ?_
    intro name hname
    rw [List.mem_singleton.mp hname]
    exact hnew

end

theorem leavesOf_spread {fields : Fields Json} (h : plainFields fields = true) :
    Spread [] (Fields.names fields) (LocaleTable.leavesOf fields) := by
  induction fields with
  | nil => exact spread_nil []
  | cons f rest ih =>
    obtain ⟨k, v⟩ := f
    obtain ⟨hdot, hnew, hv, hrest⟩ := plainFields_cons h
    have hroot : LocaleTable.segments k = [] ++ [k] := Text.split_of_not_mem hdot
    have hhere := leavesAt_spread v hv hroot
    refine hhere.append (ih hrest) ?_
    intro name hname
    rw [List.mem_singleton.mp hname]
    exact hnew

end Locale

namespace Backfill

/-- The default language's built-in texts are a tree of maps without dots in its names. -/
def Readable (builtin : Catalog) : Prop :=
  ∀ table, builtin.get? defaultLanguage = some table → Locale.plainFields table.tree = true

theorem pathsOf_nodup (tree : Json) {builtin : Catalog} (h : Readable builtin)
    (space : Option String) : (pathsOf tree builtin space).Nodup := by
  have hknown : (KeyPath.keyPaths tree).Nodup := Fields.nodup_eraseDups _
  unfold pathsOf
  cases space with
  | none => exact hknown
  | some space =>
    refine List.nodup_append.mpr ⟨hknown, ?_, ?_⟩
    · unfold runtimePaths
      cases htable : builtin.get? defaultLanguage with
      | none => exact List.nodup_nil
      | some table => exact (Locale.leavesOf_spread (h table htable)).1.filter _
    · intro known hk path hp heq
      subst heq
      unfold runtimePaths at hp
      cases htable : builtin.get? defaultLanguage with
      | none =>
        rw [htable] at hp
        cases hp
      | some table =>
        rw [htable] at hp
        have hnot := (List.mem_filter.mp hp).2
        simp [hk] at hnot

end Backfill

end RadioDriver
