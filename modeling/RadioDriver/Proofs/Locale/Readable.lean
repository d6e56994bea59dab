import RadioDriver.Builtin
import RadioDriver.Proofs.Locale.Leaves
import RadioDriver.Proofs.Locale.Table

namespace RadioDriver

namespace Locale

variable {fields fields' : Fields Json} {name : String} {value : Json}

theorem dot_not_mem_of_mem_segments {path : String} (h : name ∈ LocaleTable.segments path) :
    '.' ∉ name.toList := Text.not_mem_of_mem_split h

theorem plainFields_of_cons {k : String} {v : Json} {rest : List (String × Json)}
    (hdot : '.' ∉ k.toList) (hnew : k ∉ Fields.names rest) (hv : plain v = true)
    (hrest : plainFields rest = true) : plainFields ((k, v) :: rest) = true := by
  simp [plainFields, hdot, hnew, hv, hrest]

theorem plainFields_set (h : plainFields fields = true) (hdot : '.' ∉ name.toList)
    (hv : plain value = true) : plainFields (Fields.set fields name value) = true := by
  induction fields with
  | nil => exact plainFields_of_cons hdot List.not_mem_nil hv rfl
  | cons f rest ih =>
    obtain ⟨k, v⟩ := f
    obtain ⟨hk, hnew, hold, hrest⟩ := plainFields_cons h
    rw [Fields.set]
    split
    · exact plainFields_of_cons hk hnew hv hrest
    · next hne =>
      refine plainFields_of_cons hk ?_ hold (ih hrest)
      intro hmem
      rcases Fields.mem_names_set.mp hmem with heq | hmem
      · exact hne heq
      · exact hnew hmem

theorem plain_of_get? (h : plainFields fields = true) (hv : Fields.get? fields name = some value) :
    plain value = true := by
  induction fields with
  | nil => cases hv
  | cons f rest ih =>
    obtain ⟨k, v⟩ := f
    obtain ⟨-, -, hplain, hrest⟩ := plainFields_cons h
    rw [Fields.get?] at hv
    split at hv
    · cases hv
      exact hplain
    · exact ih hrest hv

theorem plainFields_of_container? {inner : Fields Json} (h : plainFields fields = true)
    (hinner : container? (Fields.get? fields name) = some inner) : plainFields inner = true := by
  cases hv : Fields.get? fields name with
  | none =>
    rw [hv] at hinner
    cases hinner
    rfl
  | some v =>
    have hplain := plain_of_get? h hv
    rw [hv] at hinner
    cases v with
    | null =>
      cases hinner
      rfl
    | object fields =>
      cases hinner
      exact hplain
    | _ => cases hinner

theorem plainFields_setAt {walked path : List String} {whole : String}
    (h : setAt walked whole value fields path = .ok fields') (hplain : plainFields fields = true)
    (hv : plain value = true) (hpath : ∀ name ∈ path, '.' ∉ name.toList) :
    plainFields fields' = true := by
  induction path generalizing fields fields' walked with
  | nil =>
    cases fields <;> cases h
    · rfl
    · exact hplain
  | cons name rest ih =>
    have hdot := hpath name List.mem_cons_self
    cases rest with
    | nil =>
      rw [setAt_singleton_ok h]
      exact plainFields_set hplain hdot hv
    | cons next rest =>
      obtain ⟨inner, inner', hinner, hset, rfl⟩ := setAt_cons_ok h
      -- what contains the rest of the path is plain already, or is new and empty
      have hinner' := ih hset (plainFields_of_container? hplain hinner) fun name hname =>
        hpath name (List.mem_cons_of_mem _ hname)
      exact plainFields_set hplain hdot hinner'

end Locale

namespace Catalog

/-- In every language names are apart and free of dots. -/
def Plain (c : Catalog) : Prop := ∀ t ∈ c.tables, Locale.plainFields t.2.tree = true

variable {c : Catalog} {language : String} {table : LocaleTable}

theorem mem_insertTable {tables : Fields LocaleTable} {t : String × LocaleTable}
    (h : t ∈ insertTable language table tables) : t = (language, table) ∨ t ∈ tables := by
  induction tables with
  | nil => exact .inl (List.mem_singleton.mp h)
  | cons u rest ih =>
    obtain ⟨k, u⟩ := u
    rw [insertTable] at h
    split at h
    · rcases List.mem_cons.mp h with h | h
      · exact .inl h
      · exact .inr h
    · split at h
      · next heq =>
        rcases List.mem_cons.mp h with h | h
        · exact .inl (heq ▸ h)
        · exact .inr (List.mem_cons_of_mem _ h)
      · rcases List.mem_cons.mp h with h | h
        · exact .inr (h ▸ List.mem_cons_self)
        · rcases ih h with h | h
          · exact .inl h
          · exact .inr (List.mem_cons_of_mem _ h)

theorem get?_insertTable_self (tables : Fields LocaleTable) :
    Fields.get? (insertTable language table tables) language = some table := by
  induction tables with
  | nil => exact if_pos rfl
  | cons t rest ih =>
    obtain ⟨k, t⟩ := t
    unfold insertTable
    split
    · exact if_pos rfl
    · split
      · next heq => exact if_pos heq.symm
      · next hne => exact (if_neg (Ne.symm hne)).trans ih

theorem get?_insertTable_of_ne (tables : Fields LocaleTable) {other : String}
    (h : other ≠ language) :
    Fields.get? (insertTable language table tables) other = Fields.get? tables other := by
  induction tables with
  | nil => exact if_neg h.symm
  | cons t rest ih =>
    obtain ⟨k, t⟩ := t
    unfold insertTable
    split
    · exact if_neg h.symm
    · split
      · next heq =>
        have hk : k ≠ other := fun hc => h (heq.trans hc).symm
        exact (if_neg hk).trans (if_neg hk).symm
      · rw [Fields.get?, Fields.get?, ih]

theorem Plain.readable (h : c.Plain) : Backfill.Readable c :=
  fun _ ht => h _ (Fields.mem_of_get? ht)

theorem plain_builtin : Builtin.catalog.Plain := by
  unfold Plain
  decide +kernel

end Catalog

end RadioDriver
