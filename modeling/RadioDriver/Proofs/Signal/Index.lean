import RadioDriver.Signal.Registry

namespace RadioDriver.Signal

/-- What is stored under a ceiling: no bookkeeping fields, no sensitivity that is above the ceiling
as a double, and a command table just when the content has commands. -/
structure Entry.Admissible (ceiling : Ceiling) (entry : Entry) : Prop where
  no_id : Fields.get? entry.content "id" = none
  no_transform : Fields.get? entry.content "transform" = none
  sensitivity_le : ∀ s, (Fields.get? entry.content "sensitivity").bind Json.double? = some s →
    ceiling.exceededBy s = false
  commands_isSome : entry.commands.isSome = Fields.contains entry.content "cmds"

namespace Registry

/-- The ids are distinct, the id index holds the place of every entry, and the content index that of
the first entry with a canonical text. -/
structure Indexed (ceiling : Ceiling) (r : Registry) : Prop where
  ceiling_eq : r.ceiling = ceiling
  ids_nodup : (r.entries.map (·.id)).Nodup
  byId_iff : ∀ id i, Fields.get? r.byId id = some i ↔
    ∃ entry, r.entries[i]? = some entry ∧ entry.id = id
  byContent_eq : ∀ text, Fields.get? r.byContent text =
    r.entries.findIdx? fun entry => contentText entry.content = text
  admissible : ∀ entry ∈ r.entries, entry.Admissible ceiling

variable {ceiling : Ceiling} {r : Registry} {entry : Entry}

theorem getElem?_snoc {entries : List Entry} {last : Entry} {i : Nat} :
    (entries ++ [last])[i]? = some entry ↔
      entries[i]? = some entry ∨ i = entries.length ∧ last = entry := by
  rcases Nat.lt_trichotomy i entries.length with hlt | rfl | hgt
  · rw [List.getElem?_append_left hlt]
    have hne : i ≠ entries.length := Nat.ne_of_lt hlt
    simp [hne]
  · simp
  · have hne : i ≠ entries.length := Nat.ne_of_gt hgt
    have hout : (entries ++ [last]).length ≤ i := by simp only [List.length_append]; exact hgt
    rw [List.getElem?_eq_none hout, List.getElem?_eq_none (Nat.le_of_lt hgt)]
    simp [hne]

theorem indexed_new (ceiling : Ceiling) : Indexed ceiling { ceiling } where
  ceiling_eq := rfl
  ids_nodup := .nil
  byId_iff id i := by simp [Fields.get?]
  byContent_eq text := rfl
  admissible := by simp

theorem Indexed.addTransform (h : Indexed ceiling r) (name : String) (transform : Transform) :
    Indexed ceiling (r.addTransform name transform) :=
  ⟨h.ceiling_eq, h.ids_nodup, h.byId_iff, h.byContent_eq, h.admissible⟩

/-- The registry with one more entry, under its id, and under its text unless that has one. -/
def add (r : Registry) (entry : Entry) : Registry :=
  let index := r.entries.length
  let text := contentText entry.content
  { r with
    entries := r.entries ++ [entry]
    byId := Fields.set r.byId entry.id index
    byContent :=
      if Fields.contains r.byContent text then r.byContent
      else Fields.set r.byContent text index }

theorem Indexed.id_ne (h : Indexed ceiling r) {id : String} (hid : r.contains id = false) :
    ∀ e ∈ r.entries, e.id ≠ id := by
  rintro e he rfl
  obtain ⟨i, hi⟩ := List.mem_iff_getElem?.mp he
  have hget := (h.byId_iff e.id i).mpr ⟨e, hi, rfl⟩
  rw [contains, Fields.contains, hget] at hid
  cases hid

theorem add_byId_iff (h : Indexed ceiling r) (hid : r.contains entry.id = false) (id : String)
    (i : Nat) : Fields.get? (r.add entry).byId id = some i ↔
      ∃ e, (r.add entry).entries[i]? = some e ∧ e.id = id := by
  have hfresh := h.id_ne hid
  by_cases heq : id = entry.id
  · subst heq
    simp only [add, Fields.get?_set_self, getElem?_snoc, Option.some.injEq]
    constructor
    · rintro rfl
      exact ⟨entry, .inr ⟨rfl, rfl⟩, rfl⟩
    · rintro ⟨e, he | ⟨rfl, rfl⟩, hide⟩
      · exact absurd hide (hfresh e (List.mem_of_getElem? he))
      · rfl
  · simp only [add, Fields.get?_set_of_ne _ _ heq, getElem?_snoc, h.byId_iff]
    constructor
    · rintro ⟨e, he, hide⟩
      exact ⟨e, .inl he, hide⟩
    · rintro ⟨e, he | ⟨rfl, rfl⟩, hide⟩
      · exact ⟨e, he, hide⟩
      · exact absurd hide.symm heq

theorem add_byContent_eq (h : Indexed ceiling r) (text : String) :
    Fields.get? (r.add entry).byContent text =
      (r.add entry).entries.findIdx? fun e => contentText e.content = text := by
  have hold := h.byContent_eq text
  simp only [add, List.findIdx?_append, List.findIdx?_singleton]
  by_cases heq : text = contentText entry.content
  · -- an earlier entry with the text keeps its place in the index
    subst heq
    cases hfirst : r.entries.findIdx? fun e =>
      contentText e.content = contentText entry.content with
    | some i =>
      rw [hfirst] at hold
      simp [Fields.contains, hold]
    | none =>
      rw [hfirst] at hold
      simp [Fields.contains, hold, Fields.get?_set_self]
  · have hne : contentText entry.content ≠ text := fun h => heq h.symm
    rw [← hold]
    split <;> simp [hne, Fields.get?_set_of_ne _ _ heq]

theorem Indexed.add (h : Indexed ceiling r) (hid : r.contains entry.id = false)
    (hentry : entry.Admissible ceiling) : Indexed ceiling (r.add entry) where
  ceiling_eq := h.ceiling_eq
  ids_nodup := by
    have hfresh := h.id_ne hid
    simp only [Registry.add, List.map_append, List.map_cons, List.map_nil]
    refine List.nodup_append.mpr ⟨h.ids_nodup, List.pairwise_singleton _ _, ?_⟩
    intro id hold last hlast
    obtain ⟨e, he, rfl⟩ := List.mem_map.mp hold
    rw [List.mem_singleton.mp hlast]
    exact hfresh e he
  byId_iff := add_byId_iff h hid
  byContent_eq := add_byContent_eq h
  admissible := by
    intro e he
    rcases List.mem_append.mp he with he | he
    · exact h.admissible e he
    · rw [List.mem_singleton.mp he]
      exact hentry

theorem clamp_object (r : Registry) (fields : Fields Json) :
    ∃ clamped, r.clamp (.object fields) = .object clamped ∧
      ∀ s, (Fields.get? clamped "sensitivity").bind Json.double? = some s →
        r.ceiling.exceededBy s = false := by
  cases hs : (Fields.get? fields "sensitivity").bind Json.double? with
  | none =>
    refine ⟨fields, by simp only [clamp, hs], ?_⟩
    intro s h
    rw [hs] at h
    cases h
  | some s =>
    cases hlt : r.ceiling.exceededBy s with
    | true =>
      refine ⟨Fields.set fields "sensitivity" r.ceiling.json, by simp [clamp, hs, hlt], ?_⟩
      intro s' h
      rw [Fields.get?_set_self] at h
      exact Ceiling.exceededBy_json h
    | false =>
      refine ⟨fields, by simp [clamp, hs, hlt], ?_⟩
      intro s' h
      rw [hs] at h
      cases h
      exact hlt

theorem commandsOf_isSome {definition : Json} {content : Fields Json}
    {commands : Option (Fields Json)} (h : r.commandsOf definition content = .ok commands) :
    commands.isSome = Fields.contains content "cmds" := by
  unfold commandsOf at h
  unfold Fields.contains
  cases hc : Fields.get? content "cmds" with
  | none =>
    rw [hc] at h
    cases h
    rfl
  | some table =>
    simp only [hc, bind, Except.bind] at h
    split at h
    · cases h
    · split at h
      · cases h
      · cases h
        rfl

theorem admissible_of_contentOf {definition : Json} {content : Fields Json} {id : String}
    {commands : Option (Fields Json)} (hcontent : contentOf (r.clamp definition) = .ok content)
    (hcommands : r.commandsOf (r.clamp definition) content = .ok commands) :
    Entry.Admissible r.ceiling ⟨id, content, commands⟩ := by
  cases definition with
  | object fields =>
    -- the two bookkeeping fields are erased from what was clamped, and no other field
    obtain ⟨clamped, hclamp, hsensitivity⟩ := r.clamp_object fields
    rw [hclamp] at hcontent
    cases hcontent
    refine ⟨?_, Fields.get?_erase_self _ _, ?_, commandsOf_isSome hcommands⟩
    · rw [Fields.get?_erase_of_ne _ (by decide), Fields.get?_erase_self]
    · rw [Fields.get?_erase_of_ne _ (by decide), Fields.get?_erase_of_ne _ (by decide)]
      exact hsensitivity
  | _ => cases hcontent

theorem entryAt?_mem {index : Fields Nat} {key : String} (h : r.entryAt? index key = some entry) :
    entry ∈ r.entries := by
  obtain ⟨i, -, hi⟩ := Option.bind_eq_some_iff.mp h
  exact List.mem_of_getElem? hi

theorem existing?_mem {supplied : Option String} {content : Fields Json}
    (h : r.existing? supplied content = some entry) : entry ∈ r.entries := by
  cases supplied <;> exact entryAt?_mem h

/-- What registering comes to: it fails, it finds an entry, or it adds one under a free id. -/
inductive Registers (r : Registry) : Except SignalError Registration × Registry → Prop
  | fails (e : SignalError) : Registers r (.error e, r)
  | finds {entry : Entry} (h : entry ∈ r.entries) : Registers r (.ok (answer entry false), r)
  | adds {entry : Entry} (hid : r.contains entry.id = false)
      (hentry : entry.Admissible r.ceiling) : Registers r (.ok (answer entry true), r.add entry)

section
variable {σ α β : Type}

theorem run_bind_except (x : Except SignalError α) (f : α → ExceptT SignalError (StateM σ) β)
    (s : σ) : (liftM x >>= f).run.run s =
      match x with
      | .ok a => (f a).run.run s
      | .error e => (.error e, s) := by
  cases x <;> rfl

theorem run_bind_get (f : σ → ExceptT SignalError (StateM σ) β) (s : σ) :
    (get >>= f).run.run s = (f s).run.run s := rfl

end

theorem registering_run (r : Registry) (definition : Json) :
    (registering definition).run.run r =
      match contentOf (r.clamp definition) with
      | .error e => (.error e, r)
      | .ok content =>
        match suppliedId (r.clamp definition) with
        | .error e => (.error e, r)
        | .ok supplied =>
          match r.existing? supplied content with
          | some entry => (.ok (answer entry false), r)
          | none =>
            let id := supplied.getD (contentId content)
            if r.contains id then (.error (.idConflict id), r)
            else
              match r.commandsOf (r.clamp definition) content with
              | .error e => (.error e, r)
              | .ok commands =>
                (.ok (answer ⟨id, content, commands⟩ true), r.add ⟨id, content, commands⟩) := by
  rw [registering, run_bind_get, run_bind_except]
  cases contentOf (r.clamp definition) with
  | error e => rfl
  | ok content =>
    dsimp only
    rw [run_bind_except]
    cases suppliedId (r.clamp definition) with
    | error e => rfl
    | ok supplied =>
      dsimp only
      cases r.existing? supplied content with
      | some entry => rfl
      | none =>
        dsimp only
        cases r.contains (supplied.getD (contentId content)) with
        | true => rfl
        | false =>
          rw [if_neg Bool.false_ne_true, if_neg Bool.false_ne_true, run_bind_except]
          cases r.commandsOf (r.clamp definition) content with
          | error e => rfl
          | ok commands =>
            -- the text is indexed only if it is new, and nothing that is left can fail
            dsimp only [add]
            cases Fields.contains r.byContent (contentText content) <;> rfl

theorem registering_registers (r : Registry) (definition : Json) :
    r.Registers ((registering definition).run.run r) := by
  rw [registering_run]
  cases hcontent : contentOf (r.clamp definition) with
  | error e => exact .fails e
  | ok content =>
    cases suppliedId (r.clamp definition) with
    | error e => exact .fails e
    | ok supplied =>
      dsimp only
      cases hexisting : r.existing? supplied content with
      | some entry => exact .finds (existing?_mem hexisting)
      | none =>
        dsimp only
        cases hid : r.contains (supplied.getD (contentId content)) with
        | true => exact .fails _
        | false =>
          rw [if_neg Bool.false_ne_true]
          cases hcommands : r.commandsOf (r.clamp definition) content with
          | error e => exact .fails e
          | ok commands => exact .adds hid (admissible_of_contentOf hcontent hcommands)

end Registry

end RadioDriver.Signal
