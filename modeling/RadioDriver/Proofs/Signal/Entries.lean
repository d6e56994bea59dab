import RadioDriver.Manifest
import RadioDriver.Proofs.Json.Fields
import RadioDriver.Proofs.Path.Anchoring
import RadioDriver.Proofs.Signal.Identity

namespace RadioDriver.Signal

/-- The command table of the entry is that of its content, flattened with one of the transforms or
with none. -/
inductive Entry.Flattened (transforms : Fields Transform) (entry : Entry) : Prop
  | silent (hcontent : Fields.get? entry.content "cmds" = none)
      (hcommands : entry.commands = none) :
      Entry.Flattened transforms entry
  | plain {commands : Json} {table : Fields Json}
      (hcontent : Fields.get? entry.content "cmds" = some commands)
      (hcommands : entry.commands = some table)
      (hflat : flattenCommands none commands = .ok table) :
      Entry.Flattened transforms entry
  | transformed {name : String} {transform : Transform} {commands : Json} {table : Fields Json}
      (hname : Fields.get? transforms name = some transform)
      (hcontent : Fields.get? entry.content "cmds" = some commands)
      (hcommands : entry.commands = some table)
      (hflat : flattenCommands (some transform) commands = .ok table) :
      Entry.Flattened transforms entry

/-- The fields of a signal in two forms: they are the same in the same order, but where one form has
the command table the other lists its keys. -/
structure SameSignal (commands : Option (Fields Json)) (emitted held : Fields Json) : Prop where
  names_eq : Fields.names emitted = Fields.names held
  get?_eq : ∀ name, name ≠ "cmds" → Fields.get? emitted name = Fields.get? held name
  emitted_commands : Fields.get? emitted "cmds" = commands.map .object
  held_commands : Fields.get? held "cmds" =
    commands.map fun table => .ofStrings (Fields.names table)

def Entry.emitted (entry : Entry) : Fields Json :=
  match entry.commands with
  | some table => Fields.set entry.content "cmds" (.object table)
  | none => entry.content

def Entry.held (entry : Entry) : Fields Json :=
  match entry.commands with
  | some table => Fields.set entry.content "cmds" (.ofStrings (Fields.names table))
  | none => entry.content

namespace Registry

variable {ceiling : Ceiling} {r r' : Registry} {entry : Entry} {definition : Json}
  {a : Registration}

theorem signalDefinition_eq (entry : Entry) :
    Manifest.signalDefinition entry = .object entry.emitted := by
  unfold Manifest.signalDefinition Entry.emitted
  cases entry.commands <;> rfl

theorem signalCopy_answer (entry : Entry) (isNew : Bool) :
    Device.signalCopy (answer entry isNew) = .object entry.held := by
  unfold Device.signalCopy Entry.held answer
  cases entry.commands <;> rfl

theorem sameSignal_of_admissible (h : entry.Admissible ceiling) :
    SameSignal entry.commands entry.emitted entry.held := by
  unfold Entry.emitted Entry.held
  have hsome := h.commands_isSome
  cases hcommands : entry.commands with
  | none =>
    rw [hcommands] at hsome
    have hnone : Fields.get? entry.content "cmds" = none := by
      simpa [Fields.contains] using hsome.symm
    exact ⟨rfl, fun _ _ => rfl, hnone, hnone⟩
  | some table =>
    constructor
    · simp only [Fields.names_set]
    · intro name hname
      simp only [Fields.get?_set_of_ne _ _ hname]
    · exact Fields.get?_set_self _ _ _
    · exact Fields.get?_set_self _ _ _

theorem Indexed.get?_of_mem (h : Indexed ceiling r) (hmem : entry ∈ r.entries) :
    r.get? entry.id = some entry := by
  obtain ⟨i, hi⟩ := List.mem_iff_getElem?.mp hmem
  have hindex := (h.byId_iff entry.id i).mpr ⟨entry, hi, rfl⟩
  simp only [Registry.get?, entryAt?, hindex, Option.bind_some, hi]

theorem mem_of_get? {id : String} (h : r.get? id = some entry) : entry ∈ r.entries :=
  entryAt?_mem h

theorem names_listed {α : Type} (entries : List Entry) (f : Entry → α) :
    Fields.names (entries.map fun e => (e.id, f e)) = entries.map (·.id) := by
  simp [Fields.names]

theorem Indexed.get?_listed {α : Type} (h : Indexed ceiling r) (f : Entry → α) (id : String) :
    Fields.get? (r.entries.map fun e => (e.id, f e)) id = (r.get? id).map f := by
  cases hid : r.get? id with
  | none =>
    rw [Option.map_none, Fields.get?_eq_none_iff, names_listed]
    intro hmem
    obtain ⟨entry, hentry, rfl⟩ := List.mem_map.mp hmem
    rw [h.get?_of_mem hentry] at hid
    cases hid
  | some entry =>
    apply Fields.get?_of_mem
    · rw [names_listed]
      exact h.ids_nodup
    · rw [← id_of_get? h hid]
      exact List.mem_map_of_mem (mem_of_get? hid)

theorem flattened_of_commandsOf {content : Fields Json} {commands : Option (Fields Json)}
    {id : String} (h : r.commandsOf definition content = .ok commands) :
    Entry.Flattened r.transforms ⟨id, content, commands⟩ := by
  unfold commandsOf at h
  split at h
  · next hcontent =>
    cases h
    exact .silent hcontent rfl
  · next hcontent =>
    obtain ⟨transform, htransform, h⟩ := except_bind_eq_ok.mp h
    obtain ⟨table, hflat, hdone⟩ := except_bind_eq_ok.mp h
    cases hdone
    cases transform with
    | none => exact .plain hcontent rfl hflat
    | some transform =>
      unfold transformFor at htransform
      split at htransform
      · cases htransform
      · cases htransform
      · split at htransform
        · next hname =>
          cases htransform
          exact .transformed hname hcontent rfl hflat
        · cases htransform
      · cases htransform

/-- A registration that succeeds answers about an entry that is in the registry from then on, and
adds at most that entry. -/
theorem entry_of_register (h : Indexed ceiling r) (hreg : r.register definition = .ok (a, r')) :
    Indexed ceiling r' ∧ r'.transforms = r.transforms ∧ r.entries <+: r'.entries ∧
      ∃ entry ∈ r'.entries, (∃ isNew, a = answer entry isNew) ∧
        ∀ e ∈ r'.entries, e ∈ r.entries ∨ e = entry ∧ e.Flattened r.transforms := by
  refine ⟨h.of_register hreg, ?_⟩
  obtain ⟨-, content, supplied, -, -,
    ⟨entry, hexisting, rfl, rfl⟩ | ⟨commands, hcommands, -, -, rfl, rfl⟩⟩ :=
    cases_of_register hreg
  · exact ⟨rfl, List.prefix_rfl, entry, existing?_mem hexisting, ⟨false, rfl⟩, fun e he => .inl he⟩
  · refine ⟨rfl, List.prefix_append _ _, _, List.mem_append_right _ List.mem_cons_self,
      ⟨true, rfl⟩, ?_⟩
    intro e he
    rcases List.mem_append.mp he with hold | hnew
    · exact .inl hold
    · rw [List.mem_singleton] at hnew
      rw [hnew]
      exact .inr ⟨rfl, flattened_of_commandsOf hcommands⟩

end Registry

end RadioDriver.Signal
