import RadioDriver.Proofs.Json.Fields
import RadioDriver.Proofs.Path.Anchoring
import RadioDriver.Signal.Commands

namespace RadioDriver.Signal

/-- A table is read as commands by type when it has fields and all of them are objects. -/
def Typed (table : Fields Json) : Prop := table ≠ [] ∧ ∀ f ∈ table, f.2.isObject = true

instance (table : Fields Json) : Decidable (Typed table) := inferInstanceAs (Decidable (_ ∧ _))

def kinds (table : Fields Json) : List (String × Fields Json) :=
  if Typed table then table.map fun f => (f.1, f.2.fields?.getD []) else [(defaultName, table)]

/-- The payloads of one command by subtype. -/
def payloadsOf : Json → Fields Json
  | .object subtypes => subtypes
  | payload => [(defaultName, payload)]

/-- A payload with all the names that lead to it. -/
structure Placed extends Leaf where
  kind : String

/-- The key of a payload, in which the type and the subtype `default` are left out. -/
def Placed.key (p : Placed) : String :=
  (if p.kind = defaultName then "" else p.kind ++ typeSeparator) ++ p.command ++
    if p.subtype = defaultName then "" else subtypeSeparator ++ p.subtype

def leavesOf (command : String × Json) : List Leaf :=
  ((payloadsOf command.2).filter fun p => !p.2.isNull).map fun p => ⟨command.1, p.1, p.2⟩

def placedOf (kind : String × Fields Json) : List Placed :=
  (kind.2.flatMap leavesOf).map fun leaf => ⟨leaf, kind.1⟩

/-- The payloads of a table that are not `null`, in the order of the document. -/
def placed (table : Fields Json) : List Placed := (kinds table).flatMap placedOf

/-- What a name in a command table stands for. -/
inductive Level
  | kind
  | command
  | subtype

/-- The names that a table is read by, those of `null` payloads with them. -/
def namesAt (table : Fields Json) : Level → List String
  | .kind => if Typed table then Fields.names table else []
  | .command => (kinds table).flatMap fun k => Fields.names k.2
  | .subtype => (kinds table).flatMap fun k =>
      k.2.flatMap fun c => Fields.names (c.2.fields?.getD [])

/-- One of the separators stands somewhere in the name. -/
def Reserved (name : String) : Prop :=
  ∃ separator ∈ [typeSeparator, subtypeSeparator], separator.toList <:+: name.toList

instance (name : String) : Decidable (Reserved name) :=
  inferInstanceAs (Decidable (∃ separator ∈ _, _))

variable {name command kind : String} {fields commands table flat out : Fields Json}
  {found : List Leaf} {transform : Transform}

theorem checkName_eq_ok {u : Unit} : checkName name = .ok u ↔ ¬ Reserved name := by
  have hreserved : Reserved name ↔
      Text.contains name typeSeparator = true ∨ Text.contains name subtypeSeparator = true := by
    simp [Reserved, Text.contains_iff]
  rw [hreserved, checkName]
  split
  · next htype => simp [htype]
  · split
    · next hsubtype => simp [hsubtype]
    · next htype hsubtype => simp [htype, hsubtype]

/-- No name of a command or of a subtype is reserved. -/
def NamesFree (commands : Fields Json) : Prop :=
  ∀ c ∈ commands, ¬ Reserved c.1 ∧ ∀ subtypes, c.2 = .object subtypes →
    ∀ s ∈ subtypes, ¬ Reserved s.1

theorem subtypeLeaves_eq_ok :
    subtypeLeaves command fields = .ok found ↔ (∀ f ∈ fields, ¬ Reserved f.1) ∧
      found = (fields.filter fun p => !p.2.isNull).map fun p => ⟨command, p.1, p.2⟩ := by
  induction fields generalizing found with
  | nil => simp [subtypeLeaves, eq_comm]
  | cons f rest ih =>
    obtain ⟨subtype, payload⟩ := f
    simp only [subtypeLeaves, except_bind_eq_ok, checkName_eq_ok, ih, List.forall_mem_cons]
    constructor
    · rintro ⟨_, hname, _, ⟨hrest, rfl⟩, hfound⟩
      refine ⟨⟨hname, hrest⟩, ?_⟩
      rw [← Except.ok.inj hfound]
      cases hnull : payload.isNull <;> simp [hnull]
    · rintro ⟨⟨hname, hrest⟩, rfl⟩
      refine ⟨(), hname, _, ⟨hrest, rfl⟩, ?_⟩
      cases hnull : payload.isNull <;> simp [hnull, pure, Except.pure]

theorem commandLeaves_eq_ok {v : Json} :
    commandLeaves command v = .ok found ↔
      (∀ subtypes, v = .object subtypes → ∀ s ∈ subtypes, ¬ Reserved s.1) ∧
        found = leavesOf (command, v) := by
  cases v with
  | object subtypes => simp [commandLeaves, subtypeLeaves_eq_ok, leavesOf, payloadsOf]
  | _ => simp [commandLeaves, leavesOf, payloadsOf, Json.isNull, eq_comm]

theorem leaves_eq_ok :
    leaves commands = .ok found ↔ NamesFree commands ∧ found = commands.flatMap leavesOf := by
  induction commands generalizing found with
  | nil => simp [leaves, NamesFree, eq_comm]
  | cons c rest ih =>
    simp only [leaves, except_bind_eq_ok, checkName_eq_ok, commandLeaves_eq_ok, ih, NamesFree,
      List.forall_mem_cons, List.flatMap_cons]
    constructor
    · rintro ⟨_, hname, _, ⟨hsubtypes, rfl⟩, _, ⟨hrest, rfl⟩, hfound⟩
      exact ⟨⟨⟨hname, hsubtypes⟩, hrest⟩, (Except.ok.inj hfound).symm⟩
    · rintro ⟨⟨⟨hname, hsubtypes⟩, hrest⟩, rfl⟩
      exact ⟨(), hname, _, ⟨hsubtypes, rfl⟩, _, ⟨hrest, rfl⟩, rfl⟩

theorem isObject_iff {v : Json} : v.isObject = true ↔ ∃ fields, v = .object fields := by
  cases v <;> simp [Json.isObject]

theorem allObjects?_eq (table : Fields Json) :
    allObjects? table = if ∀ f ∈ table, f.2.isObject = true then
      some (table.map fun f => (f.1, f.2.fields?.getD [])) else none := by
  induction table with
  | nil => simp [allObjects?]
  | cons f rest ih =>
    obtain ⟨name, v⟩ := f
    cases v with
    | object fields =>
      rw [allObjects?, ih]
      by_cases hrest : ∀ f ∈ rest, f.2.isObject = true
      · have hall : ∀ f ∈ (name, Json.object fields) :: rest, f.2.isObject = true :=
          List.forall_mem_cons.mpr ⟨rfl, hrest⟩
        rw [if_pos hrest, if_pos hall]
        rfl
      · rw [if_neg hrest, if_neg fun h => hrest (List.forall_mem_cons.mp h).2]
        rfl
    | _ => simp [allObjects?, Json.isObject]

theorem commandTypes_eq_kinds (table : Fields Json) : commandTypes table = kinds table := by
  rw [commandTypes, allObjects?_eq, kinds]
  by_cases hobjects : ∀ f ∈ table, f.2.isObject = true
  · rw [if_pos hobjects]
    cases table with
    | nil => rfl
    | cons f rest => rw [if_pos ⟨List.cons_ne_nil f rest, hobjects⟩]; rfl
  · rw [if_neg hobjects, if_neg fun h => hobjects h.2]

theorem namesAt_free_iff :
    (∀ level, ∀ name ∈ namesAt table level, ¬ Reserved name) ↔
      ∀ k ∈ kinds table, ¬ Reserved k.1 ∧ NamesFree k.2 := by
  constructor
  · intro h k hk
    refine ⟨?_, fun c hc => ⟨?_, ?_⟩⟩
    · unfold kinds at hk
      split at hk
      · next htyped =>
        obtain ⟨f, hf, rfl⟩ := List.mem_map.mp hk
        have hname : f.1 ∈ namesAt table .kind := by
          rw [namesAt, if_pos htyped]
          exact List.mem_map_of_mem hf
        exact h .kind f.1 hname
      · have hdefault : checkName defaultName = .ok () := rfl
        rw [List.mem_singleton.mp hk]
        exact checkName_eq_ok.mp hdefault
    · exact h .command c.1 (List.mem_flatMap.mpr ⟨k, hk, List.mem_map_of_mem hc⟩)
    · intro subtypes hsubtypes s hs
      have hname : s.1 ∈ Fields.names (c.2.fields?.getD []) := by
        rw [hsubtypes]
        exact List.mem_map_of_mem hs
      exact h .subtype s.1 (List.mem_flatMap.mpr ⟨k, hk, List.mem_flatMap.mpr ⟨c, hc, hname⟩⟩)
  · intro h level name hname
    cases level with
    | kind =>
      rw [namesAt] at hname
      split at hname
      · next htyped =>
        obtain ⟨f, hf, rfl⟩ := List.mem_map.mp hname
        have hk : (f.1, f.2.fields?.getD []) ∈ kinds table := by
          rw [kinds, if_pos htyped]
          exact List.mem_map_of_mem hf
        exact (h _ hk).1
      · cases hname
    | command =>
      obtain ⟨k, hk, hcommand⟩ := List.mem_flatMap.mp hname
      obtain ⟨c, hc, rfl⟩ := List.mem_map.mp hcommand
      exact ((h k hk).2 c hc).1
    | subtype =>
      obtain ⟨k, hk, hcommand⟩ := List.mem_flatMap.mp hname
      obtain ⟨c, hc, hsubtype⟩ := List.mem_flatMap.mp hcommand
      obtain ⟨s, hs, rfl⟩ := List.mem_map.mp hsubtype
      cases hv : c.2 with
      | object subtypes =>
        rw [hv] at hs
        exact ((h k hk).2 c hc).2 subtypes hv s hs
      | _ =>
        rw [hv] at hs
        cases hs

theorem commandKey_eq (p : Placed) : commandKey p.kind p.command p.subtype = p.key := by
  unfold commandKey Placed.key
  split <;> split <;> simp [String.append_assoc]

def entriesOf (transform : Transform) (places : List Placed) : Fields Json :=
  places.map fun p => (p.key, transform p.payload)

theorem addCommand_eq_ok {key : String} {payload : Json} :
    addCommand flat key payload = .ok out ↔
      key ∉ Fields.names flat ∧ out = flat ++ [(key, payload)] := by
  rw [addCommand]
  split
  · next hold => simp [Fields.contains_iff.mp hold]
  · next hnew =>
    rw [Fields.contains_iff] at hnew
    simp [hnew, Fields.set_eq_append, eq_comm]

theorem nodup_names_concat {key : String} {payload : Json} :
    (Fields.names (flat ++ [(key, payload)])).Nodup ↔
      (Fields.names flat).Nodup ∧ key ∉ Fields.names flat := by
  have happend : Fields.names (flat ++ [(key, payload)]) = Fields.names flat ++ [key] :=
    Fields.names_append _ _
  rw [happend, ← List.concat_eq_append, List.nodup_concat, and_comm]

theorem addLeaves_eq_ok (h : (Fields.names flat).Nodup) :
    addLeaves transform kind found flat = .ok out ↔
      (Fields.names (flat ++ entriesOf transform (found.map (⟨·, kind⟩)))).Nodup ∧
        out = flat ++ entriesOf transform (found.map (⟨·, kind⟩)) := by
  induction found generalizing flat with
  | nil => simp [addLeaves, entriesOf, h, eq_comm]
  | cons leaf rest ih =>
    have hkey : commandKey kind leaf.command leaf.subtype = (⟨leaf, kind⟩ : Placed).key :=
      commandKey_eq ⟨leaf, kind⟩
    have hsplit : flat ++ entriesOf transform ((leaf :: rest).map (⟨·, kind⟩)) =
        (flat ++ [((⟨leaf, kind⟩ : Placed).key, transform leaf.payload)]) ++
          entriesOf transform (rest.map (⟨·, kind⟩)) := by simp [entriesOf]
    simp only [addLeaves, except_bind_eq_ok, addCommand_eq_ok, hkey]
    rw [hsplit]
    constructor
    · rintro ⟨_, ⟨hnew, rfl⟩, hrest⟩
      exact (ih (nodup_names_concat.mpr ⟨h, hnew⟩)).mp hrest
    · rintro ⟨hnodup, rfl⟩
      have hhere := hnodup
      rw [Fields.names_append] at hhere
      have hnew := nodup_names_concat.mp hhere.of_append_left
      exact ⟨_, ⟨hnew.2, rfl⟩, (ih (nodup_names_concat.mpr hnew)).mpr ⟨hnodup, rfl⟩⟩

theorem entriesOf_cons (transform : Transform) (k : String × Fields Json)
    (rest : List (String × Fields Json)) :
    entriesOf transform ((k :: rest).flatMap placedOf) =
      entriesOf transform (placedOf k) ++ entriesOf transform (rest.flatMap placedOf) := by
  simp [entriesOf]

theorem addTypes_eq_ok {types : List (String × Fields Json)} (h : (Fields.names flat).Nodup) :
    addTypes transform types flat = .ok out ↔
      (∀ k ∈ types, ¬ Reserved k.1 ∧ NamesFree k.2) ∧
        (Fields.names (flat ++ entriesOf transform (types.flatMap placedOf))).Nodup ∧
          out = flat ++ entriesOf transform (types.flatMap placedOf) := by
  induction types generalizing flat with
  | nil => simp [addTypes, entriesOf, h, eq_comm]
  | cons k rest ih =>
    simp only [addTypes, except_bind_eq_ok, checkName_eq_ok, leaves_eq_ok, List.forall_mem_cons]
    rw [entriesOf_cons, ← List.append_assoc]
    -- keys that are apart at the end were apart after every type
    constructor
    · rintro ⟨_, hkind, _, ⟨hfree, rfl⟩, _, hadded, hrest⟩
      obtain ⟨hnodup, rfl⟩ := (addLeaves_eq_ok h).mp hadded
      obtain ⟨hothers, hkeys, hout⟩ := (ih hnodup).mp hrest
      exact ⟨⟨⟨hkind, hfree⟩, hothers⟩, hkeys, hout⟩
    · rintro ⟨⟨⟨hkind, hfree⟩, hothers⟩, hkeys, rfl⟩
      have hnodup := hkeys
      rw [Fields.names_append] at hnodup
      have hadded := (addLeaves_eq_ok h).mpr ⟨hnodup.of_append_left, rfl⟩
      exact ⟨(), hkind, _, ⟨hfree, rfl⟩, _, hadded,
        (ih hnodup.of_append_left).mpr ⟨hothers, hkeys, rfl⟩⟩

theorem flattenCommands_object_eq_ok {transform : Option Transform} :
    flattenCommands transform (.object table) = .ok flat ↔
      (∀ level, ∀ name ∈ namesAt table level, ¬ Reserved name) ∧
      ((placed table).map Placed.key).Nodup ∧
      flat = (placed table).map fun p => (p.key, transform.getD id p.payload) := by
  have hnames : Fields.names (entriesOf (transform.getD id) (placed table)) =
      (placed table).map Placed.key := by simp [entriesOf, Fields.names]
  have hadded : flattenCommands transform (.object table) = .ok flat ↔ _ :=
    addTypes_eq_ok List.nodup_nil
  rw [commandTypes_eq_kinds, List.nil_append, ← placed, hnames, ← namesAt_free_iff] at hadded
  exact hadded

/-- A command table is flattened just when it is an object, no name in it is reserved and no two
payloads have one key. What comes out has one command for each payload, in order. -/
theorem flattenCommands_eq_ok_iff {transform : Option Transform} {commands : Json}
    {flat : Fields Json} :
    flattenCommands transform commands = .ok flat ↔ ∃ table, commands = .object table ∧
      (∀ level, ∀ name ∈ namesAt table level, ¬ Reserved name) ∧
      ((placed table).map Placed.key).Nodup ∧
      flat = (placed table).map fun p => (p.key, transform.getD id p.payload) := by
  cases commands with
  | object table => simp [flattenCommands_object_eq_ok]
  | _ => simp [flattenCommands]

end RadioDriver.Signal
