import RadioDriver.Proofs.Json.Distinct
import RadioDriver.Proofs.Signal.Flattening

namespace RadioDriver

namespace Text

/-- What stands before the first separator, and what stands after it. -/
def cutAt (separator : List Char) : List Char → Option (List Char × List Char)
  | [] => none
  | c :: rest =>
    if separator.isPrefixOf (c :: rest) then some ([], (c :: rest).drop separator.length)
    else (cutAt separator rest).map fun parts => (c :: parts.1, parts.2)

/-- The text before the first separator in it, and the text after it. -/
def cut? (separator s : String) : Option (String × String) :=
  (cutAt separator.toList s.toList).map fun parts =>
    (String.ofList parts.1, String.ofList parts.2)

section
variable {separator before after s : List Char} {x y : Char}

theorem cutAt_eq_none (h : ¬ separator <:+: s) : cutAt separator s = none := by
  induction s with
  | nil => rfl
  | cons c rest ih =>
    obtain ⟨hhere, hlater⟩ := not_or.mp (mt List.infix_cons_iff.mpr h)
    rw [cutAt, if_neg (mt List.isPrefixOf_iff_prefix.mp hhere), ih hlater]
    rfl

/-- A separator is the first one if there is none in the text before it with all of the separator
but its last character. -/
theorem cutAt_append (hne : separator ≠ []) (h : ¬ separator <:+: before ++ separator.dropLast) :
    cutAt separator (before ++ separator ++ after) = some (before, after) := by
  induction before with
  | nil =>
    obtain ⟨c, rest, rfl⟩ := List.exists_cons_of_ne_nil hne
    have hhere : (c :: rest).isPrefixOf (c :: (rest ++ after)) = true :=
      List.isPrefixOf_iff_prefix.mpr (List.prefix_append (c :: rest) after)
    rw [List.nil_append, List.cons_append, cutAt, if_pos hhere, ← List.cons_append,
      List.drop_left]
  | cons c rest ih =>
    have hlater : ¬ separator <:+: rest ++ separator.dropLast :=
      fun hinside => h (hinside.trans (List.suffix_cons c _).isInfix)
    have hhere : ¬ separator <+: c :: (rest ++ separator ++ after) := by
      -- a separator that began here would end before the last character of the other one
      intro hprefix
      have hshort : c :: rest ++ separator.dropLast <+: c :: (rest ++ separator ++ after) := by
        rw [List.append_assoc, ← List.cons_append]
        refine (List.prefix_append_right_inj _).mpr ?_
        exact (List.dropLast_prefix separator).trans (List.prefix_append _ _)
      have hlength : separator.length ≤ (c :: rest ++ separator.dropLast).length := by
        simp only [List.cons_append, List.length_cons, List.length_append, List.length_dropLast]
        omega
      exact h (List.prefix_of_prefix_length_le hprefix hshort hlength).isInfix
    rw [List.cons_append, List.cons_append, cutAt, if_neg (mt List.isPrefixOf_iff_prefix.mp hhere),
      ih hlater]
    rfl

/-- Two characters that stand side by side in two texts do so in one of them, or where they meet. -/
theorem pair_infix_append (h : [x, y] <:+: before ++ after) :
    [x, y] <:+: before ∨ [x, y] <:+: after ∨ before.getLast? = some x ∧ after.head? = some y := by
  induction before with
  | nil => exact .inr (.inl h)
  | cons c rest ih =>
    rw [List.cons_append] at h
    rcases List.infix_cons_iff.mp h with hhere | hlater
    · obtain ⟨rfl, hnext⟩ := List.cons_prefix_cons.mp hhere
      cases rest with
      | nil =>
        cases after with
        | nil => simp at hnext
        | cons d after =>
          obtain ⟨rfl, -⟩ := List.cons_prefix_cons.mp hnext
          exact .inr (.inr ⟨rfl, rfl⟩)
      | cons d rest =>
        obtain ⟨rfl, -⟩ := List.cons_prefix_cons.mp hnext
        exact .inl ⟨[], rest, rfl⟩
    · rcases ih hlater with hrest | hafter | hmeet
      · exact .inl (hrest.trans (List.suffix_cons c rest).isInfix)
      · exact .inr (.inl hafter)
      · refine .inr (.inr ⟨?_, hmeet.2⟩)
        cases rest with
        | nil => cases hmeet.1
        | cons d rest => exact hmeet.1

end

theorem cut?_eq_none {separator s : String} (h : ¬ separator.toList <:+: s.toList) :
    cut? separator s = none := by
  rw [cut?, cutAt_eq_none h]
  rfl

theorem cut?_append {separator before : String} (after : String) (hne : separator ≠ "")
    (h : ¬ separator.toList <:+: before.toList ++ separator.toList.dropLast) :
    cut? separator (before ++ separator ++ after) = some (before, after) := by
  have hchars : separator.toList ≠ [] := fun hnil => hne (String.toList_eq_nil_iff.mp hnil)
  rw [cut?, String.toList_append, String.toList_append, cutAt_append hchars h]
  simp

end Text

namespace Signal

/-- The type, command and subtype of a key: a type stands before the first `$~`, a subtype after the
first `~$` of what follows, and a part that is missing is `default`. -/
def readKey (key : String) : String × String × String :=
  let typed := (Text.cut? typeSeparator key).getD (defaultName, key)
  let variant := (Text.cut? subtypeSeparator typed.2).getD (typed.2, defaultName)
  (typed.1, variant.1, variant.2)

def Placed.names (p : Placed) : String × String × String := (p.kind, p.command, p.subtype)

/-- No separator stands in the names of a payload, and none arises at either end of the one between
command and subtype. The two separators are made of the same two characters, so that one can also
arise where two parts of a key meet. -/
structure Placed.Readable (p : Placed) : Prop where
  kind : ¬ Reserved p.kind
  command : ¬ Reserved p.command
  subtype : ¬ Reserved p.subtype
  command_end : p.command.toList.getLast? ≠ some '$'
  subtype_start : p.subtype.toList.head? ≠ some '~'

variable {p : Placed} {name : String} {table : Fields Json}

theorem not_reserved_iff : ¬ Reserved name ↔
    ¬ ['$', '~'] <:+: name.toList ∧ ¬ ['~', '$'] <:+: name.toList := by
  simp [Reserved, typeSeparator, subtypeSeparator]

def Placed.rest (p : Placed) : String :=
  p.command ++ if p.subtype = defaultName then "" else subtypeSeparator ++ p.subtype

theorem Placed.Readable.cut_rest (h : p.Readable) :
    (Text.cut? subtypeSeparator p.rest).getD (p.rest, defaultName) = (p.command, p.subtype) := by
  obtain ⟨-, hcommand⟩ := not_reserved_iff.mp h.command
  unfold Placed.rest
  split
  · next hsubtype =>
    have hnone : Text.cut? subtypeSeparator p.command = none := Text.cut?_eq_none hcommand
    rw [String.append_empty, hnone, hsubtype]
    rfl
  · have hfirst : ¬ ['~', '$'] <:+: p.command.toList ++ ['~'] := by
      intro hinside
      rcases Text.pair_infix_append hinside with hin | hin | hmeet
      · exact hcommand hin
      · exact absurd hin.length_le (by decide)
      · exact absurd hmeet.2 (by decide)
    have hcut : Text.cut? subtypeSeparator (p.command ++ subtypeSeparator ++ p.subtype) =
        some (p.command, p.subtype) := Text.cut?_append p.subtype (by decide) hfirst
    rw [← String.append_assoc, hcut]
    rfl

theorem Placed.Readable.not_infix_rest (h : p.Readable) : ¬ ['$', '~'] <:+: p.rest.toList := by
  obtain ⟨hcommand, -⟩ := not_reserved_iff.mp h.command
  obtain ⟨hsubtype, -⟩ := not_reserved_iff.mp h.subtype
  unfold Placed.rest
  split
  · rwa [String.append_empty]
  · rw [String.toList_append, String.toList_append]
    intro hinside
    rcases Text.pair_infix_append hinside with hin | hin | hmeet
    · exact hcommand hin
    · rcases Text.pair_infix_append hin with hin | hin | hmeet
      · exact absurd hin (by decide)
      · exact hsubtype hin
      · exact h.subtype_start hmeet.2
    · exact h.command_end hmeet.1

theorem Placed.Readable.readKey_key (h : p.Readable) : readKey p.key = p.names := by
  obtain ⟨hkind, -⟩ := not_reserved_iff.mp h.kind
  have htyped : (Text.cut? typeSeparator p.key).getD (defaultName, p.key) = (p.kind, p.rest) := by
    unfold Placed.key
    rw [String.append_assoc, ← Placed.rest]
    split
    · next hdefault =>
      have hnone : Text.cut? typeSeparator p.rest = none := Text.cut?_eq_none h.not_infix_rest
      rw [String.empty_append, hnone, hdefault]
      rfl
    · have hfirst : ¬ ['$', '~'] <:+: p.kind.toList ++ ['$'] := by
        intro hinside
        rcases Text.pair_infix_append hinside with hin | hin | hmeet
        · exact hkind hin
        · exact absurd hin.length_le (by decide)
        · exact absurd hmeet.2 (by decide)
      have hcut : Text.cut? typeSeparator (p.kind ++ typeSeparator ++ p.rest) =
          some (p.kind, p.rest) := Text.cut?_append p.rest (by decide) hfirst
      rw [hcut]
      rfl
  unfold readKey
  dsimp only
  rw [htyped, h.cut_rest, Placed.names]

theorem names_of_mem_placed (h : p ∈ placed table) :
    (p.kind = defaultName ∨ p.kind ∈ namesAt table .kind) ∧ p.command ∈ namesAt table .command ∧
      (p.subtype = defaultName ∨ p.subtype ∈ namesAt table .subtype) := by
  obtain ⟨k, hk, hp⟩ := List.mem_flatMap.mp h
  obtain ⟨leaf, hleaf, rfl⟩ := List.mem_map.mp hp
  obtain ⟨c, hc, hleaf⟩ := List.mem_flatMap.mp hleaf
  obtain ⟨payload, hpayload, rfl⟩ := List.mem_map.mp hleaf
  have hpayload := (List.mem_filter.mp hpayload).1
  refine ⟨?_, List.mem_flatMap.mpr ⟨k, hk, List.mem_map_of_mem hc⟩, ?_⟩
  · unfold kinds at hk
    split at hk
    · next htyped =>
      obtain ⟨f, hf, rfl⟩ := List.mem_map.mp hk
      rw [namesAt, if_pos htyped]
      exact .inr (List.mem_map_of_mem hf)
    · exact .inl (congrArg Prod.fst (List.mem_singleton.mp hk))
  · cases hv : c.2 with
    | object subtypes =>
      rw [hv] at hpayload
      have hsubtype : payload.1 ∈ Fields.names (c.2.fields?.getD []) := by
        rw [hv]
        exact List.mem_map_of_mem hpayload
      exact .inr (List.mem_flatMap.mpr ⟨k, hk, List.mem_flatMap.mpr ⟨c, hc, hsubtype⟩⟩)
    | _ =>
      rw [hv] at hpayload
      exact .inl (congrArg Prod.fst (List.mem_singleton.mp hpayload))

theorem readable_of_mem_placed (hfree : ∀ level, ∀ name ∈ namesAt table level, ¬ Reserved name)
    (hcommands : ∀ name ∈ namesAt table .command, name.toList.getLast? ≠ some '$')
    (hsubtypes : ∀ name ∈ namesAt table .subtype, name.toList.head? ≠ some '~')
    (h : p ∈ placed table) : p.Readable := by
  have hdefault : ¬ Reserved defaultName := checkName_eq_ok.mp rfl
  obtain ⟨hkind, hcommand, hsubtype⟩ := names_of_mem_placed h
  refine ⟨?_, hfree .command _ hcommand, ?_, hcommands _ hcommand, ?_⟩
  · rcases hkind with heq | hmem
    · rwa [heq]
    · exact hfree .kind _ hmem
  · rcases hsubtype with heq | hmem
    · rwa [heq]
    · exact hfree .subtype _ hmem
  · rcases hsubtype with heq | hmem
    · rw [heq]
      decide
    · exact hsubtypes _ hmem

/-- Lists are apart from each other when what their members say of where they came from is. -/
theorem nodup_flatMap_of_origin {α β κ : Type} {xs : List α} {f : α → List β} {key : α → κ}
    (origin : β → κ) (hkeys : (xs.map key).Nodup) (hinner : ∀ x ∈ xs, (f x).Nodup)
    (horigin : ∀ x ∈ xs, ∀ y ∈ f x, origin y = key x) : (xs.flatMap f).Nodup := by
  refine List.nodup_flatMap.mpr ⟨hinner, (List.pairwise_map.mp hkeys).imp_of_mem ?_⟩
  intro a b ha hb hne y hya hyb
  exact hne ((horigin a ha y hya).symm.trans (horigin b hb y hyb))

theorem nodup_kinds (h : (Json.object table).distinct = true) :
    ((kinds table).map Prod.fst).Nodup := by
  unfold kinds
  split
  · rw [List.map_map]
    exact (Json.distinct_object.mp h).1
  · exact List.nodup_singleton _

theorem distinct_of_mem_kinds (h : (Json.object table).distinct = true)
    {k : String × Fields Json} (hk : k ∈ kinds table) : (Json.object k.2).distinct = true := by
  unfold kinds at hk
  split at hk
  · next htyped =>
    obtain ⟨f, hf, rfl⟩ := List.mem_map.mp hk
    obtain ⟨commands, hobject⟩ := isObject_iff.mp (htyped.2 f hf)
    have hdistinct := (Json.distinct_object.mp h).2 f hf
    rw [hobject] at hdistinct ⊢
    exact hdistinct
  · rw [List.mem_singleton.mp hk]
    exact h

theorem nodup_payloadsOf {v : Json} (h : v.distinct = true) :
    (Fields.names (payloadsOf v)).Nodup := by
  cases v with
  | object subtypes => exact (Json.distinct_object.mp h).1
  | _ => exact List.nodup_singleton _

theorem nodup_names_placed (h : (Json.object table).distinct = true) :
    ((placed table).map Placed.names).Nodup := by
  rw [placed, List.map_flatMap]
  refine nodup_flatMap_of_origin (fun n => n.1) (nodup_kinds h) (fun k hk => ?_) ?_
  · have hcommands := Json.distinct_object.mp (distinct_of_mem_kinds h hk)
    rw [placedOf, List.map_map, List.map_flatMap]
    refine nodup_flatMap_of_origin (fun n => n.2.1) hcommands.1 (fun c hc => ?_) ?_
    · have hsubtypes := List.pairwise_map.mp (nodup_payloadsOf (hcommands.2 c hc))
      rw [leavesOf, List.map_map]
      refine List.pairwise_map.mpr ((hsubtypes.filter _).imp fun hne heq => hne ?_)
      exact congrArg (fun n => n.2.2) heq
    · intro c _ n hn
      obtain ⟨leaf, hleaf, rfl⟩ := List.mem_map.mp hn
      obtain ⟨_, _, rfl⟩ := List.mem_map.mp hleaf
      rfl
  · intro k _ n hn
    obtain ⟨_, hp, rfl⟩ := List.mem_map.mp hn
    obtain ⟨_, _, rfl⟩ := List.mem_map.mp hp
    rfl

/-- When no command ends in a dollar sign and no subtype begins with a tilde, every key leads back
to the type, command and subtype of its payload. Thus no two payloads have one key and the table is
flattened, whatever else its names begin or end with. -/
theorem keys_read_back (hdistinct : (Json.object table).distinct = true)
    (hfree : ∀ level, ∀ name ∈ namesAt table level, ¬ Reserved name)
    (hcommands : ∀ name ∈ namesAt table .command, name.toList.getLast? ≠ some '$')
    (hsubtypes : ∀ name ∈ namesAt table .subtype, name.toList.head? ≠ some '~') :
    (∀ p ∈ placed table, readKey p.key = (p.kind, p.command, p.subtype)) ∧
    ((placed table).map Placed.key).Nodup ∧
    ∀ transform,
      flattenCommands transform (.object table) =
        .ok ((placed table).map fun p => (p.key, transform.getD id p.payload)) ∧
      ∀ key, flattenCommands transform (.object table) ≠ .error (.commandCollision key) := by
  have hread : ∀ p ∈ placed table, readKey p.key = p.names := fun p hp =>
    (readable_of_mem_placed hfree hcommands hsubtypes hp).readKey_key
  have hkeys : ((placed table).map Placed.key).Nodup := by
    -- the names can be read off the keys, and they are apart
    have hnames : ((placed table).map Placed.key).map readKey =
        (placed table).map Placed.names := by
      rw [List.map_map]
      exact List.map_congr_left hread
    refine List.Nodup.of_map readKey ?_
    rw [hnames]
    exact nodup_names_placed hdistinct
  refine ⟨hread, hkeys, fun transform => ?_⟩
  have hflat : flattenCommands transform (.object table) =
      .ok ((placed table).map fun p => (p.key, transform.getD id p.payload)) :=
    flattenCommands_object_eq_ok.mpr ⟨hfree, hkeys, rfl⟩
  refine ⟨hflat, fun key hcollision => ?_⟩
  rw [hflat] at hcollision
  cases hcollision

/-- Types, commands and subtypes that end in a tilde or begin with a dollar sign. -/
def tildeTable : Fields Json :=
  [("night~", .object [("dim~", .object [("$fast~", .string "1"), ("", .string "2")]),
      ("$on", .null), ("", .string "3")]),
    ("$", .object [("~up", .object [("default", .string "4"), ("soft$", .null)])]),
    ("default", .object [("dim~", .object [("soft$", .string "5")])])]

theorem tildeTable_keys_read_back :
    ((placed tildeTable).map Placed.key).Nodup ∧
      readKey "night~$~dim~~$$fast~" = ("night~", "dim~", "$fast~") := by
  have hfree : ∀ level, ∀ name ∈ namesAt tildeTable level, ¬ Reserved name := by
    intro level
    cases level <;> decide +kernel
  have hread := keys_read_back (by decide) hfree (by decide) (by decide)
  exact ⟨hread.2.1, hread.1 ⟨⟨"dim~", "$fast~", .string "1"⟩, "night~"⟩ (.head _)⟩

end Signal

end RadioDriver
