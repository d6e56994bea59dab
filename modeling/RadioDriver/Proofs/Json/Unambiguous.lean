import RadioDriver.Proofs.Json.Alike

namespace RadioDriver

def Layout.isNumeral (c : Char) : Bool :=
  c.isDigit || c == '-' || c == '+' || c == '.' || c == 'e'

namespace Digits

theorem isDigit_ofUnits (n : Nat) (exponent : Int) :
    ∀ c ∈ (ofUnits n exponent).digits, c.isDigit = true := by
  intro c hc
  simp only [ofUnits, List.mem_reverse] at hc
  have hdigits := List.mem_reverse.mp ((List.dropWhile_sublist _).subset hc)
  exact Nat.isDigit_of_mem_toDigits (by decide) (by decide) hdigits

theorem isDigit_shortest (tie : Tie) (x : Double) :
    ∀ c ∈ (shortest tie x).digits, c.isDigit = true := by
  unfold shortest
  split
  · simp
  · dsimp only
    generalize hfound : List.findSome? _ _ = found
    cases found with
    | none => simp
    | some d =>
      obtain ⟨count, -, hcount⟩ := List.exists_of_findSome?_eq_some hfound
      obtain ⟨n, -, rfl⟩ := Option.map_eq_some_iff.mp hcount
      exact isDigit_ofUnits n _

end Digits

namespace Layout

variable {l : Layout} {d : Digits} {c : Char}

theorem isNumeral_of_isDigit (h : c.isDigit = true) : isNumeral c = true := by
  simp [isNumeral, h]

theorem isNumeral_positional (h : ∀ c ∈ d.digits, c.isDigit = true) (hc : c ∈ l.positional d) :
    isNumeral c = true := by
  have hdigits : ∀ c ∈ d.digits, isNumeral c = true := fun c hc => isNumeral_of_isDigit (h c hc)
  have hwhole : ∀ c ∈ (if l.wholeMark then ['.', '0'] else []), isNumeral c = true := by
    split
    · exact List.forall_mem_cons.mpr ⟨rfl, List.forall_mem_singleton.mpr rfl⟩
    · exact List.forall_mem_nil _
  have hzero : isNumeral '0' = true := rfl
  have hpoint : isNumeral '.' = true := rfl
  unfold positional at hc
  dsimp only at hc
  split at hc
  · grind
  · split at hc
    · grind
    · split at hc
      · grind [List.mem_of_mem_take, List.mem_of_mem_drop]
      · grind

theorem isNumeral_scientific (h : ∀ c ∈ d.digits, c.isDigit = true) (hc : c ∈ l.scientific d) :
    isNumeral c = true := by
  have hdigits : ∀ c ∈ d.digits, isNumeral c = true := fun c hc => isNumeral_of_isDigit (h c hc)
  have hmark : ∀ c ∈ (if d.point - 1 < 0 then ['-'] else if l.plusSign then ['+'] else []),
      isNumeral c = true := by
    split
    · exact List.forall_mem_singleton.mpr rfl
    · split
      · exact List.forall_mem_singleton.mpr rfl
      · exact List.forall_mem_nil _
  have hexponent : ∀ c ∈ Nat.toDigits 10 (d.point - 1).natAbs, isNumeral c = true := fun c hc =>
    isNumeral_of_isDigit (Nat.isDigit_of_mem_toDigits (by decide) (by decide) hc)
  simp only [scientific, List.mem_append, List.mem_cons] at hc
  rcases hc with ((hc | hc) | rfl | hc) | hc
  · exact hdigits c (List.mem_of_mem_take hc)
  · split at hc
    · cases hc
    · rcases List.mem_cons.mp hc with rfl | hc
      · rfl
      · exact hdigits c (List.mem_of_mem_drop hc)
  · rfl
  · exact hmark c hc
  · exact hexponent c hc

theorem isNumeral_chars {x : Double} (hc : c ∈ l.chars x) : isNumeral c = true := by
  have hdigits := Digits.isDigit_shortest l.tie x
  unfold chars at hc
  dsimp only at hc
  rw [List.mem_append] at hc
  rcases hc with hsign | hform
  · split at hsign
    · rw [List.mem_singleton] at hsign
      rw [hsign]
      rfl
    · simp at hsign
  · split at hform
    · exact isNumeral_positional hdigits hform
    · exact isNumeral_scientific hdigits hform

theorem positional_ne_nil : l.positional d ≠ [] := by
  unfold positional
  dsimp only
  split
  · simp
  · split
    · simp
    · split
      · simp
      · simp_all

theorem chars_ne_nil {x : Double} : l.chars x ≠ [] := by
  have hscientific : l.scientific (Digits.shortest l.tie x) ≠ [] := by simp [scientific]
  unfold chars
  dsimp only
  apply List.append_ne_nil_of_right_ne_nil
  split
  · exact positional_ne_nil
  · exact hscientific

end Layout

namespace Json

theorem hexUnit?_control : ∀ n < 0x20,
    Reader.hexUnit? '0' '0' (Nat.digitChar (n / 16)) (Nat.digitChar (n % 16)) = some n := by
  decide

section
variable {c : Char} (cs : List Char)

theorem readText_control (h : c.toNat < 0x20) :
    Reader.readText (hexEscape c ++ cs) =
      (Reader.readText cs).map fun (text, rest) => (c :: text, rest) := by
  have hunit := hexUnit?_control c.toNat h
  have hlow : Reader.isLowSurrogate c.toNat = false := by
    rw [Reader.isLowSurrogate, Bool.and_eq_false_iff, decide_eq_false_iff_not]
    omega
  have hhigh : Reader.isHighSurrogate c.toNat = false := by
    rw [Reader.isHighSurrogate, Bool.and_eq_false_iff, decide_eq_false_iff_not]
    omega
  simp [hexEscape, Reader.readText, hunit, hlow, hhigh, Char.ofNat_toNat]

theorem readText_plain (hquote : c ≠ '\"') (hslash : c ≠ '\\') (h : ¬ c.toNat < 0x20) :
    Reader.readText (c :: cs) =
      (Reader.readText cs).map fun (text, rest) => (c :: text, rest) := by
  rw [Reader.readText.eq_def]
  split
  · simp_all
  · simp_all
  · simp_all
  · rename_i heq
    obtain ⟨rfl, rfl⟩ := List.cons.inj heq
    exact if_neg h
  · simp_all

theorem readText_escape (c : Char) :
    Reader.readText (escape c ++ cs) =
      (Reader.readText cs).map fun (text, rest) => (c :: text, rest) := by
  unfold escape
  repeat' split
  -- The first seven are escapes of one letter.
  on_goal 8 => exact readText_control cs ‹_›
  on_goal 8 => exact readText_plain cs ‹_› ‹_› ‹_›
  all_goals
    subst c
    simp [Reader.readText, Reader.simpleEscape?]

end

theorem readText_escapes (text rest : List Char) :
    Reader.readText (text.flatMap escape ++ '\"' :: rest) = some (text, rest) := by
  induction text with
  | nil => simp [Reader.readText]
  | cons c text ih =>
    rw [List.flatMap_cons, List.append_assoc, readText_escape, ih]
    rfl

theorem quoted_append_inj {s t : String} {rest rest' : List Char}
    (h : quoted s ++ rest = quoted t ++ rest') : s = t ∧ rest = rest' := by
  simp only [quoted, List.cons_append, List.append_assoc, List.nil_append, List.cons.injEq,
    true_and] at h
  have hread := congrArg Reader.readText h
  rw [readText_escapes, readText_escapes, Option.some_inj, Prod.mk.injEq] at hread
  exact ⟨String.toList_inj.mp hread.1, hread.2⟩

/-- The characters that may follow a value: the comma and the closing brackets. -/
def closers : List Char := [',', ']', '\x7d']

/-- A rest at which a value may end. -/
def Delimited (rest : List Char) : Prop := ∀ c ∈ rest.head?, c ∈ closers

section
variable {rest rest' : List Char} {v w : Json} {c : Char}

theorem delimited_nil : Delimited [] := by
  intro c hc
  cases hc

theorem delimited_cons (h : c ∈ closers) : Delimited (c :: rest) := by
  intro d hd
  rwa [← Option.mem_some_iff.mp hd]

theorem isNumeral_of_mem_closers (h : c ∈ closers) : Layout.isNumeral c = false := by
  simp only [closers, List.mem_cons, List.not_mem_nil, or_false] at h
  rcases h with rfl | rfl | rfl <;> rfl

theorem takeWhile_isNumeral (l : Layout) (x : Double) (hrest : Delimited rest) :
    (l.chars x ++ rest).takeWhile Layout.isNumeral = l.chars x := by
  have hnone : rest.takeWhile Layout.isNumeral = [] := by
    cases rest with
    | nil => rfl
    | cons c rest =>
      rw [List.takeWhile_cons, isNumeral_of_mem_closers (hrest c rfl)]
      rfl
  rw [List.takeWhile_append_of_pos fun c => Layout.isNumeral_chars, hnone, List.append_nil]

theorem number_append_inj {l : Layout} {x y : Double} (hrest : Delimited rest)
    (hrest' : Delimited rest') (h : l.chars x ++ rest = l.chars y ++ rest') :
    l.chars x = l.chars y ∧ rest = rest' := by
  have hchars : l.chars x = l.chars y := by
    rw [← takeWhile_isNumeral l x hrest, h, takeWhile_isNumeral l y hrest']
  rw [hchars] at h
  exact ⟨hchars, List.append_cancel_left h⟩

def kindOf (initial : Char) : String :=
  if Layout.isNumeral initial then "number"
  else if initial = 'n' then "null"
  else if initial = 't' ∨ initial = 'f' then "boolean"
  else if initial = '\"' then "string"
  else if initial = '[' then "array"
  else "object"

/-- The first character of a form tells its kind, and is none that may follow a value. -/
theorem exists_canonicalChars_eq_cons (v : Json) :
    ∃ c cs, canonicalChars v = c :: cs ∧ kindOf c = v.typeName ∧ c ∉ closers := by
  cases v with
  | null => exact ⟨_, _, rfl, by decide, by decide⟩
  | bool b =>
    cases b with
    | true => exact ⟨_, _, rfl, by decide, by decide⟩
    | false => exact ⟨_, _, rfl, by decide, by decide⟩
  | number n =>
    obtain ⟨c, cs, hchars⟩ := List.exists_cons_of_ne_nil
      (Layout.chars_ne_nil (l := Layout.canonical) (x := n.toDouble))
    have hnumeral : Layout.isNumeral c = true :=
      Layout.isNumeral_chars (l := Layout.canonical) (x := n.toDouble) (by simp [hchars])
    refine ⟨c, cs, hchars, if_pos hnumeral, fun hc => ?_⟩
    rw [isNumeral_of_mem_closers hc] at hnumeral
    cases hnumeral
  | string s => exact ⟨_, _, rfl, rfl, by decide⟩
  | array items => exact ⟨_, _, rfl, rfl, by decide⟩
  | object fields => exact ⟨_, _, rfl, rfl, by decide⟩

theorem typeName_eq_of_append_eq (h : canonicalChars v ++ rest = canonicalChars w ++ rest') :
    v.typeName = w.typeName := by
  obtain ⟨c, cs, hv, hkind, -⟩ := exists_canonicalChars_eq_cons v
  obtain ⟨d, ds, hw, hkind', -⟩ := exists_canonicalChars_eq_cons w
  rw [hv, hw, List.cons_append, List.cons_append, List.cons.injEq] at h
  rw [← hkind, h.1, hkind']

theorem canonicalChars_append_ne (h : c ∈ closers) : canonicalChars v ++ rest ≠ c :: rest' := by
  obtain ⟨d, ds, hv, -, hd⟩ := exists_canonicalChars_eq_cons v
  rw [hv, List.cons_append]
  intro heq
  rw [(List.cons.inj heq).1] at hd
  exact hd h

end

theorem separated_cons (piece : List Char) (pieces : List (List Char)) :
    separated [','] (piece :: pieces) = piece ++ pieces.flatMap (',' :: ·) := by
  induction pieces generalizing piece with
  | nil => simp [separated]
  | cons next pieces ih => simp [separated, ih]

/-- How items are written, and what equal pieces tell of them. -/
structure Legible {α : Type} (form : α → List Char) (R : α → α → Prop) (xs ys : List α) : Prop where
  /-- A piece tells where it ends. -/
  ends : ∀ x ∈ xs, ∀ y ∈ ys, ∀ rest rest', Delimited rest → Delimited rest' →
    form x ++ rest = form y ++ rest' → R x y ∧ rest = rest'
  /-- No piece begins like what may follow one. -/
  begins : ∀ x, x ∈ xs ∨ x ∈ ys → ∀ c ∈ closers, ∀ rest rest', form x ++ rest ≠ c :: rest'

namespace Legible

variable {α : Type} {form : α → List Char} {R : α → α → Prop} {x y : α} {xs ys : List α}
  {close : Char} {rest rest' : List Char}

theorem tail (h : Legible form R (x :: xs) (y :: ys)) : Legible form R xs ys := by
  constructor
  · intro x hx y hy
    exact h.ends x (List.mem_cons_of_mem _ hx) y (List.mem_cons_of_mem _ hy)
  · intro x hx
    exact h.begins x (hx.imp (List.mem_cons_of_mem _) (List.mem_cons_of_mem _))

theorem delimited_pieces (hclose : close ∈ closers) (pieces : List (List Char)) :
    Delimited (pieces.flatMap (',' :: ·) ++ close :: rest) := by
  cases pieces with
  | nil => exact delimited_cons hclose
  | cons piece pieces => exact delimited_cons (by decide)

theorem forall₂_of_pieces (h : Legible form R xs ys) (hclose : close ∈ closers) (hne : close ≠ ',')
    (heq : (xs.map form).flatMap (',' :: ·) ++ close :: rest =
      (ys.map form).flatMap (',' :: ·) ++ close :: rest') :
    List.Forall₂ R xs ys ∧ rest = rest' := by
  induction xs generalizing ys with
  | nil =>
    cases ys with
    | nil => exact ⟨.nil, (List.cons.inj heq).2⟩
    | cons y ys => exact absurd (List.cons.inj heq).1 hne
  | cons x xs ih =>
    cases ys with
    | nil => exact absurd (List.cons.inj heq).1.symm hne
    | cons y ys =>
      simp only [List.map_cons, List.flatMap_cons, List.cons_append, List.append_assoc,
        List.cons.injEq, true_and] at heq
      obtain ⟨hxy, hrest⟩ := h.ends x List.mem_cons_self y List.mem_cons_self _ _
        (delimited_pieces hclose _) (delimited_pieces hclose _) heq
      obtain ⟨hxys, hrest⟩ := ih h.tail hrest
      exact ⟨.cons hxy hxys, hrest⟩

theorem forall₂_of_separated (h : Legible form R xs ys) (hclose : close ∈ closers)
    (hne : close ≠ ',') (heq : separated [','] (xs.map form) ++ close :: rest =
      separated [','] (ys.map form) ++ close :: rest') :
    List.Forall₂ R xs ys ∧ rest = rest' := by
  cases xs with
  | nil =>
    cases ys with
    | nil => exact ⟨.nil, (List.cons.inj heq).2⟩
    | cons y ys =>
      rw [List.map_cons, separated_cons, List.append_assoc] at heq
      exact absurd heq.symm (h.begins y (.inr List.mem_cons_self) close hclose _ _)
  | cons x xs =>
    cases ys with
    | nil =>
      rw [List.map_cons, separated_cons, List.append_assoc] at heq
      exact absurd heq (h.begins x (.inl List.mem_cons_self) close hclose _ _)
    | cons y ys =>
      rw [List.map_cons, List.map_cons, separated_cons, separated_cons, List.append_assoc,
        List.append_assoc] at heq
      obtain ⟨hxy, hrest⟩ := h.ends x List.mem_cons_self y List.mem_cons_self _ _
        (delimited_pieces hclose _) (delimited_pieces hclose _) heq
      obtain ⟨hxys, hrest⟩ := h.tail.forall₂_of_pieces hclose hne hrest
      exact ⟨.cons hxy hxys, hrest⟩

end Legible

/-- A value's form before a rest tells the value, up to what is alike, and the rest. Texts end at
the first quote that is not escaped, numbers at the first character that no number has, and the
first character of a form tells what kind of value it is of. -/
def Unambiguous (v : Json) : Prop :=
  ∀ w rest rest', distinct v = true → distinct w = true → Delimited rest → Delimited rest' →
    canonicalChars v ++ rest = canonicalChars w ++ rest' → Alike v w ∧ rest = rest'

section
variable {items : List Json} {fields : Fields Json}

theorem unambiguous_null : Unambiguous .null := by
  intro w rest rest' _ _ _ _ h
  have hkind := typeName_eq_of_append_eq h
  cases w with
  | null => exact ⟨.null, List.append_cancel_left h⟩
  | _ => simp [typeName] at hkind

theorem unambiguous_bool (b : Bool) : Unambiguous (.bool b) := by
  intro w rest rest' _ _ _ _ h
  have hkind := typeName_eq_of_append_eq h
  cases w with
  | bool b' =>
    have hsame : b = b' ∧ rest = rest' := by
      cases b <;> cases b' <;> simp [canonicalChars] at h ⊢ <;> exact h
    rw [← hsame.1]
    exact ⟨.bool b, hsame.2⟩
  | _ => simp [typeName] at hkind

theorem unambiguous_number (n : Number) : Unambiguous (.number n) := by
  intro w rest rest' _ _ hrest hrest' h
  have hkind := typeName_eq_of_append_eq h
  cases w with
  | number n' =>
    obtain ⟨hchars, hrest⟩ := number_append_inj hrest hrest' h
    exact ⟨.number (congrArg String.ofList hchars), hrest⟩
  | _ => simp [typeName] at hkind

theorem unambiguous_string (s : String) : Unambiguous (.string s) := by
  intro w rest rest' _ _ _ _ h
  have hkind := typeName_eq_of_append_eq h
  cases w with
  | string t =>
    obtain ⟨rfl, hrest⟩ := quoted_append_inj h
    exact ⟨.string s, hrest⟩
  | _ => simp [typeName] at hkind

theorem unambiguous_array (hitems : ∀ v ∈ items, Unambiguous v) : Unambiguous (.array items) := by
  intro w rest rest' hv hw _ _ h
  have hkind := typeName_eq_of_append_eq h
  cases w with
  | array others =>
    rw [distinct_array] at hv hw
    rw [canonicalChars, canonicalChars, canonicalItems_eq_map, canonicalItems_eq_map] at h
    simp only [List.cons_append, List.append_assoc, List.cons.injEq, true_and] at h
    have hlegible : Legible canonicalChars Alike items others := by
      constructor
      · intro v hmem w hmem' rest rest' hrest hrest'
        exact hitems v hmem w rest rest' (hv v hmem) (hw w hmem') hrest hrest'
      · intro v _ c hc rest rest'
        exact canonicalChars_append_ne hc
    obtain ⟨hall, hrest⟩ := hlegible.forall₂_of_separated (by decide) (by decide) h
    rw [List.forall₂_iff_zip] at hall
    exact ⟨.array hall.1 fun v w hmem => hall.2 hmem, hrest⟩
  | _ => simp [typeName] at hkind

def canonicalField (f : String × Json) : List Char := quoted f.1 ++ ':' :: canonicalChars f.2

theorem canonicalChars_object (fields : Fields Json) :
    canonicalChars (.object fields) =
      '\x7b' :: (separated [','] ((sortedByName fields).map canonicalField) ++ ['\x7d']) := by
  have hsorted : sortedByName (canonicalFields fields) = canonicalFields (sortedByName fields) := by
    rw [canonicalFields_eq_map, canonicalFields_eq_map]
    symm
    apply List.map_mergeSort
    intro a _ b _
    rfl
  rw [canonicalChars, hsorted, canonicalFields_eq_map, List.map_map]
  rfl

/-- A field's name and value, the value up to what is alike. -/
def AlikeField (f g : String × Json) : Prop := f.1 = g.1 ∧ Alike f.2 g.2

theorem legible_fields (hfields : ∀ f ∈ fields, Unambiguous f.2) {others : Fields Json}
    (hv : ∀ f ∈ fields, distinct f.2 = true) (hw : ∀ f ∈ others, distinct f.2 = true) :
    Legible canonicalField AlikeField fields others := by
  constructor
  · intro f hmem g hmem' rest rest' hrest hrest' h
    rw [canonicalField, canonicalField, List.append_assoc, List.append_assoc] at h
    obtain ⟨hname, hvalue⟩ := quoted_append_inj h
    obtain ⟨halike, hrest⟩ := hfields f hmem g.2 rest rest' (hv f hmem) (hw g hmem') hrest hrest'
      (List.cons.inj hvalue).2
    exact ⟨⟨hname, halike⟩, hrest⟩
  · intro f _ c hc rest rest' heq
    have hquote : '\"' ∉ closers := by decide
    rw [← (List.cons.inj heq).1] at hc
    exact hquote hc

theorem alike_of_sorted {others : Fields Json} (hnodup : (Fields.names others).Nodup)
    (h : List.Forall₂ AlikeField (sortedByName fields) (sortedByName others)) :
    Alike (.object fields) (.object others) := by
  have hsame : Fields.names (sortedByName fields) = Fields.names (sortedByName others) := by
    rw [← List.forall₂_eq_eq_eq, Fields.names, Fields.names, List.forall₂_map_left_iff,
      List.forall₂_map_right_iff]
    exact h.imp fun _ _ hfield => hfield.1
  constructor
  · have hperm : (Fields.names (sortedByName fields)).Perm (Fields.names fields) :=
      (sortedByName_perm fields).map _
    rw [hsame] at hperm
    exact hperm.symm.trans ((sortedByName_perm others).map _)
  · intro name v w hmem hmem'
    obtain ⟨i, hi, hget⟩ := List.getElem_of_mem ((sortedByName_perm fields).mem_iff.mpr hmem)
    have hi' : i < (sortedByName others).length := h.length_eq ▸ hi
    have hfield : AlikeField (sortedByName fields)[i] (sortedByName others)[i] := h.get hi hi'
    have hother : (sortedByName others)[i] = (name, w) := by
      apply List.inj_on_of_nodup_map hnodup ((sortedByName_perm others).mem_iff.mp
        (List.getElem_mem hi')) hmem'
      rw [← hfield.1, hget]
    rw [hget, hother] at hfield
    exact hfield.2

theorem unambiguous_object (hfields : ∀ f ∈ fields, Unambiguous f.2) :
    Unambiguous (.object fields) := by
  intro w rest rest' hv hw _ _ h
  have hkind := typeName_eq_of_append_eq h
  cases w with
  | object others =>
    rw [distinct_object] at hv hw
    simp only [canonicalChars_object, List.cons_append, List.append_assoc, List.cons.injEq,
      true_and] at h
    have hmem : ∀ {f}, f ∈ sortedByName fields → f ∈ fields :=
      (sortedByName_perm fields).mem_iff.mp
    have hmem' : ∀ {f}, f ∈ sortedByName others → f ∈ others :=
      (sortedByName_perm others).mem_iff.mp
    have hlegible : Legible canonicalField AlikeField (sortedByName fields) (sortedByName others) :=
      legible_fields (fun f hf => hfields f (hmem hf)) (fun f hf => hv.2 f (hmem hf))
        fun f hf => hw.2 f (hmem' hf)
    obtain ⟨hall, hrest⟩ := hlegible.forall₂_of_separated (by decide) (by decide) h
    exact ⟨alike_of_sorted hw.1 hall, hrest⟩
  | _ => simp [typeName] at hkind

end

mutual

theorem unambiguous : ∀ v : Json, Unambiguous v
  | .null => unambiguous_null
  | .bool b => unambiguous_bool b
  | .number n => unambiguous_number n
  | .string s => unambiguous_string s
  | .array items => unambiguous_array (unambiguous_items items)
  | .object fields => unambiguous_object (unambiguous_fields fields)

theorem unambiguous_items : ∀ items : List Json, ∀ v ∈ items, Unambiguous v
  | [] => fun _ h => nomatch h
  | v :: rest => List.forall_mem_cons.mpr ⟨unambiguous v, unambiguous_items rest⟩

theorem unambiguous_fields : ∀ fields : List (String × Json), ∀ f ∈ fields, Unambiguous f.2
  | [] => fun _ h => nomatch h
  | (_, v) :: rest => List.forall_mem_cons.mpr ⟨unambiguous v, unambiguous_fields rest⟩

end

theorem canonical_eq_iff {v w : Json} (hv : distinct v = true) (hw : distinct w = true) :
    canonical v = canonical w ↔ Alike v w := by
  constructor
  · intro h
    have hchars := congrArg (· ++ []) (String.ofList_injective h)
    exact (unambiguous v w [] [] hv hw delimited_nil delimited_nil hchars).1
  · intro h
    exact congrArg String.ofList (h.canonicalChars_eq hv hw)

theorem Alike.refl {v : Json} (h : distinct v = true) : Alike v v := (canonical_eq_iff h h).mp rfl

end Json

end RadioDriver
