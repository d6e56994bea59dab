import Mathlib.Data.List.TakeWhile
import RadioDriver.Proofs.Json.Distinct
import RadioDriver.Proofs.Json.Unambiguous

namespace RadioDriver.Json

namespace Reader

variable {cs rest more ds : List Char}

/-- A rest that goes on no number. -/
def Stops (rest : List Char) : Prop :=
  ∀ c ∈ rest.head?, c.isDigit = false ∧ c ≠ '.' ∧ c ≠ 'e' ∧ c ≠ 'E'

theorem stops_cons {c : Char} (h : c.isDigit = false ∧ c ≠ '.' ∧ c ≠ 'e' ∧ c ≠ 'E') :
    Stops (c :: rest) := by
  intro d hd
  rwa [← Option.mem_some_iff.mp hd]

theorem spanDigits_append (h : Stops rest) (cs : List Char) :
    spanDigits (cs ++ rest) = ((spanDigits cs).1, (spanDigits cs).2 ++ rest) := by
  induction cs with
  | nil =>
    cases rest with
    | nil => rfl
    | cons c rest => simp [spanDigits, (h c rfl).1]
  | cons c cs ih =>
    by_cases hc : c.isDigit
    · have hfirst := congrArg Prod.fst ih
      have hsecond := congrArg Prod.snd ih
      simp_all [spanDigits]
    · simp [spanDigits, hc]

theorem readWhole_append (h : Stops rest) (hread : readWhole cs = some (ds, more)) :
    readWhole (cs ++ rest) = some (ds, more ++ rest) := by
  unfold readWhole at hread ⊢
  rw [spanDigits_append h]
  grind

theorem readFraction_append {fraction : Option (List Char)} (h : Stops rest)
    (hread : readFraction cs = some (fraction, more)) :
    readFraction (cs ++ rest) = some (fraction, more ++ rest) := by
  cases cs with
  | nil =>
    cases hread
    cases rest with
    | nil => rfl
    | cons c rest =>
      have hpoint := (h c rfl).2.1
      rw [List.nil_append, readFraction]
      exact fun cs heq => hpoint (List.cons.inj heq).1
  | cons c cs =>
    unfold readFraction at hread ⊢
    grind [spanDigits_append]

theorem readSign_append (h : cs ≠ []) (rest : List Char) :
    readSign (cs ++ rest) = ((readSign cs).1, (readSign cs).2 ++ rest) := by
  obtain ⟨c, cs, rfl⟩ := List.exists_cons_of_ne_nil h
  rw [List.cons_append]
  by_cases hminus : c = '-'
  · subst hminus
    rfl
  by_cases hplus : c = '+'
  · subst hplus
    rfl
  simp [readSign, hminus, hplus]

theorem readExponent_append {exponent : Option Int} (h : Stops rest)
    (hread : readExponent cs = some (exponent, more)) :
    readExponent (cs ++ rest) = some (exponent, more ++ rest) := by
  cases cs with
  | nil =>
    cases hread
    cases rest with
    | nil => rfl
    | cons c rest =>
      obtain ⟨-, -, he, hE⟩ := h c rfl
      rw [List.nil_append, readExponent, if_neg (not_or.mpr ⟨he, hE⟩)]
  | cons c cs =>
    rw [List.cons_append]
    by_cases hmark : c = 'e' ∨ c = 'E'
    · simp only [readExponent, hmark, if_true] at hread ⊢
      have hcs : cs ≠ [] := by
        rintro rfl
        cases hread
      rw [readSign_append hcs]
      dsimp only
      rw [spanDigits_append h]
      rcases hspan : spanDigits (readSign cs).2 with ⟨digits, after⟩
      rw [hspan] at hread
      cases digits with
      | nil => cases hread
      | cons d ds =>
        cases hread
        rfl
    · simp only [readExponent, hmark, if_false] at hread ⊢
      cases hread
      rfl

theorem readMagnitude_append {negative : Bool} {n : Number} (h : Stops rest)
    (hread : readMagnitude negative cs = some (n, more)) :
    readMagnitude negative (cs ++ rest) = some (n, more ++ rest) := by
  unfold readMagnitude at hread ⊢
  simp only [Option.bind_eq_bind, Option.bind_eq_some_iff] at hread
  obtain ⟨⟨whole, cs₁⟩, hwhole, ⟨fraction, cs₂⟩, hfraction, ⟨exponent, cs₃⟩, hexponent, m, hm,
    hn⟩ := hread
  simp only [readWhole_append h hwhole, readFraction_append h hfraction,
    readExponent_append h hexponent, hm, Option.bind_eq_bind, Option.bind_some]
  cases hn
  rfl

theorem readNumber_append {n : Number} (h : Stops rest) (hread : readNumber cs = some (n, more)) :
    readNumber (cs ++ rest) = some (n, more ++ rest) := by
  cases cs with
  | nil => cases hread
  | cons c cs =>
    unfold readNumber at hread ⊢
    grind [readMagnitude_append]

theorem initial_of_readNumber {n : Number} {c : Char}
    (hread : readNumber (c :: cs) = some (n, more)) : c.isDigit = true ∨ c = '-' := by
  by_cases hc : c = '-'
  · exact .inr hc
  by_contra hnot
  have hspan : spanDigits (c :: cs) = ([], c :: cs) := by
    simp [spanDigits, (not_or.mp hnot).1]
  have hmagnitude : readMagnitude false (c :: cs) = none := by
    unfold readMagnitude readWhole
    rw [hspan]
    rfl
  unfold readNumber at hread
  grind

theorem digitChar_eq_zero {n : Nat} (h : n < 10) (hzero : Nat.digitChar n = '0') : n = 0 := by
  revert n
  decide

theorem toDigits_of_head {n : Nat} (h : (Nat.toDigits 10 n).head? = some '0') : n = 0 := by
  induction n using Nat.strongRecOn with
  | ind n ih =>
    by_cases hn : n < 10
    · rw [Nat.toDigits_of_lt_base hn] at h
      exact digitChar_eq_zero hn (Option.some_inj.mp h)
    · rw [Nat.toDigits_of_base_le (by decide) (by omega),
        List.head?_append_of_ne_nil _ Nat.toDigits_ne_nil] at h
      have := ih (n / 10) (by omega) h
      omega

theorem spanDigits_toDigits (n : Nat) :
    spanDigits (Nat.toDigits 10 n) = (Nat.toDigits 10 n, []) := by
  have hdigits : ∀ c ∈ Nat.toDigits 10 n, c.isDigit = true := fun c hc =>
    Nat.isDigit_of_mem_toDigits (by decide) (by decide) hc
  rw [spanDigits, List.takeWhile_eq_self_iff.mpr hdigits, List.dropWhile_eq_nil_iff.mpr hdigits]

theorem readWhole_toDigits (n : Nat) :
    readWhole (Nat.toDigits 10 n) = some (Nat.toDigits 10 n, []) := by
  unfold readWhole
  rw [spanDigits_toDigits]
  split
  · next heq => exact absurd (Prod.mk.inj heq).1 Nat.toDigits_ne_nil
  · next heq =>
    have hdigits := (Prod.mk.inj heq).1
    have hzero : n = 0 := toDigits_of_head (by rw [hdigits]; rfl)
    subst hzero
    cases hdigits
  · next heq =>
    cases heq
    rfl

theorem digitsValue_toDigits (n : Nat) : digitsValue (Nat.toDigits 10 n) = n := by
  have hzero : '0'.toNat = 48 := rfl
  have hvalue := Nat.ofDigitChars_ten_toDigits (n := n)
  rw [Nat.ofDigitChars_eq_foldl] at hvalue
  simpa only [digitsValue, hzero, Nat.mul_comm] using hvalue

theorem readMagnitude_toDigits (negative : Bool) (n : Nat) :
    readMagnitude negative (Nat.toDigits 10 n) =
      (numberOf negative (Nat.toDigits 10 n) none none).map fun n => (n, []) := by
  simp only [readMagnitude, readWhole_toDigits, readFraction, readExponent, Option.bind_eq_bind,
    Option.bind_some]
  exact Option.map_eq_bind.symm

theorem readNumber_toDigits (n : Nat) :
    readNumber (Nat.toDigits 10 n) = readMagnitude false (Nat.toDigits 10 n) := by
  cases hdigits : Nat.toDigits 10 n with
  | nil => exact absurd hdigits Nat.toDigits_ne_nil
  | cons c cs =>
    have hc : c.isDigit = true := Nat.isDigit_of_mem_toDigits (b := 10) (n := n) (by decide)
      (by decide) (hdigits ▸ List.mem_cons_self)
    have hminus : c ≠ '-' := by
      rintro rfl
      cases hc
    simp [readNumber, hminus]

theorem readNumber_integer {n : Int} (h : Number.fits n = true) :
    readNumber (integerChars n) = some (.integer n, []) := by
  simp only [Number.fits, Bool.and_eq_true, decide_eq_true_iff] at h
  have hvalue := digitsValue_toDigits n.natAbs
  unfold integerChars
  by_cases hneg : n < 0
  · have hnat : -(n.natAbs : Int) = n := by omega
    rw [if_pos hneg, readNumber, readMagnitude_toDigits, numberOf, hvalue]
    rw [if_pos rfl, if_neg (by omega), hnat]
    rfl
  · have hnat : (n.natAbs : Int) = n := by omega
    rw [if_neg hneg, readNumber_toDigits, readMagnitude_toDigits, numberOf, hvalue]
    rw [if_neg (by decide), if_pos (by omega), hnat]
    rfl

theorem skipBlank_append {bs : List Char} (h : ∀ c ∈ bs, isBlank c = true) (cs : List Char) :
    skipBlank (bs ++ cs) = skipBlank cs :=
  List.dropWhile_append_of_pos h

theorem skipBlank_cons {c : Char} (h : isBlank c = false) (cs : List Char) :
    skipBlank (c :: cs) = c :: cs :=
  List.dropWhile_cons_of_neg (by rw [h]; decide)

theorem skipBlank_quoted (s : String) (cs : List Char) :
    skipBlank (quoted s ++ cs) = quoted s ++ cs := skipBlank_cons rfl _

theorem skipBlank_colon (cs : List Char) : skipBlank (':' :: cs) = ':' :: cs :=
  skipBlank_cons rfl cs

section
variable {fuel depth : Nat} {bs : List Char} (h : ∀ c ∈ bs, isBlank c = true) (cs : List Char)
include h

theorem readValue_blanks : readValue fuel depth (bs ++ cs) = readValue fuel depth cs := by
  cases fuel with
  | zero => rfl
  | succ fuel => rw [readValue, readValue, skipBlank_append h]

theorem readItems_blanks : readItems fuel depth (bs ++ cs) = readItems fuel depth cs := by
  cases fuel with
  | zero => rfl
  | succ fuel => rw [readItems, readItems, readValue_blanks h]

theorem readFields_blanks : readFields fuel depth (bs ++ cs) = readFields fuel depth cs := by
  cases fuel with
  | zero => rfl
  | succ fuel => rw [readFields, readFields, skipBlank_append h]

theorem stops_blanks {c : Char} (hc : c.isDigit = false ∧ c ≠ '.' ∧ c ≠ 'e' ∧ c ≠ 'E') :
    Stops (bs ++ c :: cs) := by
  cases bs with
  | nil => exact stops_cons hc
  | cons b bs =>
    have hb := h b List.mem_cons_self
    simp only [isBlank, Bool.or_eq_true, beq_iff_eq] at hb
    apply stops_cons
    rcases hb with ((rfl | rfl) | rfl) | rfl <;> decide

end

theorem readValue_space {fuel depth : Nat} (cs : List Char) :
    readValue fuel depth (' ' :: cs) = readValue fuel depth cs :=
  readValue_blanks (List.forall_mem_singleton.mpr rfl) cs

end Reader

mutual

/-- Whether a reader that may open `depth` arrays or objects takes the text of the value back: the
value nests no deeper, its integers have at most 64 bits, and its decimals are those that their
texts are read as. -/
def recoverable (depth : Nat) : Json → Bool
  | .array items => depth != 0 && recoverableItems (depth - 1) items
  | .object fields => depth != 0 && recoverableFields (depth - 1) fields
  | .number (.integer n) => Number.fits n
  | .number (.decimal x) =>
    decide (Reader.readNumber (Layout.json.chars x) = some (.decimal x, []))
  | .null => true
  | .bool _ => true
  | .string _ => true

def recoverableItems (depth : Nat) : List Json → Bool
  | [] => true
  | v :: rest => recoverable depth v && recoverableItems depth rest

def recoverableFields (depth : Nat) : List (String × Json) → Bool
  | [] => true
  | (_, v) :: rest => recoverable depth v && recoverableFields depth rest

end

theorem recoverableItems_iff {depth : Nat} {items : List Json} :
    recoverableItems depth items = true ↔ ∀ v ∈ items, recoverable depth v = true := by
  induction items with
  | nil => simp [recoverableItems]
  | cons v rest ih => simp [recoverableItems, ih]

namespace Reader

variable {indent rest : List Char} {depth level : Nat}

/-- A value is read back from its indented form, whatever follows it. -/
def Returns (indent : List Char) (depth : Nat) (v : Json) : Prop :=
  ∀ (fuel level : Nat) (rest : List Char), (indentedChars indent level v).length ≤ fuel →
    Stops rest → readValue fuel depth (indentedChars indent level v ++ rest) = some (v, rest)

theorem readNumber_numberChars {n : Number} (h : recoverable depth (.number n) = true) :
    readNumber (numberChars n) = some (n, []) := by
  cases n with
  | integer n => exact readNumber_integer h
  | decimal x => exact of_decide_eq_true h

theorem numberChars_eq_cons {n : Number} (h : recoverable depth (.number n) = true) :
    ∃ c cs, numberChars n = c :: cs ∧ (c.isDigit = true ∨ c = '-') := by
  have hread := readNumber_numberChars h
  cases hchars : numberChars n with
  | nil =>
    rw [hchars] at hread
    cases hread
  | cons c cs =>
    rw [hchars] at hread
    exact ⟨c, cs, rfl, initial_of_readNumber hread⟩

theorem returns_null : Returns indent depth .null := by
  intro fuel level rest hfuel _
  cases fuel with
  | zero => cases hfuel
  | succ fuel => rfl

theorem returns_bool (b : Bool) : Returns indent depth (.bool b) := by
  intro fuel level rest hfuel _
  cases fuel with
  | zero => cases b <;> cases hfuel
  | succ fuel => cases b <;> rfl

theorem returns_string (s : String) : Returns indent depth (.string s) := by
  intro fuel level rest hfuel _
  cases fuel with
  | zero => cases hfuel
  | succ fuel =>
    rw [indentedChars, readValue, skipBlank_quoted]
    simp only [quoted, List.cons_append, List.append_assoc, List.nil_append, readText_escapes,
      Option.map_some, String.ofList_toList]

theorem initial_ne {c d : Char} (hc : c.isDigit = true ∨ c = '-')
    (hd : d ∈ [' ', '\n', '\r', '\t', '\"', '[', ']', '\x7b', 'n', 't', 'f']) : c ≠ d := by
  rintro rfl
  have hnone : [' ', '\n', '\r', '\t', '\"', '[', ']', '\x7b', 'n', 't', 'f'].all
      (fun c => !c.isDigit && c != '-') = true := by decide
  have hother := List.all_eq_true.mp hnone c hd
  rcases hc with hdigit | rfl
  · rw [hdigit] at hother
    cases hother
  · cases hother

theorem isBlank_initial {c : Char} (hc : c.isDigit = true ∨ c = '-') : isBlank c = false := by
  simp [isBlank, initial_ne hc]

theorem readValue_number {fuel : Nat} {c : Char} {cs : List Char} {n : Number}
    (hc : c.isDigit = true ∨ c = '-') (h : readNumber (c :: cs) = some (n, rest)) :
    readValue (fuel + 1) depth (c :: cs) = some (.number n, rest) := by
  rw [readValue, skipBlank_cons (isBlank_initial hc)]
  simp [initial_ne hc, h]

theorem returns_number {n : Number} (h : recoverable depth (.number n) = true) :
    Returns indent depth (.number n) := by
  intro fuel level rest hfuel hrest
  obtain ⟨c, cs, hchars, hc⟩ := numberChars_eq_cons h
  have hread := readNumber_append hrest (readNumber_numberChars h)
  rw [indentedChars, hchars] at hfuel ⊢
  rw [hchars, List.cons_append] at hread
  cases fuel with
  | zero => cases hfuel
  | succ fuel => exact readValue_number hc hread

theorem indentedChars_eq_cons (indent : List Char) (level : Nat) {v : Json}
    (h : v.recoverable depth = true) :
    ∃ c cs, indentedChars indent level v = c :: cs ∧ isBlank c = false ∧ c ≠ ']' := by
  cases v with
  | number n =>
    obtain ⟨c, cs, hchars, hc⟩ := numberChars_eq_cons h
    exact ⟨c, cs, hchars, isBlank_initial hc, initial_ne hc (by decide)⟩
  | array items =>
    rw [indentedChars, block]
    split <;> exact ⟨_, _, rfl, rfl, by decide⟩
  | object fields =>
    rw [indentedChars, block]
    split <;> exact ⟨_, _, rfl, rfl, by decide⟩
  | bool b => cases b <;> exact ⟨_, _, rfl, rfl, by decide⟩
  | _ => exact ⟨_, _, rfl, rfl, by decide⟩

theorem isBlank_lineBreak (hindent : ∀ c ∈ indent, isBlank c = true) (level : Nat) :
    ∀ c ∈ lineBreak indent level, isBlank c = true := by
  intro c hc
  rcases List.mem_cons.mp hc with rfl | hc
  · rfl
  · obtain ⟨_, hcopy, hc⟩ := List.mem_flatten.mp hc
    rw [List.eq_of_mem_replicate hcopy] at hc
    exact hindent c hc

section
variable {fuel : Nat} {v : Json} {cs tail more : List Char}

theorem readFields_last (k : String) (hvalue : readValue fuel depth cs = some (v, tail))
    (htail : skipBlank tail = '\x7d' :: rest) :
    readFields (fuel + 1) depth (quoted k ++ ':' :: ' ' :: cs) = some ([(k, v)], rest) := by
  rw [readFields, skipBlank_quoted]
  simp [quoted, readText_escapes, skipBlank_colon, readValue_space, hvalue, htail]

theorem readFields_more {fields : Fields Json} (k : String)
    (hvalue : readValue fuel depth cs = some (v, tail)) (htail : skipBlank tail = ',' :: more)
    (hmore : readFields fuel depth more = some (fields, rest)) :
    readFields (fuel + 1) depth (quoted k ++ ':' :: ' ' :: cs) =
      some ((k, v) :: fields, rest) := by
  rw [readFields, skipBlank_quoted]
  simp [quoted, readText_escapes, skipBlank_colon, readValue_space, hvalue, htail, hmore]

end

section
variable {fuel : Nat} {brk after : List Char} (hbrk : ∀ c ∈ brk, isBlank c = true)
  (hafter : ∀ c ∈ after, isBlank c = true)
include hbrk hafter

theorem readItems_separated {v : Json} {items : List Json} (rest : List Char)
    (hitems : ∀ w ∈ v :: items, Returns indent depth w)
    (hfuel : (separated (',' :: brk) (indentedItems indent level (v :: items))).length < fuel) :
    readItems fuel depth (separated (',' :: brk) (indentedItems indent level (v :: items)) ++
      (after ++ ']' :: rest)) = some (v :: items, rest) := by
  induction items generalizing v fuel with
  | nil =>
    cases fuel with
    | zero => cases hfuel
    | succ fuel =>
      have hvalue := hitems v List.mem_cons_self fuel level (after ++ ']' :: rest)
        (Nat.le_of_lt_succ hfuel) (stops_blanks hafter _ (by decide))
      rw [readItems]
      simp only [indentedItems, separated, hvalue, skipBlank_append hafter]
      rfl
  | cons w items ih =>
    cases fuel with
    | zero => cases hfuel
    | succ fuel =>
      have hsplit : separated (',' :: brk) (indentedItems indent level (v :: w :: items)) =
          indentedChars indent level v ++ ',' :: (brk ++
            separated (',' :: brk) (indentedItems indent level (w :: items))) := by
        simp [indentedItems, separated]
      rw [hsplit] at hfuel ⊢
      simp only [List.length_append, List.length_cons] at hfuel
      have hvalue := hitems v List.mem_cons_self fuel level
        (',' :: (brk ++ separated (',' :: brk) (indentedItems indent level (w :: items)) ++
          (after ++ ']' :: rest))) (by omega) (stops_cons (by decide))
      have hlength : (separated (',' :: brk) (indentedItems indent level (w :: items))).length <
          fuel := by omega
      -- every item takes one step of fuel and is followed by a comma, so that the fuel lasts
      have hmore := ih (fun x hx => hitems x (List.mem_cons_of_mem _ hx)) hlength
      rw [readItems, List.append_assoc, List.cons_append, hvalue]
      dsimp only
      rw [skipBlank_cons rfl]
      simp only [List.append_assoc, readItems_blanks hbrk, hmore, Option.map_some]

theorem readFields_separated {f : String × Json} {fields : Fields Json} (rest : List Char)
    (hfields : ∀ g ∈ f :: fields, Returns indent depth g.2)
    (hfuel : (separated (',' :: brk) (indentedFields indent level (f :: fields))).length < fuel) :
    readFields fuel depth (separated (',' :: brk) (indentedFields indent level (f :: fields)) ++
      (after ++ '\x7d' :: rest)) = some (f :: fields, rest) := by
  induction fields generalizing f fuel with
  | nil =>
    cases fuel with
    | zero => cases hfuel
    | succ fuel =>
      obtain ⟨k, v⟩ := f
      simp only [indentedFields, separated, List.length_append, List.length_cons] at hfuel ⊢
      have hvalue := hfields (k, v) List.mem_cons_self fuel level (after ++ '\x7d' :: rest)
        (by dsimp only; omega) (stops_blanks hafter _ (by decide))
      simp only [List.append_assoc, List.cons_append]
      exact readFields_last k hvalue ((skipBlank_append hafter _).trans (skipBlank_cons rfl _))
  | cons g fields ih =>
    cases fuel with
    | zero => cases hfuel
    | succ fuel =>
      obtain ⟨k, v⟩ := f
      have hsplit : separated (',' :: brk) (indentedFields indent level ((k, v) :: g :: fields)) =
          quoted k ++ ':' :: ' ' :: (indentedChars indent level v ++ ',' :: (brk ++
            separated (',' :: brk) (indentedFields indent level (g :: fields)))) := by
        simp [indentedFields, separated]
      rw [hsplit] at hfuel ⊢
      simp only [List.length_append, List.length_cons] at hfuel
      have hvalue := hfields (k, v) List.mem_cons_self fuel level
        (',' :: (brk ++ separated (',' :: brk) (indentedFields indent level (g :: fields)) ++
          (after ++ '\x7d' :: rest))) (by dsimp only; omega) (stops_cons (by decide))
      have hlength : (separated (',' :: brk) (indentedFields indent level (g :: fields))).length <
          fuel := by omega
      have hmore := ih (fun x hx => hfields x (List.mem_cons_of_mem _ hx)) hlength
      simp only [List.append_assoc, List.cons_append] at hvalue ⊢
      exact readFields_more k hvalue (skipBlank_cons rfl _) ((readFields_blanks hbrk _).trans hmore)

end

section
variable {fuel : Nat} {bs cs : List Char} {c : Char}

theorem readValue_items {items : List Json} (hbs : ∀ c ∈ bs, isBlank c = true)
    (hc : isBlank c = false) (hne : c ≠ ']')
    (h : readItems fuel depth (c :: cs) = some (items, rest)) :
    readValue (fuel + 1) (depth + 1) ('[' :: (bs ++ c :: cs)) = some (.array items, rest) := by
  rw [readValue, skipBlank_cons rfl]
  simp [skipBlank_append hbs, skipBlank_cons hc, hne, h]

theorem readValue_fields {pairs : Fields Json} (hbs : ∀ c ∈ bs, isBlank c = true)
    (hc : isBlank c = false) (hne : c ≠ '\x7d')
    (h : readFields fuel depth (c :: cs) = some (pairs, rest)) :
    readValue (fuel + 1) (depth + 1) ('\x7b' :: (bs ++ c :: cs)) =
      some (.object (Fields.ofPairs pairs), rest) := by
  rw [readValue, skipBlank_cons rfl]
  simp [skipBlank_append hbs, skipBlank_cons hc, hne, h]

end

theorem separated_eq_append (separator piece : List Char) (pieces : List (List Char)) :
    ∃ tail, separated separator (piece :: pieces) = piece ++ tail := by
  cases pieces with
  | nil => exact ⟨[], (List.append_nil _).symm⟩
  | cons next pieces => exact ⟨_, List.append_assoc _ _ _⟩

theorem length_block {opening closing : Char} (pieces : List (List Char)) :
    (separated (',' :: lineBreak indent (level + 1)) pieces).length + 2 ≤
      (block indent level opening closing pieces).length := by
  cases pieces with
  | nil => exact Nat.le_refl 2
  | cons piece pieces =>
    rw [block, List.isEmpty_cons, if_neg (by decide)]
    simp only [List.length_append, List.length_cons]
    omega

section
variable (hindent : ∀ c ∈ indent, isBlank c = true)
include hindent

theorem returns_array {items : List Json}
    (h : ∀ v ∈ items, v.recoverable depth = true ∧ Returns indent depth v) :
    Returns indent (depth + 1) (.array items) := by
  intro fuel level rest hfuel _
  have hlength := (length_block _).trans hfuel
  cases fuel with
  | zero => omega
  | succ fuel =>
    cases items with
    | nil => rfl
    | cons v items =>
      have hblock : indentedChars indent level (.array (v :: items)) ++ rest =
          '[' :: (lineBreak indent (level + 1) ++
            (separated (',' :: lineBreak indent (level + 1))
              (indentedItems indent (level + 1) (v :: items)) ++
            (lineBreak indent level ++ ']' :: rest))) := by
        simp [indentedChars, block, indentedItems]
      have hshort : (separated (',' :: lineBreak indent (level + 1))
          (indentedItems indent (level + 1) (v :: items))).length < fuel := by omega
      have hitems := readItems_separated (isBlank_lineBreak hindent (level + 1))
        (isBlank_lineBreak hindent level) rest (fun w hw => (h w hw).2) hshort
      obtain ⟨c, cs, hfirst, hblank, hne⟩ :=
        indentedChars_eq_cons indent (level + 1) (h v List.mem_cons_self).1
      obtain ⟨tail, hseparated⟩ := separated_eq_append (',' :: lineBreak indent (level + 1))
        (indentedChars indent (level + 1) v) (indentedItems indent (level + 1) items)
      rw [hblock]
      rw [indentedItems, hseparated, hfirst] at hitems ⊢
      simp only [List.cons_append] at hitems ⊢
      exact readValue_items (isBlank_lineBreak hindent _) hblank hne hitems

theorem returns_object {fields : Fields Json} (hnodup : (Fields.names fields).Nodup)
    (h : ∀ f ∈ fields, Returns indent depth f.2) :
    Returns indent (depth + 1) (.object fields) := by
  intro fuel level rest hfuel _
  have hlength := (length_block _).trans hfuel
  cases fuel with
  | zero => omega
  | succ fuel =>
    cases fields with
    | nil => rfl
    | cons f fields =>
      have hblock : indentedChars indent level (.object (f :: fields)) ++ rest =
          '\x7b' :: (lineBreak indent (level + 1) ++
            (separated (',' :: lineBreak indent (level + 1))
              (indentedFields indent (level + 1) (f :: fields)) ++
            (lineBreak indent level ++ '\x7d' :: rest))) := by
        simp [indentedChars, block, indentedFields]
      have hshort : (separated (',' :: lineBreak indent (level + 1))
          (indentedFields indent (level + 1) (f :: fields))).length < fuel := by omega
      have hfields := readFields_separated (isBlank_lineBreak hindent (level + 1))
        (isBlank_lineBreak hindent level) rest h hshort
      obtain ⟨tail, hseparated⟩ := separated_eq_append (',' :: lineBreak indent (level + 1))
        (quoted f.1 ++ ':' :: ' ' :: indentedChars indent (level + 1) f.2)
        (indentedFields indent (level + 1) fields)
      rw [hblock]
      rw [indentedFields, hseparated, quoted] at hfields ⊢
      simp only [List.cons_append] at hfields ⊢
      rw [readValue_fields (isBlank_lineBreak hindent _) rfl (by decide) hfields,
        Fields.ofPairs_of_nodup hnodup]

end

mutual

theorem returns (hindent : ∀ c ∈ indent, isBlank c = true) : ∀ (v : Json) (depth : Nat),
    v.recoverable depth = true → v.distinct = true → Returns indent depth v
  | .null, _, _, _ => returns_null
  | .bool b, _, _, _ => returns_bool b
  | .number _, _, h, _ => returns_number h
  | .string s, _, _, _ => returns_string s
  | .array items, depth + 1, h, hdistinct =>
    returns_array hindent (returns_items hindent items depth h hdistinct)
  | .object fields, depth + 1, h, hdistinct =>
    returns_object hindent (distinct_object.mp hdistinct).1
      (returns_fields hindent fields depth h hdistinct)

theorem returns_items (hindent : ∀ c ∈ indent, isBlank c = true) : ∀ (items : List Json)
    (depth : Nat), recoverableItems depth items = true → distinctItems items = true →
    ∀ v ∈ items, v.recoverable depth = true ∧ Returns indent depth v
  | [], _, _, _ => fun _ hv => nomatch hv
  | v :: rest, depth, h, hdistinct => by
    simp only [recoverableItems, distinctItems, Bool.and_eq_true] at h hdistinct
    exact List.forall_mem_cons.mpr ⟨⟨h.1, returns hindent v depth h.1 hdistinct.1⟩,
      returns_items hindent rest depth h.2 hdistinct.2⟩

theorem returns_fields (hindent : ∀ c ∈ indent, isBlank c = true) :
    ∀ (fields : List (String × Json)) (depth : Nat), recoverableFields depth fields = true →
    distinctFields fields = true →
    ∀ f ∈ fields, Returns indent depth f.2
  | [], _, _, _ => fun _ hf => nomatch hf
  | (_, v) :: rest, depth, h, hdistinct => by
    simp only [recoverableFields, distinctFields, Bool.and_eq_true] at h hdistinct
    exact List.forall_mem_cons.mpr ⟨returns hindent v depth h.1 hdistinct.1.2,
      returns_fields hindent rest depth h.2 hdistinct.2⟩

end

end Reader

/-- A value that is within a reader's reach is read back from its text exactly when no object of it
names a field twice. -/
theorem read?_tabbed_eq_some_iff {v : Json} (h : v.recoverable Reader.maxDepth = true) :
    read? v.tabbed = some v ↔ v.distinct = true := by
  refine ⟨distinct_of_read?, fun hdistinct => ?_⟩
  have hindent : ∀ c ∈ ['\t'], Reader.isBlank c = true := List.forall_mem_singleton.mpr rfl
  have hreturns := Reader.returns hindent v Reader.maxDepth h hdistinct
  have htext : v.tabbed.toList = indentedChars ['\t'] 0 v ++ ['\n'] := String.toList_ofList
  have hvalue := hreturns (v.tabbed.toList.length + 1) 0 ['\n'] (by rw [htext]; simp; omega)
    (Reader.stops_cons (by decide))
  rw [← htext] at hvalue
  unfold read?
  dsimp only
  rw [hvalue]
  rfl

theorem read?_ofStrings (ss : List String) :
    read? (ofStrings ss).tabbed = some (ofStrings ss) := by
  have hstrings : ∀ v ∈ ss.map Json.string, ∀ depth, v.recoverable depth = true ∧
      v.distinct = true := by
    intro v hv depth
    obtain ⟨s, -, rfl⟩ := List.mem_map.mp hv
    exact ⟨rfl, rfl⟩
  have hrecoverable : (ofStrings ss).recoverable Reader.maxDepth = true :=
    recoverableItems_iff.mpr fun v hv => (hstrings v hv _).1
  exact (read?_tabbed_eq_some_iff hrecoverable).mpr
    (distinct_array.mpr fun v hv => (hstrings v hv 0).2)

end RadioDriver.Json
