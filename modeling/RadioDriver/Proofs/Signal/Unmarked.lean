import RadioDriver.Proofs.Json.Unambiguous
import RadioDriver.Proofs.Locale.Unmarked
import RadioDriver.Proofs.Signal.Identity

namespace RadioDriver

open RadioDriver.Json RadioDriver.Locale

theorem not_mem_numberChars (n : Number) : fillMark ∉ numberChars n := by
  have hdigits : ∀ n : Nat, fillMark ∉ Nat.toDigits 10 n := by
    intro n hmem
    exact absurd (Nat.isDigit_of_mem_toDigits (by decide) (by decide) hmem) (by decide)
  cases n with
  | integer n =>
    have hsign : fillMark ≠ '-' := by decide
    show fillMark ∉ integerChars n
    unfold integerChars
    split <;> simp [hsign, hdigits]
  | decimal x =>
    intro hmem
    exact absurd (Layout.isNumeral_chars hmem) (by decide)

theorem Number.isUnmarked_render (n : Number) : isUnmarked n.render = true := by
  apply isUnmarked_of_not_mem
  rw [Number.render, String.toList_ofList]
  exact not_mem_numberChars n

theorem Json.isUnmarked_compact (v : Json) : isUnmarked v.compact = true := by
  have hlast : ∀ (first last : Char) (cs : List Char), last ≠ fillMark →
      isUnmarked (String.ofList (first :: (cs ++ [last]))) = true := by
    intro first last cs h
    have hends : (first :: (cs ++ [last])).getLast? = some last := by
      rw [← List.cons_append, List.getLast?_concat]
    exact isUnmarked_spelled rfl (by simpa [hends] using h)
  cases v with
  | null => decide
  | bool b => cases b <;> decide
  | number n => exact n.isUnmarked_render
  | string s => exact hlast _ _ _ (by decide)
  | array items => exact hlast _ _ _ (by decide)
  | object fields => exact hlast _ _ _ (by decide)

theorem Sha256.isUnmarked_hex (message : List UInt8) : isUnmarked (Sha256.hex message) = true := by
  apply isUnmarked_of_not_mem
  rw [Sha256.hex, String.toList_ofList]
  intro hmem
  obtain ⟨w, -, hmem⟩ := List.mem_flatMap.mp hmem
  obtain ⟨i, -, hdigit⟩ := List.mem_map.mp hmem
  have hdigits : ∀ n < 16, Nat.digitChar n ≠ fillMark := by decide
  exact hdigits _ (Nat.mod_lt _ (by decide)) hdigit

namespace Signal

variable {r r' : Registry} {definition : Json} {content : Fields Json} {a : Registration}

/-- Neither the id nor the content of the entry holds a marked text. -/
structure Entry.Unmarked (e : Entry) : Prop where
  id : isUnmarked e.id = true
  content : allFieldTexts isUnmarked e.content = true

/-- All entries are unmarked. -/
def Registry.Unmarked (r : Registry) : Prop := ∀ e ∈ r.entries, e.Unmarked

theorem Registry.allTexts_clamp (r : Registry) (h : definition.allTexts isUnmarked = true) :
    (r.clamp definition).allTexts isUnmarked = true := by
  unfold clamp
  split
  · split
    · split
      · apply allFieldTexts_set h
        cases r.ceiling <;> rfl
      · exact h
    · exact h
  · exact h

theorem allFieldTexts_contentOf (h : definition.allTexts isUnmarked = true)
    (hcontent : contentOf definition = .ok content) : allFieldTexts isUnmarked content = true := by
  cases definition with
  | object fields =>
    cases hcontent
    exact allFieldTexts_filter (allFieldTexts_filter h _) _
  | _ => cases hcontent

theorem isUnmarked_suppliedId {id : String} (h : definition.allTexts isUnmarked = true)
    (hid : suppliedId definition = .ok (some id)) : isUnmarked id = true := by
  unfold suppliedId at hid
  split at hid
  · cases hid
  · cases hid
  · next hfield =>
    cases hid
    exact allTexts_of_field? h hfield
  · next n _ =>
    cases hid
    exact n.isUnmarked_render
  · cases hid

/-- Registering an unmarked definition keeps the registry unmarked and answers about one of its
entries. -/
theorem Registry.Unmarked.register (h : r.Unmarked)
    (hdefinition : definition.allTexts isUnmarked = true)
    (hreg : r.register definition = .ok (a, r')) :
    r'.Unmarked ∧ ∃ entry ∈ r'.entries, ∃ isNew, a = answer entry isNew := by
  obtain ⟨-, content, supplied, hcontent, hsupplied,
    ⟨entry, hexisting, rfl, rfl⟩ | ⟨commands, -, -, -, rfl, rfl⟩⟩ := cases_of_register hreg
  · exact ⟨h, entry, existing?_mem hexisting, false, rfl⟩
  · refine ⟨?_, _, List.mem_append_right _ List.mem_cons_self, true, rfl⟩
    intro e he
    rcases List.mem_append.mp he with hold | hnew
    · exact h e hold
    rw [List.mem_singleton.mp hnew]
    refine ⟨?_, allFieldTexts_contentOf (r.allTexts_clamp hdefinition) hcontent⟩
    cases supplied with
    | some id => exact isUnmarked_suppliedId hdefinition hsupplied
    | none => exact Sha256.isUnmarked_hex _

end Signal

end RadioDriver
