import Mathlib.Data.List.Permutation
import RadioDriver.Proofs.Locale.Persistence
import RadioDriver.Proofs.Locale.Unmarked

namespace RadioDriver

namespace LocaleTable

variable {t edited : LocaleTable} {path text language : String} {fields : Fields Json}

end LocaleTable

namespace Backfill

variable {builtin : Catalog} {path place language text : String} {paths : List String}
  {tables tables' : Fields LocaleTable} {t t' : LocaleTable} {missing : List MissingText}

theorem Fills.authored? (h : Fills builtin path language t t')
    (ha : t.authored? place = some text) : t'.authored? place = some text := by
  by_cases hplace : place = path
  · subst hplace
    have hvalue := h.value
    have hprovenance := h.provenance
    rw [cell, ha] at hvalue hprovenance
    have hfallback := LocaleTable.isFallback_of_provenance? hprovenance
    obtain ⟨-, hkeep⟩ := Option.filter_eq_some_iff.mp ha
    rw [LocaleTable.authored?_of_get? hvalue, hfallback]
    simp only [Bool.and_eq_true] at hkeep
    simpa [Json.string?] using hkeep.1
  · rw [h.authored?_of_ne hplace, ha]

end Backfill

namespace Disk

variable {d d' : Disk} {directory path name other : String} {bytes : ByteArray}

end Disk

namespace LocaleStore

variable {s : LocaleStore} {policy : MarkerPolicy} {c : Catalog} {d d' : Disk}
  {language path text file : String} {table edited : LocaleTable}
  {entry : String × LocaleTable}

end LocaleStore

namespace LocaleStore

variable {s : LocaleStore} {policy : MarkerPolicy} {c : Catalog} {d d' d₁ d₂ : Disk}
  {language path text file : String} {table edited : LocaleTable} {placed : List String}

section Edited

variable (hlanguage : IsLanguage language) (hclean : table.Clean)
  (hmark : Locale.isMarked text = false)
include hlanguage hclean hmark

variable (hpath : path ∈ table.fallback)
include hpath

end Edited

end LocaleStore

end RadioDriver
