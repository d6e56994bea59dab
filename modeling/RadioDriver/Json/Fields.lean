
namespace RadioDriver

/-- Named values in order of first appearance. Setting a name again keeps its place, so a list built
by `set` alone names nothing twice. -/
abbrev Fields (α : Type) := List (String × α)

namespace Fields

variable {α β : Type}

def get? : Fields α → String → Option α
  | [], _ => none
  | (k, v) :: rest, name => if k = name then some v else get? rest name

def contains (fields : Fields α) (name : String) : Bool := (get? fields name).isSome

def names (fields : Fields α) : List String := fields.map (·.1)

/-- Gives a name a value, in its old place or else at the end. -/
def set : Fields α → String → α → Fields α
  | [], name, value => [(name, value)]
  | (k, v) :: rest, name, value =>
    if k = name then (k, value) :: rest else (k, v) :: set rest name value

def erase (fields : Fields α) (name : String) : Fields α := fields.filter (fun f => f.1 ≠ name)

def override (fields overlay : Fields α) : Fields α :=
  overlay.foldl (fun acc f => set acc f.1 f.2) fields

/-- The fields of a list of pairs: a repeated name keeps its first place and its last value. -/
def ofPairs (pairs : List (String × α)) : Fields α := override [] pairs

def mapValues (f : α → β) (fields : Fields α) : Fields β := fields.map fun x => (x.1, f x.2)

theorem get?_set_self (fields : Fields α) (name : String) (value : α) :
    get? (set fields name value) name = some value := by
  induction fields with
  | nil => simp [set, get?]
  | cons f rest ih => by_cases h : f.1 = name <;> simp [set, get?, h, ih]

theorem get?_set_of_ne (fields : Fields α) {name other : String} (value : α) (h : other ≠ name) :
    get? (set fields name value) other = get? fields other := by
  induction fields with
  | nil => simp [set, get?, Ne.symm h]
  | cons f rest ih =>
    obtain ⟨k, v⟩ := f
    by_cases hk : k = name
    · subst hk
      simp [set, get?, Ne.symm h]
    · rw [set, if_neg hk, get?, get?, ih]

theorem get?_erase_self (fields : Fields α) (name : String) :
    get? (erase fields name) name = none := by
  induction fields with
  | nil => rfl
  | cons f rest ih =>
    obtain ⟨k, v⟩ := f
    by_cases h : k = name
    · simpa [erase, h] using ih
    · have : erase ((k, v) :: rest) name = (k, v) :: erase rest name := by simp [erase, h]
      rw [this, get?, if_neg h, ih]

theorem get?_erase_of_ne (fields : Fields α) {name other : String} (h : other ≠ name) :
    get? (erase fields name) other = get? fields other := by
  induction fields with
  | nil => rfl
  | cons f rest ih =>
    obtain ⟨k, v⟩ := f
    by_cases hk : k = name
    · have he : erase ((k, v) :: rest) name = erase rest name := by simp [erase, hk]
      rw [he, ih, get?, if_neg (fun hko => h (hko.symm.trans hk))]
    · have he : erase ((k, v) :: rest) name = (k, v) :: erase rest name := by simp [erase, hk]
      rw [he, get?, get?, ih]

theorem mem_names_of_get? {fields : Fields α} {name : String} {value : α}
    (h : get? fields name = some value) : name ∈ names fields := by
  induction fields with
  | nil => cases h
  | cons f rest ih =>
    obtain ⟨k, v⟩ := f
    by_cases hk : k = name
    · simp [names, hk]
    · rw [get?, if_neg hk] at h
      exact List.mem_cons_of_mem _ (ih h)

end Fields

end RadioDriver
