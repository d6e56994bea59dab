import RadioDriver.Json.Basic

namespace RadioDriver

/-- The declarations of one kind in the order of their ids' first appearance. Every change gives the
pool a new snapshot number, so that answers about one state are not taken for answers about
another. -/
structure Pool where
  declarations : Fields Json
  /-- The number of this state. -/
  snapshot : Nat

namespace Pool

def empty (snapshot : Nat) : Pool := ⟨[], snapshot⟩

/-- Adds or replaces declarations by id, under the snapshot number `fresh`. Nothing added is no
change. -/
def extend (pool : Pool) (declarations : Fields Json) (fresh : Nat) : Pool :=
  if declarations.isEmpty then pool
  else ⟨Fields.override pool.declarations declarations, fresh⟩

/-- An extended pool is as it was, or stands under the fresh number. -/
theorem extend_eq_or (pool : Pool) (declarations : Fields Json) (fresh : Nat) :
    pool.extend declarations fresh = pool ∨ (pool.extend declarations fresh).snapshot = fresh := by
  unfold extend
  split
  · exact .inl rfl
  · exact .inr rfl

theorem extend_declarations (pool : Pool) (declarations : Fields Json) (fresh : Nat) :
    (pool.extend declarations fresh).declarations =
      Fields.override pool.declarations declarations := by
  unfold extend
  split
  · next h => rw [List.isEmpty_iff.mp h]; rfl
  · rfl

def get? (pool : Pool) (id : String) : Option Json := Fields.get? pool.declarations id

def contains (pool : Pool) (id : String) : Bool := Fields.contains pool.declarations id

def ids (pool : Pool) : List String := Fields.names pool.declarations

def size (pool : Pool) : Nat := pool.declarations.length

def unvisited (pool : Pool) (chain : List String) : Nat :=
  (pool.ids.filter fun id => id ∉ chain).length

/-- A chain that grows by a declared id leaves fewer ids unvisited. -/
theorem unvisited_lt {pool : Pool} {chain : List String} {id : String} {v : Json}
    (h : pool.get? id = some v) (hc : id ∉ chain) :
    pool.unvisited (chain ++ [id]) < pool.unvisited chain := by
  have hm : id ∈ pool.ids := Fields.mem_names_of_get? h
  unfold unvisited
  generalize pool.ids = ids at hm ⊢
  have key : ∀ l : List String,
      (l.filter fun x => x ∉ chain ++ [id]).length + (if id ∈ l then 1 else 0)
        ≤ (l.filter fun x => x ∉ chain).length := by
    intro l
    induction l with
    | nil => simp
    | cons x l ih =>
      by_cases hx : x = id
      · subst hx
        by_cases hl : x ∈ l
        · simp_all
          omega
        · simp_all
      · by_cases hxc : x ∈ chain
        · simp_all [Ne.symm hx]
        · simp_all [Ne.symm hx]
          omega
  have := key ids
  simp only [hm, if_true] at this
  omega

end Pool

end RadioDriver
