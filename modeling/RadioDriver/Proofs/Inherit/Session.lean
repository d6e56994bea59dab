import RadioDriver.Proofs.Inherit.Memory

namespace RadioDriver

/-- What a resolver may be asked about a pool. -/
inductive Session.Query
  | entity (name : String)
  | all
  | detached (id : String) (declaration : Json)

/-- The answer to a query. -/
inductive Session.Answer
  | entity (result : Except ResolveError Entity)
  | entities (result : Except ResolveError (Fields Entity))

def Resolver.ask (rules : Rules) (r : Resolver) (pool : Pool) :
    Session.Query → Session.Answer × Resolver
  | .entity name =>
    let (result, r) := r.resolve rules pool name
    (.entity result, r)
  | .all =>
    let (result, r) := r.resolveAll rules pool
    (.entities result, r)
  | .detached id declaration =>
    let (result, r) := r.resolveDetached rules pool id declaration
    (.entity result, r)

/-- A resolver with the pools it is asked about. -/
structure Session where
  pools : List Pool
  resolver : Resolver
  /-- The next unused snapshot number. -/
  fresh : Nat

namespace Session

/-- A step of a session. Pools are named by the order they were obtained in. -/
inductive Move
  | create
  | clone (pool : Nat)
  | extend (pool : Nat) (declarations : Fields Json)
  | ask (pool : Nat) (query : Query)

def start : Session := ⟨[], {}, 0⟩

/-- The session after a move, and the answer if something was asked. -/
def step (rules : Rules) (s : Session) : Move → Option Answer × Session
  | .create => (none, { s with pools := s.pools ++ [.empty s.fresh], fresh := s.fresh + 1 })
  | .clone i =>
    match s.pools[i]? with
    | none => (none, s)
    | some pool => (none, { s with pools := s.pools ++ [pool] })
  | .extend i declarations =>
    match s.pools[i]? with
    | none => (none, s)
    | some pool =>
      (none, { s with
        pools := s.pools.set i (pool.extend declarations s.fresh), fresh := s.fresh + 1 })
  | .ask i query =>
    match s.pools[i]? with
    | none => (none, s)
    | some pool =>
      let (answer, resolver) := s.resolver.ask rules pool query
      (some answer, { s with resolver })

/-- The answers of a session that keeps its resolver. -/
def answers (rules : Rules) : Session → List Move → List (Option Answer)
  | _, [] => []
  | s, move :: rest =>
    let (answer, s) := s.step rules move
    answer :: answers rules s rest

/-- The answers of a session that takes a new resolver for every move. -/
def freshAnswers (rules : Rules) : Session → List Move → List (Option Answer)
  | _, [] => []
  | s, move :: rest =>
    let (answer, s) := step rules { s with resolver := {} } move
    answer :: freshAnswers rules s rest

/-- Snapshot numbers are in use below `fresh` only, pools under one number hold the same
declarations, and the resolver is sound for every pool. -/
structure Coherent (rules : Rules) (s : Session) : Prop where
  pool_lt : ∀ pool ∈ s.pools, pool.snapshot < s.fresh
  memory_lt : ∀ n, s.resolver.snapshot = some n → n < s.fresh
  same : ∀ p ∈ s.pools, ∀ q ∈ s.pools, p.snapshot = q.snapshot → p.declarations = q.declarations
  sound : ∀ pool ∈ s.pools, s.resolver.SoundFor rules pool

variable {rules : Rules} {s : Session}

theorem start_coherent (rules : Rules) : start.Coherent rules where
  pool_lt := by simp [start]
  memory_lt := by simp [start]
  same := by simp [start]
  sound := by simp [start]

/-- Coherence survives a pool that is a copy of another or stands under an unused number. -/
theorem Coherent.grow (h : s.Coherent rules) (pool : Pool) {pools : List Pool} {fresh : Nat}
    (hpool : pool ∈ s.pools ∨ pool.snapshot = s.fresh) (hn : pool.snapshot < fresh)
    (hle : s.fresh ≤ fresh) (hsub : ∀ p ∈ pools, p ∈ s.pools ∨ p = pool) :
    Coherent rules ⟨pools, s.resolver, fresh⟩ := by
  have hold : ∀ p ∈ pools, p ∈ s.pools ∨ (p = pool ∧ p.snapshot = s.fresh) := by
    intro p hp
    rcases hsub p hp with hp | rfl
    · exact .inl hp
    · exact hpool.imp id (⟨rfl, ·⟩)
  refine ⟨?_, ?_, ?_, ?_⟩
  · intro p hp
    rcases hsub p hp with hp | rfl
    · exact Nat.lt_of_lt_of_le (h.pool_lt p hp) hle
    · exact hn
  · intro n hm
    exact Nat.lt_of_lt_of_le (h.memory_lt n hm) hle
  · -- the unused number tells the grown pool from every older one
    intro p hp q hq hpq
    rcases hold p hp with hp | ⟨hp, hpn⟩ <;> rcases hold q hq with hq | ⟨hq, hqn⟩
    · exact h.same p hp q hq hpq
    · have := h.pool_lt p hp
      omega
    · have := h.pool_lt q hq
      omega
    · rw [hp, hq]
  · intro p hp
    rcases hold p hp with hp | ⟨-, hpn⟩
    · exact h.sound p hp
    · intro hm
      have := h.memory_lt _ hm
      omega

def answerTo (rules : Rules) (declared : Fields Json) : Query → Answer
  | .entity name => .entity (Lineage.entity rules declared [] name)
  | .all => .entities (Lineage.entities rules declared)
  | .detached id declaration => .entity (Lineage.detached rules declared id declaration)

theorem ask_settles {r : Resolver} {pool : Pool} (h : r.SoundFor rules pool) (query : Query) :
    (r.ask rules pool query).1 = answerTo rules pool.declarations query ∧
      (r.ask rules pool query).2.snapshot = some pool.snapshot ∧
      Inherit.Sound rules pool.declarations (r.ask rules pool query).2.memo := by
  cases query with
  | entity name =>
    have hr := r.resolve_settles h name
    exact ⟨congrArg Answer.entity hr.1, hr.2⟩
  | all =>
    have hr := r.resolveAll_settles h
    exact ⟨congrArg Answer.entities hr.1, hr.2⟩
  | detached id declaration =>
    have hr := r.resolveDetached_settles h id declaration
    exact ⟨congrArg Answer.entity hr.1, hr.2⟩

theorem coherent_step (h : s.Coherent rules) (move : Move) :
    (s.step rules move).2.Coherent rules := by
  cases move with
  | create =>
    apply h.grow (.empty s.fresh) (.inr rfl) (Nat.lt_succ_self _) (Nat.le_succ _)
    intro p hp
    simpa using hp
  | clone i =>
    simp only [Session.step]
    split
    · exact h
    · next pool hi =>
      have hm : pool ∈ s.pools := List.mem_of_getElem? hi
      apply h.grow pool (.inl hm) (h.pool_lt pool hm) (Nat.le_refl _)
      intro p hp
      simpa using hp
  | extend i declarations =>
    simp only [Session.step]
    split
    · exact h
    · next pool hi =>
      have hm : pool ∈ s.pools := List.mem_of_getElem? hi
      have hlt := h.pool_lt pool hm
      have hsub : ∀ p ∈ s.pools.set i (pool.extend declarations s.fresh),
          p ∈ s.pools ∨ p = pool.extend declarations s.fresh :=
        fun p hp => List.mem_or_eq_of_mem_set hp
      rcases pool.extend_eq_or declarations s.fresh with he | he
      · rw [he] at hsub ⊢
        exact h.grow pool (.inl hm) (by omega) (Nat.le_succ _) hsub
      · exact h.grow _ (.inr he) (by omega) (Nat.le_succ _) hsub
  | ask i query =>
    simp only [Session.step]
    split
    · exact h
    · next pool hi =>
      have hm : pool ∈ s.pools := List.mem_of_getElem? hi
      obtain ⟨-, hn, hs⟩ := ask_settles (h.sound pool hm) query
      refine ⟨h.pool_lt, ?_, h.same, ?_⟩
      · intro n hr
        rw [hn] at hr
        cases hr
        exact h.pool_lt pool hm
      · intro p hp hr
        rw [hn] at hr
        -- a pool under the number that the resolver holds now declares what the asked pool does
        rw [h.same p hp pool hm (Option.some.inj hr).symm]
        exact hs

/-- A coherent session answers a move as with a new resolver, and has the same pools after it. -/
theorem step_eq_fresh (h : s.Coherent rules) (move : Move) :
    (s.step rules move).1 = (step rules { s with resolver := {} } move).1 ∧
      (s.step rules move).2.pools = (step rules { s with resolver := {} } move).2.pools ∧
      (s.step rules move).2.fresh = (step rules { s with resolver := {} } move).2.fresh := by
  cases move with
  | create => exact ⟨rfl, rfl, rfl⟩
  | clone i =>
    simp only [step]
    split <;> exact ⟨rfl, rfl, rfl⟩
  | extend i declarations =>
    simp only [step]
    split <;> exact ⟨rfl, rfl, rfl⟩
  | ask i query =>
    simp only [step]
    split
    · exact ⟨rfl, rfl, rfl⟩
    · next pool hi =>
      have hkept := (ask_settles (h.sound pool (List.mem_of_getElem? hi)) query).1
      have hnew := (ask_settles (Resolver.soundFor_new rules pool) query).1
      refine ⟨?_, rfl, rfl⟩
      rw [hkept, hnew]

/-- Sessions with the same pools and numbers answer alike if only one of them has a history. -/
theorem answers_eq_freshAnswers (moves : List Move) {t : Session} (h : s.Coherent rules)
    (hp : s.pools = t.pools) (hf : s.fresh = t.fresh) :
    answers rules s moves = freshAnswers rules t moves := by
  induction moves generalizing s t with
  | nil => rfl
  | cons move rest ih =>
    -- whatever the resolver of the other session is, it takes a new one for the move
    have ht : { t with resolver := {} } = { s with resolver := ({} : Resolver) } := by
      rw [hp, hf]
    obtain ⟨hanswer, hpools, hfresh⟩ := step_eq_fresh h move
    simp only [answers, freshAnswers]
    rw [ht, hanswer, ih (coherent_step h move) hpools hfresh]

/-- Memory is never seen: however moves of one resolver and of pools interleave, every question is
answered as by a new resolver, with the same entity or the same fault. -/
theorem memory_unobservable (rules : Rules) (moves : List Move) :
    answers rules start moves = freshAnswers rules start moves :=
  answers_eq_freshAnswers moves (start_coherent rules) rfl rfl

end Session

end RadioDriver
