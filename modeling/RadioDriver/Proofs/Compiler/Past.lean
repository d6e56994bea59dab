import RadioDriver.Proofs.Compiler.Atomicity

namespace RadioDriver.Compiler

/-- The accepted operations on a compiler, in their order. Refused operations and finalizations are
not among them. -/
structure History where
  options : CompilerOptions
  /-- Whether the compiler began with the built-in texts and fragment. -/
  builtins : Bool := false
  transforms : List (String × Signal.Transform) := []
  /-- The fragments that were added, each with its base. -/
  added : List (Fragment × String) := []

namespace History

def after (p : History) : Operation → History
  | .addTransform name transform => { p with transforms := p.transforms ++ [(name, transform)] }
  | .addConfig fragment base => { p with added := p.added ++ [(fragment, base)] }
  | .finalize _ => p

/-- The texts that the compiler began with. -/
def startTexts (p : History) : Catalog := if p.builtins then Builtin.catalog else .empty

/-- Every accepted fragment with its base, the built-in one first. -/
def accepted (p : History) : List (Fragment × String) :=
  (if p.builtins then [(Builtin.fragment, Builtin.base)] else []) ++ p.added

/-- The accepted fragments with their references anchored. -/
def fragments (p : History) : List Fragment :=
  p.accepted.filterMap fun f => (f.1.anchor f.2).toOption

end History

/-- The compilers that operations lead to, each with a history of the accepted ones. -/
inductive Past : History → Compiler → Prop
  | new (options : CompilerOptions) : Past { options } (.new options)
  | withBuiltins {options : CompilerOptions} {c : Compiler}
      (h : Compiler.withBuiltins options = .ok c) : Past { options, builtins := true } c
  | accepted {p : History} {c : Compiler} (h : Past p c) {op : Operation}
      (hok : (c.perform op).1 = .ok ()) : Past (p.after op) (c.perform op).2
  | refused {p : History} {c : Compiler} (h : Past p c) {op : Operation} {e : CompileError}
      (herror : (c.perform op).1 = .error e) : Past p (c.perform op).2

variable {p : History} {c : Compiler}

theorem Past.reachable (h : Past p c) : Reachable c := by
  induction h with
  | new options => exact .new options
  | withBuiltins h => exact .withBuiltins h
  | accepted _ _ ih => exact ih.perform _
  | refused _ _ ih => exact ih.perform _

theorem Reachable.exists_past (h : Reachable c) : ∃ p, Past p c := by
  induction h with
  | new options => exact ⟨_, .new options⟩
  | withBuiltins h => exact ⟨_, .withBuiltins h⟩
  | perform _ op ih =>
    obtain ⟨p, hp⟩ := ih
    rename_i c _
    cases hanswer : (c.perform op).1 with
    | ok u => exact ⟨_, hp.accepted hanswer⟩
    | error e => exact ⟨_, hp.refused hanswer⟩

theorem Past.finalize (h : Past p c) (project : Catalog) : Past p (c.finalize project).2 := by
  cases hanswer : (c.perform (.finalize project)).1 with
  | ok u => exact h.accepted hanswer
  | error e => exact h.refused hanswer

theorem exists_outcome (h : c.Coherent) {op : Operation} (hok : (c.perform op).1 = .ok ()) :
    ∃ d, c.outcome op = .ok d ∧ (c.perform op).2.core = d.core := by
  obtain ⟨hanswer, hcore, -⟩ := perform_follows h op
  rw [hok] at hanswer
  cases hout : c.outcome op with
  | error e =>
    rw [hout] at hanswer
    cases hanswer
  | ok d =>
    rw [hout] at hcore
    exact ⟨d, rfl, hcore⟩

/-- What looks at the core alone, holds of compilers before any operation and is kept by the
outcomes of operations holds of every compiler and its history. -/
theorem Past.induction {P : History → Compiler → Prop}
    (core : ∀ {p c d}, c.core = d.core → P p c → P p d)
    (start : ∀ options, P { options } (.new options))
    (builtins : ∀ {options d},
      (withBuiltinTexts options).outcome (.addConfig Builtin.fragment Builtin.base) = .ok d →
        P { options, builtins := true } d)
    (step : ∀ {p c d op}, Past p c → P p c → c.outcome op = .ok d → P (p.after op) d)
    (h : Past p c) : P p c := by
  induction h with
  | new options => exact start options
  | @withBuiltins options c h =>
    have hcoherent := withBuiltinTexts_coherent options
    have hrun := eq_of_withBuiltins h
    have hok : ((withBuiltinTexts options).perform
        (.addConfig Builtin.fragment Builtin.base)).1 = .ok () := by
      unfold Compiler.withBuiltins at h
      exact ok_of_accepted h
    obtain ⟨d, hout, hcore⟩ := exists_outcome hcoherent hok
    rw [← hrun]
    exact core hcore.symm (builtins hout)
  | accepted hp hok ih =>
    obtain ⟨d, hout, hcore⟩ := exists_outcome hp.reachable.coherent hok
    exact core hcore.symm (step hp ih hout)
  -- a refused operation leaves the core and the history alone
  | refused hp herror ih => exact core (core_of_refused hp.reachable.coherent herror).symm ih

end RadioDriver.Compiler
