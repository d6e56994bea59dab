import RadioDriver.Proofs.Signal.Index

namespace RadioDriver.Signal.Registry

/-- A call that may change a registry. -/
inductive Call
  | addTransform (name : String) (transform : Transform)
  | register (definition : Json)

def after (r : Registry) : Call → Registry
  | .addTransform name transform => r.addTransform name transform
  | .register definition => ((registering definition).run.run r).2

def run (r : Registry) (calls : List Call) : Registry := calls.foldl after r

/-- A new signal is one more entry at the end. Any other answer is about an entry that was there,
and like a failure it goes with no change. -/
def Appends (r : Registry) : Except SignalError Registration × Registry → Prop
  | (.error _, r') => r' = r
  | (.ok a, r') =>
    if a.isNew then
      ∃ entry, a = answer entry true ∧ r'.entries = r.entries ++ [entry] ∧
        r'.transforms = r.transforms
    else r' = r ∧ ∃ entry ∈ r.entries, a = answer entry false

variable {ceiling : Ceiling} {r : Registry}

theorem Registers.appends {out : Except SignalError Registration × Registry}
    (h : r.Registers out) : r.Appends out := by
  cases h with
  | fails e => exact rfl
  | finds he => exact ⟨rfl, _, he, rfl⟩
  | adds hid hentry => exact ⟨_, rfl, rfl, rfl⟩

theorem Registers.indexed {out : Except SignalError Registration × Registry}
    (h : r.Registers out) (hr : Indexed ceiling r) : Indexed ceiling out.2 := by
  cases h with
  | fails e => exact hr
  | finds he => exact hr
  | adds hid hentry =>
    rw [hr.ceiling_eq] at hentry
    exact hr.add hid hentry

theorem Registers.entries_grow {out : Except SignalError Registration × Registry}
    (h : r.Registers out) : r.entries <+: out.2.entries := by
  cases h with
  | fails e => exact List.prefix_rfl
  | finds he => exact List.prefix_rfl
  | adds hid hentry => exact List.prefix_append _ _

theorem Indexed.after (h : Indexed ceiling r) (call : Call) : Indexed ceiling (r.after call) := by
  cases call with
  | addTransform name transform => exact h.addTransform name transform
  | register definition => exact (registering_registers r definition).indexed h

theorem after_entries (r : Registry) (call : Call) : r.entries <+: (r.after call).entries := by
  cases call with
  | addTransform name transform => exact List.prefix_rfl
  | register definition => exact (registering_registers r definition).entries_grow

theorem Indexed.run (h : Indexed ceiling r) (calls : List Call) :
    Indexed ceiling (r.run calls) := by
  induction calls generalizing r with
  | nil => exact h
  | cons call rest ih => exact ih (h.after call)

theorem run_entries (r : Registry) (calls : List Call) :
    r.entries <+: (r.run calls).entries := by
  induction calls generalizing r with
  | nil => exact List.prefix_rfl
  | cons call rest ih => exact (after_entries r call).trans (ih (r.after call))

theorem run_append (r : Registry) (calls more : List Call) :
    r.run (calls ++ more) = (r.run calls).run more := List.foldl_append

/-- After any calls the indexes are in step with admissible entries, later calls keep every entry at
its place, and one more registration appends the entry that is new or changes nothing. -/
theorem run_indexed_and_growing (ceiling : Ceiling) (calls : List Call) :
    Indexed ceiling (run { ceiling } calls) ∧
      (∀ later, (run { ceiling } calls).entries <+: (run { ceiling } (calls ++ later)).entries) ∧
      ∀ definition, (run { ceiling } calls).Appends
        ((registering definition).run.run (run { ceiling } calls)) := by
  refine ⟨(indexed_new ceiling).run calls, ?_, ?_⟩
  · intro later
    rw [run_append]
    exact run_entries _ later
  · intro definition
    exact (registering_registers _ definition).appends

def press : Json := .object [("id", .string "press"), ("sof", .string "b")]

/-- A call that fails leaves room for the signal, which stays once it is registered. -/
theorem press_registered :
    let start : Registry := { ceiling := Double.half }
    let calls : List Call := [.register .null, .register press]
    (∃ a entry r', (registering press).run.run (start.run [.register .null]) = (.ok a, r') ∧
      a = answer entry true ∧ r'.entries = [entry]) ∧
    (start.run calls).entries = [⟨"press", [("sof", .string "b")], none⟩] ∧
    Indexed Double.half (start.run calls) ∧
    ∀ later, (start.run calls).entries <+: (start.run (calls ++ later)).entries := by
  intro start calls
  obtain ⟨-, -, happends⟩ := run_indexed_and_growing Double.half [.register .null]
  obtain ⟨hindexed, hgrows, -⟩ := run_indexed_and_growing Double.half calls
  refine ⟨?_, rfl, hindexed, hgrows⟩
  have hout : ((registering press).run.run (start.run [.register .null])).1 =
      .ok ⟨"press", [("sof", .string "b")], none, true⟩ := rfl
  have happends := happends press
  rcases hrun : (registering press).run.run (start.run [.register .null]) with ⟨out, r'⟩
  rw [hrun] at happends hout
  cases hout
  obtain ⟨entry, hanswer, hentries, -⟩ := happends
  exact ⟨_, entry, r', rfl, hanswer, hentries⟩

end RadioDriver.Signal.Registry
