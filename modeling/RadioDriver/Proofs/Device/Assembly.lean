import RadioDriver.Device.Assembly
import RadioDriver.Proofs.Path.Anchoring

namespace RadioDriver.Device

open Signal

variable {s : Surroundings} {id name : String} {device made : Entity}
  {registry registry' : Registry}

theorem assignSignal_eq_ok (h : assignSignal s id device registry = .ok (made, registry')) :
    ∃ definition answer, signalOf s id device registry = .ok definition ∧
      registry.register definition = .ok (answer, registry') ∧
      made = Fields.set (Fields.set device "signal" (.string answer.id)) "signalDefinition"
        (signalCopy answer) := by
  obtain ⟨definition, hsignal, h⟩ := except_bind_eq_ok.mp h
  split at h
  · cases h
  · next answer grown hregister =>
    cases h
    exact ⟨definition, answer, hsignal, hregister, rfl⟩

theorem get?_withDriver (h : name ≠ "driver") :
    Fields.get? (withDriver s device) name = Fields.get? device name := by
  unfold withDriver
  split
  · exact Fields.get?_set_of_ne _ _ h
  · rfl

theorem get?_of_assignSignal (hsignal : name ≠ "signal") (hdefinition : name ≠ "signalDefinition")
    (h : assignSignal s id device registry = .ok (made, registry')) :
    Fields.get? made name = Fields.get? device name := by
  obtain ⟨definition, answer, -, -, rfl⟩ := assignSignal_eq_ok h
  rw [Fields.get?_set_of_ne _ _ hdefinition, Fields.get?_set_of_ne _ _ hsignal]

theorem get?_ownSections (h : name ∉ flowSections) :
    Fields.get? (flowSections.foldl (ownSection id) device) name = Fields.get? device name := by
  refine List.foldlRecOn flowSections _
    (motive := fun made => Fields.get? made name = Fields.get? device name) rfl ?_
  intro made hmade cards hcards
  rw [← hmade, ownSection]
  split
  · exact Fields.get?_set_of_ne _ _ fun heq => h (heq ▸ hcards)
  · rfl

theorem pairUp_eq_ok (h : pairUp s id device = .ok made) :
    made = device ∨ ∃ pair order expanded, Fields.get? device "pair" = some (.object pair) ∧
      Fields.get? pair "viewOrder" = some order ∧ expandPair s id pair order = .ok expanded ∧
      made = Fields.set device "pair" (.object expanded) := by
  unfold pairUp at h
  split at h
  · next pair hpair =>
    split at h
    · cases h
      exact .inl rfl
    · next order horder =>
      obtain ⟨expanded, hexpanded, hdone⟩ := except_bind_eq_ok.mp h
      cases hdone
      exact .inr ⟨pair, order, expanded, hpair, horder, hexpanded, rfl⟩
  · cases h
    exact .inl rfl

theorem assemble_eq_ok (h : assemble s id device registry = .ok (made, registry')) :
    ∃ signalled paired,
      assignSignal s id (withDriver s device) registry = .ok (signalled, registry') ∧
      pairUp s id signalled = .ok paired ∧ made = flowSections.foldl (ownSection id) paired := by
  obtain ⟨⟨signalled, grown⟩, hassign, h⟩ := except_bind_eq_ok.mp h
  obtain ⟨paired, hpair, hdone⟩ := except_bind_eq_ok.mp h
  cases hdone
  exact ⟨signalled, paired, hassign, hpair, rfl⟩

end RadioDriver.Device
