import RadioDriver.Proofs.Builtin.Unmarked
import RadioDriver.Proofs.Path.Anchoring

namespace RadioDriver

open RadioDriver.Locale

variable {base s : String}

theorem Path.isUnmarked_anchored (hbase : fillMark ∉ base.toList) (hs : isUnmarked s = true)
    (hportable : isPortable s = true) : isUnmarked (anchored base s) = true := by
  unfold anchored
  split
  · next hrelative =>
    have hforbidden : s.toList.any isForbidden = false := by
      simpa [isPortable, hrelative] using hportable
    have hown : fillMark ∉ s.toList := by
      intro hmem
      have hnone := List.any_eq_false.mp hforbidden fillMark hmem
      exact hnone (by decide)
    apply isUnmarked_of_not_mem
    intro hmem
    rcases mem_join hmem with hslash | hdot | hbase' | hs'
    · exact absurd hslash (by decide)
    · exact absurd hdot (by decide)
    · exact hbase hbase'
    · exact hown hs'
  · exact hs

namespace Fragment

/-- No text outside the locale section is marked. -/
structure Unmarked (f : Fragment) : Prop where
  views : Json.allFieldTexts isUnmarked f.views = true
  deviceClasses : Json.allFieldTexts isUnmarked f.deviceClasses = true
  devices : Json.allFieldTexts isUnmarked f.devices = true
  signals : Json.allFieldTexts isUnmarked f.signals = true
  drivers : ∀ d ∈ f.drivers, d.allTexts isUnmarked = true
  globals : Json.allFieldTexts isUnmarked f.globals = true

variable {f anchored : Fragment}

theorem allTexts_of_anchor {v w : Json} (hbase : fillMark ∉ base.toList)
    (h : v.allTexts isUnmarked = true) (hanchor : Path.anchor base v = .ok w) :
    w.allTexts isUnmarked = true := by
  by_cases hempty : base = ""
  · rw [Path.anchor, if_pos hempty] at hanchor
    cases hanchor
    exact h
  · obtain ⟨hportable, rfl⟩ := (Path.anchor_eq_ok_iff hempty).mp hanchor
    exact Json.allTexts_mapTexts (fun _ => Path.isUnmarked_anchored hbase) v h hportable

theorem allFieldTexts_of_anchorObject {fields others : Fields Json} (hbase : fillMark ∉ base.toList)
    (h : Json.allFieldTexts isUnmarked fields = true)
    (hanchor : Path.anchorObject base fields = .ok others) :
    Json.allFieldTexts isUnmarked others = true := by
  have hobject : Path.anchor base (.object fields) = .ok (.object others) := by
    unfold Path.anchorObject at hanchor
    unfold Path.anchor
    split at hanchor
    · next hempty =>
      cases hanchor
      rw [if_pos hempty]
    · next hne => rw [if_neg hne, Path.anchorAt, hanchor, Except.map]
  exact allTexts_of_anchor hbase (Json.allTexts_object.mpr h) hobject

theorem allTexts_of_anchorDrivers {drivers others : List Json} (hbase : fillMark ∉ base.toList)
    (h : ∀ d ∈ drivers, d.allTexts isUnmarked = true)
    (hanchor : anchorDrivers base drivers = .ok others) :
    ∀ d ∈ others, d.allTexts isUnmarked = true := by
  induction drivers generalizing others with
  | nil =>
    cases hanchor
    exact h
  | cons d rest ih =>
    obtain ⟨hd, hrest⟩ := List.forall_mem_cons.mp h
    obtain ⟨driver, hdriver, hanchor⟩ := except_bind_eq_ok.mp hanchor
    obtain ⟨more, hmore, hdone⟩ := except_bind_eq_ok.mp hanchor
    cases hdone
    exact List.forall_mem_cons.mpr ⟨allTexts_of_anchor hbase hd hdriver, ih hrest hmore⟩

theorem Unmarked.anchor (h : f.Unmarked) (hbase : fillMark ∉ base.toList)
    (hanchor : f.anchor base = .ok anchored) : anchored.Unmarked := by
  simp only [Fragment.anchor, except_bind_eq_ok] at hanchor
  obtain ⟨drivers, hdrivers, views, hviews, classes, hclasses, devices, hdevices, signals, hsignals,
    globals, hglobals, hanchored⟩ := hanchor
  cases hanchored
  exact {
    views := allFieldTexts_of_anchorObject hbase h.views hviews
    deviceClasses := allFieldTexts_of_anchorObject hbase h.deviceClasses hclasses
    devices := allFieldTexts_of_anchorObject hbase h.devices hdevices
    signals := allFieldTexts_of_anchorObject hbase h.signals hsignals
    drivers := allTexts_of_anchorDrivers hbase h.drivers hdrivers
    globals := allFieldTexts_of_anchorObject hbase h.globals hglobals }

end Fragment

theorem Builtin.unmarked_fragment : fragment.Unmarked where
  views := unmarked_views
  deviceClasses := unmarked_deviceClasses
  devices := rfl
  signals := rfl
  drivers := fun _ h => nomatch h
  globals := by decide

end RadioDriver
