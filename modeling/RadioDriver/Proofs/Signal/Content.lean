import RadioDriver.Proofs.Json.Unambiguous
import RadioDriver.Signal.Content

namespace RadioDriver.Signal

/-- The fields of a definition that are not bookkeeping. -/
def withoutBookkeeping (fields : Fields Json) : Fields Json :=
  fields.filter fun f => f.1 ≠ "id" ∧ f.1 ≠ "transform"

theorem contentOf_object (fields : Fields Json) :
    contentOf (.object fields) = .ok (withoutBookkeeping fields) := by
  simp only [contentOf, Fields.erase, List.filter_filter, withoutBookkeeping, ← Bool.decide_and,
    and_comm]

theorem distinct_withoutBookkeeping {fields : Fields Json}
    (h : Json.distinct (.object fields) = true) :
    Json.distinct (.object (withoutBookkeeping fields)) = true := by
  rw [Json.distinct_object] at h ⊢
  have hkept : (withoutBookkeeping fields).Sublist fields := List.filter_sublist
  constructor
  · exact h.1.sublist (hkept.map _)
  · intro f hf
    exact h.2 f (hkept.subset hf)

/-- Object definitions have content, and its bytes are the same exactly when the definitions are
alike without their bookkeeping. -/
theorem content_bytes_eq_iff_alike (first second : Fields Json)
    (hfirst : Json.distinct (.object first) = true)
    (hsecond : Json.distinct (.object second) = true) :
    ∃ content other, contentOf (.object first) = .ok content ∧
      contentOf (.object second) = .ok other ∧
      ((contentText content).toUTF8 = (contentText other).toUTF8 ↔
        Json.Alike (.object (withoutBookkeeping first)) (.object (withoutBookkeeping second))) := by
  refine ⟨_, _, contentOf_object first, contentOf_object second, ?_⟩
  have hbytes : ∀ s t : String, s.toUTF8 = t.toUTF8 ↔ s = t := fun _ _ => String.toByteArray_inj
  rw [hbytes]
  exact Json.canonical_eq_iff (distinct_withoutBookkeeping hfirst)
    (distinct_withoutBookkeeping hsecond)

def gapEnd : Fields Json := [("id", .null), ("gap", .ofNat 2)]

def gapEndDecimal : Fields Json := [("gap", .ofDouble .two), ("id", .null)]

def kaku : Fields Json :=
  [("id", .string "kaku"), ("sof", .array [.ofNat 1, .ofNat 2]), ("eof", .object gapEnd)]

def kakuTagged : Fields Json :=
  [("eof", .object gapEndDecimal), ("transform", .string "bits"),
    ("sof", .array [.ofNat 1, .ofNat 2])]

def kakuTurned : Fields Json :=
  [("sof", .array [.ofNat 2, .ofNat 1]), ("eof", .object gapEnd)]

def kakuStripped : Fields Json :=
  [("sof", .array [.ofNat 1, .ofNat 2]), ("eof", .object [("gap", .ofNat 2)])]

theorem alike_gapEnd : Json.Alike (.object gapEnd) (.object gapEndDecimal) := by
  have hid : Json.Alike .null .null := .null
  have hgap : Json.Alike (.ofNat 2) (.ofDouble .two) := .number (by decide +kernel)
  constructor
  · decide
  · simp only [gapEnd, gapEndDecimal, List.mem_cons, Prod.mk.injEq]
    grind

theorem alike_kaku :
    Json.Alike (.object (withoutBookkeeping kaku)) (.object (withoutBookkeeping kakuTagged)) := by
  have hsof : Json.Alike (.array [.ofNat 1, .ofNat 2]) (.array [.ofNat 1, .ofNat 2]) :=
    .refl (by decide)
  have heof := alike_gapEnd
  constructor
  · decide
  · simp only [withoutBookkeeping, kaku, kakuTagged, List.mem_filter, List.mem_cons, Prod.mk.injEq]
    grind

theorem not_alike_turned :
    ¬ Json.Alike (.object (withoutBookkeeping kaku)) (.object (withoutBookkeeping kakuTurned)) := by
  intro h
  have hsof : Json.Alike (.array [.ofNat 1, .ofNat 2]) (.array [.ofNat 2, .ofNat 1]) := by
    cases h with
    | object _ hvalues => exact hvalues "sof" _ _ (.head _) (.head _)
  have hfirst : Json.Alike (.ofNat 1) (.ofNat 2) := by
    cases hsof with
    | array _ hitems => exact hitems _ _ (.head _)
  cases hfirst with
  | number hrender => exact absurd hrender (by decide +kernel)

theorem not_alike_stripped :
    ¬ Json.Alike (.object (withoutBookkeeping kaku))
      (.object (withoutBookkeeping kakuStripped)) := by
  intro h
  have heof : Json.Alike (.object gapEnd) (.object [("gap", .ofNat 2)]) := by
    cases h with
    | object _ hvalues => exact hvalues "eof" _ _ (.tail _ (.head _)) (.tail _ (.head _))
  cases heof with
  | object hnames => exact absurd hnames.length_eq (by decide)

/-- Order and spelling do not tell content apart; the order of items and nested names do. -/
theorem kaku_bytes :
    ∃ content tagged turned stripped, contentOf (.object kaku) = .ok content ∧
      contentOf (.object kakuTagged) = .ok tagged ∧
      contentOf (.object kakuTurned) = .ok turned ∧
      contentOf (.object kakuStripped) = .ok stripped ∧
      (contentText content).toUTF8 = (contentText tagged).toUTF8 ∧
      (contentText content).toUTF8 ≠ (contentText turned).toUTF8 ∧
      (contentText content).toUTF8 ≠ (contentText stripped).toUTF8 := by
  obtain ⟨content, tagged, hcontent, htagged, hiff⟩ :=
    content_bytes_eq_iff_alike kaku kakuTagged (by decide) (by decide)
  obtain ⟨same, turned, hsame, hturned, hiffTurned⟩ :=
    content_bytes_eq_iff_alike kaku kakuTurned (by decide) (by decide)
  obtain ⟨once, stripped, honce, hstripped, hiffStripped⟩ :=
    content_bytes_eq_iff_alike kaku kakuStripped (by decide) (by decide)
  cases hcontent.symm.trans hsame
  cases hcontent.symm.trans honce
  refine ⟨content, tagged, turned, stripped, hcontent, htagged, hturned, hstripped, ?_⟩
  exact ⟨hiff.mpr alike_kaku, fun h => not_alike_turned (hiffTurned.mp h),
    fun h => not_alike_stripped (hiffStripped.mp h)⟩

end RadioDriver.Signal
