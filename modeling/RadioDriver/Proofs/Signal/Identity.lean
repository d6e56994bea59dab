import Mathlib.Data.List.Nodup
import RadioDriver.Proofs.Signal.Runs

namespace RadioDriver.Signal

/-- The definition brings no id. -/
def Anonymous (definition : Json) : Prop :=
  definition.field? "id" = none ∨ definition.field? "id" = some .null

namespace Registry

/-- The canonical text of a definition's content under a ceiling. -/
def canonicalUnder (ceiling : Ceiling) (definition : Json) : Except SignalError String :=
  (contentOf (clamp { ceiling } definition)).map contentText

def Call.IsAnonymous : Call → Prop
  | .addTransform _ _ => True
  | .register definition => Anonymous definition

def firstWith? (r : Registry) (text : String) : Option Entry :=
  r.entries.find? fun entry => contentText entry.content = text

variable {ceiling : Ceiling} {r r' : Registry} {definition : Json} {entry : Entry}
  {a : Registration}
  {text : String}

theorem field?_clamp (r : Registry) (definition : Json) {name : String} (h : name ≠ "sensitivity") :
    (r.clamp definition).field? name = definition.field? name := by
  unfold clamp
  split
  · split
    · split
      · exact Fields.get?_set_of_ne _ _ h
      · rfl
    · rfl
  · rfl

theorem suppliedId_clamp (r : Registry) (definition : Json) :
    suppliedId (r.clamp definition) = suppliedId definition := by
  unfold suppliedId
  rw [r.field?_clamp definition (by decide)]

theorem suppliedId_of_anonymous (h : Anonymous definition) : suppliedId definition = .ok none := by
  unfold suppliedId
  rcases h with h | h
  · rw [h]
  · rw [h]

theorem Indexed.existing?_none (h : Indexed ceiling r) (content : Fields Json) :
    r.existing? none content = r.firstWith? (contentText content) := by
  unfold existing? entryAt? firstWith?
  rw [h.byContent_eq]
  exact List.find?_eq_bind_findIdx?_getElem?.symm

theorem id_of_get? (h : Indexed ceiling r) {id : String} (he : r.get? id = some entry) :
    entry.id = id := by
  obtain ⟨i, hi, hentry⟩ := Option.bind_eq_some_iff.mp he
  obtain ⟨e, he, hid⟩ := (h.byId_iff id i).mp hi
  rw [hentry] at he
  cases he
  exact hid

theorem text_of_firstWith? (h : r.firstWith? text = some entry) :
    contentText entry.content = text := by
  simpa using List.find?_some h

theorem firstWith?_grow (hgrow : r.entries <+: r'.entries)
    (h : r.firstWith? text = some entry) : r'.firstWith? text = some entry := by
  obtain ⟨more, hmore⟩ := hgrow
  unfold firstWith? at h ⊢
  rw [← hmore, List.find?_append, h]
  rfl

theorem after_register (r : Registry) (definition : Json) :
    r.after (.register definition) = ((registering definition).run.run r).2 := rfl

theorem after_of_error {e : SignalError} (h : r.register definition = .error e) :
    r.after (.register definition) = r := by
  have hregisters := registering_registers r definition
  unfold register at h
  rw [after_register]
  generalize (registering definition).run.run r = out at h hregisters ⊢
  cases hregisters with
  | fails e => rfl
  | finds he => cases h
  | adds hid hentry => cases h

theorem cases_of_register (h : r.register definition = .ok (a, r')) :
    r' = r.after (.register definition) ∧
      ∃ content supplied, contentOf (r.clamp definition) = .ok content ∧
        suppliedId definition = .ok supplied ∧
        ((∃ entry, r.existing? supplied content = some entry ∧ a = answer entry false ∧ r' = r) ∨
          ∃ commands, r.commandsOf (r.clamp definition) content = .ok commands ∧
            r.existing? supplied content = none ∧
              r.contains (supplied.getD (contentId content)) = false ∧
            a = answer ⟨supplied.getD (contentId content), content, commands⟩ true ∧
            r' = r.add ⟨supplied.getD (contentId content), content, commands⟩) := by
  unfold register at h
  have hrun := registering_run r definition
  rw [suppliedId_clamp] at hrun
  rw [after_register]
  generalize (registering definition).run.run r = out at h hrun ⊢
  obtain ⟨e | answered, r''⟩ := out
  · cases h
  · cases h
    refine ⟨rfl, ?_⟩
    cases hcontent : contentOf (r.clamp definition) with
    | error e => rw [hcontent] at hrun; cases hrun
    | ok content =>
      rw [hcontent] at hrun
      cases hsupplied : suppliedId definition with
      | error e => rw [hsupplied] at hrun; cases hrun
      | ok supplied =>
        rw [hsupplied] at hrun
        dsimp only at hrun
        refine ⟨content, supplied, rfl, rfl, ?_⟩
        cases hexisting : r.existing? supplied content with
        | some entry =>
          rw [hexisting] at hrun
          cases hrun
          exact .inl ⟨entry, rfl, rfl, rfl⟩
        | none =>
          rw [hexisting] at hrun
          dsimp only at hrun
          cases hid : r.contains (supplied.getD (contentId content)) with
          | true => rw [hid, if_pos rfl] at hrun; cases hrun
          | false =>
            rw [hid, if_neg Bool.false_ne_true] at hrun
            cases hcommands : r.commandsOf (r.clamp definition) content with
            | error e => rw [hcommands] at hrun; cases hrun
            | ok commands =>
              rw [hcommands] at hrun
              cases hrun
              exact .inr ⟨commands, rfl, rfl, rfl, rfl, rfl⟩

theorem register_of_existing {content : Fields Json} {supplied : Option String}
    (hcontent : contentOf (r.clamp definition) = .ok content)
    (hsupplied : suppliedId definition = .ok supplied)
    (hexisting : r.existing? supplied content = some entry) :
    r.register definition = .ok (answer entry false, r) := by
  unfold register
  rw [registering_run, suppliedId_clamp, hcontent, hsupplied]
  dsimp only
  rw [hexisting]

theorem register_of_conflict {content : Fields Json} {supplied : Option String}
    (hcontent : contentOf (r.clamp definition) = .ok content)
    (hsupplied : suppliedId definition = .ok supplied)
    (hexisting : r.existing? supplied content = none)
    (hid : r.contains (supplied.getD (contentId content)) = true) :
    r.register definition = .error (.idConflict (supplied.getD (contentId content))) := by
  unfold register
  rw [registering_run, suppliedId_clamp, hcontent, hsupplied]
  dsimp only
  rw [hexisting]
  dsimp only
  rw [hid, if_pos rfl]

theorem clamp_eq (h : r.ceiling = ceiling) (definition : Json) :
    r.clamp definition = clamp { ceiling } definition := by
  subst h
  rfl

theorem Indexed.content_of_canonicalUnder (h : Indexed ceiling r)
    (htext : canonicalUnder ceiling definition = .ok text) :
    ∃ content, contentOf (r.clamp definition) = .ok content ∧ contentText content = text := by
  unfold canonicalUnder at htext
  rw [← clamp_eq h.ceiling_eq] at htext
  cases hcontent : contentOf (r.clamp definition) with
  | error e => rw [hcontent] at htext; cases htext
  | ok content =>
    rw [hcontent] at htext
    cases htext
    exact ⟨content, rfl, rfl⟩

/-- A definition without an id is answered with the first entry of its canonical text, which is
there from then on. -/
theorem Indexed.first_of_register (h : Indexed ceiling r) (hd : Anonymous definition)
    (hreg : r.register definition = .ok (a, r')) :
    ∃ text entry, canonicalUnder ceiling definition = .ok text ∧
      r'.firstWith? text = some entry ∧ a = answer entry a.isNew := by
  obtain ⟨hafter, content, supplied, hcontent, hsupplied, hcases⟩ := cases_of_register hreg
  rw [suppliedId_of_anonymous hd] at hsupplied
  cases hsupplied
  have htext : canonicalUnder ceiling definition = .ok (contentText content) := by
    rw [canonicalUnder, ← clamp_eq h.ceiling_eq, hcontent]
    rfl
  rcases hcases with ⟨entry, hexisting, rfl, rfl⟩ | ⟨commands, -, hexisting, hid, rfl, hadd⟩
  · rw [h.existing?_none] at hexisting
    exact ⟨_, entry, htext, hexisting, rfl⟩
  · rw [h.existing?_none] at hexisting
    refine ⟨_, _, htext, ?_, rfl⟩
    -- no earlier entry has the text, so the one added behind them is the first
    rw [hadd]
    unfold firstWith? at hexisting ⊢
    rw [Registry.add, List.find?_append, hexisting]
    simp

/-- A definition without an id is answered from its first entry wherever that is known. -/
theorem Indexed.register_of_first (h : Indexed ceiling r) (hd : Anonymous definition)
    (htext : canonicalUnder ceiling definition = .ok text)
    (hfirst : r.firstWith? text = some entry) :
    r.register definition = .ok (answer entry false, r) := by
  obtain ⟨content, hcontent, rfl⟩ := h.content_of_canonicalUnder htext
  apply register_of_existing hcontent (suppliedId_of_anonymous hd)
  rw [h.existing?_none]
  exact hfirst

theorem Indexed.conflict_of_register (h : Indexed ceiling r) (hd : Anonymous definition)
    (htext : canonicalUnder ceiling definition = .ok text)
    (hnew : ∀ e ∈ r.entries, contentText e.content ≠ text) (hentry : entry ∈ r.entries)
    (hid : entry.id = Sha256.hexOfText text) :
    r.register definition = .error (.idConflict (Sha256.hexOfText text)) := by
  obtain ⟨content, hcontent, rfl⟩ := h.content_of_canonicalUnder htext
  have hexisting : r.existing? none content = none := by
    rw [h.existing?_none]
    exact List.find?_eq_none.mpr fun e he => by simpa using hnew e he
  have hcontains : r.contains (contentId content) = true := by
    obtain ⟨i, hi⟩ := List.mem_iff_getElem?.mp hentry
    have hget := (h.byId_iff (contentId content) i).mpr ⟨entry, hi, hid⟩
    rw [contains, Fields.contains, hget]
    rfl
  exact register_of_conflict hcontent (suppliedId_of_anonymous hd) hexisting hcontains

theorem Indexed.id_of_register (h : Indexed ceiling r) {id : String}
    (hid : suppliedId definition = .ok (some id)) (hreg : r.register definition = .ok (a, r')) :
    a.id = id := by
  obtain ⟨-, content, supplied, -, hsupplied, hcases⟩ := cases_of_register hreg
  rw [hid] at hsupplied
  cases hsupplied
  rcases hcases with ⟨entry, hexisting, rfl, -⟩ | ⟨commands, -, -, -, rfl, -⟩
  · exact id_of_get? h hexisting
  · rfl

/-- Every entry stands under the digest of its canonical text. -/
def IsDigested (r : Registry) : Prop := ∀ entry ∈ r.entries, entry.id = contentId entry.content

theorem IsDigested.after (h : r.IsDigested) {call : Call} (hcall : call.IsAnonymous) :
    (r.after call).IsDigested := by
  cases call with
  | addTransform name transform => exact h
  | register definition =>
    cases hreg : r.register definition with
    | error e =>
      rw [after_of_error hreg]
      exact h
    | ok out =>
      obtain ⟨a, r'⟩ := out
      obtain ⟨hafter, content, supplied, -, hsupplied, hcases⟩ := cases_of_register hreg
      rw [suppliedId_of_anonymous hcall] at hsupplied
      cases hsupplied
      rw [← hafter]
      rcases hcases with ⟨entry, -, -, rfl⟩ | ⟨commands, -, -, -, -, rfl⟩
      · exact h
      · intro entry he
        rcases List.mem_append.mp he with he | he
        · exact h entry he
        · rw [List.mem_singleton.mp he]
          rfl

theorem IsDigested.run (h : r.IsDigested) {calls : List Call}
    (hcalls : ∀ call ∈ calls, call.IsAnonymous) : (r.run calls).IsDigested := by
  induction calls generalizing r with
  | nil => exact h
  | cons call rest ih =>
    apply ih (h.after (hcalls call List.mem_cons_self))
    intro c hc
    exact hcalls c (List.mem_cons_of_mem call hc)

theorem Indexed.of_register (h : Indexed ceiling r) (hreg : r.register definition = .ok (a, r')) :
    Indexed ceiling r' := by
  rw [(cases_of_register hreg).1]
  exact h.after _

/-- Two definitions without an id, registered at two points of a run, have one id just when they
have one canonical text. -/
theorem Indexed.same_id_iff (h : Indexed ceiling r) {first second : Json} {b : Registration}
    {r'' : Registry} (between : List Call) (hfirst : Anonymous first) (hsecond : Anonymous second)
    (ha : r.register first = .ok (a, r')) (hb : (r'.run between).register second = .ok (b, r'')) :
    a.id = b.id ↔ canonicalUnder ceiling first = canonicalUnder ceiling second := by
  have hbetween : Indexed ceiling (r'.run between) := (h.of_register ha).run between
  obtain ⟨text, e, htext, he, hae⟩ := h.first_of_register hfirst ha
  obtain ⟨text', e', htext', he', hbe⟩ := hbetween.first_of_register hsecond hb
  -- both entries are in the last registry, each the first with its text
  have hgrow : r'.entries <+: r''.entries := by
    rw [(cases_of_register hb).1]
    exact (run_entries r' between).trans (after_entries _ _)
  have hboth : r''.firstWith? text = some e := firstWith?_grow hgrow he
  rw [htext, htext', hae, hbe]
  constructor
  · intro hid
    have hsame : e = e' := by
      have hmem : e ∈ r''.entries := List.mem_of_find?_eq_some hboth
      have hmem' : e' ∈ r''.entries := List.mem_of_find?_eq_some he'
      exact List.inj_on_of_nodup_map (hbetween.of_register hb).ids_nodup hmem hmem' hid
    rw [← text_of_firstWith? hboth, ← text_of_firstWith? he', hsame]
  · intro hsame
    cases hsame
    rw [hboth] at he'
    cases he'
    rfl

theorem Indexed.register_again (h : Indexed ceiling r) (hd : Anonymous definition)
    (hreg : r.register definition = .ok (a, r')) (later : List Call) :
    (r'.run later).register definition = .ok ({ a with isNew := false }, r'.run later) := by
  obtain ⟨text, entry, htext, hfirst, ha⟩ := h.first_of_register hd hreg
  have hgrown : (r'.run later).firstWith? text = some entry :=
    firstWith?_grow (run_entries r' later) hfirst
  rw [((h.of_register hreg).run later).register_of_first hd htext hgrown, ha]
  rfl

theorem Indexed.digest_of_register (h : Indexed ceiling r) (hdigested : r.IsDigested)
    (hd : Anonymous definition) (hreg : r.register definition = .ok (a, r')) :
    ∃ text, canonicalUnder ceiling definition = .ok text ∧ a.id = Sha256.hexOfText text := by
  obtain ⟨text, entry, htext, hfirst, ha⟩ := h.first_of_register hd hreg
  have hnext : r'.IsDigested := by
    rw [(cases_of_register hreg).1]
    exact hdigested.after hd
  have hentry := hnext entry (List.mem_of_find?_eq_some hfirst)
  rw [contentId, text_of_firstWith? hfirst] at hentry
  refine ⟨text, htext, ?_⟩
  rw [ha]
  exact hentry

/-- In every run, definitions without an id have one id just when they have one canonical text. One
that was registered is found again as it was, and content whose digest is the id of other content
is refused. A given id is kept. Without given ids every id is the digest of the canonical text,
whatever else was registered and in whatever order. -/
theorem anonymous_identity (ceiling : Ceiling) (calls : List Call) :
    let r := run { ceiling } calls
    (∀ first second a b r' r'' between, Anonymous first → Anonymous second →
        r.register first = .ok (a, r') → (r'.run between).register second = .ok (b, r'') →
        (a.id = b.id ↔ canonicalUnder ceiling first = canonicalUnder ceiling second)) ∧
      (∀ definition a r' later, Anonymous definition → r.register definition = .ok (a, r') →
        (r'.run later).register definition = .ok ({ a with isNew := false }, r'.run later)) ∧
      (∀ definition text, Anonymous definition → canonicalUnder ceiling definition = .ok text →
        (∀ entry ∈ r.entries, contentText entry.content ≠ text) →
        (∃ entry ∈ r.entries, entry.id = Sha256.hexOfText text) →
        r.register definition = .error (.idConflict (Sha256.hexOfText text))) ∧
      (∀ definition id a r', suppliedId definition = .ok (some id) →
        r.register definition = .ok (a, r') → a.id = id) ∧
      ((∀ call ∈ calls, call.IsAnonymous) → ∀ definition a r', Anonymous definition →
        r.register definition = .ok (a, r') →
        ∃ text, canonicalUnder ceiling definition = .ok text ∧ a.id = Sha256.hexOfText text) := by
  intro r
  have hr : Indexed ceiling r := (indexed_new ceiling).run calls
  refine ⟨?_, ?_, ?_, ?_, ?_⟩
  · intro first second a b r' r'' between hfirst hsecond ha hb
    exact hr.same_id_iff between hfirst hsecond ha hb
  · intro definition a r' later hd hreg
    exact hr.register_again hd hreg later
  · intro definition text hd htext hnew ⟨entry, hentry, hid⟩
    exact hr.conflict_of_register hd htext hnew hentry hid
  · intro definition id a r' hid hreg
    exact hr.id_of_register hid hreg
  · intro hcalls definition a r' hd hreg
    have hstart : IsDigested { ceiling } := by
      intro entry he
      cases he
    exact hr.digest_of_register (hstart.run hcalls) hd hreg

def toggle : Json := .object [("sof", .string "b")]

def nulledToggle : Json := .object [("id", .null), ("sof", .string "b")]

def toggleId : String := contentId [("sof", .string "b")]

def squatter : Json := .object [("id", .string toggleId), ("sof", .string "a")]

/-- The toggle is registered under its digest and found there again, but refused where its digest is
taken. -/
theorem toggle_identity :
    let start : Registry := { ceiling := Double.half }
    ∃ a r', start.register toggle = .ok (a, r') ∧
      (∃ text, canonicalUnder Double.half toggle = .ok text ∧ a.id = Sha256.hexOfText text) ∧
      (r'.run [.register squatter]).register toggle =
        .ok ({ a with isNew := false }, r'.run [.register squatter]) ∧
      (∃ b r'', (r'.run [.register squatter]).register nulledToggle = .ok (b, r'') ∧ a.id = b.id) ∧
      (∃ b r'', start.register squatter = .ok (b, r'') ∧ b.id = toggleId) ∧
      (start.run [.register squatter]).register toggle = .error (.idConflict toggleId) := by
  intro start
  have htoggle : Anonymous toggle := .inl rfl
  have hnulled : Anonymous nulledToggle := .inr rfl
  obtain ⟨hone, hagain, -, hgiven, hdigest⟩ := anonymous_identity Double.half []
  obtain ⟨-, -, htaken, -⟩ := anonymous_identity Double.half [.register squatter]
  obtain ⟨a, r', ha⟩ : ∃ a r', start.register toggle = .ok (a, r') := ⟨_, _, rfl⟩
  have hindexed : Indexed Double.half r' := (indexed_new _).of_register ha
  obtain ⟨text, entry, htext, hfirst, -⟩ := (indexed_new _).first_of_register htoggle ha
  have hb : (r'.run [.register squatter]).register nulledToggle =
      .ok (answer entry false, r'.run [.register squatter]) :=
    (hindexed.run _).register_of_first hnulled htext
      (firstWith?_grow (run_entries r' _) hfirst)
  refine ⟨a, r', ha, ?_, ?_, ?_, ?_, ?_⟩
  · exact hdigest (by simp) toggle a r' htoggle ha
  · exact hagain toggle a r' _ htoggle ha
  · exact ⟨_, _, hb, (hone toggle nulledToggle _ _ _ _ _ htoggle hnulled ha hb).mpr rfl⟩
  · obtain ⟨b, r'', hb⟩ : ∃ b r'', start.register squatter = .ok (b, r'') := ⟨_, _, rfl⟩
    exact ⟨b, r'', hb, hgiven squatter toggleId b r'' rfl hb⟩
  · have hentries : (start.run [.register squatter]).entries =
        [⟨toggleId, [("sof", .string "a")], none⟩] := rfl
    refine htaken toggle (contentText [("sof", .string "b")]) htoggle rfl ?_ ?_
    · show ∀ e ∈ (start.run [.register squatter]).entries, _
      rw [hentries]
      intro e he
      rw [List.mem_singleton.mp he]
      decide +kernel
    · show ∃ e ∈ (start.run [.register squatter]).entries, _
      rw [hentries]
      exact ⟨_, List.mem_singleton_self _, rfl⟩

end Registry

end RadioDriver.Signal
