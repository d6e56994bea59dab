import RadioDriver.Builtin
import RadioDriver.Proofs.Locale.Unmarked

namespace RadioDriver.Builtin

open RadioDriver.Locale

theorem unmarked_english : Json.allFieldTexts isUnmarked English.texts = true := by
  simp only [English.texts, English.viewChoice, English.viewImitate, English.viewProgram,
    English.viewCodewheel, English.viewDipswitch, English.viewTestButton, English.viewTestButton2,
    English.viewTestSwitch, English.viewTestSwitch2, English.viewTestRemote, English.viewDone,
    English.classRemote, English.classWallSwitch, English.classSwitch,
    English.classCodewheelSwitch, English.classDipswitchSocket, English.classSocket,
    English.runtimeGeneric, English.runtimeError, Json.allFieldTexts, Json.allTexts,
    Bool.and_eq_true, and_true]
  and_intros
  -- a long text is put together from lines, and the mark is looked for at the end of the last one
  all_goals first
    | exact isUnmarked_spelled rfl (by decide)
    | exact (isUnmarked_append (by decide)).trans (isUnmarked_spelled rfl (by decide))

set_option maxRecDepth 4096 in
theorem unmarked_dutch : Json.allFieldTexts isUnmarked Dutch.texts = true := by
  simp only [Dutch.texts, Dutch.viewChoice, Dutch.viewImitate, Dutch.viewProgram,
    Dutch.viewCodewheel, Dutch.viewDipswitch, Dutch.viewTestButton, Dutch.viewTestButton2,
    Dutch.viewTestSwitch, Dutch.viewTestSwitch2, Dutch.viewTestRemote, Dutch.viewDone,
    Dutch.classRemote, Dutch.classWallSwitch, Dutch.classSwitch, Dutch.classCodewheelSwitch,
    Dutch.classDipswitchSocket, Dutch.classSocket, Dutch.runtimeGeneric, Dutch.runtimeError,
    Json.allFieldTexts, Json.allTexts, Bool.and_eq_true, and_true]
  and_intros
  all_goals first
    | exact isUnmarked_spelled rfl (by decide)
    | exact (isUnmarked_append (by decide)).trans (isUnmarked_spelled rfl (by decide))

theorem clean_catalog : catalog.Clean := by
  have hclean : ∀ {fields : Fields Json}, plainFields fields = true →
      Json.allFieldTexts isUnmarked fields = true → (⟨fields, []⟩ : LocaleTable).Clean :=
    fun hplain htexts =>
      ⟨hplain, fun _ => LocaleTable.Unmarked.leaf (cleanedFields_of_allFieldTexts _ htexts),
        fun _ h => (List.not_mem_nil h).elim, .nil⟩
  have hplain := Catalog.plain_builtin
  intro t ht
  have hnames := hplain t ht
  rcases List.mem_pair.mp ht with rfl | rfl
  · exact hclean hnames unmarked_english
  · exact hclean hnames unmarked_dutch

theorem unmarked_views : Json.allFieldTexts isUnmarked Views.all = true := by
  decide +kernel

theorem unmarked_deviceClasses : Json.allFieldTexts isUnmarked DeviceClasses.all = true := by
  decide +kernel

end RadioDriver.Builtin
