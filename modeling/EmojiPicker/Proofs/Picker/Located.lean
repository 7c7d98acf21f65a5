import EmojiPicker.Proofs.Picker.Calls
import EmojiPicker.Proofs.Text.Settled

/-!
# The locale in use

A picker and its dictionaries each keep a locale. Whether a download is still wanted is decided by the
locale of the picker when it failed, and by the active locale of the dictionaries when it succeeded.

* `Picker.Located` — the two are the same locale;
* `Picker.located_start`, `Picker.Located.run` — they are from the first start on;
* `Picker.completeDownload_stale` — a download for another locale changes nothing.
-/

namespace EmojiPicker

/-! ## The active locale -/

namespace Lifecycle

variable {σ : Type}

theorem publish_activeLocale (l : Lifecycle σ) (d : EmojiDictionary) :
    (l.publish d).activeLocale = l.activeLocale :=
  withdraw_activeLocale l .ready

variable [DictionaryStore σ]

/-- The locale asked for becomes the active one, whether there is a dictionary for it or not. -/
theorem ensure_activeLocale (l : Lifecycle σ) (locale : String) :
    (l.ensure locale).activeLocale = some (Locale.normalize locale) := by
  rcases ensure_cases l locale with ⟨_, _, _, same⟩ | same
  · rw [same]
  · rw [same]
    rcases load_cases { l with activeLocale := some (Locale.normalize locale) }
      (Locale.normalize locale) with ⟨asked, looked, outcome⟩
    have active : asked.activeLocale = some (Locale.normalize locale) :=
      looked.activeLocale.trans (withdraw_activeLocale _ _)
    rcases outcome with absent | ⟨_, _, d, _, published⟩
    · rw [absent, withdraw_activeLocale, active]
    · rw [published, publish_activeLocale, active]

theorem install_activeLocale (l : Lifecycle σ) (bytes : List UInt8) (locale : String) :
    (l.install bytes locale).2.activeLocale = l.activeLocale := by
  rcases install_cases l bytes locale with ⟨_, kept⟩ | ⟨asked, kept, _, _, _, d, _, same⟩
  · exact kept.activeLocale
  · rw [same, publish_activeLocale, kept.activeLocale]

theorem install_inactive {l : Lifecycle σ} {locale : String}
    (inactive : l.activeLocale ≠ some (Locale.normalize locale)) (bytes : List UInt8) :
    l.install bytes locale = (.ok (.discarded l.activeLocale), l) := by
  simp [install, inactive]

theorem not_discarded {l : Lifecycle σ} {locale : String}
    (active : l.activeLocale = some (Locale.normalize locale)) (bytes : List UInt8)
    (other : Option String) : (l.install bytes locale).1 ≠ .ok (.discarded other) := by
  rw [install, if_neg (by simp [active])]
  split
  · simp
  · split
    · simp
    · simp

end Lifecycle

/-! ## Agreement with the picker -/

namespace Picker

variable {σ : Type} {p q : Picker σ}

/-- The active locale of the dictionaries is the locale of the picker. -/
def Located (p : Picker σ) : Prop :=
  p.dictionaries.activeLocale = some p.locale

theorem Located.displays (located : p.Located) (shown : Displays p q) : q.Located := by
  rcases shown with ⟨events, rfl, _⟩
  exact located

variable [DictionaryStore σ] {recording rekeying : Bool}

theorem located_useLocale (p : Picker σ) (locale : String) : (p.useLocale locale).Located := by
  -- The dictionaries are given the normal form and normalize it again.
  have active := p.dictionaries.ensure_activeLocale (Locale.normalize locale)
  rw [Locale.normalize_normalize] at active
  exact active

theorem Located.step (located : p.Located) (step : Step recording rekeying p q) : q.Located := by
  cases step with
  | displayed shown => exact located.displays shown
  | shown => exact located
  | searched => exact located
  | selected => exact located
  | scrolled => exact located
  | rekeyed => exact located
  | settled => exact located
  | recorded key =>
      rcases noted_dictionaries p key with ⟨dictionaries, locale⟩
      rw [Located, dictionaries, locale]
      exact located
  | saved => exact located
  | switched => exact located
  | localized locale => exact p.located_useLocale locale
  | installed bytes locale =>
      exact (p.dictionaries.install_activeLocale bytes locale).trans located
  | closed => exact (Lifecycle.withdraw_activeLocale _ _).trans located

theorem Located.steps (located : p.Located) (steps : Steps recording rekeying p q) : q.Located := by
  induction steps with
  | refl => exact located
  | tail _ step ih => exact ih.step step

/-- A start makes the two agree, whatever they were before. -/
theorem located_start (p : Picker σ) (locale : String) : (p.start locale).Located := by
  have located : Located { p.useLocale locale with visible := true } := p.located_useLocale locale
  rcases start_cases p locale with shown | ⟨page, remembered, shown⟩
  · exact located.displays shown
  · have entered : Located (entering { p.useLocale locale with visible := true }
        p.navigation.cursor.category page remembered) := located
    exact entered.displays shown

theorem Located.run (located : p.Located) (events : List PickerEvent) : (p.run events).Located := by
  induction events generalizing p with
  | nil => exact located
  | cons event rest ih => exact ih (located.steps (p.steps_react event))

/-- Where the two agree, failures and successes for another locale are dropped alike. -/
theorem completeDownload_stale (located : p.Located) {outcome : DownloadOutcome}
    (stale : Locale.normalize outcome.locale ≠ p.locale) : p.completeDownload outcome = p := by
  have inactive : p.dictionaries.activeLocale ≠ some (Locale.normalize outcome.locale) := by
    rw [located]
    exact fun same => stale (Option.some.inj same).symm
  rw [completeDownload]
  cases outcome.result with
  | error reason => simp [stale]
  | ok bytes => simp only [Lifecycle.install_inactive inactive bytes]

end Picker
end EmojiPicker
