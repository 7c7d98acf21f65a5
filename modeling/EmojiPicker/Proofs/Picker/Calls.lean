import EmojiPicker.Proofs.Dictionary.Publication
import EmojiPicker.Proofs.Picker.Steps

/-!
# What a picker asks of its dictionaries

A picker reaches its dictionaries by calls on their lifecycle and in no other way.

* `Picker.Calls` — the dictionaries of one picker are those of another one after some calls;
* `Picker.calls_of_steps`, `Picker.calls_feed` — every change, and every input of a session;
* `Picker.calls_start` — coming onto the screen.
-/

namespace EmojiPicker
namespace Picker

variable {σ : Type} {p q : Picker σ}

theorem Displays.dictionaries (shown : Displays p q) : q.dictionaries = p.dictionaries := by
  rcases shown with ⟨events, rfl, _⟩
  rfl

/-- A record leaves the dictionaries and the locale alone. -/
theorem noted_dictionaries (p : Picker σ) (key : String) :
    (p.noted key).dictionaries = p.dictionaries ∧ (p.noted key).locale = p.locale := by
  rw [noted]
  split
  · exact ⟨rfl, rfl⟩
  · split
    · exact ⟨rfl, rfl⟩
    · exact ⟨rfl, rfl⟩

variable [DictionaryStore σ] {recording rekeying : Bool}

/-- The dictionaries of one picker are those of another one after some calls. -/
def Calls (p q : Picker σ) : Prop :=
  ∃ calls, q.dictionaries = p.dictionaries.performAll calls

theorem calls_of_eq (same : q.dictionaries = p.dictionaries) : Calls p q :=
  ⟨[], same⟩

theorem Calls.trans {r : Picker σ} (first : Calls p q) (second : Calls q r) : Calls p r := by
  rcases first with ⟨calls, same⟩
  rcases second with ⟨more, further⟩
  exact ⟨calls ++ more, by rw [further, same, Lifecycle.performAll_append]⟩

theorem Step.calls (step : Step recording rekeying p q) : Calls p q := by
  cases step with
  | displayed shown => exact calls_of_eq shown.dictionaries
  | shown => exact calls_of_eq rfl
  | searched => exact calls_of_eq rfl
  | selected => exact calls_of_eq rfl
  | scrolled => exact calls_of_eq rfl
  | rekeyed => exact calls_of_eq rfl
  | settled => exact calls_of_eq rfl
  | recorded key => exact calls_of_eq (noted_dictionaries p key).1
  | saved => exact calls_of_eq rfl
  | switched => exact calls_of_eq rfl
  | localized locale => exact ⟨[.ensure (Locale.normalize locale)], rfl⟩
  | installed bytes locale => exact ⟨[.install bytes locale], rfl⟩
  | closed => exact ⟨[.close], rfl⟩

theorem calls_of_steps (steps : Steps recording rekeying p q) : Calls p q := by
  induction steps with
  | refl => exact calls_of_eq rfl
  | tail _ step ih => exact ih.trans step.calls

theorem calls_start (p : Picker σ) (locale : String) : Calls p (p.start locale) :=
  calls_of_steps (show Steps true true p _ from p.steps_start locale)

theorem calls_feed (p : Picker σ) (input : PickerInput) : Calls p (p.feed input) :=
  calls_of_steps (show Steps true true p _ from p.steps_feed input fun _ _ => rfl)

end Picker
end EmojiPicker
