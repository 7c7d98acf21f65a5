import EmojiPicker.Picker
import EmojiPicker.Proofs.Dictionary.Installation
import EmojiPicker.Proofs.Text.Settled
import Mathlib.Data.List.Forall2

/-!
# Spellings of a locale

A locale may be written in capitals, with hyphens or underscores and with blanks around it.

* `Text.Neutral`, `Text.lowercase_map` — other characters that make no difference to letter case;
* `Locale.neutral_underscore` — an underscore for a hyphen is one of them;
* `Locale.Respelled` — a tag with some hyphens as underscores, and blanks around it;
* `Locale.normalize_respelled` — it has the same normal form;
* `Locale.Shares` — tags that no use of a locale tells apart;
* `Locale.spelling_forgotten` — a tag, its normal form and each of its spellings are such tags.

The lower case of a capital sigma depends on what stands around it. Neither a hyphen nor an underscore is a
letter, and neither is passed over on the way to one, so that one does for the other there too.
-/

namespace EmojiPicker
namespace Text

/-! ## Letter case and other characters -/

/-- A change of characters that neither blanks nor the rules of letter case take notice of. -/
structure Neutral (f : Char → Char) : Prop where
  blank : ∀ c, isBlank (f c) = isBlank c
  ignorable : ∀ c, isCaseIgnorable (f c) = isCaseIgnorable c
  cased : ∀ c, isCased (f c) = isCased c
  sigma : ∀ c, f c = 'Σ' ↔ c = 'Σ'
  small : ∀ final : Bool, f (if final then 'ς' else 'σ') = if final then 'ς' else 'σ'
  lower : ∀ c, lowerLetter (f c) = (lowerLetter c).map f

section Neutral

variable {f : Char → Char} (neutral : Neutral f)

include neutral

theorem trimStart_map (cs : List Char) : trimStart (cs.map f) = (trimStart cs).map f := by
  have same : isBlank ∘ f = isBlank := funext neutral.blank
  rw [trimStart, trimStart, List.dropWhile_map, same]

theorem trim_map (cs : List Char) : trim (cs.map f) = (trim cs).map f := by
  rw [trim, trim, trimEnd, trimEnd, trimStart_map neutral, ← List.map_reverse, trimStart_map neutral,
    List.map_reverse]

theorem meetsCased_map (cs : List Char) : meetsCased (cs.map f) = meetsCased cs := by
  have same : isCaseIgnorable ∘ f = isCaseIgnorable := funext neutral.ignorable
  rw [meetsCased, meetsCased, List.dropWhile_map, same, List.head?_map, Option.any_map]
  simp only [neutral.cased]

theorem lowerIn_map (before : List Char) (c : Char) (after : List Char) :
    lowerIn (before.map f) (f c) (after.map f) = (lowerIn before c after).map f := by
  have final : isWordFinal (before.map f) (after.map f) = isWordFinal before after := by
    rw [isWordFinal, isWordFinal, meetsCased_map neutral, meetsCased_map neutral]
  by_cases sigma : c = 'Σ'
  · have kept : f c = 'Σ' := (neutral.sigma c).2 sigma
    rw [kept, sigma, lowerIn_sigma, lowerIn_sigma, final, List.map_singleton, neutral.small]
  · have other : f c ≠ 'Σ' := fun same => sigma ((neutral.sigma c).1 same)
    rw [lowerIn_of_ne other, lowerIn_of_ne sigma, neutral.lower]

theorem lowercaseAfter_map (before cs : List Char) :
    lowercaseAfter (before.map f) (cs.map f) = (lowercaseAfter before cs).map f := by
  induction cs generalizing before with
  | nil => rfl
  | cons c rest ih =>
      rw [List.map_cons, lowercaseAfter_cons, lowercaseAfter_cons, List.map_append, lowerIn_map neutral,
        ← List.map_cons, ih]

theorem lowercase_map (cs : List Char) : lowercase (cs.map f) = (lowercase cs).map f :=
  lowercaseAfter_map neutral [] cs

end Neutral

/-! ## Hyphens -/

theorem ascii_hyphen : ∀ n < 0x80, (Char.ofNat n).toLower = '-' → Char.ofNat n = '-' := by
  decide +kernel

theorem hyphen_not_mem_lowers : '-'.toNat ∉ lowers := by
  decide +kernel

/-- No letter becomes a hyphen. -/
theorem hyphen_not_mem_lowerLetter {c : Char} (other : c ≠ '-') : '-' ∉ lowerLetter c := by
  intro there
  -- The hyphen would come from ASCII, from the dotted capital I, from the table or from itself.
  rcases mem_lowerLetter there with ⟨ascii, same⟩ | (same | same) | ⟨n, member, same⟩ | ⟨same, -⟩
  · have hyphen := ascii_hyphen c.toNat ascii
    rw [Char.ofNat_toNat] at hyphen
    exact other (hyphen same.symm)
  · exact absurd same (by decide)
  · exact absurd same (by decide)
  · have listed := List.all_eq_true.1 lowers_not_blank n member
    simp only [Bool.and_eq_true, beq_iff_eq] at listed
    rw [← same] at listed
    exact hyphen_not_mem_lowers (listed.1 ▸ member)
  · exact other same.symm

end Text

namespace Locale

/-! ## Underscores for hyphens -/

/-- What is the same for a hyphen and an underscore is the same before and after. -/
theorem congr_underscore {α : Type} {p : Char → α} (same : p '_' = p '-') (c : Char) :
    p (underscore c) = p c := by
  by_cases hyphen : c = '-'
  · rw [hyphen]
    exact same
  · rw [underscore_eq_self hyphen]

theorem lowerLetter_underscore (c : Char) :
    Text.lowerLetter (underscore c) = (Text.lowerLetter c).map underscore := by
  by_cases hyphen : c = '-'
  · rw [hyphen]
    decide +kernel
  · have kept : (Text.lowerLetter c).map underscore = (Text.lowerLetter c).map id := by
      apply List.map_congr_left
      -- So there is nothing to put an underscore for.
      intro d there
      exact underscore_eq_self fun same => Text.hyphen_not_mem_lowerLetter hyphen (same ▸ there)
    rw [underscore_eq_self hyphen, kept, List.map_id]

theorem neutral_underscore : Text.Neutral underscore where
  blank := congr_underscore (by decide)
  ignorable := congr_underscore (by decide +kernel)
  cased := congr_underscore (by decide +kernel)
  sigma := fun c => by
    by_cases hyphen : c = '-'
    · rw [hyphen]
      decide
    · rw [underscore_eq_self hyphen]
  small := by decide
  lower := lowerLetter_underscore

/-! ## Other spellings -/

/-- One character of a tag in another spelling. -/
def Underscored (c d : Char) : Prop :=
  d = c ∨ c = '-' ∧ d = '_'

instance (c d : Char) : Decidable (Underscored c d) :=
  inferInstanceAs (Decidable (_ ∨ _))

/-- A tag with some of its hyphens as underscores, and with blanks in front and behind. -/
inductive Respelled (tag : String) : String → Prop where
  | around {front core back : List Char} (blankFront : ∀ c ∈ front, Text.isBlank c = true)
      (underscored : List.Forall₂ Underscored tag.toList core)
      (blankBack : ∀ c ∈ back, Text.isBlank c = true) :
      Respelled tag (String.ofList (front ++ core ++ back))

theorem map_underscored {cs ds : List Char} (underscored : List.Forall₂ Underscored cs ds) :
    ds.map underscore = cs.map underscore := by
  induction underscored with
  | nil => rfl
  | cons first _ ih =>
      have here : ∀ {c d}, Underscored c d → underscore d = underscore c := by
        rintro c d (rfl | ⟨rfl, rfl⟩)
        · rfl
        · decide
      rw [List.map_cons, List.map_cons, here first, ih]

/-- The normal form with the underscores first. -/
theorem normalize_eq (tag : String) :
    normalize tag = String.ofList (Text.lowercase (Text.trim (tag.toList.map underscore))) := by
  rw [Text.trim_map neutral_underscore, Text.lowercase_map neutral_underscore]
  rfl

theorem normalize_respelled {tag other : String} (respelled : Respelled tag other) :
    normalize other = normalize tag := by
  cases respelled with
  | @around front core back blankFront underscored blankBack =>
      -- The blanks go first, and the underscores are all put in before the lower case.
      have trimmed : Text.trim (front ++ core ++ back) = Text.trim core := by
        rw [Text.trim_append_right blankBack, Text.trim_append_left blankFront]
      have inner : normalize (String.ofList (front ++ core ++ back)) = normalize (String.ofList core) := by
        rw [normalize, normalize, String.toList_ofList, String.toList_ofList, trimmed]
      rw [inner, normalize_eq, normalize_eq, String.toList_ofList, map_underscored underscored]

/-! ## What a locale is used for -/

/-- Tags with one normal form, one language, one file name and one directory in every cache, and after which
a picker is the same. -/
structure Shares (tag other : String) : Prop where
  normal : normalize other = normalize tag
  language : language other = language tag
  fileName : fileName other = fileName tag
  directory : ∀ cache : DictionaryCache, cache.directory other = cache.directory tag
  used : ∀ p : Picker DictionaryCache, p.useLocale other = p.useLocale tag

/-- Nothing but the normal form of a locale is used. -/
theorem shares_of_normal {tag other : String} (normal : normalize other = normalize tag) :
    Shares tag other where
  normal := normal
  language := by rw [language, language, normal]
  fileName := by rw [fileName, fileName, language, language, normal]
  directory := fun cache => by rw [DictionaryCache.directory, DictionaryCache.directory, normal]
  used := fun p => by rw [Picker.useLocale, Picker.useLocale, normal]

/-- A tag, its normal form and all its spellings cannot be told apart, and the tags that agree with it are
all that cannot. -/
theorem spelling_forgotten (tag : String) :
    Shares tag (normalize tag) ∧ agree tag (normalize tag) = true ∧
      (∀ other, Respelled tag other → Shares tag other) ∧
      ∀ other, agree tag other = true ↔ Shares tag other := by
  refine ⟨shares_of_normal (normalize_normalize tag), ?_, ?_, ?_⟩
  · rw [agree, normalize_normalize, beq_self_eq_true]
  · intro other respelled
    exact shares_of_normal (normalize_respelled respelled)
  · intro other
    rw [agree, beq_iff_eq]
    exact ⟨fun same => shares_of_normal same.symm, fun shares => shares.normal.symm⟩

/-- A sigma that ends a word before the hyphen, which becomes an underscore. -/
theorem spelling_forgotten_sigma :
    Respelled "ΟΔΟΣ-ΑΣ" "\u2003ΟΔΟΣ_ΑΣ\n" ∧ normalize "\u2003ΟΔΟΣ_ΑΣ\n" = "οδος_ας" ∧
      language "\u2003ΟΔΟΣ_ΑΣ\n" = "οδος" ∧ fileName "\u2003ΟΔΟΣ_ΑΣ\n" = "emoji_οδος.dict" := by
  have respelled : Respelled "ΟΔΟΣ-ΑΣ" "\u2003ΟΔΟΣ_ΑΣ\n" := by
    have parts : "\u2003ΟΔΟΣ_ΑΣ\n" = String.ofList (['\u2003'] ++ "ΟΔΟΣ_ΑΣ".toList ++ ['\n']) := by
      decide
    rw [parts]
    refine .around (List.all_eq_true.1 ?_) ?_ (List.all_eq_true.1 ?_)
    · decide
    · decide
    · decide
  have shares := (spelling_forgotten "ΟΔΟΣ-ΑΣ").2.2.1 _ respelled
  have normal : normalize "ΟΔΟΣ-ΑΣ" = "οδος_ας" := by decide +kernel
  refine ⟨respelled, ?_, ?_, ?_⟩
  · rw [shares.normal, normal]
  · rw [shares.language, language, normal]
    decide +kernel
  · rw [shares.fileName, fileName, language, normal]
    decide +kernel

end Locale
end EmojiPicker
