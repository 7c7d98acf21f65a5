import EmojiPicker.Json.Strings
import Mathlib.Data.List.Forall2

/-!
# Lists of texts come back from their documents

* `Json.Token.scanFrom?_escape` — an escaped character is read as one part that spells it;
* `Json.Token.scanFrom?_quote` — a string literal is read as one token;
* `Json.ofTokens?_strings` — the tokens of an array of strings are read as the array;
* `Json.parseTexts?_printTexts` — the document of some texts is read as the texts.

Each statement on a part of a document is about any text behind it, since the scanner never looks
back.
-/

namespace EmojiPicker
namespace Json

/-! ## Parts of a string -/

/-- A part that spells a character: the character itself, or the number of a control. -/
def Spells (part : StringPart) (c : Char) : Prop :=
  part = .char c ∨ (c.toNat < 0x20 ∧ part = .unit c.toNat)

theorem assemble?_control {n : Nat} (control : n < 0x20) (rest : List StringPart) :
    assemble? (.unit n :: rest) = (Char.ofNat n :: ·) <$> assemble? rest := by
  have high : isHighSurrogate n = false := by
    simp only [isHighSurrogate, Bool.and_eq_false_iff, decide_eq_false_iff_not]
    omega
  have low : isLowSurrogate n = false := by
    simp only [isLowSurrogate, Bool.and_eq_false_iff, decide_eq_false_iff_not]
    omega
  -- A control is half of no pair, so it does not matter what comes behind it.
  cases rest with
  | nil => simp [assemble?, high, low]
  | cons part rest =>
      cases part with
      | char c => simp [assemble?, high, low]
      | unit m => simp [assemble?, high, low]

theorem assemble?_of_spells {parts : List StringPart} {cs : List Char}
    (h : List.Forall₂ Spells parts cs) : assemble? parts = some cs := by
  induction h with
  | nil => rfl
  | cons spells _ ih =>
      rcases spells with rfl | ⟨control, rfl⟩
      · rw [assemble?, ih]
        rfl
      · rw [assemble?_control control, ih, Char.ofNat_toNat]
        rfl

theorem hexValue?_hexDigit : ∀ n < 16, hexValue? (hexDigit n) = some n := by decide

namespace Token

/-! ## Characters -/

/-- A character that completes no token. -/
theorem scanFrom?_quiet {position next : Position} {c : Char}
    (h : advance? position c = some ([], next)) (rest : List Char) :
    scanFrom? position (c :: rest) = scanFrom? next rest := by
  rw [scanFrom?, h]
  simp

/-- A character that completes one. -/
theorem scanFrom?_token {position next : Position} {c : Char} {t : Token}
    (h : advance? position c = some ([t], next)) (rest : List Char) :
    scanFrom? position (c :: rest) = (t :: ·) <$> scanFrom? next rest := by
  rw [scanFrom?, h]
  cases later : scanFrom? next rest <;> simp [later]

/-- A character is written by a short escape, by its number, or as itself. -/
theorem escape_cases (c : Char) :
    (∃ letter, letter ≠ 'u' ∧ shortEscape? letter = some c ∧ escape c = ['\\', letter]) ∨
      (c.toNat < 0x20 ∧
        escape c = ['\\', 'u', '0', '0', hexDigit (c.toNat / 16), hexDigit (c.toNat % 16)]) ∨
      (c ≠ '"' ∧ c ≠ '\\' ∧ 0x20 ≤ c.toNat ∧ escape c = [c]) := by
  rw [escape]
  split
  · next h => exact Or.inl ⟨'"', by decide, by rw [eq_of_beq h]; rfl, rfl⟩
  next quote =>
  split
  · next h => exact Or.inl ⟨'\\', by decide, by rw [eq_of_beq h]; rfl, rfl⟩
  next backslash =>
  split
  · next h => exact Or.inl ⟨'b', by decide, by rw [eq_of_beq h]; rfl, rfl⟩
  split
  · next h => exact Or.inl ⟨'f', by decide, by rw [eq_of_beq h]; rfl, rfl⟩
  split
  · next h => exact Or.inl ⟨'n', by decide, by rw [eq_of_beq h]; rfl, rfl⟩
  split
  · next h => exact Or.inl ⟨'r', by decide, by rw [eq_of_beq h]; rfl, rfl⟩
  split
  · next h => exact Or.inl ⟨'t', by decide, by rw [eq_of_beq h]; rfl, rfl⟩
  split
  · next control => exact Or.inr (Or.inl ⟨control, rfl⟩)
  · next plain =>
      exact Or.inr (Or.inr ⟨by simpa using quote, by simpa using backslash, by omega, rfl⟩)

/-- A digit of the number of a code unit, before the last one. -/
theorem scanFrom?_digit (read : List StringPart) {n missing : Nat} (digit : n < 16)
    (more : 1 < missing) (value : Nat) (rest : List Char) :
    scanFrom? (.inUnit read missing value) (hexDigit n :: rest) =
      scanFrom? (.inUnit read (missing - 1) (value * 16 + n)) rest := by
  apply scanFrom?_quiet
  rw [advance?, hexValue?_hexDigit n digit, Option.map_some, if_neg (by omega)]

theorem scanFrom?_lastDigit (read : List StringPart) {n : Nat} (digit : n < 16) (value : Nat)
    (rest : List Char) :
    scanFrom? (.inUnit read 1 value) (hexDigit n :: rest) =
      scanFrom? (.inString (.unit (value * 16 + n) :: read)) rest := by
  apply scanFrom?_quiet
  rw [advance?, hexValue?_hexDigit n digit, Option.map_some, if_pos (by omega)]

theorem scanFrom?_escape (c : Char) (read : List StringPart) (rest : List Char) :
    ∃ part, Spells part c ∧
      scanFrom? (.inString read) (escape c ++ rest) =
        scanFrom? (.inString (part :: read)) rest := by
  rcases escape_cases c with
    ⟨letter, notUnit, stands, written⟩ | ⟨control, written⟩ | ⟨quote, backslash, plain, written⟩
  · -- a short escape
    refine ⟨.char c, Or.inl rfl, ?_⟩
    rw [written, List.cons_append, List.singleton_append, scanFrom?_quiet (by rfl)]
    apply scanFrom?_quiet
    rw [advance?, if_neg (by simpa using notUnit), stands]
    rfl
  · -- four digits, the first two of them zeros
    refine ⟨.unit c.toNat, Or.inr ⟨control, rfl⟩, ?_⟩
    have number : ((0 * 16 + 0) * 16 + 0) * 16 + c.toNat / 16 = c.toNat / 16 := by omega
    have whole : c.toNat / 16 * 16 + c.toNat % 16 = c.toNat := by omega
    rw [written]
    simp only [List.cons_append, List.nil_append]
    rw [scanFrom?_quiet (by rfl), scanFrom?_quiet (by rfl)]
    have zero : '0' = hexDigit 0 := rfl
    rw [zero, scanFrom?_digit read (by omega) (by omega), scanFrom?_digit read (by omega) (by omega),
      scanFrom?_digit read (by omega) (by omega), scanFrom?_lastDigit read (by omega), number, whole]
  · -- the character itself
    refine ⟨.char c, Or.inl rfl, ?_⟩
    rw [written, List.singleton_append]
    apply scanFrom?_quiet
    rw [advance?, if_neg (by simpa using quote), if_neg (by simpa using backslash),
      if_neg (by omega)]

/-! ## String literals -/

theorem scanFrom?_escapes (cs : List Char) (read : List StringPart) (rest : List Char) :
    ∃ parts, List.Forall₂ Spells parts cs ∧
      scanFrom? (.inString read) (cs.flatMap escape ++ rest) =
        scanFrom? (.inString (parts.reverse ++ read)) rest := by
  induction cs generalizing read with
  | nil => exact ⟨[], .nil, rfl⟩
  | cons c cs ih =>
      rcases scanFrom?_escape c read (cs.flatMap escape ++ rest) with ⟨part, spells, first⟩
      rcases ih (part :: read) with ⟨parts, spelled, others⟩
      refine ⟨part :: parts, .cons spells spelled, ?_⟩
      rw [List.flatMap_cons, List.append_assoc, first, others, List.reverse_cons,
        List.append_assoc, List.singleton_append]

theorem scanFrom?_quote (cs rest : List Char) :
    scanFrom? .outside (quote cs ++ rest) =
      (string (some cs) :: ·) <$> scanFrom? .outside rest := by
  rcases scanFrom?_escapes cs [] ('"' :: rest) with ⟨parts, spelled, inside⟩
  have written : quote cs ++ rest = '"' :: (cs.flatMap escape ++ '"' :: rest) := by
    simp [quote]
  -- The parts were collected in reverse, and the closing quote turns them round.
  have closing : advance? (.inString (parts.reverse ++ [])) '"' =
      some ([string (some cs)], .outside) := by
    rw [List.append_nil, advance?, if_pos (by rfl), List.reverse_reverse,
      assemble?_of_spells spelled]
  rw [written, scanFrom?_quiet (by rfl), inside, scanFrom?_token closing]

/-! ## Arrays of strings -/

/-- The tokens of some strings with a comma before each. -/
def following : List String → List Token
  | [] => [closeArray]
  | t :: rest => comma :: string (some t.toList) :: following rest

/-- The tokens of an array of strings. -/
def ofStrings : List String → List Token
  | [] => [openArray, closeArray]
  | t :: rest => openArray :: string (some t.toList) :: following rest

theorem intercalate_comma (text : List Char) (texts : List (List Char)) :
    [','].intercalate (text :: texts) = text ++ texts.flatMap (',' :: ·) := by
  induction texts generalizing text with
  | nil => simp [List.intercalate]
  | cons next rest ih =>
      have split : [','].intercalate (text :: next :: rest) =
          text ++ ',' :: [','].intercalate (next :: rest) := by
        simp [List.intercalate, List.intersperse]
      rw [split, ih, List.flatMap_cons, List.cons_append]

theorem scanFrom?_following (texts : List String) :
    scanFrom? .outside (texts.flatMap (fun t => ',' :: quote t.toList) ++ [']']) =
      some (following texts) := by
  induction texts with
  | nil => rfl
  | cons t rest ih =>
      rw [List.flatMap_cons, List.append_assoc, List.cons_append, scanFrom?_token (by rfl),
        scanFrom?_quote, ih]
      rfl

theorem scan?_printTexts (texts : List String) :
    scan? (printTexts texts) = some (ofStrings texts) := by
  cases texts with
  | nil => rfl
  | cons t rest =>
      have written : printTexts (t :: rest) =
          '[' :: (quote t.toList ++ (rest.flatMap (fun t => ',' :: quote t.toList) ++ [']'])) := by
        simp [printTexts, intercalate_comma, List.flatMap_map]
      rw [written, scan?, scanFrom?_token (by rfl), scanFrom?_quote, scanFrom?_following]
      rfl

end Token

/-! ## Values -/

/-- The value that stands for some texts. -/
def ofTexts (texts : List String) : Json :=
  .array (texts.map fun t => .string (some t.toList))

theorem run?_following (texts : List String) (items : List Json) :
    run? .separator [.array items] (Token.following texts) =
      some (.array (items.reverse ++ texts.map fun t => .string (some t.toList))) := by
  induction texts generalizing items with
  | nil =>
      rw [List.map_nil, List.append_nil]
      rfl
  | cons t rest ih =>
      have step : run? .separator [.array items] (Token.following (t :: rest)) =
          run? .separator [.array (.string (some t.toList) :: items)] (Token.following rest) := rfl
      rw [step, ih, List.reverse_cons, List.append_assoc]
      rfl

theorem ofTokens?_strings (texts : List String) :
    ofTokens? (Token.ofStrings texts) = some (ofTexts texts) := by
  cases texts with
  | nil => rfl
  | cons t rest =>
      have step : ofTokens? (Token.ofStrings (t :: rest)) =
          run? .separator [.array [.string (some t.toList)]] (Token.following rest) := rfl
      rw [step, run?_following]
      rfl

theorem texts?_ofTexts (texts : List String) : texts? (ofTexts texts) = some texts := by
  rw [texts?, ofTexts, listOf?]
  induction texts with
  | nil => rfl
  | cons t rest ih =>
      rw [List.map_cons, List.mapM_cons, ih, text?, Option.map_some, String.ofList_toList]
      rfl

/-- The document of some texts is read as these texts, whatever characters they hold. -/
theorem parseTexts?_printTexts (texts : List String) :
    parseTexts? (printTexts texts) = some texts := by
  have scanned : parse? (printTexts texts) = some (ofTexts texts) := by
    rw [parse?, Token.scan?_printTexts]
    exact ofTokens?_strings texts
  rw [parseTexts?, scanned]
  exact texts?_ofTexts texts

end Json
end EmojiPicker
