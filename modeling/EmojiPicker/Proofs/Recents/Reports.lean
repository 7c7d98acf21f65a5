import EmojiPicker.Proofs.Recents.Runs

/-!
# What a flush reports

A flush says whether it changed the visible list. It puts the answer together from the answers of single
picks, while the list is before and after the whole buffer.

* `Recents.addAll_reports_iff` — picks report a change if one of them is not at the front already;
* `Recents.flushed_eq_visible_iff` — the visible list comes out as it was if it begins with the buffer;
* `Recents.flush_reports_iff` — the report is right unless several picks put the list back in order;
* `Recents.flush_puts_back` — two keys that change places and change back.

No change goes unreported. A change that is undone by the picks behind it is reported all the same, since
a pick does not see what the others will do.
-/

namespace EmojiPicker
namespace Recents

variable {r : Recents}

/-! ## Reports of picks -/

theorem addFirst_reports_iff (r : Recents) (key : String) :
    (r.addFirst key).1 = true ↔ key ≠ "" ∧ r.visible.head? ≠ some key := by
  rw [addFirst]
  split
  · next idle => simpa [Classical.or_iff_not_imp_left] using idle
  · next change => simpa using change

/-- As long as no pick reports a change, all picks find the same key at the front. -/
theorem addAll_reports_iff (r : Recents) (keys : List String) :
    (r.addAll keys).1 = true ↔ ∃ key ∈ keys, key ≠ "" ∧ r.visible.head? ≠ some key := by
  induction keys generalizing r with
  | nil => simp [addAll]
  | cons key rest ih =>
      have parts : (r.addAll (key :: rest)).1 =
          ((r.addFirst key).1 || ((r.addFirst key).2.addAll rest).1) := rfl
      rw [parts, List.exists_mem_cons_iff, ← addFirst_reports_iff]
      cases first : (r.addFirst key).1 with
      | true => simp
      | false =>
          rw [addFirst_unchanged first, Bool.false_or, ih]
          simp

theorem flushPending_reports_iff (r : Recents) :
    r.flushPending.1 = true ↔ ∃ key ∈ r.pending, key ≠ "" ∧ r.visible.head? ≠ some key :=
  addAll_reports_iff _ _

/-! ## The list before and after -/

/-- What a list begins with is not found behind. -/
theorem eraseDups_append_self {α : Type} [BEq α] [LawfulBEq α] {xs rest : List α}
    (once : (xs ++ rest).Nodup) : (xs ++ (xs ++ rest)).eraseDups = xs ++ rest := by
  have first : xs.Nodup := (List.nodup_append.1 once).1
  have behind : (xs ++ rest).removeAll xs = rest := by
    rw [List.removeAll, List.filter_append, List.filter_eq_nil_iff.2, List.nil_append,
      List.filter_eq_self.2]
    · intro x hx
      have apart : x ∉ xs := fun there => List.disjoint_of_nodup_append once there hx
      simpa using apart
    · intro x hx
      simpa using hx
  rw [List.eraseDups_append, behind, eraseDups_eq_self first,
    eraseDups_eq_self (List.nodup_append.1 once).2.1]

theorem flushed_eq_visible_iff (sound : r.Sound) :
    r.flushed = r.visible ↔ r.pending.reverse <+: r.visible := by
  have once : r.pending.reverse.Nodup := List.nodup_reverse.2 sound.pending_nodup
  have fits : r.pending.reverse.length ≤ r.capacity := by simpa using sound.pending_le
  rw [flushed_eq sound, recalled, filter_nonempty_eq_self sound.pending_nonempty]
  constructor
  · intro same
    obtain ⟨rest, split⟩ := eraseDups_append_of_nodup once r.visible
    rw [split] at same
    -- The capacity cuts nothing off the buffer.
    rw [← same, List.take_append, List.take_of_length_le fits]
    exact List.prefix_append _ _
  · rintro ⟨rest, begins⟩
    have visible := sound.visible_nodup
    rw [← begins] at visible
    calc (r.pending.reverse ++ r.visible).eraseDups.take r.capacity
        = (r.pending.reverse ++ (r.pending.reverse ++ rest)).eraseDups.take r.capacity := by
          rw [begins]
      _ = r.visible.take r.capacity := by rw [eraseDups_append_self visible, begins]
      _ = r.visible := List.take_of_length_le sound.visible_le

/-- Whether the picks of the buffer change the visible list on the way to putting it back in order. -/
def PutsBack (r : Recents) : Prop :=
  2 ≤ r.pending.length ∧ r.pending.reverse <+: r.visible

instance (r : Recents) : Decidable r.PutsBack :=
  inferInstanceAs (Decidable (_ ∧ _))

/-- A buffer of one key that is at the front already is the only one that does nothing on the way. -/
theorem reports_of_prefix_iff (sound : r.Sound) (begins : r.pending.reverse <+: r.visible) :
    r.flushPending.1 = true ↔ 2 ≤ r.pending.length := by
  rw [flushPending_reports_iff]
  obtain ⟨rest, visible⟩ := begins
  -- The latest pick of the buffer is at the front.
  cases latest : r.pending.reverse with
  | nil =>
      have none : r.pending = [] := List.reverse_eq_nil_iff.1 latest
      simp [none]
  | cons front others =>
      rw [latest] at visible
      have head : r.visible.head? = some front := by rw [← visible]; rfl
      have pending : r.pending = others.reverse ++ [front] := by
        simpa using congrArg List.reverse latest
      have once := sound.pending_nodup
      rw [pending, List.nodup_append] at once
      rw [head, pending]
      constructor
      · rintro ⟨key, member, -, differs⟩
        have other : key ∈ others := by
          have different : key ≠ front := fun same => differs (congrArg some same.symm)
          simpa [different] using member
        have some := List.length_pos_of_mem other
        simp
        omega
      · intro several
        cases others with
        | nil => simp at several
        | cons key more =>
            have member : key ∈ r.pending := by simp [pending]
            refine ⟨key, by simp, fun same => sound.pending_nonempty (same ▸ member), ?_⟩
            intro same
            exact once.2.2 key (by simp) front (by simp) (Option.some.inj same).symm

/-- In every store that operations lead to, a flush reports a change if the visible list is another one
afterwards. It reports nothing else exactly if the list does not begin with a buffer of two keys or more,
the latest first: those picks move keys until the list is as it was. -/
theorem flush_reports_iff (arises : r.Arises) :
    (r.flushPending.2.visible ≠ r.visible → r.flushPending.1 = true) ∧
      ((r.flushPending.1 = true ↔ r.flushPending.2.visible ≠ r.visible) ↔ ¬ r.PutsBack) := by
  have sound := arises_iff_sound.1 arises
  have same : r.flushPending.2.visible = r.visible ↔ r.pending.reverse <+: r.visible :=
    flushed_eq_visible_iff sound
  have told : r.flushPending.2.visible ≠ r.visible → r.flushPending.1 = true := by
    intro differs
    by_contra silent
    exact differs (flushPending_unchanged (by simpa using silent))
  refine ⟨told, ?_⟩
  by_cases begins : r.pending.reverse <+: r.visible
  · have report := reports_of_prefix_iff sound begins
    simp [PutsBack, same.2 begins, report, begins]
  · have differs : r.flushPending.2.visible ≠ r.visible := fun equal => begins (same.1 equal)
    simp [PutsBack, told differs, differs, begins]

/-- Two keys that change places for good. -/
theorem flush_reports_iff_swapped :
    let r := (empty 3).performAll [.restore ["🐶", "🐱"], .addPending "🐶", .addPending "🐱"]
    r.Arises ∧ ¬ r.PutsBack ∧ r.flushPending.2.visible ≠ r.visible ∧ r.flushPending.1 = true := by
  intro r
  have arises : r.Arises := ⟨3, [.restore ["🐶", "🐱"], .addPending "🐶", .addPending "🐱"], rfl⟩
  have settles : ¬ r.PutsBack := by decide
  have differs : r.flushPending.2.visible ≠ r.visible := by decide
  exact ⟨arises, settles, differs, ((flush_reports_iff arises).2.2 settles).2 differs⟩

/-- Of two keys the first pick takes the second place to the front and the second pick takes it back. The
flush reports a change that is none. -/
theorem flush_puts_back :
    let r := (empty 3).performAll [.restore ["🐱", "🐶"], .addPending "🐶", .addPending "🐱"]
    r.flushPending.2.visible = r.visible ∧
      ¬ (r.flushPending.1 = true ↔ r.flushPending.2.visible ≠ r.visible) := by
  decide

end Recents
end EmojiPicker
