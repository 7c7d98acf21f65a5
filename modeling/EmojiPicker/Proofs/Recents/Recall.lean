import EmojiPicker.Recents
import Mathlib.Data.List.Induction
import Mathlib.Data.List.Nodup

/-!
# What picks leave in the recently used emoji

The visible list, the buffer and the flush compared with one closed form.

* `recalled` — the list that some picks leave: the latest first, each key once, cut at the capacity;
* `Recents.Sound` — no key twice, no empty key and no more keys than the capacity, in both lists;
* `Recents.flushed` — the visible list as it will be once the buffer shows;
* `Recents.addAll_visible`, `Recents.flushed_addPending` — direct and buffered picks both follow
  `recalled`.

The buffer drops its oldest key when it is full. That is harmless only because the keys behind it
would push that key out of the visible list anyway, which is what `recalled_drop_first` says.
-/

namespace EmojiPicker

/-- The keys that some picks, the oldest first, leave of a list: the latest pick first, each key
once, and no more than the capacity. The empty key is no pick. -/
def recalled (capacity : Nat) (keys picks : List String) : List String :=
  ((picks.filter (! ·.isEmpty)).reverse ++ keys).eraseDups.take capacity

/-! ## Lists without repetitions -/

section Lists

variable {α : Type} [BEq α] [LawfulBEq α]

theorem nodup_eraseDups (xs : List α) : xs.eraseDups.Nodup := by
  match xs with
  | [] => simp
  | x :: rest =>
      have shorter : (rest.filter fun y => ! y == x).length < rest.length + 1 :=
        Nat.lt_succ_of_le (List.length_filter_le _ _)
      rw [List.eraseDups_cons, List.nodup_cons]
      refine ⟨?_, nodup_eraseDups _⟩
      intro hx
      rw [List.mem_eraseDups, List.mem_filter] at hx
      simp at hx
termination_by xs.length

/-- What is not in a list is filtered out in vain. -/
theorem filter_ne_eq_self {x : α} {xs : List α} (h : x ∉ xs) : xs.filter (· != x) = xs := by
  rw [List.filter_eq_self]
  intro y hy
  have : y ≠ x := fun same => h (same ▸ hy)
  simpa using this

theorem eraseDups_eq_self {xs : List α} (h : xs.Nodup) : xs.eraseDups = xs := by
  induction xs with
  | nil => rfl
  | cons x rest ih =>
      have fresh : (rest.filter fun y => ! y == x) = rest :=
        filter_ne_eq_self (List.nodup_cons.1 h).1
      rw [List.eraseDups_cons, fresh, ih (List.nodup_cons.1 h).2]

theorem eraseDups_filter (p : α → Bool) (xs : List α) :
    (xs.filter p).eraseDups = xs.eraseDups.filter p := by
  match xs with
  | [] => rfl
  | x :: rest =>
      have shorter : (rest.filter fun y => ! y == x).length < rest.length + 1 :=
        Nat.lt_succ_of_le (List.length_filter_le _ _)
      have ih := eraseDups_filter p (rest.filter fun y => ! y == x)
      rw [List.eraseDups_cons, List.filter_cons, List.filter_cons]
      split
      · rw [List.eraseDups_cons, List.filter_filter, ← ih, List.filter_filter]
        simp only [Bool.and_comm]
      · next hx =>
          -- The first element fails the test, and so do its repetitions.
          rw [← ih, List.filter_filter]
          congr 1
          apply List.filter_congr
          intro y _
          by_cases hy : y = x
          · subst hy
            simp [hx]
          · simp [hy]
termination_by xs.length

/-- What stands first in a list decides alone which elements are kept first. -/
theorem eraseDups_append_of_nodup {xs : List α} (h : xs.Nodup) (ys : List α) :
    ∃ rest, (xs ++ ys).eraseDups = xs ++ rest := by
  rw [List.eraseDups_append, eraseDups_eq_self h]
  exact ⟨_, rfl⟩

end Lists

/-- Cutting a list before a key is moved to its front costs nothing: at most one key moves. -/
theorem take_filter_take (key : String) (n : Nat) {xs : List String} (h : xs.Nodup) :
    ((xs.take (n + 1)).filter (· != key)).take n = (xs.filter (· != key)).take n := by
  induction xs generalizing n with
  | nil => simp
  | cons x rest ih =>
      have hx : x ∉ rest := (List.nodup_cons.1 h).1
      have tail := (List.nodup_cons.1 h).2
      by_cases same : x = key
      · -- The key stands here, and nowhere behind.
        subst same
        have cut : x ∉ rest.take n := fun member => hx (List.take_subset n rest member)
        rw [List.take_succ_cons, List.filter_cons_of_neg (by simp), List.filter_cons_of_neg (by simp),
          filter_ne_eq_self cut, filter_ne_eq_self hx, List.take_take, Nat.min_self]
      · have kept : (x != key) = true := by simpa using same
        rw [List.take_succ_cons, List.filter_cons, List.filter_cons, if_pos kept, if_pos kept]
        cases n with
        | zero => rfl
        | succ n => rw [List.take_succ_cons, List.take_succ_cons, ih n tail]

/-- Without the empty key nothing is sorted out. -/
theorem filter_nonempty_eq_self {keys : List String} (h : "" ∉ keys) :
    keys.filter (! ·.isEmpty) = keys := by
  rw [List.filter_eq_self]
  intro key hkey
  have : key ≠ "" := fun same => h (same ▸ hkey)
  simpa using this

/-! ## The closed form -/

theorem nodup_recalled (capacity : Nat) (keys picks : List String) :
    (recalled capacity keys picks).Nodup :=
  (nodup_eraseDups _).sublist (List.take_sublist _ _)

theorem length_recalled_le (capacity : Nat) (keys picks : List String) :
    (recalled capacity keys picks).length ≤ capacity := by
  rw [recalled, List.length_take]
  exact Nat.min_le_left _ _

theorem recalled_nil {capacity : Nat} {keys : List String} (once : keys.Nodup)
    (fits : keys.length ≤ capacity) : recalled capacity keys [] = keys := by
  simp only [recalled, List.filter_nil, List.reverse_nil, List.nil_append]
  rw [eraseDups_eq_self once, List.take_of_length_le fits]

/-- The empty key leaves everything as it is. -/
theorem recalled_concat_empty (capacity : Nat) (keys picks : List String) :
    recalled capacity keys (picks ++ [""]) = recalled capacity keys picks := by
  simp [recalled]

theorem recalled_concat_eq (capacity : Nat) (keys picks : List String) {key : String}
    (hkey : key ≠ "") :
    recalled capacity keys (picks ++ [key]) =
      (key :: ((picks.filter (! ·.isEmpty)).reverse ++ keys)).eraseDups.take capacity := by
  simp [recalled, hkey]

/-- One more pick moves its key to the front. -/
theorem recalled_concat {capacity : Nat} (pos : 0 < capacity) (keys picks : List String) {key : String}
    (hkey : key ≠ "") :
    recalled capacity keys (picks ++ [key]) =
      (Recents.moveToFront key (recalled capacity keys picks)).take capacity := by
  obtain ⟨n, rfl⟩ : ∃ n, capacity = n + 1 := ⟨capacity - 1, by omega⟩
  rw [recalled_concat_eq _ _ _ hkey, List.eraseDups_cons, eraseDups_filter, Recents.moveToFront,
    List.take_succ_cons, List.take_succ_cons, recalled, take_filter_take key n (nodup_eraseDups _)]
  rfl

/-- Picks in two portions. -/
theorem recalled_append {capacity : Nat} (pos : 0 < capacity) (keys first second : List String) :
    recalled capacity keys (first ++ second) =
      recalled capacity (recalled capacity keys first) second := by
  -- The latest pick is the last one, so the induction takes the second portion from its end.
  induction second using List.reverseRecOn with
  | nil =>
      rw [List.append_nil, recalled_nil (nodup_recalled _ _ _) (length_recalled_le _ _ _)]
  | append_singleton picks key ih =>
      rw [← List.append_assoc]
      by_cases hkey : key = ""
      · rw [hkey, recalled_concat_empty, recalled_concat_empty, ih]
      · rw [recalled_concat pos _ _ hkey, recalled_concat pos _ _ hkey, ih]

/-- An earlier pick of a key that is picked again does not count. -/
theorem recalled_filter_concat {capacity : Nat} (keys picks : List String) {key : String}
    (hkey : key ≠ "") :
    recalled capacity keys (picks.filter (· != key) ++ [key]) = recalled capacity keys (picks ++ [key]) := by
  have same : ((picks.filter (· != key)).filter (! ·.isEmpty)).reverse.filter (fun y => ! y == key) =
      ((picks.filter (! ·.isEmpty)).reverse).filter (fun y => ! y == key) := by
    rw [List.filter_reverse, List.filter_reverse, List.filter_filter, List.filter_filter,
      List.filter_filter]
    congr 1
    apply List.filter_congr
    intro y _
    cases h : y == key <;> simp [bne, h]
  rw [recalled_concat_eq _ _ _ hkey, recalled_concat_eq _ _ _ hkey, List.eraseDups_cons,
    List.eraseDups_cons, List.filter_append, List.filter_append, same]

/-- As many later picks as the capacity push the earlier one out. -/
theorem recalled_drop_first {capacity : Nat} (keys : List String) (oldest : String)
    {picks : List String} (once : picks.Nodup) (nonempty : "" ∉ picks)
    (full : capacity ≤ picks.length) :
    recalled capacity keys (oldest :: picks) = recalled capacity keys picks := by
  have kept := filter_nonempty_eq_self nonempty
  -- Reversed, the later picks come first, and they fill the list.
  have front : ∀ rest, (picks.reverse ++ rest).eraseDups.take capacity = picks.reverse.take capacity := by
    intro rest
    obtain ⟨more, hmore⟩ := eraseDups_append_of_nodup (List.nodup_reverse.2 once) rest
    rw [hmore, List.take_append_of_le_length (by simpa using full)]
  rw [recalled, recalled, List.filter_cons]
  split
  · rw [List.reverse_cons, kept, List.append_assoc, front, front]
  · rfl

namespace Recents

/-- The shape of both lists: no key twice, no empty key, and no more keys than the capacity. -/
structure Sound (r : Recents) : Prop where
  visible_nodup : r.visible.Nodup
  visible_le : r.visible.length ≤ r.capacity
  visible_nonempty : "" ∉ r.visible
  pending_nodup : r.pending.Nodup
  pending_le : r.pending.length ≤ r.capacity
  pending_nonempty : "" ∉ r.pending

/-- The visible list once the buffer shows. -/
def flushed (r : Recents) : List String :=
  r.flushPending.2.visible

theorem sound_empty (capacity : Nat) : (empty capacity).Sound := by
  constructor <;> simp [empty]

theorem mem_moveToFront {key other : String} {keys : List String}
    (h : other ∈ moveToFront key keys) : other = key ∨ other ∈ keys := by
  rw [moveToFront, List.mem_cons] at h
  exact h.imp_right fun h => (List.mem_filter.1 h).1

theorem moveToFront_head {key : String} {keys : List String} (once : keys.Nodup)
    (front : keys.head? = some key) : moveToFront key keys = keys := by
  cases keys with
  | nil => simp at front
  | cons first rest =>
      obtain rfl : first = key := by simpa using front
      have fresh : first ∉ rest := (List.nodup_cons.1 once).1
      rw [moveToFront, List.filter_cons_of_neg (by simp), filter_ne_eq_self fresh]

/-! ## Direct picks -/

section Direct

variable {r : Recents}

theorem addFirst_capacity (r : Recents) (key : String) : (r.addFirst key).2.capacity = r.capacity := by
  rw [addFirst]
  split <;> rfl

theorem addFirst_pending (r : Recents) (key : String) : (r.addFirst key).2.pending = r.pending := by
  rw [addFirst]
  split <;> rfl

/-- A pick that reports no change makes none. -/
theorem addFirst_unchanged {key : String} (h : (r.addFirst key).1 = false) :
    (r.addFirst key).2 = r := by
  rw [addFirst] at h ⊢
  split at h
  · next same => rw [if_pos same]
  · exact absurd h (by simp)

theorem addFirst_visible (sound : r.Sound) (key : String) :
    (r.addFirst key).2.visible = recalled r.capacity r.visible [key] := by
  have start := recalled_nil sound.visible_nodup sound.visible_le
  by_cases hkey : key = ""
  · subst hkey
    rw [← List.nil_append [""], recalled_concat_empty, start]
    rfl
  · have moved := recalled_concat r.capacity_pos r.visible [] hkey
    rw [List.nil_append, start] at moved
    rw [moved, addFirst]
    split
    · next same =>
        -- The key is at the front already, so that moving it there changes nothing.
        have front : r.visible.head? = some key := by simpa [hkey] using same
        rw [moveToFront_head sound.visible_nodup front, List.take_of_length_le sound.visible_le]
    · rfl

theorem sound_addFirst (sound : r.Sound) (key : String) : (r.addFirst key).2.Sound := by
  have visible := addFirst_visible sound key
  have capacity := addFirst_capacity r key
  have pending := addFirst_pending r key
  refine ⟨?_, ?_, ?_, ?_, ?_, ?_⟩
  · rw [visible]
    exact nodup_recalled _ _ _
  · rw [visible, capacity]
    exact length_recalled_le _ _ _
  · intro h
    rw [addFirst] at h
    split at h
    · exact sound.visible_nonempty h
    · next change =>
        rcases mem_moveToFront (List.mem_of_mem_take h) with same | there
        · simp [← same] at change
        · exact sound.visible_nonempty there
  · rw [pending]
    exact sound.pending_nodup
  · rw [pending, capacity]
    exact sound.pending_le
  · rw [pending]
    exact sound.pending_nonempty

/-- A pick takes no place but that of an older one. -/
theorem addFirst_visible_ne_nil {key : String} (some : r.visible ≠ []) :
    (r.addFirst key).2.visible ≠ [] := by
  have := r.capacity_pos
  rw [addFirst]
  split
  · exact some
  · rw [moveToFront, ne_eq, List.take_eq_nil_iff]
    simp
    omega

theorem addAll_capacity (r : Recents) (keys : List String) : (r.addAll keys).2.capacity = r.capacity := by
  induction keys generalizing r with
  | nil => rfl
  | cons key rest ih => rw [addAll, ih, addFirst_capacity]

theorem addAll_pending (r : Recents) (keys : List String) : (r.addAll keys).2.pending = r.pending := by
  induction keys generalizing r with
  | nil => rfl
  | cons key rest ih => rw [addAll, ih, addFirst_pending]

theorem sound_addAll (sound : r.Sound) (keys : List String) : (r.addAll keys).2.Sound := by
  induction keys generalizing r with
  | nil => exact sound
  | cons key rest ih => exact ih (sound_addFirst sound key)

/-- Picks that report no change make none. -/
theorem addAll_unchanged {keys : List String} (h : (r.addAll keys).1 = false) :
    (r.addAll keys).2 = r := by
  induction keys generalizing r with
  | nil => rfl
  | cons key rest ih =>
      simp only [addAll, Bool.or_eq_false_iff] at h ⊢
      rw [ih h.2, addFirst_unchanged h.1]

theorem addAll_visible_ne_nil {keys : List String} (some : r.visible ≠ []) :
    (r.addAll keys).2.visible ≠ [] := by
  induction keys generalizing r with
  | nil => exact some
  | cons key rest ih => exact ih (addFirst_visible_ne_nil some)

theorem addAll_visible (sound : r.Sound) (keys : List String) :
    (r.addAll keys).2.visible = recalled r.capacity r.visible keys := by
  induction keys generalizing r with
  | nil => exact (recalled_nil sound.visible_nodup sound.visible_le).symm
  | cons key rest ih =>
      calc (r.addAll (key :: rest)).2.visible
          = ((r.addFirst key).2.addAll rest).2.visible := rfl
        _ = recalled r.capacity (recalled r.capacity r.visible [key]) rest := by
            rw [ih (sound_addFirst sound key), addFirst_capacity, addFirst_visible sound]
        _ = recalled r.capacity r.visible (key :: rest) := by
            rw [← recalled_append r.capacity_pos]
            rfl

end Direct

/-! ## Buffered picks -/

section Buffered

variable {r : Recents}

theorem flushPending_pending (r : Recents) : r.flushPending.2.pending = [] :=
  addAll_pending _ _

theorem flushPending_capacity (r : Recents) : r.flushPending.2.capacity = r.capacity :=
  addAll_capacity _ _

theorem flushPending_visible_ne_nil (some : r.visible ≠ []) : r.flushPending.2.visible ≠ [] :=
  addAll_visible_ne_nil some

/-- An emptied buffer leaves a sound store. -/
theorem sound_withoutPending (sound : r.Sound) : Sound { r with pending := [] } where
  visible_nodup := sound.visible_nodup
  visible_le := sound.visible_le
  visible_nonempty := sound.visible_nonempty
  pending_nodup := List.nodup_nil
  pending_le := Nat.zero_le _
  pending_nonempty := by simp

theorem sound_flushPending (sound : r.Sound) : r.flushPending.2.Sound :=
  sound_addAll (sound_withoutPending sound) _

/-- A flush that reports no change leaves the visible list alone. -/
theorem flushPending_unchanged (h : r.flushPending.1 = false) : r.flushed = r.visible := by
  rw [flushed, flushPending, addAll_unchanged h]

theorem flushed_eq (sound : r.Sound) : r.flushed = recalled r.capacity r.visible r.pending :=
  addAll_visible (sound_withoutPending sound) _

/-- Without a buffer the visible list is all there is. -/
theorem flushed_of_pending_nil (h : r.pending = []) : r.flushed = r.visible := by
  rw [flushed, flushPending, h]
  rfl

theorem addPending_visible (r : Recents) (key : String) : (r.addPending key).visible = r.visible := by
  rw [addPending]
  split <;> rfl

theorem addPending_capacity (r : Recents) (key : String) :
    (r.addPending key).capacity = r.capacity := by
  rw [addPending]
  split <;> rfl

theorem addPending_empty (r : Recents) : r.addPending "" = r := rfl

/-- The buffer that takes a key: without that key, and without its oldest key where it was full. -/
def makeRoom (r : Recents) (key : String) : List String :=
  if r.capacity ≤ (r.pending.filter (· != key)).length then (r.pending.filter (· != key)).drop 1
  else r.pending.filter (· != key)

theorem addPending_pending {key : String} (hkey : key ≠ "") :
    (r.addPending key).pending = r.makeRoom key ++ [key] := by
  rw [addPending, if_neg (by simpa using hkey)]
  rfl

theorem makeRoom_sublist (r : Recents) (key : String) :
    (r.makeRoom key).Sublist (r.pending.filter (· != key)) := by
  rw [makeRoom]
  split
  · exact List.drop_sublist _ _
  · exact List.Sublist.refl _

theorem length_makeRoom_lt (sound : r.Sound) (key : String) : (r.makeRoom key).length < r.capacity := by
  have le : (r.pending.filter (· != key)).length ≤ r.capacity :=
    Nat.le_trans (List.length_filter_le _ _) sound.pending_le
  have pos := r.capacity_pos
  rw [makeRoom]
  split
  · rw [List.length_drop]
    omega
  · omega

theorem nodup_makeRoom_concat (sound : r.Sound) (key : String) : (r.makeRoom key ++ [key]).Nodup := by
  have sub := makeRoom_sublist r key
  rw [List.nodup_append]
  refine ⟨(sound.pending_nodup.filter _).sublist sub, by simp, ?_⟩
  intro other hother last hlast same
  have : other ≠ key := by simpa using (List.mem_filter.1 (sub.subset hother)).2
  rw [List.mem_singleton] at hlast
  exact this (same.trans hlast)

theorem sound_addPending (sound : r.Sound) (key : String) : (r.addPending key).Sound := by
  by_cases hkey : key = ""
  · subst hkey
    rw [addPending_empty]
    exact sound
  have pending := addPending_pending (r := r) hkey
  have visible := addPending_visible r key
  have capacity := addPending_capacity r key
  refine ⟨?_, ?_, ?_, ?_, ?_, ?_⟩
  · rw [visible]
    exact sound.visible_nodup
  · rw [visible, capacity]
    exact sound.visible_le
  · rw [visible]
    exact sound.visible_nonempty
  · rw [pending]
    exact nodup_makeRoom_concat sound key
  · rw [pending, capacity, List.length_append]
    exact length_makeRoom_lt sound key
  · rw [pending, List.mem_append, List.mem_singleton]
    rintro (h | h)
    · exact sound.pending_nonempty (List.mem_filter.1 ((makeRoom_sublist r key).subset h)).1
    · exact hkey h.symm

/-- A buffered pick counts like a direct one, although the buffer may drop its oldest key for it. -/
theorem flushed_addPending (sound : r.Sound) (key : String) :
    (r.addPending key).flushed = recalled r.capacity r.flushed [key] := by
  rw [flushed_eq (sound_addPending sound key), flushed_eq sound, addPending_capacity,
    addPending_visible, ← recalled_append r.capacity_pos]
  by_cases hkey : key = ""
  · subst hkey
    rw [addPending_empty, recalled_concat_empty]
  rw [addPending_pending hkey, ← recalled_filter_concat r.visible r.pending hkey, makeRoom]
  split
  · next full =>
      -- The dropped key would be pushed out by the others, of which there are as many as fit.
      cases others : r.pending.filter (· != key) with
      | nil =>
          have pos := r.capacity_pos
          rw [others] at full
          exact absurd full (Nat.not_le.2 pos)
      | cons oldest kept =>
          have room : r.makeRoom key = kept := by rw [makeRoom, if_pos full, others]; rfl
          have once := nodup_makeRoom_concat sound key
          have nonempty := (sound_addPending sound key).pending_nonempty
          rw [addPending_pending hkey, room] at nonempty
          rw [room] at once
          rw [others, List.length_cons] at full
          exact (recalled_drop_first r.visible oldest once nonempty (by simpa using full)).symm
  · rfl

end Buffered

/-! ## Keys of an earlier run -/

theorem empty_capacity (capacity : Nat) : empty (empty capacity).capacity = empty capacity := by
  have same : max 1 (max 1 capacity) = max 1 capacity := by omega
  simp only [empty, same]

theorem restore_capacity (r : Recents) (keys : List String) : (r.restore keys).capacity = r.capacity :=
  addAll_capacity _ _

theorem restore_pending (r : Recents) (keys : List String) : (r.restore keys).pending = r.pending :=
  addAll_pending _ _

theorem sound_restore {r : Recents} (sound : r.Sound) (keys : List String) : (r.restore keys).Sound :=
  sound_addAll sound _

/-- The visible list of a store comes back from the keys that it shows. -/
theorem restore_visible {r : Recents} (sound : r.Sound) {capacity : Nat}
    (same : max 1 capacity = r.capacity) :
    ((empty capacity).restore r.visible).visible = r.visible := by
  have kept := filter_nonempty_eq_self sound.visible_nonempty
  have fits : r.visible.length ≤ max 1 capacity := same ▸ sound.visible_le
  -- The keys are added from the last to the first, which undoes the order of picks.
  rw [restore, addAll_visible (sound_empty capacity), recalled, List.filter_reverse, kept,
    List.reverse_reverse]
  change (r.visible ++ []).eraseDups.take (max 1 capacity) = r.visible
  rw [List.append_nil, eraseDups_eq_self sound.visible_nodup, List.take_of_length_le fits]

end Recents
end EmojiPicker
