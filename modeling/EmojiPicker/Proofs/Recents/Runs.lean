import EmojiPicker.Proofs.Recents.Recall

/-!
# Runs of operations on the recently used emoji

What every store is like, whatever was done to it since it was empty.

* `RecentsCall`, `Recents.perform`, `Recents.performAll` — one operation and a run of them;
* `Recents.Arises`, `Recents.arises_iff_sound` — the stores that runs lead to;
* `Recents.perform_bound`, `Recents.performAll_bound` — the capacity that a run leaves;
* `Recents.restore_law`, `Recents.resize_visible`, `Recents.resize_pending` — what two operations make of
  the lists;
* `Recents.represented_after_run` — the shape of a store and these laws, after any run;
* `Recents.flushPending_performAll_addPending`, `Recents.buffered_like_direct` — buffered picks show in the
  end as direct ones do at once.

The capacity may change in the middle of a run, so that the bound of both lists is the capacity of the
moment and not the one of the start.
-/

namespace EmojiPicker

inductive RecentsCall where
  | addFirst (key : String)
  | addPending (key : String)
  | flushPending
  | restore (keys : List String)
  | resize (capacity : Nat)
  deriving DecidableEq, Repr

/-- The capacity that was asked for last. -/
def RecentsCall.bound (capacity : Nat) : RecentsCall → Nat
  | .resize another => another
  | .addFirst _ | .addPending _ | .flushPending | .restore _ => capacity

namespace Recents

def perform (r : Recents) : RecentsCall → Recents
  | .addFirst key => (r.addFirst key).2
  | .addPending key => r.addPending key
  | .flushPending => r.flushPending.2
  | .restore keys => r.restore keys
  | .resize capacity => r.resize capacity

def performAll (r : Recents) (calls : List RecentsCall) : Recents :=
  calls.foldl perform r

/-- A store that some run leads to. -/
def Arises (r : Recents) : Prop :=
  ∃ capacity calls, (empty capacity).performAll calls = r

/-! ## One operation -/

section Operation

variable {r s : Recents}

theorem eq_of_parts (visible : r.visible = s.visible) (pending : r.pending = s.pending)
    (capacity : r.capacity = s.capacity) : r = s := by
  cases r
  cases s
  simp_all

/-- Another capacity cuts the visible list at its old end and the buffer too, which is its other end. -/
theorem sound_resize (sound : r.Sound) (capacity : Nat) : (r.resize capacity).Sound where
  visible_nodup := sound.visible_nodup.sublist (List.take_sublist _ _)
  visible_le := List.length_take_le _ _
  visible_nonempty := fun member => sound.visible_nonempty (List.mem_of_mem_take member)
  pending_nodup := sound.pending_nodup.sublist (List.drop_sublist _ _)
  pending_le := by
    simp only [resize, List.length_drop]
    omega
  pending_nonempty := fun member => sound.pending_nonempty (List.mem_of_mem_drop member)

theorem sound_perform (sound : r.Sound) (call : RecentsCall) : (r.perform call).Sound := by
  cases call with
  | addFirst key => exact sound_addFirst sound key
  | addPending key => exact sound_addPending sound key
  | flushPending => exact sound_flushPending sound
  | restore keys => exact sound_restore sound keys
  | resize capacity => exact sound_resize sound capacity

/-- No operation but a change of the capacity changes it. -/
theorem perform_bound {capacity : Nat} (bound : r.capacity = max 1 capacity) (call : RecentsCall) :
    (r.perform call).capacity = max 1 (call.bound capacity) := by
  cases call with
  | addFirst key => exact (addFirst_capacity r key).trans bound
  | addPending key => exact (addPending_capacity r key).trans bound
  | flushPending => exact (flushPending_capacity r).trans bound
  | restore keys => exact (restore_capacity r keys).trans bound
  | resize another => rfl

end Operation

/-! ## Runs -/

section Run

variable {r : Recents}

theorem sound_performAll (sound : r.Sound) (calls : List RecentsCall) : (r.performAll calls).Sound := by
  induction calls generalizing r with
  | nil => exact sound
  | cons call rest ih => exact ih (sound_perform sound call)

theorem performAll_bound {capacity : Nat} (bound : r.capacity = max 1 capacity)
    (calls : List RecentsCall) :
    (r.performAll calls).capacity = max 1 (calls.foldl RecentsCall.bound capacity) := by
  induction calls generalizing r capacity with
  | nil => exact bound
  | cons call rest ih => exact ih (perform_bound bound call)

/-- Keys that fit into the buffer beside those that it holds are buffered as they come. -/
theorem performAll_addPending {keys : List String} (once : (r.pending ++ keys).Nodup)
    (fits : (r.pending ++ keys).length ≤ r.capacity) (nonempty : "" ∉ keys) :
    r.performAll (keys.map .addPending) = { r with pending := r.pending ++ keys } := by
  -- Each pick takes its key from the list into the buffer, so that the store is general and the
  -- hypotheses speak of both parts at once.
  induction keys generalizing r with
  | nil => simp [performAll]
  | cons key rest ih =>
      have hkey : key ≠ "" := fun same => nonempty (same ▸ List.mem_cons_self)
      have fresh : key ∉ r.pending := fun there =>
        List.disjoint_of_nodup_append once there List.mem_cons_self
      -- A new key, so that the buffer is not full and nothing gives way.
      have room : ¬ r.capacity ≤ r.pending.length := by
        rw [List.length_append, List.length_cons] at fits
        omega
      have buffered : r.addPending key = { r with pending := r.pending ++ [key] } := by
        rw [addPending, if_neg (by simpa using hkey)]
        simp [filter_ne_eq_self fresh, room]
      have step := ih (r := r.addPending key)
      rw [buffered] at step
      simp only [List.append_assoc, List.singleton_append] at step
      calc r.performAll ((key :: rest).map .addPending)
          = (r.addPending key).performAll (rest.map .addPending) := rfl
        _ = { r with pending := r.pending ++ key :: rest } := by
            rw [buffered]
            exact step once fits fun there => nonempty (List.mem_cons_of_mem key there)

/-- The shape of a store says all that runs have in common: each store of this shape arises by one. -/
theorem arises_iff_sound : r.Arises ↔ r.Sound := by
  constructor
  · rintro ⟨capacity, calls, rfl⟩
    exact sound_performAll (sound_empty capacity) calls
  · intro sound
    have pos := r.capacity_pos
    have same : max 1 r.capacity = r.capacity := by omega
    -- The visible keys as those of an earlier run, and the others as picks that are buffered.
    refine ⟨r.capacity, .restore r.visible :: r.pending.map .addPending, ?_⟩
    have visible := restore_visible sound same
    have pending := restore_pending (empty r.capacity) r.visible
    have capacity := (restore_capacity (empty r.capacity) r.visible).trans same
    have started : (empty r.capacity).restore r.visible = { r with pending := [] } :=
      eq_of_parts visible pending capacity
    change ((empty r.capacity).restore r.visible).performAll _ = r
    rw [started, performAll_addPending (by simpa using sound.pending_nodup)
      (by simpa using sound.pending_le) sound.pending_nonempty]
    rfl

end Run

/-! ## Laws of the operations -/

section Laws

variable {r : Recents}

/-- The keys of an earlier run stand before those of the store, each at its first place, as far as they
fit. -/
theorem restore_law (sound : r.Sound) (keys : List String) :
    (r.restore keys).visible =
      ((keys ++ r.visible).filter (! ·.isEmpty)).eraseDups.take r.capacity := by
  have kept := filter_nonempty_eq_self sound.visible_nonempty
  rw [restore, addAll_visible sound, recalled, List.filter_reverse, List.reverse_reverse,
    List.filter_append, kept]

/-- The latest visible keys, as many as the new capacity allows. -/
theorem resize_visible (r : Recents) {capacity : Nat} (pos : 0 < capacity) :
    (r.resize capacity).visible = r.visible.take capacity := by
  have same : max 1 capacity = capacity := by omega
  change r.visible.take (max 1 capacity) = _
  rw [same]

/-- The latest buffered keys, which are the last ones. -/
theorem resize_pending (r : Recents) {capacity : Nat} (pos : 0 < capacity) :
    (r.resize capacity).pending.reverse = r.pending.reverse.take capacity := by
  have same : max 1 capacity = capacity := by omega
  change (r.pending.drop (r.pending.length - max 1 capacity)).reverse = _
  rw [same, List.take_reverse]

end Laws

/-- After any run both lists hold no key twice, no empty key and no more keys than the capacity asked for
last. Keys of an earlier run come before the visible ones, and another capacity keeps the latest keys of
both lists. -/
theorem represented_after_run (capacity : Nat) (calls : List RecentsCall) :
    let r := (empty capacity).performAll calls
    (r.visible.Nodup ∧ "" ∉ r.visible ∧ r.visible.length ≤ r.capacity) ∧
      (r.pending.Nodup ∧ "" ∉ r.pending ∧ r.pending.length ≤ r.capacity) ∧
      r.capacity = max 1 (calls.foldl RecentsCall.bound capacity) ∧
      (∀ keys : List String, (r.restore keys).visible =
        ((keys ++ r.visible).filter (! ·.isEmpty)).eraseDups.take r.capacity) ∧
      ∀ n, 0 < n →
        (r.resize n).visible = r.visible.take n ∧
        (r.resize n).pending.reverse = r.pending.reverse.take n := by
  intro r
  have sound : r.Sound := sound_performAll (sound_empty capacity) calls
  have bound : r.capacity = max 1 (calls.foldl RecentsCall.bound capacity) :=
    performAll_bound rfl calls
  refine ⟨⟨sound.visible_nodup, sound.visible_nonempty, sound.visible_le⟩,
    ⟨sound.pending_nodup, sound.pending_nonempty, sound.pending_le⟩, bound, restore_law sound, ?_⟩
  intro n pos
  exact ⟨resize_visible r pos, resize_pending r pos⟩

/-- A store that was cut between two restorations, with keys that come twice and do not fit. -/
theorem represented_after_run_cut :
    let r := (empty 3).performAll
      [.restore ["a", "b", "", "a", "c", "d"], .addPending "x", .addPending "y", .resize 2,
        .restore ["e", "a", "e"]]
    r.visible = ["e", "a"] ∧ r.pending = ["x", "y"] ∧
      (r.resize 1).visible = ["e"] ∧ (r.resize 1).pending.reverse = ["y"] := by
  intro r
  have run := represented_after_run 3
    [.restore ["a", "b", "", "a", "c", "d"], .addPending "x", .addPending "y", .resize 2,
      .restore ["e", "a", "e"]]
  have cut := run.2.2.2.2 1 (by decide)
  have visible : r.visible = ["e", "a"] := by decide
  have pending : r.pending = ["x", "y"] := by decide
  refine ⟨visible, pending, ?_, ?_⟩
  · rw [cut.1, visible]
    rfl
  · rw [cut.2, pending]
    rfl

/-! ## The buffer beside direct picks -/

section Buffer

variable {r : Recents}

theorem performAll_addFirst (r : Recents) (keys : List String) :
    r.performAll (keys.map .addFirst) = (r.addAll keys).2 := by
  induction keys generalizing r with
  | nil => rfl
  | cons key rest ih => exact ih (r.addFirst key).2

/-- Buffered picks leave the visible list and the capacity alone. -/
theorem performAll_addPending_visible (r : Recents) (keys : List String) :
    (r.performAll (keys.map .addPending)).visible = r.visible ∧
      (r.performAll (keys.map .addPending)).capacity = r.capacity := by
  induction keys generalizing r with
  | nil => exact ⟨rfl, rfl⟩
  | cons key rest ih =>
      have later := ih (r.addPending key)
      exact ⟨later.1.trans (addPending_visible r key), later.2.trans (addPending_capacity r key)⟩

/-- What the buffer drops would have been pushed out, however many picks there are. -/
theorem flushed_performAll_addPending (sound : r.Sound) (keys : List String) :
    (r.performAll (keys.map .addPending)).flushed = recalled r.capacity r.flushed keys := by
  -- The buffer of the first pick is described by what its flush would show, never by its own keys. So it
  -- does not matter which of these gave way.
  induction keys generalizing r with
  | nil =>
      have shown := sound_flushPending sound
      have fits : r.flushed.length ≤ r.capacity := flushPending_capacity r ▸ shown.visible_le
      exact (recalled_nil shown.visible_nodup fits).symm
  | cons key rest ih =>
      calc (r.performAll ((key :: rest).map .addPending)).flushed
          = ((r.addPending key).performAll (rest.map .addPending)).flushed := rfl
        _ = recalled r.capacity (recalled r.capacity r.flushed [key]) rest := by
            rw [ih (sound_addPending sound key), addPending_capacity, flushed_addPending sound]
        _ = recalled r.capacity r.flushed (key :: rest) := by
            rw [← recalled_append r.capacity_pos]
            rfl

/-- Picks may be buffered and flushed together with those that wait already, or added after these. -/
theorem flushPending_performAll_addPending (sound : r.Sound) (keys : List String) :
    (r.performAll (keys.map .addPending)).flushPending.2 =
      r.flushPending.2.performAll (keys.map .addFirst) := by
  have shown := sound_flushPending sound
  rw [performAll_addFirst]
  refine eq_of_parts ?_ ?_ ?_
  · calc (r.performAll (keys.map .addPending)).flushPending.2.visible
        = recalled r.capacity r.flushed keys := flushed_performAll_addPending sound keys
      _ = (r.flushPending.2.addAll keys).2.visible := by
          rw [addAll_visible shown, flushPending_capacity]
          rfl
  · rw [flushPending_pending, addAll_pending, flushPending_pending]
  · rw [flushPending_capacity, (performAll_addPending_visible r keys).2, addAll_capacity,
      flushPending_capacity]

end Buffer

/-- Picks that are buffered while nothing else is leave the visible list alone, and the flush makes of them
what they would have been as direct picks. -/
theorem buffered_like_direct {r : Recents} (arises : r.Arises) (idle : r.pending = [])
    (keys : List String) :
    let buffered := r.performAll (keys.map .addPending)
    let direct := r.performAll (keys.map .addFirst)
    buffered.visible = r.visible ∧
      buffered.flushPending.2.pending = [] ∧
      buffered.flushPending.2.visible = direct.visible := by
  intro buffered direct
  have sound := arises_iff_sound.1 arises
  -- The flush of the empty buffer, after which the direct picks come.
  have still : r.flushPending.2 = r :=
    eq_of_parts (flushed_of_pending_nil idle) ((flushPending_pending r).trans idle.symm)
      (flushPending_capacity r)
  have flush := flushPending_performAll_addPending sound keys
  rw [still] at flush
  exact ⟨(performAll_addPending_visible r keys).1, flushPending_pending buffered, by rw [flush]⟩

/-- More picks than fit, one of them made twice. -/
theorem buffered_like_direct_evicting :
    let r : Recents := (empty 3).performAll [.addFirst "z"]
    let picks := ["a", "b", "a", "", "c", "d", "e"]
    let buffered := r.performAll (picks.map .addPending)
    r.Arises ∧ r.pending = [] ∧ buffered.pending = ["c", "d", "e"] ∧ buffered.visible = ["z"] ∧
      buffered.flushPending.2.visible = ["e", "d", "c"] := by
  intro r picks buffered
  have arises : r.Arises := ⟨3, [.addFirst "z"], rfl⟩
  have idle : r.pending = [] := by decide
  have seen : r.visible = ["z"] := by decide
  have direct : (r.performAll (picks.map .addFirst)).visible = ["e", "d", "c"] := by decide
  have law := buffered_like_direct arises idle picks
  refine ⟨arises, idle, by decide, ?_, ?_⟩
  · rw [law.1, seen]
  · rw [law.2.2, direct]

end Recents
end EmojiPicker
