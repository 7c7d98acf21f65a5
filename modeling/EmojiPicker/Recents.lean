/-!
# Recently used emoji

A bounded list of keys, the latest first, and a buffer for the picks that are not to show yet.

* `Recents` — the visible keys, the buffered keys and the bound on both;
* `Recents.addFirst` — a pick that shows at once;
* `Recents.addPending`, `Recents.flushPending` — a pick that is buffered, and the end of the buffer;
* `Recents.restore` — keys from an earlier run;
* `Recents.resize` — another bound.

The visible list changes only by `addFirst`, `flushPending`, `restore` and `resize`.
-/

namespace EmojiPicker

structure Recents where
  /-- The keys that show, the latest first. -/
  visible : List String
  /-- The keys picked since, the oldest first. -/
  pending : List String
  /-- The most keys that either list holds. -/
  capacity : Nat
  capacity_pos : 0 < capacity
  deriving DecidableEq

namespace Recents

def defaultCapacity : Nat := 32

/-- No keys, under a bound of at least one. -/
def empty (capacity : Nat) : Recents where
  visible := []
  pending := []
  capacity := max 1 capacity
  capacity_pos := by omega

def moveToFront (key : String) (keys : List String) : List String :=
  key :: keys.filter (· != key)

/-- A pick that shows at once, and whether it changed the visible list. The empty key is no pick. -/
def addFirst (r : Recents) (key : String) : Bool × Recents :=
  if key.isEmpty || r.visible.head? == some key then
    (false, r)
  else
    (true, { r with visible := (moveToFront key r.visible).take r.capacity })

/-- A pick that is buffered. A key is buffered once, at its latest place; the oldest key gives way
when the buffer is full. -/
def addPending (r : Recents) (key : String) : Recents :=
  if key.isEmpty then
    r
  else
    let others := r.pending.filter (· != key)
    let kept := if r.capacity ≤ others.length then others.drop 1 else others
    { r with pending := kept ++ [key] }

def addAll (r : Recents) : List String → Bool × Recents
  | [] => (false, r)
  | key :: rest =>
      let (changed, r) := r.addFirst key
      let (changedLater, r) := addAll r rest
      (changed || changedLater, r)

def flushPending (r : Recents) : Bool × Recents :=
  -- The oldest first, as if each had shown when it was picked.
  addAll { r with pending := [] } r.pending

/-- Puts the keys of an earlier run, the latest first, in front. -/
def restore (r : Recents) (keys : List String) : Recents :=
  (r.addAll keys.reverse).2

/-- The same keys under another bound, of at least one; the oldest keys give way. -/
def resize (r : Recents) (capacity : Nat) : Recents where
  visible := r.visible.take (max 1 capacity)
  pending := r.pending.drop (r.pending.length - max 1 capacity)
  capacity := max 1 capacity
  capacity_pos := by omega

end Recents
end EmojiPicker
