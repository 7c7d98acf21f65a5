import EmojiPicker.Navigation
import EmojiPicker.Single

/-!
# Scroll positions

What a page list reports while it is scrolled, as a position in pages.

* `ScrollReport` — a report;
* `ScrollPosition`, `ScrollPosition.ofMetrics` — the exact position: whole pages and a remainder;
* `PageProgress` — the position as the indicator gets it;
* `Navigation.scroll` — the cursor follows the reports of the current category.
-/

namespace EmojiPicker

structure ScrollReport where
  category : CategoryId
  offset : UInt32
  extent : UInt32
  range : UInt32
  /-- The first page that is in view as a whole; negative if there is none. -/
  firstFull : Int
  /-- The first page of which a part is in view; negative if there is none. -/
  firstPartial : Int
  deriving DecidableEq, Repr

/-- The exact position `whole + remainder / distance` in pages. -/
structure ScrollPosition where
  whole : Nat
  remainder : Nat
  /-- How far the list can be scrolled; 0 if it cannot. -/
  distance : Nat
  deriving DecidableEq, Repr

def ScrollPosition.limit : Nat := UInt64.size - 1

/-- The position of an offset in a list of some pages. A list that fits its extent, or has no pages,
is at its start; an offset beyond the end is at the end. -/
def ScrollPosition.ofMetrics (offset extent range pageCount : Nat) : ScrollPosition :=
  let distance := range - extent
  if distance = 0 || pageCount = 0 then
    ⟨0, 0, distance⟩
  else
    -- Beyond 64 bits the product counts no further.
    let scaled := min (min offset distance * pageCount) limit
    ⟨scaled / distance, scaled % distance, distance⟩

structure PageProgress where
  pageCount : Nat
  wholePage : Nat
  /-- The part of the next page that is scrolled into view. -/
  fraction : Single
  deriving DecidableEq, Repr

def PageProgress.ofMetrics (offset extent range : UInt32) (pageCount : Nat) : PageProgress :=
  let position := ScrollPosition.ofMetrics offset.toNat extent.toNat range.toNat pageCount
  ⟨pageCount, position.whole, Single.ofRatio position.remainder position.distance⟩

/-- Follows a report of the current category: the first full page becomes the current one, or the
first partial one where the full one is the first of all or missing. Other reports come too late. -/
def Navigation.scroll (n : Navigation) (report : ScrollReport) : Option PageProgress × Navigation :=
  if report.category != n.cursor.category then
    (none, n)
  else
    let progress :=
      PageProgress.ofMetrics report.offset report.extent report.range n.currentPageCount
    let page := if 0 < report.firstFull then report.firstFull else report.firstPartial
    (some progress, n.setPage page)

end EmojiPicker
