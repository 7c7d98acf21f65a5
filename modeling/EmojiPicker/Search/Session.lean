import EmojiPicker.Search.Index

/-!
# Search mode

* `SearchSession` — whether search is on, the last query and its results;
* `SearchSession.enter`, `SearchSession.exit`, `SearchSession.choose` — into and out of search mode;
* `SearchSession.query`, `SearchSession.refresh` — results for a new and for the last query;
* `SearchSurface` — what the search surface shows.

Outside search mode the query and the results are empty.
-/

namespace EmojiPicker

inductive SearchSurface where
  /-- An offer to download a dictionary, as none is ready. -/
  | offer
  | results (keys : List String)
  deriving DecidableEq, Repr

structure SearchSession where
  active : Bool := false
  lastQuery : String := ""
  results : List String := []
  exitOnPick : Bool
  deriving DecidableEq, Repr

namespace SearchSession

def enter (s : SearchSession) : SearchSession :=
  { active := true, exitOnPick := s.exitOnPick }

def exit (s : SearchSession) : Bool × SearchSession :=
  (s.active, { exitOnPick := s.exitOnPick })

/-- Takes a new query, and whether it counted: outside search mode it does not. -/
def query (s : SearchSession) (index : SearchIndex) (n : Navigation)
    (dictionary : Option EmojiDictionary) (text : String) : Bool × SearchSession × SearchIndex :=
  if s.active then
    let (results, index) := index.search n dictionary text
    (true, { s with lastQuery := text, results := results }, index)
  else
    (false, s, index)

def refresh (s : SearchSession) (index : SearchIndex) (n : Navigation)
    (dictionary : Option EmojiDictionary) : SearchSession × SearchIndex :=
  if s.active then
    let (results, index) := index.search n dictionary s.lastQuery
    ({ s with results := results }, index)
  else
    (s, index)

def choose (s : SearchSession) : Bool × SearchSession :=
  if s.active && s.exitOnPick then s.exit else (false, s)

def surface (s : SearchSession) (dictionaryReady : Bool) : SearchSurface :=
  if dictionaryReady then .results s.results else .offer

end SearchSession
end EmojiPicker
