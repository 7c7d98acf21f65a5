import EmojiPicker.Dictionary.Store

/-!
# The published dictionary

One dictionary at a time is published to readers. The lifecycle loads it for a locale, swaps it when
a download is installed, and closes the one it replaces.

* `DictionaryState` — what readers find;
* `Lifecycle` — the store, every dictionary published so far, and which of them is published now;
* `Lifecycle.current?`, `Lifecycle.requireReady` — what a reader gets;
* `Lifecycle.ensure`, `Lifecycle.close`, `Lifecycle.install` — what the writer does;
* `StoreCall` — what the store was asked, and what readers found at that moment.
-/

namespace EmojiPicker

inductive DictionaryState where
  | absent
  /-- No dictionary yet: one is being opened. -/
  | loading
  | ready
  deriving DecidableEq, Repr

inductive StoreRequest where
  | resolve (locale : String)
  | openAt (locale : String)
  | install (locale : String)
  deriving DecidableEq, Repr

structure StoreCall where
  request : StoreRequest
  state : DictionaryState
  /-- Whether a dictionary answered readers. -/
  ready : Bool
  deriving DecidableEq, Repr

inductive InstallOutcome where
  | installed (path : Path)
  /-- The download was for a locale that is not active; the active one is given. -/
  | discarded (active : Option String)
  deriving DecidableEq, Repr

structure Lifecycle (σ : Type) where
  store : σ
  /-- Every dictionary that was ever published, in order. -/
  issued : List EmojiDictionary := []
  /-- Which of the issued dictionaries is published. -/
  published : Option Nat := none
  state : DictionaryState := .absent
  /-- The locale asked for most recently, in normal form. -/
  activeLocale : Option String := none
  /-- What the store was asked, the latest request first. -/
  calls : List StoreCall := []

namespace Lifecycle

variable {σ : Type}

/-! ## Reading -/

def current? (l : Lifecycle σ) : Option EmojiDictionary :=
  (l.published.bind (l.issued[·]?)).filter (·.isOpen)

def isReady (l : Lifecycle σ) : Bool :=
  l.current?.isSome

def requireReady (l : Lifecycle σ) : Except Failure EmojiDictionary :=
  match l.current? with
  | some d => .ok d
  | none => .error (.dictionaryUnavailable (l.activeLocale.getD ""))

/-! ## Publishing -/

def closeIssued (l : Lifecycle σ) (index : Nat) : Lifecycle σ :=
  { l with issued := l.issued.modify index EmojiDictionary.close }

def withdraw (l : Lifecycle σ) (state : DictionaryState) : Lifecycle σ :=
  -- Closed for those too who took it before.
  let l := match l.published with
    | some index => l.closeIssued index
    | none => l
  { l with published := none, state := state }

def publish (l : Lifecycle σ) (d : EmojiDictionary) : Lifecycle σ :=
  let l := l.withdraw .ready
  { l with issued := l.issued ++ [d], published := some l.issued.length }

def close (l : Lifecycle σ) : Lifecycle σ :=
  l.withdraw .absent

/-! ## Asking the store -/

def note (l : Lifecycle σ) (request : StoreRequest) : Lifecycle σ :=
  { l with calls := ⟨request, l.state, l.isReady⟩ :: l.calls }

variable [DictionaryStore σ]

def resolve (l : Lifecycle σ) (locale : String) : Option Path × Lifecycle σ :=
  let l := l.note (.resolve locale)
  let (path, store) := DictionaryStore.resolve l.store locale
  (path, { l with store := store })

def openAt (l : Lifecycle σ) (path : Path) (locale : String) :
    Except Failure EmojiDictionary × Lifecycle σ :=
  let l := l.note (.openAt locale)
  let (result, store) := DictionaryStore.openAt l.store path locale
  (result, { l with store := store })

def move (l : Lifecycle σ) (bytes : List UInt8) (locale : String) :
    Except Failure Path × Lifecycle σ :=
  let l := l.note (.install locale)
  let (result, store) := DictionaryStore.install l.store bytes locale
  (result, { l with store := store })

/-! ## Writing -/

/-- Publishes the stored dictionary for a locale in normal form, if it can be found and opened. -/
def load (l : Lifecycle σ) (locale : String) : Lifecycle σ :=
  -- Readers find no dictionary while the file is looked for and read.
  match (l.withdraw .loading).resolve locale with
  | (none, l) => l.withdraw .absent
  | (some path, l) =>
      match l.openAt path locale with
      | (.ok d, l) => l.publish d
      | (.error _, l) => l.withdraw .absent

/-- Makes the dictionary for a locale the published one. The locale becomes the active one; a
published dictionary that serves it stays. -/
def ensure (l : Lifecycle σ) (locale : String) : Lifecycle σ :=
  let locale := Locale.normalize locale
  let l := { l with activeLocale := some locale }
  if l.current?.any (·.serves locale) then l else l.load locale

def replace (l : Lifecycle σ) (bytes : List UInt8) (locale : String) :
    Except Failure Path × Lifecycle σ :=
  match l.move bytes locale with
  | (.error failure, l) => (.error failure, l)
  | (.ok path, l) =>
      -- A file that cannot be read back leaves the published dictionary where it is.
      match l.openAt path locale with
      | (.error failure, l) => (.error failure, l)
      | (.ok d, l) => (.ok path, l.publish d)

/-- Installs a download. One for a locale that is not active is discarded; bytes that are no
dictionary never reach the store. -/
def install (l : Lifecycle σ) (bytes : List UInt8) (locale : String) :
    Except Failure InstallOutcome × Lifecycle σ :=
  let locale := Locale.normalize locale
  if l.activeLocale != some locale then
    (.ok (.discarded l.activeLocale), l)
  else
    -- Read once for the fault alone: bytes without meaning stop here, before the store is asked.
    match EmojiDictionary.parse ⟨Locale.fileName locale⟩ locale bytes with
    | .error failure => (.error (.installFailed locale failure), l)
    | .ok _ =>
        match l.replace bytes locale with
        | (.error failure, l) => (.error (.installFailed locale failure), l)
        | (.ok path, l) => (.ok (.installed path), l)

end Lifecycle
end EmojiPicker
