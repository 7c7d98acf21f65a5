import EmojiPicker.Settings

/-!
# The command line

* `Task` — what the program is asked to do;
* `Invocation` — a command line that was understood;
* `UsageFault` — why a command line is not carried out;
* `Invocation.parse` — the command line of some arguments;
* `Invocation.override` — the settings under the options of a command line.

The general options may stand before the task and after it; of an option on both sides the later
one counts, and on one side it may stand once.

Arguments are read from left to right, and the first fault counts. A word alone does not say whether
it is all that an option takes, so an option with a value behind it, or the word of a task, waits for
the next argument that is understood, or for the end of its side, before it is checked. An argument
that is not understood is therefore reported ahead of one that waits. The side behind the task is
checked to its end, a missing argument last, before what waits in front of the task.
-/

namespace EmojiPicker

inductive Task where
  | search (query : String)
  | describe (key : String)
  | categories
  | recents
  | install (file : Path)
  /-- Download a dictionary, from an address of its own if one is given. -/
  | download (address : Option String)
  | session
  deriving DecidableEq, Repr

structure GeneralOptions where
  logLevel : Option String := none
  verbose : Bool := false
  locale : Option String := none
  catalog : Option Path := none
  dictionaries : Option Path := none
  incognito : Bool := false
  deriving DecidableEq, Repr

structure Invocation where
  options : GeneralOptions
  /-- None asks for a session. -/
  task : Option Task
  deriving DecidableEq, Repr

inductive UsageFault where
  | helpAsked
  | versionAsked
  | unknownArgument
  | unknownTask
  | invalidValue
  | missingArgument
  | repeated
  | surplusValue
  deriving DecidableEq, Repr

/-! ## Arguments -/

inductive TaskName where
  | search | describe | categories | recents | install | download | session
  deriving DecidableEq, Repr

def TaskName.ofWord? : String → Option TaskName
  | "search" => some .search
  | "describe" => some .describe
  | "categories" => some .categories
  | "recents" => some .recents
  | "install" => some .install
  | "download" => some .download
  | "session" => some .session
  | _ => none

def TaskName.takesWord : TaskName → Bool
  | .search | .describe | .install => true
  | _ => false

inductive ValueOption where
  | logLevel | locale | catalog | dictionaries | address
  deriving DecidableEq, Repr

inductive SwitchOption where
  | verbose | incognito | help | version
  deriving DecidableEq, Repr

inductive Argument where
  | endOfOptions
  | long (name : List Char) (value : Option (List Char))
  | short (letters : List Char)
  | word (text : String)
  deriving DecidableEq, Repr

/-- The form of an argument. A lone hyphen is a word. -/
def Argument.ofText (text : String) : Argument :=
  match text.toList with
  | ['-', '-'] => .endOfOptions
  | '-' :: '-' :: name =>
      match Text.splitOnce? '=' name with
      | some (name, value) => .long name (some value)
      | none => .long name none
  | '-' :: c :: letters => .short (c :: letters)
  | _ => .word text

namespace Invocation

/-- What of one side is read but not checked yet. -/
inductive Waiting where
  /-- An option with the value behind it; until there is one, the next word is the value. -/
  | value (option : ValueOption) (text : Option String)
  | word (text : String)
  deriving DecidableEq, Repr

structure Side where
  task : Option TaskName := none
  options : GeneralOptions := {}
  word : Option String := none
  address : Option String := none
  waiting : Option Waiting := none
  deriving DecidableEq, Repr

/-- The option that the next word is the value of. -/
def Side.open? (side : Side) : Option ValueOption :=
  match side.waiting with
  | some (.value option none) => some option
  | _ => none

def Side.lacksWord (side : Side) : Bool :=
  match side.task, side.word, side.waiting with
  | some _, none, some (.word _) => false
  | some task, none, _ => task.takesWord
  | _, _, _ => false

def valueOption? (side : Side) (name : List Char) : Option ValueOption :=
  match String.ofList name with
  | "log-level" => some .logLevel
  | "locale" => some .locale
  | "catalog" => some .catalog
  | "dict-dir" => some .dictionaries
  | "url" => if side.task == some .download then some .address else none
  | _ => none

/-- The option without a value that a name stands for. The version is asked for only before a
task. -/
def switchOption? (side : Side) (name : List Char) : Option SwitchOption :=
  match String.ofList name with
  | "verbose" => some .verbose
  | "incognito" => some .incognito
  | "help" => some .help
  | "version" => if side.task.isNone then some .version else none
  | _ => none

def letterOption? (side : Side) : Char → Option SwitchOption
  | 'v' => some .verbose
  | 'h' => some .help
  | 'V' => if side.task.isNone then some .version else none
  | _ => none

/-- A path that an option takes; it may not be empty. -/
def path (text : String) : Except UsageFault Path :=
  if text.isEmpty then .error .invalidValue else .ok ⟨text⟩

def once {α : Type} (old : Option α) (set : Except UsageFault Side) : Except UsageFault Side :=
  if old.isSome then .error .repeated else set

def setValue (side : Side) (option : ValueOption) (text : String) : Except UsageFault Side :=
  let o := side.options
  match option with
  | .logLevel => once o.logLevel (.ok { side with options := { o with logLevel := some text } })
  | .locale => once o.locale (.ok { side with options := { o with locale := some text } })
  | .catalog => once o.catalog do
      return { side with options := { o with catalog := some (← path text) } }
  | .dictionaries => once o.dictionaries do
      return { side with options := { o with dictionaries := some (← path text) } }
  | .address => once side.address (.ok { side with address := some text })

def setWord (side : Side) (text : String) : Except UsageFault Side :=
  if side.task == some .install && text.isEmpty then .error .invalidValue
  else .ok { side with word := some text }

/-- One side with what waited checked: nothing waits any more. -/
def settle (side : Side) : Except UsageFault Side :=
  let rest := { side with waiting := none }
  match side.waiting with
  | none => .ok rest
  | some (.value _ none) => .error .invalidValue
  | some (.value option (some text)) => setValue rest option text
  | some (.word text) => setWord rest text

def setSwitch (side : Side) (option : SwitchOption) : Except UsageFault Side :=
  let o := side.options
  match option with
  | .verbose =>
      if o.verbose then .error .repeated
      else .ok { side with options := { o with verbose := true } }
  | .incognito =>
      if o.incognito then .error .repeated
      else .ok { side with options := { o with incognito := true } }
  | .help => .error .helpAsked
  | .version => .error .versionAsked

def addLetters (side : Side) : List Char → Except UsageFault Side
  | [] => .ok side
  | letter :: rest =>
      match letterOption? side letter with
      | none => .error .unknownArgument
      | some option => do addLetters (← setSwitch (← settle side) option) rest

def addOption (side : Side) (name : List Char) (attached : Option (List Char)) :
    Except UsageFault Side :=
  match valueOption? side name, switchOption? side name, attached with
  | some option, _, some value => do setValue (← settle side) option (String.ofList value)
  | some option, _, none => do
      -- The next word is the value, whatever it looks like otherwise.
      return { ← settle side with waiting := some (.value option none) }
  | none, some option, none => do setSwitch (← settle side) option
  | none, some _, some _ => .error .surplusValue
  | none, none, _ => .error .unknownArgument

/-- The first word of a command line that asks for help instead of naming a task. -/
def helpWord : String := "help"

/-- One side with a word that is no option's value. A task is named in front of the end of the
options only, so a word behind that end is one too many, or names no task. -/
def addWord (side : Side) (text : String) : Except UsageFault Side :=
  if side.lacksWord then do
    return { ← settle side with waiting := some (.word text) }
  else if side.task.isSome || text == helpWord || (TaskName.ofWord? text).isSome then
    .error .unknownArgument
  else
    .error .unknownTask

/-- One side with words behind the end of the options, where no word is an option's value. -/
def addWords (side : Side) : List String → Except UsageFault Side
  | [] => .ok side
  | text :: rest => do addWords (← addWord side text) rest

def addArgument (side : Side) : Argument → Except UsageFault Side
  | .endOfOptions => .ok side
  | .long name attached => addOption side name attached
  | .short letters => addLetters side letters
  | .word text =>
      match side.open? with
      | some option => .ok { side with waiting := some (.value option (some text)) }
      | none => addWord side text

def help : List String → UsageFault
  | [] => .helpAsked
  | [word] =>
      if word == helpWord || (TaskName.ofWord? word).isSome then .helpAsked else .unknownTask
  | _ => .unknownTask

def taskOf (task : TaskName) (side : Side) : Except UsageFault Task :=
  match task, side.word with
  | .search, some word => .ok (.search word)
  | .describe, some word => .ok (.describe word)
  | .install, some word => .ok (.install ⟨word⟩)
  | .search, none => .error .missingArgument
  | .describe, none => .error .missingArgument
  | .install, none => .error .missingArgument
  | .categories, _ => .ok .categories
  | .recents, _ => .ok .recents
  | .download, _ => .ok (.download side.address)
  | .session, _ => .ok .session

def readBehind (side : Side) : List String → Except UsageFault Side
  | [] => settle side
  | text :: rest =>
      match Argument.ofText text with
      -- Behind the end of the options every argument is a word.
      | .endOfOptions => do settle (← addWords side rest)
      | argument => do readBehind (← addArgument side argument) rest

/-- The options of both sides; those behind the task win. -/
def merge (before after : GeneralOptions) : GeneralOptions where
  logLevel := after.logLevel <|> before.logLevel
  verbose := after.verbose || before.verbose
  locale := after.locale <|> before.locale
  catalog := after.catalog <|> before.catalog
  dictionaries := after.dictionaries <|> before.dictionaries
  incognito := after.incognito || before.incognito

/-- Reads the arguments in front of a task, the task, and the arguments behind it. -/
def readFront (side : Side) : List String → Except UsageFault Invocation
  | [] => do return ⟨(← settle side).options, none⟩
  | text :: rest =>
      match Argument.ofText text, side.open? with
      | .endOfOptions, _ => do return ⟨(← settle (← addWords side rest)).options, none⟩
      | .word word, none =>
          if word == helpWord then
            .error (help rest)
          else
            match TaskName.ofWord? word with
            | none => .error .unknownTask
            | some name => do
                -- The side behind the task is read to its end before this one is checked.
                let behind ← readBehind { task := some name } rest
                let task ← taskOf name behind
                return ⟨merge (← settle side).options behind.options, some task⟩
      | argument, _ => do readFront (← addArgument side argument) rest

def parse (arguments : List String) : Except UsageFault Invocation :=
  readFront {} arguments

/-! ## What the options mean -/

def logLevel (i : Invocation) : String :=
  i.options.logLevel.getD "info"

/-- The level of detail of logs, where asking for many words counts. -/
def effectiveLogLevel (i : Invocation) : String :=
  if i.options.verbose then "debug" else i.logLevel

/-- The settings under the options of a command line. A blank locale changes nothing, and incognito
mode can only be turned on. -/
def override (i : Invocation) (s : Settings) : Settings :=
  let locale := i.options.locale.filter fun text => ! (Text.trim text.toList).isEmpty
  { s with
    locale := locale.getD s.locale
    catalogPath := i.options.catalog <|> s.catalogPath
    incognito := i.options.incognito || s.incognito }

end Invocation
end EmojiPicker
