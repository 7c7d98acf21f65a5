import EmojiPicker.Navigation
import EmojiPicker.Text.Numeral
import EmojiPicker.Text.Pieces

/-!
# Session commands

The lines of a session.

* `SessionCommand` — what a line asks for;
* `CommandFault` — why a line is none, with its wording;
* `SessionCommand.parse` — the command of a line;
* `SessionCommand.helpText` — the list of commands.

The first word names the command and ends at the first space. Arguments are words between blanks,
save that the rest of a `query` line is its argument as it stands.
-/

namespace EmojiPicker

inductive SessionCommand where
  | nothing
  | help
  | tab (tab : Tab)
  | swipe (position : Nat)
  /-- A scroll report; without a category it is one of the current category. -/
  | scroll (offset extent range : UInt32) (firstFull firstPartial : Int)
      (category : Option CategoryId)
  | leave (category : CategoryId)
  | pick (key : String)
  | query (text : String)
  | choose (key : String)
  | close
  | locale (locale : String)
  | download
  | clearCache
  | incognito (on : Bool)
  | hide
  | reveal
  | quit
  deriving DecidableEq, Repr

inductive CommandFault where
  | missing (what : String)
  | invalid (what : String)
  | notASwitch
  | unknownCommand (word : String)
  deriving DecidableEq, Repr

def CommandFault.message : CommandFault → String
  | .missing what => s!"missing {what}"
  | .invalid what => s!"invalid {what}"
  | .notASwitch => "expected `incognito on` or `incognito off`"
  | .unknownCommand word => s!"unknown command `{word}` (try `help`)"

namespace SessionCommand

/-! ## Arguments -/

def anyText (what : String) (word : Option (List Char)) : Except CommandFault String :=
  match word with
  | none => .error (.missing what)
  | some word => .ok (String.ofList word)

/-- An argument that `read` has to accept. -/
def argument {α : Type} (read : List Char → Option α) (what : String) (word : Option (List Char)) :
    Except CommandFault α :=
  match word with
  | none => .error (.missing what)
  | some word =>
      match read word with
      | none => .error (.invalid what)
      | some value => .ok value

def word32 : String → Option (List Char) → Except CommandFault UInt32 :=
  argument fun word => (Numeral.count? Numeral.wordSize word).map UInt32.ofNat

def count64 : String → Option (List Char) → Except CommandFault Nat :=
  argument (Numeral.count? Numeral.pageSize)

def position64 : String → Option (List Char) → Except CommandFault Int :=
  argument Numeral.position?

def categoryId (word : Option (List Char)) : Except CommandFault CategoryId :=
  CategoryId.mk <$> word32 "category id" word

def categoryId? : Option (List Char) → Except CommandFault (Option CategoryId)
  | none => .ok none
  | word => some <$> categoryId word

/-! ## Commands -/

def tabOf (word : Option (List Char)) : Except CommandFault SessionCommand :=
  if word == some "search".toList then .ok (.tab .search)
  else (fun id => .tab (.category id)) <$> categoryId word

def scrollOf (args : List (List Char)) : Except CommandFault SessionCommand := do
  let offset ← word32 "offset" args[0]?
  let extent ← word32 "extent" args[1]?
  let range ← word32 "range" args[2]?
  let firstFull ← position64 "first fully visible position" args[3]?
  let firstPartial ← position64 "first partially visible position" args[4]?
  let category ← categoryId? args[5]?
  return .scroll offset extent range firstFull firstPartial category

def incognitoOf (word : Option (List Char)) : Except CommandFault SessionCommand :=
  if word == some "on".toList then .ok (.incognito true)
  else if word == some "off".toList then .ok (.incognito false)
  else .error .notASwitch

def ofWord (word : String) (rest : List Char) : Except CommandFault SessionCommand :=
  let args := Text.words rest
  match word with
  | "" => .ok .nothing
  | "help" => .ok .help
  | "?" => .ok .help
  | "tab" => tabOf args[0]?
  | "swipe" => .swipe <$> count64 "position" args[0]?
  | "scroll" => scrollOf args
  | "leave" => .leave <$> categoryId args[0]?
  | "pick" => .pick <$> anyText "emoji" args[0]?
  | "choose" => .choose <$> anyText "emoji" args[0]?
  | "query" => .ok (.query (String.ofList rest))
  | "close" => .ok .close
  | "locale" => .locale <$> anyText "locale" args[0]?
  | "download" => .ok .download
  | "clear-cache" => .ok .clearCache
  | "incognito" => incognitoOf args[0]?
  | "hide" => .ok .hide
  | "show" => .ok .reveal
  | "quit" => .ok .quit
  | "exit" => .ok .quit
  | _ => .error (.unknownCommand word)

def parse (line : List Char) : Except CommandFault SessionCommand :=
  let text := Text.trimStart (Text.stripOne '\r' line)
  let (word, rest) := (Text.splitOnce? ' ' text).getD (text, [])
  ofWord (String.ofList (Text.trimEnd word)) rest

def helpText : String :=
  "commands:
  tab <id|search>          click a tab
  swipe <position>         pager settled on a tab position
  scroll <offset> <extent> <range> <first_full> <first_partial> [category]
  leave <id>               a category page list left the screen
  pick <emoji>             pick an emoji from the page
  query <text>             search text changed
  choose <emoji>           pick a search result
  close                    leave search mode
  locale <locale>          switch input locale
  download                 download the dictionary for the locale
  clear-cache              close the dictionary
  incognito <on|off>       stop or resume recording recents
  hide | show              visibility changes
  quit"

end SessionCommand
end EmojiPicker
