import EmojiPicker.Main
import EmojiPicker.Proofs.Navigation.Moves
import EmojiPicker.Proofs.Recents.Recall
import EmojiPicker.Proofs.Picker.Display
import EmojiPicker.Proofs.Picker.Deferral
import EmojiPicker.Proofs.Dictionary.Publication
import EmojiPicker.Proofs.Picker.Events
import EmojiPicker.Proofs.Picker.Freshness
import EmojiPicker.Proofs.Dictionary.Storage
import EmojiPicker.Proofs.Json.Strings
import EmojiPicker.Proofs.Picker.Calls
import EmojiPicker.Proofs.Session.Saving
import EmojiPicker.Proofs.Disk.Listing
import EmojiPicker.Proofs.Disk.Above
import EmojiPicker.Proofs.Disk.Making
import EmojiPicker.Proofs.Disk.Touching
import EmojiPicker.Proofs.Disk.Components
import EmojiPicker.Proofs.Dictionary.Confinement
import EmojiPicker.Proofs.Dictionary.Choice
import EmojiPicker.Proofs.Dictionary.Downloads
import EmojiPicker.Proofs.Dictionary.Resolution
import EmojiPicker.Proofs.Dictionary.Grammar
import EmojiPicker.Proofs.Dictionary.Installation
import EmojiPicker.Proofs.Session.Restart
import EmojiPicker.Proofs.Picker.Located
import EmojiPicker.Proofs.Session.Deliveries
import EmojiPicker.Proofs.Navigation.Cursor
import EmojiPicker.Proofs.Navigation.Pages
import EmojiPicker.Proofs.Picker.Paging
import EmojiPicker.Proofs.Picker.Oblivious
import EmojiPicker.Proofs.Session.Incognito
import EmojiPicker.Proofs.Catalog.Acceptance
import EmojiPicker.Proofs.Navigation.Tabs
import EmojiPicker.Proofs.Picker.TabStrip
import EmojiPicker.Proofs.Session.TabStrip
import EmojiPicker.Proofs.Picker.Waiting
import EmojiPicker.Proofs.Text.Pieces
import EmojiPicker.Proofs.Text.Trimming
import EmojiPicker.Proofs.Text.WordFinal
import EmojiPicker.Proofs.Search.Matches
import EmojiPicker.Proofs.Search.Narrowing
import EmojiPicker.Proofs.Picker.Finding
import EmojiPicker.Proofs.Dictionary.WordLists
import EmojiPicker.Proofs.Recents.Runs
import EmojiPicker.Proofs.Session.Lines
import EmojiPicker.Proofs.Settings.Comments
import EmojiPicker.Proofs.Navigation.Partition
import EmojiPicker.Proofs.Navigation.Returning
import EmojiPicker.Proofs.Navigation.Redirects
import EmojiPicker.Proofs.Navigation.Positions
import EmojiPicker.Proofs.Navigation.Progress
import EmojiPicker.Proofs.Text.Numerals
import EmojiPicker.Proofs.Session.Writing
import EmojiPicker.Proofs.Settings.Values
import EmojiPicker.Proofs.Settings.LastLine
import EmojiPicker.Proofs.Settings.Loading
import EmojiPicker.Proofs.Program.Effects
import EmojiPicker.Proofs.Recents.Reports
import EmojiPicker.Proofs.Single.Rounding
import EmojiPicker.Proofs.Single.Encoding
import EmojiPicker.Proofs.Navigation.Fraction
import EmojiPicker.Proofs.Dictionary.Spelling
