import EmojiPicker.Settings

/-!
# The settings file

* `Settings.template` — the file that is written where there is none: every setting with its
  default;
* `Settings.load` — the settings of a file.
-/

namespace EmojiPicker
namespace Settings

def template : String :=
  "# emoji-palette settings
# key = value; lines starting with # are comments.

# Input locale used to pick the emoji dictionary (e.g. en, en_US, de).
locale = en

# Emoji keys per page.
page_capacity = 32

# Maximum number of recent emoji kept.
recents_capacity = 32

# Show the recents tab even when it is empty.
recents_always_visible = true

# Offer the search tab.
search_tab_visible = true

# Leave search mode after choosing a result.
exit_search_on_pick = false

# Do not record picks in recents.
incognito = false

# Animate category changes triggered by tab clicks.
animations = true

# Base URL for dictionary downloads (file:// is accepted). Empty disables downloads.
dictionary_url =

# Optional JSON catalog replacing the built-in emoji set.
catalog_path =
"

def writeTemplate (disk : Disk) (path : Path) : Disk :=
  ((disk.makeParent path).2.write path (Text.encode template.toList)).2

/-- The settings of a file. Where there is no file the template is written first; what cannot be
read gives the defaults. -/
def load (disk : Disk) (path : Path) : Settings × Disk :=
  let disk := if disk.isFile path then disk else writeTemplate disk path
  match disk.readText path with
  | .ok text => (Settings.parse {} text, disk)
  | .error _ => ({}, disk)

set_option maxRecDepth 100000 in
/-- The template says what is the case without it. -/
theorem parse_template : Settings.parse {} template.toList = {} := by
  have ofList (cs : List Char) (h : Settings.parse {} cs = {}) :
      Settings.parse {} (String.ofList cs).toList = {} := by
    rw [String.toList_ofList, h]
  exact ofList _ (by decide +kernel)

end Settings
end EmojiPicker
