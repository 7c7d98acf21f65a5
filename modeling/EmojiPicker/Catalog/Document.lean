import EmojiPicker.Failure
import EmojiPicker.Disk.Tree

/-!
# Catalog documents

A catalog file is a JSON document such as
`{"categories": [{"id": 1, "name": "faces", "keys": ["😀"]}]}`.

* `Catalog.ofJson?` — the catalog that a value spells, whatever its numbers;
* `Catalog.parse` — the acceptable catalog of a text;
* `Catalog.load` — the acceptable catalog of a file.
-/

namespace EmojiPicker
namespace Catalog

def definitionOfJson? (v : Json) : Option CategoryDefinition := do
  let [id, name, keys] ← Json.record? ["id", "name", "keys"] v | none
  return ⟨⟨← Json.required? Json.word? id⟩, ← Json.required? Json.text? name,
    ← Json.optional? [] Json.texts? keys⟩

/-- The catalog of a document, whatever its numbers. -/
def ofJson? (v : Json) : Option Catalog := do
  let [categories] ← Json.record? ["categories"] v | none
  return ⟨← Json.required? (Json.listOf? definitionOfJson?) categories⟩

def parse (text : List Char) : Except Failure Catalog :=
  match Json.parse? text >>= ofJson? with
  | none => .error (.catalog .malformed)
  | some catalog =>
      match catalog.fault? with
      | some fault => .error (.catalog fault)
      | none => .ok catalog

def load (disk : Disk) (path : Path) : Except Failure Catalog :=
  match disk.readText path with
  | .error fault => .error (.disk s!"read catalog {path.text}" fault)
  | .ok text => parse text

end Catalog
end EmojiPicker
