import EmojiPicker.Dictionary.Store
import EmojiPicker.Disk.Tree

/-!
# The dictionary cache

Dictionaries on a disk, below one root: a directory for each locale, and in it the file
`emoji_<language>.dict`.

* `DictionaryCache.directory` — the directory of a locale;
* `DictionaryCache.isDictionaryName` — which names count as dictionary files;
* `DictionaryCache.resolve?` — the file for a locale: the least name in its own directory, otherwise
  in the directory of its language;
* `DictionaryCache.openAt`, `DictionaryCache.install` — opening and installing a file;
* the cache as a `DictionaryStore`.
-/

namespace EmojiPicker

structure DictionaryCache where
  root : Path
  disk : Disk
  deriving DecidableEq, Repr

namespace DictionaryCache

def directory (cache : DictionaryCache) (locale : String) : Path :=
  cache.root.child (Locale.normalize locale)

/-! ## Resolving -/

/-- A dictionary file has a name that starts with `emoji`; parts of downloads do not count. -/
def isDictionaryName (name : String) : Bool :=
  "emoji".toList.isPrefixOf name.toList && ! ".part".toList.isSuffixOf name.toList

def leastName? : List String → Option String
  | [] => none
  | name :: rest =>
      match leastName? rest with
      | none => some name
      | some least => some (if least < name then least else name)

def fileIn? (disk : Disk) (directory : Path) : Option Path :=
  match disk.list directory with
  | .error _ => none
  | .ok names =>
      let candidates := names.filter fun name =>
        isDictionaryName name && disk.isFile (directory.child name)
      (leastName? candidates).map directory.child

def resolve? (cache : DictionaryCache) (locale : String) : Option Path :=
  let tag := Locale.normalize locale
  let language := Locale.language tag
  match fileIn? cache.disk (cache.root.child tag) with
  | some path => some path
  | none => if language == tag then none else fileIn? cache.disk (cache.root.child language)

/-! ## Opening and installing -/

def openAt (cache : DictionaryCache) (path : Path) (locale : String) :
    Except Failure EmojiDictionary :=
  match cache.disk.read path with
  | .error fault => .error (.disk s!"read dictionary {path.text}" fault)
  | .ok bytes => EmojiDictionary.parse path locale bytes

def target (cache : DictionaryCache) (locale : String) : Path :=
  (cache.directory locale).child (Locale.fileName locale)

/-- The file that holds the bytes until they are complete. -/
def partialTarget (cache : DictionaryCache) (locale : String) : Path :=
  (cache.directory locale).child (Locale.fileName locale ++ ".part")

/-- Installs bytes on a disk: the directory is made, the bytes are written beside the target, and
the complete file is moved there. A part that cannot be moved is removed. -/
def install (cache : DictionaryCache) (bytes : List UInt8) (locale : String) :
    Except Failure Path × DictionaryCache :=
  let directory := cache.directory locale
  let target := cache.target locale
  let part := cache.partialTarget locale
  match cache.disk.makeDirectories directory with
  | (.error fault, disk) =>
      (.error (.disk s!"create {directory.text}" fault), { cache with disk := disk })
  | (.ok (), disk) =>
      match disk.write part bytes with
      | (.error fault, disk) =>
          (.error (.disk s!"write {part.text}" fault), { cache with disk := disk })
      | (.ok (), disk) =>
          match disk.renameFile part target with
          | (.error fault, disk) =>
              (.error (.disk s!"install {target.text}" fault),
                { cache with disk := (disk.removeFile part).2 })
          | (.ok (), disk) => (.ok target, { cache with disk := disk })

instance : DictionaryStore DictionaryCache where
  resolve cache locale := (cache.resolve? locale, cache)
  openAt cache path locale := (cache.openAt path locale, cache)
  install := install

end DictionaryCache
end EmojiPicker
