/-!
# Disk faults

The ways in which a disk refuses an operation, and how each is reported.
-/

namespace EmojiPicker

inductive DiskFault where
  | notFound
  | alreadyThere
  | notDirectory
  | isDirectory
  | nameTooLong
  /-- A path holds a character that ends it. -/
  | nulCharacter
  | notText
  | device
  /-- A failure that some other store reports in its own words. -/
  | other (text : String)
  deriving DecidableEq, Repr

def DiskFault.message : DiskFault → String
  | .notFound => "No such file or directory (os error 2)"
  | .alreadyThere => "File exists (os error 17)"
  | .notDirectory => "Not a directory (os error 20)"
  | .isDirectory => "Is a directory (os error 21)"
  | .nameTooLong => "File name too long (os error 36)"
  | .nulCharacter => "file name contained an unexpected NUL byte"
  | .notText => "stream did not contain valid UTF-8"
  | .device => "Input/output error (os error 5)"
  | .other text => text

end EmojiPicker
