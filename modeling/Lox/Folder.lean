/-!
# Folders

What a file name leads to. A folder is a finite table of files, so following a
name is a plain function of the table, and each way to fail has its own cause.
-/

namespace Lox

/-- Why a file name gives no bytes. -/
inductive FileFault where
  /-- The name leads nowhere. -/
  | missing
  /-- The name goes on behind the name of a file. -/
  | behindFile
  /-- The name, or a part of it, is longer than names can be. -/
  | tooLong
  /-- The file may not be read. -/
  | denied
  /-- The name leads to a folder. It can be opened, but there is nothing in it
  to read as bytes. -/
  | folder
  /-- Any other cause, in the system's words. -/
  | other (reason : String)
  deriving DecidableEq, Repr, Inhabited

namespace FileFault

/-- The system's words for a fault, with its number. -/
def reason : FileFault → String
  | missing => "No such file or directory (os error 2)"
  | behindFile => "Not a directory (os error 20)"
  | tooLong => "File name too long (os error 36)"
  | denied => "Permission denied (os error 13)"
  | folder => "No such device (os error 19)"
  | other reason => reason

/-- What could not be done. Only a folder gets past being opened. -/
def failedStep : FileFault → String
  | folder => "map"
  | _ => "open"

/-- The text of a fault, for a file name between quotes. -/
def message (quoted : String) (fault : FileFault) : String :=
  "Failed to " ++ fault.failedStep ++ " file " ++ quoted ++ ": " ++ fault.reason

end FileFault

/-- Files by name. There are no folders inside, and nothing outside can be
reached. -/
structure Folder where
  files : List (String × List UInt8)
  deriving DecidableEq, Repr, Inhabited

namespace Folder

/-- The most bytes in a part of a name. -/
def longestPart : Nat := 255

/-- The most bytes in a whole name. -/
def longestName : Nat := 4095

/-- Follow the parts of a name. An empty part and a lone dot stay in the
folder. -/
def follow (folder : Folder) : List String → Except FileFault (List UInt8)
  | [] => .error .folder
  | part :: rest =>
      if part = "" ∨ part = "." then folder.follow rest
      else
        match folder.files.lookup part with
        | some bytes => if rest.isEmpty then .ok bytes else .error .behindFile
        | none =>
            if longestPart < part.utf8ByteSize then .error .tooLong else .error .missing

/-- The bytes that a file name leads to. A name that starts at the root leads
out of the folder. -/
def read (folder : Folder) (name : String) : Except FileFault (List UInt8) :=
  if longestName < name.utf8ByteSize then .error .tooLong
  else if name.startsWith "/" then .error .missing
  else folder.follow (name.splitOn "/")

end Folder

end Lox
