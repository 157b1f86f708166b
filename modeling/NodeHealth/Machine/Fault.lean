/-!
# Faults

What goes wrong when a file is read or a program started, and the words for it.
-/

namespace NodeHealth

/-- What the operating system answers when it refuses an operation. -/
inductive OsError where
  | notFound
  | permissionDenied
  | notADirectory
  | isADirectory
  /-- Any other answer, by its text. -/
  | other (text : String)
  deriving DecidableEq, Repr

def OsError.message : OsError → String
  | notFound => "No such file or directory (os error 2)"
  | permissionDenied => "Permission denied (os error 13)"
  | notADirectory => "Not a directory (os error 20)"
  | isADirectory => "Is a directory (os error 21)"
  | other text => text

/-- Why a text could not be read. -/
inductive ReadError where
  | os (e : OsError)
  /-- The path holds the character that ends paths. -/
  | nulInPath
  /-- The bytes that were read are not well formed. -/
  | notUtf8
  deriving DecidableEq, Repr

def ReadError.message : ReadError → String
  | os e => e.message
  | nulInPath => "file name contained an unexpected NUL byte"
  | notUtf8 => "stream did not contain valid UTF-8"

/-- Why a program could not be started. -/
inductive StartError where
  | os (e : OsError)
  /-- Its name or an argument holds the character that ends them. -/
  | nulInArguments
  deriving DecidableEq, Repr

def StartError.message : StartError → String
  | os e => e.message
  | nulInArguments => "nul byte found in provided data"

end NodeHealth
