import RuleTable.Text.Basic

/-!
# Errors of the file system

Why an operation on files fails, with the kind and the wording of each cause.
-/

set_option autoImplicit false

namespace RuleTable

/-- **Why an operation on files fails.** `other` has a wording of its own. -/
inductive FileError
  | notFound
  | notADirectory
  | isADirectory
  | alreadyExists
  | tooManyLinks
  | nameTooLong
  | nulInPath
  | notText
  | other (message : Text)
deriving DecidableEq

namespace FileError

/-- The kind of an error. -/
def kind : FileError → Text
  | notFound => "NotFound".toList
  | notADirectory => "NotADirectory".toList
  | isADirectory => "IsADirectory".toList
  | alreadyExists => "AlreadyExists".toList
  | tooManyLinks => "FilesystemLoop".toList
  | nameTooLong => "InvalidFilename".toList
  | nulInPath => "InvalidInput".toList
  | notText => "InvalidData".toList
  | other _ => "Other".toList

/-- The wording of an error, with the number that the system has for it. -/
def message : FileError → Text
  | notFound => "No such file or directory (os error 2)".toList
  | notADirectory => "Not a directory (os error 20)".toList
  | isADirectory => "Is a directory (os error 21)".toList
  | alreadyExists => "File exists (os error 17)".toList
  | tooManyLinks => "Too many levels of symbolic links (os error 40)".toList
  | nameTooLong => "File name too long (os error 36)".toList
  | nulInPath => "file name contained an unexpected NUL byte".toList
  | notText => "stream did not contain valid UTF-8".toList
  | other message => message

end FileError

end RuleTable
