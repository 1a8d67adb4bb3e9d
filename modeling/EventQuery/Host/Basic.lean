/-! What a program reaches of its surroundings: files and variables. -/

namespace EventQuery

/-- Why a file cannot be read. -/
inductive ReadFault where
  | missing
  | notDirectory
  | isDirectory
  | nameTooLong
  /-- The name has a character of code zero. -/
  | badName
  | notText
  | other (reason : String)
deriving DecidableEq

def ReadFault.message : ReadFault → String
  | .missing => "No such file or directory (os error 2)"
  | .notDirectory => "Not a directory (os error 20)"
  | .isDirectory => "Is a directory (os error 21)"
  | .nameTooLong => "File name too long (os error 36)"
  | .badName => "file name contained an unexpected NUL byte"
  | .notText => "stream did not contain valid UTF-8"
  | .other reason => reason

/-- Files and variables, reached through the effects of `m`. -/
structure Host (m : Type → Type) where
  read : String → m (Except ReadFault String)
  valueOf? : String → m (Option String)

/-- A reading tells whether the file is there at all. -/
def ReadFault.isAbsence : ReadFault → Bool
  | .missing | .notDirectory | .nameTooLong | .badName => true
  | _ => false

end EventQuery
