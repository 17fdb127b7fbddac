import ScopeMetrics.Path
import ScopeMetrics.Text.Quoted

/-!
# Faults of paths

Why a path cannot be used, with the numbers and descriptions of the operating system.
-/

namespace ScopeMetrics

/-- Why a path cannot be used. -/
inductive PathFault where
  | missing
  /-- Something is already there. -/
  | occupied
  | notDirectory
  | isDirectory
  | nameTooLong
  /-- No name holds a null character, so the path is not even looked at. -/
  | nullCharacter
  deriving DecidableEq, Repr

namespace PathFault

/-- The number of a fault, if the operating system has one for it. -/
def number? : PathFault → Option Nat
  | .missing => some 2
  | .occupied => some 17
  | .notDirectory => some 20
  | .isDirectory => some 21
  | .nameTooLong => some 36
  | .nullCharacter => none

def description : PathFault → String
  | .missing => "No such file or directory"
  | .occupied => "File exists"
  | .notDirectory => "Not a directory"
  | .isDirectory => "Is a directory"
  | .nameTooLong => "File name too long"
  | .nullCharacter => "embedded null byte"

end PathFault

/-- A path that cannot be used, and why. -/
structure BadPath where
  path : Path
  fault : PathFault
  deriving DecidableEq, Repr

namespace BadPath

def message (b : BadPath) : String :=
  match b.fault.number? with
  | some n =>
    "[Errno " ++ toString n ++ "] " ++ b.fault.description ++ ": " ++ Text.quoted b.path.text
  | none => b.fault.description

end BadPath

namespace Path

/-- The longest name of a file or folder, in bytes. -/
def longestName : Nat := 255

/-- The number of bytes from which on a path is too long. -/
def tooManyBytes : Nat := 4096

/-- What is wrong with a path whatever there is on a disk. -/
def fault? (p : Path) : Option PathFault :=
  if p.parts.any fun part => part.toList.contains (Char.ofNat 0) then some .nullCharacter
  else if tooManyBytes ≤ p.text.utf8ByteSize then some .nameTooLong
  else none

end Path

end ScopeMetrics
