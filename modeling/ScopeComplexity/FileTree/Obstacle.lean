import ScopeComplexity.Text.Quoted

namespace ScopeComplexity

/-- Why the system does not give a file. -/
inductive Obstacle where
  | missing
  | notDirectory
  | isDirectory
  | tooManyLinks
  | nameTooLong
  | forbidden
  deriving DecidableEq

namespace Obstacle

def number : Obstacle → Nat
  | .missing => 2
  | .notDirectory => 20
  | .isDirectory => 21
  | .tooManyLinks => 40
  | .nameTooLong => 36
  | .forbidden => 13

def text : Obstacle → String
  | .missing => "No such file or directory"
  | .notDirectory => "Not a directory"
  | .isDirectory => "Is a directory"
  | .tooManyLinks => "Too many levels of symbolic links"
  | .nameTooLong => "File name too long"
  | .forbidden => "Permission denied"

def isAbsence : Obstacle → Bool
  | .missing | .notDirectory | .tooManyLinks => true
  | .isDirectory | .nameTooLong | .forbidden => false

def shown (o : Obstacle) : String := "[Errno " ++ toString o.number ++ "] " ++ o.text

def message (o : Obstacle) (path : String) : String := o.shown ++ ": " ++ Text.quoted path

end Obstacle

end ScopeComplexity
