/-!
# Paths

Pieces with slashes between them. A single dot names the directory it stands in,
two dots the one above, and an empty piece nothing at all.
-/

namespace ScriptLex.Path

def maxBytes : Nat := 4095

def maxNameBytes : Nat := 255

def isAbsolute (path : String) : Bool := path.toList.head? == some '/'

def endsInSlash (path : String) : Bool := path.toList.getLast? == some '/'

def pieces (path : String) : List String := (path.toList.splitOn '/').map String.ofList

def names (path : String) : List String := (pieces path).filter (· ≠ "")

def isIdle (piece : String) : Bool := piece == "" || piece == "."

/-- What pieces leave when they lose their last step again and again. They are given and left in
reverse, without idle pieces at the end. -/
def shorter : List String → List (List String)
  | [] => []
  | piece :: before =>
    if isIdle piece then shorter before else before.dropWhile isIdle :: shorter before

def ofPieces : List String → String
  | [""] => "/"
  | pieces => "/".intercalate pieces

/-- The directories above a path that its text names, the nearest first. The first piece is a
place of its own, also when it is a dot or the empty piece of the root. -/
def parents (path : String) : List String :=
  match pieces path with
  | [] => []
  | first :: steps => (shorter steps.reverse).map fun before => ofPieces (first :: before.reverse)

end ScriptLex.Path
