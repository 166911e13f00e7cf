/-!
Object paths: a lone slash, or segments of letters, digits and underscores
with a slash before each.
-/

namespace SimBus.ObjectPath

def isSegmentChar (c : Char) : Bool := c.isAlphanum || c == '_'

/-- What may follow a slash. `started` tells whether the current segment
already has a character; no segment may be empty. -/
def isTail : (started : Bool) → List Char → Bool
  | started, [] => started
  | started, c :: rest =>
      if c = '/' then started && isTail false rest
      else isSegmentChar c && isTail true rest

def isPath : List Char → Bool
  | ['/'] => true
  | '/' :: rest => isTail false rest
  | _ => false

def valid (path : String) : Bool := isPath path.toList

end SimBus.ObjectPath
