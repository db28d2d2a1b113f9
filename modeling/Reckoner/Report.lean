import Reckoner.Source

/-!
What is told about an error: the words, and the places that they point to.
-/

namespace Reckoner

-- A place in the source and a remark on it.
structure Label where
  span : Span
  text : String
deriving DecidableEq, Repr

-- All that is told about an error. The first label is the place of the error itself.
structure Report where
  message : String
  code : String
  help : Option String := none
  url : Option String := none
  cause : Option String := none
  labels : List Label := []
deriving DecidableEq, Repr

end Reckoner
