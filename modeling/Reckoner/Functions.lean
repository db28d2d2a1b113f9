import Reckoner.Text.Quoted
import Std.Data.ExtTreeMap

/-!
The functions of one argument that expressions can call, by their names.
-/

namespace Reckoner

-- A registry of functions. Names are ordered by their characters.
structure Functions where
  table : Std.ExtTreeMap String (Float → Float)

namespace Functions

def empty : Functions :=
  ⟨∅⟩

-- A function that is registered under a name takes the place of the one before it.
def register (functions : Functions) (name : String) (function : Float → Float) : Functions :=
  ⟨functions.table.insert name function⟩

def remove (functions : Functions) (name : String) : Functions :=
  ⟨functions.table.erase name⟩

def contains (functions : Functions) (name : String) : Bool :=
  functions.table.contains name

def get? (functions : Functions) (name : String) : Option (Float → Float) :=
  functions.table[name]?

-- Removes a name, and tells whether it was registered.
def unregister (functions : Functions) (name : String) : Bool × Functions :=
  (functions.contains name, functions.remove name)

-- The registered names, each one once, in ascending order.
def names (functions : Functions) : List String :=
  functions.table.keys

def ofList (entries : List (String × (Float → Float))) : Functions :=
  entries.foldl (fun functions (name, function) => functions.register name function) empty

-- Sine, cosine, tangent and the natural logarithm.
def builtin : Functions :=
  ofList [("sin", Float.sin), ("cos", Float.cos), ("tan", Float.tan), ("ln", Float.log)]

-- The names in quotes, as a set is written.
def write (functions : Functions) : String :=
  "\x7b" ++ ", ".intercalate (functions.names.map Text.quoted) ++ "\x7d"

@[simp]
theorem get?_register (functions : Functions) (name other : String) (function : Float → Float) :
    (functions.register name function).get? other =
      if name = other then some function else functions.get? other := by
  simp [register, get?, Std.ExtTreeMap.getElem?_insert]

@[simp]
theorem get?_remove (functions : Functions) (name other : String) :
    (functions.remove name).get? other = if name = other then none else functions.get? other := by
  simp [remove, get?, Std.ExtTreeMap.getElem?_erase]

end Functions

end Reckoner
