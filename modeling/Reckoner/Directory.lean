/-!
A directory of files and the paths that lead to them.
-/

namespace Reckoner

-- The files of a directory and of the directories in it. A file is found by the names on the way to
-- it, and of several files with one name the first one counts.
structure Directory where
  files : List (List String × List UInt8)
deriving DecidableEq, Repr

namespace Directory

-- The steps of a path, of which those that stay where they are can be left out of a name.
def steps (path : String) : List String :=
  path.splitOn "/"

def staysPut (step : String) : Bool :=
  step == "" || step == "."

-- A directory into which files were written, the last one over those with its name.
def ofList (entries : List (String × List UInt8)) : Directory where
  files := entries.reverse.map fun (name, contents) =>
    ((steps name).filter (!staysPut ·), contents)

-- Whether there is a directory at the end of some names.
def isDirectory (directory : Directory) (names : List String) : Bool :=
  names.isEmpty || directory.files.any fun (file, _) => names.isPrefixOf file && names ≠ file

-- The names at the end of some steps. Only from a directory a step leads on, and none leads out of
-- the whole directory.
def walk (directory : Directory) (names : List String) : List String → Option (List String)
  | [] => some names
  | step :: rest =>
    if !directory.isDirectory names then none
    else if staysPut step then directory.walk names rest
    else if step ≠ ".." then directory.walk (names ++ [step]) rest
    else if names.isEmpty then none
    else directory.walk names.dropLast rest

-- The contents of the file at the end of a path. A path that begins at the root leads elsewhere.
def find? (directory : Directory) (path : String) : Option (List UInt8) :=
  if path.startsWith "/" then none
  else do directory.files.lookup (← directory.walk [] (steps path))

end Directory

end Reckoner
