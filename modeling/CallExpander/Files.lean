import CallExpander.Failure

/-!
A directory of files, as far as it decides whether a file can be written: a path leads through
directories to a name, and a file cannot stand where a directory is, nor the other way round.
-/

namespace CallExpander

/-- The files and directories of a directory, each as the names on the way to it. -/
structure Files where
  files : List (List String) := []
  directories : List (List String) := [[]]
  deriving Repr, DecidableEq, Inhabited

namespace Files

/-- Goes one step down a path, making the directory if there is none; none if a file is in the
way. -/
def enter (tree : Files) (place : List String) (name : String) : Option (Files × List String) :=
  if name = "" || name = "." then some (tree, place)
  else if name = ".." then some (tree, place.dropLast)
  else
    let next := place ++ [name]
    if tree.files.contains next then none
    else if tree.directories.contains next then some (tree, next)
    else some ({ tree with directories := next :: tree.directories }, next)

def enterAll (tree : Files) (place : List String) : List String → Option (Files × List String)
  | [] => some (tree, place)
  | name :: rest =>
    match tree.enter place name with
    | none => none
    | some (tree, place) => tree.enterAll place rest

/-- Writes a file, making the directories on the way; none if that is not possible. -/
def write? (tree : Files) (path : String) : Option Files :=
  let names := path.splitOn "/"
  match names.getLast? with
  | none | some "" | some "." | some ".." => none
  | some name =>
    match tree.enterAll [] names.dropLast with
    | none => none
    | some (tree, place) =>
      let target := place ++ [name]
      if tree.directories.contains target then none
      else some { tree with files := target :: tree.files }

def ofPaths (paths : List String) : Files :=
  paths.foldl (fun tree path => (tree.write? path).getD tree) {}

def write (tree : Files) (path : String) : Except Failure Files :=
  match tree.write? path with
  | some tree => .ok tree
  | none => .error (.io path)

end Files

end CallExpander
