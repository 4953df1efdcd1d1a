/-!
# Paths

The parts of a path, and the extension of the file it names.

* `Path.parts` : the parts between slashes that matter
* `Path.fileName?` : the last part, unless it leads up
* `Path.extension?` : what follows the last point of a file name that does not begin with it
-/

namespace AutomationNet.Path

def splitSlash : List Char → List (List Char)
  | [] => [[]]
  | c :: rest =>
    if c = '/' then [] :: splitSlash rest
    else
      match splitSlash rest with
      | [] => [[c]]
      | part :: parts => (c :: part) :: parts

/-- The parts of a path, without empty ones and without those that stay where they are. -/
def parts (path : String) : List (List Char) :=
  (splitSlash path.toList).filter fun part => part ≠ [] ∧ part ≠ ['.']

def fileName? (path : String) : Option (List Char) :=
  (parts path).getLast?.filter fun part => part ≠ ['.', '.']

/-- The text behind the last point of a name. A name that only begins with a point has none. -/
def extensionOf? (name : List Char) : Option (List Char) :=
  let backwards := name.reverse
  let ending := backwards.takeWhile (· ≠ '.')
  let stem := (backwards.drop ending.length).drop 1
  if stem.isEmpty then none else some ending.reverse

def extension? (path : String) : Option (List Char) := (fileName? path).bind extensionOf?

end AutomationNet.Path
