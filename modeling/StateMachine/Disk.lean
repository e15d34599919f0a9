import StateMachine.Text.Split

/-!
Files by path. A `Disk` reads texts and writes them in some monad; `FileTree` is a disk in memory:
a directory with the files below it. A path is followed part by part from there, and every part but
the last has to lead to a directory.
-/

set_option autoImplicit false

namespace StateMachine

/-- Why a file cannot be read or written. -/
inductive FileError where
  | notFound
  | notDirectory
  | isDirectory
  | notText
  | other (message : String)
deriving DecidableEq, Repr

namespace FileError

def message : FileError → String
  | .notFound => "No such file or directory (os error 2)"
  | .notDirectory => "Not a directory (os error 20)"
  | .isDirectory => "Is a directory (os error 21)"
  | .notText => "stream did not contain valid UTF-8"
  | .other message => message

/-- The text of a file with the given bytes. -/
def textOf (content : ByteArray) : Except FileError String :=
  match String.fromUTF8? content with
  | some text => .ok text
  | none => .error .notText

end FileError

/-- Reads the text of a file and writes a text into a file. -/
structure Disk (m : Type → Type) where
  read : String → m (Except FileError String)
  write : String → String → m (Except FileError Unit)

/-- A file with the names on the way to it and its bytes. -/
structure StoredFile where
  path : List String
  content : ByteArray

/-- The files below a directory. Directories are those on the way to a file. -/
structure FileTree where
  files : List StoredFile

namespace FileTree

def find? (tree : FileTree) (path : List String) : Option ByteArray :=
  (tree.files.find? (·.path == path)).map (·.content)

/-- The root is a directory, and so is every place above a file. -/
def isDirectory (tree : FileTree) (path : List String) : Bool :=
  path.isEmpty || tree.files.any fun file ↦ path.isPrefixOf file.path && file.path != path

/-- Goes on only from a directory. -/
def enter (tree : FileTree) (path : List String) : Except FileError Unit :=
  if tree.isDirectory path then .ok ()
  else if (tree.find? path).isSome then .error .notDirectory
  else .error .notFound

/-- The place that the parts of a path lead to from a place. -/
def follow (tree : FileTree) (place : List String) : List String → Except FileError (List String)
  | [] => .ok place
  | part :: rest => do
    tree.enter place
    if part = "" || part = "." then tree.follow place rest
    else if part = ".." then tree.follow place.dropLast rest
    else tree.follow (place ++ [part]) rest

/-- The place of a path below the root of the tree. -/
def locate (tree : FileTree) (path : String) : Except FileError (List String) :=
  if path = "" || path.toList.head? = some '/' then .error .notFound
  else tree.follow [] (Text.splitString '/' path)

def read (tree : FileTree) (path : String) : Except FileError String := do
  let place ← tree.locate path
  if tree.isDirectory place then .error .isDirectory
  else
    match tree.find? place with
    | none => .error .notFound
    | some content => FileError.textOf content

/-- The tree with a text at a path. A path that ends with a slash names a directory, and no text
can be written there. -/
def write (tree : FileTree) (path text : String) : Except FileError FileTree := do
  let trimmed := String.ofList (path.toList.reverse.dropWhile (· = '/')).reverse
  let place ← tree.locate trimmed
  tree.enter place.dropLast
  if trimmed ≠ path || tree.isDirectory place then .error .isDirectory
  else return ⟨⟨place, text.toUTF8⟩ :: tree.files.filter (·.path != place)⟩

/-- The tree as a disk that changes with each writing. -/
def disk : Disk (StateM FileTree) where
  read path := fun tree ↦ (tree.read path, tree)
  write path text := fun tree ↦
    match tree.write path text with
    | .ok changed => (.ok (), changed)
    | .error e => (.error e, tree)

end FileTree

end StateMachine
