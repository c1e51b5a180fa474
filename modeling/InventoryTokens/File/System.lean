import InventoryTokens.File.Path

/-!
# File systems

A file system is a tree of directories with a working directory in it.  Reading and saving follow a
path component by component and fail at the first that cannot be entered.  Saving makes missing
directories on the way; those that it made stay even if it fails later.
-/

namespace InventoryTokens.File

inductive FileError where
  | notFound
  | exists
  | notDirectory
  | isDirectory
  | nameTooLong
  | nulByte
  | notText
  | other (message : String)
  deriving DecidableEq, Repr

namespace FileError

def message : FileError → String
  | .notFound => "No such file or directory (os error 2)"
  | .exists => "File exists (os error 17)"
  | .notDirectory => "Not a directory (os error 20)"
  | .isDirectory => "Is a directory (os error 21)"
  | .nameTooLong => "File name too long (os error 36)"
  | .nulByte => "file name contained an unexpected NUL byte"
  | .notText => "stream did not contain valid UTF-8"
  | .other message => message

end FileError

inductive Node where
  | file (content : ByteArray)
  | directory (entries : List (String × Node))

namespace Node

/-- What lies at the end of a list of names. -/
def find? : List String → Node → Option Node
  | [], node => some node
  | _ :: _, .file _ => none
  | name :: names, .directory entries => (entries.lookup name).bind (find? names)

/-- Puts a node under a name, in place of what was there. -/
def putEntry (name : String) (node : Node) : List (String × Node) → List (String × Node)
  | [] => [(name, node)]
  | (n, old) :: rest =>
    if n = name then (n, node) :: rest else (n, old) :: putEntry name node rest

/-- Puts a new node at the end of a list of names; directories on the way that are missing are
made. -/
def put (new : Node) : List String → Node → Node
  | [], _ => new
  | name :: names, .directory entries =>
    let inner := (entries.lookup name).getD (.directory [])
    .directory (putEntry name (put new names inner) entries)
  | _ :: _, .file content => .file content

def isDirectory : Node → Bool
  | .directory _ => true
  | .file _ => false

end Node

/-- A way into a tree: names and the nodes under them, the last first. -/
abbrev Trail := List (String × Node)

namespace Trail

/-- The node that a trail leads to from a root. -/
def node (root : Node) : Trail → Node
  | [] => root
  | (_, node) :: _ => node

def names (trail : Trail) : List String :=
  (trail.map (·.1)).reverse

/-- The trail that names lead along after a trail that ends at a node. -/
def follow? : List String → Trail → Node → Option Trail
  | [], trail, _ => some trail
  | _ :: _, _, .file _ => none
  | name :: names, trail, .directory entries =>
    (entries.lookup name).bind fun node => follow? names ((name, node) :: trail) node

end Trail

/-- A tree of files and the names that lead to the working directory in it. -/
structure FileSystem where
  root : Node
  working : List String

namespace FileSystem

def nameLimit : Nat := 255

def pathLimit : Nat := 4095

/-- The trail that components lead along after a trail; all of it must be there, and all but the
last must be directories. -/
def walk (root : Node) : List Component → Trail → Except FileError Trail
  | [], trail => .ok trail
  | c :: rest, trail =>
    match trail.node root with
    | .file _ => .error .notDirectory
    | .directory entries =>
      match c with
      | .root => walk root rest []
      | .current => walk root rest trail
      | .up => walk root rest trail.tail
      | .name name =>
        if nameLimit < name.utf8ByteSize then .error .nameTooLong
        else
          match entries.lookup name with
          | none => .error .notFound
          | some node => walk root rest ((name, node) :: trail)

/-- The trail that components lead along from the working directory. -/
def locate (fs : FileSystem) (components : List Component) : Except FileError Trail :=
  match Trail.follow? fs.working [] fs.root with
  | none => .error .notFound
  | some trail => walk fs.root components trail

/-- The node that components lead to from the working directory. -/
def node? (fs : FileSystem) (components : List Component) : Except FileError Node :=
  (fs.locate components).map (Trail.node fs.root)

def isDirectory (fs : FileSystem) (components : List Component) : Bool :=
  match fs.node? components with
  | .ok node => node.isDirectory
  | .error _ => false

/-- Refuses a text that names no file at all. -/
def checkText (text : String) : Except FileError Unit :=
  if text.toList.contains '\x00' then .error .nulByte
  else if text = "" then .error .notFound
  else if pathLimit < text.utf8ByteSize then .error .nameTooLong
  else .ok ()

def read (fs : FileSystem) (text : String) : Except FileError ByteArray := do
  checkText text
  let path := Path.parse text
  match ← fs.node? path.components with
  | .file content => if path.ending = .plain then return content else throw .notDirectory
  | .directory _ => throw .isDirectory

/-- The directory and the name that components end in, if they end in a name. -/
def splitName? (components : List Component) : Option (List Component × String) :=
  match components.getLast? with
  | some (.name name) => some (components.dropLast, name)
  | _ => none

/-- The names that lead to a directory. -/
def enter (fs : FileSystem) (directory : List Component) : Except FileError (List String) := do
  let here ← fs.locate directory
  match here.node fs.root with
  | .directory _ => return here.names
  | .file _ => throw .notDirectory

/-- The names that lead to a name in a directory; it may not be too long. -/
def place (fs : FileSystem) (directory : List Component) (name : String) :
    Except FileError (List String) := do
  let here ← fs.enter directory
  if nameLimit < name.utf8ByteSize then throw .nameTooLong else return here ++ [name]

def put (fs : FileSystem) (names : List String) (node : Node) : FileSystem :=
  { fs with root := Node.put node names fs.root }

/-- Makes one directory; nothing may be there. -/
def makeDirectory (fs : FileSystem) (components : List Component) : Except FileError FileSystem :=
  match splitName? components with
  | none => do
    let _ ← fs.node? components
    throw .exists
  | some (directory, name) => do
    let names ← fs.place directory name
    if (fs.root.find? names).isSome then throw .exists else return fs.put names (.directory [])

/-- What making a directory comes to when one that is there already will do. -/
def orPresent (fs : FileSystem) (components : List Component) :
    Except FileError FileSystem → Except FileError Unit × FileSystem
  | .ok made => (.ok (), made)
  | .error cause => (if fs.isDirectory components then .ok () else .error cause, fs)

/-- Makes a directory and those it lies in, as far as they are missing.  The components are given
from the last to the first. -/
def makeDirectories (fs : FileSystem) : List Component → Except FileError Unit × FileSystem
  | [] => (.ok (), fs)
  | last :: before =>
    let components := (last :: before).reverse
    match fs.makeDirectory components with
    | .error .notFound =>
      match makeDirectories fs before with
      | (.ok (), made) => made.orPresent components (made.makeDirectory components)
      | (.error cause, made) => (.error cause, made)
    | result => fs.orPresent components result

/-- Writes a file in a directory that is there, in place of an old file. -/
def write (fs : FileSystem) (text : String) (content : ByteArray) :
    Except FileError FileSystem := do
  checkText text
  let path := Path.parse text
  match splitName? path.components, path.ending with
  | some (directory, name), .plain =>
    let names ← fs.place directory name
    match fs.root.find? names with
    | some (.directory _) => throw .isDirectory
    | _ => return fs.put names (.file content)
  | some (directory, _), .slash =>
    let _ ← fs.enter directory
    throw .isDirectory
  | _, _ =>
    match ← fs.node? path.components with
    | .directory _ => throw .isDirectory
    | .file _ => throw .notDirectory

/-- Whether a component holds a character that no file name may hold. -/
def hasNul : Component → Bool
  | .name name => name.toList.contains '\x00'
  | _ => false

/-- Makes the directories that a path lies in, as far as they are missing. -/
def makeParents (fs : FileSystem) (text : String) : Except FileError Unit × FileSystem :=
  match Path.parent? (Path.parse text).components with
  | none => (.ok (), fs)
  | some directory =>
    if directory.any hasNul then (.error .nulByte, fs)
    else if pathLimit < (Path.parentText text).utf8ByteSize then (.error .nameTooLong, fs)
    else fs.makeDirectories directory.reverse

/-- Writes a text to a file and makes the directories that it lies in. -/
def save (fs : FileSystem) (text : String) (content : String) :
    Except FileError Unit × FileSystem :=
  match fs.makeParents text with
  | (.error cause, made) => (.error cause, made)
  | (.ok (), made) =>
    match made.write text content.toUTF8 with
    | .ok written => (.ok (), written)
    | .error cause => (.error cause, made)

end FileSystem

end InventoryTokens.File
