import FreshKeys.Text.Blank
import FreshKeys.Text.Pieces

/-!
# Files

Files are a finite list of named entries, seen from a working directory; a name with slashes also
makes the directories on the way to it. A name that starts with a slash is counted from the root,
and one that starts with `..` from a directory above the working directory. A path is walked
segment by segment, and the first segment that cannot be passed decides the error. Where there is no
entry there is nothing to read: the working directory has no name of its own that a path from the
root would lead through, and there are no links.
-/

namespace FreshKeys

/-- What is under a name. -/
inductive FileEntry where
  | file (bytes : ByteArray)
  | directory

/-- The entries that there are, by name. -/
structure Files where
  entries : List (String × FileEntry)

/-- Why a path cannot be read. -/
inductive FileError where
  | notFound
  | notDirectory
  | isDirectory
  | nameTooLong
  | nulInPath
  | notUtf8
  deriving DecidableEq, Repr

/-- The text of a file error. -/
def FileError.message : FileError → String
  | .notFound => "No such file or directory (os error 2)"
  | .notDirectory => "Not a directory (os error 20)"
  | .isDirectory => "Is a directory (os error 21)"
  | .nameTooLong => "File name too long (os error 36)"
  | .nulInPath => "file name contained an unexpected NUL byte"
  | .notUtf8 => "stream did not contain valid UTF-8"

namespace Files

/-- No entries at all. -/
def empty : Files := ⟨[]⟩

/-- Where something is, segment by segment: from the working directory, or from as many directories
above it as there are `..` in front, or from the root, which is an empty segment in front. -/
abbrev Position := List (List Char)

/-- The segment that stays where it is. -/
def here : List Char := ['.']

/-- The segment that goes to the directory above. -/
def above : List Char := ['.', '.']

/-- The root. -/
def root : Position := [[]]

/-- Whether a path is counted from the root. -/
def isAbsolute (path : String) : Bool := path.toList.head? == some '/'

/-- The position that the name of an entry stands for. -/
def positionOf (name : String) : Position :=
  let segments := (Text.pieces Text.isSlash name.toList).filter fun s => !s.isEmpty && s != here
  if isAbsolute name then root ++ segments else segments

/-- Whether a position is that of the working directory, or of a directory above it. -/
def isAtOrAbove (position : Position) : Bool := position.all (· == above)

/-- The position of the directory above; the root is above itself. -/
def up (position : Position) : Position :=
  if position == root then root
  else if isAtOrAbove position then position ++ [above]
  else position.dropLast

/-- What is at a position; `none` if there is nothing. -/
def look (files : Files) (position : Position) : Option FileEntry :=
  if position == root || isAtOrAbove position then some .directory
  else
    match files.entries.find? fun e => positionOf e.1 == position with
    | some e => some e.2
    | none =>
      if files.entries.any fun e => position.isPrefixOf (positionOf e.1) then some .directory
      else none

/-- Where a walk stands, and what is there. -/
structure Place where
  position : Position
  entry : FileEntry

/-- Where the walk along a path starts. -/
def start (path : String) : Place := ⟨if isAbsolute path then root else [], .directory⟩

/-- The longest name of one segment, in bytes. -/
def maxName : Nat := 255

/-- The longest path, in bytes. -/
def maxPath : Nat := 4095

/-- Takes one segment of a path. -/
def step (files : Files) (place : Place) (segment : List Char) : Except FileError Place :=
  match place.entry with
  | .file _ => .error .notDirectory
  | .directory =>
    if segment.isEmpty || segment == here then .ok place
    else if segment == above then .ok ⟨up place.position, .directory⟩
    else if maxName < (String.ofList segment).utf8ByteSize then .error .nameTooLong
    else
      match files.look (place.position ++ [segment]) with
      | some entry => .ok ⟨place.position ++ [segment], entry⟩
      | none => .error .notFound

/-- The bytes of the file that a path leads to. -/
def readBytes (files : Files) (path : String) : Except FileError ByteArray :=
  if path.toList.contains '\x00' then .error .nulInPath
  else if path.isEmpty then .error .notFound
  else if maxPath < path.utf8ByteSize then .error .nameTooLong
  else
    (Text.pieces Text.isSlash path.toList).foldlM files.step (start path) >>= fun place =>
      match place.entry with
      | .file bytes => .ok bytes
      | .directory => .error .isDirectory

/-- The text of the file that a path leads to. -/
def readText (files : Files) (path : String) : Except FileError String :=
  files.readBytes path >>= fun bytes =>
    match String.fromUTF8? bytes with
    | some text => .ok text
    | none => .error .notUtf8

end Files

end FreshKeys
