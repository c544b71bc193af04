/-
File trees: directories, files and symbolic links, and where paths lead.

A place is the list of names from the top of the tree down to a node, links
resolved. `FileTree.resolve` follows a path name by name; only the number of
links it follows is bounded.
-/
import DocScribe.Failure
import DocScribe.Path
import DocScribe.Text.Bytes

namespace DocScribe

/-- What a file holds: a text, or bytes that are not the UTF-8 form of one. -/
inductive Content where
  | text (t : Text)
  | bytes (b : List UInt8)
  deriving DecidableEq

/-- What bytes hold. -/
def Content.ofBytes (b : List UInt8) : Content :=
  match Text.ofBytes? b with
  | some t => .text t
  | none => .bytes b

/-- What stands at a place. -/
inductive Node where
  | file (content : Content)
  | dir
  | link (target : Path)
  deriving DecidableEq

/-- The names from the top of a tree down to a node. -/
abbrev Place := List Text

/-- A tree of files, in the order in which directories list their entries.
The top is a directory without being listed. -/
structure FileTree where
  nodes : List (Place × Node) := []
  /-- The directory that relative paths start from. -/
  here : Place := []
  /-- Why a content cannot be put into the file at a place: nobody may write
  there, or there is no room for it. -/
  refusal : Place → Content → Option AccessFault := fun _ _ => none

/-- Where a path leads. -/
inductive Destination where
  | file (place : Place) (content : Content)
  | dir (place : Place)
  /-- The directory is there, the last name of the path is not. -/
  | absent (place : Place)
  | failed (fault : AccessFault)
  deriving DecidableEq

namespace FileTree

/-- What stands at a place. -/
def node? (t : FileTree) (place : Place) : Option Node :=
  if place.isEmpty then some .dir else t.nodes.lookup place

/-- The most links that are followed for one path. -/
def linkLimit : Nat := 40

/-- The most bytes that a name can have. -/
def nameLimit : Nat := 255

/-- Where names lead from a directory; `jump` says where a link goes on. -/
def step (t : FileTree) (jump : Place → List Text → Destination) : Place → List Text → Destination
  | place, [] => .dir place
  | place, name :: rest =>
    if name = [] || name = ['.'] then step t jump place rest
    else if name = ['.', '.'] then step t jump place.dropLast rest
    else if nameLimit < name.size then .failed .nameTooLong
    else
      let next := place ++ [name]
      match t.node? next with
      | some .dir => step t jump next rest
      | some (.file content) => if rest.isEmpty then .file next content else .failed .notDirectory
      | some (.link target) =>
        jump (if target.isAbsolute then [] else place) (Text.pieces (· == '/') target.text ++ rest)
      | none => if rest.isEmpty then .absent next else .failed .notFound

/-- Where names lead from a directory when at most so many links are
followed. -/
def walk (t : FileTree) : Nat → Place → List Text → Destination
  | 0 => t.step fun _ _ => .failed .tooManyLinks
  | links + 1 => t.step (t.walk links)

/-- Where a path leads. -/
def resolve (t : FileTree) (p : Path) : Destination :=
  if p.text.isEmpty then .failed .notFound
  else if p.text.contains (Char.ofNat 0) then .failed .nulByte
  else t.walk linkLimit (if p.isAbsolute then [] else t.here) (Text.pieces (· == '/') p.text)

/-- The place of the directory that a path leads to. -/
def directory? (t : FileTree) (p : Path) : Option Place :=
  match t.resolve p with
  | .dir place => some place
  | _ => none

def isDirectory (t : FileTree) (p : Path) : Bool := (t.directory? p).isSome

def isFile (t : FileTree) (p : Path) : Bool :=
  match t.resolve p with
  | .file .. => true
  | _ => false

def isThere (t : FileTree) (p : Path) : Bool := t.isDirectory p || t.isFile p

/-- The names of the entries of a directory. -/
def entries (t : FileTree) (place : Place) : List Text :=
  t.nodes.filterMap fun n =>
    match n.1.getLast? with
    | some name => if n.1.dropLast = place then some name else none
    | none => none

/-- The content of the file that a path leads to. -/
def content (t : FileTree) (p : Path) : Except AccessFault Content :=
  match t.resolve p with
  | .file _ content => .ok content
  | .dir _ => .error .isDirectory
  | .absent _ => .error .notFound
  | .failed fault => .error fault

/-- The text of the file that a path leads to. -/
def read (t : FileTree) (p : Path) : Except AccessFault Text :=
  match t.content p with
  | .ok (.text text) => .ok text
  | .ok (.bytes _) => .error .notUtf8
  | .error fault => .error fault

/-- The tree with a node at a place: in the place of the node that was there,
or after all others. -/
def setNode (t : FileTree) (place : Place) (n : Node) : FileTree :=
  { t with
    nodes :=
      if (t.nodes.lookup place).isSome then
        t.nodes.map fun m => if m.1 = place then (m.1, n) else m
      else t.nodes ++ [(place, n)] }

/-- The tree after a content was put into the file at a place, unless it is
refused. -/
def setContent (t : FileTree) (place : Place) (c : Content) : Except AccessFault FileTree :=
  match t.refusal place c with
  | some fault => .error fault
  | none => .ok (t.setNode place (.file c))

/-- The tree after a file was written at a path. A file that is not there is
made. -/
def writeContent (t : FileTree) (p : Path) (c : Content) : Except AccessFault FileTree :=
  match t.resolve p with
  | .file place _ | .absent place => t.setContent place c
  | .dir _ => .error .isDirectory
  | .failed fault => .error fault

/-- The tree after a text was written at a path. -/
def write (t : FileTree) (p : Path) (text : Text) : Except AccessFault FileTree :=
  t.writeContent p (.text text)

/-- The files of a tree with what they hold. -/
def files (t : FileTree) : List (Place × Content) :=
  t.nodes.filterMap fun n =>
    match n.2 with
    | .file content => some (n.1, content)
    | _ => none

end FileTree
end DocScribe
