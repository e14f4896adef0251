import Splice.Path
import Splice.Text.Quoted

/-! # Trees of files

Files hold text. Every operation names what is in its way: each step of a path but the last must be
a directory.
-/

namespace Splice

/-- What is in the way of an operation on files. -/
inductive FileFault where
  | missing
  | exists
  | notDirectory
  | isDirectory
  | nameTooLong
  | nullByte
  /-- The path has no bytes. -/
  | unencodable
  deriving DecidableEq, Repr

def FileFault.system? : FileFault → Option (Nat × String)
  | .missing => some (2, "No such file or directory")
  | .exists => some (17, "File exists")
  | .notDirectory => some (20, "Not a directory")
  | .isDirectory => some (21, "Is a directory")
  | .nameTooLong => some (36, "File name too long")
  | .nullByte => none
  | .unencodable => none

def FileFault.reason (f : FileFault) (path : String) : String :=
  match f with
  | .unencodable => (Text.unencodable? path).getD ""
  | _ => "embedded null byte"

/-- What keeps a text from being part of a path. -/
def FileFault.ofText? (s : String) : Option FileFault :=
  if !Text.isFileName s then some .unencodable
  else if s.toList.contains '\x00' then some .nullByte
  else none

/-- What keeps a path from being followed, if it is taken as a whole. -/
def FileFault.ofPath? (p : Path) : Option FileFault := ofText? p.text

/-- What keeps a path from being followed step by step. -/
def FileFault.ofSteps? (p : Path) : Option FileFault := p.parts.findSome? ofText?

structure FileError where
  fault : FileFault
  path : String
  deriving DecidableEq, Repr

def FileError.message (e : FileError) : String :=
  match e.fault.system? with
  | some (n, text) => "[Errno " ++ toString n ++ "] " ++ text ++ ": " ++ Text.quoted e.path
  | none => e.fault.reason e.path

/-- Files with their contents, and directories. The top is a directory of its own. -/
structure FileTree where
  files : List (Location × String) := []
  directories : List Location := []

namespace FileTree

def content? (t : FileTree) (l : Location) : Option String := t.files.lookup l

def isDirectory (t : FileTree) (l : Location) : Bool := l.isEmpty || t.directories.contains l

def put (t : FileTree) (l : Location) (content : String) : FileTree :=
  { t with files := (l, content) :: t.files.filter (·.1 != l) }

def erase (t : FileTree) (l : Location) : FileTree :=
  { t with files := t.files.filter (·.1 != l) }

def nameLimit : Nat := 255

def pathLimit : Nat := 4096

/-- Take one step into a directory. -/
def enter (t : FileTree) (l : Location) (part : String) : Except FileFault Location :=
  if part = ".." then .ok l.dropLast
  else if nameLimit < part.utf8ByteSize then .error .nameTooLong
  else if t.isDirectory (l ++ [part]) then .ok (l ++ [part])
  else if (t.content? (l ++ [part])).isSome then .error .notDirectory
  else .error .missing

/-- The place that a path leads to. Its last step need not exist. -/
def place (t : FileTree) (here : Location) (p : Path) : Except FileFault Location :=
  if let some fault := FileFault.ofPath? p then .error fault
  else if pathLimit ≤ p.text.utf8ByteSize then .error .nameTooLong
  else do
    let l ← p.parts.dropLast.foldlM t.enter (if p.isAbsolute then [] else here)
    match p.parts.getLast? with
    | none => return l
    | some part =>
      if part = ".." then return l.dropLast
      else if nameLimit < part.utf8ByteSize then throw .nameTooLong
      else return l ++ [part]

/-- Whether something is at the place that a path leads to. A path that cannot be followed for want of
a directory leads nowhere. -/
def probe (holds : Location → Bool) (t : FileTree) (here : Location) (p : Path) :
    Except FileFault Bool :=
  match t.place here p with
  | .ok l => .ok (holds l)
  | .error .nameTooLong => .error .nameTooLong
  | .error _ => .ok false

def isFile (t : FileTree) : Location → Path → Except FileFault Bool :=
  t.probe fun l => (t.content? l).isSome

def isThere (t : FileTree) : Location → Path → Except FileFault Bool :=
  t.probe fun l => (t.content? l).isSome || t.isDirectory l

def find? (t : FileTree) (here : Location) (p : Path) : Option Location :=
  match t.place here p with
  | .ok l => if (t.content? l).isSome || t.isDirectory l then some l else none
  | .error _ => none

/-- The content of the file that a path leads to. -/
def read (t : FileTree) (here : Location) (p : Path) : Except FileFault String := do
  let l ← t.place here p
  if t.isDirectory l then throw .isDirectory
  match t.content? l with
  | some content => return content
  | none => throw .missing

/-- The content of the file that a text leads to. The empty text leads nowhere, and one that ends in
a slash only to directories. -/
def readAt (t : FileTree) (here : Location) (s : String) : Except FileFault String :=
  if s.isEmpty then .error .missing
  else
    match t.read here (Path.ofText s) with
    | .ok content => if s.endsWith "/" then .error .notDirectory else .ok content
    | .error f => .error f

/-- The place of a file that may be written. -/
def target (t : FileTree) (here : Location) (p : Path) : Except FileFault Location := do
  let l ← t.place here p
  if t.isDirectory l then throw .isDirectory
  return l

def write (t : FileTree) (here : Location) (p : Path) (content : String) :
    Except FileFault FileTree :=
  (t.target here p).map fun l => t.put l content

def remove (t : FileTree) (here : Location) (p : Path) : Except FileFault FileTree := do
  let l ← t.place here p
  if t.isDirectory l then throw .isDirectory
  if (t.content? l).isNone then throw .missing
  return t.erase l

def makeDirectory (t : FileTree) (here : Location) (p : Path) : Except FileFault FileTree := do
  let l ← t.place here p
  if t.isDirectory l || (t.content? l).isSome then throw .exists
  return { t with directories := t.directories ++ [l] }

/-- Make one directory unless it is there already. -/
def ensureDirectory (t : FileTree) (here : Location) (p : Path) : Except FileError FileTree :=
  match t.makeDirectory here p with
  | .ok t => .ok t
  | .error f =>
    match t.place here p with
    | .ok l => if t.isDirectory l then .ok t else .error ⟨f, p.text⟩
    | .error _ => .error ⟨f, p.text⟩

/-- Make a directory, given by its steps from the last to the first, and those above it that are
missing. -/
def makeDirectoriesFrom (t : FileTree) (here : Location) (root : PathRoot) :
    List String → Except FileError FileTree
  | [] => t.ensureDirectory here ⟨root, []⟩
  | part :: above =>
    let p : Path := ⟨root, (part :: above).reverse⟩
    match t.makeDirectory here p with
    | .error .missing =>
      match t.makeDirectoriesFrom here root above with
      | .ok t => t.ensureDirectory here p
      | .error e => .error e
    | _ => t.ensureDirectory here p

def makeDirectories (t : FileTree) (here : Location) (p : Path) : Except FileError FileTree :=
  t.makeDirectoriesFrom here p.root p.parts.reverse

end FileTree
end Splice
