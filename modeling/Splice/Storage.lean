import Splice.Address
import Splice.Machine
import Splice.Text.Percent

/-! # Moving files

Source clips are fetched from the network or copied; outputs are stored under keys below a root. A key
that leads out of the root is refused before anything is touched.
-/

namespace Splice
namespace Storage

/-- A file to copy: as it was given, and as a literal of what was given. -/
structure CopySource where
  text : String
  literal : String

def pathLiteral (p : Path) : String := "PosixPath(" ++ Text.quoted p.text ++ ")"

def CopySource.ofText (s : String) : CopySource := ⟨s, Text.quoted s⟩

def CopySource.ofPath (p : Path) : CopySource := ⟨p.text, pathLiteral p⟩

/-- Copy a file. The source is read before the target is opened. -/
def copy (source : CopySource) (target : Path) : Action Unit := do
  let m ← get
  let from? := m.tree.find? m.here (Path.ofText source.text)
  if !source.text.isEmpty && from?.isSome && from? == m.tree.find? m.here target then
    throw (.sameFile source.literal (pathLiteral target))
  let content ← Machine.askTree source.text fun t here => t.readAt here source.text
  Machine.onTree target.text fun t here => t.write here target content

def statusText? (status : Int) (reason : Option String) (url : String) : Option String :=
  let named (kind : String) : String :=
    toString status ++ kind ++ Engine.orNone reason ++ " for url: " ++ url
  if 400 ≤ status ∧ status < 500 then some (named " Client Error: ")
  else if 500 ≤ status ∧ status < 600 then some (named " Server Error: ")
  else none

def fetch (url : String) (target : Path) : Action Unit := do
  match (← get).web url with
  | .failed reason => throw (.download url reason)
  | .broken part reason =>
    Machine.onTree target.text fun t here => t.write here target part
    throw (.download url reason)
  | .response status reason body =>
    match statusText? status reason url with
    | some text => throw (.download url text)
    | none => Machine.onTree target.text fun t here => t.write here target body

def source (line : Int) : Log.Source := ⟨"hookcut.storage", line⟩

def shownLength : Nat := 80

def localPath (address : Address) (url : String) : Path :=
  Path.ofText
    (if address.scheme = "file" then String.ofList (Text.Percent.decode address.path.toList) else url)

def sizeAt (p : Path) : Action Nat := do
  let content ← Machine.askTree p.text fun t here => t.read here p
  return content.utf8ByteSize

def download (url : String) (target : Path) : Action Unit := do
  Machine.makeDirectories target.parent
  Machine.log (source 31) .info
    ("   📥 Downloading: " ++ String.ofList (url.toList.take shownLength))
  let address ← Machine.lift Failure.address (Address.ofText url)
  if address.scheme = "http" ∨ address.scheme = "https" then fetch url target
  else
    let path := localPath address url
    let isFile ← Machine.askTree path.text fun t here => t.isFile here path
    if !isFile then throw (.download url "no such file")
    copy (.ofPath path) target
  let size ← sizeAt target
  Machine.log (source 49) .info
    ("   ✓ Downloaded: " ++ target.text ++ " (" ++ toString size ++ " bytes)")

end Storage

/-- A place where outputs are stored, and the address that they are published under. -/
structure Storage where
  root : Path
  publicBase : Option String

namespace Storage

/-- A storage; the address loses the slashes at its end. -/
def of (root : Path) (publicBase : Option String) : Storage :=
  ⟨root, (publicBase.map (Text.trimEnd '/')).filter (!·.isEmpty)⟩

def isBelow (root l : Location) : Bool := root.isPrefixOf l && root != l

/-- What keeps a key from being followed from the root. The root is looked at first. -/
def fault? (s : Storage) (key : String) : Option FileError :=
  ((FileFault.ofSteps? s.root).map (⟨·, s.root.text⟩)).or
    ((FileFault.ofSteps? (Path.ofText key)).map (⟨·, key⟩))

def locate (s : Storage) (key : String) : Action Location := do
  let root := s.root.locate (← get).here
  if let some e := s.fault? key then throw (.file e)
  let l := ((Path.ofLocation root).join (Path.ofText key)).locate root
  if isBelow root l then return l else throw (.escape key)

def fileAddress (l : Location) : String :=
  "file://" ++ String.ofList (Text.Percent.encode (Path.ofLocation l).text.toList)

def addressOf (s : Storage) (key : String) : Action String := do
  let l ← s.locate key
  match s.publicBase with
  | some base => return base ++ "/" ++ key
  | none => return fileAddress l

/-- Run an action; what the file system has against it is reported as a failed upload. -/
def asUpload (a : Action Unit) : Action Unit :=
  tryCatch a fun f =>
    match f.system? with
    | some text => throw (.upload text)
    | none => throw f

/-- Store a file under a key, in place of what was there, and give its address. -/
def upload (s : Storage) (file : CopySource) (key : String) : Action String := do
  let target := Path.ofLocation (← s.locate key)
  Machine.log (source 81) .info ("   📤 Uploading to " ++ target.text)
  asUpload do
    Machine.makeDirectories target.parent
    copy file target
  let url ← s.addressOf key
  Machine.log (source 88) .info ("   ✓ Uploaded to: " ++ url)
  return url

end Storage
end Splice
