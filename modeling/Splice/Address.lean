import Splice.Text.Blank
import Splice.Text.LowerCase
import Splice.Text.Quoted

/-! # Addresses

An address is a scheme and what follows it. Two slashes begin a host, which ends at the path; a query
and a fragment end the path.
-/

namespace Splice

/-- The scheme and the path of an address. Without a scheme, the scheme is empty. -/
structure Address where
  scheme : String
  path : String
  deriving DecidableEq, Repr

namespace Address

/-- The part before the first of some characters, and the rest from it on. -/
def upTo (p : Char → Bool) (cs : List Char) : List Char × List Char :=
  (cs.takeWhile (!p ·), cs.dropWhile (!p ·))

def splitAt (c : Char) (cs : List Char) : List (List Char) := Text.splitRuns (· == c) cs

def isOctet (cs : List Char) : Bool :=
  cs.length ≤ 3 && !cs.isEmpty && cs.all Char.isDigit && (cs.length == 1 || cs.head? != some '0') &&
    decide ((String.ofList cs).toNat?.getD 256 < 256)

/-- Four numbers with points between them. -/
def isVersion4 (cs : List Char) : Bool :=
  let parts := splitAt '.' cs
  parts.length == 4 && parts.all isOctet

def isHexDigit (c : Char) : Bool :=
  c.isDigit || (decide ('a' ≤ c) && decide (c ≤ 'f')) || (decide ('A' ≤ c) && decide (c ≤ 'F'))

def isGroup (cs : List Char) : Bool := !cs.isEmpty && cs.length ≤ 4 && cs.all isHexDigit

/-- Groups between colons with at most one gap, which stands for at least one group. -/
def areGroups (parts : List (List Char)) : Bool :=
  if parts.length < 3 || 9 < parts.length then false
  else
    let inner := parts.tail.dropLast
    let first := parts.head?.getD []
    let last := parts.getLast?.getD []
    let gaps := (inner.filter List.isEmpty).length
    if 1 < gaps then false
    else if gaps = 1 then
      let before := inner.takeWhile (!·.isEmpty)
      let after := (inner.dropWhile (!·.isEmpty)).tail
      let headOpen := first.isEmpty && !before.isEmpty
      let lastOpen := last.isEmpty && !after.isEmpty
      let given := (parts.filter (!·.isEmpty))
      !headOpen && !lastOpen && decide (given.length < 8) && given.all isGroup
    else parts.length == 8 && parts.all isGroup

/-- Groups of hexadecimal digits, of which the last two may be written as four decimal numbers. A zone
may follow a percent sign. -/
def isVersion6 (cs : List Char) : Bool :=
  let (address, zone) := upTo (· == '%') cs
  let zoneOk := zone.isEmpty || (zone.length != 1 && !zone.tail.contains '%')
  let parts := splitAt ':' address
  let last := parts.getLast?.getD []
  let parts? :=
    if last.contains '.' then
      if isVersion4 last then some (parts.dropLast ++ [['0'], ['0']]) else none
    else some parts
  zoneOk && parts.length ≥ 3 && match parts? with
    | some parts => areGroups parts
    | none => false

/-- A later version: the letter, hexadecimal digits, a point and more. -/
def isLaterVersion (cs : List Char) : Bool :=
  let digits := cs.tail.takeWhile isHexDigit
  let rest := cs.tail.dropWhile isHexDigit
  !digits.isEmpty && rest.head? == some '.' && 2 ≤ rest.length && !rest.contains '\n'

def checkBracketed (host : List Char) : Except String Unit :=
  if host.head? = some 'v' then
    if isLaterVersion host then .ok () else .error "IPvFuture address is invalid"
  else if isVersion4 host then .error "An IPv4 address cannot be in brackets"
  else if isVersion6 host then .ok ()
  else .error (Text.quoted (String.ofList host) ++ " does not appear to be an IPv4 or IPv6 address")

/-- Characters that stand for one that separates the parts of an address. -/
def separatorForms : List Nat :=
  [0x2047, 0x2048, 0x2049, 0x2100, 0x2101, 0x2105, 0x2106, 0x2A74, 0xFE13, 0xFE16, 0xFE55, 0xFE56,
    0xFE5F, 0xFE6B, 0xFF03, 0xFF0F, 0xFF1A, 0xFF1F, 0xFF20]

/-- Check a host: brackets come in pairs around a host address, and no character stands for a
separator. -/
def checkHost (host : List Char) : Except String Unit := do
  let opened := host.contains '['
  let closed := host.contains ']'
  if opened != closed then throw "Invalid IPv6 URL"
  if opened then checkBracketed (upTo (· == ']') (upTo (· == '[') host).2.tail).1

def checkForms (host : List Char) : Except String Unit :=
  if host.any fun c => separatorForms.contains c.toNat then
    .error ("netloc '" ++ String.ofList host ++
      "' contains invalid characters under NFKC normalization")
  else .ok ()

def isSchemeChar (c : Char) : Bool := c.isAlphanum || c == '+' || c == '-' || c == '.'

/-- The scheme in small letters and what follows its colon. -/
def splitScheme (cs : List Char) : String × List Char :=
  let (scheme, rest) := upTo (· == ':') cs
  if !rest.isEmpty && scheme.head?.any Char.isAlpha && scheme.all isSchemeChar then
    ((String.ofList scheme).toLower, rest.tail)
  else ("", cs)

/-- Blanks and controls in front of an address are left out. -/
def isLeading (c : Char) : Bool := c.toNat ≤ 0x20

/-- Line ends and tabs are left out anywhere. -/
def isDropped (c : Char) : Bool := c == '\t' || c == '\r' || c == '\n'

def splitHost (cs : List Char) : List Char × List Char :=
  if cs.take 2 = ['/', '/'] then upTo (fun c => c == '/' || c == '?' || c == '#') (cs.drop 2)
  else ([], cs)

def ofText (s : String) : Except String Address := do
  let cs := (s.toList.dropWhile isLeading).filter (!isDropped ·)
  let (scheme, rest) := splitScheme cs
  let (host, rest) := splitHost rest
  checkHost host
  checkForms host
  let path := (upTo (· == '?') (upTo (· == '#') rest).1).1
  return ⟨scheme, String.ofList path⟩

end Address
end Splice
