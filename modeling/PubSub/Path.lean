import PubSub.Text.Bytes

/-!
# Paths

A path is the list of names on the way to a place, each name as bytes. The text
of a path may hold doubled slashes, dots that stay and pairs of dots that go back.
-/

namespace PubSub

abbrev Path := List (List UInt8)

namespace Path

open Text (Point)

def slash : UInt8 := 0x2f

def here : List UInt8 := [0x2e]

def around : List UInt8 := [0x2e, 0x2e]

/-- The names in a text; doubled slashes hold none. -/
def names (s : List UInt8) : Path := (s.splitOn slash).filter fun name => !name.isEmpty

def top : Path := [[slash]]

/-- Where a text starts from: the top of all files, or the working folder. -/
def origin (s : List UInt8) : Path := if s.head? = some slash then top else []

/-- One more name on a path; a dot stays, two dots go back. -/
def step (path : Path) (name : List UInt8) : Path :=
  if name = here then path
  else if name = around then path.dropLast
  else path ++ [name]

def joined (path : Path) : List UInt8 := [slash].intercalate path

/-! ## Texts of paths -/

/-- What stands before the last slash of a text and what after it. The former loses the slashes at
its end, unless it is nothing else. -/
def split (text : List Point) : List Point × List Point :=
  let isSlash (p : Point) : Bool := p = .char '/'
  let tail := (text.reverse.takeWhile fun p => !isSlash p).reverse
  let head := text.take (text.length - tail.length)
  (if head.all isSlash then head else (head.reverse.dropWhile isSlash).reverse, tail)

/-- The same with slashes at the end of the text left out. -/
def splitLast (text : List Point) : List Point × List Point :=
  let (head, tail) := split text
  if tail.isEmpty then split head else (head, tail)

def folderText (text : List Point) : List Point :=
  let head := (split text).1
  if head.isEmpty then [.char '.'] else head

/-- A path as messages show it: without dots and doubled slashes. -/
def shown (s : String) : String :=
  let root :=
    if s.startsWith "//" && !s.startsWith "///" then "//"
    else if s.startsWith "/" then "/"
    else ""
  let names := (s.splitOn "/").filter fun name => name ≠ "" && name ≠ "."
  let body := root ++ String.intercalate "/" names
  if body.isEmpty then "." else body

/-! ## Limits -/

def nameLimit : Nat := 255

def isLongName (name : List UInt8) : Bool := nameLimit < name.length

/-- The bytes that a text on the way to a place stays below. -/
def textLimit : Nat := 4096

def isLong (s : List UInt8) : Bool := textLimit ≤ s.length

def reachLimit : Nat := 487

def isReachable (path : Path) : Bool :=
  path.all (fun name => !isLongName name) && path.joined.length ≤ reachLimit

def journalEnding : List UInt8 := Text.toBytes "-journal"

/-- Whether the journal of a database can have a name. A database without a journal cannot be
written to. -/
def hasJournal (path : Path) : Bool := !isLongName (path.getLastD [] ++ journalEnding)

end Path

end PubSub
