import PubSub.Yaml.Fault

/-!
# Cursors

A place in a text: what is still to be read, and where it stands. The zero
character means the end; it is never read, because a text is refused where a
character comes up that may not stand in it.
-/

namespace PubSub.Yaml

/-! ## Characters -/

def isBreak (c : Char) : Bool :=
  c = '\n' || c = Char.ofNat 0x85 || c = Char.ofNat 0x2028 || c = Char.ofNat 0x2029

def isEnd (c : Char) : Bool := c = '\x00'

def isBreakOrEnd (c : Char) : Bool := isBreak c || isEnd c

/-- What may stand after an indicator that stands alone. -/
def isSpacing (c : Char) : Bool := c = ' ' || c = '\t' || isBreakOrEnd c

def isAllowed (c : Char) : Bool :=
  let n := c.toNat
  n = 0x9 || n = 0xa || n = 0xd || (0x20 ≤ n && n ≤ 0x7e) || n = 0x85 || (0xa0 ≤ n && n ≤ 0xd7ff)
    || (0xe000 ≤ n && n ≤ 0xfffd) || 0x10000 ≤ n

def unifyLines : List Char → List Char
  | [] => []
  | '\r' :: '\n' :: rest => '\n' :: unifyLines rest
  | '\r' :: rest => '\n' :: unifyLines rest
  | c :: rest => c :: unifyLines rest

/-! ## Places -/

structure Cursor where
  rest : List Char
  /-- Whether the text ends behind the rest. If not, characters follow that nobody can read. -/
  whole : Bool
  size : Nat
  index : Nat
  line : Nat
  column : Nat

namespace Cursor

def firstPiece : Nat := 8192

/-- How many more characters are looked at whenever all before them have been read. -/
def laterPiece : Nat := 4096

/-- The beginning of a text. It is read up to the piece in which the first character stands that may
not; in the first piece there must be none. -/
def start? (text : List Char) : Option Cursor :=
  match text.findIdx? (!isAllowed ·) with
  | none => some ⟨text, true, text.length, 0, 0, 0⟩
  | some bad =>
    if bad < firstPiece then none
    else
      let size := bad - (bad - firstPiece) % laterPiece
      some ⟨text.take size, false, size, 0, 0, 0⟩

def next (c : Cursor) : Cursor :=
  match c.rest with
  | [] => c
  | ch :: rest =>
    if isBreak ch then
      { c with rest := rest, index := c.index + 1, line := c.line + 1, column := 0 }
    else if ch.toNat = 0xfeff then { c with rest := rest, index := c.index + 1 }
    else { c with rest := rest, index := c.index + 1, column := c.column + 1 }

def skip (c : Cursor) : Nat → Cursor
  | 0 => c
  | n + 1 => c.next.skip n

/-- Whether so many characters can be looked at. At the end of a whole text as many can be as one
likes. -/
def shows (c : Cursor) (n : Nat) : Bool := c.whole || n = 0 || !(c.rest.drop (n - 1)).isEmpty

end Cursor

/-! ## Readers -/

abbrev Reader := StateT Cursor (Except Fault)

namespace Reader

def fail {α : Type} (fault : Fault) : Reader α := fun _ => .error fault

def refuse {α : Type} : Reader α := fail .malformed

def cursor : Reader Cursor := fun c => .ok (c, c)

/-- Refuses a text in which so many characters cannot be looked at. -/
def need (n : Nat) : Reader Unit := fun c => if c.shows n then .ok ((), c) else .error .malformed

def peek (ahead : Nat) : Reader Char := do
  need (ahead + 1)
  return (← cursor).rest.getD ahead '\x00'

def column : Reader Nat := return (← cursor).column

/-- A bound on the steps that are left: the characters of the text, and one. -/
def bound : Reader Nat := return (← cursor).size + 1

def skip (n : Nat) : Reader Unit := do
  modify (·.skip n)
  if n ≠ 0 then need 1

def takeFound (count : List Char → Nat) : Reader (List Char) := do
  let c ← cursor
  let n := count c.rest
  need (n + 1)
  modify (·.skip n)
  return c.rest.take n

/-- The characters of one kind that come next. -/
def takeWhile (p : Char → Bool) : Reader (List Char) :=
  takeFound fun rest => (rest.takeWhile p).length

def skipWhile (p : Char → Bool) : Reader Unit := do
  let _ ← takeWhile p

def lineBreak : Reader (List Char) := do
  let c ← peek 0
  if c = '\n' || c = Char.ofNat 0x85 then
    skip 1
    return ['\n']
  else if isBreak c then
    skip 1
    return [c]
  else
    return []

def atMark (mark : Char) : Reader Bool := do
  need 3
  if (← cursor).rest.take 3 = [mark, mark, mark] then return isSpacing (← peek 3)
  else return false

/-- Whether three dashes or three dots that stand alone come next. -/
def atDocumentMark : Reader Bool := do
  if ← atMark '-' then return true else atMark '.'

end Reader

end PubSub.Yaml
