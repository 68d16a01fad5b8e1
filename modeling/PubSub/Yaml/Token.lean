import PubSub.Text.Bytes
import PubSub.Yaml.Scalar

/-!
# Tokens

A text as marks and scalars, one after another as they are asked for.
Indentation opens and closes blocks. A name is known as one only when its colon
is found, so the place of every possible name is remembered, tokens behind such
a place wait, and the mark is put there afterwards.
-/

namespace PubSub.Yaml

inductive Token where
  | version (major : Nat)
  | tagHandle (handle stands : String)
  | reserved
  | documentStart
  | documentEnd
  | blockSequence
  | blockMapping
  | blockEnd
  | flowSequence
  | flowSequenceEnd
  | flowMapping
  | flowMappingEnd
  | entry
  | comma
  | key
  | value
  | alias (name : String)
  | anchor (name : String)
  | tag (handle : Option String) (rest : String)
  | scalar (text : List Text.Point) (plain : Bool)
  deriving DecidableEq

structure PossibleKey where
  level : Nat
  position : Nat
  required : Bool
  index : Nat
  line : Nat
  column : Nat

structure Lexer where
  /-- Tokens that were found and not yet taken, the oldest first. -/
  waiting : List Token
  taken : Nat
  ended : Bool
  level : Nat
  indent : Int
  outer : List Int
  keyAllowed : Bool
  keys : List PossibleKey

namespace Lexer

def start : Lexer := ⟨[], 0, false, 0, -1, [], true, []⟩

abbrev Step := StateT Lexer Reader

def read {α : Type} (r : Reader α) : Step α := liftM r

def fail {α : Type} (fault : Fault) : Step α := read (Reader.fail fault)

def refuse {α : Type} : Step α := fail .malformed

def cursor : Step Cursor := read Reader.cursor

def push (t : Token) : Step Unit := modify fun l => { l with waiting := l.waiting ++ [t] }

/-- The position of the next token to be found. -/
def position : Step Nat := return (← get).taken + (← get).waiting.length

def insertAt (n : Nat) (t : Token) : Step Unit :=
  modify fun l => { l with waiting := l.waiting.insertIdx (n - l.taken) t }

def allowKey (allowed : Bool) : Step Unit := modify fun l => { l with keyAllowed := allowed }

def inFlow : Step Bool := return 0 < (← get).level

/-! ## Possible names -/

/-- Gives up the possible name of the present level. One that had to be a name refuses the text. -/
def dropKey : Step Unit := do
  let l ← get
  if l.keys.any fun k => k.level = l.level && k.required then refuse
  else set { l with keys := l.keys.filter fun k => k.level ≠ l.level }

/-- Remembers that a name may begin here. At the margin of a block it has to. -/
def saveKey : Step Unit := do
  let l ← get
  let c ← cursor
  if l.keyAllowed then
    dropKey
    let required := l.level = 0 && l.indent = (c.column : Int)
    let key : PossibleKey := ⟨l.level, ← position, required, c.index, c.line, c.column⟩
    modify fun l => { l with keys := key :: l.keys }

/-- A name ends on the line on which it begins, within a thousand characters or so. -/
def dropStaleKeys : Step Unit := do
  let l ← get
  let c ← cursor
  let stale (k : PossibleKey) : Bool := k.line ≠ c.line || 1024 < c.index - k.index
  if l.keys.any fun k => stale k && k.required then refuse
  else set { l with keys := l.keys.filter fun k => !stale k }

/-! ## Indentation -/

def closing (column : Int) : (indent : Int) → (outer : List Int) → Nat × Int × List Int
  | indent, [] => (0, indent, [])
  | indent, next :: outer =>
    if column < indent then
      let (n, indent, outer) := closing column next outer
      (n + 1, indent, outer)
    else (0, indent, next :: outer)

def unwind (column : Int) : Step Unit := modify fun l =>
  if 0 < l.level then l
  else
    let (n, indent, outer) := closing column l.indent l.outer
    { l with
      waiting := l.waiting ++ List.replicate n .blockEnd
      indent := indent
      outer := outer }

/-- Opens a block at a column further in, and says whether it did. -/
def indentTo (column : Int) : Step Bool := do
  let l ← get
  if l.indent < column then
    set { l with indent := column, outer := l.indent :: l.outer }
    return true
  else
    return false

/-! ## Directives -/

def digitsNumber : Step Nat := do
  let ds ← read (Reader.takeWhile fun c => '0' ≤ c && c ≤ '9')
  if ds.isEmpty then refuse
  else if Decimal.digitLimit < ds.length then fail (.longNumber ds.length)
  else return Decimal.ofDigits ds

def isWordChar (c : Char) : Bool :=
  ('0' ≤ c && c ≤ '9') || ('a' ≤ c && c ≤ 'z') || ('A' ≤ c && c ≤ 'Z') || c = '-' || c = '_'

def isUriChar (c : Char) : Bool :=
  ('0' ≤ c && c ≤ '9') || ('a' ≤ c && c ≤ 'z') || ('A' ≤ c && c ≤ 'Z') ||
    "-;/?:@&=+$,_.!~*'()[]".toList.contains c

def uriBytes : (fuel : Nat) → Reader (List UInt8)
  | 0 => Reader.refuse
  | fuel + 1 => do
    if (← Reader.peek 0) = '%' then
      Reader.skip 1
      let n ← Scalar.hexNumber 2
      Reader.skip 2
      return n.toUInt8 :: (← uriBytes fuel)
    else
      return []

/-- The characters of a tag. Numbers after percent signs that follow each other are the bytes of a
text. -/
def uri : (fuel : Nat) → Reader (List Char)
  | 0 => Reader.refuse
  | fuel + 1 => do
    let text ← Reader.takeWhile isUriChar
    if (← Reader.peek 0) = '%' then
      match Text.ofBytes? (← uriBytes fuel) with
      | some escaped => return text ++ escaped.toList ++ (← uri fuel)
      | none => Reader.refuse
    else
      return text

def someUri : Step String := do
  let text ← read (do uri (← Reader.bound))
  if text.isEmpty then refuse else return String.ofList text

/-- A handle: one exclamation mark before a space, or a name between two. -/
def tagHandle : Step String := do
  if (← read (Reader.peek 0)) ≠ '!' then refuse
  else
    read (Reader.skip 1)
    if (← read (Reader.peek 0)) = ' ' then return "!"
    else
      let name ← read (Reader.takeWhile isWordChar)
      if (← read (Reader.peek 0)) ≠ '!' then refuse
      else
        read (Reader.skip 1)
        return String.ofList ('!' :: name ++ ['!'])

def needGap : Step Unit := do
  let c ← read (Reader.peek 0)
  if !(c = ' ' || isBreakOrEnd c) then refuse

def versionDirective : Step Token := do
  read (Reader.skipWhile (· = ' '))
  let major ← digitsNumber
  if (← read (Reader.peek 0)) ≠ '.' then refuse
  else
    read (Reader.skip 1)
    let _ ← digitsNumber
    needGap
    return .version major

def tagDirective : Step Token := do
  read (Reader.skipWhile (· = ' '))
  let handle ← tagHandle
  if (← read (Reader.peek 0)) ≠ ' ' then refuse
  else
    read (Reader.skipWhile (· = ' '))
    let stands ← someUri
    needGap
    return .tagHandle handle stands

def directive : Step Unit := do
  unwind (-1)
  dropKey
  allowKey false
  read (Reader.skip 1)
  let name ← read (Reader.takeWhile isWordChar)
  if name.isEmpty then refuse
  else
    needGap
    let token ←
      if name = "YAML".toList then versionDirective
      else if name = "TAG".toList then tagDirective
      else do
        read (Reader.skipWhile fun c => !isBreak c)
        pure .reserved
    read Scalar.ignoredLine
    push token

/-! ## Marks -/

def documentMark (token : Token) : Step Unit := do
  unwind (-1)
  dropKey
  allowKey false
  read (Reader.skip 3)
  push token

def openFlow (token : Token) : Step Unit := do
  saveKey
  modify fun l => { l with level := l.level + 1 }
  allowKey true
  read (Reader.skip 1)
  push token

def closeFlow (token : Token) : Step Unit := do
  dropKey
  if (← get).level = 0 then refuse
  else
    modify fun l => { l with level := l.level - 1 }
    allowKey false
    read (Reader.skip 1)
    push token

def flowComma : Step Unit := do
  allowKey true
  dropKey
  read (Reader.skip 1)
  push .comma

def openBlock (token : Token) : Step Unit := do
  if !(← inFlow) then
    if !(← get).keyAllowed then refuse
    else if ← indentTo (← cursor).column then push token

def blockEntry : Step Unit := do
  openBlock .blockSequence
  allowKey true
  dropKey
  read (Reader.skip 1)
  push .entry

def explicitKey : Step Unit := do
  openBlock .blockMapping
  allowKey !(← inFlow)
  dropKey
  read (Reader.skip 1)
  push .key

def colon : Step Unit := do
  let l ← get
  match l.keys.find? fun k => k.level = l.level with
  | some key =>
    set { l with keys := l.keys.filter fun k => k.level ≠ l.level }
    insertAt key.position .key
    if l.level = 0 then
      if ← indentTo key.column then insertAt key.position .blockMapping
    allowKey false
  | none =>
    openBlock .blockMapping
    allowKey !(← inFlow)
    dropKey
  read (Reader.skip 1)
  push .value

def anchorEnds (c : Char) : Bool :=
  isSpacing c || "?:,]%@".toList.contains c || c = '\x7d' || c.toNat = 0x60

def anchorName (token : String → Token) : Step Unit := do
  saveKey
  allowKey false
  read (Reader.skip 1)
  let name ← read (Reader.takeWhile isWordChar)
  if name.isEmpty then refuse
  else if !anchorEnds (← read (Reader.peek 0)) then refuse
  else push (token (String.ofList name))

/-- Whether an exclamation mark comes before the next space. -/
def hasHandle (cs : List Char) : Bool :=
  (cs.takeWhile fun c => !(c = ' ' || isBreakOrEnd c)).contains '!'

def tagText : Step Token := do
  let next ← read (Reader.peek 1)
  if next = '<' then
    read (Reader.skip 2)
    let rest ← someUri
    if (← read (Reader.peek 0)) ≠ '>' then refuse
    else
      read (Reader.skip 1)
      return .tag none rest
  else if isSpacing next then
    read (Reader.skip 1)
    return .tag none "!"
  else if hasHandle ((← cursor).rest.drop 1) then
    let handle ← tagHandle
    return .tag (some handle) (← someUri)
  else
    read (Reader.skip 1)
    return .tag (some "!") (← someUri)

def tag : Step Unit := do
  saveKey
  allowKey false
  let token ← tagText
  needGap
  push token

/-! ## Scalars -/

def blockScalar (folded : Bool) : Step Unit := do
  allowKey true
  dropKey
  push (.scalar (← read (Scalar.block folded (← get).indent)) false)

def quotedScalar (double : Bool) : Step Unit := do
  saveKey
  allowKey false
  push (.scalar (← read (Scalar.quoted double)) false)

def plainScalar : Step Unit := do
  saveKey
  allowKey false
  let l ← get
  let (text, allowed) ← read (Scalar.plain (0 < l.level) (l.indent + 1))
  allowKey allowed
  push (.scalar text true)

def startsPlain (inFlow : Bool) (c after : Char) : Bool :=
  let mark := isSpacing c || "-?:,[]#&*!|>'\"%@".toList.contains c || c = '\x7b' || c = '\x7d'
    || c.toNat = 0x60
  !mark || (!isSpacing after && (c = '-' || (!inFlow && (c = '?' || c = ':'))))

/-! ## The text -/

def skipToToken : (fuel : Nat) → Step Unit
  | 0 => refuse
  | fuel + 1 => do
    read (Reader.skipWhile (· = ' '))
    if (← read (Reader.peek 0)) = '#' then read (Reader.skipWhile fun c => !isBreak c)
    if isBreak (← read (Reader.peek 0)) then
      let _ ← read Reader.lineBreak
      if !(← inFlow) then allowKey true
      skipToToken fuel

/-- Ends the blocks that are open, and the text. -/
def close : Step Unit := do
  unwind (-1)
  dropKey
  modify fun l => { l with keys := [], ended := true }

/-- The next token, chosen by the characters ahead. -/
def fetch : Step Unit := do
  if (← cursor).index = 0 && (← read (Reader.peek 0)).toNat = 0xfeff then read (Reader.skip 1)
  skipToToken (← read Reader.bound)
  dropStaleKeys
  let c ← cursor
  unwind c.column
  let flow ← inFlow
  let first ← read (Reader.peek 0)
  if isEnd first then close
  else
    let after ← read (Reader.peek 1)
    let alone := isSpacing after
    let marked ← (do
      if c.column = 0 && (first = '-' || first = '.') then read (Reader.atMark first)
      else return false)
    if first = '%' && c.column = 0 then directive
    else if marked then documentMark (if first = '-' then .documentStart else .documentEnd)
    else if first = '[' then openFlow .flowSequence
    else if first = '\x7b' then openFlow .flowMapping
    else if first = ']' then closeFlow .flowSequenceEnd
    else if first = '\x7d' then closeFlow .flowMappingEnd
    else if first = ',' then flowComma
    else if first = '-' && alone then blockEntry
    else if first = '?' && (flow || alone) then explicitKey
    else if first = ':' && (flow || alone) then colon
    else if first = '*' then anchorName .alias
    else if first = '&' then anchorName .anchor
    else if first = '!' then tag
    else if first = '|' && !flow then blockScalar false
    else if first = '>' && !flow then blockScalar true
    else if first = '\'' then quotedScalar false
    else if first = '"' then quotedScalar true
    else if startsPlain flow first after then plainScalar
    else refuse

/-! ## Taking tokens -/

def isShort : Step Bool := do
  let l ← get
  if l.ended then return false
  else if l.waiting.isEmpty then return true
  else
    dropStaleKeys
    return (← get).keys.any fun k => k.position = l.taken

def fill : (fuel : Nat) → Step Unit
  | 0 => refuse
  | fuel + 1 => do
    if ← isShort then
      fetch
      fill fuel

/-- The next token; there is none at the end. -/
def peek : Step (Option Token) := do
  fill ((← read Reader.bound) + 1)
  return (← get).waiting.head?

/-- Takes the token that was looked at. -/
def take : Step Unit :=
  modify fun l => { l with waiting := l.waiting.tail, taken := l.taken + 1 }

end Lexer

end PubSub.Yaml
