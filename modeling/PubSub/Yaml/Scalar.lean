import PubSub.Json.Escape
import PubSub.Yaml.Cursor

/-!
# Scalars

The texts of single values: in quotes, plain, or as an indented block. A line
end inside the first two counts as a space, an empty line as a line end.
-/

namespace PubSub.Yaml.Scalar

open Reader
open Text (Point)

def fold (lineEnd breaks : List Char) : List Char :=
  (if lineEnd ≠ ['\n'] then lineEnd else if breaks.isEmpty then [' '] else []) ++ breaks

/-! ## Quoted -/

/-- Empty lines inside quotes. A document mark there refuses the text. -/
def quotedBreaks : (fuel : Nat) → Reader (List Char)
  | 0 => refuse
  | fuel + 1 => do
    if ← atDocumentMark then refuse
    else
      skipWhile fun c => c = ' ' || c = '\t'
      if isBreak (← peek 0) then
        let lineEnd ← lineBreak
        return lineEnd ++ (← quotedBreaks fuel)
      else
        return []

def quotedSpaces (fuel : Nat) : Reader (List Char) := do
  let spaces ← takeWhile fun c => c = ' ' || c = '\t'
  let c ← peek 0
  if isEnd c then refuse
  else if isBreak c then
    let lineEnd ← lineBreak
    return fold lineEnd (← quotedBreaks fuel)
  else
    return spaces

def escapes : List (Char × Nat) :=
  [('0', 0), ('a', 7), ('b', 8), ('t', 9), ('\t', 9), ('n', 10), ('v', 11), ('f', 12), ('r', 13),
    ('e', 27), (' ', 32), ('"', 34), ('\\', 92), ('/', 47), ('N', 0x85), ('_', 0xa0),
    ('L', 0x2028), ('P', 0x2029)]

/-- The letters after a backslash that a number follows, and the count of its digits. -/
def numbered : List (Char × Nat) := [('x', 2), ('u', 4), ('U', 8)]

def hexNumber (digits : Nat) : Reader Nat := do
  need digits
  match ((← cursor).rest.take digits).mapM Json.hexValue? with
  | some ds => if ds.length = digits then return ds.foldl (fun n d => 16 * n + d) 0 else refuse
  | none => refuse

def charPoints (cs : List Char) : List Point := cs.map .char

def escape (fuel : Nat) : Reader (List Point) := do
  skip 1
  let c ← peek 0
  match escapes.lookup c, numbered.lookup c with
  | some code, _ =>
    skip 1
    return [.ofCode code]
  | none, some digits =>
    skip 1
    let code ← hexNumber digits
    if 0x10ffff < code then fail (.noCharacter code)
    else
      skip digits
      return [.ofCode code]
  | none, none =>
    if isBreak c then
      let _ ← lineBreak
      return charPoints (← quotedBreaks fuel)
    else refuse

def isQuotedPlain (c : Char) : Bool := !(c = '\'' || c = '"' || c = '\\' || isSpacing c)

/-- What stands inside quotes up to spaces or the closing quote. Halves of pairs that are written
one after the other stay halves. -/
def quotedText (double : Bool) : (fuel : Nat) → Reader (List Point)
  | 0 => refuse
  | fuel + 1 => do
    let text := charPoints (← takeWhile isQuotedPlain)
    let c ← peek 0
    if !double && c = '\'' && (← peek 1) = '\'' then
      skip 2
      return text ++ .char c :: (← quotedText double fuel)
    else if (double && c = '\'') || (!double && (c = '"' || c = '\\')) then
      skip 1
      return text ++ .char c :: (← quotedText double fuel)
    else if double && c = '\\' then
      let escaped ← escape fuel
      return text ++ escaped ++ (← quotedText double fuel)
    else
      return text

def quotedRest (double : Bool) : (fuel : Nat) → Reader (List Point)
  | 0 => refuse
  | fuel + 1 => do
    if (← peek 0) = (if double then '"' else '\'') then return []
    else
      let spaces ← quotedSpaces fuel
      let text ← quotedText double fuel
      return charPoints spaces ++ text ++ (← quotedRest double fuel)

def quoted (double : Bool) : Reader (List Point) := do
  skip 1
  let fuel ← bound
  let first ← quotedText double fuel
  let rest ← quotedRest double fuel
  skip 1
  return first ++ rest

/-! ## Plain -/

def isFlowMark (c : Char) : Bool := c = ',' || c = '[' || c = ']' || c = '\x7b' || c = '\x7d'

/-- How many characters of a plain text come before something that ends it. A colon ends it if it
can end a name. -/
def plainLength (inFlow : Bool) : List Char → Nat
  | [] => 0
  | c :: rest =>
    let after := rest.headD '\x00'
    let endsName := c = ':' && (isSpacing after || (inFlow && isFlowMark after))
    if isSpacing c || endsName || (inFlow && (c = '?' || isFlowMark c)) then 0
    else plainLength inFlow rest + 1

/-- Empty lines in a plain text, and whether a document mark ended them. -/
def plainBreaks : (fuel : Nat) → Reader (List Char × Bool)
  | 0 => refuse
  | fuel + 1 => do
    let c ← peek 0
    if c = ' ' then
      skip 1
      plainBreaks fuel
    else if isBreak c then
      let lineEnd ← lineBreak
      if ← atDocumentMark then return (lineEnd, true)
      else
        let (breaks, marked) ← plainBreaks fuel
        return (lineEnd ++ breaks, marked)
    else
      return ([], false)

/-- Spaces after a plain text, a line end folded, and whether there was a line end. -/
def plainSpaces (fuel : Nat) : Reader (List Char × Bool) := do
  let spaces ← takeWhile (· = ' ')
  if isBreak (← peek 0) then
    let lineEnd ← lineBreak
    if ← atDocumentMark then return ([], true)
    else
      let (breaks, marked) ← plainBreaks fuel
      return (if marked then [] else fold lineEnd breaks, true)
  else
    return (spaces, false)

/-- The words of a plain text, each with the spaces before it. The answer also says whether a line
end came last. -/
def plainWords (inFlow : Bool) (indent : Int) :
    (fuel : Nat) → (spaces : List Char) → (broken : Bool) → Reader (List Char × Bool)
  | 0, _, _ => refuse
  | fuel + 1, spaces, broken => do
    if (← peek 0) = '#' then return ([], broken)
    else
      let word ← takeFound (plainLength inFlow)
      if (← peek 0) = ':' then need 2
      if word.isEmpty then return ([], broken)
      else
        let (after, broken) ← plainSpaces fuel
        let c ← peek 0
        let column ← column
        if after.isEmpty || c = '#' || (!inFlow && (column : Int) < indent) then
          return (spaces ++ word, broken)
        else
          let (more, broken) ← plainWords inFlow indent fuel after broken
          return (spaces ++ word ++ more, broken)

/-- A plain text, and whether a new name may begin after it. -/
def plain (inFlow : Bool) (indent : Int) : Reader (List Point × Bool) := do
  let (text, broken) ← plainWords inFlow indent (← bound) [] false
  return (charPoints text, broken)

/-! ## Blocks -/

inductive Chomping where
  | strip
  | clip
  | keep
  deriving DecidableEq

def chomping? (c : Char) : Option Chomping :=
  if c = '+' then some .keep else if c = '-' then some .strip else none

/-- The indentation a digit asks for; a zero refuses the text. -/
def increment? : Reader (Option Nat) := do
  let c ← peek 0
  if '0' ≤ c && c ≤ '9' then
    skip 1
    if c = '0' then refuse else return some (c.toNat - 48)
  else
    return none

/-- The marks after the sign of a block, in either order. -/
def blockHeader : Reader (Chomping × Option Nat) := do
  match chomping? (← peek 0) with
  | some chomping =>
    skip 1
    return (chomping, ← increment?)
  | none =>
    let increment ← increment?
    match increment, chomping? (← peek 0) with
    | some _, some chomping =>
      skip 1
      return (chomping, increment)
    | _, _ => return (.clip, increment)

def ignoredLine : Reader Unit := do
  skipWhile (· = ' ')
  if (← peek 0) = '#' then skipWhile fun c => !isBreak c
  if isBreakOrEnd (← peek 0) then
    let _ ← lineBreak
  else refuse

/-- Empty lines before a block, and the widest indentation among them. -/
def leadingLines : (fuel : Nat) → (widest : Nat) → Reader (List Char × Nat)
  | 0, _ => refuse
  | fuel + 1, widest => do
    let c ← peek 0
    if c = ' ' then
      skip 1
      leadingLines fuel (max widest (← column))
    else if isBreak c then
      let lineEnd ← lineBreak
      let (breaks, widest) ← leadingLines fuel widest
      return (lineEnd ++ breaks, widest)
    else
      return ([], widest)

def indentation (indent : Nat) : Reader Unit := do
  let c ← cursor
  let spaces := (c.rest.takeWhile (· = ' ')).length
  skip (min spaces (indent - c.column))

def blockBreaks (indent : Nat) : (fuel : Nat) → Reader (List Char)
  | 0 => refuse
  | fuel + 1 => do
    indentation indent
    if isBreak (← peek 0) then
      let lineEnd ← lineBreak
      return lineEnd ++ (← blockBreaks indent fuel)
    else
      return []

/-- The lines of a block; the answer also holds the last line end and the empty lines after it. -/
def blockLines (folded : Bool) (indent : Nat) :
    (fuel : Nat) → (breaks : List Char) → Reader (List Char × List Char × List Char)
  | 0, _ => refuse
  | fuel + 1, breaks => do
    if (← column) = indent && !isEnd (← peek 0) then
      let isText (c : Char) : Bool := !(c = ' ' || c = '\t')
      let startsText := isText (← peek 0)
      let line ← takeWhile fun c => !isBreak c
      let lineEnd ← lineBreak
      let after ← blockBreaks indent fuel
      let c ← peek 0
      if (← column) = indent && !isEnd c then
        let between :=
          if folded && lineEnd = ['\n'] && startsText && isText c then
            if after.isEmpty then [' '] else []
          else lineEnd
        let (more, last, rest) ← blockLines folded indent fuel after
        return (breaks ++ line ++ between ++ more, last, rest)
      else
        return (breaks ++ line, lineEnd, after)
    else
      return ([], [], breaks)

def block (folded : Bool) (indent : Int) : Reader (List Point) := do
  skip 1
  let (chomping, increment) ← blockHeader
  if !((← peek 0) = ' ' || isBreakOrEnd (← peek 0)) then refuse
  ignoredLine
  let fuel ← bound
  let least : Nat := max 1 (indent + 1).toNat
  let (breaks, column) ← do
    match increment with
    | none =>
      let (breaks, widest) ← leadingLines fuel 0
      pure (breaks, max least widest)
    | some n =>
      let column := least + n - 1
      pure (← blockBreaks column fuel, column)
  let (text, last, rest) ← blockLines folded column fuel breaks
  let ending :=
    match chomping with
    | .strip => []
    | .clip => last
    | .keep => last ++ rest
  return charPoints (text ++ ending)

end PubSub.Yaml.Scalar
