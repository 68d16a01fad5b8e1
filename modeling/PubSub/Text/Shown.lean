import PubSub.Text.Hidden
import PubSub.Text.Point

/-!
# Shown text

How a message shows a text: in quotes, with escapes for what does not print and
for halves of pairs. Single quotes are used unless the text holds one and no
double quote.
-/

namespace PubSub.Text

def hexDigits : (width : Nat) → (n : Nat) → List Char
  | 0, _ => []
  | width + 1, n =>
    let d := n % 16
    hexDigits width (n / 16) ++ [Char.ofNat (if d < 10 then 48 + d else 87 + d)]

def showChar (quote c : Char) : List Char :=
  if c = quote || c = '\\' then ['\\', c]
  else if c = '\n' then ['\\', 'n']
  else if c = '\r' then ['\\', 'r']
  else if c = '\t' then ['\\', 't']
  else if prints c then [c]
  else if c.toNat < 0x100 then '\\' :: 'x' :: hexDigits 2 c.toNat
  else if c.toNat < 0x10000 then '\\' :: 'u' :: hexDigits 4 c.toNat
  else '\\' :: 'U' :: hexDigits 8 c.toNat

def showPoint (quote : Char) : Point → List Char
  | .char c => showChar quote c
  | p => '\\' :: 'u' :: hexDigits 4 p.code

def quoteOf (ps : List Point) : Char :=
  if ps.contains (.char '\'') && !ps.contains (.char '"') then '"' else '\''

def shownPoints (ps : List Point) : String :=
  let quote := quoteOf ps
  String.ofList (quote :: ps.flatMap (showPoint quote) ++ [quote])

def shown (s : String) : String := shownPoints (points s)

/-! ## Unquoted -/

/-- A text as it is, with escapes for halves only. -/
def written (ps : List Point) : String :=
  String.ofList (ps.flatMap fun
    | .char c => [c]
    | p => '\\' :: 'u' :: hexDigits 4 p.code)

end PubSub.Text
