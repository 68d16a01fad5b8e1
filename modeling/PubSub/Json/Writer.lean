import PubSub.Document
import PubSub.Decimal.Shortest
import PubSub.Json.Escape

/-!
# Written documents

Documents on one line: `, ` between items, `: ` after names, all of it ASCII. What
has no written form is written as a null.
-/

namespace PubSub.Json

def joined (separator : List Char) : List (List Char) → List Char
  | [] => []
  | [item] => item
  | item :: rest => item ++ separator ++ joined separator rest

def floatWord (x : Float) : String :=
  if x.isNaN then "NaN"
  else if x.isInf then (if x < 0 then "-Infinity" else "Infinity")
  else Decimal.floatText x

mutual

def write : Document → List Char
  | .null | .bytes _ | .other => "null".toList
  | .bool true => "true".toList
  | .bool false => "false".toList
  | .int n => Decimal.signed n
  | .float x => (floatWord x).toList
  | .text s => quoted s
  | .ragged points => quotedPoints points
  | .list items => '[' :: joined [',', ' '] (writeItems items) ++ [']']
  | .map entries => '{' :: joined [',', ' '] (writeEntries entries) ++ ['}']

def writeItems : List Document → List (List Char)
  | [] => []
  | item :: rest => write item :: writeItems rest

def writeEntries : List (Document × Document) → List (List Char)
  | [] => []
  | (key, value) :: rest => (write key ++ [':', ' '] ++ write value) :: writeEntries rest

end

def text (d : Document) : String := String.ofList (write d)

end PubSub.Json
