import PagePress.Json.Value
import PagePress.Numeral.Layout
import PagePress.Text.Utf8

namespace PagePress

open Numeral

def Number.jsonText : Number → List Char
  | .int n _ => intText n
  | .float x => Numeral.jsonText x

namespace Json

def escapeChar (c : Char) : List Char :=
  match c with
  | '"' => ['\\', '"']
  | '\\' => ['\\', '\\']
  | '\x08' => ['\\', 'b']
  | '\x0c' => ['\\', 'f']
  | '\n' => ['\\', 'n']
  | '\r' => ['\\', 'r']
  | '\t' => ['\\', 't']
  | c =>
    if c.toNat < 0x20 then
      ['\\', 'u', '0', '0', Nat.digitChar (c.toNat / 16), Nat.digitChar (c.toNat % 16)]
    else [c]

def stringText (s : String) : List Char := '"' :: s.toList.flatMap escapeChar ++ ['"']

def joinWith (separator : List Char) : List (List Char) → List Char
  | [] => []
  | [part] => part
  | part :: rest => part ++ separator ++ joinWith separator rest

mutual
def chars : Json → List Char
  | .null => ['n', 'u', 'l', 'l']
  | .bool true => ['t', 'r', 'u', 'e']
  | .bool false => ['f', 'a', 'l', 's', 'e']
  | .num n => n.jsonText
  | .str s => stringText s
  | .arr items => '[' :: joinWith [','] (itemChars items) ++ [']']
  | .obj fields => '{' :: joinWith [','] (fieldChars fields) ++ ['}']

def itemChars : List Json → List (List Char)
  | [] => []
  | item :: rest => chars item :: itemChars rest

def fieldChars : List (String × Json) → List (List Char)
  | [] => []
  | (key, value) :: rest => (stringText key ++ ':' :: chars value) :: fieldChars rest
end

def text (v : Json) : String := String.ofList v.chars

def bytes (v : Json) : Bytes := Text.utf8Chars v.chars

end Json
end PagePress
