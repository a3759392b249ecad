import PagePress.Json.Printer

namespace PagePress.Template
open Numeral

def numberText : Number → List Char
  | .int n _ => intText n
  | .float x => valueText x

mutual
def valueChars : Json → List Char
  | .null => "<nil>".toList
  | .bool true => "true".toList
  | .bool false => "false".toList
  | .num n => numberText n
  | .str s => s.toList
  | .arr items => '[' :: Json.joinWith [' '] (itemTexts items) ++ [']']
  | .obj fields => '{' :: Json.joinWith [' '] (fieldTexts fields) ++ ['}']

def itemTexts : List Json → List (List Char)
  | [] => []
  | item :: rest => valueChars item :: itemTexts rest

def fieldTexts : List (String × Json) → List (List Char)
  | [] => []
  | (_, value) :: rest => valueChars value :: fieldTexts rest
end

def typeName : Json → String
  | .null => "nil"
  | .bool _ => "bool"
  | .num (.float _) => "float64"
  | .num (.int _ _) => "int"
  | .str _ => "string"
  | .arr _ => "slice"
  | .obj _ => "map"

end PagePress.Template
