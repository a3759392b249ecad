import PagePress.Text.Class

namespace PagePress.Text

def escapeFor (delimiter c : Char) : List Char :=
  match c with
  | '\x00' => ['\\', '0']
  | '\t' => ['\\', 't']
  | '\r' => ['\\', 'r']
  | '\n' => ['\\', 'n']
  | '\\' => ['\\', '\\']
  | c =>
    if c = delimiter then ['\\', c]
    else if isPrintable c ∧ !isExtender c then [c]
    else ['\\', 'u', '{'] ++ Nat.toDigits 16 c.toNat ++ ['}']

def quoteChars (delimiter : Char) (cs : List Char) : List Char :=
  delimiter :: cs.flatMap (escapeFor delimiter) ++ [delimiter]

def quoted (s : String) : String := String.ofList (quoteChars '"' s.toList)

def quotedChar (c : Char) : String := String.ofList (quoteChars '\'' [c])

end PagePress.Text
