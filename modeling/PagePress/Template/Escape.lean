import PagePress.Text.Utf8

namespace PagePress.Template
open Text

def upperHex (n : Nat) : Char := (Nat.digitChar n).toUpper

def htmlEscape (c : Char) : List Char :=
  match c with
  | '&' => "&amp;".toList
  | '<' => "&lt;".toList
  | '>' => "&gt;".toList
  | '"' => "&#34;".toList
  | '\'' => "&#39;".toList
  | '+' => "&#43;".toList
  | '\x00' => ['\uFFFD']
  | c => [c]

def escapeHtml (cs : List Char) : List Char := cs.flatMap htmlEscape

def unicodeEscape (n : Nat) : List Char :=
  ['\\', 'u', upperHex (n / 4096 % 16), upperHex (n / 256 % 16), upperHex (n / 16 % 16),
    upperHex (n % 16)]

def jsEscape (c : Char) : List Char :=
  match c with
  | '\\' => ['\\', '\\']
  | '\'' => ['\\', '\'']
  | '"' => ['\\', '"']
  | '<' | '>' | '&' | '=' => unicodeEscape c.toNat
  | c => if c.toNat < 0x20 then unicodeEscape c.toNat else [c]

def escapeJs (cs : List Char) : List Char := cs.flatMap jsEscape

def queryEscape (b : UInt8) : List Char :=
  let c := letter b
  if c.isAlphanum ∨ c ∈ ['-', '_', '.', '~'] then [c]
  else if c = ' ' then ['+']
  else ['%', upperHex (b.toNat / 16), upperHex (b.toNat % 16)]

def escapeQuery (cs : List Char) : List Char := (utf8Chars cs).flatMap queryEscape

end PagePress.Template
