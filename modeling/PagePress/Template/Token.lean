import PagePress.Text.Quoted
import PagePress.Text.Utf8

namespace PagePress.Template

inductive Lexeme where
  | text (bytes : Bytes)
  | openAction
  | closeAction
  -- The name behind the dot.
  | field (name : String)
  -- With its dollar sign.
  | var (name : String)
  | dot
  | word (name : String)
  | str (value : String)
  | number (literal : String)
  | char (value : Char)
  | pipe
  | leftParen
  | rightParen
  | comma
  | declare
  | assign
  deriving DecidableEq, Repr

structure Token where
  lexeme : Lexeme
  -- Where the token ends.
  line : Nat
  -- Blanks stand before it.
  spaced : Bool
  deriving DecidableEq, Repr

def Lexeme.describe : Lexeme → String
  | .text _ => "text"
  | .openAction => "\"\x7b\x7b\""
  | .closeAction => "\"\x7d\x7d\""
  | .field name => "<." ++ name ++ ">"
  | .var name => "<" ++ name ++ ">"
  | .dot => "<.>"
  | .word name => "<" ++ name ++ ">"
  | .str value => Text.quoted value
  | .number literal => "<" ++ literal ++ ">"
  | .char value => Text.quotedChar value
  | .pipe => "\"|\""
  | .leftParen => "\"(\""
  | .rightParen => "\")\""
  | .comma => "\",\""
  | .declare => "\":=\""
  | .assign => "\"=\""

def describe? : Option Lexeme → String
  | some lexeme => lexeme.describe
  | none => "EOF"

end PagePress.Template
