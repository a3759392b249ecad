import PagePress.Template.Token

namespace PagePress.Template

-- Nesting of control structures and parentheses, counted together.
def maxDepth : Nat := 100

inductive LexFault where
  | unclosedAction
  | invalidUtf8
  | unclosedComment
  | commentGoesOn
  | loneColon
  | unclosedRaw
  | unclosedQuote
  | unknownEscape (c : Char)
  | badChar
  | unclosedChar
  | badNumber (literal : String)
  | unexpected (c : Char)
  deriving DecidableEq, Repr

def LexFault.message : LexFault → String
  | .unclosedAction => "unclosed action"
  | .invalidUtf8 => "invalid UTF-8 in action"
  | .unclosedComment => "unclosed comment"
  | .commentGoesOn => "comment ends before closing delimiter"
  | .loneColon => "expected :="
  | .unclosedRaw => "unterminated raw quoted string"
  | .unclosedQuote => "unterminated quoted string"
  | .unknownEscape c => "unknown escape sequence \\" ++ String.singleton c
  | .badChar => "bad character constant"
  | .unclosedChar => "unterminated character constant"
  | .badNumber literal => "bad number syntax: " ++ Text.quoted literal
  | .unexpected c => "unexpected " ++ Text.quotedChar c ++ " in command"

inductive Place where
  | command
  | ifHeader
  | rangeHeader
  | withHeader
  | parentheses
  | endMark
  | elseMark
  | breakMark
  | continueMark
  deriving DecidableEq, Repr

def Place.name : Place → String
  | .command => "command"
  | .ifHeader => "if"
  | .rangeHeader => "range"
  | .withHeader => "with"
  | .parentheses => "parenthesized pipeline"
  | .endMark => "end"
  | .elseMark => "else"
  | .breakMark => "break"
  | .continueMark => "continue"

inductive ParseFault where
  | tooDeep
  | unexpected (found : Lexeme)
  | unexpectedIn (found : Option Lexeme) (place : Place)
  | unexpectedOperand (found : Option Lexeme)
  | strayEnd
  | strayElse
  | unfinished
  | outsideRange (place : Place)
  | unsupported (word : String)
  | secondElse (place : Place)
  | missingCommand (place : Place)
  | missingValue (place : Place)
  | rangeNeedsVariables
  | rangeNeedsAssign
  | tooManyDeclarations
  | undefinedVariable (name : String)
  | undefinedFunction (name : String)
  | emptyCommand
  | nilCommand
  | fieldAfterTerm
  | badNumber (literal : String)
  deriving DecidableEq, Repr

def braced (word : String) : String := "\x7b\x7b" ++ word ++ "\x7d\x7d"

def ParseFault.message : ParseFault → String
  | .tooDeep => "exceeded maximum template depth (" ++ toString maxDepth ++ ")"
  | .unexpected found => "unexpected " ++ found.describe
  | .unexpectedIn found place => "unexpected " ++ describe? found ++ " in " ++ place.name
  | .unexpectedOperand found => "unexpected " ++ describe? found ++ " in operand"
  | .strayEnd => "unexpected " ++ braced "end"
  | .strayElse => "unexpected " ++ braced "else"
  | .unfinished => "unexpected EOF"
  | .outsideRange place => braced place.name ++ " outside " ++ braced "range"
  | .unsupported word => "unsupported action " ++ Text.quoted word
  | .secondElse place => "expected end; found " ++ braced "else" ++ " in " ++ place.name
  | .missingCommand place => "missing command after | in " ++ place.name
  | .missingValue place => "missing value for " ++ place.name
  | .rangeNeedsVariables => "range can only initialize variables"
  | .rangeNeedsAssign => "expected := or = after range variables"
  | .tooManyDeclarations => "too many declarations in command"
  | .undefinedVariable name => "undefined variable " ++ Text.quoted name
  | .undefinedFunction name => "function " ++ Text.quoted name ++ " not defined"
  | .emptyCommand => "empty command"
  | .nilCommand => "nil is not a command"
  | .fieldAfterTerm => "unexpected . after term"
  | .badNumber literal => "illegal number syntax: " ++ Text.quoted literal

structure LexError where
  line : Nat
  fault : LexFault
  deriving DecidableEq, Repr

structure ParseError where
  line : Nat
  fault : ParseFault
  deriving DecidableEq, Repr

end PagePress.Template
