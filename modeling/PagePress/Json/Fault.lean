import PagePress.Text.Utf8

namespace PagePress.Json

inductive Fault where
  | endInValue
  | endInList
  | endInObject
  | endInString
  | expectedColon
  | expectedListEnd
  | expectedObjectEnd
  | expectedWord
  | expectedValue
  | invalidEscape
  | invalidNumber
  | numberOutOfRange
  | invalidCharacter
  | controlCharacter
  | keyNotString
  | loneSurrogate
  | trailingComma
  | trailingCharacters
  | unfinishedEscape
  | tooDeep
  | wrongType (found expected : String)
  | wrongValue (found expected : String)
  | missingField (name : String)
  | repeatedField (name : String)
  | wrongLength (found : Nat) (expected : String)
  deriving DecidableEq, Repr

def Fault.message : Fault → String
  | .endInValue => "EOF while parsing a value"
  | .endInList => "EOF while parsing a list"
  | .endInObject => "EOF while parsing an object"
  | .endInString => "EOF while parsing a string"
  | .expectedColon => "expected `:`"
  | .expectedListEnd => "expected `,` or `]`"
  | .expectedObjectEnd => "expected `,` or `\x7d`"
  | .expectedWord => "expected ident"
  | .expectedValue => "expected value"
  | .invalidEscape => "invalid escape"
  | .invalidNumber => "invalid number"
  | .numberOutOfRange => "number out of range"
  | .invalidCharacter => "invalid unicode code point"
  | .controlCharacter => "control character (\\u0000-\\u001F) found while parsing a string"
  | .keyNotString => "key must be a string"
  | .loneSurrogate => "lone leading surrogate in hex escape"
  | .trailingComma => "trailing comma"
  | .trailingCharacters => "trailing characters"
  | .unfinishedEscape => "unexpected end of hex escape"
  | .tooDeep => "recursion limit exceeded"
  | .wrongType found expected => "invalid type: " ++ found ++ ", expected " ++ expected
  | .wrongValue found expected => "invalid value: " ++ found ++ ", expected " ++ expected
  | .missingField name => "missing field `" ++ name ++ "`"
  | .repeatedField name => "duplicate field `" ++ name ++ "`"
  | .wrongLength found expected => "invalid length " ++ toString found ++ ", expected " ++ expected

structure ReadError where
  fault : Fault
  -- How many bytes at the end were not read yet.
  unread : Nat
  deriving DecidableEq, Repr

-- Found with these bytes still ahead.
def Fault.before (fault : Fault) (rest : Bytes) : ReadError := ⟨fault, rest.length⟩

-- Found by looking at the first of these bytes, if there is one.
def Fault.lookingAt (fault : Fault) (rest : Bytes) : ReadError := ⟨fault, rest.length - 1⟩

def ReadError.message (e : ReadError) (source : Bytes) : String :=
  let done := (source.take (source.length - e.unread)).reverse
  let column := (done.takeWhile (· ≠ 10)).length
  let line := 1 + done.count 10
  e.fault.message ++ " at line " ++ toString line ++ " column " ++ toString column

end PagePress.Json
