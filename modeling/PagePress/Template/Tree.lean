import PagePress.Json.Value
import PagePress.Text.Utf8

namespace PagePress.Template

inductive Builtin where
  | and
  | or
  | not
  | len
  | index
  | print
  | println
  | printf
  | eq
  | ne
  | lt
  | le
  | gt
  | ge
  | html
  | js
  | urlquery
  deriving DecidableEq, Repr

namespace Builtin

def name : Builtin → String
  | .and => "and"
  | .or => "or"
  | .not => "not"
  | .len => "len"
  | .index => "index"
  | .print => "print"
  | .println => "println"
  | .printf => "printf"
  | .eq => "eq"
  | .ne => "ne"
  | .lt => "lt"
  | .le => "le"
  | .gt => "gt"
  | .ge => "ge"
  | .html => "html"
  | .js => "js"
  | .urlquery => "urlquery"

def all : List Builtin :=
  [.and, .or, .not, .len, .index, .print, .println, .printf, .eq, .ne, .lt, .le, .gt, .ge,
    .html, .js, .urlquery]

def ofName? (name : String) : Option Builtin := all.find? (·.name == name)

end Builtin

mutual
inductive Operand where
  | dot
  | field (path : List String)
  -- With its dollar sign.
  | var (name : String) (path : List String)
  | chain (inner : Operand) (path : List String)
  | group (pipe : Pipeline)
  | function (builtin : Builtin)
  | literal (value : Json)

inductive Command where
  | mk (line : Nat) (operands : List Operand)

-- Each command gets the value of the one before it; the names are declared, or assigned, the last.
inductive Pipeline where
  | mk (line : Nat) (names : List String) (assigns : Bool) (commands : List Command)
end

namespace Command

def line : Command → Nat
  | .mk line _ => line

def operands : Command → List Operand
  | .mk _ operands => operands

def builtin? (command : Command) : Option Builtin :=
  match command.operands with
  | .function builtin :: _ => some builtin
  | _ => none

end Command

namespace Pipeline

def line : Pipeline → Nat
  | .mk line _ _ _ => line

def names : Pipeline → List String
  | .mk _ names _ _ => names

def assigns : Pipeline → Bool
  | .mk _ _ assigns _ => assigns

def commands : Pipeline → List Command
  | .mk _ _ _ commands => commands

def lastBuiltin? (pipe : Pipeline) : Option Builtin := pipe.commands.getLast?.bind Command.builtin?

end Pipeline

inductive BranchKind where
  | ifBranch
  | rangeBranch
  | withBranch
  deriving DecidableEq, Repr

inductive Node where
  | text (bytes : Bytes)
  -- Prints its value unless it names variables.
  | action (pipe : Pipeline)
  | branch (kind : BranchKind) (line : Nat) (pipe : Pipeline) (body : List Node)
      (otherwise : Option (List Node))
  | breakRange
  | continueRange

end PagePress.Template
