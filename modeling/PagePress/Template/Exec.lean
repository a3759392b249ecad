import PagePress.Template.Builtin
import PagePress.Template.Options
import PagePress.Template.Sink

namespace PagePress.Template

inductive ExecFault where
  | notFunction
  | noOperands (builtin : Builtin)
  | call (builtin : Builtin) (fault : CallFault)
  | undefinedVariable (name : String)
  | noEntry (key : String)
  | nilData (key : String)
  | noField (key type : String)
  | notIterable (value : List Char)

def ExecFault.message : ExecFault → String
  | .notFunction => "can't give argument to non-function"
  | .noOperands builtin => (CallFault.tooFew builtin 1 0).message
  | .call builtin fault => "error calling " ++ builtin.name ++ ": " ++ fault.message
  | .undefinedVariable name => "undefined variable: " ++ name
  | .noEntry key => "map has no entry for key " ++ Text.quoted key
  | .nilData key => "nil data; no entry for key " ++ Text.quoted key
  | .noField key type => "can't evaluate field " ++ key ++ " in type " ++ type
  | .notIterable value => "range can't iterate over " ++ String.ofList value

structure ExecError where
  line : Nat
  fault : ExecFault

abbrev Vars := List (String × Json)

namespace Vars

def get? (vars : Vars) (name : String) : Option Json := (vars.find? (·.1 == name)).map (·.2)

def assign : Vars → String → Json → Vars
  | [], _, _ => []
  | (n, v) :: rest, name, value =>
    if n = name then (n, value) :: rest else (n, v) :: assign rest name value

def bind (vars : Vars) (assigns : Bool) (name : String) (value : Json) : Vars :=
  if assigns then vars.assign name value else (name, value) :: vars

def leave (vars : Vars) (size : Nat) : Vars := vars.drop (vars.length - size)

end Vars

abbrev Eval (α : Type) := StateT Vars (Except (Halt ExecError)) α

def refuse {α : Type} (line : Nat) (fault : ExecFault) : Eval α := throw (.fault ⟨line, fault⟩)

def fieldOf (policy : MissingKey) (value : Json) (key : String) : Except ExecFault Json :=
  match value with
  | .obj fields =>
    match Fields.get? fields key with
    | some found => .ok found
    | none => if policy = .error then .error (.noEntry key) else .ok .null
  | .null => if policy = .error then .error (.nilData key) else .ok .null
  | other => .error (.noField key (typeName other))

def walkFields (policy : MissingKey) (line : Nat) (value : Json) (path : List String) : Eval Json :=
  match path.foldlM (fieldOf policy) value with
  | .ok found => pure found
  | .error fault => refuse line fault

def callBuiltin (line : Nat) (builtin : Builtin) (args : List Json) : Eval Json :=
  match builtin.call args with
  | .ok value => pure value
  | .error stop => throw (stop.map fun fault => ⟨line, .call builtin fault⟩)

-- The truth of an operand that decides, for a function that need not look at all of them.
def deciding? : Builtin → Option Bool
  | .and => some false
  | .or => some true
  | _ => none

mutual
def evalOperand (policy : MissingKey) (dot : Json) (line : Nat) : Operand → Eval Json
  | .dot => pure dot
  | .literal value => pure value
  | .field path => walkFields policy line dot path
  | .var name path => do
    match (← get).get? name with
    | some value => walkFields policy line value path
    | none => refuse line (.undefinedVariable name)
  | .chain inner path => do
    let value ← evalOperand policy dot line inner
    walkFields policy line value path
  | .group pipe => evalPipeline policy dot pipe
  | .function builtin => callBuiltin line builtin []

def evalOperands (policy : MissingKey) (dot : Json) (line : Nat) : List Operand → Eval (List Json)
  | [] => pure []
  | operand :: rest => do
    let value ← evalOperand policy dot line operand
    let values ← evalOperands policy dot line rest
    pure (value :: values)

def evalUntil (policy : MissingKey) (dot : Json) (line : Nat) (decides : Bool) (last : Json) :
    List Operand → Eval (Bool × Json)
  | [] => pure (false, last)
  | operand :: rest => do
    let value ← evalOperand policy dot line operand
    if truth value = decides then pure (true, value)
    else evalUntil policy dot line decides value rest

def evalCommand (policy : MissingKey) (dot : Json) (piped : Option Json) : Command → Eval Json
  | .mk line (.function builtin :: rest) =>
    match deciding? builtin with
    | some decides =>
      if rest.isEmpty ∧ piped.isNone then refuse line (.noOperands builtin)
      else do
        let (decided, value) ← evalUntil policy dot line decides .null rest
        pure (if decided then value else piped.getD value)
    | none => do
      let values ← evalOperands policy dot line rest
      callBuiltin line builtin (values ++ piped.toList)
  | .mk line [operand] =>
    if piped.isSome then refuse line .notFunction else evalOperand policy dot line operand
  | .mk line _ => refuse line .notFunction

def evalCommands (policy : MissingKey) (dot : Json) (piped : Option Json) :
    List Command → Eval Json
  | [] => pure (piped.getD .null)
  | command :: rest => do
    let value ← evalCommand policy dot piped command
    evalCommands policy dot (some value) rest

def evalPipeline (policy : MissingKey) (dot : Json) : Pipeline → Eval Json
  | .mk _ names assigns commands => do
    let value ← evalCommands policy dot none commands
    modify fun vars => names.foldl (·.bind assigns · value) vars
    pure value
end

inductive Failure where
  | exec (stop : Halt ExecError)
  | write (fault : WriteFault)

abbrev Run (α : Type) := StateT Vars (ExceptT Failure (StateM Sink)) α

def evaluate {α : Type} (e : Eval α) : Run α := fun vars =>
  match e vars with
  | .ok result => pure result
  | .error stop => throw (.exec stop)

def emit (piece : Piece) : Run Unit := do
  match ← modifyGetThe Sink fun sink => sink.write piece with
  | .ok () => pure ()
  | .error fault => throw (.write fault)

inductive Flow where
  | normal
  | broken
  | continued
  deriving DecidableEq, Repr

-- What an action prints. Null is the policy's placeholder; the rest is escaped, unless the last
-- function did that.
def printedText (options : Options) (pipe : Pipeline) (value : Json) : List Char :=
  if value.isNull then options.missingKey.placeholder.toList
  else if options.escapeHtml ∧ pipe.lastBuiltin? ≠ some .html then escapeHtml (valueChars value)
  else valueChars value

inductive Items where
  | rows (pairs : List (Json × Json))
  | count (n : Nat)

def indexed (items : List Json) : List (Json × Json) :=
  items.zipIdx.map fun (item, i) => (.ofNat i, item)

def sortedFields (fields : Fields) : List (Json × Json) :=
  (fields.mergeSort fun a b => a.1 ≤ b.1).map fun (key, value) => (.str key, value)

def itemsOf (value : Json) : Except ExecFault Items :=
  match value with
  | .arr items => .ok (.rows (indexed items))
  | .obj fields => .ok (.rows (sortedFields fields))
  | .null => .ok (.rows [])
  | .num n =>
    match n.signed? with
    | some i => .ok (.count i.toNat)
    | none => .error (.notIterable n.jsonText)
  | other => .error (.notIterable (valueChars other))

def Items.isEmpty : Items → Bool
  | .rows pairs => pairs.isEmpty
  | .count n => n == 0

def bindItem (names : List String) (assigns : Bool) (key element : Json) (vars : Vars) : Vars :=
  match names with
  | [name] => vars.bind assigns name element
  | [first, second] => (vars.bind assigns first key).bind assigns second element
  | _ => vars

def overRows (body : Json → Json → Run Flow) : List (Json × Json) → Run Unit
  | [] => pure ()
  | (key, element) :: rest => do
    let flow ← body key element
    if flow = .broken then pure () else overRows body rest

def overCount (body : Json → Json → Run Flow) (i : Nat) : Nat → Run Unit
  | 0 => pure ()
  | left + 1 => do
    let flow ← body (.ofNat i) (.ofNat i)
    if flow = .broken then pure () else overCount body (i + 1) left

def Items.forEach (items : Items) (body : Json → Json → Run Flow) : Run Unit :=
  match items with
  | .rows pairs => overRows body pairs
  | .count n => overCount body 0 n

def enclosed {α : Type} (body : Run α) : Run α := do
  let size := (← get).length
  let result ← body
  modify (·.leave size)
  pure result

mutual
def runNode (options : Options) (dot : Json) : Node → Run Flow
  | .text bytes => do
    emit (.text bytes)
    pure .normal
  | .action pipe => do
    let value ← evaluate (evalPipeline options.missingKey dot pipe)
    if pipe.names.isEmpty then
      emit (.printed (Text.utf8Chars (printedText options pipe value)))
    pure .normal
  | .branch .rangeBranch line pipe body otherwise => enclosed do
    let size := (← get).length
    let value ← evaluate (evalCommands options.missingKey dot none pipe.commands)
    match itemsOf value with
    | .error fault => throw (.exec (.fault ⟨line, fault⟩))
    | .ok items =>
      if items.isEmpty then runOtherwise options dot otherwise
      else do
        items.forEach fun key element => do
          modify (bindItem pipe.names pipe.assigns key element)
          let flow ← runNodes options element body
          modify (·.leave size)
          pure flow
        pure .normal
  | .branch kind _ pipe body otherwise => enclosed do
    let value ← evaluate (evalPipeline options.missingKey dot pipe)
    if truth value then
      runNodes options (if kind = .withBranch then value else dot) body
    else runOtherwise options dot otherwise
  | .breakRange => pure .broken
  | .continueRange => pure .continued

def runNodes (options : Options) (dot : Json) : List Node → Run Flow
  | [] => pure .normal
  | node :: rest => do
    let flow ← runNode options dot node
    if flow = .normal then runNodes options dot rest else pure flow

def runOtherwise (options : Options) (dot : Json) : Option (List Node) → Run Flow
  | some nodes => runNodes options dot nodes
  | none => pure .normal
end

def runTree (options : Options) (values : Json) (nodes : List Node) (sink : Sink) :
    Except Failure Unit × Sink :=
  match (runNodes options values nodes [("$", values)]).run sink with
  | (.ok _, sink) => (sink.flush.mapError .write, sink)
  | (.error failure, sink) => (.error failure, sink)

end PagePress.Template
