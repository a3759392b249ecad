import PagePress.Url

namespace PagePress

inductive AddressFault where
  | malformed
  | noHost
  -- Connections are not encrypted.
  | encrypted
  | badDatabase
  | badUser
  | badPassword
  | badProtocol (version : String)
  | noPath
  deriving DecidableEq, Repr

def AddressFault.reason (fault : AddressFault) : String :=
  let because (words : String) : String := words ++ "- InvalidClientConfig"
  match fault with
  | .malformed => because "Redis URL did not parse"
  | .noHost => because "Missing hostname"
  | .encrypted => because "can't connect with TLS, the feature is not enabled"
  | .badDatabase => because "Invalid database number"
  | .badUser => because "Username is not valid UTF-8 string"
  | .badPassword => because "Password is not valid UTF-8 string"
  | .badProtocol version => because "Invalid protocol version " ++ ": " ++ version
  | .noPath => because "Missing path"

inductive Protocol where
  | resp2
  | resp3
  deriving DecidableEq, Repr

inductive Place where
  | host (name : String) (port : Nat)
  | file (path : Bytes)
  deriving DecidableEq, Repr

structure Address where
  place : Place
  database : Int
  user : Option String
  password : Option String
  protocol : Protocol
  deriving DecidableEq, Repr

namespace Address

def defaultPort : Nat := 6379

def readDatabase (text : List Char) : Except AddressFault Int :=
  match Numeral.int64? 10 text with
  | some n => .ok n
  | none => .error .badDatabase

def readProtocol (url : Url) : Except AddressFault Protocol :=
  match url.field? "protocol" with
  | none | some "2" | some "resp2" => .ok .resp2
  | some "3" | some "resp3" => .ok .resp3
  | some other => .error (.badProtocol other)

def readWord (fault : AddressFault) (written : String) : Except AddressFault String :=
  match Text.unescaped? written with
  | some text => .ok text
  | none => .error fault

def ofHost (url : Url) : Except AddressFault Address := do
  if url.host.isEmpty then .error .noHost
  else if url.scheme = "rediss" then .error .encrypted
  else
    let number := Text.trim (· = '/') url.path
    let database ← if number = [] then .ok 0 else readDatabase number
    let user ← readWord .badUser url.user
    let password ← url.password.mapM (readWord .badPassword)
    let protocol ← readProtocol url
    let place := Place.host url.host (url.port.getD defaultPort)
    .ok ⟨place, database, if user.isEmpty then none else some user, password, protocol⟩

-- The path is the file; all else is in the query.
def ofFile (url : Url) : Except AddressFault Address := do
  if (url.host.isEmpty ∨ url.host = "localhost") ∧ url.path.head? = some '/' then
    let database ← match url.field? "db" with
      | some number => readDatabase number.toList
      | none => .ok 0
    let protocol ← readProtocol url
    let place := Place.file (Text.unescape (Text.utf8Chars url.path))
    .ok ⟨place, database, url.field? "user", url.field? "pass", protocol⟩
  else .error .noPath

def read (written : String) : Except AddressFault Address :=
  match Url.read? written with
  | none => .error .malformed
  | some url =>
    match url.scheme with
    | "redis" | "rediss" => ofHost url
    | "unix" | "redis+unix" => ofFile url
    | _ => .error .malformed

end Address
end PagePress
