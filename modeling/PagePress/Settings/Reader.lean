import PagePress.Settings.Basic
import PagePress.Settings.Variable
import PagePress.Text.Quoted

namespace PagePress

inductive ConfigError where
  | notInteger (key text : String)
  | negative (key : String) (n : Int)
  | tooLarge (key : String) (n bits : Nat)
  -- What is no single value.
  | compound (found key expected : String)
  | notSection (found expected : String)
  | noVariant (enumeration name : String)
  | notVariant (enumeration : String)
  deriving DecidableEq, Repr

def ConfigError.message : ConfigError → String
  | .notInteger key text =>
    "invalid type: string " ++ Text.quoted text ++ ", expected an integer for key `" ++ key ++
      "` in the environment"
  | .negative key n =>
    "invalid type: 64-bit integer `" ++ String.ofList (Numeral.intText n) ++
      "`, expected an unsigned 64 bit or less integer for key `" ++ key ++ "` in the environment"
  | .tooLarge key n bits =>
    "invalid type: 64-bit unsigned integer `" ++ toString n ++ "`, expected an unsigned " ++
      toString bits ++ " bit integer for key `" ++ key ++ "`"
  | .compound found key expected =>
    "invalid type: " ++ found ++ ", expected " ++ expected ++ " for key `" ++ key ++ "`"
  | .notSection found expected => "invalid type: " ++ found ++ ", expected " ++ expected
  | .noVariant enumeration name =>
    "enum " ++ enumeration ++ " does not have variant constructor " ++ name
  | .notVariant enumeration =>
    "value of enum " ++ enumeration ++
      " should be represented by either string or table with exactly one key"

namespace Setting

def floatText : Numeral.Decimal64 → List Char
  | .finite x => Numeral.plain x
  | .infinite negative => (if negative then "-inf" else "inf").toList
  | .nan => "NaN".toList

-- A number among the descriptions always shows a point.
def describe : Setting → String
  | .bool b => "boolean `" ++ toString b ++ "`"
  | .int n => "integer `" ++ String.ofList (Numeral.intText n) ++ "`"
  | .float x =>
    let cs := floatText x
    let whole := match x with
      | .finite _ => !cs.contains '.'
      | _ => false
    "floating point `" ++ String.ofList (if whole then cs ++ ".0".toList else cs) ++ "`"
  | .text s => "string " ++ Text.quoted s
  | .table _ => "map"
  | .list _ => "sequence"
  | .nothing => "unit value"

-- Halves go away from zero, and what does not fit to the nearest end.
def floatNatural (x : Numeral.Decimal64) : Nat :=
  match x with
  | .finite x =>
    if x.negative then 0
    else min (Numeral.roundDiv .up x.numerator x.denominator) (2 ^ 64 - 1)
  | .infinite negative => if negative then 0 else 2 ^ 64 - 1
  | .nan => 0

def natural (key : String) (setting : Setting) : Except ConfigError Nat :=
  match setting with
  | .bool b => .ok b.toNat
  | .int n => if n < 0 then .error (.negative key n) else .ok n.toNat
  | .float x => .ok (floatNatural x)
  | .text s =>
    match lower s with
    | "on" | "yes" => .ok 1
    | "off" | "no" => .ok 0
    | _ => .error (.notInteger key s)
  | other => .error (.compound other.describe key "an integer")

def word (bits : Nat) (key : String) (setting : Setting) : Except ConfigError Nat := do
  let n ← setting.natural key
  if n < 2 ^ bits then .ok n else .error (.tooLarge key n bits)

-- A text that looked like something else is written back.
def string (key : String) (setting : Setting) : Except ConfigError String :=
  match setting with
  | .bool b => .ok (toString b)
  | .int n => .ok (String.ofList (Numeral.intText n))
  | .float x => .ok (String.ofList (floatText x))
  | .text s => .ok s
  | other => .error (.compound other.describe key "a string")

def variant {α : Type} (enumeration : String) (variants : List (String × α)) (setting : Setting) :
    Except ConfigError α :=
  let named (name : String) : Except ConfigError α :=
    match variants.find? (·.1 == lower name) with
    | some (_, value) => .ok value
    | none => .error (.noVariant enumeration name)
  match setting with
  | .text name => named name
  | .table [(name, _)] => named name
  | _ => .error (.notVariant enumeration)

end Setting

structure SettingGroup where
  name : String
  content : Setting

namespace SettingGroup

def ofRoot (root : Setting) (name expected : String) : Except ConfigError SettingGroup :=
  match root.member? name with
  | none => .ok ⟨name, .table []⟩
  | some (.table members) => .ok ⟨name, .table members⟩
  | some (.list items) => .ok ⟨name, .list items⟩
  | some other => .error (.notSection other.describe ("struct " ++ expected))

def field? (group : SettingGroup) (place : Nat) (key : String) : Option (String × Setting) :=
  match group.content with
  | .list items => items[place]?.map (group.name ++ "[" ++ toString place ++ "]", ·)
  | table => (table.member? key).map (group.name ++ "." ++ key, ·)

def readOr {α : Type} (group : SettingGroup) (place : Nat) (key : String) (absent : α)
    (read : String → Setting → Except ConfigError α) : Except ConfigError α :=
  match group.field? place key with
  | some (path, setting) => read path setting
  | none => .ok absent

end SettingGroup

namespace Settings
open Setting

def readServer (root : Setting) : Except ConfigError ServerSettings := do
  let group ← SettingGroup.ofRoot root "server" "ServerConfig"
  let own : ServerSettings := {}
  let host ← group.readOr 0 "host" own.host string
  let port ← group.readOr 1 "port" own.port.toNat (word 16)
  let routeVersion ← group.readOr 2 "route_version" own.routeVersion string
  let most ← group.readOr 3 "max_upload_bytes" own.maxUploadBytes.toNat (word 64)
  .ok ⟨host, UInt16.ofNat port, routeVersion, UInt64.ofNat most⟩

def readStore (root : Setting) : Except ConfigError StoreSettings := do
  let group ← SettingGroup.ofRoot root "store" "StoreConfig"
  let own : StoreSettings := {}
  let backend ← group.readOr 0 "backend" own.backend string
  let keySpace ← group.readOr 1 "key_prefix" own.keySpace string
  let seconds ← group.readOr 2 "default_ttl_seconds" own.ttlSeconds.toNat (word 64)
  .ok ⟨backend, keySpace, UInt64.ofNat seconds⟩

def readRemote (root : Setting) : Except ConfigError RemoteSettings := do
  let group ← SettingGroup.ofRoot root "redis" "RedisConfig"
  let own : RemoteSettings := {}
  let url ← group.readOr 0 "url" own.url string
  let failures ← group.readOr 1 "circuit_breaker_failure_threshold"
    own.failureThreshold.toNat (word 32)
  let successes ← group.readOr 2 "circuit_breaker_success_threshold"
    own.successThreshold.toNat (word 32)
  let seconds ← group.readOr 3 "circuit_breaker_reset_timeout_seconds"
    own.resetSeconds.toNat (word 64)
  .ok ⟨url, UInt32.ofNat failures, UInt32.ofNat successes, UInt64.ofNat seconds⟩

-- A place that nothing fills names no directory.
def optionalString (path : String) : Setting → Except ConfigError (Option String)
  | .nothing => .ok none
  | setting => (string path setting).map some

def readRenderer (root : Setting) : Except ConfigError RendererSettings := do
  let group ← SettingGroup.ofRoot root "renderer" "RendererConfig"
  let own : RendererSettings := {}
  let binary ← group.readOr 0 "binary" own.binary string
  let workDir ← group.readOr 1 "work_dir" own.workDir optionalString
  .ok ⟨binary, workDir⟩

def missingKeyVariants : List (String × Template.MissingKey) :=
  [("empty", .empty), ("no_value", .noValue), ("error", .error)]

def logFormatVariants : List (String × LogFormat) := [("pretty", .pretty), ("json", .json)]

def read (root : Setting) : Except ConfigError Settings := do
  let server ← readServer root
  let store ← readStore root
  let remote ← readRemote root
  let renderer ← readRenderer root
  let template ← SettingGroup.ofRoot root "template" "TemplateConfig"
  let missingKey ← template.readOr 0 "missing_key" .empty fun _ =>
    variant "MissingKey" missingKeyVariants
  let logging ← SettingGroup.ofRoot root "logging" "LoggingConfig"
  let logFormat ← logging.readOr 0 "format" .pretty fun _ =>
    variant "LogFormat" logFormatVariants
  .ok { server, store, remote, renderer, missingKey, logFormat }

def ofEnvironment (environment : List (String × String)) : Except ConfigError Settings :=
  read (Setting.ofEnvironment environment)

end Settings
end PagePress
