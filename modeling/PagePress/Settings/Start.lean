import PagePress.Json.Printer
import PagePress.Remote.Pool
import PagePress.Settings.Reader

namespace PagePress

inductive AppError where
  | config (error : ConfigError)
  | redis (error : PoolError)
  | io (text : String)
  | internal (text : String)

namespace AppError

def message : AppError → String
  | .config error => "Configuration error: " ++ error.message
  | .redis error => "Redis error: " ++ error.message
  | .io text => "I/O error: " ++ text
  | .internal text => "Internal error: " ++ text

def generic : AppError → String
  | .config _ => "Configuration error"
  | .redis _ => "Service temporarily unavailable"
  | .io _ => "Internal server error"
  | .internal _ => "Internal server error"

def status : Nat := 500

def isProduction (runMode : Option String) : Bool :=
  runMode == some "production" || runMode == some "prod"

def body (runMode : Option String) (error : AppError) : Json :=
  .obj [("status", .ofNat status),
    ("message", .str (if isProduction runMode then error.generic else error.message)),
    ("data", .null)]

end AppError

-- A key server needs a pool; whatever else is named is memory.
inductive StoreBackend where
  | memory
  | redis
  deriving DecidableEq, Repr

namespace StoreBackend

def name : StoreBackend → String
  | .memory => "memory"
  | .redis => "redis"

def choose (setting : String) (hasPool : Bool) : StoreBackend :=
  if setting = "redis" ∧ hasPool then .redis else .memory

end StoreBackend

structure Started where
  backend : StoreBackend
  pool : Option Pool

def Started.checks (_ : Started) : Nat := 2

-- Only a key server needs a pool, and only then does its name matter.
def Settings.start (settings : Settings) (now : Int) : Except AppError Started :=
  if settings.store.backend = "redis" then
    match Address.read settings.remote.url with
    | .ok _ =>
      .ok ⟨.choose settings.store.backend true, some (.start settings.remote.breaker now)⟩
    | .error fault => .error (.redis (.link (.badAddress fault)))
  else .ok ⟨.choose settings.store.backend false, none⟩

end PagePress
