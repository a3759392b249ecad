import PagePress.Remote.Breaker
import PagePress.Template.Options

namespace PagePress

inductive LogFormat where
  | pretty
  | json
  deriving DecidableEq, Repr

structure ServerSettings where
  host : String := "0.0.0.0"
  port : UInt16 := 8080
  routeVersion : String := ""
  maxUploadBytes : UInt64 := 10485760
  deriving DecidableEq, Repr

structure StoreSettings where
  backend : String := "memory"
  keySpace : String := "hps:document"
  -- Zero keeps documents.
  ttlSeconds : UInt64 := 0
  deriving DecidableEq, Repr

structure RemoteSettings where
  url : String := "redis://localhost:6379"
  failureThreshold : UInt32 := 5
  successThreshold : UInt32 := 2
  resetSeconds : UInt64 := 30
  deriving DecidableEq, Repr

structure RendererSettings where
  binary : String := "wkhtmltopdf"
  workDir : Option String := none
  deriving DecidableEq, Repr

structure Settings where
  server : ServerSettings := {}
  store : StoreSettings := {}
  remote : RemoteSettings := {}
  renderer : RendererSettings := {}
  missingKey : Template.MissingKey := .empty
  logFormat : LogFormat := .pretty
  deriving DecidableEq, Repr

def StoreSettings.keptFor (settings : StoreSettings) : Option Nat :=
  if settings.ttlSeconds = 0 then none else some (1000 * settings.ttlSeconds.toNat)

def RemoteSettings.breaker (settings : RemoteSettings) : BreakerConfig :=
  ⟨settings.failureThreshold, settings.successThreshold, .ofSeconds settings.resetSeconds⟩

def ServerSettings.address (settings : ServerSettings) : String :=
  settings.host ++ ":" ++ toString settings.port.toNat

end PagePress
