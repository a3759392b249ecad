import PagePress.Outcome.Code

namespace PagePress

inductive Operation where
  | register
  | replace
  | generate
  deriving DecidableEq, Repr

def Operation.name : Operation → String
  | .register => "register"
  | .replace => "replace"
  | .generate => "generate"

structure Metrics where
  registered : Nat := 0
  replaced : Nat := 0
  generated : Nat := 0
  renders : Nat := 0
  failures : List ((Operation × ErrorCode) × Nat) := []
  deriving DecidableEq, Repr

namespace Metrics

def countIn (key : Operation × ErrorCode) :
    List ((Operation × ErrorCode) × Nat) → List ((Operation × ErrorCode) × Nat)
  | [] => [(key, 1)]
  | (k, n) :: rest => if k = key then (k, n + 1) :: rest else (k, n) :: countIn key rest

def succeeded (metrics : Metrics) : Operation → Metrics
  | .register => { metrics with registered := metrics.registered + 1 }
  | .replace => { metrics with replaced := metrics.replaced + 1 }
  | .generate => { metrics with generated := metrics.generated + 1 }

def failed (metrics : Metrics) (operation : Operation) (code : ErrorCode) : Metrics :=
  { metrics with failures := countIn (operation, code) metrics.failures }

def rendered (metrics : Metrics) : Metrics := { metrics with renders := metrics.renders + 1 }

end Metrics

structure MetricFamily where
  name : String
  help : String
  kind : String

def metricFamilies : List MetricFamily :=
  [⟨"hps_documents_generated_total", "Total documents rendered with caller values", "counter"⟩,
    ⟨"hps_documents_registered_total", "Total documents registered", "counter"⟩,
    ⟨"hps_documents_replaced_total", "Total documents replaced in place", "counter"⟩,
    ⟨"hps_pipeline_failures_total", "Total pipeline operation failures", "counter"⟩,
    ⟨"hps_redis_circuit_breaker_state",
      "Redis circuit breaker state (0=closed, 1=open, 2=half-open)", "gauge"⟩,
    ⟨"hps_redis_connect_attempts", "Redis reconnect attempts since the last successful connect",
      "gauge"⟩,
    ⟨"hps_redis_connection_status", "Redis connection status (1=connected, 0=disconnected)",
      "gauge"⟩,
    ⟨"hps_redis_last_connected_timestamp_ms",
      "Unix time in milliseconds of the last successful Redis connect", "gauge"⟩,
    ⟨"hps_render_duration_seconds", "Rendering engine latency in seconds", "histogram"⟩]

def MetricFamily.lines (family : MetricFamily) : List String :=
  ["# HELP " ++ family.name ++ " " ++ family.help, "# TYPE " ++ family.name ++ " " ++ family.kind]

end PagePress
