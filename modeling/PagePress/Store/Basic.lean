import PagePress.Outcome.Code
import PagePress.Text.Utf8

namespace PagePress

inductive StoreError where
  | notFound (id : String)
  | circuitOpen
  | backend (reason : String)
  deriving DecidableEq, Repr

def StoreError.message : StoreError → String
  | .notFound id => "document not found: " ++ id
  | .circuitOpen => "store unavailable: circuit breaker is open"
  | .backend reason => "store backend error: " ++ reason

structure Store (σ : Type) where
  name : String
  get : Int → String → σ → Except StoreError Bytes × σ
  -- The number is how long it is kept; without one it is kept.
  set : Int → String → Bytes → Option Nat → σ → Except (Halt StoreError) Unit × σ
  -- Whether there was something to remove.
  delete : Int → String → σ → Except StoreError Bool × σ
  holds : Int → String → σ → Except StoreError Bool × σ
  healthy : Int → σ → Bool × σ

end PagePress
