import PagePress.Proofs.Remote.Contacts

namespace PagePress.Pool

variable {σ : Type}

def sinceConnected (record : List Contact) : List Contact :=
  record.takeWhile (· ≠ .attempt true)

def tried (record : List Contact) : Nat := (sinceConnected record).countP Contact.isAttempt

def losses (record : List Contact) : Nat := (sinceConnected record).countP Contact.loses

section Record

variable (record : List Contact)

@[simp] theorem sinceConnected_connects : sinceConnected (.attempt true :: record) = [] := rfl

@[simp] theorem tried_fails : tried (.attempt false :: record) = tried record + 1 :=
  List.countP_cons_of_pos rfl

@[simp] theorem losses_fails : losses (.attempt false :: record) = losses record :=
  List.countP_cons_of_neg Bool.false_ne_true

variable (words : List Bytes) (fault : Option LinkFault)

@[simp] theorem tried_command : tried (.command words fault :: record) = tried record :=
  List.countP_cons_of_neg Bool.false_ne_true

@[simp] theorem losses_command : losses (.command words fault :: record) =
    losses record + if fault.any LinkFault.loses then 1 else 0 :=
  List.countP_cons

end Record

structure Tallied (pool : Pool) (record : List Contact) : Prop where
  counted : pool.health.attempts.toNat = (tried record + losses record) % 2 ^ 32
  -- A connection is lost at most once.
  once : losses record + pool.connected.toNat ≤ 1

theorem toNat_attempts_reconnecting (health : LinkHealth) :
    health.reconnecting.attempts.toNat = (health.attempts.toNat + 1) % 2 ^ 32 := by
  rw [LinkHealth.reconnecting, UInt32.toNat_add]
  rfl

section Stages

variable {pool : Pool} {record : List Contact}

theorem Tallied.attempted (tallied : pool.Tallied record) (now : Int) (succeeded : Bool) :
    (pool.attempted now succeeded).Tallied (.attempt succeeded :: record) := by
  cases succeeded with
  | true => exact ⟨rfl, Nat.le_refl 1⟩
  | false =>
    have count := toNat_attempts_reconnecting pool.health
    constructor
    · change pool.health.reconnecting.attempts.toNat = _
      rw [count, tallied.counted, tried_fails, losses_fails]
      omega
    · rw [losses_fails]
      exact tallied.once

theorem Tallied.answered (tallied : pool.Tallied record) (connected : pool.connected = true)
    (words : List Bytes) (now : Int) (outcome : Except LinkFault Unit) :
    (pool.answered now outcome).Tallied (.command words (faultOf outcome) :: record) := by
  have counted := tallied.counted
  have once := tallied.once
  rw [connected, Bool.toNat_true] at once
  cases outcome with
  | ok =>
    constructor
    · rw [tried_command, losses_command]
      exact counted
    · rw [losses_command]
      exact tallied.once
  | error fault =>
    cases loses : fault.loses with
    | true =>
      have count := toNat_attempts_reconnecting pool.health
      constructor
      · rw [health_answered_error, if_pos loses, count, counted]
        simp only [tried_command, losses_command, faultOf, Option.any_some, loses, if_true]
        omega
      · simp only [losses_command, connected_answered_error, faultOf, Option.any_some, loses,
          Bool.not_true, Bool.and_false, Bool.toNat_false, if_true]
        omega
    | false =>
      constructor
      · simpa [faultOf, loses] using counted
      · simpa [faultOf, loses, connected] using once

theorem lasts_tallied : Lasts Tallied where
  start _ _ := ⟨rfl, Nat.zero_le 1⟩
  settled _ tallied := ⟨tallied.counted, tallied.once⟩
  turnedAway tallied := ⟨tallied.counted, tallied.once⟩
  attempted now succeeded _ tallied := tallied.attempted now succeeded
  answered words now outcome connected tallied := tallied.answered connected words now outcome

end Stages

theorem attempts_eq_tried_iff (peer : Peer σ) (config : BreakerConfig) (started : Int) (state : σ)
    (requests : List Request) :
    let last := (run peer.recorded ⟨.start config started, (state, [])⟩ requests).2
    let record := last.peer.2
    last.pool.health.attempts.toNat = (tried record + losses record) % 2 ^ 32 ∧
    losses record ≤ 1 ∧
    (last.pool.health.attempts.toNat = tried record ↔
      losses record = 0 ∧ tried record < 2 ^ 32) := by
  intro last record
  have tallied : last.pool.Tallied record := lasts_tallied.run peer config started state requests
  have counted := tallied.counted
  have once : losses record ≤ 1 := (Nat.le_add_right _ _).trans tallied.once
  exact ⟨counted, once, by omega⟩

-- The connection stands at the first attempt, and its first command is lost with it. That is one
-- attempt by the count, and none since the connection was made.
theorem attempts_of_dropped_command :
    let last := (run Rehearsal.Server.peer.recorded
      ⟨.start {} 0, ({ fault := some .drops }, [])⟩ [⟨.all 1, .get "p:a"⟩]).2
    last.peer.2 = [.command [Text.utf8 "GET", Text.utf8 "p:a"] (some .dropped), .attempt true] ∧
      tried last.peer.2 = 0 ∧ last.pool.health.attempts = 1 := by
  decide +kernel

end PagePress.Pool
