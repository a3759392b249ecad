import PagePress.Proofs.Remote.Failures

namespace PagePress

inductive Contact where
  | attempt (succeeded : Bool)
  | command (words : List Bytes) (fault : Option LinkFault)
  deriving DecidableEq, Repr

namespace Contact

def isAttempt : Contact → Bool
  | .attempt _ => true
  | .command _ _ => false

def loses : Contact → Bool
  | .attempt _ => false
  | .command _ fault => fault.any LinkFault.loses

end Contact

def faultOf {ε α : Type} : Except ε α → Option ε
  | .ok _ => none
  | .error e => some e

def Peer.recorded {σ : Type} (peer : Peer σ) : Peer (σ × List Contact) where
  connect s :=
    let (succeeded, state) := peer.connect s.1
    (succeeded, (state, .attempt succeeded :: s.2))
  ask now command s :=
    let (outcome, state) := peer.ask now command s.1
    (outcome, (state, .command command.words (faultOf outcome) :: s.2))

namespace Pool

variable {σ : Type}

namespace Turn

-- The command was sent: the call was not turned away, and there was a connection.
def Sends (turn : Turn) : Prop := ¬turn.TurnedAway ∧ turn.attempt ≠ some false

instance (turn : Turn) : Decidable turn.Sends := inferInstanceAs (Decidable (_ ∧ _))

def linkFault? (turn : Turn) : Option LinkFault :=
  turn.fault.bind fun
    | .link fault => some fault
    | .circuitOpen => none

def contacts (words : List Bytes) (turn : Turn) : List Contact :=
  (if turn.Sends then [.command words turn.linkFault?] else []) ++
    turn.attempt.toList.map .attempt

theorem sends_answered (circuit : CircuitState) {attempt : Option Bool}
    (reached : attempt ≠ some false) : Sends ⟨circuit, attempt, none⟩ :=
  ⟨nofun, reached⟩

theorem sends_failed (circuit : CircuitState) {attempt : Option Bool}
    (reached : attempt ≠ some false) (fault : LinkFault) :
    Sends ⟨circuit, attempt, some (.link fault)⟩ :=
  ⟨nofun, reached⟩

theorem contacts_sent {turn : Turn} (sends : turn.Sends) (words : List Bytes) :
    turn.contacts words = .command words turn.linkFault? :: turn.attempt.toList.map .attempt :=
  congrArg (· ++ _) (if_pos sends)

end Turn

section Execute

variable {peer : Peer σ} {link : Link σ} {request : Request}

theorem fault_turn {e : PoolError}
    (failed : (execute peer request.times request.command link).1 = .error e) :
    (turn peer link request).fault = some e := by
  rw [turn, failed]

theorem turn_stood {ready : Link σ}
    (passes : (link.pool.breaker.settle request.times.asked).state ≠ .opened)
    (stood : connection peer request.times.connected
      ⟨link.pool.settled request.times.asked, link.peer⟩ = (true, ready)) :
    turn peer link request =
      ⟨(link.pool.breaker.settle request.times.asked).state,
        if link.pool.connected then none else some (peer.connect link.peer).1,
        (faultOf (peer.ask request.times.answered request.command ready.peer).1).map .link⟩ := by
  rw [turn_passes passes, execute_stood passes stood]
  dsimp only
  cases (peer.ask request.times.answered request.command ready.peer).1 <;> rfl

end Execute

section Record

variable {peer : Peer σ} {link : Link (σ × List Contact)} {request : Request}

theorem contacts_stood {ready : Link (σ × List Contact)} {attempt : Option Bool}
    (passes : (link.pool.breaker.settle request.times.asked).state ≠ .opened)
    (stood : connection peer.recorded request.times.connected
      ⟨link.pool.settled request.times.asked, link.peer⟩ = (true, ready))
    (tried : (if link.pool.connected then none else some (peer.recorded.connect link.peer).1) =
      attempt)
    (reached : attempt ≠ some false)
    (made : ready.peer.2 = attempt.toList.map .attempt ++ link.peer.2) :
    (next peer.recorded link request).peer.2 =
      (turn peer.recorded link request).contacts request.command.words ++ link.peer.2 := by
  have result := execute_stood passes stood
  rw [turn_stood passes stood, tried, next, result]
  cases outcome : (peer.recorded.ask request.times.answered request.command ready.peer).1 with
  | ok answer =>
    rw [faultOf, Option.map_none, Turn.contacts_sent (Turn.sends_answered _ reached),
      List.cons_append, ← made]
    exact congrArg (Contact.command _ · :: _) (congrArg faultOf outcome)
  | error fault =>
    rw [faultOf, Option.map_some, Turn.contacts_sent (Turn.sends_failed _ reached fault),
      List.cons_append, ← made]
    exact congrArg (Contact.command _ · :: _) (congrArg faultOf outcome)

theorem contacts_next (peer : Peer σ) (link : Link (σ × List Contact)) (request : Request) :
    (next peer.recorded link request).peer.2 =
      (turn peer.recorded link request).contacts request.command.words ++ link.peer.2 := by
  by_cases opened : (link.pool.breaker.settle request.times.asked).state = .opened
  · have away := permit_opened opened
    rw [turn, attempt, next, execute_opened opened, away]
    rfl
  · cases connected : link.pool.connected with
    | true =>
      have untried : (none : Option Bool) ≠ some false := (Option.some_ne_none false).symm
      exact contacts_stood opened (connection_kept connected) (if_pos connected) untried rfl
    | false =>
      have new : connection peer.recorded request.times.connected
          ⟨link.pool.settled request.times.asked, link.peer⟩ = _ := connection_new connected
      have tried (succeeded : Bool) : (if link.pool.connected then none else some succeeded) =
          some succeeded := by simp [connected]
      cases reached : (peer.recorded.connect link.peer).1 with
      | true =>
        rw [reached] at new
        refine contacts_stood opened new (tried _) (by simp [reached]) rfl
      | false =>
        rw [reached] at new
        rw [turn_passes opened, next, execute_unreached opened new, connected, reached]
        exact congrArg (Contact.attempt · :: _) reached

end Record

def Standing : List Contact → Prop
  | [] => False
  | .attempt succeeded :: _ => succeeded = true
  | .command words fault :: earlier => ¬(Contact.command words fault).loses ∧ Standing earlier

-- Every command went over a connection that was standing by then.
def Orderly : List Contact → Prop
  | [] => True
  | .attempt _ :: earlier => Orderly earlier
  | .command _ _ :: earlier => Standing earlier ∧ Orderly earlier

theorem Standing.made_since {between : List Contact} (lost : Contact) (loses : lost.loses = true)
    {earlier : List Contact} (standing : Standing (between ++ lost :: earlier)) :
    .attempt true ∈ between := by
  induction between with
  | nil =>
    cases lost with
    | attempt => cases loses
    | command => exact (standing.1 loses).elim
  | cons contact between ih =>
    cases contact with
    | attempt succeeded =>
      cases standing
      exact List.mem_cons_self
    | command => exact List.mem_cons_of_mem _ (ih standing.2)

theorem Orderly.standing {later : List Contact} {words : List Bytes} {fault : Option LinkFault}
    {earlier : List Contact} (orderly : Orderly (later ++ .command words fault :: earlier)) :
    Standing earlier := by
  induction later with
  | nil => exact orderly.1
  | cons contact later ih =>
    cases contact with
    | attempt => exact ih orderly
    | command => exact ih orderly.2

theorem Stands.reached {now : Int} {pool after : Pool} {attempt : Option Bool}
    (stands : Stands now pool attempt after) : attempt ≠ some false := by
  cases stands <;> simp

-- What holds of a new pool without a record, and goes on holding with all that a call does.
structure Lasts (holds : Pool → List Contact → Prop) : Prop where
  start (config : BreakerConfig) (now : Int) : holds (.start config now) []
  settled {pool : Pool} {record : List Contact} (now : Int) :
    holds pool record → holds (pool.settled now) record
  turnedAway {pool : Pool} {record : List Contact} :
    holds pool record → holds { pool with health := pool.health.circuitOpen } record
  attempted {pool : Pool} {record : List Contact} (now : Int) (succeeded : Bool) :
    pool.connected = false → holds pool record →
      holds (pool.attempted now succeeded) (.attempt succeeded :: record)
  answered {pool : Pool} {record : List Contact} (words : List Bytes) (now : Int)
    (outcome : Except LinkFault Unit) : pool.connected = true → holds pool record →
      holds (pool.answered now outcome) (.command words (faultOf outcome) :: record)

namespace Lasts

variable {holds : Pool → List Contact → Prop} (lasts : Lasts holds)
include lasts

theorem stands {now : Int} {pool after : Pool} {attempt : Option Bool} {record : List Contact}
    (stands : Stands now pool attempt after) (held : holds pool record) :
    holds after (attempt.toList.map .attempt ++ record) := by
  cases stands with
  | kept => exact held
  | made alone => exact lasts.attempted now true alone held

theorem step {times : Times} {pool after : Pool} {turn : Turn} {record : List Contact}
    (step : Step times pool turn after) (held : holds pool record) (words : List Bytes) :
    holds after (turn.contacts words ++ record) := by
  have settled := lasts.settled times.asked held
  cases step with
  | turnedAway => exact lasts.turnedAway settled
  | unreached _ alone => exact lasts.attempted times.connected false alone settled
  | answered _ stands =>
    rw [Turn.contacts_sent (Turn.sends_answered _ stands.reached)]
    exact lasts.answered words times.answered (.ok ()) stands.connected
      (lasts.stands stands settled)
  | failed fault _ stands =>
    rw [Turn.contacts_sent (Turn.sends_failed _ stands.reached fault)]
    exact lasts.answered words times.answered (.error fault) stands.connected
      (lasts.stands stands settled)

theorem run (peer : Peer σ) (config : BreakerConfig) (started : Int) (state : σ)
    (requests : List Request) :
    let last := (run peer.recorded ⟨.start config started, (state, [])⟩ requests).2
    holds last.pool last.peer.2 := by
  induction requests using List.reverseRecOn with
  | nil => exact lasts.start config started
  | append_singleton requests request ih =>
    rw [run_concat]
    dsimp only
    rw [contacts_next]
    exact lasts.step (execute_step peer.recorded _ request) ih _

end Lasts

-- How a pool and the record of its calls belong together.
structure Matches (pool : Pool) (record : List Contact) : Prop where
  healthy : pool.health.status = .healthy → pool.connected = true
  standing : pool.connected = true → Standing record
  orderly : Orderly record

theorem Matches.answered {pool : Pool} {record : List Contact} (known : pool.Matches record)
    (connected : pool.connected = true) (words : List Bytes) (now : Int)
    (outcome : Except LinkFault Unit) :
    (pool.answered now outcome).Matches (.command words (faultOf outcome) :: record) := by
  have standing := known.standing connected
  cases outcome with
  | ok => exact ⟨known.healthy, fun _ => ⟨nofun, standing⟩, standing, known.orderly⟩
  | error fault =>
    refine ⟨fun healthy => ?_, fun still => ⟨?_, standing⟩, standing, known.orderly⟩
    · cases loses : fault.loses with
      | true => simp [loses, LinkHealth.reconnecting] at healthy
      | false => simp [connected, loses]
    · rw [connected_answered_error, Bool.and_eq_true, Bool.not_eq_true'] at still
      simp [Contact.loses, faultOf, still.2]

theorem lasts_matches : Lasts Matches where
  start _ _ := ⟨nofun, nofun, trivial⟩
  settled _ known := ⟨known.healthy, known.standing, known.orderly⟩
  turnedAway known := ⟨nofun, known.standing, known.orderly⟩
  attempted now succeeded alone known := by
    cases succeeded with
    | true => exact ⟨fun _ => rfl, fun _ => rfl, known.orderly⟩
    | false =>
      -- The attempt fails, so there is still no connection.
      exact ⟨nofun, fun connected => (Bool.false_ne_true (alone.symm.trans connected)).elim,
        known.orderly⟩
  answered words now outcome connected known := known.answered connected words now outcome

section Step

variable {times : Times} {pool after : Pool} {turn : Turn}

theorem Step.alone_of_attempt (step : Step times pool turn after) (tries : turn.attempt ≠ none) :
    pool.connected = false := by
  cases step with
  | turnedAway => exact (tries rfl).elim
  | unreached _ alone => exact alone
  | answered _ stands | failed _ _ stands =>
    cases stands with
    | kept => exact (tries rfl).elim
    | made alone => exact alone

theorem Step.alone_of_loses (step : Step times pool turn after) {fault : LinkFault}
    (failed : turn.fault = some (.link fault)) (loses : fault.loses = true) :
    after.connected = false := by
  cases step with
  | turnedAway | answered => cases failed
  | unreached _ alone => exact alone
  | failed =>
    cases failed
    rw [connected_answered_error, loses, Bool.not_true, Bool.and_false]

theorem Step.opened_of_turnedAway (step : Step times pool turn after) (away : turn.TurnedAway) :
    (pool.breaker.settle times.asked).state = .opened := by
  cases step with
  | turnedAway opened => exact opened
  | unreached | answered | failed => cases away

end Step

section Run

variable {peer : Peer σ}

theorem countP_contacts (words : List Bytes) (turn : Turn) :
    (turn.contacts words).countP Contact.isAttempt = turn.attempt.toList.length := by
  rw [Turn.contacts, List.countP_append]
  split <;> cases turn.attempt <;> rfl

theorem execute_turnedAway {link : Link σ} {request : Request}
    (away : (execute peer request.times request.command link).1 = .error .circuitOpen) :
    (execute peer request.times request.command link).2 =
      ⟨{ link.pool with health := { link.pool.health with status := .circuitOpen } },
        link.peer⟩ := by
  have opened := (execute_step peer link request).opened_of_turnedAway (fault_turn away)
  have still : link.pool.settled request.times.asked = link.pool :=
    settled_eq (Breaker.settle_eq_of_decided (by simp [opened]))
  rw [execute_opened opened, still]
  rfl

theorem calls_keep_invariants (peer : Peer σ) (config : BreakerConfig) (started : Int) (state : σ)
    (requests : List Request) (request : Request) :
    let before := (run peer.recorded ⟨.start config started, (state, [])⟩ requests).2
    let called := execute peer.recorded request.times request.command before
    (before.pool.health.status = .healthy → before.pool.connected = true) ∧
    (called.1 = .error .circuitOpen →
      called.2 = ⟨{ before.pool with health := { before.pool.health with status := .circuitOpen } },
        before.peer⟩) ∧
    (∃ contacts, called.2.peer.2 = contacts ++ before.peer.2 ∧
      contacts.countP Contact.isAttempt ≤ if before.pool.connected then 0 else 1) ∧
    (∀ fault, called.1 = .error (.link fault) → fault.loses = true →
      called.2.pool.connected = false) ∧
    ∀ later words fault between dropped lost earlier,
      before.peer.2 = later ++ .command words fault ::
        (between ++ .command dropped (some lost) :: earlier) →
      lost.loses = true → .attempt true ∈ between := by
  intro before called
  have known : before.pool.Matches before.peer.2 :=
    lasts_matches.run peer config started state requests
  have step := execute_step peer.recorded before request
  refine ⟨known.healthy, execute_turnedAway, ⟨_, contacts_next peer before request, ?_⟩, ?_, ?_⟩
  · rw [countP_contacts]
    split
    · rename_i connected
      cases tried : (turn peer.recorded before request).attempt with
      | none => exact Nat.le_refl 0
      | some succeeded =>
        have alone := step.alone_of_attempt (by simp [tried])
        cases connected.symm.trans alone
    · exact Option.length_toList_le
  · intro fault failed loses
    exact step.alone_of_loses (fault_turn failed) loses
  · intro later words fault between dropped lost earlier split loses
    have orderly := known.orderly
    rw [split] at orderly
    exact Standing.made_since (.command dropped (some lost)) loses orderly.standing

-- A command is lost with its connection, and the next that passes the circuit goes over another.
example :
    let requests : List Request :=
      [⟨.all 0, .ping⟩, ⟨.all 1, .ping⟩, ⟨.all 40000, .ping⟩, ⟨.all 40001, .ping⟩]
    let course := run Rehearsal.scriptedPeer.recorded
      ⟨.start { failureThreshold := 1 } 0, ([some .dropped, some .refused], [])⟩ requests
    course.1.map Turn.fault = [some (.link .dropped), some .circuitOpen, some (.link .refused),
      some .circuitOpen] ∧
    course.2.peer.2 = [.command [Text.utf8 "PING"] (some .refused), .attempt true,
      .command [Text.utf8 "PING"] (some .dropped), .attempt true] := by
  decide +kernel

end Run

end Pool
end PagePress
