import PagePress.Proofs.Remote.Turn
import PagePress.Proofs.Store.Shelf
import PagePress.Remote.Server
import PagePress.Settings.Basic
import PagePress.Store.Remote

namespace PagePress

variable {σ : Type}

-- What a command finds out and what it leaves, where `seen` tells the value of a key at each time
-- if nothing more is written.
def Command.finds {α : Type} (now : Int) (seen : String → Int → Option Bytes) : Command α → α
  | .get key => seen key now
  | .set .. | .setFor .. | .ping => ()
  | .delete key | .holds key => (seen key now).isSome

def Command.leaves {α : Type} (now : Int) (seen : String → Int → Option Bytes) :
    Command α → String → Int → Option Bytes
  | .set key value => Function.update seen key fun _ => some value
  | .setFor key seconds value =>
    Function.update seen key fun time => if time < now + 1000 * seconds then some value else none
  | .delete key => Function.update seen key fun _ => none
  | .get _ | .holds _ | .ping => seen

def Command.key? {α : Type} : Command α → Option String
  | .get key | .set key _ | .setFor key _ _ | .delete key | .holds key => some key
  | .ping => none

section Congruence

variable {α : Type} {now : Int} {a b : String → Int → Option Bytes} {command : Command α}

theorem Command.finds_congr (same : ∀ key ∈ command.key?, a key = b key) :
    command.finds now a = command.finds now b := by
  cases command with
  | get key => exact congrFun (same key rfl) now
  | delete key | holds key => exact congrArg Option.isSome (congrFun (same key rfl) now)
  | set | setFor | ping => rfl

theorem Command.leaves_congr {key : String} (same : a key = b key) :
    command.leaves now a key = command.leaves now b key := by
  cases command with
  | get | holds | ping => exact same
  | set written | setFor written | delete written =>
    by_cases here : key = written
    · simp [Command.leaves, here]
    · simpa [Command.leaves, here] using same

end Congruence

-- A server that can always be reached, never fails, and does to our keys what commands say. Of
-- other keys nothing is known.
structure Peer.Serves (peer : Peer σ) (ours : Set String) (seen : σ → String → Int → Option Bytes) :
    Prop where
  reached : ∀ s, (peer.connect s).1 = true
  untouched : ∀ s, ∀ key ∈ ours, seen (peer.connect s).2 key = seen s key
  answers : ∀ {α : Type} now (command : Command α) s, (∀ key ∈ command.key?, key ∈ ours) →
    (peer.ask now command s).1 = .ok (command.finds now (seen s))
  obeys : ∀ {α : Type} now (command : Command α) s, (∀ key ∈ command.key?, key ∈ ours) →
    ∀ key ∈ ours, ∀ time, now ≤ time →
      seen (peer.ask now command s).2 key time = command.leaves now (seen s) key time

def Stored.lasts (now : Int) (stored : Stored) : Bool := stored.goneAt.all (now < ·)

theorem Stored.lasts_earlier {stored : Stored} {now time : Int} (lasts : stored.lasts time = true)
    (later : now ≤ time) : stored.lasts now = true := by
  cases ends : stored.goneAt with
  | none => simp [Stored.lasts, ends]
  | some limit =>
    simp only [Stored.lasts, ends, Option.all_some, decide_eq_true_eq] at lasts ⊢
    exact later.trans_lt lasts

namespace KeyServer

def seen (server : KeyServer) (key : String) (time : Int) : Option Bytes :=
  (server.expire time).value? key

variable {server : KeyServer} {now time : Int} {key other : String}

theorem expire_eq : server.expire now = ⟨server.table.filter (·.2.lasts now)⟩ := rfl

theorem seen_expire (later : now ≤ time) :
    (server.expire now).seen key time = server.seen key time := by
  rw [seen, expire_eq, expire_eq, List.filter_filter, seen, expire_eq]
  congr 3
  funext field
  exact Bool.and_eq_left_iff_imp.mpr fun lasts => Stored.lasts_earlier lasts later

theorem seen_without_self : (server.without key).seen key time = none := by
  simp [seen, expire_eq, without, value?]

theorem seen_without_of_ne (different : other ≠ key) :
    (server.without key).seen other time = server.seen other time := by
  rw [seen, expire_eq, without, List.filter_filter, seen, expire_eq, value?, value?,
    List.find?_filter, List.find?_filter]
  congr 2
  funext field
  by_cases same : field.1 = other
  · simp [same, different]
  · simp [same]

theorem seen_put_self (stored : Stored) :
    (server.put key stored).seen key time =
      if stored.lasts time then some stored.value else none := by
  have behind : (server.without key).seen key time = none := seen_without_self
  rw [seen, expire_eq, put, List.filter_cons]
  split
  · simp [value?]
  · exact behind

theorem seen_put_of_ne (different : other ≠ key) (stored : Stored) :
    (server.put key stored).seen other time = server.seen other time := by
  have behind : (server.without key).seen other time = server.seen other time :=
    seen_without_of_ne different
  rw [← behind, seen, expire_eq, put, List.filter_cons]
  split
  · simp [seen, expire_eq, value?, different.symm]
  · rfl

theorem seen_without (later : now ≤ time) :
    ((server.expire now).without key).seen other time =
      Function.update server.seen key (fun _ => none) other time := by
  by_cases same : other = key
  · rw [same, Function.update_self, seen_without_self]
  · rw [Function.update_of_ne same, seen_without_of_ne same, seen_expire later]

theorem seen_put (later : now ≤ time) (stored : Stored) :
    ((server.expire now).put key stored).seen other time =
      Function.update server.seen key
        (fun time => if stored.lasts time then some stored.value else none) other time := by
  by_cases same : other = key
  · rw [same, Function.update_self, seen_put_self]
  · rw [Function.update_of_ne same, seen_put_of_ne same, seen_expire later]

theorem serves (ours : Set String) : KeyServer.peer.Serves ours seen where
  reached _ := rfl
  untouched _ _ _ := rfl
  answers now command server _ := by cases command <;> rfl
  obeys now command server _ key _ time later := by
    cases command with
    | get | holds | ping => exact seen_expire later
    | set written value => exact seen_put later ⟨value, none⟩
    | setFor written seconds value =>
      refine (seen_put later ⟨value, some (now + 1000 * seconds)⟩).trans ?_
      simp [Command.leaves, Stored.lasts]
    | delete gone => exact seen_without later

end KeyServer

def WholeSeconds (keptFor : Option Nat) : Prop :=
  ∀ millis ∈ keptFor, ∃ seconds, 0 < seconds ∧ millis = 1000 * seconds

theorem wholeSeconds_keptFor (settings : StoreSettings) : WholeSeconds settings.keptFor := by
  rw [StoreSettings.keptFor]
  split
  · exact nofun
  · rename_i given
    rintro _ ⟨⟩
    have some : settings.ttlSeconds.toNat ≠ 0 := fun zero => given (UInt64.toNat_inj.mp zero)
    exact ⟨_, Nat.pos_of_ne_zero some, rfl⟩

def StoreCall.WholeSeconds : StoreCall → Prop
  | .set _ _ keptFor => PagePress.WholeSeconds keptFor
  | .get _ | .delete _ | .holds _ => True

namespace Store

-- Calls one after the other, each with its time. Behind one that panics the others go on.
def run (store : Store σ) (s : σ) : List (Int × StoreCall) → List StoreAnswer × σ
  | [] => ([], s)
  | (now, call) :: rest =>
    let (answer, s) := store.ask now s call
    let (answers, last) := store.run s rest
    (answer :: answers, last)

-- A state shows a shelf from a time on, and calls of some kind are answered by what it shows.
structure Refines (store : Store σ) (reaches : Int → Option Nat → Bool) (allowed : StoreCall → Prop)
    (shows : Int → σ → Shelf → Prop) : Prop where
  later : ∀ {now time s shelf}, shows now s shelf → now ≤ time → shows time s shelf
  step : ∀ {now s shelf call}, shows now s shelf → allowed call →
    .store (store.ask now s call).1 = shelf.answer reaches now (.ask call) ∧
      shows now (store.ask now s call).2 (shelf.next reaches now (.ask call))

theorem Refines.run {store : Store σ} {reaches : Int → Option Nat → Bool}
    {allowed : StoreCall → Prop} {shows : Int → σ → Shelf → Prop}
    (refines : store.Refines reaches allowed shows) {s : σ} {shelf : Shelf}
    (calls : List (Int × StoreCall))
    {now : Int} (shown : shows now s shelf) (ordered : (now :: calls.map (·.1)).Pairwise (· ≤ ·))
    (every : ∀ call ∈ calls, allowed call.2) :
    (store.run s calls).1.map .store = shelf.answers reaches (calls.map (Prod.map id .ask)) ∧
      ∃ last, shows last (store.run s calls).2
        (shelf.after reaches (calls.map (Prod.map id .ask))) := by
  induction calls generalizing now s shelf with
  | nil => exact ⟨rfl, now, shown⟩
  | cons call rest ih =>
    obtain ⟨time, call⟩ := call
    obtain ⟨since, later⟩ := List.pairwise_cons.mp ordered
    obtain ⟨here, there⟩ := List.forall_mem_cons.mp every
    obtain ⟨answer, next⟩ := refines.step (refines.later shown (since time List.mem_cons_self)) here
    obtain ⟨answers, last⟩ := ih next later there
    exact ⟨congrArg₂ List.cons answer answers, last⟩

end Store

theorem Memory.refines :
    Memory.store.Refines (Memory.onClock Memory.lastMoment) (fun _ => True) Memory.Shows where
  later shows := shows.later
  step shows _ := shows.step Memory.lastMoment (.ask _)

namespace Shelf

open Memory (Call Answer)

def reached (reaches : Int → Option Nat → Bool) : Int × StoreCall → Bool
  | (now, .set _ _ keptFor) => reaches now keptFor
  | (_, .get _) | (_, .delete _) | (_, .holds _) => true

variable {reaches : Int → Option Nat → Bool}

theorem step_reached (shelf : Shelf) {now : Int} {call : StoreCall}
    (here : reached reaches (now, call) = true) :
    (∃ answer : StoreAnswer, answer.returned = true ∧
      shelf.answer reaches now (.ask call) = .store answer ∧
      shelf.answer (fun _ _ => true) now (.ask call) = .store answer) ∧
    shelf.next reaches now (.ask call) = shelf.next (fun _ _ => true) now (.ask call) := by
  cases call with
  | get id | delete id | holds id => exact ⟨⟨_, rfl, rfl, rfl⟩, rfl⟩
  | set id bytes keptFor =>
    have here : reaches now keptFor = true := here
    refine ⟨⟨.saved (.ok ()), rfl, ?_, rfl⟩, ?_⟩
    · rw [answer, if_pos here]
    · rw [next, next, if_pos here, if_pos rfl]

theorem step_panics (shelf : Shelf) {now : Int} {call : StoreCall}
    (away : reached reaches (now, call) = false) :
    shelf.answer reaches now (.ask call) = .store (.saved (.error .panic)) ∧
      shelf.next reaches now (.ask call) = shelf := by
  cases call with
  | get id | delete id | holds id => cases away
  | set id bytes keptFor =>
    have away : ¬reaches now keptFor = true := Bool.eq_false_iff.mp away
    exact ⟨by rw [answer, if_neg away], by rw [next, if_neg away]⟩

theorem answers_reached (shelf : Shelf) (calls : List (Int × StoreCall))
    {answers : List StoreAnswer}
    (given : answers.map .store = shelf.answers reaches (calls.map (Prod.map id .ask))) :
    answers.map StoreAnswer.returned = calls.map (reached reaches) ∧
      (answers.filter StoreAnswer.returned).map .store = shelf.answers (fun _ _ => true)
        ((calls.filter (reached reaches)).map (Prod.map id .ask)) := by
  induction calls generalizing shelf answers with
  | nil =>
    rw [List.map_eq_nil_iff.mp given]
    exact ⟨rfl, rfl⟩
  | cons call rest ih =>
    obtain ⟨now, call⟩ := call
    obtain ⟨answer, later, rfl, first, others⟩ := List.map_eq_cons_iff.mp given
    obtain ⟨told, filtered⟩ := ih (shelf.next reaches now (.ask call)) others
    rw [List.map_cons, List.map_cons, told]
    cases here : reached reaches (now, call) with
    | true =>
      obtain ⟨⟨shown, returns, same, plain⟩, next⟩ := shelf.step_reached here
      obtain rfl : answer = shown := Answer.store.inj (first.trans same)
      rw [next] at filtered
      rw [List.filter_cons_of_pos returns, List.filter_cons_of_pos here, returns, List.map_cons,
        List.map_cons, ← plain, filtered]
      exact ⟨rfl, rfl⟩
    | false =>
      obtain ⟨panics, next⟩ := shelf.step_panics here
      obtain rfl : answer = .saved (.error .panic) := Answer.store.inj (first.trans panics)
      have away : ¬reached reaches (now, call) = true := Bool.eq_false_iff.mp here
      rw [next] at filtered
      rw [List.filter_cons_of_neg (by decide), List.filter_cons_of_neg away, filtered]
      exact ⟨rfl, rfl⟩

end Shelf

namespace RemoteStore

variable {peer : Peer σ} {space : String} {seen : σ → String → Int → Option Bytes} {now : Int}
  {link : Pool.Link σ}

def keysUnder (space : String) : Set String := Set.range (keyOf space)

theorem keyOf_injective (space : String) : Function.Injective (keyOf space) :=
  fun _ _ same => (String.append_right_inj _).mp same

variable (now) in
theorem connection_closed (serves : peer.Serves (keysUnder space) seen)
    (closed : link.pool.breaker.state = .closed) :
    ∃ ready, Pool.connection peer now link = (true, ready) ∧ ready.pool.breaker.state = .closed ∧
      ∀ key ∈ keysUnder space, seen ready.peer key = seen link.peer key := by
  cases connected : link.pool.connected with
  | true => exact ⟨link, Pool.connection_kept connected, closed, fun _ _ => rfl⟩
  | false =>
    rw [Pool.connection_new connected, serves.reached]
    refine ⟨_, rfl, ?_, serves.untouched link.peer⟩
    show (link.pool.breaker.recordSuccess now).state = .closed
    rw [Breaker.recordSuccess_closed closed]
    exact closed

theorem run_closed (serves : peer.Serves (keysUnder space) seen)
    (closed : link.pool.breaker.state = .closed) {α : Type} (command : Command α)
    (ours : ∀ key ∈ command.key?, key ∈ keysUnder space) :
    ∃ after, run peer now command link = (.ok (command.finds now (seen link.peer)), after) ∧
      after.pool.breaker.state = .closed ∧
      ∀ key ∈ keysUnder space, ∀ time, now ≤ time →
        seen after.peer key time = command.leaves now (seen link.peer) key time := by
  have away : link.pool.breaker.state ≠ .opened := by
    rw [closed]
    exact nofun
  have settled : link.pool.breaker.settle now = link.pool.breaker :=
    Breaker.settle_of_ne_opened away
  have passes : (link.pool.breaker.settle now).state ≠ .opened := settled.symm ▸ away
  obtain ⟨ready, stood, still, same⟩ := connection_closed now serves closed
  have stands : Pool.connection peer now ⟨link.pool.settled now, link.peer⟩ = (true, ready) := by
    rw [Pool.settled, settled]
    exact stood
  have executed : Pool.execute peer (.all now) command link = _ :=
    @Pool.execute_stood _ peer link ⟨.all now, command⟩ passes ready stands
  have answer : (peer.ask now command ready.peer).1 = .ok (command.finds now (seen link.peer)) := by
    rw [serves.answers now command ready.peer ours]
    exact congrArg _ (Command.finds_congr fun key asked => same key (ours key asked))
  refine ⟨⟨ready.pool.answered now (.ok (command.finds now (seen link.peer)) : Except LinkFault α),
    (peer.ask now command ready.peer).2⟩, ?_, ?_, ?_⟩
  · rw [run, executed]
    dsimp only [Times.all]
    rw [answer]
    rfl
  · show (ready.pool.breaker.recordSuccess now).state = .closed
    rw [Breaker.recordSuccess_closed still]
    exact still
  · intro key own time later
    rw [serves.obeys now command ready.peer ours key own time later]
    exact congrFun (Command.leaves_congr (same key own)) time

-- From a time on, what the server has under our keys is what stands on the shelf, and the circuit
-- is closed.
structure Shows (space : String) (seen : σ → String → Int → Option Bytes) (now : Int)
    (link : Pool.Link σ) (shelf : Shelf) : Prop where
  closed : link.pool.breaker.state = .closed
  seen : ∀ id time, now ≤ time → seen link.peer (keyOf space id) time = shelf.seen? time id

theorem Shows.place {after : Pool.Link σ} {shelf : Shelf} {id : String} {writing? : Option Writing}
    {value : Int → Option Bytes} (shows : Shows space seen now link shelf)
    (closed : after.pool.breaker.state = .closed)
    (left : ∀ key ∈ keysUnder space, ∀ time, now ≤ time →
      seen after.peer key time = Function.update (seen link.peer) (keyOf space id) value key time)
    (told : ∀ time, value time = (writing?.filter (Writing.VisibleAt time ·)).map (·.bytes)) :
    Shows space seen now after (shelf.place id writing?) := by
  refine ⟨closed, fun other time later => ?_⟩
  rw [left _ (Set.mem_range_self other) time later]
  by_cases same : other = id
  · subst same
    rw [Function.update_self, Shelf.seen?_place_self, told]
  · rw [Function.update_of_ne ((keyOf_injective space).ne same), Shelf.seen?_place_of_ne _ _ same,
      shows.seen other time later]

section Asked

variable {shelf : Shelf} (serves : peer.Serves (keysUnder space) seen)
  (shows : Shows space seen now link shelf)
include serves shows

theorem run_about {α : Type} (id : String) (command : Command α)
    (about : command.key? = some (keyOf space id)) :
    ∃ after, run peer now command link = (.ok (command.finds now (seen link.peer)), after) ∧
      after.pool.breaker.state = .closed ∧
      ∀ key ∈ keysUnder space, ∀ time, now ≤ time →
        seen after.peer key time = command.leaves now (seen link.peer) key time :=
  run_closed serves shows.closed command fun _ asked =>
    ⟨id, Option.some.inj (about.symm.trans asked)⟩

theorem ask_get (id : String) :
    .store ((store peer space).ask now link (.get id)).1 =
        shelf.answer (fun _ _ => true) now (.ask (.get id)) ∧
      Shows space seen now ((store peer space).ask now link (.get id)).2 shelf := by
  obtain ⟨after, done, closed, left⟩ := run_about serves shows id (.get (keyOf space id)) rfl
  have found : (Command.get (keyOf space id)).finds now (seen link.peer) = shelf.seen? now id :=
    shows.seen id now (Int.le_refl now)
  rw [found] at done
  have read : get peer space now id link =
      ((shelf.seen? now id).elim (.error (.notFound id)) .ok, after) := by
    rw [get, done]
    cases shelf.seen? now id <;> rfl
  have answered : shelf.answer (fun _ _ => true) now (.ask (.get id)) =
      .store (.read ((shelf.seen? now id).elim (.error (.notFound id)) .ok)) := by
    rw [Shelf.answer]
    cases shelf.seen? now id <;> rfl
  have asked : (store peer space).ask now link (.get id) =
      (.read (get peer space now id link).1, (get peer space now id link).2) := rfl
  rw [asked, read]
  refine ⟨answered.symm, closed, fun other time later => ?_⟩
  rw [left _ (Set.mem_range_self other) time later]
  exact shows.seen other time later

theorem ask_set (id : String) (bytes : Bytes) {keptFor : Option Nat}
    (whole : WholeSeconds keptFor) :
    .store ((store peer space).ask now link (.set id bytes keptFor)).1 =
        shelf.answer (fun _ _ => true) now (.ask (.set id bytes keptFor)) ∧
      Shows space seen now ((store peer space).ask now link (.set id bytes keptFor)).2
        (shelf.place id (some ⟨bytes, now, keptFor⟩)) := by
  have asked : (store peer space).ask now link (.set id bytes keptFor) =
      (.saved (returned (run peer now (saving (keyOf space id) bytes keptFor) link).1),
        (run peer now (saving (keyOf space id) bytes keptFor) link).2) := rfl
  rw [asked]
  cases keptFor with
  | none =>
    obtain ⟨after, done, closed, left⟩ :=
      run_about serves shows id (.set (keyOf space id) bytes) rfl
    rw [saving, done]
    refine ⟨rfl, shows.place closed left fun time => ?_⟩
    simp [Writing.VisibleAt]
  | some millis =>
    obtain ⟨seconds, some, rfl⟩ := whole millis rfl
    obtain ⟨after, done, closed, left⟩ :=
      run_about serves shows id (.setFor (keyOf space id) seconds bytes) rfl
    have same : max (1000 * seconds / 1000) 1 = seconds := by omega
    rw [saving, same, done]
    refine ⟨rfl, shows.place closed left fun time => ?_⟩
    simp [Writing.VisibleAt, Option.filter]

theorem ask_delete (id : String) :
    .store ((store peer space).ask now link (.delete id)).1 =
        shelf.answer (fun _ _ => true) now (.ask (.delete id)) ∧
      Shows space seen now ((store peer space).ask now link (.delete id)).2
        (shelf.place id none) := by
  have asked : (store peer space).ask now link (.delete id) =
      (.told (run peer now (.delete (keyOf space id)) link).1,
        (run peer now (.delete (keyOf space id)) link).2) := rfl
  obtain ⟨after, done, closed, left⟩ := run_about serves shows id (.delete (keyOf space id)) rfl
  rw [asked, done, Command.finds, shows.seen id now (Int.le_refl now)]
  exact ⟨rfl, shows.place closed left fun _ => rfl⟩

theorem ask_holds (id : String) :
    .store ((store peer space).ask now link (.holds id)).1 =
        shelf.answer (fun _ _ => true) now (.ask (.holds id)) ∧
      Shows space seen now ((store peer space).ask now link (.holds id)).2 shelf := by
  have asked : (store peer space).ask now link (.holds id) =
      (.told (run peer now (.holds (keyOf space id)) link).1,
        (run peer now (.holds (keyOf space id)) link).2) := rfl
  obtain ⟨after, done, closed, left⟩ := run_about serves shows id (.holds (keyOf space id)) rfl
  rw [asked, done, Command.finds, shows.seen id now (Int.le_refl now)]
  refine ⟨rfl, closed, fun other time later => ?_⟩
  rw [left _ (Set.mem_range_self other) time later]
  exact shows.seen other time later

end Asked

theorem refines (serves : peer.Serves (keysUnder space) seen) :
    (store peer space).Refines (fun _ _ => true) StoreCall.WholeSeconds (Shows space seen) where
  later shows passed := ⟨shows.closed, fun id _ since => shows.seen id _ (passed.trans since)⟩
  step {now link shelf call} shows allowed := by
    cases call with
    | get id => exact ask_get serves shows id
    | set id bytes keptFor => exact ask_set serves shows id bytes allowed
    | delete id => exact ask_delete serves shows id
    | holds id => exact ask_holds serves shows id

theorem exists_begun {times : List Int} (ordered : times.Pairwise (· ≤ ·)) :
    ∃ now, (now :: times).Pairwise (· ≤ ·) := by
  cases times with
  | nil => exact ⟨0, List.pairwise_singleton _ _⟩
  | cons first rest =>
    obtain ⟨since, -⟩ := List.pairwise_cons.mp ordered
    refine ⟨first, List.pairwise_cons.mpr ⟨fun time member => ?_, ordered⟩⟩
    rcases List.mem_cons.mp member with rfl | later
    · exact Int.le_refl _
    · exact since time later

end RemoteStore
end PagePress
