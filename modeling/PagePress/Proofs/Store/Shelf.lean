import PagePress.Proofs.Store.Memory

namespace PagePress

inductive StoreCall where
  | get (id : String)
  | set (id : String) (bytes : Bytes) (keptFor : Option Nat)
  | delete (id : String)
  | holds (id : String)

def StoreCall.id : StoreCall → String
  | .get id | .set id .. | .delete id | .holds id => id

inductive StoreAnswer where
  | read (answer : Except StoreError Bytes)
  | saved (answer : Except (Halt StoreError) Unit)
  | told (answer : Except StoreError Bool)

def StoreAnswer.returned : StoreAnswer → Bool
  | .saved (.error .panic) => false
  | .read _ | .saved _ | .told _ => true

def Store.ask {σ : Type} (store : Store σ) (now : Int) (s : σ) : StoreCall → StoreAnswer × σ
  | .get id =>
    let (answer, s) := store.get now id s
    (.read answer, s)
  | .set id bytes keptFor =>
    let (answer, s) := store.set now id bytes keptFor s
    (.saved answer, s)
  | .delete id =>
    let (answer, s) := store.delete now id s
    (.told answer, s)
  | .holds id =>
    let (answer, s) := store.holds now id s
    (.told answer, s)

namespace Memory

-- Memory can be asked for its size as well. Its times may be of any unit, by where its clock ends.
inductive Call where
  | ask (call : StoreCall)
  | size

def Call.id? : Call → Option String
  | .ask call => some call.id
  | .size => none

inductive Answer where
  | store (answer : StoreAnswer)
  | size (n : Nat)

def step (last now : Int) (memory : Memory) : Call → Answer × Memory
  | .ask call =>
    let (answer, memory) := (storeUntil last).ask now memory call
    (.store answer, memory)
  | .size => (.size (memory.size now), memory)

def run (last : Int) (memory : Memory) : List (Int × Call) → List Answer × Memory
  | [] => ([], memory)
  | (now, call) :: rest =>
    let (answer, memory) := step last now memory call
    let (answers, left) := run last memory rest
    (answer :: answers, left)

end Memory

structure Writing where
  bytes : Bytes
  time : Int
  keptFor : Option Nat

def Writing.VisibleAt (now : Int) (writing : Writing) : Prop :=
  ∀ length ∈ writing.keptFor, now < writing.time + length

instance (now : Int) : DecidablePred (Writing.VisibleAt now) := fun writing =>
  inferInstanceAs (Decidable (∀ length ∈ writing.keptFor, _))

def Writing.entry (writing : Writing) : Entry :=
  ⟨writing.bytes, writing.keptFor.map fun length => writing.time + length⟩

theorem Writing.expired_entry (writing : Writing) (now : Int) :
    writing.entry.expired now = !decide (writing.VisibleAt now) := by
  cases ends : writing.keptFor with
  | none => simp [entry, Entry.expired, VisibleAt, ends]
  | some length =>
    have expired : writing.entry.expired now = decide (writing.time + length ≤ now) := by
      simp [entry, Entry.expired, ends]
    have visible : writing.VisibleAt now ↔ ¬writing.time + length ≤ now := by
      simp [VisibleAt, ends]
    rw [expired, decide_eq_decide.mpr visible, decide_not, Bool.not_not]

-- The last write under each id, if it was not removed.
structure Shelf where
  under : String → Option Writing

namespace Shelf

open Memory (Call Answer)

def empty : Shelf := ⟨fun _ => none⟩

def place (shelf : Shelf) (id : String) (writing? : Option Writing) : Shelf :=
  ⟨Function.update shelf.under id writing?⟩

def seen? (shelf : Shelf) (now : Int) (id : String) : Option Bytes :=
  ((shelf.under id).filter (Writing.VisibleAt now ·)).map (·.bytes)

-- What a clock does not get to the end of is a panic, and is not written.
variable (reaches : Int → Option Nat → Bool)

noncomputable def answer (shelf : Shelf) (now : Int) : Call → Answer
  | .ask (.get id) =>
    .store (.read (match shelf.seen? now id with
      | some bytes => .ok bytes
      | none => .error (.notFound id)))
  | .ask (.set _ _ keptFor) =>
    .store (.saved (if reaches now keptFor then .ok () else .error .panic))
  | .ask (.delete id) | .ask (.holds id) => .store (.told (.ok (shelf.seen? now id).isSome))
  | .size => .size {id | (shelf.seen? now id).isSome}.ncard

def next (shelf : Shelf) (now : Int) : Call → Shelf
  | .ask (.set id bytes keptFor) =>
    if reaches now keptFor then shelf.place id (some ⟨bytes, now, keptFor⟩) else shelf
  | .ask (.delete id) => shelf.place id none
  | .ask (.get _) | .ask (.holds _) | .size => shelf

def after (shelf : Shelf) : List (Int × Call) → Shelf
  | [] => shelf
  | (now, call) :: rest => (shelf.next reaches now call).after rest

noncomputable def answers (shelf : Shelf) : List (Int × Call) → List Answer
  | [] => []
  | (now, call) :: rest =>
    shelf.answer reaches now call :: (shelf.next reaches now call).answers rest

theorem seen?_place_self (shelf : Shelf) (now : Int) (id : String) (writing? : Option Writing) :
    (shelf.place id writing?).seen? now id =
      (writing?.filter (Writing.VisibleAt now ·)).map (·.bytes) := by
  simp [seen?, place]

theorem seen?_place_of_ne (shelf : Shelf) (now : Int) {id other : String} (different : other ≠ id)
    (writing? : Option Writing) :
    (shelf.place id writing?).seen? now other = shelf.seen? now other := by
  simp [seen?, place, different]

end Shelf

namespace Memory

def Distinct (memory : Memory) : Prop := (memory.entries.map (·.1)).Nodup

def insert (id : String) (writing : Writing) (memory : Memory) : Memory :=
  ⟨(id, writing.entry) :: (memory.remove id).entries⟩

section Entries

variable {memory : Memory} {now time : Int} {id other : String} {writing : Writing}

theorem put_eq_insert (now : Int) (id : String) (bytes : Bytes) (keptFor : Option Nat) :
    memory.put now id bytes keptFor = (memory.sweep now).insert id ⟨bytes, now, keptFor⟩ := by
  cases keptFor <;> rfl

theorem Distinct.remove (distinct : memory.Distinct) (id : String) : (memory.remove id).Distinct :=
  distinct.sublist (List.filter_sublist.map _)

theorem Distinct.sweep (distinct : memory.Distinct) (now : Int) : (memory.sweep now).Distinct :=
  distinct.sublist (List.filter_sublist.map _)

theorem Distinct.insert (distinct : memory.Distinct) : (memory.insert id writing).Distinct := by
  refine List.nodup_cons.mpr ⟨fun held => ?_, distinct.remove id⟩
  obtain ⟨field, inside, same⟩ := List.mem_map.mp held
  have other := (List.mem_filter.mp inside).2
  rw [bne_iff_ne] at other
  exact other same

theorem entry?_eq_some_iff (distinct : memory.Distinct) {entry : Entry} :
    memory.entry? id = some entry ↔ (id, entry) ∈ memory.entries := by
  constructor
  · intro found
    obtain ⟨field, first, rfl⟩ := Option.map_eq_some_iff.mp found
    have same : field.1 = id := by simpa using List.find?_some first
    rw [← same]
    exact List.mem_of_find?_eq_some first
  · intro member
    have held : (memory.entries.find? (·.1 == id)).isSome :=
      List.find?_isSome.mpr ⟨_, member, beq_self_eq_true id⟩
    obtain ⟨field, first⟩ := Option.isSome_iff_exists.mp held
    have same : field.1 = id := by simpa using List.find?_some first
    have one : field = (id, entry) :=
      List.inj_on_of_nodup_map distinct (List.mem_of_find?_eq_some first) member same
    rw [ entry?, first, one]
    rfl

theorem entry?_sweep (distinct : memory.Distinct) :
    entry? (memory.sweep now) id = (memory.entry? id).filter (!·.expired now) := by
  refine Option.ext fun entry => ?_
  rw [Option.filter_eq_some_iff, entry?_eq_some_iff distinct,
    entry?_eq_some_iff (distinct.sweep now), sweep, List.mem_filter]

theorem live?_sweep (distinct : memory.Distinct) (later : now ≤ time) :
    (memory.sweep now).live? time id = memory.live? time id := by
  rw [live?, entry?_sweep distinct, Option.filter_filter, live?]
  congr 2
  funext entry
  cases gone : entry.expired now with
  | false => simp
  | true => simp [expired_later gone later]

theorem live?_insert_self : (memory.insert id writing).live? time id =
    ((some writing).filter (Writing.VisibleAt time ·)).map (·.bytes) := by
  have first : entry? (memory.insert id writing) id = some writing.entry := by
    simp [insert, entry?]
  rw [live?, first, Option.filter_some, Option.filter_some, writing.expired_entry, Bool.not_not]
  split <;> rfl

theorem live?_insert_of_ne (different : other ≠ id) :
    (memory.insert id writing).live? time other = memory.live? time other := by
  have behind : entry? (memory.insert id writing) other = entry? (memory.remove id) other := by
    simp [insert, entry?, different.symm]
  rw [live?, behind, entry?_remove_of_ne different, live?]

theorem size_eq (distinct : memory.Distinct) :
    memory.size now = {id | (memory.live? now id).isSome}.ncard := by
  have shown : {id | (memory.live? now id).isSome} =
      ↑((memory.sweep now).entries.map (·.1)).toFinset := by
    ext id
    rw [Set.mem_ofPred_eq, live?, ← entry?_sweep distinct]
    simp [ entry?]
  rw [shown, Set.ncard_coe_finset, List.toFinset_card_of_nodup (distinct.sweep now),
    List.length_map, size, List.countP_eq_length_filter, sweep]

end Entries

-- From a time on, what can be seen in memory is what stands on the shelf.
structure Shows (now : Int) (memory : Memory) (shelf : Shelf) : Prop where
  distinct : memory.Distinct
  seen : ∀ id time, now ≤ time → memory.live? time id = shelf.seen? time id

section Shows

variable {memory : Memory} {shelf : Shelf} {now : Int}

theorem shows_empty (now : Int) : Shows now {} .empty := ⟨List.nodup_nil, fun _ _ _ => rfl⟩

theorem Shows.later (shows : Shows now memory shelf) {time : Int} (passed : now ≤ time) :
    Shows time memory shelf :=
  ⟨shows.distinct, fun id _ since => shows.seen id _ (passed.trans since)⟩

theorem Shows.remove (shows : Shows now memory shelf) (id : String) :
    Shows now (memory.remove id) (shelf.place id none) := by
  refine ⟨shows.distinct.remove id, fun other time since => ?_⟩
  by_cases same : other = id
  · subst same
    rw [live?_remove_self, Shelf.seen?_place_self]
    rfl
  · rw [live?_remove_of_ne same, Shelf.seen?_place_of_ne _ _ same, shows.seen other time since]

theorem Shows.sweep (shows : Shows now memory shelf) : Shows now (memory.sweep now) shelf :=
  ⟨shows.distinct.sweep now, fun id time since =>
    (live?_sweep shows.distinct since).trans (shows.seen id time since)⟩

theorem Shows.insert (shows : Shows now memory shelf) (id : String) (writing : Writing) :
    Shows now (memory.insert id writing) (shelf.place id (some writing)) := by
  refine ⟨shows.distinct.insert, fun other time since => ?_⟩
  by_cases same : other = id
  · subst same
    rw [live?_insert_self, Shelf.seen?_place_self]
  · rw [live?_insert_of_ne same, Shelf.seen?_place_of_ne _ _ same, shows.seen other time since]

variable (last : Int)

theorem set_eq (id : String) (bytes : Bytes) (keptFor : Option Nat) :
    memory.set last now id bytes keptFor =
      if onClock last now keptFor then
        (.ok (), (memory.sweep now).insert id ⟨bytes, now, keptFor⟩)
      else (.error .panic, memory.sweep now) := by
  rw [set, put_eq_insert]

theorem Shows.set (shows : Shows now memory shelf) (id : String) (bytes : Bytes)
    (keptFor : Option Nat) :
    Shows now (memory.set last now id bytes keptFor).2
      (if onClock last now keptFor then shelf.place id (some ⟨bytes, now, keptFor⟩)
        else shelf) := by
  rw [set_eq]
  split
  · exact shows.sweep.insert id _
  · exact shows.sweep

theorem Shows.get (shows : Shows now memory shelf) (id : String) :
    Shows now (Memory.get now id memory).2 shelf := by
  refine ⟨?_, fun other time since => (live?_get since).trans (shows.seen other time since)⟩
  rw [Memory.get]
  split
  · exact shows.distinct
  · exact shows.distinct.remove id

theorem Shows.step (shows : Shows now memory shelf) (call : Call) :
    (step last now memory call).1 = shelf.answer (onClock last) now call ∧
      Shows now (step last now memory call).2 (shelf.next (onClock last) now call) := by
  have seen (id : String) : memory.live? now id = shelf.seen? now id :=
    shows.seen id now (Int.le_refl now)
  cases call with
  | size =>
    refine ⟨?_, shows⟩
    have shown : {id | (memory.live? now id).isSome} = {id | (shelf.seen? now id).isSome} := by
      simp only [seen]
    rw [Memory.step, size_eq shows.distinct, shown]
    rfl
  | ask call =>
    cases call with
    | get id =>
      refine ⟨?_, shows.get id⟩
      rw [Memory.step, Shelf.answer, ← seen]
      dsimp only [Store.ask, storeUntil, Memory.get]
      cases memory.live? now id <;> rfl
    | set id bytes keptFor =>
      refine ⟨?_, shows.set last id bytes keptFor⟩
      rw [Memory.step, Shelf.answer]
      dsimp only [Store.ask, storeUntil, Memory.set]
      split <;> rfl
    | delete id =>
      refine ⟨?_, shows.remove id⟩
      rw [Shelf.answer, ← seen]
      rfl
    | holds id =>
      refine ⟨?_, shows⟩
      rw [Shelf.answer, ← seen]
      rfl

theorem Shows.run (calls : List (Int × Call))
    (shows : ∀ time ∈ calls.map (·.1), Shows time memory shelf)
    (ordered : (calls.map (·.1)).Pairwise (· ≤ ·)) :
    (run last memory calls).1 = shelf.answers (onClock last) calls ∧
      ∀ now, (∀ time ∈ calls.map (·.1), time ≤ now) → Shows now memory shelf →
        Shows now (run last memory calls).2 (shelf.after (onClock last) calls) := by
  induction calls generalizing memory shelf with
  | nil => exact ⟨rfl, fun now _ shown => shown⟩
  | cons call rest ih =>
    obtain ⟨time, call⟩ := call
    obtain ⟨first, later⟩ := List.pairwise_cons.mp ordered
    obtain ⟨answer, next⟩ := (shows time List.mem_cons_self).step last call
    obtain ⟨answers, left⟩ := ih (fun time member => next.later (first time member)) later
    refine ⟨congrArg₂ List.cons answer answers, fun now passed _ => ?_⟩
    obtain ⟨begun, rest_passed⟩ := List.forall_mem_cons.mp passed
    exact left now rest_passed (next.later begun)

end Shows

def Alike (last now : Int) (a b : Memory) : Prop :=
  ∀ rest : List (Int × Call), (now :: rest.map (·.1)).Pairwise (· ≤ ·) →
    (run last a rest).1 = (run last b rest).1

theorem Shows.alike {a b : Memory} {shelf : Shelf} {now : Int} (left : Shows now a shelf)
    (right : Shows now b shelf) (last : Int) : Alike last now a b := by
  intro rest ordered
  obtain ⟨since, later⟩ := List.pairwise_cons.mp ordered
  have first := Shows.run last rest (fun time member => left.later (since time member)) later
  have second := Shows.run last rest (fun time member => right.later (since time member)) later
  exact first.1.trans second.1.symm

theorem Shows.frame {memory : Memory} {shelf : Shelf} {now : Int} (shows : Shows now memory shelf)
    (last : Int) {call : Call} {other : String} (different : call.id? ≠ some other) {time : Int}
    (since : now ≤ time) :
    (Memory.step last now memory call).2.live? time other = memory.live? time other := by
  have apart : ∀ id, call.id? = some id → other ≠ id := fun id about same =>
    different (same ▸ about)
  rw [(shows.step last call).2.seen other time since, shows.seen other time since]
  cases call with
  | size => rfl
  | ask call =>
    cases call with
    | get | holds => rfl
    | delete id => exact Shelf.seen?_place_of_ne _ _ (apart id rfl) _
    | set id bytes keptFor =>
      rw [Shelf.next]
      split
      · exact Shelf.seen?_place_of_ne _ _ (apart id rfl) _
      · rfl

theorem set_drops_expired {memory : Memory} {last now : Int} {id : String} {bytes : Bytes}
    {keptFor : Option Nat} :
    ∀ field ∈ (memory.set last now id bytes keptFor).2.entries, field.2.expired now = true →
      field = (id, Writing.entry ⟨bytes, now, keptFor⟩) := by
  intro field member expired
  have swept : field ∉ (memory.sweep now).entries := by
    intro held
    have stays := (List.mem_filter.mp held).2
    simp [expired] at stays
  rw [set_eq] at member
  split at member
  · rcases List.mem_cons.mp member with written | held
    · exact written
    · exact (swept (List.mem_filter.mp held).1).elim
  · exact (swept member).elim

end Memory
end PagePress
