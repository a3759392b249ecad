import PagePress.Proofs.Pipeline.History

namespace PagePress.Memory

def Lasting (memory : Memory) : Prop := ∀ field ∈ memory.entries, field.2.expiresAt = none

namespace Lasting

variable {memory : Memory} (lasting : memory.Lasting)
include lasting

theorem sweep (now : Int) : memory.sweep now = memory := by
  have every : ∀ field ∈ memory.entries, (!field.2.expired now) = true := by
    intro field member
    simp [Entry.expired, lasting field member]
  simp only [Memory.sweep, List.filter_eq_self.mpr every]

theorem live? (now : Int) (id : String) :
    memory.live? now id = (memory.entry? id).map (·.bytes) := by
  rw [Memory.live?]
  cases found : memory.entry? id with
  | none => rfl
  | some entry =>
    obtain ⟨field, first, rfl⟩ := Option.map_eq_some_iff.mp found
    have endless := lasting field (List.mem_of_find?_eq_some first)
    simp [Option.filter, Entry.expired, endless]

theorem live?_anytime (now time : Int) (id : String) :
    memory.live? now id = memory.live? time id := by
  rw [lasting.live? now, lasting.live? time]

theorem remove (id : String) : (memory.remove id).Lasting :=
  fun field member => lasting field (List.mem_of_mem_filter member)

theorem remove_of_gone {now : Int} {id : String} (gone : memory.live? now id = none) :
    memory.remove id = memory := by
  rw [lasting.live?, Option.map_eq_none_iff, entry?, Option.map_eq_none_iff,
    List.find?_eq_none] at gone
  have every : ∀ field ∈ memory.entries, (field.1 != id) = true := by
    intro field member
    simpa [bne] using gone field member
  simp only [Memory.remove, List.filter_eq_self.mpr every]

theorem get (now : Int) (id : String) :
    Memory.get now id memory =
      ((memory.live? now id).elim (.error (.notFound id)) .ok, memory) := by
  rw [Memory.get]
  split
  · rename_i bytes found
    rw [found]
    rfl
  · rename_i gone
    rw [gone, lasting.remove_of_gone gone]
    rfl

theorem put_eq (now : Int) (id : String) (bytes : Bytes) :
    memory.put now id bytes none = ⟨(id, ⟨bytes, none⟩) :: (memory.remove id).entries⟩ := by
  rw [Memory.put, lasting.sweep]
  rfl

theorem put (now : Int) (id : String) (bytes : Bytes) : (memory.put now id bytes none).Lasting := by
  rw [lasting.put_eq]
  intro field member
  rcases List.mem_cons.mp member with rfl | below
  · rfl
  · exact lasting.remove id field below

theorem live?_put (now time : Int) (id other : String) (bytes : Bytes) :
    (memory.put now id bytes none).live? time other =
      if other = id then some bytes else memory.live? time other := by
  split
  · rename_i same
    rw [same]
    exact (keeps_put memory now id bytes).live time
  · rename_i different
    rw [(lasting.put now id bytes).live?, lasting.live?, lasting.put_eq, entry?,
      List.find?_cons, beq_false_of_ne (Ne.symm different)]
    exact congrArg _ (entry?_remove_of_ne different)

end Lasting

theorem live?_remove (memory : Memory) (time : Int) (id other : String) :
    (memory.remove id).live? time other = if other = id then none else memory.live? time other := by
  split
  · rename_i same
    rw [same, live?_remove_self]
  · rename_i different
    exact live?_remove_of_ne different

end PagePress.Memory

namespace PagePress.Interleaving

open Pipeline

variable {β ι : Type}

-- What is asked for, by one caller each. The id of a registration is the one that it will give.
inductive Task where
  | register (id : String) (markup : Bytes)
  | replace (id : String) (markup : Bytes)
  | generate (request : GenerateRequest)
  | delete (id : String)

inductive Reply (β : Type) where
  | answered (answer : Except (Halt PipelineError) Envelope)
  | generated (generated : Generated β)
  | removed (answer : Except StoreError Bool)

def Task.perform (pipe : Pipeline Memory β) (now : Int) (memory : Memory) :
    Task → Reply β × Memory
  | .register id markup =>
    let (answer, memory) := pipe.register now id markup memory
    (.answered answer, memory)
  | .replace id markup =>
    let (answer, memory) := pipe.replace now id markup memory
    (.answered answer, memory)
  | .generate request =>
    let (generated, memory) := pipe.generate now request memory
    (.generated generated, memory)
  | .delete id =>
    let (answer, memory) := pipe.store.delete now id memory
    (.removed answer, memory)

-- How far a task is. Between two stages others may go on.
inductive Stage (β : Type) where
  | waiting
  | called
  -- A replacement has read under its id, and has what it is to write.
  | converted (id : String) (document : Bytes)
  | finished (reply : Reply β)
  | returned (reply : Reply β)

def Stage.reply? : Stage β → Option (Reply β)
  | .waiting | .called | .converted .. => none
  | .finished reply | .returned reply => some reply

-- Up to the first call of the store, and on to the next. Only a replacement has a second one.
def Task.begin (pipe : Pipeline Memory β) (now : Int) (memory : Memory) : Task → Stage β × Memory
  | .replace id markup =>
    if id.isEmpty then
      (.finished (.answered (.error (.fault (.client .idNeeded .missingId)))), memory)
    else
      match pipe.store.get now id memory with
      | (.error e, memory) =>
        (.finished (.answered (.error (.fault (.server .keyNotFound (.store e))))), memory)
      | (.ok _, memory) =>
        match pipe.convert markup with
        | .error e => (.finished (.answered (.error (.fault e))), memory)
        | .ok document => (.converted id document, memory)
  | task =>
    let (reply, memory) := task.perform pipe now memory
    (.finished reply, memory)

def Task.advance (pipe : Pipeline Memory β) (now : Int) (task : Task) :
    Stage β × Memory → Stage β × Memory
  | (.waiting, memory) => (.called, memory)
  | (.called, memory) => task.begin pipe now memory
  | (.converted id document, memory) =>
    let (saved, memory) := pipe.save now id document memory
    (.finished (.answered (saved.map fun () => .ok (some (idData id)))), memory)
  | (.finished reply, memory) | (.returned reply, memory) => (.returned reply, memory)

theorem Task.advance_alone (pipe : Pipeline Memory β) (now : Int) (task : Task) (memory : Memory) :
    (task.advance pipe now)^[4] (.waiting, memory) =
      (.returned (task.perform pipe now memory).1, (task.perform pipe now memory).2) := by
  cases task with
  | replace id markup =>
    let task := replace id markup
    change task.advance pipe now (task.advance pipe now (task.begin pipe now memory)) = _
    simp only [task, begin, perform, Pipeline.replace]
    by_cases unnamed : id.isEmpty
    · simp only [if_pos unnamed]
      rfl
    · simp only [if_neg unnamed]
      rcases pipe.store.get now id memory with ⟨missing | found, read⟩
      · rfl
      · cases pipe.convert markup <;> rfl
  | _ => rfl

structure Scene (β ι : Type) where
  memory : Memory
  stage : ι → Stage β

def Scene.start (memory : Memory) : Scene β ι := ⟨memory, fun _ => .waiting⟩

def move [DecidableEq ι] (pipe : Pipeline Memory β) (tasks : ι → Task) (scene : Scene β ι)
    (turn : Int × ι) : Scene β ι :=
  let (stage, memory) :=
    (tasks turn.2).advance pipe turn.1 (scene.stage turn.2, scene.memory)
  ⟨memory, Function.update scene.stage turn.2 stage⟩

def play [DecidableEq ι] (pipe : Pipeline Memory β) (tasks : ι → Task) (scene : Scene β ι)
    (moves : List (Int × ι)) : Scene β ι :=
  moves.foldl (move pipe tasks) scene

inductive Performed (pipe : Pipeline Memory β) (now : Int) (memory : Memory) :
    Task → Reply β → Memory → Prop
  | registered {id : String} {markup document : Bytes}
      (converted : pipe.convert markup = .ok document) :
      Performed pipe now memory (.register id markup) (.answered (.ok (.created (idData id))))
        (memory.put now id document none)
  | replaced {id : String} {markup stored document : Bytes} (named : id ≠ "")
      (found : memory.live? now id = some stored) (converted : pipe.convert markup = .ok document) :
      Performed pipe now memory (.replace id markup) (.answered (.ok (.ok (some (idData id)))))
        (memory.put now id document none)
  | unregistered {id : String} {markup : Bytes} {e : PipelineError}
      (failed : pipe.convert markup = .error e) :
      Performed pipe now memory (.register id markup) (.answered (.error (.fault e))) memory
  | unreplaced {id : String} {markup : Bytes} {e : PipelineError} :
      Performed pipe now memory (.replace id markup) (.answered (.error (.fault e))) memory
  | unnamed {request : GenerateRequest} (unnamed : request.id = "") :
      Performed pipe now memory (.generate request)
        (.generated (.failed (.client .idNeeded .missingId))) memory
  | unfound {request : GenerateRequest} (gone : memory.live? now request.id = none) :
      Performed pipe now memory (.generate request)
        (.generated (.failed (.server .fetchingFile (.store (.notFound request.id))))) memory
  | rendered {request : GenerateRequest} {stored : Bytes}
      (found : memory.live? now request.id = some stored) :
      Performed pipe now memory (.generate request)
        (.generated (pipe.renderStored request stored)) memory
  | deleted {id : String} :
      Performed pipe now memory (.delete id) (.removed (.ok (memory.live? now id).isSome))
        (memory.remove id)

-- Documents stay in memory for good, so the time of a move does not matter.
structure Endless (pipe : Pipeline Memory β) : Prop where
  store : pipe.store = Memory.store
  keptFor : pipe.keptFor = none

section Steps

variable {pipe : Pipeline Memory β} (endless : Endless pipe) {now : Int} {memory : Memory}
  (lasting : memory.Lasting)
include endless

theorem Endless.save (id : String) (document : Bytes) :
    pipe.save now id document memory = (.ok (), memory.put now id document none) := by
  rw [Pipeline.save, endless.store, endless.keptFor]
  rfl

theorem Endless.delete (id : String) : pipe.store.delete now id memory =
    (.ok (memory.live? now id).isSome, memory.remove id) := by
  rw [endless.store]
  rfl

include lasting

theorem Endless.get (id : String) : pipe.store.get now id memory =
    ((memory.live? now id).elim (.error (.notFound id)) .ok, memory) := by
  rw [endless.store]
  exact lasting.get now id

variable (now) in
theorem performed (task : Task) : Performed pipe now memory task
    (task.perform pipe now memory).1 (task.perform pipe now memory).2 := by
  cases task with
  | register id markup =>
    simp only [Task.perform, Pipeline.register]
    cases converted : pipe.convert markup with
    | error e => exact .unregistered converted
    | ok document =>
      simp only [endless.save]
      exact .registered converted
  | replace id markup =>
    simp only [Task.perform, Pipeline.replace, endless.get lasting]
    by_cases unnamed : id.isEmpty
    · rw [if_pos unnamed]
      exact .unreplaced
    · rw [if_neg unnamed]
      cases found : memory.live? now id with
      | none => exact .unreplaced
      | some stored =>
        simp only [Option.elim]
        cases converted : pipe.convert markup with
        | error e => exact .unreplaced
        | ok document =>
          simp only [endless.save]
          exact .replaced (by simpa using unnamed) found converted
  | generate request =>
    simp only [Task.perform, Pipeline.generate, endless.get lasting]
    by_cases unnamed : request.id.isEmpty
    · rw [if_pos unnamed]
      exact .unnamed (by simpa using unnamed)
    · rw [if_neg unnamed]
      cases found : memory.live? now request.id with
      | none => exact .unfound found
      | some stored => exact .rendered found
  | delete id =>
    simp only [Task.perform, endless.delete]
    exact .deleted

end Steps

namespace Performed

variable {pipe : Pipeline Memory β} {now : Int} {memory after : Memory} {task : Task}
  {reply : Reply β}

theorem lasting (performed : Performed pipe now memory task reply after)
    (before : memory.Lasting) : after.Lasting := by
  cases performed with
  | registered | replaced => exact before.put now _ _
  | deleted => exact before.remove _
  | unregistered | unreplaced | unnamed | unfound | rendered => exact before

theorem lost (performed : Performed pipe now memory task reply after) (before : memory.Lasting)
    {time : Int} {id : String} (there : (memory.live? time id).isSome)
    (gone : after.live? time id = none) : task = .delete id ∧ reply = .removed (.ok true) := by
  cases performed with
  | registered | replaced =>
    rw [before.live?_put] at gone
    split at gone
    · cases gone
    · rw [gone] at there
      cases there
  | deleted =>
    rename_i removed
    rw [Memory.live?_remove] at gone
    split at gone
    · rename_i same
      rw [same, before.live?_anytime time now] at there
      rw [same, there]
      exact ⟨rfl, rfl⟩
    · rw [gone] at there
      cases there
  | unregistered | unreplaced | unnamed | unfound | rendered =>
    rw [gone] at there
    cases there

theorem gained (performed : Performed pipe now memory task reply after) (before : memory.Lasting)
    {time : Int} {id : String} (none : memory.live? time id = none)
    (there : (after.live? time id).isSome) : ∃ markup, task = .register id markup := by
  cases performed with
  | registered =>
    rw [before.live?_put] at there
    split at there
    · rename_i same
      subst same
      exact ⟨_, rfl⟩
    · rw [none] at there
      cases there
  | replaced _ found =>
    rw [before.live?_put] at there
    split at there
    · rename_i same
      rw [before.live?_anytime _ time, ← same, none] at found
      cases found
    · rw [none] at there
      cases there
  | deleted =>
    rw [Memory.live?_remove] at there
    split at there
    · cases there
    · rw [none] at there
      cases there
  | unregistered | unreplaced | unnamed | unfound | rendered =>
    rw [none] at there
    cases there

theorem removed (performed : Performed pipe now memory task reply after) {id : String}
    (deletes : task = .delete id) (told : reply = .removed (.ok true)) :
    (memory.live? now id).isSome ∧ after.live? now id = none := by
  subst deletes
  cases performed
  injection told with told
  injection told with told
  exact ⟨told, Memory.live?_remove_self id⟩

theorem written (performed : Performed pipe now memory task reply after) (before : memory.Lasting)
    {time : Int} {id : String} {bytes : Bytes} (seen : after.live? time id = some bytes) :
    memory.live? time id = some bytes ∨ ∃ markup,
      (task = .register id markup ∨ task = .replace id markup) ∧
        pipe.convert markup = .ok bytes := by
  cases performed with
  | registered converted =>
    rw [before.live?_put] at seen
    split at seen
    · rename_i same
      cases seen
      subst same
      exact .inr ⟨_, .inl rfl, converted⟩
    · exact .inl seen
  | replaced _ _ converted =>
    rw [before.live?_put] at seen
    split at seen
    · rename_i same
      cases seen
      subst same
      exact .inr ⟨_, .inr rfl, converted⟩
    · exact .inl seen
  | deleted =>
    rw [Memory.live?_remove] at seen
    split at seen
    · cases seen
    · exact .inl seen
  | unregistered | unreplaced | unnamed | unfound | rendered => exact .inl seen

end Performed

inductive Advanced (pipe : Pipeline Memory β) (now : Int) (memory : Memory) (task : Task) :
    Stage β → Stage β → Memory → Prop
  | called : Advanced pipe now memory task .waiting .called memory
  | read {id : String} {markup document : Bytes} (replaces : task = .replace id markup)
      (named : id ≠ "") (found : (memory.live? now id).isSome)
      (converted : pipe.convert markup = .ok document) :
      Advanced pipe now memory task .called (.converted id document) memory
  | wrote {id : String} {document : Bytes} :
      Advanced pipe now memory task (.converted id document)
        (.finished (.answered (.ok (.ok (some (idData id)))))) (memory.put now id document none)
  | done {reply : Reply β} {after : Memory}
      (performed : task.perform pipe now memory = (reply, after)) :
      Advanced pipe now memory task .called (.finished reply) after
  | returned {reply : Reply β} :
      Advanced pipe now memory task (.finished reply) (.returned reply) memory
  | rests {reply : Reply β} :
      Advanced pipe now memory task (.returned reply) (.returned reply) memory

section Moves

variable {pipe : Pipeline Memory β} (endless : Endless pipe) {now : Int} {memory : Memory}
  (lasting : memory.Lasting)
include endless lasting

theorem advanced_begin (task : Task) : Advanced pipe now memory task .called
    (task.begin pipe now memory).1 (task.begin pipe now memory).2 := by
  cases task with
  | replace id markup =>
    by_cases unnamed : id.isEmpty
    · simp only [Task.begin, if_pos unnamed]
      refine .done ?_
      simp only [Task.perform, Pipeline.replace, if_pos unnamed]
    · cases found : memory.live? now id with
      | none =>
        simp only [Task.begin, if_neg unnamed, endless.get lasting, found, Option.elim]
        refine .done ?_
        simp only [Task.perform, Pipeline.replace, if_neg unnamed, endless.get lasting, found,
          Option.elim]
      | some stored =>
        simp only [Task.begin, if_neg unnamed, endless.get lasting, found, Option.elim]
        cases converted : pipe.convert markup with
        | error e =>
          refine .done ?_
          simp only [Task.perform, Pipeline.replace, if_neg unnamed, endless.get lasting, found,
            Option.elim, converted]
        | ok document =>
          exact .read rfl (by simpa using unnamed) (by rw [found]; rfl) converted
  | _ => exact .done rfl

theorem advanced (task : Task) (stage : Stage β) : Advanced pipe now memory task stage
    (task.advance pipe now (stage, memory)).1 (task.advance pipe now (stage, memory)).2 := by
  cases stage with
  | waiting => exact .called
  | called => exact advanced_begin endless lasting task
  | converted id document =>
    simp only [Task.advance, endless.save]
    exact .wrote
  | finished reply => exact .returned
  | returned reply => exact .rests

end Moves

theorem Task.perform_anytime {pipe : Pipeline Memory β} (endless : Endless pipe) {memory : Memory}
    (lasting : memory.Lasting) (now time : Int) (task : Task) :
    task.perform pipe now memory = task.perform pipe time memory := by
  have written (id : String) (document : Bytes) :
      memory.put now id document none = memory.put time id document none := by
    rw [lasting.put_eq, lasting.put_eq]
  have seen := lasting.live?_anytime now time
  cases task with
  | register id markup => simp only [perform, Pipeline.register, endless.save, written]
  | replace id markup =>
    simp only [perform, Pipeline.replace, endless.get lasting, endless.save, seen]
    cases memory.live? time id <;> simp only [Option.elim, written]
  | generate request => simp only [perform, Pipeline.generate, endless.get lasting, seen]
  | delete id => simp only [perform, endless.delete, seen]

-- What is held to be written is the conversion of what was asked for.
def Stage.Holds (pipe : Pipeline Memory β) (task : Task) (stage : Stage β) : Prop :=
  ∀ id document, stage = .converted id document →
    ∃ markup, task = .replace id markup ∧ id ≠ "" ∧ pipe.convert markup = .ok document

namespace Advanced

variable {pipe : Pipeline Memory β} {now : Int} {memory after : Memory} {task : Task}
  {stage next : Stage β}

theorem reply (advanced : Advanced pipe now memory task stage next after) {reply : Reply β}
    (through : stage.reply? = some reply) : next.reply? = some reply := by
  cases advanced with
  | called | read | wrote | done => cases through
  | returned | rests => exact through

theorem holds (advanced : Advanced pipe now memory task stage next after) :
    next.Holds pipe task := by
  intro id document held
  cases advanced with
  | called | wrote | done | returned | rests => cases held
  | read replaces named found converted =>
    cases held
    exact ⟨_, replaces, named, converted⟩

-- Who holds something now and did not before has just seen what it replaces.
theorem found (advanced : Advanced pipe now memory task stage next after) {id : String}
    {document : Bytes} (held : next = .converted id document) :
    (after.live? now id).isSome := by
  cases advanced with
  | called | wrote | done | returned | rests => cases held
  | read replaces named found converted =>
    cases held
    exact found

theorem unchanged (advanced : Advanced pipe now memory task stage next after)
    (same : next.reply? = stage.reply?) : after = memory := by
  cases advanced with
  | called | read | returned | rests => rfl
  | wrote | done => cases same

theorem writes (advanced : Advanced pipe now memory task stage next after) {id : String}
    {document : Bytes} (held : stage = .converted id document) (time : Int) :
    (after.live? time id).isSome := by
  cases advanced with
  | called | read | done | returned | rests => cases held
  | wrote =>
    cases held
    rw [(Memory.keeps_put memory now id document).live time]
    rfl

section Endless

variable (endless : Endless pipe) (before : memory.Lasting)
include endless before

theorem lasting (advanced : Advanced pipe now memory task stage next after) : after.Lasting := by
  cases advanced with
  | called | read | returned | rests => exact before
  | wrote => exact before.put now _ _
  | done performs =>
    have performed := performed endless now before task
    rw [performs] at performed
    exact performed.lasting before

theorem lost (advanced : Advanced pipe now memory task stage next after) {time : Int} {id : String}
    (there : (memory.live? time id).isSome) (gone : after.live? time id = none) :
    task = .delete id ∧ stage = .called ∧ next.reply? = some (.removed (.ok true)) := by
  cases advanced with
  | called | read | returned | rests =>
    rw [gone] at there
    cases there
  | wrote =>
    rw [before.live?_put] at gone
    split at gone
    · cases gone
    · rw [gone] at there
      cases there
  | done performs =>
    have performed := performed endless now before task
    rw [performs] at performed
    obtain ⟨deletes, told⟩ := performed.lost before there gone
    exact ⟨deletes, rfl, congrArg some told⟩

theorem performs (advanced : Advanced pipe now memory task stage next after)
    (holds : stage.Holds pipe task)
    (found : ∀ id document, stage = .converted id document → (memory.live? now id).isSome)
    {reply : Reply β} (under : stage.reply? = none) (through : next.reply? = some reply) :
    task.perform pipe now memory = (reply, after) := by
  cases advanced with
  | called | read => cases through
  | returned | rests => cases under
  | done performs =>
    cases through
    exact performs
  | wrote =>
    rename_i id document
    cases through
    obtain ⟨markup, rfl, named, converted⟩ := holds id document rfl
    obtain ⟨stored, there⟩ := Option.isSome_iff_exists.mp (found id document rfl)
    have unnamed : ¬id.isEmpty := by simpa using named
    simp only [Task.perform, Pipeline.replace, if_neg unnamed, endless.get before, there,
      Option.elim, converted, endless.save]
    rfl

omit before in
theorem removes (advanced : Advanced pipe now memory task stage next after) {id : String}
    (deletes : task = .delete id) (called : stage = .called)
    (there : (memory.live? now id).isSome) :
    next.reply? = some (.removed (.ok true)) := by
  subst deletes
  cases advanced with
  | called | wrote | returned | rests => cases called
  | read replaces => cases replaces
  | done performs =>
    rw [Task.perform, endless.delete, there] at performs
    cases performs
    rfl

theorem written (advanced : Advanced pipe now memory task stage next after)
    (holds : stage.Holds pipe task) {time : Int} {id : String} {bytes : Bytes}
    (seen : after.live? time id = some bytes) :
    memory.live? time id = some bytes ∨ ∃ markup,
      (task = .register id markup ∨ task = .replace id markup) ∧
        pipe.convert markup = .ok bytes := by
  cases advanced with
  | called | read | returned | rests => exact .inl seen
  | done performs =>
    have performed := performed endless now before task
    rw [performs] at performed
    exact performed.written before seen
  | wrote =>
    obtain ⟨markup, replaces, -, converted⟩ := holds _ _ rfl
    rw [before.live?_put] at seen
    split at seen
    · rename_i same
      cases seen
      subst same
      exact .inr ⟨markup, .inr replaces, converted⟩
    · exact .inl seen

end Endless

end Advanced

section Course

variable [DecidableEq ι] {pipe : Pipeline Memory β} {tasks : ι → Task}

theorem play_concat (scene : Scene β ι) (moves : List (Int × ι)) (turn : Int × ι) :
    play pipe tasks scene (moves ++ [turn]) =
      move pipe tasks (play pipe tasks scene moves) turn := by
  rw [play, List.foldl_append]
  rfl

theorem play_append (scene : Scene β ι) (before after : List (Int × ι)) :
    play pipe tasks scene (before ++ after) =
      play pipe tasks (play pipe tasks scene before) after :=
  List.foldl_append

variable (endless : Endless pipe)

theorem stage_move_of_ne (scene : Scene β ι) (turn : Int × ι) {i : ι} (other : i ≠ turn.2) :
    (move pipe tasks scene turn).stage i = scene.stage i :=
  Function.update_of_ne other ..

include endless

variable (tasks) in
theorem move_advanced {scene : Scene β ι} (lasting : scene.memory.Lasting) (turn : Int × ι) :
    Advanced pipe turn.1 scene.memory (tasks turn.2) (scene.stage turn.2)
      ((move pipe tasks scene turn).stage turn.2) (move pipe tasks scene turn).memory := by
  simp only [move, Function.update_self]
  exact advanced endless lasting (tasks turn.2) (scene.stage turn.2)

structure Sound (pipe : Pipeline Memory β) (tasks : ι → Task) (scene : Scene β ι) : Prop where
  lasting : scene.memory.Lasting
  holds : ∀ i, (scene.stage i).Holds pipe (tasks i)

theorem Sound.after_move {scene : Scene β ι} (sound : Sound pipe tasks scene) (turn : Int × ι) :
    Sound pipe tasks (move pipe tasks scene turn) := by
  have advanced := move_advanced tasks endless sound.lasting turn
  refine ⟨advanced.lasting endless sound.lasting, fun i => ?_⟩
  by_cases same : i = turn.2
  · rw [same]
    exact advanced.holds
  · rw [stage_move_of_ne scene turn same]
    exact sound.holds i

theorem Sound.after_play {scene : Scene β ι} (sound : Sound pipe tasks scene)
    (moves : List (Int × ι)) :
    Sound pipe tasks (play pipe tasks scene moves) := by
  induction moves generalizing scene with
  | nil => exact sound
  | cons turn rest ih => exact ih (sound.after_move endless turn)

omit endless [DecidableEq ι] in
theorem sound_start {memory : Memory} (lasting : memory.Lasting) :
    Sound pipe tasks (.start memory) :=
  ⟨lasting, fun _ _ _ held => nomatch held⟩

theorem Sound.reply_after {scene : Scene β ι} (sound : Sound pipe tasks scene)
    (moves : List (Int × ι)) {i : ι} {reply : Reply β}
    (through : (scene.stage i).reply? = some reply) :
    ((play pipe tasks scene moves).stage i).reply? = some reply := by
  induction moves generalizing scene with
  | nil => exact through
  | cons turn rest ih =>
    refine ih (sound.after_move endless turn) ?_
    by_cases same : i = turn.2
    · subst same
      exact (move_advanced tasks endless sound.lasting turn).reply through
    · rw [stage_move_of_ne scene turn same]
      exact through

end Course

end PagePress.Interleaving
