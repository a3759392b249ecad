import PagePress.Proofs.Pipeline.Interleaving

namespace PagePress.Interleaving

open Pipeline

variable {β ι : Type}

def serial (pipe : Pipeline Memory β) (now : Int) (tasks : ι → Task) (memory : Memory) :
    List ι → List (ι × Reply β) × Memory
  | [] => ([], memory)
  | i :: rest =>
    let (reply, memory) := (tasks i).perform pipe now memory
    let (replies, last) := serial pipe now tasks memory rest
    ((i, reply) :: replies, last)

section Statement

variable [DecidableEq ι] (pipe : Pipeline Memory β) (tasks : ι → Task) (memory : Memory)

def Precedes (moves : List (Int × ι)) (i j : ι) : Prop :=
  ∃ before after reply, moves = before ++ after ∧
    (play pipe tasks (.start memory) before).stage i = .returned reply ∧
    (play pipe tasks (.start memory) before).stage j = .waiting

-- The order has each task that is through, once; one after the other they give the same replies and
-- leave the same documents; and none comes before one that was over when it was called.
structure Linearizes (now : Int) (moves : List (Int × ι)) (order : List ι) : Prop where
  once : order.Nodup
  replies : ∀ i reply, (i, reply) ∈ (serial pipe now tasks memory order).1 ↔
    ((play pipe tasks (.start memory) moves).stage i).reply? = some reply
  documents : ∀ time id, (serial pipe now tasks memory order).2.live? time id =
    (play pipe tasks (.start memory) moves).memory.live? time id
  respects : order.Pairwise fun earlier later => ¬Precedes pipe tasks memory moves later earlier

-- What is removed is never between the read and the write of a replacement.
def Quiet (moves : List (Int × ι)) : Prop :=
  ∀ before now j after id i document, moves = before ++ (now, j) :: after →
    let scene := play pipe tasks (.start memory) before
    tasks j = .delete id → scene.stage j = .called → scene.stage i = .converted id document →
      scene.memory.live? now id = none

def Complete (moves : List (Int × ι)) : Prop :=
  ∀ i, (play pipe tasks (.start memory) moves).stage i = .waiting ∨
    ∃ reply, (play pipe tasks (.start memory) moves).stage i = .returned reply

-- The whole of what was there at first, or of what a task has for the id.
def Version (id : String) (bytes : Bytes) : Prop :=
  (∃ time, memory.live? time id = some bytes) ∨
    ∃ i markup, (tasks i = .register id markup ∨ tasks i = .replace id markup) ∧
      pipe.convert markup = .ok bytes

structure Fresh : Prop where
  apart : ∀ i j id first second,
    tasks i = .register id first → tasks j = .register id second → i = j
  unused : ∀ i id markup time, tasks i = .register id markup → memory.live? time id = none

end Statement

section Serial

variable {pipe : Pipeline Memory β} {now : Int} {tasks : ι → Task}

theorem serial_concat (memory : Memory) (order : List ι) (i : ι) :
    serial pipe now tasks memory (order ++ [i]) =
      ((serial pipe now tasks memory order).1 ++
        [(i, ((tasks i).perform pipe now (serial pipe now tasks memory order).2).1)],
        ((tasks i).perform pipe now (serial pipe now tasks memory order).2).2) := by
  induction order generalizing memory with
  | nil => rfl
  | cons first rest ih => simp only [List.cons_append, serial, ih]

variable (pipe now tasks) in
theorem exists_mem_serial {memory : Memory} {order : List ι} {i : ι} (member : i ∈ order) :
    ∃ reply, (i, reply) ∈ (serial pipe now tasks memory order).1 := by
  induction order generalizing memory with
  | nil => cases member
  | cons first rest ih =>
    rcases List.mem_cons.mp member with rfl | later
    · exact ⟨_, .head _⟩
    · obtain ⟨reply, told⟩ := ih later
      exact ⟨reply, .tail _ told⟩

def Removes (tasks : ι → Task) (id : String) (i : ι) (reply : Reply β) : Prop :=
  tasks i = .delete id ∧ reply = .removed (.ok true)

variable (endless : Endless pipe)
include endless

theorem serial_barren {id : String} {order : List ι} {memory : Memory} (lasting : memory.Lasting)
    (gone : memory.live? now id = none)
    (unregistered : ∀ i ∈ order, ∀ markup, tasks i ≠ .register id markup) :
    (serial pipe now tasks memory order).2.live? now id = none ∧
      ∀ i reply, (i, reply) ∈ (serial pipe now tasks memory order).1 →
        ¬Removes tasks id i reply := by
  induction order generalizing memory with
  | nil => exact ⟨gone, fun _ _ replied => nomatch replied⟩
  | cons first rest ih =>
    have performed := performed endless now lasting (tasks first)
    have still : ((tasks first).perform pipe now memory).2.live? now id = none := by
      by_contra there
      obtain ⟨markup, registers⟩ :=
        performed.gained lasting gone (Option.isSome_iff_ne_none.mpr there)
      exact unregistered first (.head _) markup registers
    obtain ⟨last, others⟩ := ih (performed.lasting lasting) still
      fun i member => unregistered i (.tail _ member)
    refine ⟨last, fun i reply replied removes => ?_⟩
    rcases List.mem_cons.mp replied with same | later
    · cases same
      obtain ⟨there, -⟩ := performed.removed removes.1 removes.2
      rw [gone] at there
      cases there
    · exact others i reply later removes

theorem serial_removed (apart : ∀ i j id first second,
      tasks i = .register id first → tasks j = .register id second → i = j)
    {id : String} {order : List ι} (once : order.Nodup) {memory : Memory} (lasting : memory.Lasting)
    (unregistered : (memory.live? now id).isSome →
      ∀ i ∈ order, ∀ markup, tasks i ≠ .register id markup)
    {i : ι} {reply : Reply β} (replied : (i, reply) ∈ (serial pipe now tasks memory order).1)
    (removes : Removes tasks id i reply) :
    (serial pipe now tasks memory order).2.live? now id = none ∧
      ∀ j other, (j, other) ∈ (serial pipe now tasks memory order).1 →
        Removes tasks id j other → j = i := by
  induction order generalizing memory with
  | nil => cases replied
  | cons first rest ih =>
    obtain ⟨new, distinct⟩ := List.nodup_cons.mp once
    have performed := performed endless now lasting (tasks first)
    have after := performed.lasting lasting
    by_cases taken : Removes tasks id first ((tasks first).perform pipe now memory).1
    · -- The first of them takes it away, so that nothing is left for the rest.
      obtain ⟨there, gone⟩ := performed.removed taken.1 taken.2
      obtain ⟨last, others⟩ := serial_barren endless after gone
        fun j member => unregistered there j (.tail _ member)
      have only : ∀ j other, (j, other) ∈ (serial pipe now tasks memory (first :: rest)).1 →
          Removes tasks id j other → j = first := by
        intro j other told taken
        rcases List.mem_cons.mp told with same | later
        · exact congrArg Prod.fst same
        · exact absurd taken (others j other later)
      rw [only i reply replied removes]
      exact ⟨last, only⟩
    · have later : ∀ j other, (j, other) ∈ (serial pipe now tasks memory (first :: rest)).1 →
          Removes tasks id j other →
          (j, other) ∈
            (serial pipe now tasks ((tasks first).perform pipe now memory).2 rest).1 := by
        intro j other told takes
        rcases List.mem_cons.mp told with same | later
        · cases same
          exact absurd takes taken
        · exact later
      have still : (((tasks first).perform pipe now memory).2.live? now id).isSome →
          ∀ j ∈ rest, ∀ markup, tasks j ≠ .register id markup := by
        intro there j member markup registers
        cases before : memory.live? now id with
        | some stored =>
          exact unregistered (before ▸ rfl) j (.tail _ member) markup registers
        | none =>
          obtain ⟨own, registered⟩ := performed.gained lasting before there
          exact new (apart first j id own markup registered registers ▸ member)
      obtain ⟨last, others⟩ := ih distinct after still (later i reply replied removes)
      exact ⟨last, fun j other told takes => others j other (later j other told takes) takes⟩

end Serial

section Forward

variable [DecidableEq ι] {pipe : Pipeline Memory β} {tasks : ι → Task} {memory : Memory}

theorem Precedes.concat {moves : List (Int × ι)} {turn : Int × ι} {i j : ι}
    (precedes : Precedes pipe tasks memory (moves ++ [turn]) i j) :
    Precedes pipe tasks memory moves i j ∨
      (play pipe tasks (.start memory) (moves ++ [turn])).stage j = .waiting := by
  obtain ⟨before, after, reply, split, returned, waiting⟩ := precedes
  rcases List.eq_nil_or_concat' after with rfl | ⟨middle, last, rfl⟩
  · rw [List.append_nil] at split
    rw [split]
    exact .inr waiting
  · rw [← List.append_assoc] at split
    exact .inl ⟨before, middle, reply, (List.append_inj' split rfl).1, returned, waiting⟩

theorem Quiet.earlier {before after : List (Int × ι)}
    (quiet : Quiet pipe tasks memory (before ++ after)) : Quiet pipe tasks memory before := by
  intro first now j rest id i document split
  exact quiet first now j (rest ++ after) id i document (by rw [split]; simp)

theorem ne_waiting_of_reply {stage : Stage β} {reply : Reply β}
    (through : stage.reply? = some reply) :
    stage ≠ .waiting := by
  rintro rfl
  cases through

structure Explains (pipe : Pipeline Memory β) (now : Int) (tasks : ι → Task) (memory : Memory)
    (scene : Scene β ι) (order : List ι) : Prop where
  once : order.Nodup
  replies : ∀ i reply, (i, reply) ∈ (serial pipe now tasks memory order).1 ↔
    (scene.stage i).reply? = some reply
  documents : (serial pipe now tasks memory order).2 = scene.memory
  -- What is being replaced is still there.
  found : ∀ i id document time, scene.stage i = .converted id document →
    (scene.memory.live? time id).isSome

omit [DecidableEq ι] in
theorem explains_start (now : Int) :
    Explains pipe now tasks memory (.start memory) [] := by
  refine ⟨.nil, fun i reply => ⟨nofun, nofun⟩, rfl, fun i id document time held => nomatch held⟩

variable (endless : Endless pipe)
include endless

theorem Explains.found_move {now : Int} {scene : Scene β ι} {order : List ι}
    (explains : Explains pipe now tasks memory scene order) (sound : Sound pipe tasks scene)
    (turn : Int × ι)
    (quiet : ∀ id i document, tasks turn.2 = .delete id → scene.stage turn.2 = .called →
      scene.stage i = .converted id document → scene.memory.live? turn.1 id = none)
    (i : ι) (id : String) (document : Bytes) (time : Int)
    (held : (move pipe tasks scene turn).stage i = .converted id document) :
    ((move pipe tasks scene turn).memory.live? time id).isSome := by
  have advanced := move_advanced tasks endless sound.lasting turn
  have lasting := (sound.after_move endless turn).lasting
  by_cases same : i = turn.2
  · subst same
    rw [lasting.live?_anytime time turn.1]
    exact advanced.found held
  · rw [stage_move_of_ne scene turn same] at held
    have there := explains.found i id document time held
    by_contra gone
    obtain ⟨deletes, called, -⟩ := advanced.lost endless sound.lasting there
      (Option.not_isSome_iff_eq_none.mp gone)
    rw [sound.lasting.live?_anytime time turn.1, quiet id i document deletes called held] at there
    cases there

theorem Explains.move {now : Int} {scene : Scene β ι} {order : List ι}
    (explains : Explains pipe now tasks memory scene order) (sound : Sound pipe tasks scene)
    (turn : Int × ι)
    (quiet : ∀ id i document, tasks turn.2 = .delete id → scene.stage turn.2 = .called →
      scene.stage i = .converted id document → scene.memory.live? turn.1 id = none) :
    ∃ longer, Explains pipe now tasks memory (move pipe tasks scene turn) longer ∧
      (longer = order ∨ longer = order ++ [turn.2] ∧ (scene.stage turn.2).reply? = none) := by
  have advanced := move_advanced tasks endless sound.lasting turn
  have found := explains.found_move endless sound turn quiet
  by_cases same : ((Interleaving.move pipe tasks scene turn).stage turn.2).reply? =
      (scene.stage turn.2).reply?
  · refine ⟨order, ⟨explains.once, fun i reply => ?_, ?_, found⟩, .inl rfl⟩
    · rw [explains.replies]
      by_cases mover : i = turn.2
      · rw [mover, same]
      · rw [stage_move_of_ne scene turn mover]
    · rw [explains.documents, advanced.unchanged same]
  · have under : (scene.stage turn.2).reply? = none := by
      by_contra through
      obtain ⟨reply, through⟩ := Option.ne_none_iff_exists'.mp through
      exact same ((advanced.reply through).trans through.symm)
    obtain ⟨reply, through⟩ :=
      Option.ne_none_iff_exists'.mp fun still => same (still.trans under.symm)
    have performs := advanced.performs endless sound.lasting (sound.holds turn.2)
      (fun id document held => explains.found turn.2 id document turn.1 held) under through
    rw [Task.perform_anytime endless sound.lasting turn.1 now] at performs
    have new : turn.2 ∉ order := by
      intro member
      obtain ⟨early, told⟩ := exists_mem_serial pipe now tasks member
      cases under.symm.trans ((explains.replies turn.2 early).mp told)
    refine ⟨order ++ [turn.2], ⟨?_, fun i other => ?_, ?_, found⟩, .inr ⟨rfl, under⟩⟩
    · exact explains.once.append (List.nodup_singleton _) (by simpa using new)
    · rw [serial_concat, explains.documents, performs, List.mem_append, explains.replies,
        List.mem_singleton, Prod.mk.injEq]
      by_cases mover : i = turn.2
      · subst mover
        simp [under, through, eq_comm]
      · simp [mover, stage_move_of_ne scene turn mover]
    · rw [serial_concat, explains.documents, performs]

theorem exists_explains (lasting : memory.Lasting) (now : Int) {moves : List (Int × ι)}
    (quiet : Quiet pipe tasks memory moves) :
    ∃ order, Explains pipe now tasks memory (play pipe tasks (.start memory) moves) order ∧
      order.Pairwise fun earlier later => ¬Precedes pipe tasks memory moves later earlier := by
  induction moves using List.reverseRecOn with
  | nil => exact ⟨[], explains_start now, .nil⟩
  | append_singleton moves turn ih =>
    obtain ⟨order, explains, ordered⟩ := ih quiet.earlier
    have sound : Sound pipe tasks (play pipe tasks (.start memory) moves) :=
      (sound_start lasting).after_play endless moves
    obtain ⟨longer, explains, grown⟩ := explains.move endless sound turn
      fun id i document => quiet moves turn.1 turn.2 [] id i document rfl
    rw [← play_concat] at explains
    have called : ∀ i ∈ longer,
        (play pipe tasks (.start memory) (moves ++ [turn])).stage i ≠ .waiting := by
      intro i member
      obtain ⟨reply, told⟩ := exists_mem_serial pipe now tasks member
      exact ne_waiting_of_reply ((explains.replies i reply).mp told)
    refine ⟨longer, explains, ?_⟩
    have still : (∀ i ∈ order, i ∈ longer) → order.Pairwise fun earlier later =>
        ¬Precedes pipe tasks memory (moves ++ [turn]) later earlier := by
      intro inside
      refine ordered.imp_of_mem fun member _ apart precedes => ?_
      rcases precedes.concat with before | waiting
      · exact apart before
      · exact called _ (inside _ member) waiting
    rcases grown with rfl | ⟨rfl, under⟩
    · exact still fun _ member => member
    · refine List.pairwise_append.mpr
        ⟨still fun _ => List.mem_append_left _, List.pairwise_singleton .., ?_⟩
      rintro i member j last precedes
      obtain rfl := List.mem_singleton.mp last
      rcases precedes.concat with ⟨before, after, reply, split, returned, -⟩ | waiting
      · -- Who is through only now had no reply before.
        have early := congrArg Stage.reply? returned
        have through :=
          ((sound_start lasting).after_play endless before).reply_after endless after early
        rw [← play_append, ← split, under] at through
        cases through
      · exact called i (List.mem_append_left _ member) waiting

end Forward

section Backward

variable [DecidableEq ι] {pipe : Pipeline Memory β} {tasks : ι → Task} (endless : Endless pipe)
include endless

-- A document that is there, or is about to be written, is there at the end or is removed later.
theorem there_or_removed {scene : Scene β ι} (sound : Sound pipe tasks scene) (time : Int)
    {id : String} {i : ι}
    (there : (∃ document, scene.stage i = .converted id document) ∨
      (scene.memory.live? time id).isSome)
    {moves : List (Int × ι)}
    (done : ∀ document, (play pipe tasks scene moves).stage i ≠ .converted id document) :
    ((play pipe tasks scene moves).memory.live? time id).isSome ∨
      ∃ j reply, (scene.stage j).reply? = none ∧
        ((play pipe tasks scene moves).stage j).reply? = some reply ∧ Removes tasks id j reply := by
  induction moves generalizing scene with
  | nil =>
    rcases there with ⟨document, held⟩ | there
    · exact absurd held (done document)
    · exact .inl there
  | cons turn rest ih =>
    have advanced := move_advanced tasks endless sound.lasting turn
    have after := sound.after_move endless turn
    -- Who has no reply after this move has none before it.
    have under : ∀ j, ((move pipe tasks scene turn).stage j).reply? = none →
        (scene.stage j).reply? = none := by
      intro j none
      cases before : (scene.stage j).reply? with
      | none => rfl
      | some reply => cases none.symm.trans (sound.reply_after endless [turn] before)
    have onward : (∃ document, (move pipe tasks scene turn).stage i = .converted id document) ∨
        ((move pipe tasks scene turn).memory.live? time id).isSome →
        ((play pipe tasks scene (turn :: rest)).memory.live? time id).isSome ∨
          ∃ j reply, (scene.stage j).reply? = none ∧
            ((play pipe tasks scene (turn :: rest)).stage j).reply? = some reply ∧
            Removes tasks id j reply := by
      intro there
      rcases ih after there done with last | ⟨j, reply, none, told, removes⟩
      · exact .inl last
      · exact .inr ⟨j, reply, under j none, told, removes⟩
    rcases there with ⟨document, held⟩ | there
    · by_cases mover : i = turn.2
      · subst mover
        exact onward (.inr (advanced.writes held time))
      · refine onward (.inl ⟨document, ?_⟩)
        rw [stage_move_of_ne scene turn mover]
        exact held
    · cases still : (move pipe tasks scene turn).memory.live? time id with
      | some stored => exact onward (.inr (still ▸ rfl))
      | none =>
        obtain ⟨deletes, called, told⟩ := advanced.lost endless sound.lasting there still
        refine .inr ⟨turn.2, _, ?_, after.reply_after endless rest told, deletes, rfl⟩
        rw [called]
        rfl

variable {memory : Memory}

theorem quiet_of_linearizes (lasting : memory.Lasting) (fresh : Fresh tasks memory) {now : Int}
    {moves : List (Int × ι)} (complete : Complete pipe tasks memory moves) {order : List ι}
    (linearizes : Linearizes pipe tasks memory now moves order) :
    Quiet pipe tasks memory moves := by
  intro before time j after id i document split scene deletes called held
  by_contra there
  have sound : Sound pipe tasks scene := (sound_start lasting).after_play endless before
  have advanced := move_advanced tasks endless sound.lasting (time, j)
  have told := advanced.removes endless deletes called (Option.isSome_iff_ne_none.mpr there)
  have other : i ≠ j := by
    rintro rfl
    cases held.symm.trans called
  have held : (move pipe tasks scene (time, j)).stage i = .converted id document :=
    (stage_move_of_ne scene (time, j) other).trans held
  have onward := sound.after_move endless (time, j)
  have last : play pipe tasks (.start memory) moves =
      play pipe tasks (move pipe tasks scene (time, j)) after := by
    rw [split, play_append]
    rfl
  have done : ∀ document,
      (play pipe tasks (move pipe tasks scene (time, j)) after).stage i ≠
        .converted id document := by
    rw [← last]
    intro document held
    rcases complete i with waiting | ⟨reply, returned⟩
    · cases held.symm.trans waiting
    · cases held.symm.trans returned
  have first := (linearizes.replies j _).mpr (last ▸ onward.reply_after endless after told)
  obtain ⟨gone, only⟩ := serial_removed endless fresh.apart linearizes.once lasting
    (fun there i _ markup registers => by
      rw [fresh.unused i id markup now registers] at there
      cases there)
    first ⟨deletes, rfl⟩
  rcases there_or_removed endless onward now (.inl ⟨document, held⟩) done with there |
    ⟨k, reply, under, through, removes⟩
  · rw [← last, ← linearizes.documents, gone] at there
    cases there
  · have same := only k reply ((linearizes.replies k reply).mpr (last ▸ through)) removes
    rw [same] at under
    cases under.symm.trans told

theorem gone_of_removed (lasting : memory.Lasting) (fresh : Fresh tasks memory)
    {moves : List (Int × ι)} (quiet : Quiet pipe tasks memory moves) {i : ι} {id : String}
    (deletes : tasks i = .delete id)
    (told : ((play pipe tasks (.start memory) moves).stage i).reply? = some (.removed (.ok true)))
    (time : Int) : (play pipe tasks (.start memory) moves).memory.live? time id = none := by
  obtain ⟨order, explains, -⟩ := exists_explains endless lasting time quiet
  rw [← explains.documents]
  refine (serial_removed endless fresh.apart explains.once lasting
    (fun there i _ markup registers => ?_)
    ((explains.replies i _).mpr told) ⟨deletes, rfl⟩).1
  rw [fresh.unused i id markup time registers] at there
  cases there

end Backward

section Versions

variable [DecidableEq ι] {pipe : Pipeline Memory β} {tasks : ι → Task} {memory : Memory}

def Renders (pipe : Pipeline Memory β) (tasks : ι → Task) (memory : Memory)
    (request : GenerateRequest) (reply : Reply β) : Prop :=
  (request.id = "" ∧ reply = .generated (.failed (.client .idNeeded .missingId))) ∨
  reply = .generated (.failed (.server .fetchingFile (.store (.notFound request.id)))) ∨
  ∃ stored, Version pipe tasks memory request.id stored ∧
    reply = .generated (pipe.renderStored request stored)

structure Versioned (pipe : Pipeline Memory β) (tasks : ι → Task) (memory : Memory)
    (scene : Scene β ι) : Prop where
  version : ∀ time id bytes, scene.memory.live? time id = some bytes →
    Version pipe tasks memory id bytes
  renders : ∀ i request reply, tasks i = .generate request → (scene.stage i).reply? = some reply →
    Renders pipe tasks memory request reply

omit [DecidableEq ι] in
theorem Performed.renders {now : Int} {held after : Memory} {request : GenerateRequest}
    {reply : Reply β} (performed : Performed pipe now held (.generate request) reply after)
    (version : ∀ bytes, held.live? now request.id = some bytes →
      Version pipe tasks memory request.id bytes) : Renders pipe tasks memory request reply := by
  cases performed with
  | unnamed unnamed => exact .inl ⟨unnamed, rfl⟩
  | unfound => exact .inr (.inl rfl)
  | rendered found => exact .inr (.inr ⟨_, version _ found, rfl⟩)

variable (endless : Endless pipe)
include endless

theorem Versioned.move {scene : Scene β ι} (versioned : Versioned pipe tasks memory scene)
    (sound : Sound pipe tasks scene) (turn : Int × ι) :
    Versioned pipe tasks memory (move pipe tasks scene turn) := by
  have advanced := move_advanced tasks endless sound.lasting turn
  constructor
  · intro time id bytes seen
    rcases advanced.written endless sound.lasting (sound.holds turn.2) seen with before |
      ⟨markup, given, converted⟩
    · exact versioned.version time id bytes before
    · exact .inr ⟨turn.2, markup, given, converted⟩
  · intro i request reply generates through
    by_cases mover : i = turn.2
    · subst mover
      cases under : (scene.stage turn.2).reply? with
      | some early =>
        cases (advanced.reply under).symm.trans through
        exact versioned.renders turn.2 request _ generates under
      | none =>
        -- A generation holds nothing, so it is done in one piece.
        have holdsNothing : ∀ id document, scene.stage turn.2 ≠ .converted id document := by
          intro id document held
          obtain ⟨markup, replaces, -⟩ := sound.holds turn.2 id document held
          cases generates.symm.trans replaces
        have performs := advanced.performs endless sound.lasting (sound.holds turn.2)
          (fun id document held => absurd held (holdsNothing id document)) under through
        have performed := performed endless turn.1 sound.lasting (tasks turn.2)
        rw [performs, generates] at performed
        exact performed.renders (versioned.version turn.1 request.id)
    · rw [stage_move_of_ne scene turn mover] at through
      exact versioned.renders i request reply generates through

theorem versioned_play (lasting : memory.Lasting) (moves : List (Int × ι)) :
    Versioned pipe tasks memory (play pipe tasks (.start memory) moves) := by
  induction moves using List.reverseRecOn with
  | nil =>
    exact ⟨fun time id bytes seen => .inl ⟨time, seen⟩, fun i request reply _ told => nomatch told⟩
  | append_singleton moves turn ih =>
    rw [play_concat]
    exact ih.move endless ((sound_start lasting).after_play endless moves) turn

end Versions

theorem linearizable_iff_quiet [DecidableEq ι] {pipe : Pipeline Memory β} {tasks : ι → Task}
    {memory : Memory} (endless : Endless pipe) (lasting : memory.Lasting)
    (fresh : Fresh tasks memory) {moves : List (Int × ι)}
    (complete : Complete pipe tasks memory moves) (now : Int) :
    ((∃ order, Linearizes pipe tasks memory now moves order) ↔ Quiet pipe tasks memory moves) ∧
    (∀ i request reply, tasks i = .generate request →
      (play pipe tasks (.start memory) moves).stage i = .returned reply →
      Renders pipe tasks memory request reply) ∧
    (Quiet pipe tasks memory moves → ∀ before after i id, moves = before ++ after →
      tasks i = .delete id →
      ((play pipe tasks (.start memory) before).stage i).reply? = some (.removed (.ok true)) →
      ∀ time, (play pipe tasks (.start memory) before).memory.live? time id = none) := by
  refine ⟨⟨?_, fun quiet => ?_⟩, fun i request reply generates returned => ?_,
    fun quiet before after i id split deletes told time => ?_⟩
  · rintro ⟨order, linearizes⟩
    exact quiet_of_linearizes endless lasting fresh complete linearizes
  · obtain ⟨order, explains, ordered⟩ := exists_explains endless lasting now quiet
    refine ⟨order, explains.once, explains.replies, fun time id => ?_, ordered⟩
    rw [explains.documents]
  · have told := congrArg Stage.reply? returned
    exact (versioned_play endless lasting moves).renders i request reply generates told
  · rw [split] at quiet
    exact gone_of_removed endless lasting fresh quiet.earlier deletes told time

theorem endless_relay : Endless relay := ⟨rfl, rfl⟩

theorem lasting_empty : Memory.Lasting {} := nofun

def overlapping : Fin 4 → Task
  | 0 => .register "a" [72]
  | 1 => .replace "a" [73]
  | 2 => .replace "a" [74]
  | 3 => .generate ⟨"a", []⟩

def overlappingMoves : List (Int × Fin 4) :=
  [(0, 0), (0, 0), (0, 0), (1, 1), (1, 1), (2, 2), (2, 2), (2, 2), (3, 3), (3, 3), (3, 3), (5, 1),
    (5, 1), (5, 2)]

theorem fresh_overlapping : Fresh overlapping {} := by
  refine ⟨fun i j id first second => ?_, fun i id markup time _ => rfl⟩
  fin_cases i <;> fin_cases j <;> simp [overlapping]

theorem complete_overlapping : Complete relay overlapping {} overlappingMoves
  | 0 => .inr ⟨.answered (.ok (.created (idData "a"))), rfl⟩
  | 1 => .inr ⟨.answered (.ok (.ok (some (idData "a")))), rfl⟩
  | 2 => .inr ⟨.answered (.ok (.ok (some (idData "a")))), rfl⟩
  | 3 => .inr ⟨.generated (relay.renderStored ⟨"a", []⟩ (Renderer.newDocument [74]).encode), rfl⟩

theorem quiet_overlapping : Quiet relay overlapping {} overlappingMoves := by
  intro before now j after id i document split scene deletes
  fin_cases j <;> cases deletes

theorem linearizable_overlapping :
    Endless relay ∧ Memory.Lasting {} ∧ Fresh overlapping {} ∧
      Complete relay overlapping {} overlappingMoves ∧
      ∃ order, Linearizes relay overlapping {} 0 overlappingMoves order :=
  ⟨endless_relay, lasting_empty, fresh_overlapping, complete_overlapping,
    (linearizable_iff_quiet endless_relay lasting_empty fresh_overlapping complete_overlapping
      0).1.mpr quiet_overlapping⟩

-- A document is removed after the replacement read it and before it writes.
def undercut : Fin 3 → Task
  | 0 => .register "a" [72]
  | 1 => .replace "a" [73]
  | 2 => .delete "a"

def undercutMoves : List (Int × Fin 3) :=
  [(0, 0), (0, 0), (0, 0), (1, 1), (1, 1), (2, 2), (2, 2), (2, 2), (3, 1), (3, 1)]

theorem fresh_undercut : Fresh undercut {} := by
  refine ⟨fun i j id first second => ?_, fun i id markup time _ => rfl⟩
  fin_cases i <;> fin_cases j <;> simp [undercut]

theorem complete_undercut : Complete relay undercut {} undercutMoves
  | 0 => .inr ⟨.answered (.ok (.created (idData "a"))), rfl⟩
  | 1 => .inr ⟨.answered (.ok (.ok (some (idData "a")))), rfl⟩
  | 2 => .inr ⟨.removed (.ok true), rfl⟩

-- The removal was told, and the document is there again: no order gives that.
theorem undercut_not_linearizable :
    Endless relay ∧ Memory.Lasting {} ∧ Fresh undercut {} ∧
      Complete relay undercut {} undercutMoves ∧
      (play relay undercut (.start {}) undercutMoves).stage 2 = .returned (.removed (.ok true)) ∧
      ((play relay undercut (.start {}) undercutMoves).memory.live? 4 "a").isSome ∧
      ∀ now, ¬∃ order, Linearizes relay undercut {} now undercutMoves order := by
  refine ⟨endless_relay, lasting_empty, fresh_undercut, complete_undercut, rfl, rfl, ?_⟩
  rintro now ⟨order, linearizes⟩
  have quiet :=
    quiet_of_linearizes endless_relay lasting_empty fresh_undercut complete_undercut linearizes
  have gone := quiet [(0, 0), (0, 0), (0, 0), (1, 1), (1, 1), (2, 2)] 2 2
    [(2, 2), (3, 1), (3, 1)] "a"
    1 (Renderer.newDocument [73]).encode rfl rfl rfl rfl
  cases gone

end PagePress.Interleaving
