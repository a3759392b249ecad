import PagePress.Store.Basic

namespace PagePress

structure Entry where
  bytes : Bytes
  expiresAt : Option Int
  deriving DecidableEq, Repr

def Entry.expired (now : Int) (entry : Entry) : Bool :=
  match entry.expiresAt with
  | some time => time ≤ now
  | none => false

structure Memory where
  entries : List (String × Entry) := []
  deriving DecidableEq, Repr

namespace Memory

def entry? (memory : Memory) (id : String) : Option Entry :=
  (memory.entries.find? (·.1 == id)).map (·.2)

def live? (memory : Memory) (now : Int) (id : String) : Option Bytes :=
  ((memory.entry? id).filter (!·.expired now)).map (·.bytes)

def size (memory : Memory) (now : Int) : Nat := memory.entries.countP (!·.2.expired now)

def remove (memory : Memory) (id : String) : Memory := ⟨memory.entries.filter (·.1 != id)⟩

def sweep (memory : Memory) (now : Int) : Memory := ⟨memory.entries.filter (!·.2.expired now)⟩

def get (now : Int) (id : String) (memory : Memory) : Except StoreError Bytes × Memory :=
  match memory.live? now id with
  | some bytes => (.ok bytes, memory)
  | none => (.error (.notFound id), memory.remove id)

def put (now : Int) (id : String) (bytes : Bytes) (keptFor : Option Nat) (memory : Memory) :
    Memory :=
  ⟨(id, ⟨bytes, keptFor.map (now + ·)⟩) :: ((memory.sweep now).remove id).entries⟩

-- Whether a clock that ends with this moment gets to the end of the time.
def onClock (last now : Int) (keptFor : Option Nat) : Bool :=
  match keptFor with
  | some length => now + length ≤ last
  | none => true

-- The sweep comes before the end of the time is reckoned, so a panic leaves it done.
def set (last now : Int) (id : String) (bytes : Bytes) (keptFor : Option Nat) (memory : Memory) :
    Except (Halt StoreError) Unit × Memory :=
  if onClock last now keptFor then (.ok (), memory.put now id bytes keptFor)
  else (.error .panic, memory.sweep now)

def delete (now : Int) (id : String) (memory : Memory) : Bool × Memory :=
  ((memory.live? now id).isSome, memory.remove id)

def storeUntil (last : Int) : Store Memory where
  name := "memory"
  get := get
  set := set last
  delete now id memory := (.ok (memory.delete now id).1, (memory.delete now id).2)
  holds now id memory := (.ok (memory.live? now id).isSome, memory)
  healthy _ memory := (true, memory)

-- The clock counts its seconds in 63 bits.
def lastMoment : Int := 2 ^ 63 * 1000 - 1

def store : Store Memory := storeUntil lastMoment

end Memory
end PagePress
