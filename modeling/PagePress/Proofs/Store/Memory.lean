import Mathlib
import PagePress.Store.Memory

namespace PagePress.Memory

section Live

variable {memory : Memory} {now time : Int}

theorem expired_later {entry : Entry} (gone : entry.expired now = true) (later : now ≤ time) :
    entry.expired time = true := by
  cases ends : entry.expiresAt with
  | none => simp [Entry.expired, ends] at gone
  | some limit =>
    simp only [Entry.expired, ends, decide_eq_true_eq] at gone ⊢
    exact gone.trans later

theorem entry?_remove_self (id : String) : entry? (memory.remove id) id = none := by
  simp [ entry?, remove]

theorem entry?_remove_of_ne {id other : String} (different : id ≠ other) :
    entry? (memory.remove other) id = memory.entry? id := by
  rw [ entry?, remove, List.find?_filter, entry?]
  congr 2
  funext field
  by_cases same : field.1 = id
  · simp [same, different]
  · simp [same]

theorem live?_remove_self (id : String) : (memory.remove id).live? time id = none := by
  rw [live?, entry?_remove_self]
  rfl

theorem live?_remove_of_ne {id other : String} (different : id ≠ other) :
    (memory.remove other).live? time id = memory.live? time id := by
  rw [live?, entry?_remove_of_ne different, live?]

theorem live?_later {id : String} (gone : memory.live? now id = none) (later : now ≤ time) :
    memory.live? time id = none := by
  rw [live?, Option.map_eq_none_iff, Option.filter_eq_none_iff] at gone ⊢
  intro entry found
  have expired := gone entry found
  simp only [Bool.not_eq_true', Bool.not_eq_false] at expired ⊢
  exact expired_later expired later

theorem live?_get {id other : String} (later : now ≤ time) :
    (Memory.get now id memory).2.live? time other = memory.live? time other := by
  rw [Memory.get]
  split
  · rfl
  · rename_i gone
    by_cases same : other = id
    · subst same
      rw [live?_remove_self, live?_later gone later]
    · exact live?_remove_of_ne same

end Live

def Keeps (memory : Memory) (id : String) (bytes : Bytes) : Prop :=
  memory.entry? id = some ⟨bytes, none⟩

-- An entry in front of the one that is found is under another id, so whatever else is left out
-- the entry stays the first.
theorem entry?_filter {entries : List (String × Entry)} {id : String} {entry : Entry}
    {stays : String × Entry → Bool} (found : entry? ⟨entries⟩ id = some entry)
    (kept : stays (id, entry)) : entry? ⟨entries.filter stays⟩ id = some entry := by
  induction entries with
  | nil => cases found
  | cons head rest ih =>
    obtain ⟨key, held⟩ := head
    by_cases same : key = id
    · subst same
      have first : held = entry := by simpa [ entry?] using found
      subst first
      rw [List.filter_cons_of_pos kept]
      simp [ entry?]
    · have later : entry? ⟨rest⟩ id = some entry := by
        simpa [ entry?, List.find?_cons, beq_false_of_ne same] using found
      rw [List.filter_cons]
      split
      · simpa [ entry?, List.find?_cons, beq_false_of_ne same] using ih later
      · exact ih later

variable {memory : Memory} {id other : String} {bytes : Bytes}

theorem Keeps.live (kept : memory.Keeps id bytes) (now : Int) :
    memory.live? now id = some bytes := by
  have found : memory.entry? id = some ⟨bytes, none⟩ := kept
  rw [live?, found]
  rfl

theorem Keeps.sweep (kept : memory.Keeps id bytes) (now : Int) :
    (memory.sweep now).Keeps id bytes :=
  entry?_filter kept rfl

theorem Keeps.remove (kept : memory.Keeps id bytes) (different : id ≠ other) :
    (memory.remove other).Keeps id bytes :=
  entry?_filter kept (bne_iff_ne.mpr different)

theorem keeps_put (memory : Memory) (now : Int) (id : String) (bytes : Bytes) :
    (memory.put now id bytes none).Keeps id bytes := by
  simp [Keeps, put, entry?]

theorem Keeps.put (kept : memory.Keeps id bytes) (different : id ≠ other) (now : Int)
    (written : Bytes) (keptFor : Option Nat) :
    (memory.put now other written keptFor).Keeps id bytes := by
  have below : entry? ((memory.sweep now).remove other) id = some ⟨bytes, none⟩ :=
    (kept.sweep now).remove different
  have above : (other == id) = false := beq_false_of_ne different.symm
  rw [Keeps, Memory.put, entry?, List.find?_cons]
  simpa [above, entry?] using below

theorem Keeps.get (kept : memory.Keeps id bytes) (now : Int) :
    Memory.get now id memory = (.ok bytes, memory) := by
  rw [Memory.get, kept.live now]

theorem Keeps.get_other (kept : memory.Keeps id bytes) (now : Int) (other : String) :
    (Memory.get now other memory).2.Keeps id bytes := by
  rw [Memory.get]
  split
  · exact kept
  · rename_i gone
    apply kept.remove
    rintro rfl
    rw [kept.live now] at gone
    cases gone

end PagePress.Memory
