import Mathlib.Data.List.Basic
import Mathlib.Logic.Function.Basic

/-! Writers of one file. Each empties it when it opens it, writes its own data at its own
position and, when it is through, puts down in a register what it has written. -/
namespace Kit

variable {β : Type}

/-- A write at a position: over what is there, with a filler for a gap before it. -/
def writeAt (filler : β) (content : List β) (position : Nat) (piece : List β) : List β :=
  content.take position ++ List.replicate (position - content.length) filler ++ piece ++
    content.drop (position + piece.length)

theorem writeAt_length (filler : β) (content : List β) (position : Nat) (piece : List β) :
    (writeAt filler content position piece).length =
      max content.length (position + piece.length) := by
  simp only [writeAt, List.length_append, List.length_take, List.length_replicate,
    List.length_drop]
  omega

theorem writeAt_length_le (filler : β) {content piece : List β} {position bound : Nat}
    (short : content.length ≤ bound) (fits : position + piece.length ≤ bound) :
    (writeAt filler content position piece).length ≤ bound := by
  rw [writeAt_length]
  exact Nat.max_le.mpr ⟨short, fits⟩

/-- Writing on at the end. -/
theorem writeAt_end (filler : β) (content piece : List β) :
    writeAt filler content content.length piece = content ++ piece := by
  simp [writeAt]

theorem writeAt_getElem? (filler : β) (content : List β) (position : Nat) (piece : List β)
    (index : Nat) : (writeAt filler content position piece)[index]? =
      if index < position then
        if index < content.length then content[index]? else some filler
      else if index < position + piece.length then piece[index - position]?
      else content[index]? := by
  have front : (content.take position ++
      List.replicate (position - content.length) filler).length = position := by
    simp only [List.length_append, List.length_take, List.length_replicate]
    omega
  unfold writeAt
  by_cases before : index < position
  · rw [if_pos before, List.append_assoc, List.getElem?_append_left (by rw [front]; exact before)]
    by_cases inside : index < content.length
    · rw [if_pos inside, List.getElem?_append_left (by rw [List.length_take]; omega),
        List.getElem?_take_of_lt before]
    · rw [if_neg inside, List.getElem?_append_right (by rw [List.length_take]; omega),
        List.getElem?_replicate, if_pos]
      rw [List.length_take]
      omega
  · rw [if_neg before]
    by_cases within : index < position + piece.length
    · rw [if_pos within, List.getElem?_append_left (by rw [List.length_append, front]; omega),
        List.getElem?_append_right (by rw [front]; omega), front]
    · rw [if_neg within, List.getElem?_append_right (by rw [List.length_append, front]; omega),
        List.length_append, front, List.getElem?_drop]
      congr 1
      omega

/-- The first bytes are those of the data. -/
def AgreesUpTo (content data : List β) (count : Nat) : Prop :=
  ∀ index < count, content[index]? = data[index]?

theorem piece_getElem? {data piece : List β} {position index : Nat}
    (next : piece <+: data.drop position) (begun : position ≤ index)
    (open_ : index < position + piece.length) : piece[index - position]? = data[index]? := by
  obtain ⟨rest, split⟩ := next
  have found : (data.drop position)[index - position]? = piece[index - position]? := by
    rw [← split, List.getElem?_append_left (by omega)]
  rw [← found, List.getElem?_drop]
  congr 1
  omega

namespace AgreesUpTo

variable {content data piece : List β} {count position : Nat}

/-- A piece of the same data, written in its place, does no harm. -/
theorem writeAt (agrees : AgreesUpTo content data count) (within : count ≤ data.length)
    (next : piece <+: data.drop position) (filler : β) :
    AgreesUpTo (writeAt filler content position piece) data count := by
  intro index early
  rw [writeAt_getElem?]
  split
  · split
    · exact agrees index early
    · rename_i beyond
      have missing := agrees index early
      rw [List.getElem?_eq_none (by omega), eq_comm, List.getElem?_eq_none_iff] at missing
      omega
  · split
    · exact piece_getElem? next (by omega) ‹_›
    · exact agrees index early

/-- The piece that comes next. -/
theorem advance (agrees : AgreesUpTo content data position) (within : position ≤ data.length)
    (next : piece <+: data.drop position) (filler : β) :
    AgreesUpTo (Kit.writeAt filler content position piece) data (position + piece.length) := by
  intro index early
  by_cases before : index < position
  · exact agrees.writeAt within next filler index before
  · rw [writeAt_getElem?, if_neg before, if_pos early]
    exact piece_getElem? next (by omega) early

theorem whole (agrees : AgreesUpTo content data data.length)
    (short : content.length ≤ data.length) : content = data := by
  refine List.ext_getElem? fun index => ?_
  by_cases inside : index < data.length
  · exact agrees index inside
  · rw [List.getElem?_eq_none (by omega), List.getElem?_eq_none (by omega)]

end AgreesUpTo

/-- How far a writer is. One that is gone has given up before it opened the file. -/
inductive WriterPhase
  | waiting
  | writing (position : Nat)
  | finished
  | gone
  deriving DecidableEq

structure SharedFile (β : Type) where
  content : List β
  register : Option (List β)
  phase : Nat → WriterPhase
  /-- The last writer that has opened the file. -/
  last : Option Nat

namespace SharedFile

def setPhase (file : SharedFile β) (i : Nat) (phase : WriterPhase) : SharedFile β :=
  { file with phase := Function.update file.phase i phase }

/-- The steps of the writers of `data`. A writer opens the file only while everybody who is
writing it has the same data. -/
inductive Step (filler : β) (data : Nat → List β) (file : SharedFile β) : SharedFile β → Prop
  | opens (i : Nat) (waiting : file.phase i = .waiting)
      (alike : ∀ j position, file.phase j = .writing position → data j = data i) :
      Step filler data file
        ({ file with content := [], last := some i }.setPhase i (.writing 0))
  | writes (i position : Nat) (piece : List β) (writing : file.phase i = .writing position)
      (next : piece <+: (data i).drop position) :
      Step filler data file
        ({ file with content := writeAt filler file.content position piece }.setPhase i
          (.writing (position + piece.length)))
  | finishes (i : Nat) (whole : file.phase i = .writing (data i).length) :
      Step filler data file ({ file with register := some (data i) }.setPhase i .finished)
  | quits (i : Nat) (waiting : file.phase i = .waiting) :
      Step filler data file (file.setPhase i .gone)

/-- All who write have the data of the last opener, and the file has what that one wrote. -/
structure Coherent (data : Nat → List β) (file : SharedFile β) : Prop where
  unopened : file.last = none → ∀ i, file.phase i = .waiting ∨ file.phase i = .gone
  opened : ∀ last, file.last = some last → file.phase last ≠ .waiting ∧ file.phase last ≠ .gone
  short : ∀ last, file.last = some last → file.content.length ≤ (data last).length
  alike : ∀ last, file.last = some last → ∀ i position, file.phase i = .writing position →
    data i = data last ∧ position ≤ (data last).length
  written : ∀ last, file.last = some last → ∀ position, file.phase last = .writing position →
    AgreesUpTo file.content (data last) position
  recorded : ∀ last, file.last = some last → file.phase last = .finished →
    file.content = data last ∧ file.register = some (data last)

variable {filler : β} {data : Nat → List β} {file : SharedFile β}

theorem setPhase_self (file : SharedFile β) (i : Nat) (phase : WriterPhase) :
    (file.setPhase i phase).phase i = phase := Function.update_self ..

theorem setPhase_of_ne (file : SharedFile β) {i j : Nat} (different : j ≠ i)
    (phase : WriterPhase) : (file.setPhase i phase).phase j = file.phase j :=
  Function.update_of_ne different ..

theorem coherent_start {content : List β} {register : Option (List β)} :
    Coherent data ⟨content, register, fun _ => .waiting, none⟩ where
  unopened _ _ := .inl rfl
  opened _ opened := by cases opened
  short _ opened := by cases opened
  alike _ opened := by cases opened
  written _ opened := by cases opened
  recorded _ opened := by cases opened

/-- Whoever is at work has found the file opened. -/
theorem Coherent.last (coherent : Coherent data file) {i : Nat}
    (working : file.phase i ≠ .waiting) (here : file.phase i ≠ .gone) :
    ∃ last, file.last = some last := by
  cases opened : file.last with
  | some last => exact ⟨last, rfl⟩
  | none =>
    rcases coherent.unopened opened i with waiting | gone
    · exact absurd waiting working
    · exact absurd gone here

theorem Coherent.last_of_writing (coherent : Coherent data file) {i position : Nat}
    (writing : file.phase i = .writing position) : ∃ last, file.last = some last :=
  @Coherent.last _ _ _ coherent i (by simp [writing]) (by simp [writing])

theorem Coherent.opens {i : Nat} (waiting : file.phase i = .waiting)
    (alike : ∀ j position, file.phase j = .writing position → data j = data i)
    (coherent : Coherent data file) :
    Coherent data ({ file with content := [], last := some i }.setPhase i (.writing 0)) where
  unopened opened := by cases opened
  opened last opened := by
    cases opened
    rw [setPhase_self]
    exact ⟨by simp, by simp⟩
  short last opened := by
    cases opened
    exact Nat.zero_le _
  alike last opened j position writing := by
    cases opened
    by_cases same : j = i
    · subst same
      rw [setPhase_self] at writing
      cases writing
      exact ⟨rfl, Nat.zero_le _⟩
    · rw [setPhase_of_ne _ same] at writing
      obtain ⟨other, before⟩ := coherent.last_of_writing writing
      obtain ⟨own, within⟩ := coherent.alike other before j position writing
      have mine := alike j position writing
      exact ⟨mine, by rw [← mine, own]; exact within⟩
  written last opened position writing := by
    cases opened
    rw [setPhase_self] at writing
    cases writing
    exact fun index early => absurd early (Nat.not_lt_zero _)
  recorded last opened finished := by
    cases opened
    rw [setPhase_self] at finished
    cases finished

theorem Coherent.writes {i position : Nat} {piece : List β}
    (writing : file.phase i = .writing position) (next : piece <+: (data i).drop position)
    (coherent : Coherent data file) :
    Coherent data ({ file with content := writeAt filler file.content position piece }.setPhase i
      (.writing (position + piece.length))) := by
  obtain ⟨last, opened⟩ := coherent.last_of_writing writing
  obtain ⟨own, within⟩ := coherent.alike last opened i position writing
  rw [own] at next
  have fits : position + piece.length ≤ (data last).length := by
    have bound := next.length_le
    rw [List.length_drop] at bound
    omega
  refine ⟨fun unopened => ?_, ?_, ?_, ?_, ?_, ?_⟩
  · rw [show file.last = none from unopened] at opened
    cases opened
  · intro other same
    obtain rfl : last = other := Option.some.inj (opened.symm.trans same)
    by_cases mine : last = i
    · rw [mine, setPhase_self]
      exact ⟨by simp, by simp⟩
    · rw [setPhase_of_ne _ mine]
      exact coherent.opened last opened
  · intro other same
    obtain rfl : last = other := Option.some.inj (opened.symm.trans same)
    exact writeAt_length_le filler (coherent.short last opened) fits
  · intro other same j reached phase
    obtain rfl : last = other := Option.some.inj (opened.symm.trans same)
    by_cases mine : j = i
    · subst mine
      rw [setPhase_self] at phase
      cases phase
      exact ⟨own, fits⟩
    · rw [setPhase_of_ne _ mine] at phase
      exact coherent.alike last opened j reached phase
  · intro other same reached phase
    obtain rfl : last = other := Option.some.inj (opened.symm.trans same)
    by_cases mine : last = i
    · subst mine
      rw [setPhase_self] at phase
      cases phase
      exact (coherent.written last opened position writing).advance within next filler
    · rw [setPhase_of_ne _ mine] at phase
      have bound := (coherent.alike last opened last reached phase).2
      exact (coherent.written last opened reached phase).writeAt bound next filler
  · intro other same finished
    obtain rfl : last = other := Option.some.inj (opened.symm.trans same)
    have mine : last ≠ i := by
      rintro rfl
      rw [setPhase_self] at finished
      cases finished
    rw [setPhase_of_ne _ mine] at finished
    obtain ⟨content, register⟩ := coherent.recorded last opened finished
    have agrees : AgreesUpTo file.content (data last) (data last).length := by
      rw [content]
      exact fun _ _ => rfl
    refine ⟨?_, register⟩
    refine (agrees.writeAt (Nat.le_refl _) next filler).whole ?_
    exact writeAt_length_le filler (coherent.short last opened) fits

theorem Coherent.finishes {i : Nat} (whole : file.phase i = .writing (data i).length)
    (coherent : Coherent data file) :
    Coherent data ({ file with register := some (data i) }.setPhase i .finished) := by
  obtain ⟨last, opened⟩ := coherent.last_of_writing whole
  obtain ⟨own, _⟩ := coherent.alike last opened i _ whole
  have others : ∀ j position,
      ({ file with register := some (data i) }.setPhase i .finished).phase j =
        .writing position → file.phase j = .writing position := by
    intro j position writing
    by_cases mine : j = i
    · rw [mine, setPhase_self] at writing
      cases writing
    · rwa [setPhase_of_ne _ mine] at writing
  refine ⟨fun unopened => ?_, ?_, coherent.short, ?_, ?_, ?_⟩
  · rw [show file.last = none from unopened] at opened
    cases opened
  · intro other same
    by_cases mine : other = i
    · rw [mine, setPhase_self]
      exact ⟨by simp, by simp⟩
    · rw [setPhase_of_ne _ mine]
      exact coherent.opened other same
  · exact fun other same j position writing =>
      coherent.alike other same j position (others j position writing)
  · exact fun other same position writing =>
      coherent.written other same position (others other position writing)
  · intro other same finished
    obtain rfl : last = other := Option.some.inj (opened.symm.trans same)
    refine ⟨?_, congrArg some own⟩
    by_cases mine : last = i
    · subst mine
      exact (coherent.written last opened _ whole).whole (coherent.short last opened)
    · rw [setPhase_of_ne _ mine] at finished
      exact (coherent.recorded last opened finished).1

theorem Coherent.quits {i : Nat} (waiting : file.phase i = .waiting)
    (coherent : Coherent data file) : Coherent data (file.setPhase i .gone) := by
  have others : ∀ j phase, (file.setPhase i .gone).phase j = phase → phase ≠ .gone →
      file.phase j = phase := by
    intro j phase there here
    by_cases mine : j = i
    · rw [mine, setPhase_self] at there
      exact absurd there.symm here
    · rwa [setPhase_of_ne _ mine] at there
  refine ⟨fun unopened j => ?_, ?_, coherent.short, ?_, ?_, ?_⟩
  · by_cases mine : j = i
    · rw [mine, setPhase_self]
      exact .inr rfl
    · rw [setPhase_of_ne _ mine]
      exact coherent.unopened unopened j
  · intro other same
    have mine : other ≠ i := by
      rintro rfl
      exact (coherent.opened other same).1 waiting
    rw [setPhase_of_ne _ mine]
    exact coherent.opened other same
  · exact fun other same j position writing =>
      coherent.alike other same j position (others j _ writing (by simp))
  · exact fun other same position writing =>
      coherent.written other same position (others other _ writing (by simp))
  · exact fun other same finished => coherent.recorded other same (others other _ finished (by simp))

theorem Coherent.step {after : SharedFile β} (coherent : Coherent data file)
    (step : Step filler data file after) : Coherent data after := by
  cases step with
  | opens i waiting alike => exact coherent.opens waiting alike
  | writes i position piece writing next => exact coherent.writes writing next
  | finishes i whole => exact coherent.finishes whole
  | quits i waiting => exact coherent.quits waiting

/-- When nobody is at work any more, the register has what the file contains. -/
theorem Coherent.settled (coherent : Coherent data file)
    (settled : ∀ i position, file.phase i ≠ .writing position) {i : Nat}
    (finished : file.phase i = .finished) : file.register = some file.content := by
  obtain ⟨last, opened⟩ := @Coherent.last _ _ _ coherent i (by simp [finished]) (by simp [finished])
  cases through : file.phase last with
  | waiting => exact absurd through (coherent.opened last opened).1
  | writing position => exact absurd through (settled last position)
  | finished =>
    obtain ⟨content, register⟩ := coherent.recorded last opened through
    rw [register, content]
  | gone => exact absurd through (coherent.opened last opened).2

end SharedFile

end Kit
