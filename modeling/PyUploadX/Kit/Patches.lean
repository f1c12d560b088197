import Mathlib.Algebra.GroupWithZero.Nat
import PyUploadX.Kit.Runs
import PyUploadX.Kit.SharedFile

/-! Writers with handles of their own on one file. Each writes its pieces one after the other,
from its own position on, and the writers take turns in any order. -/
namespace Kit

variable {β : Type}

structure PieceWriter (β : Type) where
  position : Nat
  pieces : List (List β)

/-- Where the writer will have got to. -/
def PieceWriter.stop (writer : PieceWriter β) : Nat :=
  writer.position + writer.pieces.flatten.length

structure PatchedFile (β : Type) where
  content : List β
  /-- How much was written so far. -/
  written : Nat := 0
  writers : List (PieceWriter β)

/-- A sum in which one number is replaced. -/
theorem sum_set {counts : List Nat} {i old : Nat} (found : counts[i]? = some old) (new : Nat) :
    (counts.set i new).sum + old = counts.sum + new := by
  induction counts generalizing i with
  | nil => cases found
  | cons count rest ih =>
    cases i with
    | zero =>
      cases found
      rw [List.set_cons_zero, List.sum_cons, List.sum_cons]
      omega
    | succ i =>
      have later := ih found
      rw [List.set_cons_succ, List.sum_cons, List.sum_cons]
      omega

namespace PatchedFile

/-- The `i`th writer writes its next piece, if it has one. -/
def step (filler : β) (file : PatchedFile β) (i : Nat) : PatchedFile β :=
  match file.writers[i]? with
  | some ⟨position, piece :: rest⟩ =>
    { content := writeAt filler file.content position piece
      written := file.written + piece.length
      writers := file.writers.set i ⟨position + piece.length, rest⟩ }
  | _ => file

/-- The `i`th writer has nothing left to write. -/
def Ended (file : PatchedFile β) (i : Nat) : Prop :=
  ∀ writer, file.writers[i]? = some writer → writer.pieces = []

/-- The `i`th writer writes all it has left. -/
def drain (filler : β) (file : PatchedFile β) (i : Nat) : PatchedFile β :=
  (List.replicate ((file.writers[i]?.map (·.pieces.length)).getD 0) i).foldl (step filler) file

/-- The writers take turns as the schedule says; then they end one after the other. -/
def join (filler : β) (file : PatchedFile β) (schedule : List Nat) : PatchedFile β :=
  (List.range file.writers.length).foldl (drain filler) (schedule.foldl (step filler) file)

variable {filler : β} {file : PatchedFile β} {i j : Nat}

/-- What a turn does: nothing, or one piece of one writer. -/
theorem step_cases (filler : β) (file : PatchedFile β) (i : Nat) :
    (file.Ended i ∧ file.step filler i = file) ∨ ∃ position piece rest,
      file.writers[i]? = some ⟨position, piece :: rest⟩ ∧
      file.step filler i =
        { content := writeAt filler file.content position piece
          written := file.written + piece.length
          writers := file.writers.set i ⟨position + piece.length, rest⟩ } := by
  unfold step
  split
  · rename_i position piece rest found
    exact .inr ⟨position, piece, rest, found, rfl⟩
  · rename_i idle
    refine .inl ⟨fun writer present => ?_, rfl⟩
    obtain ⟨position, pieces⟩ := writer
    cases pieces with
    | nil => rfl
    | cons piece rest => exact absurd present (idle position piece rest)

theorem set_self {writers : List (PieceWriter β)} {writer moved : PieceWriter β}
    (found : writers[i]? = some writer) : (writers.set i moved)[i]? = some moved := by
  obtain ⟨inside, _⟩ := List.getElem?_eq_some_iff.mp found
  rw [List.getElem?_set_self inside]

/-- A property of the file and its writers that every piece keeps. -/
theorem join_preserves (holds : PatchedFile β → Prop)
    (kept : ∀ file i, holds file → holds (file.step filler i)) (start : holds file)
    (schedule : List Nat) : holds (file.join filler schedule) :=
  run_preserves _ (run_preserves schedule start kept) fun _ _ held => run_preserves _ held kept

theorem step_ended (ended : file.Ended j) : (file.step filler i).Ended j := by
  rcases step_cases filler file i with ⟨_, same⟩ | ⟨position, piece, rest, found, same⟩
  · rw [same]
    exact ended
  · rw [same]
    intro writer present
    by_cases mine : i = j
    · rw [mine] at found
      cases ended _ found
    · rw [List.getElem?_set_ne mine] at present
      exact ended writer present

/-- As many turns as a writer has pieces are enough for it. -/
theorem turns_ended (count : Nat) (file : PatchedFile β)
    (enough : ∀ writer, file.writers[i]? = some writer → writer.pieces.length ≤ count) :
    ((List.replicate count i).foldl (step filler) file).Ended i := by
  induction count generalizing file with
  | zero =>
    intro writer present
    exact List.length_eq_zero_iff.mp (Nat.le_zero.mp (enough writer present))
  | succ count ih =>
    apply ih
    intro writer present
    rcases step_cases filler file i with ⟨ended, same⟩ | ⟨position, piece, rest, found, same⟩
    · rw [same] at present
      rw [ended writer present]
      exact Nat.zero_le count
    · rw [same, set_self found] at present
      cases present
      exact Nat.le_of_succ_le_succ (enough _ found)

theorem turns_keep_ended (turns : List Nat) (file : PatchedFile β) (ended : file.Ended j) :
    (turns.foldl (step filler) file).Ended j :=
  @run_preserves _ _ (step filler) (·.Ended j) _ turns ended fun _ _ held => step_ended held

theorem drain_ended (file : PatchedFile β) : (file.drain filler i).Ended i := by
  refine turns_ended _ file fun writer present => ?_
  rw [present]
  exact Nat.le_refl _

/-- Every writer ends. -/
theorem drains_ended (order : List Nat) (file : PatchedFile β) (member : i ∈ order) :
    (order.foldl (drain filler) file).Ended i := by
  induction order generalizing file with
  | nil => cases member
  | cons j rest ih =>
    rcases List.mem_cons.mp member with rfl | later
    · exact @run_preserves _ _ (drain filler) (·.Ended i) _ rest (drain_ended file)
        fun _ _ held => turns_keep_ended _ _ held
    · exact ih _ later

theorem step_length (file : PatchedFile β) (i : Nat) :
    (file.step filler i).writers.length = file.writers.length := by
  rcases step_cases filler file i with ⟨_, same⟩ | ⟨_, _, _, _, same⟩
  · rw [same]
  · rw [same, List.length_set]

theorem join_ended (file : PatchedFile β) (schedule : List Nat) (i : Nat) :
    (file.join filler schedule).Ended i := by
  have length : (file.join filler schedule).writers.length = file.writers.length :=
    @join_preserves _ filler file (fun later => later.writers.length = file.writers.length)
      (fun later i same => (step_length later i).trans same) rfl schedule
  intro writer present
  obtain ⟨inside, _⟩ := List.getElem?_eq_some_iff.mp present
  exact drains_ended _ _ (List.mem_range.mpr (length ▸ inside)) writer present

/-- How much the writers have left to write. -/
def owed (file : PatchedFile β) : Nat := (file.writers.map (·.pieces.flatten.length)).sum

/-- What is written and what is left to write do not change together. -/
theorem step_owed (file : PatchedFile β) (i : Nat) :
    (file.step filler i).written + (file.step filler i).owed = file.written + file.owed := by
  rcases step_cases filler file i with ⟨_, same⟩ | ⟨position, piece, rest, found, same⟩
  · rw [same]
  · have mine : (file.writers.map (·.pieces.flatten.length))[i]? =
        some (piece :: rest).flatten.length := by
      rw [List.getElem?_map, found]
      rfl
    have moved := sum_set mine rest.flatten.length
    rw [List.flatten_cons, List.length_append] at moved
    rw [same]
    unfold owed
    rw [List.map_set]
    dsimp only
    omega

/-- No writer goes beyond the end of the file. -/
structure Within (size : Nat) (file : PatchedFile β) : Prop where
  length : file.content.length = size
  stops : ∀ (i : Nat) (writer : PieceWriter β), file.writers[i]? = some writer →
    writer.stop ≤ size

theorem Within.step {size : Nat} (within : file.Within size) (i : Nat) :
    (file.step filler i).Within size := by
  rcases step_cases filler file i with ⟨_, same⟩ | ⟨position, piece, rest, found, same⟩
  · rw [same]
    exact within
  · have bound := within.stops i _ found
    unfold PieceWriter.stop at bound
    rw [List.flatten_cons, List.length_append] at bound
    rw [same]
    constructor
    · rw [writeAt_length, within.length]
      dsimp only at bound
      omega
    · intro j writer present
      by_cases mine : i = j
      · rw [← mine, set_self found] at present
        cases present
        unfold PieceWriter.stop
        dsimp only at bound ⊢
        omega
      · rw [List.getElem?_set_ne mine] at present
        exact within.stops j writer present

/-- Every writer has pieces of the data, from its position on, and what is not yet that of the
data is still to be written by one of them. -/
structure Fills (data : List β) (file : PatchedFile β) : Prop extends file.Within data.length where
  pieces : ∀ (i : Nat) (writer : PieceWriter β), file.writers[i]? = some writer →
    writer.pieces.flatten <+: data.drop writer.position
  open_ : ∀ index < data.length, file.content[index]? = data[index]? ∨
    ∃ (i : Nat) (writer : PieceWriter β), file.writers[i]? = some writer ∧
      writer.position ≤ index ∧ index < writer.stop

theorem Fills.step {data : List β} (fills : file.Fills data) (i : Nat) :
    (file.step filler i).Fills data := by
  have within := @Within.step _ filler file _ fills.toWithin i
  rcases step_cases filler file i with ⟨_, same⟩ | ⟨position, piece, rest, found, same⟩
  · rw [same]
    exact fills
  · have ahead := fills.pieces i _ found
    have bound := fills.stops i _ found
    rw [List.flatten_cons] at ahead
    rw [PieceWriter.stop, List.flatten_cons, List.length_append] at bound
    have next : piece <+: data.drop position := (List.prefix_append _ _).trans ahead
    refine { toWithin := within, pieces := ?_, open_ := ?_ }
    · rw [same]
      intro j writer present
      by_cases mine : i = j
      · rw [← mine, set_self found] at present
        cases present
        obtain ⟨tail, split⟩ := ahead
        refine ⟨tail, ?_⟩
        dsimp only at split ⊢
        rw [← List.drop_drop, ← split, List.append_assoc, List.drop_left]
      · rw [List.getElem?_set_ne mine] at present
        exact fills.pieces j writer present
    · rw [same]
      intro index inside
      dsimp only at bound ⊢
      rw [writeAt_getElem?]
      by_cases reached : position ≤ index ∧ index < position + piece.length
      · left
        rw [if_neg (Nat.not_lt.mpr reached.1), if_pos reached.2]
        exact piece_getElem? next reached.1 reached.2
      · have kept : (if index < position then
            if index < file.content.length then file.content[index]? else some filler
          else if index < position + piece.length then piece[index - position]?
          else file.content[index]?) = file.content[index]? := by
          by_cases before : index < position
          · rw [if_pos before, if_pos (by rw [fills.length]; exact inside)]
          · rw [if_neg before, if_neg fun early => reached ⟨Nat.le_of_not_lt before, early⟩]
        rw [kept]
        rcases fills.open_ index inside with right | ⟨j, writer, present, begun, early⟩
        · exact .inl right
        · right
          by_cases mine : i = j
          · rw [← mine, found] at present
            cases present
            refine ⟨i, _, set_self found, ?_, ?_⟩
            · dsimp only at begun ⊢
              omega
            · rw [PieceWriter.stop, List.flatten_cons, List.length_append] at early
              unfold PieceWriter.stop
              dsimp only at early ⊢
              omega
          · exact ⟨j, writer, (List.getElem?_set_ne mine).trans present, begun, early⟩

/-- With nothing left to write, the file has the data. -/
theorem Fills.ended {data : List β} (fills : file.Fills data) (ended : ∀ i, file.Ended i) :
    file.content = data := by
  refine List.ext_getElem? fun index => ?_
  by_cases inside : index < data.length
  · rcases fills.open_ index inside with right | ⟨i, writer, present, begun, early⟩
    · exact right
    · rw [PieceWriter.stop, ended i writer present] at early
      exact absurd begun (Nat.not_le.mpr early)
  · rw [List.getElem?_eq_none (by rw [fills.length]; omega), List.getElem?_eq_none (by omega)]

/-- Whatever the order of the turns, the file has the data in the end. -/
theorem Fills.join {data : List β} (fills : file.Fills data) (schedule : List Nat) :
    (file.join filler schedule).content = data :=
  (@join_preserves _ filler file (Fills data) (fun _ i now => now.step i) fills schedule).ended
    (join_ended file schedule)

theorem Within.join {size : Nat} (within : file.Within size) (schedule : List Nat) :
    (file.join filler schedule).content.length = size :=
  (@join_preserves _ filler file (Within size) (fun _ i now => now.step i) within schedule).length

end PatchedFile

end Kit
