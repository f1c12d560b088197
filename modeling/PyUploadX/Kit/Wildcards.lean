import Mathlib.Data.List.Infix

/-! Patterns in which one token stands for any symbol and one for any text. -/
namespace Kit

inductive Token (α : Type)
  | exactly (symbol : α)
  | one
  | many

namespace Token

variable {α : Type} [DecidableEq α]

def accepts : List (Token α) → List α → Bool
  | [], text => text.isEmpty
  | many :: rest, text => text.tails.any (accepts rest)
  | one :: rest, text =>
    match text with
    | [] => false
    | _ :: tail => accepts rest tail
  | exactly symbol :: rest, text =>
    match text with
    | [] => false
    | head :: tail => head = symbol && accepts rest tail

theorem accepts_many_iff {rest : List (Token α)} {text : List α} :
    accepts (many :: rest) text = true ↔
      ∃ skipped tail, text = skipped ++ tail ∧ accepts rest tail = true := by
  rw [accepts, List.any_eq_true]
  constructor
  · rintro ⟨tail, suffix, accepted⟩
    obtain ⟨skipped, rfl⟩ := (List.mem_tails _ _).mp suffix
    exact ⟨skipped, tail, rfl, accepted⟩
  · rintro ⟨skipped, tail, rfl, accepted⟩
    exact ⟨tail, (List.mem_tails _ _).mpr (List.suffix_append skipped tail), accepted⟩

/-- The tokens of a text in which the symbol behind an escape stands for itself. -/
def read (token : α → Token α) (escape : Option α) : List α → List (Token α)
  | [] => []
  | [symbol] => [token symbol]
  | symbol :: next :: rest =>
    if escape = some symbol then exactly next :: read token escape rest
    else token symbol :: read token escape (next :: rest)

/-- A text without escapes is read symbol by symbol. -/
theorem read_plain {token : α → Token α} {escape : Option α} {front : List α}
    (plain : ∀ symbol ∈ front, escape ≠ some symbol) (last : α) :
    read token escape (front ++ [last]) = front.map token ++ [token last] := by
  induction front with
  | nil => rfl
  | cons symbol rest ih =>
    obtain ⟨first, later⟩ := List.forall_mem_cons.mp plain
    have behind := ih later
    cases rest with
    | nil => exact if_neg first
    | cons next others => exact (if_neg first).trans (congrArg (token symbol :: ·) behind)

/-- The rest of the text may be anything. -/
theorem accepts_open (text : List α) : accepts [many] text = true :=
  accepts_many_iff.mpr ⟨text, [], (List.append_nil text).symm, rfl⟩

/-- Every symbol is written as itself, or as one of the two wildcards. -/
def Spells (token : α → Token α) : Prop :=
  ∀ symbol, token symbol = exactly symbol ∨ token symbol = one ∨ token symbol = many

section Spelling

variable {token : α → Token α}

/-- What begins with the text matches the pattern that the text is read as. -/
theorem accepts_of_prefix (spells : Spells token) (front : List α) {text : List α}
    (begins : List.IsPrefix front text) : accepts (front.map token ++ [many]) text = true := by
  induction front generalizing text with
  | nil => exact accepts_open text
  | cons symbol rest ih =>
    obtain ⟨behind, rfl⟩ := begins
    have later := ih (List.prefix_append rest behind)
    rw [List.map_cons, List.cons_append, List.cons_append]
    rcases spells symbol with same | any | all
    · rw [same]
      simp only [accepts, decide_true, Bool.true_and]
      exact later
    · rw [any]
      exact later
    · rw [all]
      exact accepts_many_iff.mpr ⟨[symbol], rest ++ behind, rfl, later⟩

/-- A pattern without wildcards is matched by nothing else. -/
theorem accepts_plain_iff {front text : List α}
    (plain : ∀ symbol ∈ front, token symbol = exactly symbol) :
    accepts (front.map token ++ [many]) text = true ↔ List.IsPrefix front text := by
  induction front generalizing text with
  | nil => exact iff_of_true (accepts_open text) List.nil_prefix
  | cons symbol rest ih =>
    obtain ⟨first, later⟩ := List.forall_mem_cons.mp plain
    rw [List.map_cons, List.cons_append, first]
    cases text with
    | nil => simp [accepts]
    | cons head tail =>
      rw [List.cons_prefix_cons, ← ih later, accepts, Bool.and_eq_true, decide_eq_true_eq]
      exact and_congr_left' eq_comm

end Spelling

end Token

end Kit
