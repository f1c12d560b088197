import PyUploadX.Kit.Queue

/-! Reading a table page by page: with the key of the last row as the cursor, or with the
number of rows that are skipped. -/
namespace Kit.Paging

variable {ρ κ : Type}

section Keyset

variable (key : ρ → κ) (less : κ → κ → Prop) [DecidableRel less]

def arrange (rows : List ρ) : List ρ :=
  rows.insertionSort fun first second => ¬ less (key second) (key first)

def behind (cursor : Option κ) (rows : List ρ) : List ρ :=
  match cursor with
  | none => rows
  | some last => rows.filter fun row => less last (key row)

/-- The first rows behind the cursor, and the cursor of the next page if there are more. -/
def page (limit : Nat) (cursor : Option κ) (rows : List ρ) : List ρ × Option κ :=
  let sorted := arrange key less (behind key less cursor rows)
  (sorted.take limit, if limit < sorted.length then (sorted.take limit).getLast?.map key else none)

/-- All pages from the cursor on, as long as the fuel lasts. -/
def follow (ask : Option κ → List ρ × Option κ) : Nat → Option κ → Option (List (List ρ))
  | 0, _ => none
  | fuel + 1, cursor =>
    match (ask cursor).2 with
    | none => some [(ask cursor).1]
    | some next => (follow ask fuel (some next)).map ((ask cursor).1 :: ·)

/-- The cursor of the next page is the key of a row. -/
theorem page_next {limit : Nat} {cursor : Option κ} {rows : List ρ} {next : κ}
    (more : (page key less limit cursor rows).2 = some next) : ∃ row, key row = next := by
  unfold page at more
  dsimp only at more
  split at more
  · obtain ⟨row, _, same⟩ := Option.map_eq_some_iff.mp more
    exact ⟨row, same⟩
  · cases more

section Steps

variable {ask : Option κ → List ρ × Option κ} {cursor : Option κ}

theorem follow_last (last : (ask cursor).2 = none) (fuel : Nat) :
    follow ask (fuel + 1) cursor = some [(ask cursor).1] := by
  rw [follow, last]

theorem follow_next {next : κ} (more : (ask cursor).2 = some next) (fuel : Nat) :
    follow ask (fuel + 1) cursor = (follow ask fuel (some next)).map ((ask cursor).1 :: ·) := by
  rw [follow, more]

end Steps

omit [DecidableRel less] in
private theorem total_of_order [IsStrictOrder κ less] :
    Std.Total fun first second : ρ => ¬ less (key second) (key first) :=
  ⟨fun first second => by
    by_contra neither
    rw [not_or, not_not, not_not] at neither
    exact asymm_of less neither.1 neither.2⟩

omit [DecidableRel less] in
private theorem trans_of_order [IsStrictTotalOrder κ less] :
    IsTrans ρ fun first second => ¬ less (key second) (key first) := by
  refine ⟨fun first second third before after beyond => ?_⟩
  rcases trichotomous_of less (key second) (key first) with below | same | above
  · exact before below
  · exact after (same ▸ beyond)
  · exact after (trans_of less beyond above)

variable {key less} {rows : List ρ}

theorem arrange_perm (rows : List ρ) : (arrange key less rows).Perm rows :=
  List.perm_insertionSort _ rows

/-- What stands behind the last row of a front is the rest. -/
theorem behind_front [IsStrictOrder κ less] {front rest : List ρ}
    (sorted : (front ++ rest).Pairwise fun first second => less (key first) (key second)) :
    behind key less (front.getLast?.map key) (front ++ rest) = rest := by
  rcases List.eq_nil_or_concat front with rfl | ⟨before, last, rfl⟩
  · rfl
  · rw [List.concat_eq_append] at sorted ⊢
    rw [List.getLast?_concat, Option.map_some]
    obtain ⟨ahead, _, across⟩ := List.pairwise_append.mp sorted
    have first : ∀ row ∈ before ++ [last], ¬ less (key last) (key row) := by
      intro row member beyond
      rcases List.mem_append.mp member with earlier | same
      · exact asymm_of less beyond
          ((List.pairwise_append.mp ahead).2.2 row earlier last List.mem_cons_self)
      · rw [List.mem_singleton.mp same] at beyond
        exact irrefl_of less _ beyond
    have later : ∀ row ∈ rest, less (key last) (key row) :=
      fun row member => across last (by simp) row member
    unfold behind
    dsimp only
    rw [List.filter_append, List.filter_eq_nil_iff.mpr (by simpa using first),
      List.filter_eq_self.mpr (by simpa using later), List.nil_append]

variable [IsStrictTotalOrder κ less]

/-- Rows with keys of their own are arranged strictly. -/
theorem arrange_pairwise (distinct : (rows.map key).Nodup) :
    (arrange key less rows).Pairwise fun first second => less (key first) (key second) := by
  have total := @total_of_order ρ κ key less _
  have transitive := @trans_of_order ρ κ key less _
  have sorted := List.pairwise_insertionSort
    (fun first second => ¬ less (key second) (key first)) rows
  have apart := List.pairwise_map.mp
    (((@arrange_perm ρ κ key less _ rows).map key).nodup_iff.mpr distinct)
  refine (sorted.and apart).imp fun order => ?_
  rcases trichotomous_of less _ _ with below | same | above
  · exact below
  · exact absurd same order.2
  · exact absurd above order.1

theorem arrange_behind (cursor : Option κ) (rows : List ρ) :
    arrange key less (behind key less cursor rows) = behind key less cursor (arrange key less rows) := by
  cases cursor with
  | none => rfl
  | some last =>
    have total := @total_of_order ρ κ key less _
    have transitive := @trans_of_order ρ κ key less _
    exact (Kit.filter_insertionSort _ _ rows).symm

/-- The pages behind a front of the rows are the rest of them. -/
theorem follow_rest {limit : Nat} (positive : 0 < limit) (distinct : (rows.map key).Nodup)
    {front rest : List ρ} (arranged : arrange key less rows = front ++ rest) {fuel : Nat}
    (enough : rest.length < fuel) :
    ∃ pages, follow (fun cursor => page key less limit cursor rows) fuel (front.getLast?.map key) =
      some pages ∧ pages.flatten = rest := by
  induction fuel generalizing front rest with
  | zero => cases enough
  | succ fuel ih =>
    have sorted := @arrange_pairwise ρ κ key less _ rows _ distinct
    have remaining : arrange key less (behind key less (front.getLast?.map key) rows) = rest := by
      rw [arranged] at sorted
      rw [arrange_behind, arranged, behind_front sorted]
    have first : page key less limit (front.getLast?.map key) rows = (rest.take limit,
        if limit < rest.length then (rest.take limit).getLast?.map key else none) := by
      unfold page
      rw [remaining]
    by_cases more : limit < rest.length
    · rw [if_pos more] at first
      have some_ : rest.take limit ≠ [] := by
        intro empty
        rcases List.take_eq_nil_iff.mp empty with zero | none
        · omega
        · rw [none] at more
          cases more
      have final := List.getLast?_eq_some_getLast some_
      have further : (front ++ rest.take limit).getLast? =
          some ((rest.take limit).getLast some_) := by
        rw [List.getLast?_append_of_ne_nil _ some_, final]
      have split : arrange key less rows = (front ++ rest.take limit) ++ rest.drop limit := by
        rw [List.append_assoc, List.take_append_drop, arranged]
      have fewer : (rest.drop limit).length < fuel := by
        rw [List.length_drop]
        omega
      obtain ⟨pages, followed, flat⟩ := ih split fewer
      rw [further, Option.map_some] at followed
      rw [final, Option.map_some] at first
      have step := @follow_next ρ κ (fun cursor => page key less limit cursor rows) _ _
        (congrArg Prod.snd first) fuel
      refine ⟨rest.take limit :: pages, ?_, ?_⟩
      · rw [step, followed, first]
        rfl
      · rw [List.flatten_cons, flat, List.take_append_drop]
    · rw [if_neg more, List.take_of_length_le (Nat.not_lt.mp more)] at first
      have step := @follow_last ρ κ (fun cursor => page key less limit cursor rows) _
        (congrArg Prod.snd first) fuel
      exact ⟨[rest], by rw [step, first], List.flatten_singleton⟩

/-- Following the cursors from the first page reads every row once, in the order of the keys. -/
theorem follow_all {limit : Nat} (positive : 0 < limit) (distinct : (rows.map key).Nodup) :
    ∃ pages, follow (fun cursor => page key less limit cursor rows) (rows.length + 1) none =
      some pages ∧ pages.flatten = arrange key less rows := by
  have enough : (arrange key less rows).length < rows.length + 1 := by
    rw [(@arrange_perm ρ κ key less _ rows).length_eq]
    exact Nat.lt_succ_self _
  exact follow_rest positive distinct (List.nil_append _).symm enough

end Keyset

section Offset

/-- The rows behind an offset, at most so many. -/
def slice (limit offset : Nat) (rows : List ρ) : List ρ := (rows.drop offset).take limit

/-- The first pages are the first rows. -/
theorem slices_flat (limit : Nat) (rows : List ρ) (count : Nat) :
    (List.range count).flatMap (fun index => slice limit (index * limit) rows) =
      rows.take (count * limit) := by
  induction count with
  | zero => rw [List.range_zero, List.flatMap_nil, Nat.zero_mul, List.take_zero]
  | succ count ih =>
    rw [List.range_succ, List.flatMap_append, ih, List.flatMap_singleton, Nat.succ_mul,
      List.take_add]
    rfl

/-- Enough of them are all rows. -/
theorem slices_all {limit : Nat} {rows : List ρ} {count : Nat}
    (enough : rows.length ≤ count * limit) :
    (List.range count).flatMap (fun index => slice limit (index * limit) rows) = rows := by
  rw [slices_flat, List.take_of_length_le enough]

end Offset

end Kit.Paging
