import Mathlib.Data.List.Sort

/-! A queue that is served in rounds: each looks at the first few places, and some of those who
stand there are passed over and keep their place. -/
namespace Kit

variable {α : Type}

section Order

variable (r : α → α → Prop) [DecidableRel r] [IsTrans α r] (p : α → Bool)

theorem filter_orderedInsert (item : α) {items : List α} (sorted : items.Pairwise r) :
    (items.orderedInsert r item).filter p =
      if p item then (items.filter p).orderedInsert r item else items.filter p := by
  induction items with
  | nil => cases kept : p item <;> simp [kept]
  | cons head rest ih =>
    obtain ⟨least, sortedRest⟩ := List.pairwise_cons.mp sorted
    by_cases first : r item head
    · have leading : ((head :: rest).filter p).orderedInsert r item =
          item :: (head :: rest).filter p := by
        have below : ∀ other ∈ (head :: rest).filter p, r item other := by
          intro other member
          rcases List.mem_cons.mp (List.mem_of_mem_filter member) with rfl | later
          · exact first
          · exact trans_of r first (least other later)
        cases others : (head :: rest).filter p with
        | nil => rfl
        | cons next later =>
          apply List.orderedInsert_cons_of_le
          exact below next (by rw [others]; exact List.mem_cons_self)
      rw [List.orderedInsert_cons_of_le r rest first, leading, List.filter_cons]
    · rw [List.orderedInsert_of_not_le r rest first, List.filter_cons, ih sortedRest]
      cases kept : p item with
      | false => simp [List.filter_cons]
      | true =>
        cases keptHead : p head with
        | false => simp [keptHead]
        | true => simp [keptHead, first]

/-- To sort and then to choose is to choose and then to sort. -/
theorem filter_insertionSort [Std.Total r] (items : List α) :
    (items.insertionSort r).filter p = (items.filter p).insertionSort r := by
  induction items with
  | nil => rfl
  | cons item rest ih =>
    have sorted := List.pairwise_insertionSort r rest
    rw [List.insertionSort_cons, filter_orderedInsert r p item sorted, ih, List.filter_cons]
    cases p item <;> rfl

omit [DecidableRel r] [IsTrans α r] in
/-- In a sorted list, those that hold with every later one stand in front. -/
theorem filter_append_of_pairwise {items : List α} (sorted : items.Pairwise r)
    (closed : ∀ first ∈ items, ∀ second ∈ items, r first second → p second → p first) :
    items = items.filter p ++ items.filter (! p ·) := by
  induction items with
  | nil => rfl
  | cons head rest ih =>
    obtain ⟨least, sortedRest⟩ := List.pairwise_cons.mp sorted
    have closedRest : ∀ first ∈ rest, ∀ second ∈ rest, r first second → p second → p first :=
      fun first inRest second alsoRest => closed first (List.mem_cons_of_mem head inRest) second
        (List.mem_cons_of_mem head alsoRest)
    cases held : p head with
    | true =>
      simp only [List.filter_cons, held, Bool.not_true, if_true, Bool.false_eq_true, if_false,
        List.cons_append]
      exact congrArg (head :: ·) (ih sortedRest closedRest)
    | false =>
      have none : ∀ other ∈ head :: rest, p other = false := by
        intro other member
        rcases List.mem_cons.mp member with rfl | later
        · exact held
        · by_contra holds
          have first := closed head List.mem_cons_self other member (least other later)
            (Bool.not_eq_false _ ▸ holds)
          rw [held] at first
          cases first
      rw [List.filter_eq_nil_iff.mpr fun other member => by rw [none other member]; simp,
        List.filter_eq_self.mpr fun other member => by rw [none other member]; rfl]
      rfl

omit [DecidableRel r] [IsTrans α r] in
/-- Items that change so that they are no longer chosen are out. -/
theorem filter_map_out {c : α → Prop} [DecidablePred c] {change : α → α}
    (out : ∀ item, p (change item) = false) (items : List α) :
    (items.map fun item => if c item then change item else item).filter p =
      (items.filter p).filter fun item => ! decide (c item) := by
  induction items with
  | nil => rfl
  | cons item rest ih =>
    rw [List.map_cons, List.filter_cons, ih, List.filter_cons]
    by_cases changed : c item
    · cases chosen : p item <;> simp [changed, out]
    · cases chosen : p item <;> simp [changed, chosen]

end Order

section Rounds

variable (passed : α → Bool) (limit : Nat)

/-- What a round leaves of the queue. -/
def afterRound (queue : List α) : List α := (queue.take limit).filter passed ++ queue.drop limit

variable {passed limit} {front : List α}

/-- A round that does not get as far as some place is a round of those in front of it. -/
theorem afterRound_append (short : limit ≤ front.length) (back : List α) :
    afterRound passed limit (front ++ back) = afterRound passed limit front ++ back := by
  unfold afterRound
  rw [List.take_append_of_le_length short, List.drop_append_of_le_length short, List.append_assoc]

theorem afterRound_countP (queue : List α) :
    (afterRound passed limit queue).countP passed = queue.countP passed := by
  unfold afterRound
  rw [List.countP_append, List.countP_filter]
  simp only [Bool.and_self]
  rw [← List.countP_append, List.take_append_drop]

/-- Somebody the round looks at is not passed over. -/
theorem exists_served (few : front.countP passed < limit) (short : limit ≤ front.length) :
    ∃ item ∈ front.take limit, passed item = false := by
  by_contra none
  have all : ∀ item ∈ front.take limit, passed item = true := by
    intro item member
    exact Bool.eq_true_of_not_eq_false fun served => none ⟨item, member, served⟩
  have full := List.countP_eq_length.mpr all
  have part := @List.Sublist.countP_le _ passed _ _ (List.take_sublist limit front)
  rw [full, List.length_take, Nat.min_eq_left short] at part
  exact Nat.lt_irrefl _ (Nat.lt_of_le_of_lt part few)

/-- A round serves somebody unless all it looks at are passed over. -/
theorem afterRound_length_lt (few : front.countP passed < limit) (short : limit ≤ front.length) :
    (afterRound passed limit front).length < front.length := by
  obtain ⟨item, looked, served⟩ := exists_served few short
  have fewer : ((front.take limit).filter passed).length < (front.take limit).length := by
    refine Nat.lt_of_le_of_ne (List.length_filter_le _ _) fun same => ?_
    have kept := List.length_filter_eq_length_iff.mp same item looked
    rw [served] at kept
    cases kept
  have whole := congrArg List.length (List.take_append_drop limit front)
  rw [List.length_append] at whole
  unfold afterRound
  rw [List.length_append]
  omega

end Rounds

end Kit
