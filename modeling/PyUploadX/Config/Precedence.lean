import Mathlib.Data.List.Sort
import PyUploadX.Config.Loader
import PyUploadX.Core.JsonText
import PyUploadX.Kit.Program

/-! Which source a configuration value comes from, and in which environments the order of the
variables does not matter. -/
namespace PyUploadX.Loader

open Kit

variable {κ α : Type} [DecidableEq κ]

/-- A variable of the environment: where it puts which value. -/
abbrev Assignment (κ α : Type) := List κ × DictValue κ α

def assignment? (python : Python κ α) (entry : String × String) : Option (Assignment κ α) :=
  if entry.1.startsWith "UPLOAD_" then
    some (variablePath python entry.1, coerce python entry.2)
  else none

def assignments (python : Python κ α) (environ : List (String × String)) :
    List (Assignment κ α) :=
  environ.filterMap (assignment? python)

section Assignment

variable {cursor cursor' : Dict κ α} {path : List κ} {value : DictValue κ α}

/-- The place a variable is put at is what it holds; above it there are mappings, and beside it
nothing changes. -/
structure Assigned (before : Dict κ α) (path : List κ) (value : DictValue κ α)
    (after : Dict κ α) : Prop where
  here : ∀ rest, (DictValue.mapping after).at? (path ++ rest) = value.at? rest
  above : ∀ other, other <+: path → other ≠ path →
    (DictValue.mapping after).at? other = some .mapping
  beside : ∀ other, ¬ path <+: other → ¬ other <+: path →
    (DictValue.mapping after).at? other = (DictValue.mapping before).at? other

private theorem at?_set_self (dict : Dict κ α) (key : κ) (value : DictValue κ α) (rest : List κ) :
    (DictValue.mapping (dict.set key value)).at? (key :: rest) = value.at? rest := by
  rw [DictValue.at?, Dict.get?_set, if_pos rfl, Option.bind_some]

private theorem at?_set_aside (dict : Dict κ α) {key other : κ} (aside : key ≠ other)
    (value : DictValue κ α) (rest : List κ) :
    (DictValue.mapping (dict.set key value)).at? (other :: rest) =
      (DictValue.mapping dict).at? (other :: rest) := by
  rw [DictValue.at?, DictValue.at?, Dict.get?_set, if_neg aside]

theorem Assigned.last (cursor : Dict κ α) (last : κ) (value : DictValue κ α) :
    Assigned cursor [last] value (cursor.set last value) where
  here rest := at?_set_self cursor last value rest
  above other within different := by
    cases other with
    | nil => rfl
    | cons first later =>
      obtain ⟨rfl, deeper⟩ := List.cons_prefix_cons.mp within
      rw [List.prefix_nil.mp deeper] at different
      exact absurd rfl different
  beside other below above := by
    cases other with
    | nil => exact absurd (List.nil_prefix) above
    | cons first later =>
      refine at?_set_aside cursor ?_ value later
      rintro rfl
      exact below (List.cons_prefix_cons.mpr ⟨rfl, List.nil_prefix⟩)

/-- What is assigned in an inner mapping is assigned in the outer one. -/
theorem Assigned.inner {inner inner' : Dict κ α} {part : κ}
    (assigned : Assigned inner path value inner')
    (was : ∀ rest, rest ≠ [] → (DictValue.mapping cursor).at? (part :: rest) =
      (DictValue.mapping inner).at? rest) :
    Assigned cursor (part :: path) value (cursor.set part (.mapping inner')) where
  here rest := by
    rw [List.cons_append, at?_set_self]
    exact assigned.here rest
  above other within different := by
    cases other with
    | nil => rfl
    | cons first later =>
      obtain ⟨rfl, below⟩ := List.cons_prefix_cons.mp within
      rw [at?_set_self]
      exact assigned.above later below fun same => different (congrArg _ same)
  beside other below above := by
    cases other with
    | nil => exact absurd (List.nil_prefix) above
    | cons first later =>
      by_cases same : part = first
      · subst same
        rw [List.cons_prefix_cons] at below above
        have under := fun within => below ⟨rfl, within⟩
        have over_ := fun within => above ⟨rfl, within⟩
        have filled : later ≠ [] := by
          rintro rfl
          exact over_ List.nil_prefix
        rw [at?_set_self, assigned.beside later under over_, was later filled]
      · exact at?_set_aside cursor same _ later

private theorem assign_assigned (deeper : path ≠ []) (done : assign cursor path value = .ok cursor') :
    Assigned cursor path value cursor' := by
  induction path generalizing cursor cursor' with
  | nil => exact absurd rfl deeper
  | cons part rest ih =>
    cases rest with
    | nil =>
      cases done
      exact .last cursor part value
    | cons next later =>
      unfold assign at done
      split at done
      · rename_i absent
        obtain ⟨inner, ran, rfl⟩ := except_map_eq_ok.mp done
        refine (ih (List.cons_ne_nil _ _) ran).inner fun rest filled => ?_
        obtain ⟨key, rest, rfl⟩ := List.exists_cons_of_ne_nil filled
        rw [DictValue.at?, absent]
        rfl
      · rename_i inner entry
        obtain ⟨inner', ran, rfl⟩ := except_map_eq_ok.mp done
        refine (ih (List.cons_ne_nil _ _) ran).inner fun rest _ => ?_
        rw [DictValue.at?, entry]
        rfl
      · cases done

/-- An assignment goes through unless what is no mapping stands in its way. -/
theorem assign_unblocked (value : DictValue κ α)
    (free : (DictValue.mapping cursor).blocks path = false) :
    ∃ cursor', assign cursor path value = .ok cursor' := by
  induction path generalizing cursor with
  | nil => exact ⟨cursor, rfl⟩
  | cons part rest ih =>
    cases rest with
    | nil => exact ⟨_, rfl⟩
    | cons next later =>
      rw [DictValue.blocks] at free
      unfold assign
      split
      · obtain ⟨inner, ran⟩ := @ih .nil rfl
        exact ⟨_, except_map_eq_ok.mpr ⟨inner, ran, rfl⟩⟩
      · rename_i inner entry
        rw [entry] at free
        obtain ⟨inner', ran⟩ := @ih inner free
        exact ⟨_, except_map_eq_ok.mpr ⟨inner', ran, rfl⟩⟩
      · rename_i entry
        rw [entry] at free
        cases free

private theorem assign_unique (unique : cursor.Unique) (inner : value.Unique)
    (done : assign cursor path value = .ok cursor') : cursor'.Unique := by
  induction path generalizing cursor cursor' with
  | nil =>
    cases done
    exact unique
  | cons part rest ih =>
    cases rest with
    | nil =>
      cases done
      exact unique.set part inner
    | cons next later =>
      unfold assign at done
      split at done
      · obtain ⟨made, ran, rfl⟩ := except_map_eq_ok.mp done
        exact unique.set part (ih Dict.unique_nil ran)
      · rename_i entry
        obtain ⟨made, ran, rfl⟩ := except_map_eq_ok.mp done
        exact unique.set part (ih (unique.of_get? entry) ran)
      · cases done

end Assignment

section Environment

variable {python : Python κ α} {environ : List (String × String)}

private theorem coerce_unique (python : Python κ α) (value : String) : (coerce python value).Unique := by
  unfold coerce
  dsimp only
  split_ifs
  · exact trivial
  · exact trivial
  · exact trivial
  · split
    · rename_i loaded
      exact python.jsonLoads_unique loaded
    · split
      · exact trivial
      · split
        · exact trivial
        · exact trivial

private theorem mem_assignments {put : Assignment κ α} (member : put ∈ assignments python environ) :
    put.1 ≠ [] ∧ put.2.Unique ∧ ∃ entry ∈ environ, assignment? python entry = some put := by
  obtain ⟨entry, listed, made⟩ := List.mem_filterMap.mp member
  have shape := made
  unfold assignment? at shape
  split at shape
  · cases shape
    exact ⟨List.cons_ne_nil _ _, coerce_unique python entry.2, entry, listed, made⟩
  · cases shape

/-- One variable after the other. -/
def assignAll (cursor : Dict κ α) (puts : List (Assignment κ α)) :
    Except AssignError (Dict κ α) :=
  puts.foldlM (fun cursor put => assign cursor put.1 put.2) cursor

private theorem envOverrides_eq (python : Python κ α) (environ : List (String × String)) :
    envOverrides python environ = assignAll .nil (assignments python environ) := by
  unfold envOverrides assignAll assignments
  generalize Dict.nil = cursor
  induction environ generalizing cursor with
  | nil => rfl
  | cons entry rest ih =>
    rw [List.foldlM_cons, List.filterMap_cons]
    by_cases ours : entry.1.startsWith "UPLOAD_" = true
    · rw [assignment?, if_pos ours, if_pos ours, List.foldlM_cons]
      exact bind_congr ih
    · rw [assignment?, if_neg ours, if_neg ours]
      exact ih cursor

private theorem assignAll_cons (cursor : Dict κ α) (put : Assignment κ α) (rest : List (Assignment κ α)) :
    assignAll cursor (put :: rest) = (assign cursor put.1 put.2).bind (assignAll · rest) :=
  List.foldlM_cons

private theorem assignAll_unique {cursor cursor' : Dict κ α} {puts : List (Assignment κ α)}
    (unique : cursor.Unique) (values : ∀ put ∈ puts, put.2.Unique)
    (done : assignAll cursor puts = .ok cursor') : cursor'.Unique := by
  induction puts generalizing cursor with
  | nil =>
    cases done
    exact unique
  | cons put rest ih =>
    rw [assignAll_cons] at done
    cases first : assign cursor put.1 put.2 with
    | error failure =>
      rw [first] at done
      cases done
    | ok next =>
      rw [first] at done
      exact ih (assign_unique unique (values put List.mem_cons_self) first)
        (fun later member => values later (List.mem_cons_of_mem _ member)) done

private theorem envOverrides_unique {env : Dict κ α} (done : envOverrides python environ = .ok env) :
    env.Unique := by
  rw [envOverrides_eq] at done
  exact assignAll_unique Dict.unique_nil (fun put member => (mem_assignments member).2.1) done

end Environment

section Order

variable {puts done todo : List (Assignment κ α)} {cursor cursor' : Dict κ α}

/-- Where a variable sets a section and another something in it, the section's value has it so. -/
def Agree (puts : List (Assignment κ α)) : Prop :=
  ∀ outer ∈ puts, ∀ inner ∈ puts, ∀ rest, inner.1 = outer.1 ++ rest →
    ∀ below, outer.2.at? (rest ++ below) = inner.2.at? below

/-- What the variables say of each path, in whichever order they are assigned. -/
structure Describes (puts : List (Assignment κ α)) (dict : Dict κ α) : Prop where
  covered : ∀ put ∈ puts, ∀ rest,
    (DictValue.mapping dict).at? (put.1 ++ rest) = put.2.at? rest
  opened : ∀ path, (∀ put ∈ puts, ¬ put.1 <+: path) → (∃ put ∈ puts, path <+: put.1) →
    (DictValue.mapping dict).at? path = some .mapping
  unset : ∀ path, path ≠ [] → (∀ put ∈ puts, ¬ put.1 <+: path) →
    (∀ put ∈ puts, ¬ path <+: put.1) → (DictValue.mapping dict).at? path = none

private theorem at?_nil_ne_none (value : DictValue κ α) : value.at? [] ≠ none := by
  cases value with
  | scalar value => exact Option.some_ne_none _
  | mapping dict => exact Option.some_ne_none _

/-- Above a variable's place, what covers it is a mapping. -/
theorem Agree.above {put next : Assignment κ α} (agree : Agree puts) (first : put ∈ puts)
    (second : next ∈ puts) {rest later : List κ} (split : next.1 = put.1 ++ (rest ++ later))
    (deeper : later ≠ []) : put.2.at? rest = some .mapping := by
  refine DictValue.at?_above deeper ?_
  have same := agree put first next second (rest ++ later) split []
  rw [List.append_nil] at same
  rw [same]
  exact at?_nil_ne_none next.2

theorem Describes.nil : Describes ([] : List (Assignment κ α)) Dict.nil where
  covered put member := absurd member List.not_mem_nil
  opened path _ within := by
    obtain ⟨put, member, _⟩ := within
    cases member
  unset path filled _ _ := by
    obtain ⟨key, rest, rfl⟩ := List.exists_cons_of_ne_nil filled
    rfl

theorem Describes.scalar_covered (described : Describes puts cursor) {path : List κ} {scalar : α}
    (found : (DictValue.mapping cursor).at? path = some (.scalar scalar)) :
    ∃ put ∈ puts, ∃ rest, path = put.1 ++ rest ∧ put.2.at? rest = some (.scalar scalar) := by
  by_cases covered : ∃ put ∈ puts, put.1 <+: path
  · obtain ⟨put, member, rest, rfl⟩ := covered
    rw [described.covered put member] at found
    exact ⟨put, member, rest, rfl, found⟩
  · have uncovered : ∀ put ∈ puts, ¬ put.1 <+: path :=
      fun put member within => covered ⟨put, member, within⟩
    by_cases top : path = []
    · subst top
      cases found
    · by_cases opened : ∃ put ∈ puts, path <+: put.1
      · rw [described.opened path uncovered opened] at found
        cases found
      · rw [described.unset path top uncovered fun put member within =>
          opened ⟨put, member, within⟩] at found
        cases found

/-- Nothing stands in the way of a variable that agrees with those before it. -/
theorem Describes.free {put : Assignment κ α} (described : Describes done cursor)
    (agree : Agree (done ++ [put])) : (DictValue.mapping cursor).blocks put.1 = false := by
  rw [Bool.eq_false_iff]
  intro blocked
  obtain ⟨front, rest, scalar, split, deeper, found⟩ := DictValue.blocks_iff.mp blocked
  obtain ⟨other, member, later, rfl, here⟩ := described.scalar_covered found
  have above := agree.above (List.mem_append_left _ member)
    (List.mem_append_right _ List.mem_cons_self) (split.trans (List.append_assoc _ _ _)) deeper
  rw [above] at here
  cases here

theorem Describes.step {put : Assignment κ α} (described : Describes done cursor)
    (agree : Agree (done ++ [put])) (assigned : Assigned cursor put.1 put.2 cursor') :
    Describes (done ++ [put]) cursor' where
  covered other member rest := by
    rcases List.mem_append.mp member with old | new
    · have last : put ∈ done ++ [put] := List.mem_append_right _ List.mem_cons_self
      by_cases under : put.1 <+: other.1 ++ rest
      · obtain ⟨below, split⟩ := under
        rw [← split, assigned.here]
        rcases List.append_eq_append_iff.mp split with ⟨middle, outer, rfl⟩ | ⟨middle, inner, rfl⟩
        · exact agree put last other member middle outer rest
        · exact (agree other member put last middle inner below).symm
      · by_cases above : other.1 ++ rest <+: put.1
        · obtain ⟨later, split⟩ := above
          have deeper : later ≠ [] := by
            rintro rfl
            rw [List.append_nil] at split
            exact under (split ▸ List.prefix_rfl)
          rw [assigned.above _ ⟨later, split⟩ fun same => under (same ▸ List.prefix_rfl),
            agree.above member last (split.symm.trans (List.append_assoc _ _ _)) deeper]
        · rw [assigned.beside _ under above]
          exact described.covered other old rest
    · rw [List.mem_singleton.mp new]
      exact assigned.here rest
  opened path uncovered within := by
    have apart := uncovered put (List.mem_append_right _ List.mem_cons_self)
    by_cases above : path <+: put.1
    · exact assigned.above path above fun same => apart (same ▸ List.prefix_rfl)
    · rw [assigned.beside path apart above]
      refine described.opened path
        (fun other old => uncovered other (List.mem_append_left _ old)) ?_
      obtain ⟨other, member, inside⟩ := within
      rcases List.mem_append.mp member with old | new
      · exact ⟨other, old, inside⟩
      · rw [List.mem_singleton.mp new] at inside
        exact absurd inside above
  unset path filled uncovered shut := by
    have last : put ∈ done ++ [put] := List.mem_append_right _ List.mem_cons_self
    rw [assigned.beside path (uncovered put last) (shut put last)]
    exact described.unset path filled
      (fun other old => uncovered other (List.mem_append_left _ old))
      fun other old => shut other (List.mem_append_left _ old)

theorem Agree.subset {some_ : List (Assignment κ α)} (agree : Agree puts) (part : some_ ⊆ puts) :
    Agree some_ :=
  fun outer first inner second => agree outer (part first) inner (part second)

/-- Variables that agree are assigned without an error, and describe what comes of it. -/
theorem Describes.all (agree : Agree (done ++ todo)) (places : ∀ put ∈ todo, put.1 ≠ [])
    (described : Describes done cursor) :
    ∃ cursor', assignAll cursor todo = .ok cursor' ∧ Describes (done ++ todo) cursor' := by
  induction todo generalizing done cursor with
  | nil => exact ⟨cursor, rfl, by rwa [List.append_nil]⟩
  | cons put rest ih =>
    have shift : done ++ put :: rest = (done ++ [put]) ++ rest := by simp
    rw [shift] at agree ⊢
    have begun : Agree (done ++ [put]) := agree.subset (List.subset_append_left _ _)
    obtain ⟨next, ran⟩ := assign_unblocked put.2 (described.free begun)
    have assigned := assign_assigned (places put List.mem_cons_self) ran
    obtain ⟨cursor', ended, described'⟩ := ih agree
      (fun later member => places later (List.mem_cons_of_mem _ member))
      (described.step begun assigned)
    refine ⟨cursor', ?_, described'⟩
    rw [assignAll_cons, ran]
    exact ended

/-- What the variables describe does not depend on their order. -/
theorem Describes.same {other : List (Assignment κ α)} (first : Describes puts cursor)
    (second : Describes other cursor') (members : ∀ put, put ∈ puts ↔ put ∈ other)
    (path : List κ) :
    (DictValue.mapping cursor).at? path = (DictValue.mapping cursor').at? path := by
  by_cases covered : ∃ put ∈ puts, put.1 <+: path
  · obtain ⟨put, member, rest, rfl⟩ := covered
    rw [first.covered put member, second.covered put ((members put).mp member)]
  · have uncovered : ∀ put ∈ puts, ¬ put.1 <+: path :=
      fun put member within => covered ⟨put, member, within⟩
    have uncovered' : ∀ put ∈ other, ¬ put.1 <+: path :=
      fun put member => uncovered put ((members put).mpr member)
    by_cases top : path = []
    · subst top
      rfl
    · by_cases opened : ∃ put ∈ puts, path <+: put.1
      · obtain ⟨put, member, within⟩ := opened
        rw [first.opened path uncovered ⟨put, member, within⟩,
          second.opened path uncovered' ⟨put, (members put).mp member, within⟩]
      · have shut : ∀ put ∈ puts, ¬ path <+: put.1 :=
          fun put member within => opened ⟨put, member, within⟩
        rw [first.unset path top uncovered shut,
          second.unset path top uncovered' fun put member => shut put ((members put).mpr member)]

end Order

section Sources

variable {python : Python κ α} {environ : List (String × String)} {yaml cliOverrides : Mapping κ α}
  {env : Dict κ α}

private theorem at?_mergeGiven {data : Dict κ α} (unique : data.Unique) (raw : Dict κ α) (path : List κ) :
    (DictValue.mapping (mergeGiven raw data)).at? path =
      ((DictValue.mapping data).at? path).or (if (DictValue.mapping data).blocks path then none
        else (DictValue.mapping raw).at? path) := by
  have same : mergeGiven raw data = raw.deepMerge data := by
    cases data with
    | nil => rfl
    | scalar key value rest => rfl
    | nested key value rest => rfl
  rw [same, Dict.at?_deepMerge unique]

private theorem at?_mergeGiven_nil {data : Dict κ α} (unique : data.Unique) (path : List κ) :
    (DictValue.mapping (mergeGiven .nil data)).at? path = (DictValue.mapping data).at? path := by
  rw [at?_mergeGiven unique]
  cases path with
  | nil => rfl
  | cons key rest =>
    have empty : (DictValue.mapping (Dict.nil : Dict κ α)).at? (key :: rest) = none := rfl
    rw [empty, ite_self, Option.or_none]

/-- At each path the command line counts first, then the environment, then the file. -/
theorem rawSettings_at? (yaml cliOverrides : Mapping κ α)
    (done : envOverrides python environ = .ok env) :
    ∃ raw, rawSettings python yaml environ cliOverrides = .ok raw ∧
      ∀ path, (DictValue.mapping raw).at? path =
        (cliOverrides.at? path).or (if cliOverrides.blocks path then none else
          ((DictValue.mapping env).at? path).or
            (if (DictValue.mapping env).blocks path then none else yaml.at? path)) := by
  refine ⟨_, except_map_eq_ok.mpr ⟨env, done, rfl⟩, fun path => ?_⟩
  rw [at?_mergeGiven cliOverrides.unique, at?_mergeGiven (envOverrides_unique done),
    at?_mergeGiven_nil yaml.unique]
  rfl

private theorem rawSettings_error {error : AssignError}
    (failed : envOverrides python environ = .error error) :
    rawSettings python yaml environ cliOverrides = .error error := by
  rw [rawSettings, failed]
  rfl

/-- The result is the same in every order in which the environment is enumerated, whatever the
other sources hold and whichever the validation. -/
def OrderFree (python : Python κ α) (environ : List (String × String)) : Prop :=
  ∀ environ', environ'.Perm environ → ∀ (yaml cliOverrides : Mapping κ α) (ρ : Type)
    (validate : (List κ → Option (Shape α)) → ρ),
    loadSettings python validate yaml environ' cliOverrides =
      loadSettings python validate yaml environ cliOverrides

private theorem orderFree_of_agree (agree : Agree (assignments python environ)) :
    OrderFree python environ := by
  intro environ' order yaml cliOverrides ρ validate
  have members : ∀ put, put ∈ assignments python environ' ↔ put ∈ assignments python environ :=
    fun put => (order.filterMap _).mem_iff
  have places : ∀ environ : List (String × String),
      ∀ put ∈ assignments python environ, put.1 ≠ [] :=
    fun _ put member => (mem_assignments member).1
  obtain ⟨env, ran, described⟩ := Describes.nil.all agree (places environ)
  obtain ⟨env', ran', described'⟩ := Describes.nil.all
    (agree.subset fun put member => (members put).mp member) (places environ')
  rw [← envOverrides_eq] at ran ran'
  obtain ⟨raw, made, found⟩ := rawSettings_at? yaml cliOverrides ran
  obtain ⟨raw', made', found'⟩ := rawSettings_at? yaml cliOverrides ran'
  have alike := described'.same described members
  have blocked : ∀ path,
      (DictValue.mapping env').blocks path = (DictValue.mapping env).blocks path := by
    intro path
    rw [Bool.eq_iff_iff, DictValue.blocks_iff, DictValue.blocks_iff]
    simp only [alike]
  have view : (DictValue.mapping raw').at? = (DictValue.mapping raw).at? := by
    funext path
    rw [found, found', alike, blocked]
  rw [loadSettings, loadSettings, made, made', Except.map, Except.map, view]

/-- What is assigned from the innermost place outwards goes through. -/
theorem assignAll_inwards {cursor : Dict κ α} {puts : List (Assignment κ α)}
    (order : puts.Pairwise fun first second => second.1.length ≤ first.1.length)
    (places : ∀ put ∈ puts, put.1 ≠ [])
    (deep : ∀ path scalar, (DictValue.mapping cursor).at? path = some (.scalar scalar) →
      ∀ put ∈ puts, put.1.length ≤ path.length) :
    ∃ cursor', assignAll cursor puts = .ok cursor' := by
  induction puts generalizing cursor with
  | nil => exact ⟨cursor, rfl⟩
  | cons put rest ih =>
    obtain ⟨shorter, ordered⟩ := List.pairwise_cons.mp order
    have free : (DictValue.mapping cursor).blocks put.1 = false := by
      rw [Bool.eq_false_iff]
      intro blocked
      obtain ⟨front, later, scalar, split, deeper, found⟩ := DictValue.blocks_iff.mp blocked
      have most := deep front scalar found put List.mem_cons_self
      rw [split, List.length_append] at most
      have positive := List.length_pos_iff.mpr deeper
      omega
    obtain ⟨next, ran⟩ := assign_unblocked put.2 free
    have assigned := assign_assigned (places put List.mem_cons_self) ran
    have deep' : ∀ path scalar, (DictValue.mapping next).at? path = some (.scalar scalar) →
        ∀ later ∈ rest, later.1.length ≤ path.length := by
      intro path scalar found later member
      by_cases under : put.1 <+: path
      · exact (shorter later member).trans under.length_le
      · by_cases above : path <+: put.1
        · rw [assigned.above path above fun same => under (same ▸ List.prefix_rfl)] at found
          cases found
        · rw [assigned.beside path under above] at found
          exact deep path scalar found later (List.mem_cons_of_mem _ member)
    obtain ⟨cursor', ended⟩ := ih ordered
      (fun later member => places later (List.mem_cons_of_mem _ member)) deep'
    exact ⟨cursor', by rw [assignAll_cons, ran]; exact ended⟩

theorem exists_order (python : Python κ α) (environ : List (String × String)) :
    ∃ environ', environ'.Perm environ ∧ ∃ env, envOverrides python environ' = .ok env := by
  let depth := fun entry : String × String => (variablePath python entry.1).length
  refine ⟨environ.mergeSort fun first second => decide (depth second ≤ depth first),
    List.mergeSort_perm _ _, ?_⟩
  rw [envOverrides_eq]
  refine assignAll_inwards ?_ (fun put member => (mem_assignments member).1) ?_
  · have sorted := @List.pairwise_mergeSort _
      (fun first second => decide (depth second ≤ depth first)) (by
        intro first second third before after
        simp only [decide_eq_true_eq] at before after ⊢
        omega) (by
        intro first second
        simp only [Bool.or_eq_true, decide_eq_true_eq]
        omega) environ
    refine List.Pairwise.filterMap _ ?_ sorted
    intro first second before one made two made'
    unfold assignment? at made made'
    split at made
    · split at made'
      · cases made
        cases made'
        exact of_decide_eq_true before
      · cases made'
    · cases made
  · intro path scalar found
    cases path with
    | nil => cases found
    | cons key rest => cases found

private theorem assignAll_concat {cursor cursor' : Dict κ α} {front : List (Assignment κ α)}
    {put : Assignment κ α} (done : assignAll cursor (front ++ [put]) = .ok cursor') :
    ∃ before, assign before put.1 put.2 = .ok cursor' := by
  induction front generalizing cursor with
  | nil =>
    rw [List.nil_append, assignAll_cons] at done
    cases ran : assign cursor put.1 put.2 with
    | error failure =>
      rw [ran] at done
      cases done
    | ok next =>
      rw [ran] at done
      cases done
      exact ⟨cursor, ran⟩
  | cons first rest ih =>
    rw [List.cons_append, assignAll_cons] at done
    cases ran : assign cursor first.1 first.2 with
    | error failure =>
      rw [ran] at done
      cases done
    | ok next =>
      rw [ran] at done
      exact ih done

/-- Where the order does not matter, every variable might have come last. -/
theorem orderFree_last (free : OrderFree python environ) :
    ∃ view : List κ → Option (Shape α), ∀ put ∈ assignments python environ, ∀ rest,
      view (put.1 ++ rest) = put.2.at? rest := by
  obtain ⟨calm, order, env, ran⟩ := exists_order python environ
  have outcome : ∀ environ', environ'.Perm environ →
      loadSettings python id .empty environ' .empty = loadSettings python id .empty calm .empty :=
    fun environ' reordered => (free environ' reordered .empty .empty _ id).trans
      (free calm order .empty .empty _ id).symm
  obtain ⟨raw, made, found⟩ := rawSettings_at? .empty .empty ran
  refine ⟨(DictValue.mapping raw).at?, fun put member rest => ?_⟩
  obtain ⟨places, _, entry, listed, taken⟩ := mem_assignments member
  have last : (environ.erase entry ++ [entry]).Perm environ :=
    List.perm_append_comm.trans (List.perm_cons_erase listed).symm
  have split : assignments python (environ.erase entry ++ [entry]) =
      assignments python (environ.erase entry) ++ [put] := by
    rw [assignments, List.filterMap_append, List.filterMap_cons_some taken]
    rfl
  have same := outcome _ last
  rw [loadSettings, loadSettings, made] at same
  obtain ⟨raw', made', view⟩ := except_map_eq_ok.mp same
  cases reached : envOverrides python (environ.erase entry ++ [entry]) with
  | error error =>
    rw [rawSettings_error reached] at made'
    cases made'
  | ok env' =>
    obtain ⟨raw'', made'', found'⟩ := rawSettings_at? .empty .empty reached
    cases Except.ok.inj (made'.symm.trans made'')
    rw [envOverrides_eq, split] at reached
    obtain ⟨before, assigned⟩ := assignAll_concat reached
    have here := (assign_assigned places assigned).here rest
    have seen : (DictValue.mapping raw').at? (put.1 ++ rest) =
        (DictValue.mapping raw).at? (put.1 ++ rest) := congrFun view _
    rw [← seen, found', ← here]
    obtain ⟨key, later, filled⟩ := List.exists_cons_of_ne_nil
      (List.append_ne_nil_of_left_ne_nil places rest)
    rw [filled]
    change Option.or none (if false = true then none else
      Option.or _ (if _ then none else none)) = _
    rw [if_neg (by decide), Option.none_or, ite_self, Option.or_none]

private theorem orderFree_iff_agree : OrderFree python environ ↔ Agree (assignments python environ) := by
  refine ⟨fun free => ?_, orderFree_of_agree⟩
  obtain ⟨view, tells⟩ := orderFree_last free
  intro outer first inner second rest split below
  rw [← tells outer first, ← tells inner second, split, List.append_assoc]

end Sources

section Precedence

variable {python : Python κ α} {yaml cliOverrides : Mapping κ α} {path : List κ}
  {puts : List (Assignment κ α)}

/-- A variable sets the path, by its own name or within the section that it sets. -/
def Sets (puts : List (Assignment κ α)) (path : List κ) (value : α) : Prop :=
  ∃ put ∈ puts, ∃ rest, path = put.1 ++ rest ∧ put.2.at? rest = some (.scalar value)

/-- A variable sets something above the path to what is no mapping. -/
def Covers (puts : List (Assignment κ α)) (path : List κ) : Prop :=
  ∃ put ∈ puts, ∃ rest, path = put.1 ++ rest ∧ put.2.blocks rest = true

/-- No source has a section at the path. -/
structure LeafPath (yaml : Mapping κ α) (puts : List (Assignment κ α)) (cliOverrides : Mapping κ α)
    (path : List κ) : Prop where
  yaml : yaml.at? path ≠ some .mapping
  env : ∀ put ∈ puts, (path <+: put.1 → path = put.1) ∧
    ∀ rest, path = put.1 ++ rest → put.2.at? rest ≠ some .mapping
  cli : cliOverrides.at? path ≠ some .mapping

/-- What the raw mapping has at a leaf: the value from the command line, else from the
environment, else from the file. -/
structure Taken (yaml : Mapping κ α) (puts : List (Assignment κ α)) (cliOverrides : Mapping κ α)
    (path : List κ) (raw : Option (Shape α)) : Prop where
  cli : ∀ value, cliOverrides.at? path = some (.scalar value) → raw = some (.scalar value)
  env : cliOverrides.at? path = none → ∀ value, Sets puts path value → raw = some (.scalar value)
  yaml : cliOverrides.at? path = none → (∀ value, ¬ Sets puts path value) → raw = yaml.at? path

def Precedence (python : Python κ α) (yaml : Mapping κ α) (environ : List (String × String))
    (cliOverrides : Mapping κ α) : Prop :=
  ∀ raw, rawSettings python yaml environ cliOverrides = .ok raw →
    ∀ path, LeafPath yaml (assignments python environ) cliOverrides path →
      Taken yaml (assignments python environ) cliOverrides path ((DictValue.mapping raw).at? path)

/-- No source puts what is no mapping above a leaf that only lower sources set. -/
structure Unshadowed (yaml : Mapping κ α) (puts : List (Assignment κ α))
    (cliOverrides : Mapping κ α) (path : List κ) : Prop where
  cli : cliOverrides.blocks path = true → (∀ value, ¬ Sets puts path value) ∧ yaml.at? path = none
  env : cliOverrides.at? path = none → Covers puts path → yaml.at? path = none

theorem Describes.blocks_iff {env : Dict κ α} (described : Describes puts env) :
    (DictValue.mapping env).blocks path = true ↔ Covers puts path := by
  rw [DictValue.blocks_iff]
  constructor
  · rintro ⟨front, rest, scalar, rfl, deeper, found⟩
    obtain ⟨put, member, later, rfl, here⟩ := described.scalar_covered found
    exact ⟨put, member, later ++ rest, List.append_assoc _ _ _,
      DictValue.blocks_iff.mpr ⟨later, rest, scalar, rfl, deeper, here⟩⟩
  · rintro ⟨put, member, rest, rfl, blocked⟩
    obtain ⟨front, later, scalar, rfl, deeper, found⟩ := DictValue.blocks_iff.mp blocked
    refine ⟨put.1 ++ front, later, scalar, (List.append_assoc _ _ _).symm, deeper, ?_⟩
    rw [described.covered put member, found]

private theorem Describes.scalar_iff {env : Dict κ α} (described : Describes puts env) {value : α} :
    (DictValue.mapping env).at? path = some (.scalar value) ↔ Sets puts path value := by
  constructor
  · exact described.scalar_covered
  · rintro ⟨put, member, rest, rfl, found⟩
    rw [described.covered put member, found]

theorem Describes.leaf {env : Dict κ α} (described : Describes puts env)
    (leaf : LeafPath yaml puts cliOverrides path) :
    (DictValue.mapping env).at? path ≠ some .mapping := by
  intro found
  by_cases covered : ∃ put ∈ puts, put.1 <+: path
  · obtain ⟨put, member, rest, rfl⟩ := covered
    rw [described.covered put member] at found
    exact (leaf.env put member).2 rest rfl found
  · have uncovered : ∀ put ∈ puts, ¬ put.1 <+: path :=
      fun put member within => covered ⟨put, member, within⟩
    have top : path ≠ [] := by
      rintro rfl
      exact leaf.cli rfl
    have shut : ∀ put ∈ puts, ¬ path <+: put.1 := by
      intro put member within
      exact uncovered put member ((leaf.env put member).1 within ▸ List.prefix_rfl)
    rw [described.unset path top uncovered shut] at found
    cases found

theorem leaf_cases {found : Option (Shape α)} (leaf : found ≠ some .mapping) :
    found = none ∨ ∃ value, found = some (.scalar value) := by
  rcases found with _ | _ | _
  · exact .inl rfl
  · exact .inr ⟨_, rfl⟩
  · exact absurd rfl leaf

private theorem taken_iff_unshadowed {env : Dict κ α} (described : Describes puts env)
    (leaf : LeafPath yaml puts cliOverrides path) :
    Taken yaml puts cliOverrides path ((cliOverrides.at? path).or
        (if cliOverrides.blocks path then none else ((DictValue.mapping env).at? path).or
          (if (DictValue.mapping env).blocks path then none else yaml.at? path))) ↔
      Unshadowed yaml puts cliOverrides path := by
  have sets := @Describes.scalar_iff _ _ _ path puts env described
  have covers := @Describes.blocks_iff _ _ _ path puts env described
  rcases leaf_cases leaf.cli with none_ | ⟨given, found⟩
  · rw [none_, Option.none_or]
    by_cases over_ : cliOverrides.blocks path = true
    · rw [if_pos over_]
      constructor
      · intro taken
        have unset : ∀ value, ¬ Sets puts path value := fun value set_ =>
          Option.some_ne_none _ (taken.env none_ value set_).symm
        have absent := (taken.yaml none_ unset).symm
        exact ⟨fun _ => ⟨unset, absent⟩, fun _ _ => absent⟩
      · intro clear
        obtain ⟨unset, absent⟩ := clear.cli over_
        refine ⟨fun value found => ?_, fun _ value set_ => absurd set_ (unset value),
          fun _ _ => absent.symm⟩
        rw [none_] at found
        cases found
    · rw [if_neg over_]
      rcases leaf_cases (described.leaf leaf) with empty | ⟨given, found⟩
      · have unset : ∀ value, ¬ Sets puts path value := by
          intro value set_
          rw [sets.mpr set_] at empty
          cases empty
        rw [empty, Option.none_or]
        constructor
        · intro taken
          refine ⟨fun blocked => absurd blocked over_, fun _ covered => ?_⟩
          have same := taken.yaml none_ unset
          rw [if_pos (covers.mpr covered)] at same
          exact same.symm
        · intro clear
          refine ⟨fun value found => ?_, fun _ value set_ => absurd set_ (unset value),
            fun _ _ => ?_⟩
          · rw [none_] at found
            cases found
          · split
            · rename_i blocked
              exact (clear.env none_ (covers.mp blocked)).symm
            · rfl
      · rw [found, Option.some_or]
        refine iff_of_true ⟨fun value given_ => ?_, fun _ value set_ => ?_, fun _ unset => ?_⟩
          ⟨fun blocked => absurd blocked over_, fun _ covered => ?_⟩
        · rw [none_] at given_
          cases given_
        · exact found.symm.trans (sets.mpr set_)
        · exact absurd (sets.mp found) (unset given)
        · rw [DictValue.at?_of_blocks (covers.mpr covered)] at found
          cases found
  · rw [found, Option.some_or]
    refine iff_of_true ⟨fun value given_ => ?_, fun absent => ?_, fun absent => ?_⟩
      ⟨fun blocked => ?_, fun absent => ?_⟩
    · exact found.symm.trans given_
    · rw [found] at absent
      cases absent
    · rw [found] at absent
      cases absent
    · have absent := DictValue.at?_of_blocks blocked
      rw [Mapping.at?, absent] at found
      cases found
    · rw [found] at absent
      cases absent

end Precedence

/-- The variables agree with each other, and no source shadows a leaf of a lower one. -/
theorem load_settings_precedence_iff (python : Python κ α) (yaml : Mapping κ α)
    (environ : List (String × String)) (cliOverrides : Mapping κ α) :
    OrderFree python environ ∧ Precedence python yaml environ cliOverrides ↔
      Agree (assignments python environ) ∧
        ∀ path, LeafPath yaml (assignments python environ) cliOverrides path →
          Unshadowed yaml (assignments python environ) cliOverrides path := by
  rw [orderFree_iff_agree]
  refine and_congr_right fun agree => ?_
  obtain ⟨env, ran, described⟩ := Describes.nil.all agree
    fun put member => (mem_assignments member).1
  rw [← envOverrides_eq] at ran
  obtain ⟨raw, made, found⟩ := rawSettings_at? yaml cliOverrides ran
  constructor
  · intro precedence path leaf
    have taken := precedence raw made path leaf
    rw [found] at taken
    exact (taken_iff_unshadowed described leaf).mp taken
  · intro clear raw' made' path leaf
    cases Except.ok.inj (made.symm.trans made')
    rw [found]
    exact (taken_iff_unshadowed described leaf).mpr (clear path leaf)

section Plain

/-- Scalars of JSON, of which an array is not looked into. -/
inductive PlainScalar
  | null
  | bool (value : Bool)
  | int (value : Int)
  | float (value : FloatValue)
  | text (value : String)
  | array
  deriving DecidableEq

mutual

def ofJson : Json → DictValue String PlainScalar
  | .null => .scalar .null
  | .bool value => .scalar (.bool value)
  | .int value => .scalar (.int value)
  | .float value => .scalar (.float value)
  | .string value => .scalar (.text value)
  | .array _ => .scalar .array
  | .object fields => .mapping (ofFields fields)

/-- Of two members with one name the later counts. -/
def ofFields : List (String × Json) → Dict String PlainScalar
  | [] => .nil
  | (key, value) :: rest =>
    if ((ofFields rest).get? key).isSome then ofFields rest
    else .cons key (ofJson value) (ofFields rest)

end

mutual

private theorem ofJson_unique : ∀ value : Json, (ofJson value).Unique
  | .null => trivial
  | .bool _ => trivial
  | .int _ => trivial
  | .float _ => trivial
  | .string _ => trivial
  | .array _ => trivial
  | .object fields => ofFields_unique fields

private theorem ofFields_unique : ∀ fields : List (String × Json), (ofFields fields).Unique
  | [] => trivial
  | (key, value) :: rest => by
    rw [ofFields]
    split
    · exact ofFields_unique rest
    · rename_i absent
      exact Dict.unique_cons (Option.not_isSome_iff_eq_none.mp absent) (ofJson_unique value)
        (ofFields_unique rest)

end

/-- Python on texts without floating-point numbers. -/
def plainPython : Python String PlainScalar where
  key := id
  null := .null
  bool := .bool
  int := .int
  text := .text
  lower := String.toLower
  float _ := none
  jsonLoads text := (jsonLoads (fun _ => .nan) text).map ofJson
  jsonLoads_unique := by
    intro text value loaded
    obtain ⟨json, _, rfl⟩ := Option.map_eq_some_iff.mp loaded
    exact ofJson_unique json

def sectionVariable : String × String := ("UPLOAD_STORAGE", "\x7b\"backend\": \"local\"\x7d")

def fieldVariable : String × String := ("UPLOAD_STORAGE__BACKEND", "s3")

def sectionAssignment : Assignment String PlainScalar :=
  (["storage"], .mapping (.scalar "backend" (.text "local") .nil))

def fieldAssignment : Assignment String PlainScalar :=
  (["storage", "backend"], .scalar (.text "s3"))

private theorem sectionVariable_assigns :
    assignment? plainPython sectionVariable = some sectionAssignment := by
  decide +kernel

private theorem fieldVariable_assigns : assignment? plainPython fieldVariable = some fieldAssignment := by
  decide +kernel

/-- A section given as JSON and a field of it: whichever comes last counts. -/
theorem section_and_field_in_either_order :
    ¬ ∀ (yaml cliOverrides : Mapping String PlainScalar) (environ : List (String × String)),
      OrderFree plainPython environ ∧ Precedence plainPython yaml environ cliOverrides := by
  intro always
  obtain ⟨view, tells⟩ := orderFree_last (always .empty .empty [sectionVariable, fieldVariable]).1
  have listed : assignments plainPython [sectionVariable, fieldVariable] =
      [sectionAssignment, fieldAssignment] := by
    rw [assignments, List.filterMap_cons_some sectionVariable_assigns,
      List.filterMap_cons_some fieldVariable_assigns, List.filterMap_nil]
  rw [listed] at tells
  have outer : view ["storage", "backend"] = some (.scalar (.text "local")) :=
    tells sectionAssignment (by simp) ["backend"]
  have inner : view ["storage", "backend"] = some (.scalar (.text "s3")) :=
    tells fieldAssignment (by simp) []
  rw [outer] at inner
  simp at inner

end Plain

end PyUploadX.Loader
