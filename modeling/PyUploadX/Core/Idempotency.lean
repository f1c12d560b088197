import Mathlib.Data.List.Perm.Basic
import PyUploadX.Core.JsonDumps
import PyUploadX.Kit.Utf8

/-! The hash that tells one request of an operation from another. -/
namespace PyUploadX

/-! Values that differ in the order of members only. -/

mutual

inductive Json.Same : Json → Json → Prop
  | refl (value : Json) : Json.Same value value
  | array {first second : List Json} : SameItems first second →
      Json.Same (.array first) (.array second)
  | object {first second reordered : List (String × Json)} : SameMembers first second →
      second.Perm reordered → Json.Same (.object first) (.object reordered)

inductive SameItems : List Json → List Json → Prop
  | nil : SameItems [] []
  | cons {first second : Json} {others rest : List Json} : Json.Same first second →
      SameItems others rest → SameItems (first :: others) (second :: rest)

inductive SameMembers : List (String × Json) → List (String × Json) → Prop
  | nil : SameMembers [] []
  | cons {key : String} {first second : Json} {others rest : List (String × Json)} :
      Json.Same first second → SameMembers others rest →
      SameMembers ((key, first) :: others) ((key, second) :: rest)

end

section Hash

variable (sha256 : Bytes → String) (floatText : FloatValue → List Char)

/-- What `request_hash` feeds to the digest. -/
def requestBytes (operation : String) : Option JsonObject → Except Failure Bytes
  | none => .ok operation.toUTF8.toList
  | some payload => do
    let text ← jsonDumps floatText { sortKeys := true } (.object payload)
    return operation.toUTF8.toList ++ 0 :: text.toUTF8.toList

def requestHash (operation : String) (payload : Option JsonObject) : Except Failure String := do
  let bytes ← requestBytes floatText operation payload
  return sha256 bytes

end Hash

/-! Two values are the same exactly if they are sorted to one. -/

/-- What is sorted to a reordering of the members is sorted from one. -/
theorem perm_sortedMembers {first second : List (String × Json)}
    (order : (sortedMembers first).Perm (sortedMembers second)) :
    ∃ reordered, sortedMembers first = sortedMembers reordered ∧ reordered.Perm second := by
  let spelled : String × Json → String × Json → Prop := fun sorted member =>
    sorted = (member.1, member.2.sorted)
  have forward : ∀ members, List.Forall₂ spelled (sortedMembers members) members := by
    intro members
    rw [sortedMembers_eq_map, List.forall₂_map_left_iff]
    exact List.forall₂_same.mpr fun _ _ => rfl
  obtain ⟨reordered, each, moved⟩ := List.perm_comp_forall₂ order (forward second)
  refine ⟨reordered, ?_, moved⟩
  rw [sortedMembers_eq_map reordered]
  exact List.forall₂_eq_eq_eq ▸ (List.forall₂_map_right_iff.mpr each)

private theorem keyOrder_trans : IsTrans (String × Json) keyOrder :=
  ⟨fun _ _ _ first second => String.le_trans first second⟩

theorem insertionSort_eq_of_perm {first second : List (String × Json)} (order : first.Perm second)
    (distinct : (first.map (·.1)).Nodup) :
    first.insertionSort keyOrder = second.insertionSort keyOrder := by
  have total : Std.Total keyOrder := ⟨fun member other => String.le_total member.1 other.1⟩
  have trans := keyOrder_trans
  have sorted := (List.perm_insertionSort keyOrder first).trans
    (order.trans (List.perm_insertionSort keyOrder second).symm)
  refine List.Perm.eq_of_pairwise ?_ (List.pairwise_insertionSort keyOrder first)
    (List.pairwise_insertionSort keyOrder second) sorted
  intro member other present present' before after
  have inside := (List.perm_insertionSort keyOrder first).mem_iff.mp present
  have inside' := order.mem_iff.mpr
    ((List.perm_insertionSort keyOrder second).mem_iff.mp present')
  exact List.inj_on_of_nodup_map distinct inside inside' (String.le_antisymm before after)

mutual

private theorem Json.Same.sorted_eq : {first second : Json} → first.Same second → first.Plain →
    first.sorted = second.sorted
  | _, _, .refl _, _ => rfl
  | _, _, .array items, plain => congrArg Json.array (items.sorted_eq plain)
  | .object members, .object reordered, .object same order, plain => by
    have equal := same.sorted_eq plain.2
    have distinct : ((sortedMembers members).map (·.1)).Nodup := by
      rw [sortedMembers_keys]
      exact plain.1
    have moved : (sortedMembers members).Perm (sortedMembers reordered) := by
      rw [equal, sortedMembers_eq_map, sortedMembers_eq_map]
      exact order.map _
    exact congrArg Json.object (insertionSort_eq_of_perm moved distinct)

private theorem SameItems.sorted_eq : {first second : List Json} → SameItems first second →
    PlainItems first → sortedItems first = sortedItems second
  | _, _, .nil, _ => rfl
  | _, _, .cons item items, plain => by
    rw [sortedItems, sortedItems, item.sorted_eq plain.1, items.sorted_eq plain.2]

private theorem SameMembers.sorted_eq : {first second : List (String × Json)} →
    SameMembers first second → PlainMembers first → sortedMembers first = sortedMembers second
  | _, _, .nil, _ => rfl
  | _, _, .cons member members, plain => by
    rw [sortedMembers, sortedMembers, member.sorted_eq plain.1, members.sorted_eq plain.2]

end

mutual

private theorem Json.same_of_sorted : (first second : Json) → first.sorted = second.sorted →
    first.Same second
  | .null, second, equal => by cases second <;> cases equal; exact .refl _
  | .bool _, second, equal => by cases second <;> cases equal; exact .refl _
  | .int _, second, equal => by cases second <;> cases equal; exact .refl _
  | .float _, second, equal => by cases second <;> cases equal; exact .refl _
  | .string _, second, equal => by cases second <;> cases equal; exact .refl _
  | .array items, second, equal => by
    cases second with
    | array others => exact .array (sameItems_of_sorted items others (Json.array.inj equal))
    | _ => cases equal
  | .object members, second, equal => by
    cases second with
    | object others =>
      have sorted := Json.object.inj equal
      have order : (sortedMembers members).Perm (sortedMembers others) :=
        (List.perm_insertionSort keyOrder _).symm.trans
          (sorted ▸ List.perm_insertionSort keyOrder _)
      obtain ⟨reordered, same, moved⟩ := perm_sortedMembers order
      exact .object (sameMembers_of_sorted members reordered same) moved
    | _ => cases equal

private theorem sameItems_of_sorted : (first second : List Json) →
    sortedItems first = sortedItems second → SameItems first second
  | [], [], _ => .nil
  | [], _ :: _, equal => by cases equal
  | _ :: _, [], equal => by cases equal
  | item :: rest, other :: others, equal =>
    .cons (Json.same_of_sorted item other (List.cons.inj equal).1)
      (sameItems_of_sorted rest others (List.cons.inj equal).2)

private theorem sameMembers_of_sorted : (first second : List (String × Json)) →
    sortedMembers first = sortedMembers second → SameMembers first second
  | [], [], _ => .nil
  | [], _ :: _, equal => by cases equal
  | _ :: _, [], equal => by cases equal
  | (key, value) :: rest, (_, other) :: others, equal => by
    obtain ⟨member, later⟩ := List.cons.inj equal
    obtain ⟨rfl, sorted⟩ := Prod.mk.inj member
    exact .cons (Json.same_of_sorted value other sorted) (sameMembers_of_sorted rest others later)

end

/-- Two bodies are written to the same text exactly if they are the same. -/
theorem jsonDumps_eq_iff (floatText : FloatValue → List Char) {first second : Json}
    (plain : first.Plain) (plain' : second.Plain) :
    jsonDumps floatText { sortKeys := true } first =
      jsonDumps floatText { sortKeys := true } second ↔ first.Same second := by
  unfold jsonDumps
  rw [if_pos rfl, if_pos rfl]
  constructor
  · intro equal
    obtain ⟨text, written, reads⟩ := dumpsAt_loads (fun _ => .nan) floatText { sortKeys := true }
      (Json.Plain.sorted first plain)
    obtain ⟨text', written', reads'⟩ := dumpsAt_loads (fun _ => .nan) floatText
      { sortKeys := true } (Json.Plain.sorted second plain')
    rw [written, written'] at equal
    rw [Except.ok.inj equal] at reads
    exact Json.same_of_sorted _ _ (Option.some.inj (reads.symm.trans reads'))
  · intro same
    rw [same.sorted_eq plain]

/-- The payload is one that is written without loss. -/
def PlainPayload (payload : Option JsonObject) : Prop :=
  ∀ fields ∈ payload, (Json.object fields).Plain

/-- Both have no payload, or the payloads are the same. -/
def SamePayload : Option JsonObject → Option JsonObject → Prop
  | none, none => True
  | some first, some second => (Json.object first).Same (.object second)
  | _, _ => False

theorem operation_of_bytes {first second : Bytes} (plain : (0 : UInt8) ∉ first)
    (plain' : (0 : UInt8) ∉ second) {rest rest' : Bytes}
    (equal : first ++ 0 :: rest = second ++ 0 :: rest') : first = second ∧ rest = rest' := by
  induction first generalizing second with
  | nil =>
    cases second with
    | nil => exact ⟨rfl, (List.cons.inj equal).2⟩
    | cons byte others =>
      exact absurd (List.mem_cons.mpr (.inl (List.cons.inj equal).1)) plain'
  | cons byte others ih =>
    cases second with
    | nil => exact absurd (List.mem_cons.mpr (.inl (List.cons.inj equal).1.symm)) plain
    | cons byte' others' =>
      obtain ⟨rfl, later⟩ := List.cons.inj equal
      obtain ⟨rfl, rfl⟩ := ih (fun member => plain (List.mem_cons_of_mem _ member))
        (fun member => plain' (List.mem_cons_of_mem _ member)) later
      exact ⟨rfl, rfl⟩

variable {floatText : FloatValue → List Char} {operation operation' : String}
  {payload payload' : Option JsonObject}

/-- A payload that is written without loss is digested behind the operation and a zero. -/
theorem requestBytes_some (operation : String) {fields : JsonObject}
    (plain : (Json.object fields).Plain) :
    ∃ text, jsonDumps floatText { sortKeys := true } (.object fields) = .ok text ∧
      requestBytes floatText operation (some fields) =
        .ok (operation.toUTF8.toList ++ 0 :: text.toUTF8.toList) := by
  obtain ⟨text, written, _⟩ := dumpsAt_loads (fun _ => .nan) floatText { sortKeys := true }
    (Json.Plain.sorted _ plain)
  have dumped : jsonDumps floatText { sortKeys := true } (.object fields) =
      .ok (String.ofList text) := Kit.except_map_eq_ok.mpr ⟨text, written, rfl⟩
  exact ⟨_, dumped, Kit.except_bind_eq_ok.mpr ⟨_, dumped, rfl⟩⟩

private theorem requestBytes_ok (operation : String) (plain : PlainPayload payload) :
    ∃ bytes, requestBytes floatText operation payload = .ok bytes := by
  cases payload with
  | none => exact ⟨_, rfl⟩
  | some fields =>
    obtain ⟨_, _, digested⟩ := requestBytes_some operation (plain fields rfl)
    exact ⟨_, digested⟩

/-- A request without a payload is digested like none that has one. -/
theorem requestBytes_none_ne (named : (0 : UInt8) ∉ operation.toUTF8.toList)
    {fields : JsonObject} (plain : (Json.object fields).Plain) :
    requestBytes floatText operation none ≠ requestBytes floatText operation' (some fields) := by
  intro equal
  obtain ⟨text, _, digested⟩ := requestBytes_some operation' plain
  rw [digested] at equal
  have bytes : operation.toUTF8.toList = _ ++ 0 :: text.toUTF8.toList := Except.ok.inj equal
  rw [bytes] at named
  exact named (List.mem_append_right _ List.mem_cons_self)

/-- Two requests are digested alike exactly if they ask for the same. -/
theorem requestBytes_eq_iff (plain : PlainPayload payload) (plain' : PlainPayload payload')
    (named : (0 : UInt8) ∉ operation.toUTF8.toList)
    (named' : (0 : UInt8) ∉ operation'.toUTF8.toList) :
    requestBytes floatText operation payload = requestBytes floatText operation' payload' ↔
      operation = operation' ∧ SamePayload payload payload' := by
  match payload, payload' with
  | none, none =>
    constructor
    · intro equal
      exact ⟨Kit.utf8_injective (Except.ok.inj equal), trivial⟩
    · intro same
      rw [same.1]
  | none, some fields =>
    exact iff_of_false (requestBytes_none_ne named (plain' fields rfl)) fun same => same.2
  | some fields, none =>
    exact iff_of_false (requestBytes_none_ne named' (plain fields rfl)).symm fun same => same.2
  | some fields, some fields' =>
    obtain ⟨text, written, digested⟩ := requestBytes_some operation (plain fields rfl)
    obtain ⟨text', written', digested'⟩ := requestBytes_some operation' (plain' fields' rfl)
    have texts := jsonDumps_eq_iff floatText (plain fields rfl) (plain' fields' rfl)
    rw [written, written'] at texts
    rw [digested, digested']
    constructor
    · intro equal
      obtain ⟨operations, bodies⟩ := operation_of_bytes named named' (Except.ok.inj equal)
      exact ⟨Kit.utf8_injective operations,
        texts.mp (congrArg Except.ok (Kit.utf8_injective bodies))⟩
    · rintro ⟨rfl, same⟩
      rw [Except.ok.inj (texts.mpr same)]

/-- `request_hash` takes two requests for one, whatever the digest, exactly if they name one
operation and their payloads are the same but for the order of members. -/
theorem requestHash_eq_iff (floatText : FloatValue → List Char) (plain : PlainPayload payload)
    (plain' : PlainPayload payload') (named : (0 : UInt8) ∉ operation.toUTF8.toList)
    (named' : (0 : UInt8) ∉ operation'.toUTF8.toList) :
    (∀ sha256, requestHash sha256 floatText operation payload =
      requestHash sha256 floatText operation' payload') ↔
      operation = operation' ∧ SamePayload payload payload' := by
  rw [← @requestBytes_eq_iff floatText _ _ _ _ plain plain' named named']
  constructor
  · intro equal
    obtain ⟨bytes, digested⟩ := @requestBytes_ok floatText _ operation plain
    obtain ⟨bytes', digested'⟩ := @requestBytes_ok floatText _ operation' plain'
    -- a digest that tells the first request from every other
    have told := equal fun other => if other = bytes then "" else "other"
    unfold requestHash at told
    rw [digested, digested'] at told ⊢
    have same : (if bytes = bytes then "" else "other") =
        if bytes' = bytes then "" else "other" := Except.ok.inj told
    rw [if_pos rfl] at same
    split at same
    · rename_i alike
      rw [alike]
    · exact absurd same (by decide)
  · intro equal sha256
    unfold requestHash
    rw [equal]

/-- The members of a payload in another order. -/
theorem requestHash_eq_iff_reordered :
    SamePayload (some [("file_name", .string "a.bin"), ("file_size", .int 3)])
        (some [("file_size", .int 3), ("file_name", .string "a.bin")]) ∧
      ∀ sha256, requestHash sha256 (fun _ => []) "create_upload"
          (some [("file_name", .string "a.bin"), ("file_size", .int 3)]) =
        requestHash sha256 (fun _ => []) "create_upload"
          (some [("file_size", .int 3), ("file_name", .string "a.bin")]) := by
  have short : (Nat.toDigits 10 (3 : Int).natAbs).length ≤ maximumDigits := by decide
  have named : (0 : UInt8) ∉ "create_upload".toUTF8.toList := by decide +kernel
  have same : SamePayload (some [("file_name", .string "a.bin"), ("file_size", .int 3)])
      (some [("file_size", .int 3), ("file_name", .string "a.bin")]) :=
    .object (.cons (.refl _) (.cons (.refl _) .nil)) (.swap _ _ _)
  refine ⟨same, (requestHash_eq_iff (fun _ => []) ?_ ?_ named named).mpr ⟨rfl, same⟩⟩
  · rintro fields ⟨⟩
    exact ⟨by decide, trivial, short, trivial⟩
  · rintro fields ⟨⟩
    exact ⟨by decide, short, trivial, trivial⟩

end PyUploadX
