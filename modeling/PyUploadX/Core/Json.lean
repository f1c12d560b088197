import PyUploadX.Core.Decimal

/-! JSON bodies as `json.loads` gives them, and numbers as texts. -/
namespace PyUploadX

/-- A float, as far as `int(…)` looks at it. -/
inductive FloatValue
  | finite (truncated : Int)
  | infinite
  | nan
  deriving DecidableEq, Repr

inductive Json
  | null
  | bool (value : Bool)
  | int (value : Int)
  | float (value : FloatValue)
  | string (value : String)
  | array (items : List Json)
  | object (fields : List (String × Json))

/-- A `dict`, whose keys are distinct. -/
abbrev JsonObject := List (String × Json)

namespace JsonObject

def find? (fields : JsonObject) (key : String) : Option Json :=
  (List.find? (fun field => decide (field.1 = key)) fields).map (·.2)

/-- `fields.get(key)`, where `None` is a value that is not given. -/
def given (fields : JsonObject) (key : String) : Option Json :=
  match fields.find? key with
  | some .null | none => none
  | some value => some value

/-- `fields.get(key)` if it is a `dict`. -/
def group (fields : JsonObject) (key : String) : Option JsonObject :=
  match fields.find? key with
  | some (.object fields) => some fields
  | _ => none

end JsonObject

/-- `value in texts`. -/
def Json.among (texts : List String) : Json → Option String
  | .string text => if text ∈ texts then some text else none
  | _ => none

theorem Json.among_eq_some {texts : List String} {value : Json} {text : String}
    (found : value.among texts = some text) : value = .string text ∧ text ∈ texts := by
  unfold among at found
  split at found
  · split at found
    · rename_i listed
      cases found
      exact ⟨rfl, listed⟩
    · cases found
  · cases found

/-- `str(number)`. -/
def intText (number : Int) : Except Failure String :=
  if maximumDigits < (Nat.toDigits 10 number.natAbs).length then
    .error (.value ("Exceeds the limit (4300 digits) for integer string conversion; " ++
      "use sys.set_int_max_str_digits() to increase the limit"))
  else .ok (toString number)

/-- A text that `str` makes of a number is read back as the number. -/
theorem parseInt_intText {number : Int} {text : String} (written : intText number = .ok text) :
    parseInt text = some number := by
  unfold intText at written
  split at written
  · cases written
  · rename_i long
    cases written
    have short : number.natAbs < 10 ^ maximumDigits :=
      (Nat.length_toDigits_le_iff (by decide) (by decide)).mp (Nat.not_lt.mp long)
    have spelled := toList_toString_int number
    split at spelled
    · rename_i positive
      have natural : toString number = toString number.natAbs :=
        String.toList_inj.mp (spelled.trans Nat.toList_repr.symm)
      rw [natural]
      exact (parseInt_toString short).trans (congrArg some (Int.natAbs_of_nonneg positive))
    · rename_i negative
      have value : -(number.natAbs : Int) = number := by omega
      rw [parseInt, spelled, stripBy_kept]
      · simp only [unsignedNumber_toDigits short]
        exact congrArg some value
      · intro char member
        rcases List.mem_cons.mp member with rfl | later
        · decide
        · exact isNumberSpace_toDigits _ char later

end PyUploadX
