import Mathlib.Data.List.DropRight
import PyUploadX.Core.Errors

/-! HTTP `Range` headers with a single range, and `int(…)`, which reads their numbers. -/
namespace PyUploadX

/-- The code points for which `str.isspace` holds. -/
def spaces : List Nat :=
  [0x9, 0xa, 0xb, 0xc, 0xd, 0x1c, 0x1d, 0x1e, 0x1f, 0x20, 0x85, 0xa0, 0x1680, 0x2000, 0x2001,
    0x2002, 0x2003, 0x2004, 0x2005, 0x2006, 0x2007, 0x2008, 0x2009, 0x200a, 0x2028, 0x2029, 0x202f,
    0x205f, 0x3000]

/-- The code points of the decimal digits zero; each starts a run of ten digits. -/
def zeros : List Nat :=
  [0x30, 0x660, 0x6f0, 0x7c0, 0x966, 0x9e6, 0xa66, 0xae6, 0xb66, 0xbe6, 0xc66, 0xce6, 0xd66, 0xde6,
    0xe50, 0xed0, 0xf20, 0x1040, 0x1090, 0x17e0, 0x1810, 0x1946, 0x19d0, 0x1a80, 0x1a90, 0x1b50,
    0x1bb0, 0x1c40, 0x1c50, 0xa620, 0xa8d0, 0xa900, 0xa9d0, 0xa9f0, 0xaa50, 0xabf0, 0xff10, 0x104a0,
    0x10d30, 0x11066, 0x110f0, 0x11136, 0x111d0, 0x112f0, 0x11450, 0x114d0, 0x11650, 0x116c0,
    0x11730, 0x118e0, 0x11950, 0x11c50, 0x11d50, 0x11da0, 0x11f50, 0x16a60, 0x16ac0, 0x16b50,
    0x1d7ce, 0x1d7d8, 0x1d7e2, 0x1d7ec, 0x1d7f6, 0x1e140, 0x1e2f0, 0x1e4f0, 0x1e950, 0x1fbf0]

def isSpace (char : Char) : Bool := char.toNat ∈ spaces

def digitOf (char : Char) : Option Nat :=
  (zeros.find? fun first => first ≤ char.toNat ∧ char.toNat < first + 10).map (char.toNat - ·)

/-- Drop what satisfies the predicate from both ends. -/
def stripBy (drop : Char → Bool) (text : List Char) : List Char :=
  (text.dropWhile drop).rdropWhile drop

theorem stripBy_subset (drop : Char → Bool) (text : List Char) : stripBy drop text ⊆ text :=
  ((List.rdropWhile_prefix drop _).sublist.trans (List.dropWhile_sublist drop)).subset

/-- `text.strip()`. -/
def strip (text : String) : String := String.ofList (stripBy isSpace text.toList)

/-- White space around a number; the four separators are no white space there. -/
def isNumberSpace (char : Char) : Bool := isSpace char && !(0x1c ≤ char.toNat && char.toNat ≤ 0x1f)

/-- Digits, with single underscores between them. -/
def readDigits : Bool → Nat → List Char → Option Nat
  | digitBefore, total, [] => if digitBefore then some total else none
  | digitBefore, total, char :: rest =>
    if char = '_' then
      if digitBefore then readDigits false total rest else none
    else
      match digitOf char with
      | none => none
      | some digit => readDigits true (10 * total + digit) rest

/-- `sys.int_info.default_max_str_digits`. -/
def maximumDigits : Nat := 4300

def unsignedNumber (text : List Char) : Option Nat :=
  if maximumDigits < text.countP (fun char => (digitOf char).isSome) then none
  else readDigits false 0 text

/-- `int(text)`; `none` is a `ValueError`. -/
def parseInt (text : String) : Option Int :=
  match stripBy isNumberSpace text.toList with
  | '-' :: rest => (unsignedNumber rest).map fun number => -(number : Int)
  | '+' :: rest => (unsignedNumber rest).map Int.ofNat
  | rest => (unsignedNumber rest).map Int.ofNat

/-- Both ends belong to the range. -/
structure ByteRange where
  start : Nat
  last : Nat
  ordered : start ≤ last
  deriving DecidableEq

def ByteRange.length (range : ByteRange) : Nat := range.last - range.start + 1

/-- The ends a range spec names, before they are compared with the size. -/
def rangeEnds (startText endText : String) (size : Nat) : Option (Int × Int) :=
  if startText = "" then
    (parseInt endText).bind fun suffix =>
      if suffix ≤ 0 then none else some (max 0 (size - suffix), size - 1)
  else
    (parseInt startText).bind fun start =>
      (if endText = "" then some (size - 1 : Int) else parseInt endText).map fun last => (start, last)

def parseByteRange (header : String) (size : Nat) : Except Failure ByteRange :=
  let refuse := fun message => Except.error (.api (.rangeNotSatisfiable message))
  if header.startsWith "bytes=" = false then refuse s!"Unsupported range spec: {header}"
  else
    let spec := strip (String.ofList (header.toList.drop 6))
    if ',' ∈ spec.toList then refuse "Multi-range requests are not supported"
    else if '-' ∉ spec.toList then refuse s!"Invalid range spec: {header}"
    else
      let startText := String.ofList (spec.toList.takeWhile (· ≠ '-'))
      let endText := String.ofList ((spec.toList.dropWhile (· ≠ '-')).drop 1)
      match rangeEnds startText endText size with
      | none => refuse s!"Invalid range spec: {header}"
      | some (start, last) =>
        if outside : size = 0 ∨ (size : Int) ≤ start ∨ last < start then
          refuse s!"Range not satisfiable: {header}"
        else
          .ok {
            start := start.toNat
            last := (min last (size - 1)).toNat
            ordered := by omega }

end PyUploadX
