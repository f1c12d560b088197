import PyUploadX.Core.Json

/-! `json.loads`. A reader takes what it reads from the front of a text and gives the rest
back; where there is none, the source raises. -/
namespace PyUploadX

def JsonObject.assign (fields : JsonObject) (key : String) (value : Json) : JsonObject :=
  if (fields.find? key).isSome then
    fields.map fun field => if field.1 = key then (key, value) else field
  else fields ++ [(key, value)]

namespace JsonText

def isWhitespace (char : Char) : Bool := char = ' ' || char = '\t' || char = '\n' || char = '\r'

def skipSpace (text : List Char) : List Char := text.dropWhile isWhitespace

def hexValue (char : Char) : Option Nat :=
  if char.isDigit then some (char.toNat - '0'.toNat)
  else if 'a'.toNat ≤ char.toNat ∧ char.toNat ≤ 'f'.toNat then some (char.toNat - 'a'.toNat + 10)
  else if 'A'.toNat ≤ char.toNat ∧ char.toNat ≤ 'F'.toNat then some (char.toNat - 'A'.toNat + 10)
  else none

/-- The four digits after `\u`. -/
def codeUnit (first second third fourth : Char) : Option Nat := do
  let first ← hexValue first
  let second ← hexValue second
  let third ← hexValue third
  let fourth ← hexValue fourth
  return ((first * 16 + second) * 16 + third) * 16 + fourth

/-- What a backslash and this character stand for. -/
def unescape (char : Char) : Option Char :=
  if char = '"' ∨ char = '\\' ∨ char = '/' then some char
  else if char = 'b' then some '\x08'
  else if char = 'f' then some '\x0c'
  else if char = 'n' then some '\n'
  else if char = 'r' then some '\r'
  else if char = 't' then some '\t'
  else none

/-- The rest of a string whose opening quote is read. A surrogate without its partner is no
character of a text here. -/
def readString : List Char → Option (List Char × List Char)
  | [] => none
  | char :: rest =>
    if char = '"' then some ([], rest)
    else if char.toNat < 0x20 then none
    else if char ≠ '\\' then (readString rest).map fun read => (char :: read.1, read.2)
    else
      match rest with
      | [] => none
      | escape :: rest =>
        if escape ≠ 'u' then
          (unescape escape).bind fun char =>
            (readString rest).map fun read => (char :: read.1, read.2)
        else
          match rest with
          | first :: second :: third :: fourth :: rest =>
            match codeUnit first second third fourth with
            | none => none
            | some unit =>
              if 0xdc00 ≤ unit ∧ unit < 0xe000 then none
              else if unit < 0xd800 ∨ 0xe000 ≤ unit then
                (readString rest).map fun read => (Char.ofNat unit :: read.1, read.2)
              else
                match rest with
                | slash :: letter :: first :: second :: third :: fourth :: rest =>
                  if slash = '\\' ∧ letter = 'u' then
                    match codeUnit first second third fourth with
                    | none => none
                    | some low =>
                      if 0xdc00 ≤ low ∧ low < 0xe000 then
                        let point := 0x10000 + (unit - 0xd800) * 0x400 + (low - 0xdc00)
                        (readString rest).map fun read => (Char.ofNat point :: read.1, read.2)
                      else none
                  else none
                | _ => none
          | _ => none

/-- `0|[1-9][0-9]*`. -/
def readNatural : List Char → Option (List Char × List Char)
  | [] => none
  | char :: rest =>
    if char = '0' then some ([char], rest)
    else if char.isDigit then some (char :: rest.takeWhile Char.isDigit, rest.dropWhile Char.isDigit)
    else none

/-- `(\.[0-9]+)?`. -/
def readFraction : List Char → List Char × List Char
  | [] => ([], [])
  | char :: rest =>
    if char = '.' ∧ rest.takeWhile Char.isDigit ≠ [] then
      (char :: rest.takeWhile Char.isDigit, rest.dropWhile Char.isDigit)
    else ([], char :: rest)

/-- `([eE][-+]?[0-9]+)?`. -/
def readExponent : List Char → List Char × List Char
  | [] => ([], [])
  | char :: rest =>
    let sign := rest.take (if rest.head? = some '-' ∨ rest.head? = some '+' then 1 else 0)
    let digits := rest.drop sign.length
    if (char = 'e' ∨ char = 'E') ∧ digits.takeWhile Char.isDigit ≠ [] then
      (char :: sign ++ digits.takeWhile Char.isDigit, digits.dropWhile Char.isDigit)
    else ([], char :: rest)

variable (float : String → FloatValue)

/-- A number without its sign. An integer may have any number of digits. -/
def readNumber (negative : Bool) (text : List Char) : Option (Json × List Char) :=
  (readNatural text).map fun natural =>
    let fraction := readFraction natural.2
    let exponent := readExponent fraction.2
    if fraction.1 = [] ∧ exponent.1 = [] then
      let number : Int := Nat.ofDigitChars 10 natural.1 0
      (.int (if negative then -number else number), natural.2)
    else
      let sign := if negative then ['-'] else []
      (.float (float (String.ofList (sign ++ natural.1 ++ fraction.1 ++ exponent.1))), exponent.2)

def readWord (word : String) (value : Json) (text : List Char) : Option (Json × List Char) :=
  if word.toList.isPrefixOf text then some (value, text.drop word.length) else none

/-- A key, from behind its quote on, and its value. -/
def readMember (readValue : List Char → Option (Json × List Char)) (text : List Char) :
    Option ((String × Json) × List Char) :=
  (readString text).bind fun key =>
    match skipSpace key.2 with
    | [] => none
    | colon :: rest =>
      if colon = ':' then
        (readValue (skipSpace rest)).map fun value => ((String.ofList key.1, value.1), value.2)
      else none

/-- What follows a member: the end of the object, or the quote of the next key. -/
def readNext (text : List Char) : Option (Bool × List Char) :=
  match skipSpace text with
  | [] => none
  | char :: rest =>
    if char = '\x7d' then some (false, rest)
    else if char ≠ ',' then none
    else
      match skipSpace rest with
      | [] => none
      | quote :: rest => if quote = '"' then some (true, rest) else none

/-- The members of an object, from behind the quote of the next key on. -/
def readMembers (readValue : List Char → Option (Json × List Char)) :
    Nat → JsonObject → List Char → Option (Json × List Char)
  | 0, _, _ => none
  | fuel + 1, fields, text =>
    (readMember readValue text).bind fun member =>
      let fields := fields.assign member.1.1 member.1.2
      (readNext member.2).bind fun next =>
        if next.1 then readMembers readValue fuel fields next.2
        else some (.object fields, next.2)

def readItems (readValue : List Char → Option (Json × List Char)) :
    Nat → List Json → List Char → Option (Json × List Char)
  | 0, _, _ => none
  | fuel + 1, items, text =>
    (readValue text).bind fun value =>
      match skipSpace value.2 with
      | [] => none
      | char :: rest =>
        if char = ']' then some (.array (items ++ [value.1]), rest)
        else if char = ',' then readItems readValue fuel (items ++ [value.1]) (skipSpace rest)
        else none

/-- `scan_once`. The fuel bounds the nesting and the number of members. -/
def readValue : Nat → List Char → Option (Json × List Char)
  | 0, _ => none
  | _ + 1, [] => none
  | fuel + 1, char :: rest =>
    if char = '"' then (readString rest).map fun read => (.string (String.ofList read.1), read.2)
    else if char = '\x7b' then
      match skipSpace rest with
      | [] => none
      | next :: after =>
        if next = '\x7d' then some (.object [], after)
        else if next = '"' then readMembers (readValue fuel) fuel [] after
        else none
    else if char = '[' then
      if (skipSpace rest).head? = some ']' then some (.array [], (skipSpace rest).tail)
      else readItems (readValue fuel) fuel [] (skipSpace rest)
    else if char = 'n' then readWord "null" .null (char :: rest)
    else if char = 't' then readWord "true" (.bool true) (char :: rest)
    else if char = 'f' then readWord "false" (.bool false) (char :: rest)
    else if char = 'N' then readWord "NaN" (.float .nan) (char :: rest)
    else if char = 'I' then readWord "Infinity" (.float .infinite) (char :: rest)
    else if char = '-' then
      if rest.head? = some 'I' then readWord "-Infinity" (.float .infinite) (char :: rest)
      else readNumber float true rest
    else readNumber float false (char :: rest)

end JsonText

/-- `json.loads(text)`; `none` is a `ValueError`. Each step down and each member takes a
character, so there is fuel enough. -/
def jsonLoads (float : String → FloatValue) (text : String) : Option Json :=
  match JsonText.readValue float (text.length + 1) (JsonText.skipSpace text.toList) with
  | none => none
  | some (value, rest) => if JsonText.skipSpace rest = [] then some value else none

end PyUploadX
