import PyUploadX.Core.Ranges
import PyUploadX.Kit.LinkTree

/-! The patterns of `include`, `exclude` and `.uploadignore`, and which paths they ignore. -/
namespace PyUploadX.Sdk

open Kit

section Fnmatch

/-- One element of a shell pattern. -/
inductive GlobToken
  | anyRun
  | anyChar
  | char (char : Char)
  | set (negated : Bool) (ranges : List (Char × Char))
  deriving DecidableEq, Repr

def GlobToken.admits (token : GlobToken) (char : Char) : Bool :=
  match token with
  | .anyRun | .anyChar => true
  | .char own => own = char
  | .set negated ranges =>
    negated != ranges.any fun range => decide (range.1 ≤ char ∧ char ≤ range.2)

/-- The body of a set; a hyphen at either end of it, or right after a range, is itself. -/
def setRanges : List Char → List (Char × Char)
  | low :: '-' :: high :: rest => (low, high) :: setRanges rest
  | char :: rest => (char, char) :: setRanges rest
  | [] => []

/-- The set after an opening bracket, and how many characters it takes; a closing bracket that
comes first belongs to the set. -/
def takeSet (chars : List Char) : Option (GlobToken × Nat) :=
  let negated := chars.head? = some '!'
  let inner := if negated then chars.tail else chars
  let leading := inner.takeWhile (· = ']') |>.take 1
  let body := leading ++ (inner.drop leading.length).takeWhile (· ≠ ']')
  if inner.length ≤ body.length then none
  else some (.set negated (setRanges body), body.length + if negated then 2 else 1)

/-- `fnmatch.translate`, after so many characters that the last set has taken. -/
def translate : Nat → List Char → List GlobToken
  | _, [] => []
  | taken + 1, _ :: rest => translate taken rest
  | 0, '*' :: rest => .anyRun :: translate 0 rest
  | 0, '?' :: rest => .anyChar :: translate 0 rest
  | 0, '[' :: rest =>
    match takeSet rest with
    | some (set, taken) => set :: translate taken rest
    | none => .char '[' :: translate 0 rest
  | 0, char :: rest => .char char :: translate 0 rest

def matchTokens : List GlobToken → List Char → Bool
  | [], chars => chars.isEmpty
  | .anyRun :: rest, chars => chars.tails.any (matchTokens rest)
  | _ :: _, [] => false
  | token :: rest, char :: chars => token.admits char && matchTokens rest chars

/-- `fnmatch.fnmatch`, where cases are told apart and a star crosses slashes. -/
def fnmatch (path pattern : String) : Bool :=
  matchTokens (translate 0 pattern.toList) path.toList

theorem translate_plain {pattern : List Char} (plain : ∀ char ∈ pattern, char ∉ ['*', '?', '[']) :
    translate 0 pattern = pattern.map .char := by
  induction pattern with
  | nil => rfl
  | cons char rest ih =>
    have others := ih fun other member => plain other (List.mem_cons_of_mem _ member)
    have first := plain char List.mem_cons_self
    simp only [List.mem_cons, List.not_mem_nil, or_false, not_or] at first
    rw [List.map_cons, ← others, translate]
    · exact first.1
    · exact first.2.1
    · exact first.2.2

theorem matchTokens_chars {own chars : List Char} :
    matchTokens (own.map .char) chars = true ↔ chars = own := by
  induction own generalizing chars with
  | nil => simp [matchTokens]
  | cons first rest ih =>
    cases chars with
    | nil => simp [matchTokens]
    | cons char others => simp [matchTokens, GlobToken.admits, ih, @eq_comm _ first char]

/-- A pattern without wildcards matches itself only. -/
theorem fnmatch_plain {path pattern : String}
    (plain : ∀ char ∈ pattern.toList, char ∉ ['*', '?', '[']) :
    fnmatch path pattern = true ↔ path = pattern := by
  unfold fnmatch
  rw [translate_plain plain, matchTokens_chars, String.toList_inj]

end Fnmatch

/-- `_match`: both branches of its test are the same expression. -/
def matchPattern (pattern relativePath : String) : Bool :=
  let stripped := pattern.toList.rdropWhile (· = '/')
  let pattern := String.ofList (if stripped.head? = some '/' then stripped.tail else stripped)
  fnmatch relativePath pattern || fnmatch relativePath ("**/" ++ pattern)

structure IgnoreRules where
  excludes : List String := []
  includes : List String := []
  ignoreFileName : String := ".uploadignore"
  deriving DecidableEq, Repr

namespace IgnoreRules

def isIgnored (rules : IgnoreRules) (relativePath : String) : Bool :=
  if rules.includes.any (matchPattern · relativePath) then false
  else rules.excludes.any (matchPattern · relativePath)

/-- An `include` wins over every `exclude`. -/
theorem isIgnored_iff {rules : IgnoreRules} {relativePath : String} :
    rules.isIgnored relativePath = true ↔
      (∀ pattern ∈ rules.includes, matchPattern pattern relativePath = false) ∧
        ∃ pattern ∈ rules.excludes, matchPattern pattern relativePath = true := by
  unfold isIgnored
  split
  · rename_i included
    obtain ⟨pattern, member, matched⟩ := List.any_eq_true.mp included
    apply iff_of_false (by simp)
    intro ignored
    rw [ignored.1 pattern member] at matched
    cases matched
  · rename_i excluded
    rw [List.any_eq_true]
    simp only [List.any_eq_true, not_exists, not_and, Bool.not_eq_true] at excluded
    exact (and_iff_right excluded).symm

end IgnoreRules

def defaultIgnoreRules : IgnoreRules where
  excludes := [".git/**", "**/.DS_Store", "**/__pycache__/**", "**/*.tmp"]

section Text

/-- A sequence under way: what it says so far, how many bytes it lacks, and what the next of
them may be. -/
structure Utf8Sequence where
  value : Nat
  missing : Nat
  low : Nat
  high : Nat
  deriving DecidableEq, Repr

/-- What a byte begins: a character, a sequence, or nothing. -/
def beginUtf8 (byte : Nat) : Option (Char ⊕ Utf8Sequence) :=
  if byte < 0x80 then some (.inl (Char.ofNat byte))
  else if 0xC2 ≤ byte ∧ byte ≤ 0xDF then some (.inr ⟨byte - 0xC0, 1, 0x80, 0xBF⟩)
  else if 0xE0 ≤ byte ∧ byte ≤ 0xEF then
    -- Overlong forms and surrogates are refused at the second byte.
    some (.inr ⟨byte - 0xE0, 2, if byte = 0xE0 then 0xA0 else 0x80,
      if byte = 0xED then 0x9F else 0xBF⟩)
  else if 0xF0 ≤ byte ∧ byte ≤ 0xF4 then
    some (.inr ⟨byte - 0xF0, 3, if byte = 0xF0 then 0x90 else 0x80,
      if byte = 0xF4 then 0x8F else 0xBF⟩)
  else none

def replacementChar : Char := '\uFFFD'

/-- `bytes.decode("utf-8", errors="replace")`: one replacement for each piece that no
character begins with any more. -/
def decodeUtf8 : Option Utf8Sequence → Bytes → List Char
  | none, [] => []
  | some _, [] => [replacementChar]
  | pending, byte :: rest =>
    let fresh := fun _ : Unit =>
      match beginUtf8 byte.toNat with
      | some (.inl char) => char :: decodeUtf8 none rest
      | some (.inr sequence) => decodeUtf8 (some sequence) rest
      | none => replacementChar :: decodeUtf8 none rest
    match pending with
    | none => fresh ()
    | some sequence =>
      if sequence.low ≤ byte.toNat ∧ byte.toNat ≤ sequence.high then
        let value := sequence.value * 64 + (byte.toNat - 0x80)
        if sequence.missing = 1 then Char.ofNat value :: decodeUtf8 none rest
        else decodeUtf8 (some ⟨value, sequence.missing - 1, 0x80, 0xBF⟩) rest
      else replacementChar :: fresh ()

def lineBreaks : List Char :=
  ['\n', '\x0b', '\x0c', '\r', '\x1c', '\x1d', '\x1e', '\u0085', '\u2028', '\u2029']

/-- `str.splitlines`, but for the empty lines that a pair of breaks or a last one leaves. -/
def splitLines (text : List Char) : List (List Char) := text.splitOnP fun char => char ∈ lineBreaks

end Text

/-- The patterns in an ignore file. -/
def ignoreLines (content : Bytes) : List String :=
  (((splitLines (decodeUtf8 none content)).map (stripBy isSpace)).filter
    fun line => line ≠ [] ∧ line.head? ≠ some '#').map String.ofList

end PyUploadX.Sdk
