import Mathlib.Data.List.Infix
import PyUploadX.Sdk.Directory

/-! Which paths the patterns of the default rules match, in terms of their segments. -/
namespace PyUploadX.Sdk

open Kit

/-- No character of the text is special in a pattern. -/
def PlainPattern (text : String) : Prop := ∀ char ∈ text.toList, char ∉ ['*', '?', '[']

instance (text : String) : Decidable (PlainPattern text) := List.decidableBAll _ text.toList

section Tokens

variable {rest : List GlobToken} {own chars : List Char}

private theorem matchTokens_anyRun : matchTokens (.anyRun :: rest) chars = true ↔
    ∃ skipped tail, chars = skipped ++ tail ∧ matchTokens rest tail = true := by
  rw [matchTokens, List.any_eq_true]
  constructor
  · rintro ⟨tail, suffix, matched⟩
    obtain ⟨skipped, rfl⟩ := (List.mem_tails _ _).mp suffix
    exact ⟨skipped, tail, rfl, matched⟩
  · rintro ⟨skipped, tail, rfl, matched⟩
    exact ⟨tail, (List.mem_tails _ _).mpr (List.suffix_append skipped tail), matched⟩

private theorem matchTokens_text : matchTokens (own.map .char ++ rest) chars = true ↔
    ∃ tail, chars = own ++ tail ∧ matchTokens rest tail = true := by
  induction own generalizing chars with
  | nil => simp
  | cons first others ih =>
    cases chars with
    | nil => simp [matchTokens]
    | cons char behind =>
      rw [List.map_cons, List.cons_append, matchTokens, Bool.and_eq_true, ih]
      · constructor
        · rintro ⟨same, tail, rfl, matched⟩
          rw [← of_decide_eq_true same]
          exact ⟨tail, rfl, matched⟩
        · rintro ⟨tail, same, matched⟩
          obtain ⟨rfl, rfl⟩ := List.cons.inj same
          exact ⟨decide_eq_true rfl, tail, rfl, matched⟩
      · exact GlobToken.noConfusion

private theorem translate_text {behind : List Char} (plain : ∀ char ∈ own, char ∉ ['*', '?', '[']) :
    translate 0 (own ++ behind) = own.map .char ++ translate 0 behind := by
  induction own with
  | nil => rfl
  | cons char others ih =>
    have later := ih fun other member => plain other (List.mem_cons_of_mem _ member)
    have first := plain char List.mem_cons_self
    simp only [List.mem_cons, List.not_mem_nil, or_false, not_or] at first
    rw [List.cons_append, List.map_cons, List.cons_append, ← later, translate]
    · exact first.1
    · exact first.2.1
    · exact first.2.2

end Tokens

section Forms

variable {path name suffix rest : String}

/-- A leading `**/` needs a slash. -/
theorem fnmatch_nested : fnmatch path ("**/" ++ rest) = true ↔
    ∃ front tail, path = front ++ "/" ++ tail ∧ fnmatch tail rest = true := by
  have tokens : translate 0 ("**/" ++ rest).toList =
      .anyRun :: .anyRun :: (['/'].map .char ++ translate 0 rest.toList) := by
    rw [String.toList_append]
    rfl
  unfold fnmatch
  rw [tokens, matchTokens_anyRun]
  constructor
  · rintro ⟨skipped, after, split, matched⟩
    obtain ⟨more, behind, rfl, later⟩ := matchTokens_anyRun.mp matched
    obtain ⟨tail, rfl, matched⟩ := matchTokens_text.mp later
    refine ⟨String.ofList (skipped ++ more), String.ofList tail, ?_, by rwa [String.toList_ofList]⟩
    apply String.toList_inj.mp
    simp only [split, String.toList_append, String.toList_ofList, List.append_assoc]
    rfl
  · rintro ⟨front, tail, rfl, matched⟩
    refine ⟨front.toList, '/' :: tail.toList, ?_, matchTokens_anyRun.mpr ⟨[], _, rfl, ?_⟩⟩
    · rw [String.toList_append, String.toList_append, List.append_assoc]
      rfl
    · exact matchTokens_text.mpr ⟨tail.toList, rfl, matched⟩

private theorem fnmatch_suffix (plain : PlainPattern suffix) :
    fnmatch path ("*" ++ suffix) = true ↔ ∃ front, path = front ++ suffix := by
  have tokens : translate 0 ("*" ++ suffix).toList = .anyRun :: suffix.toList.map .char := by
    rw [String.toList_append, ← translate_plain plain]
    rfl
  unfold fnmatch
  rw [tokens, matchTokens_anyRun]
  constructor
  · rintro ⟨skipped, tail, split, matched⟩
    refine ⟨String.ofList skipped, String.toList_inj.mp ?_⟩
    rw [split, matchTokens_chars.mp matched, String.toList_append, String.toList_ofList]
  · rintro ⟨front, rfl⟩
    exact ⟨front.toList, suffix.toList, String.toList_append, matchTokens_chars.mpr rfl⟩

/-- `name/**` matches what is below the name, and not the name itself. -/
theorem fnmatch_below (plain : PlainPattern name) :
    fnmatch path (name ++ "/**") = true ↔ ∃ tail, path = name ++ "/" ++ tail := by
  have tokens : translate 0 (name ++ "/**").toList =
      (name.toList ++ ['/']).map .char ++ [.anyRun, .anyRun] := by
    rw [String.toList_append, translate_text plain, List.map_append, List.append_assoc]
    rfl
  have anything : ∀ chars, matchTokens [.anyRun, .anyRun] chars = true := by
    intro chars
    refine matchTokens_anyRun.mpr ⟨[], chars, rfl, matchTokens_anyRun.mpr ⟨chars, [], ?_, rfl⟩⟩
    exact (List.append_nil chars).symm
  unfold fnmatch
  rw [tokens, matchTokens_text]
  constructor
  · rintro ⟨tail, split, _⟩
    refine ⟨String.ofList tail, String.toList_inj.mp ?_⟩
    simp only [String.toList_append, String.toList_ofList]
    exact split
  · rintro ⟨tail, rfl⟩
    refine ⟨tail.toList, ?_, anything _⟩
    rw [String.toList_append, String.toList_append]
    rfl

/-- Nothing to strip, and both of the forms that are tried. -/
theorem matchPattern_eq {pattern : String} (relative : pattern.toList.head? ≠ some '/')
    (bare : pattern.toList.getLast? ≠ some '/') :
    matchPattern pattern path = (fnmatch path pattern || fnmatch path ("**/" ++ pattern)) := by
  have kept : pattern.toList.rdropWhile (· = '/') = pattern.toList := by
    apply List.rdropWhile_eq_self_iff.mpr
    intro filled slash
    exact bare ((List.getLast?_eq_some_getLast filled).trans (congrArg some (of_decide_eq_true slash)))
  simp only [matchPattern]
  rw [kept, if_neg relative, String.ofList_toList]

private theorem matchPattern_nested (filled : rest ≠ "") (bare : rest.toList.getLast? ≠ some '/') :
    matchPattern ("**/" ++ rest) path = true ↔
      ∃ front tail, path = front ++ "/" ++ tail ∧ fnmatch tail rest = true := by
  have chars : ("**/" ++ rest).toList = '*' :: '*' :: '/' :: rest.toList := by
    rw [String.toList_append]
    rfl
  have relative : ("**/" ++ rest).toList.head? ≠ some '/' := by
    rw [chars]
    simp
  have last : ("**/" ++ rest).toList.getLast? ≠ some '/' := by
    rw [String.toList_append, List.getLast?_append_of_ne_nil]
    · exact bare
    · exact fun empty => filled (String.toList_eq_nil_iff.mp empty)
  rw [matchPattern_eq relative last, Bool.or_eq_true, fnmatch_nested, fnmatch_nested]
  constructor
  · rintro (once | ⟨front, tail, rfl, again⟩)
    · exact once
    · obtain ⟨more, tail, rfl, matched⟩ := fnmatch_nested.mp again
      refine ⟨front ++ "/" ++ more, tail, ?_, matched⟩
      simp only [String.append_assoc]
  · exact .inl

end Forms

section Segments

variable {key : ObjectKey} {name suffix : String}

private theorem text_under_iff (slashless : '/' ∉ name.toList) :
    (∃ tail, key.text = name ++ "/" ++ tail) ↔
      ∃ below, below ≠ [] ∧ key.segments = name :: below := by
  constructor
  · rintro ⟨tail, text⟩
    refine ⟨splitPath tail, splitPath_ne_nil tail, ?_⟩
    rw [← splitPath_text key, text, splitPath_join, splitPath_slashless slashless]
    rfl
  · rintro ⟨below, filled, segments⟩
    refine ⟨"/".intercalate below, ?_⟩
    unfold ObjectKey.text
    rw [segments, String.intercalate_cons_of_ne_nil filled]

/-- Below a directory of that name, which is below another one. -/
theorem text_below_iff (slashless : '/' ∉ name.toList) :
    (∃ front tail, key.text = front ++ "/" ++ tail ∧ ∃ behind, tail = name ++ "/" ++ behind) ↔
      ∃ above below, above ≠ [] ∧ below ≠ [] ∧ key.segments = above ++ name :: below := by
  constructor
  · rintro ⟨front, _, text, behind, rfl⟩
    refine ⟨splitPath front, splitPath behind, splitPath_ne_nil front, splitPath_ne_nil behind, ?_⟩
    rw [← splitPath_text key, text, splitPath_join, splitPath_join, splitPath_slashless slashless]
    rfl
  · rintro ⟨above, below, filled, more, segments⟩
    refine ⟨"/".intercalate above, _, ?_, "/".intercalate below, rfl⟩
    unfold ObjectKey.text
    rw [segments, String.intercalate_append_of_ne_nil filled (List.cons_ne_nil _ _),
      String.intercalate_cons_of_ne_nil more]

private theorem text_last_iff (slashless : '/' ∉ name.toList) :
    (∃ front tail, key.text = front ++ "/" ++ tail ∧ tail = name) ↔
      ∃ above, above ≠ [] ∧ key.segments = above ++ [name] := by
  constructor
  · rintro ⟨front, _, text, rfl⟩
    refine ⟨splitPath front, splitPath_ne_nil front, ?_⟩
    rw [← splitPath_text key, text, splitPath_join, splitPath_slashless slashless]
  · rintro ⟨above, filled, segments⟩
    refine ⟨"/".intercalate above, name, ?_, rfl⟩
    unfold ObjectKey.text
    rw [segments, String.intercalate_append_of_ne_nil filled (List.cons_ne_nil _ _),
      String.intercalate_singleton]

private theorem text_suffix_iff (slashless : '/' ∉ suffix.toList) :
    (∃ front tail, key.text = front ++ "/" ++ tail ∧ ∃ stem, tail = stem ++ suffix) ↔
      ∃ above stem, above ≠ [] ∧ key.segments = above ++ [stem ++ suffix] := by
  constructor
  · rintro ⟨front, _, text, stem, rfl⟩
    obtain ⟨between, last, _, pieces⟩ := splitPath_append stem slashless
    refine ⟨splitPath front ++ between, last, ?_, ?_⟩
    · exact fun empty => splitPath_ne_nil front (List.append_eq_nil_iff.mp empty).1
    · rw [← splitPath_text key, text, splitPath_join, pieces, List.append_assoc]
  · rintro ⟨above, stem, filled, segments⟩
    refine ⟨"/".intercalate above, stem ++ suffix, ?_, stem, rfl⟩
    unfold ObjectKey.text
    rw [segments, String.intercalate_append_of_ne_nil filled (List.cons_ne_nil _ _),
      String.intercalate_singleton]

end Segments

/-- The names that the default rules are about, and more that are excluded in the same way. -/
def BannedName (names : List String) (name : String) : Prop :=
  name = ".DS_Store" ∨ (∃ stem, name = stem ++ ".tmp") ∨ name ∈ names

/-- What the default rules exclude, with `**/` before each of the names. -/
def Excluded (names segments : List String) : Prop :=
  (∃ above below, below ≠ [] ∧ segments = above ++ ".git" :: below) ∨
    (∃ above below, above ≠ [] ∧ below ≠ [] ∧ segments = above ++ "__pycache__" :: below) ∨
    ∃ above last, above ≠ [] ∧ BannedName names last ∧ segments = above ++ [last]

/-- The default rules, and such patterns of the user. -/
def rulesFor (names : List String) : IgnoreRules :=
  { defaultIgnoreRules with
    excludes := defaultIgnoreRules.excludes ++ names.map ("**/" ++ ·) }

section Rules

variable {key : ObjectKey} {names : List String}

private theorem matchPattern_git : matchPattern ".git/**" key.text = true ↔
    ∃ above below, below ≠ [] ∧ key.segments = above ++ ".git" :: below := by
  have plain : PlainPattern ".git" := by decide +kernel
  have slashless : '/' ∉ ".git".toList := by decide +kernel
  have under : fnmatch key.text ".git/**" = true ↔ _ := fnmatch_below plain
  have deeper : fnmatch key.text ("**/" ++ ".git/**") = true ↔ _ := fnmatch_nested
  rw [matchPattern_eq (by decide +kernel) (by decide +kernel), Bool.or_eq_true, under, deeper,
    text_under_iff slashless]
  have below : ∀ tail, fnmatch tail ".git/**" = true ↔ ∃ behind, tail = ".git" ++ "/" ++ behind :=
    fun tail => fnmatch_below plain
  simp only [below]
  rw [text_below_iff slashless]
  constructor
  · rintro (⟨below, filled, segments⟩ | ⟨above, below, _, filled, segments⟩)
    · exact ⟨[], below, filled, segments⟩
    · exact ⟨above, below, filled, segments⟩
  · rintro ⟨above, below, filled, segments⟩
    cases above with
    | nil => exact .inl ⟨below, filled, segments⟩
    | cons first others => exact .inr ⟨first :: others, below, List.cons_ne_nil _ _, filled, segments⟩

private theorem matchPattern_cache : matchPattern "**/__pycache__/**" key.text = true ↔
    ∃ above below, above ≠ [] ∧ below ≠ [] ∧ key.segments = above ++ "__pycache__" :: below := by
  have plain : PlainPattern "__pycache__" := by decide +kernel
  have nested : matchPattern "**/__pycache__/**" key.text = true ↔ _ :=
    @matchPattern_nested key.text "__pycache__/**" (by decide) (by decide +kernel)
  have below : ∀ tail, fnmatch tail "__pycache__/**" = true ↔
      ∃ behind, tail = "__pycache__" ++ "/" ++ behind := fun tail => fnmatch_below plain
  rw [nested]
  simp only [below]
  exact text_below_iff (by decide +kernel)

private theorem matchPattern_tmp : matchPattern "**/*.tmp" key.text = true ↔
    ∃ above stem, above ≠ [] ∧ key.segments = above ++ [stem ++ ".tmp"] := by
  have plain : PlainPattern ".tmp" := by decide +kernel
  have nested : matchPattern "**/*.tmp" key.text = true ↔ _ :=
    @matchPattern_nested key.text "*.tmp" (by decide) (by decide +kernel)
  have ends : ∀ tail, fnmatch tail "*.tmp" = true ↔ ∃ stem, tail = stem ++ ".tmp" :=
    fun tail => fnmatch_suffix plain
  rw [nested]
  simp only [ends]
  exact text_suffix_iff (by decide +kernel)

/-- `**/name` does not match the name alone. -/
theorem matchPattern_name {name : String} (filled : name ≠ "") (plain : PlainPattern name)
    (slashless : '/' ∉ name.toList) : matchPattern ("**/" ++ name) key.text = true ↔
      ∃ above, above ≠ [] ∧ key.segments = above ++ [name] := by
  have bare : name.toList.getLast? ≠ some '/' := fun last => slashless (List.mem_of_getLast? last)
  rw [matchPattern_nested filled bare]
  simp only [fnmatch_plain plain]
  exact text_last_iff slashless

theorem isIgnored_rulesFor
    (plain : ∀ name ∈ names, name ≠ "" ∧ PlainPattern name ∧ '/' ∉ name.toList) :
    (rulesFor names).isIgnored key.text = true ↔ Excluded names key.segments := by
  have store : matchPattern "**/.DS_Store" key.text = true ↔ _ :=
    @matchPattern_name key ".DS_Store" (by decide) (by decide +kernel) (by decide +kernel)
  have without : ∀ pattern ∈ (rulesFor names).includes, matchPattern pattern key.text = false :=
    List.forall_mem_nil _
  rw [IgnoreRules.isIgnored_iff, and_iff_right without]
  constructor
  · rintro ⟨pattern, member, matched⟩
    rcases List.mem_append.mp member with preset | own
    · simp only [defaultIgnoreRules, List.mem_cons, List.not_mem_nil, or_false] at preset
      rcases preset with rfl | rfl | rfl | rfl
      · exact .inl (matchPattern_git.mp matched)
      · obtain ⟨above, filled, segments⟩ := store.mp matched
        exact .inr (.inr ⟨above, _, filled, .inl rfl, segments⟩)
      · exact .inr (.inl (matchPattern_cache.mp matched))
      · obtain ⟨above, stem, filled, segments⟩ := matchPattern_tmp.mp matched
        exact .inr (.inr ⟨above, _, filled, .inr (.inl ⟨stem, rfl⟩), segments⟩)
    · obtain ⟨name, among, rfl⟩ := List.mem_map.mp own
      obtain ⟨filled, spelled, slashless⟩ := plain name among
      obtain ⟨above, deeper, segments⟩ := (matchPattern_name filled spelled slashless).mp matched
      exact .inr (.inr ⟨above, name, deeper, .inr (.inr among), segments⟩)
  · have preset : ∀ pattern ∈ defaultIgnoreRules.excludes, pattern ∈ (rulesFor names).excludes :=
      fun pattern member => List.mem_append_left _ member
    rintro (git | cache | ⟨above, last, filled, rfl | ⟨stem, rfl⟩ | own, segments⟩)
    · exact ⟨_, preset ".git/**" (by decide), matchPattern_git.mpr git⟩
    · exact ⟨_, preset "**/__pycache__/**" (by decide), matchPattern_cache.mpr cache⟩
    · exact ⟨_, preset "**/.DS_Store" (by decide), store.mpr ⟨above, filled, segments⟩⟩
    · exact ⟨_, preset "**/*.tmp" (by decide), matchPattern_tmp.mpr ⟨above, stem, filled, segments⟩⟩
    · obtain ⟨present, spelled, slashless⟩ := plain last own
      exact ⟨_, List.mem_append_right _ (List.mem_map_of_mem own),
        (matchPattern_name present spelled slashless).mpr ⟨above, filled, segments⟩⟩

end Rules

end PyUploadX.Sdk
