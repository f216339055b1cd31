import AttributeScope.CommandLine.Session
import AttributeScope.Proofs.ResolutionCount

/-!
# Patterns that have no translation

A list of translations is written block by block.  A block has the line of its pattern and behind
it the line of each translation, or one line that warns if there is none.  The warning says that
there are too many recursive segments; it is also written where all translations were dropped
because of a name `@`.

Main results:

- Theorem `listToText_eq_join_block`: a list is written block by block.
- Theorem `isWarned_block_iff`: a block has the warning exactly if there are no translations.
- Theorem `runTranslate_warns_iff`: for which patterns the output has the warning.
-/

namespace AttributeScope

open Pattern (canonicalize recursive segments threeStars)

namespace Translation

/-- The line of a pattern. -/
def heading (colored : Bool) (pattern : String) : String :=
  Terminal.render colored [.styled .bold pattern, .plain "\n"]

/-- The line of a translation. -/
def variantLine (colored : Bool) (variant : String) : String :=
  Terminal.render colored [.styled .cyan ("  " ++ variant), .plain "\n"]

/-- The line that warns of too many recursive segments. -/
def noTranslationLine (colored : Bool) : String :=
  Terminal.render colored (warningLine "no translation (too many '**/' segments)")

/-- The text of a pattern and its translations. -/
def block (colored : Bool) (translation : Translation) : String :=
  Terminal.render colored translation.pieces

/-- Whether the line of a pattern is followed by the warning in a text. -/
def IsWarned (colored : Bool) (pattern text : String) : Prop :=
  (heading colored pattern ++ noTranslationLine colored).toList <+: text.toList

variable (colored : Bool)

/-- A list of translations is written block by block. -/
theorem listToText_eq_join_block (translations : List Translation) :
    listToText colored translations = String.join (translations.map (block colored)) := by
  unfold listToText
  induction translations with
  | nil => rfl
  | cons first rest ih =>
    rw [List.flatMap_cons, Terminal.render_append, ih, List.map_cons, String.join_cons]
    rfl

/-- The warning stands where there is no translation. -/
theorem block_of_nil (pattern : String) :
    block colored ⟨pattern, []⟩ = heading colored pattern ++ noTranslationLine colored := by
  unfold block pieces
  rw [Terminal.render_append]
  rfl

/-- Translations stand below their pattern, each on a line of its own. -/
theorem block_of_cons (pattern variant : String) (rest : List String) :
    ∃ others, block colored ⟨pattern, variant :: rest⟩ =
      heading colored pattern ++ (variantLine colored variant ++ others) := by
  refine ⟨Terminal.render colored (rest.flatMap fun variant =>
    [.styled .cyan ("  " ++ variant), .plain "\n"]), ?_⟩
  unfold block pieces
  rw [Terminal.render_append]
  dsimp only
  rw [List.isEmpty_cons, if_neg (by decide), List.flatMap_cons, Terminal.render_append]
  rfl

/-- How the line of a translation begins: it is indented, and not bold. -/
theorem exists_toList_variantLine (variant : String) :
    ∃ rest, (variantLine colored variant).toList =
      (if colored then "\x1b[0m\x1b[36m".toList else [' ']) ++ rest := by
  cases colored with
  | false =>
    refine ⟨' ' :: variant.toList ++ ['\n'], ?_⟩
    simp [variantLine, Terminal.render, Terminal.Piece.render]
  | true =>
    refine ⟨' ' :: ' ' :: variant.toList ++ (Terminal.reset ++ "\n").toList, ?_⟩
    simp [variantLine, Terminal.render, Terminal.Piece.render, Terminal.Style.parameters,
      Terminal.sequence, Terminal.reset]

/-- The line of a translation is not the warning. -/
theorem not_noTranslationLine_prefix (variant others : String) :
    ¬ (noTranslationLine colored).toList <+: (variantLine colored variant ++ others).toList := by
  rcases exists_toList_variantLine colored variant with ⟨rest, hline⟩
  rw [String.toList_append, hline, List.append_assoc]
  rintro ⟨more, h⟩
  cases colored with
  | false =>
    have hfirst := congrArg (·.head?) h
    simp [noTranslationLine, warningLine, Terminal.render, Terminal.Piece.render] at hfirst
  | true =>
    -- The sequences of both styles begin alike; their parameters differ.
    have hparameter := congrArg (·[6]?) h
    simp [noTranslationLine, warningLine, Terminal.render, Terminal.Piece.render,
      Terminal.Style.parameters, Terminal.sequence, Terminal.reset] at hparameter

/-- A block has the warning exactly if there are no translations. -/
theorem isWarned_block_iff (translation : Translation) :
    IsWarned colored translation.pattern (block colored translation) ↔
      translation.variants = [] := by
  rcases translation with ⟨pattern, variants⟩
  unfold IsWarned
  cases variants with
  | nil =>
    have hblock := block_of_nil colored pattern
    exact iff_of_true (hblock ▸ List.prefix_rfl) rfl
  | cons variant rest =>
    refine iff_of_false ?_ (List.cons_ne_nil variant rest)
    rcases block_of_cons colored pattern variant rest with ⟨others, hblock⟩
    rw [hblock, String.toList_append, String.toList_append, List.prefix_append_right_inj]
    exact not_noTranslationLine_prefix colored variant others

end Translation

namespace CommandLine

/-- The text that is written for a pattern of a request. -/
def blockOf (colored : Bool) (request : TranslateRequest) (pattern : String) : String :=
  Translation.block colored
    ⟨pattern, variantsOf (.clamp request.maxRecursiveSegments) request.dir pattern⟩

/-- Whether a pattern is to be anchored although a name in it, or in the directory, is `@`. -/
def IsRefused (dir : Option String) (pattern : String) : Prop :=
  ∃ path, dir = some path ∧
    (['@'] ∈ segments (SourceDir.ofPath path).text.toList ∨ ['@'] ∈ segments pattern.toList)

/-- A pattern has no translation if it has too many recursive segments or is refused. -/
theorem variantsOf_eq_nil_iff (cap : Nat) (dir : Option String) {pattern : String}
    (hstars : ¬ threeStars <:+: pattern.toList) :
    variantsOf (.clamp cap) dir pattern = [] ↔
      min cap 20 < (segments (canonicalize pattern.toList)).count recursive ∨
        IsRefused dir pattern := by
  have htranslate : Pattern.translate (.clamp cap) pattern = [] ↔
      min cap 20 < (segments (canonicalize pattern.toList)).count recursive := by
    rw [Pattern.translate_eq_nil_iff, Pattern.recursiveCount_canonicalize hstars,
      Pattern.segments_canonicalize]
    rfl
  unfold variantsOf IsRefused
  cases dir with
  | none => simpa using htranslate
  | some path =>
    have hdir : (SourceDir.ofPath path).IsClosed := SourceDir.isClosed_ofPath path
    simp only [Option.some.injEq, exists_eq_left']
    by_cases hname : ['@'] ∈ segments (SourceDir.ofPath path).text.toList ∨
        ['@'] ∈ segments pattern.toList
    · exact iff_of_true (Resolution.ofDirective_of_atSign _ hdir hstars hname).1 (Or.inr hname)
    · rw [or_iff_left hname, ← htranslate, ← List.length_eq_zero_iff,
        (Resolution.ofDirective_of_not_atSign _ hdir hstars hname).2, List.length_eq_zero_iff]

/-- The output for a reader consists of one block for each pattern, in order.  The block of a
pattern warns of too many recursive segments exactly if the canonical form of the pattern has more
of them than are expanded, or if the pattern is below a directory and a name `@` keeps all its
translations from being written. -/
theorem runTranslate_warns_iff (surroundings : Surroundings) {request : TranslateRequest}
    (htext : request.output = .text) :
    let colored :=
      (Terminal.ColorChoice.resolve false false surroundings.hints).isColored surroundings.hints
    (runTranslate surroundings request).output =
      String.join (request.patterns.map (blockOf colored request)) ∧
    ∀ pattern ∈ request.patterns, ¬ threeStars <:+: pattern.toList →
      (Translation.IsWarned colored pattern (blockOf colored request pattern) ↔
        min request.maxRecursiveSegments 20 <
            (segments (canonicalize pattern.toList)).count recursive ∨
          IsRefused request.dir pattern) := by
  intro colored
  constructor
  · have houtput : (runTranslate surroundings request).output =
        Translation.listToText colored (translationsOf request) := by
      unfold runTranslate Transcript.answered
      rw [htext]
    rw [houtput, Translation.listToText_eq_join_block]
    unfold translationsOf
    rw [List.map_map]
    rfl
  · intro pattern _ hstars
    rw [← variantsOf_eq_nil_iff _ _ hstars]
    exact Translation.isWarned_block_iff colored ⟨pattern, _⟩

/-- Below `pkg`, without any expansion: too many recursive segments, a name `@`, and neither. -/
theorem runTranslate_warns_iff_pkg :
    let request : TranslateRequest :=
      { patterns := ["a/**/b", "@", "x/**"]
        dir := some "pkg"
        output := .text
        maxRecursiveSegments := 0 }
    let surroundings : Surroundings :=
      { fs := { top := Node.emptyDirectory }
        config := none
        hints := {}
        timestamp := "" }
    request.output = .text ∧
      (runTranslate surroundings request).output =
        String.join (request.patterns.map (blockOf false request)) ∧
      (¬ threeStars <:+: "a/**/b".toList ∧
        Translation.IsWarned false "a/**/b" (blockOf false request "a/**/b")) ∧
      (¬ threeStars <:+: "@".toList ∧
        Translation.IsWarned false "@" (blockOf false request "@")) ∧
      ¬ threeStars <:+: "x/**".toList ∧
        ¬ Translation.IsWarned false "x/**" (blockOf false request "x/**") := by
  intro request surroundings
  have htext : request.output = .text := rfl
  rcases runTranslate_warns_iff surroundings htext with ⟨houtput, hwarns⟩
  have hmany : ¬ threeStars <:+: "a/**/b".toList := by decide
  have hname : ¬ threeStars <:+: "@".toList := by decide
  have hplain : ¬ threeStars <:+: "x/**".toList := by decide
  refine ⟨htext, houtput, ⟨hmany, ?_⟩, ⟨hname, ?_⟩, hplain, ?_⟩
  · exact (hwarns "a/**/b" (by decide) hmany).mpr (Or.inl (by decide +kernel))
  · exact (hwarns "@" (by decide) hname).mpr (Or.inr ⟨"pkg", rfl, Or.inr (by decide)⟩)
  · intro hwarned
    rcases (hwarns "x/**" (by decide) hplain).mp hwarned with hcount | ⟨path, hpath, hmem⟩
    · revert hcount
      decide +kernel
    · obtain rfl : "pkg" = path := Option.some.inj hpath
      revert hmem
      decide +kernel

/-- The warning does not always tell the truth: `@` below `pkg` has no recursive segment. -/
theorem not_isWarned_iff_of_at_sign :
    ¬ ∀ request : TranslateRequest, ∀ pattern ∈ request.patterns,
        ¬ threeStars <:+: pattern.toList →
          (Translation.IsWarned false pattern (blockOf false request pattern) ↔
            min request.maxRecursiveSegments 20 <
              (segments (canonicalize pattern.toList)).count recursive) := by
  intro h
  let request : TranslateRequest :=
    { patterns := ["@"], dir := some "pkg", output := .text, maxRecursiveSegments := 10 }
  have hnone : variantsOf (.clamp 10) (some "pkg") "@" = [] := by decide +kernel
  have hwarned : Translation.IsWarned false "@" (blockOf false request "@") :=
    (Translation.isWarned_block_iff false ⟨"@", _⟩).mpr hnone
  have hmany := (h request "@" (by decide) (by decide)).mp hwarned
  revert hmany
  decide +kernel

end CommandLine
end AttributeScope
