import Mathlib.Data.Multiset.MapFold
import AttributeScope.Proofs.ProjectVerdicts

/-!
# Independence of the order of files and lines

A run sorts the files by their paths and reads their lines from top to bottom.  None of that shows
in the result: up to the number of files it is a function of the multiset of lines, each taken
with the directory of its file.

Main results:

- Theorem `anchored_directives_perm`: the directives of a run, with their directories, are those
  of the lines in some order.
- Theorem `agrees_of_anchored_perm`: what a run finds depends only on its directives and their
  directories, in any order.
- Theorem `ofSources_determined_by_lines`: two runs over the same multiset of lines agree; the
  order of files, the order of lines in a file and the cut of a directory's lines into files do
  not matter.
-/

namespace AttributeScope

open Pattern (ExpansionLimit)

/-! ## Lines and the directives in them -/

namespace Source

/-- The lines of a text. -/
def textLines (source : Source) : List (List Char) :=
  source.text.toList.splitOn '\n'

/-- The lines of a file, each with the directory that its pattern is meant below. -/
def lines (source : Source) : List (SourceDir × List Char) :=
  source.textLines.map fun line => (source.directory, line)

/-- The lines of all files, each with the directory of its file.  Neither the order nor the cut
into files is recorded. -/
def allLines (sources : List Source) : Multiset (SourceDir × List Char) :=
  (sources.flatMap lines : List (SourceDir × List Char))

end Source

/-- The directive in a line, with the directory of its file. -/
def Directive.ofLineBelow? (line : SourceDir × List Char) : Option (SourceDir × Directive) :=
  (Directive.ofChars? line.2).map fun directive => (line.1, directive)

/-- What becomes of a directive below a directory. -/
def Resolution.ofAnchored (limit : ExpansionLimit) (anchored : SourceDir × Directive) :
    Resolution :=
  .ofDirective limit anchored.1 anchored.2

theorem PlacedDirective.resolution_eq_ofAnchored (limit : ExpansionLimit) :
    PlacedDirective.resolution limit = Resolution.ofAnchored limit ∘ PlacedDirective.anchored :=
  rfl

theorem Directive.map_snd_ofText (text : String) :
    (Directive.ofText text).map Prod.snd =
      (text.toList.splitOn '\n').filterMap Directive.ofChars? := by
  unfold Directive.ofText
  rw [List.map_filterMap]
  conv_rhs => rw [← List.zipIdx_map_fst 1 (text.toList.splitOn '\n'), List.filterMap_map]
  apply List.filterMap_congr
  rintro ⟨line, number⟩ _
  cases h : Directive.ofChars? line <;> simp [h]

/-- The directives of a file are those of its lines. -/
theorem Source.map_anchored_directives (source : Source) :
    source.directives.map PlacedDirective.anchored =
      source.lines.filterMap Directive.ofLineBelow? := by
  calc
    source.directives.map PlacedDirective.anchored =
        ((Directive.ofText source.text).map Prod.snd).map
          (fun directive => (source.directory, directive)) := by
      unfold Source.directives
      rw [List.map_map, List.map_map]
      rfl
    _ = source.lines.filterMap Directive.ofLineBelow? := by
      rw [Directive.map_snd_ofText, List.map_filterMap]
      unfold Source.lines Source.textLines
      rw [List.filterMap_map]
      rfl

namespace Outcome

/-- In the order of paths or in the given order, the directives are those of the lines. -/
theorem anchored_directives_perm (sources : List Source) :
    ((directives sources).map PlacedDirective.anchored).Perm
      ((sources.flatMap Source.lines).filterMap Directive.ofLineBelow?) := by
  unfold directives
  rw [List.map_flatMap, List.filterMap_flatMap]
  simp only [Source.map_anchored_directives]
  exact (Order.sortBy_perm _ sources).flatMap_right _

/-! ## Outcomes that differ at most in the number of files -/

/-- Two outcomes are the same but for the number of files. -/
structure Agrees (first second : Outcome) : Prop where
  classification : first.classification = second.classification
  scopes : first.scopes = second.scopes
  directives : first.stats.directives = second.stats.directives
  unencodable : first.stats.unencodable = second.stats.unencodable
  overLimit : first.stats.overLimit = second.stats.overLimit

theorem mem_flatMap_verdicts_congr (limit : ExpansionLimit) {first second : List PlacedDirective}
    (h : (first.map PlacedDirective.anchored).Perm (second.map PlacedDirective.anchored))
    (verdict : String × Bool) :
    verdict ∈ first.flatMap (PlacedDirective.verdicts limit) ↔
      verdict ∈ second.flatMap (PlacedDirective.verdicts limit) := by
  have hbelow : ∀ placed : List PlacedDirective, placed.flatMap (PlacedDirective.verdicts limit) =
      (placed.map PlacedDirective.anchored).flatMap (Directive.verdictsBelow limit) := by
    intro placed
    rw [List.flatMap_map]
    rfl
  rw [hbelow, hbelow]
  exact (h.flatMap_right (Directive.verdictsBelow limit)).mem_iff

/-- What is counted, but for the number of files, depends on the directives and their
directories only. -/
theorem count_congr (limit : ExpansionLimit) (files files' : Nat)
    {first second : List PlacedDirective}
    (h : (first.map PlacedDirective.anchored).Perm (second.map PlacedDirective.anchored)) :
    (count limit files first).directives = (count limit files' second).directives ∧
      (count limit files first).unencodable = (count limit files' second).unencodable ∧
      (count limit files first).overLimit = (count limit files' second).overLimit := by
  have hresolutions : (first.map (PlacedDirective.resolution limit)).Perm
      (second.map (PlacedDirective.resolution limit)) := by
    rw [PlacedDirective.resolution_eq_ofAnchored, ← List.map_map, ← List.map_map]
    exact h.map _
  have hlength : first.length = second.length := by simpa using h.length_eq
  have hunencodable := (hresolutions.map Resolution.unencodable).sum_nat
  have hoverLimit := (hresolutions.filter Resolution.overLimit).length_eq
  exact ⟨hlength, hunencodable, hoverLimit⟩

/-- Runs with the same directives below the same directories agree, whatever the order. -/
theorem agrees_of_anchored_perm (limit : ExpansionLimit) {first second : List Source}
    (h : ((directives first).map PlacedDirective.anchored).Perm
      ((directives second).map PlacedDirective.anchored)) :
    Agrees (ofSources limit first) (ofSources limit second) := by
  have hclassification :
      classify limit .empty (directives first) = classify limit .empty (directives second) := by
    rw [classify_eq_mergeEach, classify_eq_mergeEach]
    exact Classification.mergeEach_congr Classification.ordered_empty
      (mem_flatMap_verdicts_congr limit h)
  obtain ⟨hdirectives, hunencodable, hoverLimit⟩ :=
    count_congr limit first.length second.length h
  exact
    { classification := hclassification
      scopes := congrArg Scopes.ofClassification hclassification
      directives := hdirectives
      unencodable := hunencodable
      overLimit := hoverLimit }

/-- Runs over the same lines below the same directories agree. -/
theorem agrees_of_lines_perm (limit : ExpansionLimit) {first second : List Source}
    (h : (first.flatMap Source.lines).Perm (second.flatMap Source.lines)) :
    Agrees (ofSources limit first) (ofSources limit second) := by
  apply agrees_of_anchored_perm
  calc
    List.Perm ((directives first).map PlacedDirective.anchored)
        ((first.flatMap Source.lines).filterMap Directive.ofLineBelow?) :=
      anchored_directives_perm first
    List.Perm _ ((second.flatMap Source.lines).filterMap Directive.ofLineBelow?) :=
      h.filterMap _
    List.Perm _ ((directives second).map PlacedDirective.anchored) :=
      (anchored_directives_perm second).symm

/-! ## Moving lines about -/

/-- Within one directory only the lines count, not the files that hold them. -/
theorem flatMap_lines_of_directory (dir : SourceDir) {sources : List Source}
    (h : ∀ source ∈ sources, source.directory = dir) :
    sources.flatMap Source.lines =
      (sources.flatMap Source.textLines).map fun line => (dir, line) := by
  rw [List.map_flatMap]
  apply List.flatMap_congr
  intro source hsource
  unfold Source.lines
  rw [h source hsource]

/-- The result of a run, but for the number of files, is determined by the multiset of lines with
their directories.  In particular files may be given in any order, and the lines of one directory
may be reordered and moved between its files, or between several files of one path. -/
theorem ofSources_determined_by_lines (cap : Nat) :
    (∀ first second : List Source, Source.allLines first = Source.allLines second →
      Agrees (ofSources (.clamp cap) first) (ofSources (.clamp cap) second)) ∧
    (∀ first second : List Source, first.Perm second →
      Agrees (ofSources (.clamp cap) first) (ofSources (.clamp cap) second)) ∧
    (∀ (before after files files' : List Source) (dir : SourceDir),
      (∀ source ∈ files ++ files', source.directory = dir) →
      (files.flatMap Source.textLines).Perm (files'.flatMap Source.textLines) →
      Agrees (ofSources (.clamp cap) (before ++ files ++ after))
        (ofSources (.clamp cap) (before ++ files' ++ after))) := by
  refine ⟨?_, ?_, ?_⟩
  · intro first second h
    exact agrees_of_lines_perm _ (Multiset.coe_eq_coe.mp h)
  · intro first second h
    exact agrees_of_lines_perm _ (h.flatMap_right _)
  · intro before after files files' dir hdir hlines
    apply agrees_of_lines_perm
    have hfiles : (files.flatMap Source.lines).Perm (files'.flatMap Source.lines) := by
      rw [flatMap_lines_of_directory dir fun source h => hdir source (List.mem_append_left _ h),
        flatMap_lines_of_directory dir fun source h => hdir source (List.mem_append_right _ h)]
      exact hlines.map _
    simp only [List.flatMap_append]
    exact (hfiles.append_left _).append_right _

/-- The two lines of one file may be given in the other order, in two files of the same path, and
behind the file of another directory. -/
theorem ofSources_determined_by_lines_of_split :
    let web : Source := ⟨"web/.gitattributes", "dist linguist-generated"⟩
    let api : Source := ⟨"api/.gitattributes", "x linguist-generated\nx -linguist-generated"⟩
    let cleared : Source := ⟨"api/.gitattributes", "x -linguist-generated"⟩
    let set : Source := ⟨"api/.gitattributes", "x linguist-generated"⟩
    Source.allLines [api, web] = Source.allLines [web, cleared, set] ∧
    Agrees (ofSources (.clamp 10) [api, web]) (ofSources (.clamp 10) [web, cleared, set]) ∧
    [api, web].Perm [web, api] ∧
    Agrees (ofSources (.clamp 10) [api, web]) (ofSources (.clamp 10) [web, api]) ∧
    (∀ source ∈ [api] ++ [cleared, set], source.directory = .containing "api/.gitattributes") ∧
    ([api].flatMap Source.textLines).Perm ([cleared, set].flatMap Source.textLines) ∧
    Agrees (ofSources (.clamp 10) ([] ++ [api] ++ [web]))
      (ofSources (.clamp 10) ([] ++ [cleared, set] ++ [web])) := by
  intro web api cleared set
  rcases ofSources_determined_by_lines 10 with ⟨hlines, hfiles, hmoved⟩
  have hequal : Source.allLines [api, web] = Source.allLines [web, cleared, set] :=
    Multiset.coe_eq_coe.mpr (by decide +kernel)
  have hswap : [api, web].Perm [web, api] := List.Perm.swap web api []
  have hdir : ∀ source ∈ [api] ++ [cleared, set],
      source.directory = .containing "api/.gitattributes" := by decide +kernel
  have htext : ([api].flatMap Source.textLines).Perm ([cleared, set].flatMap Source.textLines) := by
    decide +kernel
  exact ⟨hequal, hlines _ _ hequal, hswap, hfiles _ _ hswap, hdir, htext,
    hmoved [] [web] [api] [cleared, set] _ hdir htext⟩

end Outcome
end AttributeScope
