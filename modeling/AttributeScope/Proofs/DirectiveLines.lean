import Mathlib.Data.List.Induction
import AttributeScope.Directive

/-!
# Lines with a directive

A line says something if it ends with the attribute, or with the attribute and a value, and has a
pattern in front of it.  The end of the line is looked at as text and the rest word by word.  This
module brings both views together: it says which lines are read and what each part of a line
becomes.

Main results:

- Theorem `endsWithAttribute_iff`: the ends of a line that are accepted.
- Theorem `ofChars?_eq_some_iff`: the lines that are read, and the directives in them.
- Theorem `spells_of_ofLine?_iff`: a line that is read is in the grammar, unless it has two values.
-/

namespace AttributeScope
namespace Directive

open Text

/-! ## The end of a line -/

/-- What may follow the attribute's name: nothing, or one value. -/
def valueTexts : List (List Char) := [[], setSuffix, clearedSuffix]

/-- Two values, one behind the other. -/
def doubledValue : List Char := clearedSuffix ++ setSuffix

/-- The ends of a line that are accepted: the attribute, with one value, none or two. -/
theorem endsWithAttribute_iff {line : List Char} :
    endsWithAttribute line = true ↔
      ∃ value ∈ doubledValue :: valueTexts, attributeName ++ value <:+ line := by
  unfold endsWithAttribute
  rw [List.isSuffixOf_iff_suffix]
  constructor
  · intro h
    rcases exists_eq_withoutSuffix_append setSuffix line with ⟨set, hset, hline⟩
    rcases exists_eq_withoutSuffix_append clearedSuffix (withoutSuffix setSuffix line) with
      ⟨cleared, hcleared, hinner⟩
    rcases h with ⟨front, hfront⟩
    refine ⟨cleared ++ set, ?_, front, ?_⟩
    · have hvalues : ∀ cleared ∈ [[], clearedSuffix], ∀ set ∈ [[], setSuffix],
          cleared ++ set ∈ doubledValue :: valueTexts := by decide
      exact hvalues cleared hcleared set hset
    · rw [← List.append_assoc, ← List.append_assoc, hfront, ← hinner, ← hline]
  · intro h
    rcases h with ⟨value, hvalue, front, rfl⟩
    have hends : ∀ value ∈ doubledValue :: valueTexts,
        setSuffix.length ≤ (attributeName ++ value).length ∧
        clearedSuffix.length ≤ (withoutSuffix setSuffix (attributeName ++ value)).length ∧
        withoutSuffix clearedSuffix (withoutSuffix setSuffix (attributeName ++ value)) =
          attributeName := by decide
    rcases hends value hvalue with ⟨hset, hcleared, hname⟩
    rw [withoutSuffix_append_of_length_le hset, withoutSuffix_append_of_length_le hcleared, hname]
    exact List.suffix_append front attributeName

/-- A line that is accepted has the clearing value at its end only if that is its value. -/
theorem clearedSuffix_suffix_iff {line value : List Char}
    (hvalue : value ∈ doubledValue :: valueTexts) (h : attributeName ++ value <:+ line) :
    clearedSuffix <:+ line ↔ value = clearedSuffix := by
  rcases h with ⟨front, rfl⟩
  have hends : ∀ value ∈ doubledValue :: valueTexts,
      clearedSuffix.length ≤ (attributeName ++ value).length ∧
      (clearedSuffix <:+ attributeName ++ value ↔ value = clearedSuffix) := by decide
  rcases hends value hvalue with ⟨hlength, hcleared⟩
  rw [suffix_append_iff hlength, hcleared]

/-- A line that ends with the attribute and at most one value does not end with two. -/
theorem not_doubledValue_suffix {line value : List Char} (hvalue : value ∈ valueTexts)
    (h : attributeName ++ value <:+ line) : ¬ attributeName ++ doubledValue <:+ line := by
  have hends : ∀ value ∈ valueTexts,
      (attributeName ++ value).length ≤ (attributeName ++ doubledValue).length ∧
      ¬ attributeName ++ value <:+ attributeName ++ doubledValue := by decide
  rcases hends value hvalue with ⟨hlength, hnot⟩
  intro hdoubled
  exact hnot (List.suffix_of_suffix_length_le h hdoubled hlength)

/-- Attribute and value hold no blank. -/
theorem isWord_attribute {value : List Char} (hvalue : value ∈ doubledValue :: valueTexts) :
    IsWord (attributeName ++ value) := by
  have hwords : ∀ value ∈ doubledValue :: valueTexts, IsWord (attributeName ++ value) := by decide
  exact hwords value hvalue

/-- What may stand between a line and the line feed behind it. -/
def IsLineEnd (ending : List Char) : Prop := ending = [] ∨ ending = ['\r']

instance : DecidablePred IsLineEnd := fun ending =>
  inferInstanceAs (Decidable (ending = [] ∨ ending = ['\r']))

/-- What ends a line is dropped before the line is read. -/
theorem withoutSuffix_append_lineEnd {line ending : List Char} (hline : line.getLast? ≠ some '\r')
    (hending : IsLineEnd ending) : withoutSuffix ['\r'] (line ++ ending) = line := by
  rcases hending with rfl | rfl
  · rw [List.append_nil]
    exact withoutSuffix_of_not_suffix
      (not_suffix_of_getLast?_ne (List.cons_ne_nil '\r' []) hline.symm)
  · exact withoutSuffix_append line ['\r']

/-! ## The words of a line -/

/-- The first word of a line: the pattern, with a `!` in front of it if it is negated. -/
def pathToken (negated : Bool) (path : List Char) : List Char :=
  if negated then '!' :: path else path

theorem forall_mem_pathToken_iff {negated : Bool} {path : List Char} :
    (∀ c ∈ pathToken negated path, isBlank c = false) ↔ ∀ c ∈ path, isBlank c = false := by
  have hbang : isBlank '!' = false := by decide
  cases negated with
  | true =>
    change (∀ c ∈ '!' :: path, isBlank c = false) ↔ _
    rw [List.forall_mem_cons]
    exact and_iff_right hbang
  | false => exact Iff.rfl

theorem splitNegation_eq_iff {token path : List Char} {negated : Bool} :
    splitNegation token = (path, negated) ↔
      token = pathToken negated path ∧ (negated = false → path.head? ≠ some '!') := by
  unfold pathToken
  fun_cases splitNegation token with
  | case1 rest =>
    cases negated with
    | true => simp
    | false =>
      refine iff_of_false (by simp) ?_
      rintro ⟨rfl, hplain⟩
      exact hplain rfl rfl
  | case2 token hbang =>
    have hplain : token.head? ≠ some '!' := by
      intro hhead
      rcases List.head?_eq_some_iff.mp hhead with ⟨rest, rfl⟩
      exact hbang rest rfl
    cases negated with
    | true =>
      refine iff_of_false (by simp) ?_
      rintro ⟨rfl, -⟩
      exact hplain rfl
    | false =>
      constructor
      · intro h
        obtain rfl : token = path := congrArg Prod.fst h
        exact ⟨rfl, fun _ => hplain⟩
      · intro h
        obtain rfl : token = path := h.1
        rfl

/-- The last word of a text that ends with a word ends with that word. -/
theorem exists_getLast?_words {word : List Char} (h : IsWord word) (front : List Char) :
    ∃ start, start <:+ front ∧ (words (front ++ word)).getLast? = some (start ++ word) := by
  -- Going to the left, the word grows until there is a blank or nothing more.
  induction front using List.reverseRecOn generalizing word with
  | nil =>
    refine ⟨[], List.suffix_refl [], ?_⟩
    rw [List.nil_append, words_of_not_isBlank h.ne_nil h.not_isBlank]
    rfl
  | append_singleton before c ih =>
    rw [List.append_assoc, List.singleton_append]
    by_cases hc : isBlank c = true
    · refine ⟨[], List.nil_suffix, ?_⟩
      rw [words_append_blank hc, words_of_not_isBlank h.ne_nil h.not_isBlank,
        List.getLast?_concat, List.nil_append]
    · have hlonger : IsWord (c :: word) := by
        refine ⟨List.cons_ne_nil c word, ?_⟩
        intro d hd
        rcases List.mem_cons.mp hd with rfl | hd
        · simpa using hc
        · exact h.not_isBlank d hd
      rcases ih hlonger with ⟨start, hstart, hlast⟩
      refine ⟨start ++ [c], ?_, ?_⟩
      · rcases hstart with ⟨others, rfl⟩
        exact ⟨others, (List.append_assoc others start [c]).symm⟩
      · rw [hlast, List.append_assoc, List.singleton_append]

/-- The last word of a line that is accepted has the attribute and the value at its end. -/
theorem exists_key_of_suffix {line value : List Char} (hvalue : value ∈ doubledValue :: valueTexts)
    (h : attributeName ++ value <:+ line) :
    ∃ stem, (words line).getLast? = some (stem ++ value) ∧ stem ++ value <:+ line ∧
      attributeName <:+ stem := by
  rcases h with ⟨front, rfl⟩
  rcases exists_getLast?_words (isWord_attribute hvalue) front with ⟨start, hstart, hlast⟩
  refine ⟨start ++ attributeName, ?_, ?_, List.suffix_append start attributeName⟩
  · rw [hlast, List.append_assoc]
  · rcases hstart with ⟨before, rfl⟩
    exact ⟨before, by simp⟩

/-! ## The lines that are read -/

/-- A line that spells a directive, where the attribute's name is followed by one of the given
texts.  The first word is the pattern, and the last one, which ends the line, is the attribute. -/
structure Spells (values : List (List Char)) (line : List Char) (d : Directive) : Prop where
  head?_ne_hash : line.head? ≠ some '#'
  two_le_length : 2 ≤ (words line).length
  head?_words : (words line).head? = some (pathToken d.negated d.path.toList)
  isWord_path : IsWord d.path.toList
  plain_of_not_negated : d.negated = false → d.path.toList.head? ≠ some '!'
  exists_key : ∃ stem, ∃ value ∈ values,
    (words line).getLast? = some (stem ++ value) ∧ stem ++ value <:+ line ∧
      attributeName <:+ stem ∧
      (d.generated = false ↔ value = clearedSuffix ∨ (stem ++ value).head? = some '-')

/-- A last word with the attribute and a value at its end is all that the end of a line needs. -/
theorem suffix_of_key_suffix {stem value line : List Char} (hstem : attributeName <:+ stem)
    (h : stem ++ value <:+ line) : attributeName ++ value <:+ line := by
  rcases hstem with ⟨start, rfl⟩
  refine List.IsSuffix.trans ?_ h
  rw [List.append_assoc]
  exact List.suffix_append start (attributeName ++ value)

section Spells

variable {values more : List (List Char)} {line : List Char} {d : Directive}

theorem Spells.mono (h : Spells values line d) (hmore : ∀ value ∈ values, value ∈ more) :
    Spells more line d := by
  rcases h.exists_key with ⟨stem, value, hvalue, hkey⟩
  exact { h with exists_key := ⟨stem, value, hmore value hvalue, hkey⟩ }

/-- A line that spells a directive ends with the attribute and a value. -/
theorem Spells.exists_suffix (h : Spells values line d) :
    ∃ value ∈ values, attributeName ++ value <:+ line := by
  rcases h.exists_key with ⟨stem, value, hvalue, -, hend, hstem, -⟩
  exact ⟨value, hvalue, suffix_of_key_suffix hstem hend⟩

end Spells

/-- A directive clears the attribute by the value at the end of its line or by the first character
of its last word. -/
theorem generated_eq_iff {line key : List Char} {generated : Bool} :
    generated = (!clearedSuffix.isSuffixOf line && key.head? != some '-') ↔
      (generated = false ↔ clearedSuffix <:+ line ∨ key.head? = some '-') := by
  have hbool : ∀ generated cleared plain : Bool,
      generated = (!cleared && plain) ↔ (generated = false ↔ cleared = true ∨ plain = false) := by
    decide
  rw [hbool, List.isSuffixOf_iff_suffix, bne_eq_false_iff_eq]

/-- What is read from a first word and the last of those behind it. -/
theorem ofWords?_cons_eq_some_iff {line token key : List Char} {rest : List (List Char)}
    {d : Directive} (hkey : rest.getLast? = some key) :
    ofWords? line (token :: rest) = some d ↔
      token = pathToken d.negated d.path.toList ∧
      (d.negated = false → d.path.toList.head? ≠ some '!') ∧ d.path.toList ≠ [] ∧
      (d.generated = false ↔ clearedSuffix <:+ line ∨ key.head? = some '-') := by
  rcases hsplit : splitNegation token with ⟨path, negated⟩
  have hread : ofWords? line (token :: rest) =
      if path.isEmpty then none
      else some ⟨String.ofList path,
        !clearedSuffix.isSuffixOf line && key.head? != some '-', negated⟩ := by
    simp [ofWords?, hkey, hsplit]
  have htoken : token = pathToken d.negated d.path.toList ∧
      (d.negated = false → d.path.toList.head? ≠ some '!') ↔
        path = d.path.toList ∧ negated = d.negated := by
    rw [← splitNegation_eq_iff, hsplit, Prod.mk.injEq]
  rw [hread, ← and_assoc, htoken]
  constructor
  · intro h
    split at h
    next => cases h
    next hne =>
      obtain rfl := Option.some.inj h
      rw [String.toList_ofList]
      exact ⟨⟨rfl, rfl⟩, by simpa using hne, generated_eq_iff.mp rfl⟩
  · rintro ⟨⟨rfl, rfl⟩, hne, hgenerated⟩
    rw [if_neg (by simpa using hne), ← generated_eq_iff.mpr hgenerated, String.ofList_toList]

/-- The words from which a directive is read, and the directive in them. -/
theorem ofWords?_eq_some_iff {line : List Char} {tokens : List (List Char)} {d : Directive} :
    ofWords? line tokens = some d ↔
      2 ≤ tokens.length ∧ tokens.head? = some (pathToken d.negated d.path.toList) ∧
      (d.negated = false → d.path.toList.head? ≠ some '!') ∧ d.path.toList ≠ [] ∧
      ∃ key, tokens.getLast? = some key ∧
        (d.generated = false ↔ clearedSuffix <:+ line ∨ key.head? = some '-') := by
  match tokens with
  | [] => exact iff_of_false (by simp [ofWords?]) (by simp)
  | [token] => exact iff_of_false (by simp [ofWords?]) (by simp)
  | token :: next :: others =>
    have hlast : (token :: next :: others).getLast? = (next :: others).getLast? :=
      List.getLast?_cons_cons
    obtain ⟨key, hkey⟩ : ∃ key, (next :: others).getLast? = some key :=
      ⟨_, List.getLast?_eq_some_getLast (List.cons_ne_nil next others)⟩
    rw [ofWords?_cons_eq_some_iff hkey, hlast, hkey]
    simp

/-- The lines that are read, and the directives in them. -/
theorem ofChars?_eq_some_iff {text : List Char} {d : Directive} :
    ofChars? text = some d ↔
      Spells (doubledValue :: valueTexts) (withoutSuffix ['\r'] text) d := by
  unfold ofChars?
  dsimp only
  generalize withoutSuffix ['\r'] text = line
  rw [Option.ite_none_left_eq_some, Option.ite_none_right_eq_some, endsWithAttribute_iff,
    ofWords?_eq_some_iff]
  constructor
  · rintro ⟨hhash, ⟨value, hvalue, hsuffix⟩, hlength, hfirst, hplain, hne, key, hlast, hgenerated⟩
    rw [clearedSuffix_suffix_iff hvalue hsuffix] at hgenerated
    rcases exists_key_of_suffix hvalue hsuffix with ⟨stem, hkey, hend, hstem⟩
    obtain rfl : key = stem ++ value := Option.some.inj (hlast.symm.trans hkey)
    have hword : IsWord (pathToken d.negated d.path.toList) :=
      isWord_of_mem_words (List.mem_of_head? hfirst)
    have hpath : IsWord d.path.toList :=
      ⟨hne, forall_mem_pathToken_iff.mp hword.not_isBlank⟩
    exact ⟨hhash, hlength, hfirst, hpath, hplain, stem, value, hvalue, hkey, hend, hstem,
      hgenerated⟩
  · intro h
    rcases h.exists_key with ⟨stem, value, hvalue, hkey, hend, hstem, hgenerated⟩
    have hsuffix := suffix_of_key_suffix hstem hend
    rw [← clearedSuffix_suffix_iff hvalue hsuffix] at hgenerated
    exact ⟨h.head?_ne_hash, ⟨value, hvalue, hsuffix⟩, h.two_le_length, h.head?_words,
      h.plain_of_not_negated, h.isWord_path.ne_nil, stem ++ value, hkey, hgenerated⟩

/-! ## Lines beyond the grammar -/

/-- A directive is spelled by the line that it is read from.  In the grammar at most one value
follows the attribute's name; a line that is read is in the grammar unless it ends with two,
`=false` and `=true` behind it. -/
theorem spells_of_ofLine?_iff {line : String} {d : Directive} (h : ofLine? line = some d) :
    let text := withoutSuffix ['\r'] line.toList
    Spells (doubledValue :: valueTexts) text d ∧
      (Spells valueTexts text d ↔ ¬ attributeName ++ doubledValue <:+ text) := by
  intro text
  have hspells : Spells (doubledValue :: valueTexts) text d := ofChars?_eq_some_iff.mp h
  refine ⟨hspells, ?_, ?_⟩
  · intro hgrammar
    rcases hgrammar.exists_suffix with ⟨value, hvalue, hsuffix⟩
    exact not_doubledValue_suffix hvalue hsuffix
  · intro hdoubled
    rcases hspells.exists_key with ⟨stem, value, hvalue, hlast, hend, hstem, hgenerated⟩
    have hone : value ∈ valueTexts := by
      rcases List.mem_cons.mp hvalue with rfl | hone
      · exact absurd (suffix_of_key_suffix hstem hend) hdoubled
      · exact hone
    exact { hspells with exists_key := ⟨stem, value, hone, hlast, hend, hstem, hgenerated⟩ }

/-- A negated pattern with an attribute that is unset, and a carriage return at the end. -/
theorem spells_of_ofLine?_iff_unset :
    let line := "!dist/** -linguist-generated\r"
    let text := withoutSuffix ['\r'] line.toList
    let d : Directive := ⟨"dist/**", false, true⟩
    ofLine? line = some d ∧ ¬ attributeName ++ doubledValue <:+ text ∧
      Spells valueTexts text d := by
  intro line text d
  have hread : ofLine? line = some d := by decide +kernel
  have hone : ¬ attributeName ++ doubledValue <:+ text := by decide +kernel
  exact ⟨hread, hone, (spells_of_ofLine?_iff hread).2.mpr hone⟩

/-- A line with two values is read, as if only the second one were there. -/
theorem not_spells_of_two_values :
    ¬ ∀ (line : String) (d : Directive), ofLine? line = some d →
      Spells valueTexts (withoutSuffix ['\r'] line.toList) d := by
  intro h
  have hread : ofLine? "a linguist-generated=false=true" = some ⟨"a", true, false⟩ := by
    decide +kernel
  rcases (h _ _ hread).exists_suffix with ⟨value, hvalue, hsuffix⟩
  refine absurd ?_ (not_doubledValue_suffix hvalue hsuffix)
  decide +kernel

end Directive
end AttributeScope
