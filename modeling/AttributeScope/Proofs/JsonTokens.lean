import Mathlib.Tactic.SplitIfs
import AttributeScope.Json.Value

/-!
# Tokens of JSON texts

The parts that JSON texts are put together from, how each of them may be written, and a reader that
takes a text apart.

Main results:

- Definition `unescape?`: the text that stands between the quotes of a string.
- Theorem `tokens?_eq_some_iff`: the reader accepts exactly the texts of tokens, and finds these
  tokens in them.
-/

namespace AttributeScope
namespace Json

/-! ## Characters in strings -/

/-- The value of a hexadecimal digit. -/
def hexValue? (c : Char) : Option Nat :=
  if '0' ≤ c ∧ c ≤ '9' then some (c.toNat - '0'.toNat)
  else if 'a' ≤ c ∧ c ≤ 'f' then some (c.toNat - 'a'.toNat + 10)
  else if 'A' ≤ c ∧ c ≤ 'F' then some (c.toNat - 'A'.toNat + 10)
  else none

/-- The number that four hexadecimal digits are. -/
def unit? (a b c d : Char) : Option Nat := do
  let a ← hexValue? a
  let b ← hexValue? b
  let c ← hexValue? c
  let d ← hexValue? d
  return ((a * 16 + b) * 16 + c) * 16 + d

/-- What a backslash and one letter stand for. -/
def shortEscape? : Char → Option Char
  | '"' => some '"'
  | '\\' => some '\\'
  | '/' => some '/'
  | 'b' => some '\x08'
  | 'f' => some '\x0c'
  | 'n' => some '\n'
  | 'r' => some '\r'
  | 't' => some '\t'
  | _ => none

/-- Whether a number is the first one of a surrogate pair. -/
def isHighSurrogate (unit : Nat) : Bool := 0xD800 ≤ unit && unit < 0xDC00

/-- Whether a number is the second one of a surrogate pair. -/
def isLowSurrogate (unit : Nat) : Bool := 0xDC00 ≤ unit && unit < 0xE000

/-- The text that is written between the quotes of a string.  Quotes, backslashes and control
characters do not stand for themselves, and surrogates come in pairs. -/
def unescape? : List Char → Option (List Char)
  | [] => some []
  | '\\' :: 'u' :: a :: b :: c :: d :: rest =>
    match unit? a b c d with
    | none => none
    | some unit =>
      if isHighSurrogate unit then
        match rest with
        | '\\' :: 'u' :: a :: b :: c :: d :: rest =>
          match unit? a b c d with
          | none => none
          | some low =>
            if isLowSurrogate low then
              (unescape? rest).map
                (Char.ofNat (0x10000 + (unit - 0xD800) * 0x400 + (low - 0xDC00)) :: ·)
            else none
        | _ => none
      else if isLowSurrogate unit then none
      else (unescape? rest).map (Char.ofNat unit :: ·)
  | '\\' :: letter :: rest =>
    match shortEscape? letter with
    | none => none
    | some c => (unescape? rest).map (c :: ·)
  | c :: rest =>
    if c < ' ' ∨ c = '"' ∨ c = '\\' then none else (unescape? rest).map (c :: ·)

/-! ## Tokens -/

/-- A part of a text that means something by itself. -/
inductive Token where
  | openArray
  | closeArray
  | openObject
  | closeObject
  | comma
  | colon
  | string (text : String)
  /-- A truth value or a number. -/
  | word (letters : List Char)
deriving DecidableEq, Repr

/-- Whether a character may stand between any two tokens. -/
def isBlank (c : Char) : Bool := c = ' ' || c = '\t' || c = '\n' || c = '\r'

/-- The token that a character is by itself. -/
def mark? : Char → Option Token
  | '[' => some .openArray
  | ']' => some .closeArray
  | '\x7b' => some .openObject
  | '\x7d' => some .closeObject
  | ',' => some .comma
  | ':' => some .colon
  | _ => none

/-- Whether a character is part of a word. -/
def isLetter (c : Char) : Bool := !isBlank c && (mark? c).isNone && c != '"'

/-- A text that continues no word. -/
def EndsWord (text : List Char) : Prop := ∀ c ∈ text.head?, ¬ isLetter c

/-- The texts in which tokens follow each other, with any blanks between them.  A word ends where
no more letters follow. -/
inductive SpellsTokens : List Token → List Char → Prop where
  | nil : SpellsTokens [] []
  | blank {c : Char} {tokens : List Token} {text : List Char} (hc : isBlank c)
      (h : SpellsTokens tokens text) : SpellsTokens tokens (c :: text)
  | mark {c : Char} {mark : Token} {tokens : List Token} {text : List Char}
      (hc : mark? c = some mark) (h : SpellsTokens tokens text) :
      SpellsTokens (mark :: tokens) (c :: text)
  | string {escaped text : List Char} {tokens : List Token} {rest : List Char}
      (hescaped : unescape? escaped = some text) (h : SpellsTokens tokens rest) :
      SpellsTokens (.string (String.ofList text) :: tokens) ('"' :: escaped ++ '"' :: rest)
  | word {letters : List Char} {tokens : List Token} {rest : List Char} (hne : letters ≠ [])
      (hletters : ∀ c ∈ letters, isLetter c) (hrest : EndsWord rest)
      (h : SpellsTokens tokens rest) : SpellsTokens (.word letters :: tokens) (letters ++ rest)

/-! ## Reading tokens -/

/-- Where the reader is between two characters. -/
inductive Mode where
  /-- Between tokens. -/
  | between
  /-- Behind letters of a word. -/
  | word (letters : List Char)
  /-- Behind a quote and what follows it. -/
  | string (escaped : List Char)
  /-- In a string, behind a backslash. -/
  | escape (escaped : List Char)

namespace Mode

/-- Read a character that belongs to no token yet. -/
def start (c : Char) : List Token × Mode :=
  match mark? c with
  | some mark => ([mark], between)
  | none =>
    if isBlank c then ([], between)
    else if c = '"' then ([], string [])
    else ([], word [c])

/-- Read a character: the tokens that end with it or in front of it, and where the reader is
then. -/
def step : Mode → Char → Option (List Token × Mode)
  | between, c => some (start c)
  | word letters, c =>
    if isLetter c then some ([], word (letters ++ [c]))
    else some (.word letters :: (start c).1, (start c).2)
  | string escaped, c =>
    if c = '\\' then some ([], escape (escaped ++ [c]))
    else if c = '"' then
      (unescape? escaped).map fun text => ([.string (String.ofList text)], between)
    else some ([], string (escaped ++ [c]))
  | escape escaped, c => some ([], string (escaped ++ [c]))

/-- The tokens that end with the text. -/
def finish? : Mode → Option (List Token)
  | between => some []
  | word letters => some [.word letters]
  | string _ => none
  | escape _ => none

/-- The tokens that end in the rest of a text. -/
def tokens? (mode : Mode) : List Char → Option (List Token)
  | [] => mode.finish?
  | c :: rest =>
    (mode.step c).bind fun (front, next) => (next.tokens? rest).map (front ++ ·)

end Mode

/-! ## Texts of tokens -/

theorem mark?_eq_none_of_isBlank {c : Char} (h : isBlank c) : mark? c = none := by
  unfold isBlank at h
  simp only [Bool.or_eq_true, decide_eq_true_eq, or_assoc] at h
  rcases h with rfl | rfl | rfl | rfl <;> rfl

theorem endsWord_nil : EndsWord [] := nofun

theorem endsWord_cons {c : Char} (h : ¬ isLetter c) (text : List Char) : EndsWord (c :: text) := by
  intro d hd
  obtain rfl : c = d := by simpa using hd
  exact h

theorem isLetter_iff {c : Char} : isLetter c ↔ ¬ isBlank c ∧ mark? c = none ∧ c ≠ '"' := by
  simp [isLetter, and_assoc]

/-- Hexadecimal digits neither end a string nor begin an escape. -/
theorem ne_of_hexValue?_eq_some {c : Char} {n : Nat} (h : hexValue? c = some n) :
    c ≠ '"' ∧ c ≠ '\\' := by
  constructor <;> rintro rfl <;> cases h

theorem digits_of_unit?_eq_some {a b c d : Char} {n : Nat} (h : unit? a b c d = some n) :
    ∀ digit ∈ [a, b, c, d], digit ≠ '"' ∧ digit ≠ '\\' := by
  unfold unit? at h
  simp only [Option.bind_eq_bind, Option.bind_eq_some_iff] at h
  rcases h with ⟨_, ha, _, hb, _, hc, _, hd, -⟩
  simpa using ⟨ne_of_hexValue?_eq_some ha, ne_of_hexValue?_eq_some hb,
    ne_of_hexValue?_eq_some hc, ne_of_hexValue?_eq_some hd⟩

namespace Mode

theorem tokens?_cons (mode : Mode) (c : Char) (rest : List Char) :
    mode.tokens? (c :: rest) =
      (mode.step c).bind fun (front, next) => (next.tokens? rest).map (front ++ ·) := rfl

theorem tokens?_between_cons (c : Char) (rest : List Char) :
    between.tokens? (c :: rest) = ((start c).2.tokens? rest).map ((start c).1 ++ ·) := rfl

/-- A character with which no token ends only changes where the reader is. -/
theorem tokens?_of_step {mode next : Mode} {c : Char} (h : mode.step c = some ([], next))
    (rest : List Char) : mode.tokens? (c :: rest) = next.tokens? rest := by
  rw [tokens?_cons, h]
  exact Option.map_id'

/-- A character of a string that is no quote and no backslash is read as one. -/
theorem tokens?_string_plain {c : Char} (hquote : c ≠ '"') (hslash : c ≠ '\\')
    (escaped rest : List Char) :
    (string escaped).tokens? (c :: rest) = (string (escaped ++ [c])).tokens? rest := by
  refine tokens?_of_step ?_ rest
  simp [step, hquote, hslash]

theorem tokens?_string_plains {plains : List Char} (h : ∀ c ∈ plains, c ≠ '"' ∧ c ≠ '\\')
    (escaped rest : List Char) :
    (string escaped).tokens? (plains ++ rest) = (string (escaped ++ plains)).tokens? rest := by
  induction plains generalizing escaped with
  | nil => simp
  | cons c others ih =>
    rw [List.forall_mem_cons] at h
    rw [List.cons_append, tokens?_string_plain h.1.1 h.1.2, ih h.2, List.append_assoc]
    rfl

/-- A backslash and the character behind it belong to a string. -/
theorem tokens?_string_escape (c : Char) (escaped rest : List Char) :
    (string escaped).tokens? ('\\' :: c :: rest) =
      (string (escaped ++ ['\\', c])).tokens? rest := by
  have hslash : (string escaped).step '\\' = some ([], escape (escaped ++ ['\\'])) := rfl
  have hescaped : (escape (escaped ++ ['\\'])).step c =
      some ([], string (escaped ++ ['\\', c])) := by simp [step]
  rw [tokens?_of_step hslash, tokens?_of_step hescaped]

theorem tokens?_string_unit {a b c d : Char} {n : Nat} (h : unit? a b c d = some n)
    (escaped rest : List Char) :
    (string escaped).tokens? ('\\' :: 'u' :: a :: b :: c :: d :: rest) =
      (string (escaped ++ ['\\', 'u', a, b, c, d])).tokens? rest := by
  have hdigits := tokens?_string_plains (digits_of_unit?_eq_some h) (escaped ++ ['\\', 'u']) rest
  rw [tokens?_string_escape]
  simpa using hdigits

/-- What stands between the quotes of a string does not end it. -/
theorem tokens?_string_escaped {inner : List Char} (h : (unescape? inner).isSome)
    (escaped rest : List Char) :
    (string escaped).tokens? (inner ++ rest) = (string (escaped ++ inner)).tokens? rest := by
  fun_induction unescape? inner generalizing escaped with
  | case1 => simp
  | case2 => cases h
  | case3 => cases h
  | case4 a b c d unit hunit hhigh a' b' c' d' inner low hlow hpair ih =>
    simp only [List.cons_append]
    rw [tokens?_string_unit hunit, tokens?_string_unit hlow, ih (by simpa using h)]
    simp
  | case5 => cases h
  | case6 => cases h
  | case7 => cases h
  | case8 a b c d inner unit hunit hhigh hlow ih =>
    simp only [List.cons_append]
    rw [tokens?_string_unit hunit, ih (by simpa using h)]
    simp
  | case9 => cases h
  | case10 letter inner hshort c hescape ih =>
    simp only [List.cons_append]
    rw [tokens?_string_escape, ih (by simpa using h)]
    simp
  | case11 => cases h
  | case12 c inner hunit hshort hplain ih =>
    rw [not_or, not_or] at hplain
    rw [List.cons_append, tokens?_string_plain hplain.2.1 hplain.2.2, ih (by simpa using h)]
    simp

theorem tokens?_word_letters {more : List Char} (h : ∀ c ∈ more, isLetter c)
    (letters rest : List Char) :
    (word letters).tokens? (more ++ rest) = (word (letters ++ more)).tokens? rest := by
  induction more generalizing letters with
  | nil => simp
  | cons c others ih =>
    rw [List.forall_mem_cons] at h
    have hstep : (word letters).step c = some ([], word (letters ++ [c])) := if_pos h.1
    rw [List.cons_append, tokens?_of_step hstep, ih h.2, List.append_assoc]
    rfl

/-- A word ends where no letter follows. -/
theorem tokens?_word_end {rest : List Char} (h : EndsWord rest) (letters : List Char) :
    (word letters).tokens? rest = (between.tokens? rest).map (.word letters :: ·) := by
  cases rest with
  | nil => rfl
  | cons c rest =>
    have hc : ¬ isLetter c := h c rfl
    rw [tokens?_cons, tokens?_between_cons, Option.map_map]
    simp [step, hc, Function.comp_def]

/-- A first letter begins a word. -/
theorem start_of_isLetter {c : Char} (h : isLetter c) : start c = ([], word [c]) := by
  rw [isLetter_iff] at h
  simp [start, h.1, h.2.1, h.2.2]

/-- What has been read of the token that the reader is in. -/
def pending : Mode → List Char
  | between => []
  | word letters => letters
  | string escaped => '"' :: escaped
  | escape escaped => '"' :: escaped

/-- A word has letters, and nothing else. -/
def IsProper : Mode → Prop
  | word letters => letters ≠ [] ∧ ∀ c ∈ letters, isLetter c
  | _ => True

/-- A character that belongs to no token yet is blank, a token, or the first one of a token. -/
theorem start_spells (c : Char) :
    (start c).2.IsProper ∧ ∀ {tokens : List Token} {rest : List Char},
      SpellsTokens tokens ((start c).2.pending ++ rest) →
        SpellsTokens ((start c).1 ++ tokens) (c :: rest) := by
  unfold start
  split
  · exact ⟨True.intro, .mark ‹_›⟩
  rename_i hmark
  split_ifs with hblank hquote
  · exact ⟨True.intro, .blank hblank⟩
  · subst hquote
    exact ⟨True.intro, id⟩
  · have hletter : isLetter c := isLetter_iff.mpr ⟨hblank, hmark, hquote⟩
    exact ⟨⟨List.cons_ne_nil c [], by simpa using hletter⟩, id⟩

/-- The tokens that are read are those of the text. -/
theorem spellsTokens_of_tokens? (mode : Mode) {text : List Char} {tokens : List Token}
    (hmode : mode.IsProper) (h : mode.tokens? text = some tokens) :
    SpellsTokens tokens (mode.pending ++ text) := by
  induction text generalizing mode tokens with
  | nil =>
    cases mode with
    | between =>
      cases h
      exact .nil
    | word letters =>
      cases h
      exact .word hmode.1 hmode.2 endsWord_nil .nil
    | string => cases h
    | escape => cases h
  | cons c rest ih =>
    rw [tokens?_cons, Option.bind_eq_some_iff] at h
    rcases h with ⟨⟨front, next⟩, hstep, hrest⟩
    rw [Option.map_eq_some_iff] at hrest
    rcases hrest with ⟨back, hrest, rfl⟩
    cases mode with
    | between =>
      obtain rfl := congrArg Prod.fst (Option.some.inj hstep)
      obtain rfl := congrArg Prod.snd (Option.some.inj hstep)
      exact (start_spells c).2 (ih _ (start_spells c).1 hrest)
    | word letters =>
      simp only [step] at hstep
      split_ifs at hstep with hletter
      · cases hstep
        have hmore : ∀ d ∈ letters ++ [c], isLetter d := by
          simpa [or_imp, forall_and] using And.intro hmode.2 hletter
        simpa [pending] using ih (word (letters ++ [c])) ⟨by simp, hmore⟩ hrest
      · cases hstep
        refine .word hmode.1 hmode.2 (endsWord_cons hletter rest) ?_
        exact (start_spells c).2 (ih _ (start_spells c).1 hrest)
    | string escaped =>
      simp only [step] at hstep
      split_ifs at hstep with hslash hquote
      · cases hstep
        simpa [pending] using ih (escape (escaped ++ [c])) True.intro hrest
      · rw [Option.map_eq_some_iff] at hstep
        rcases hstep with ⟨text, htext, hstep⟩
        cases hstep
        subst hquote
        exact .string htext (ih between True.intro hrest)
      · cases hstep
        simpa [pending] using ih (string (escaped ++ [c])) True.intro hrest
    | escape escaped =>
      cases hstep
      simpa [pending] using ih (string (escaped ++ [c])) True.intro hrest

end Mode

/-- The tokens of a text are read. -/
theorem SpellsTokens.tokens?_eq {tokens : List Token} {text : List Char}
    (h : SpellsTokens tokens text) : Mode.between.tokens? text = some tokens := by
  induction h with
  | nil => rfl
  | blank hc _ ih =>
    simp [Mode.tokens?_between_cons, Mode.start, mark?_eq_none_of_isBlank hc, hc, ih]
  | mark hc _ ih => simp [Mode.tokens?_between_cons, Mode.start, hc, ih]
  | @string escaped text tokens rest hescaped _ ih =>
    have hquote : Mode.start '"' = ([], .string []) := by rfl
    have hescapedSome : (unescape? escaped).isSome := by simp [hescaped]
    have hend : (Mode.string escaped).step '"' =
        some ([.string (String.ofList text)], .between) := by
      simp [Mode.step, hescaped]
    rw [List.cons_append, Mode.tokens?_between_cons, hquote,
      Mode.tokens?_string_escaped hescapedSome, List.nil_append, Mode.tokens?_cons, hend]
    simp [ih]
  | @word letters tokens rest hne hletters hrest _ ih =>
    rcases List.exists_cons_of_ne_nil hne with ⟨c, others, rfl⟩
    rw [List.forall_mem_cons] at hletters
    rw [List.cons_append, Mode.tokens?_between_cons, Mode.start_of_isLetter hletters.1,
      Mode.tokens?_word_letters hletters.2, Mode.tokens?_word_end hrest, ih]
    rfl

/-- The reader accepts the texts of tokens, and reads these tokens in them. -/
theorem tokens?_eq_some_iff {tokens : List Token} {text : List Char} :
    Mode.between.tokens? text = some tokens ↔ SpellsTokens tokens text :=
  ⟨Mode.spellsTokens_of_tokens? .between True.intro, SpellsTokens.tokens?_eq⟩

end Json
end AttributeScope
