import AttributeScope.Json.Printer
import AttributeScope.Proofs.JsonTokens

/-!
# Texts of JSON values

What a JSON text is, and a reader for such texts.  Only the values that a `Json` can be have texts
here: there is no `null`, and no number with a sign, a fraction or an exponent.

Main results:

- Theorem `ofText?_eq_some_iff`: the reader accepts exactly the texts of values, and reads each of
  them as its value.
- Theorem `IsTextOf.unique`: a text is the text of one value only.
- Theorem `isTextOf_indented`: the indented text of a value is one of its texts.
-/

namespace AttributeScope
namespace Json

/-! ## Texts -/

mutual
/-- The tokens of a value. -/
def tokens : Json → List Token
  | bool value => [.word (boolChars value)]
  | number value => [.word (Nat.toDigits 10 value)]
  | string value => [.string value]
  | array items => .openArray :: itemTokens items ++ [.closeArray]
  | object members => .openObject :: memberTokens members ++ [.closeObject]

/-- The tokens of items with commas between them. -/
def itemTokens : List Json → List Token
  | [] => []
  | [item] => tokens item
  | item :: rest => tokens item ++ .comma :: itemTokens rest

/-- The tokens of members with commas between them. -/
def memberTokens : List (String × Json) → List Token
  | [] => []
  | [(name, value)] => .string name :: .colon :: tokens value
  | (name, value) :: rest =>
    .string name :: .colon :: tokens value ++ .comma :: memberTokens rest
end

/-- A text is a JSON text of a value. -/
def IsTextOf (value : Json) (text : List Char) : Prop := SpellsTokens (tokens value) text

/-! ## Reading values -/

/-- The value of a word. -/
def ofWord? (letters : List Char) : Option Json :=
  let value := Nat.ofDigitChars 10 letters 0
  if letters = boolChars true then some (bool true)
  else if letters = boolChars false then some (bool false)
  else if letters = Nat.toDigits 10 value then some (number value)
  else none

mutual
/-- Read one value, and return the tokens behind it.  Nothing is read that is nested deeper than a
bound. -/
def value? : Nat → List Token → Option (Json × List Token)
  | 0, _ => none
  | _ + 1, .word letters :: rest => (ofWord? letters).map fun value => (value, rest)
  | _ + 1, .string text :: rest => some (string text, rest)
  | _ + 1, .openArray :: .closeArray :: rest => some (array [], rest)
  | bound + 1, .openArray :: rest =>
    (items? bound rest).map fun (items, rest) => (array items, rest)
  | _ + 1, .openObject :: .closeObject :: rest => some (object [], rest)
  | bound + 1, .openObject :: rest =>
    (members? bound rest).map fun (members, rest) => (object members, rest)
  | _, _ => none

/-- Read the items of an array and its closing bracket. -/
def items? : Nat → List Token → Option (List Json × List Token)
  | 0, _ => none
  | bound + 1, tokens =>
    match value? bound tokens with
    | some (item, .comma :: rest) =>
      (items? bound rest).map fun (items, rest) => (item :: items, rest)
    | some (item, .closeArray :: rest) => some ([item], rest)
    | _ => none

/-- Read the members of an object and its closing brace. -/
def members? : Nat → List Token → Option (List (String × Json) × List Token)
  | 0, _ => none
  | bound + 1, .string name :: .colon :: tokens =>
    match value? bound tokens with
    | some (value, .comma :: rest) =>
      (members? bound rest).map fun (members, rest) => ((name, value) :: members, rest)
    | some (value, .closeObject :: rest) => some ([(name, value)], rest)
    | _ => none
  | _, _ => none
end

/-- Read a value whose tokens are all that there is. -/
def ofTokens? (tokens : List Token) : Option Json :=
  match value? tokens.length tokens with
  | some (value, []) => some value
  | _ => none

/-- Read a JSON text. -/
def ofText? (text : String) : Option Json :=
  (Mode.between.tokens? text.toList).bind ofTokens?

/-! ## Values and their tokens -/

/-- What holds of an array if it holds of its items, and of an object if it holds of the values of
its members, holds of all values if it holds of truth values, numbers and strings. -/
@[elab_as_elim]
theorem inductionOn {motive : Json → Prop} (bool : ∀ value, motive (.bool value))
    (number : ∀ value, motive (.number value)) (string : ∀ value, motive (.string value))
    (array : ∀ items, (∀ item ∈ items, motive item) → motive (.array items))
    (object : ∀ members : List (String × Json), (∀ member ∈ members, motive member.2) →
      motive (.object members)) (value : Json) : motive value :=
  Json.rec bool number string array object (fun _ h => nomatch h)
    (fun _ _ hitem hrest => List.forall_mem_cons.mpr ⟨hitem, hrest⟩) (fun _ h => nomatch h)
    (fun _ _ hmember hrest => List.forall_mem_cons.mpr ⟨hmember, hrest⟩) (fun _ _ hvalue => hvalue)
    value

theorem itemTokens_cons {item : Json} {rest : List Json} (h : rest ≠ []) :
    itemTokens (item :: rest) = tokens item ++ .comma :: itemTokens rest := by
  rcases List.exists_cons_of_ne_nil h with ⟨next, others, rfl⟩
  rfl

theorem memberTokens_cons {name : String} {value : Json} {rest : List (String × Json)}
    (h : rest ≠ []) :
    memberTokens ((name, value) :: rest) =
      .string name :: .colon :: tokens value ++ .comma :: memberTokens rest := by
  rcases List.exists_cons_of_ne_nil h with ⟨next, others, rfl⟩
  rfl

theorem ofWord?_boolChars (value : Bool) : ofWord? (boolChars value) = some (bool value) := by
  cases value <;> rfl

theorem ofWord?_toDigits (value : Nat) :
    ofWord? (Nat.toDigits 10 value) = some (number value) := by
  have hword : ∀ truth, Nat.toDigits 10 value ≠ boolChars truth := by
    intro truth heq
    have hdigits : (boolChars truth).all Char.isDigit := List.all_eq_true.mpr fun c hc =>
      Nat.isDigit_of_mem_toDigits (by decide) (by decide) (heq ▸ hc)
    cases truth <;> exact absurd hdigits (by decide)
  unfold ofWord?
  dsimp only
  rw [if_neg (hword true), if_neg (hword false), Nat.ofDigitChars_ten_toDigits, if_pos rfl]

theorem tokens_of_ofWord?_eq_some {letters : List Char} {value : Json}
    (h : ofWord? letters = some value) : tokens value = [.word letters] := by
  unfold ofWord? at h
  dsimp only at h
  split_ifs at h with htrue hfalse hnumber
  · cases h
    rw [htrue, tokens]
  · cases h
    rw [hfalse, tokens]
  · cases h
    rw [tokens, ← hnumber]

/-- No value begins with a closing bracket, and neither do items. -/
theorem tokens_append_ne (value : Json) (rest after : List Token) :
    tokens value ++ rest ≠ .closeArray :: after := by
  cases value <;> simp [tokens]

theorem itemTokens_append_ne {items : List Json} (hne : items ≠ []) (rest after : List Token) :
    itemTokens items ++ rest ≠ .closeArray :: after := by
  rcases List.exists_cons_of_ne_nil hne with ⟨item, others, rfl⟩
  by_cases hothers : others = []
  · subst hothers
    exact tokens_append_ne item rest after
  · rw [itemTokens_cons hothers, List.append_assoc]
    exact tokens_append_ne item _ after

theorem memberTokens_append_ne {members : List (String × Json)} (hne : members ≠ [])
    (rest after : List Token) : memberTokens members ++ rest ≠ .closeObject :: after := by
  rcases List.exists_cons_of_ne_nil hne with ⟨⟨name, value⟩, others, rfl⟩
  cases others <;> simp [memberTokens]

/-- Items are read one by one: behind each there is a comma or the closing bracket. -/
theorem items?_succ_eq_some_iff {bound : Nat} {tokens rest : List Token} {items : List Json} :
    items? (bound + 1) tokens = some (items, rest) ↔
      (∃ item, value? bound tokens = some (item, .closeArray :: rest) ∧ items = [item]) ∨
        ∃ item others after, value? bound tokens = some (item, .comma :: after) ∧
          items? bound after = some (others, rest) ∧ items = item :: others := by
  rw [items?]
  constructor
  · intro h
    split at h
    · rename_i item after hvalue
      rcases Option.map_eq_some_iff.mp h with ⟨⟨others, rest'⟩, hothers, hitems⟩
      cases hitems
      exact .inr ⟨item, others, after, hvalue, hothers, rfl⟩
    · rename_i item after hvalue
      cases h
      exact .inl ⟨item, hvalue, rfl⟩
    · cases h
  · rintro (⟨item, hvalue, rfl⟩ | ⟨item, others, after, hvalue, hothers, rfl⟩)
    · rw [hvalue]
    · rw [hvalue]
      dsimp only
      rw [hothers]
      rfl

/-- Members are read one by one: a name and a colon stand in front of each value, and behind it
there is a comma or the closing brace. -/
theorem members?_succ_eq_some_iff {bound : Nat} {tokens rest : List Token}
    {members : List (String × Json)} :
    members? (bound + 1) tokens = some (members, rest) ↔
      ∃ name value behind, tokens = .string name :: .colon :: behind ∧
        (value? bound behind = some (value, .closeObject :: rest) ∧ members = [(name, value)] ∨
          ∃ others after, value? bound behind = some (value, .comma :: after) ∧
            members? bound after = some (others, rest) ∧ members = (name, value) :: others) := by
  constructor
  · intro h
    unfold members? at h
    split at h
    · cases h
    · rename_i bound' name behind hbound
      obtain rfl := Nat.succ.inj hbound
      split at h
      · rename_i value after hvalue
        rcases Option.map_eq_some_iff.mp h with ⟨⟨others, rest'⟩, hothers, hmembers⟩
        cases hmembers
        exact ⟨name, value, behind, rfl, .inr ⟨others, after, hvalue, hothers, rfl⟩⟩
      · rename_i value after hvalue
        cases h
        exact ⟨name, value, behind, rfl, .inl ⟨hvalue, rfl⟩⟩
      · cases h
    · cases h
  · rintro ⟨name, value, behind, rfl, ⟨hvalue, rfl⟩ | ⟨others, after, hvalue, hothers, rfl⟩⟩
    · rw [members?, hvalue]
    · rw [members?, hvalue]
      dsimp only
      rw [hothers]
      rfl

/-- Brackets without items are an empty array; otherwise items follow the first bracket. -/
theorem value?_array {bound : Nat} {tokens : List Token}
    (h : ∀ after, tokens ≠ .closeArray :: after) :
    value? (bound + 1) (.openArray :: tokens) =
      (items? bound tokens).map fun (items, rest) => (array items, rest) := by
  rw [value?]
  exact h

theorem value?_object {bound : Nat} {tokens : List Token}
    (h : ∀ after, tokens ≠ .closeObject :: after) :
    value? (bound + 1) (.openObject :: tokens) =
      (members? bound tokens).map fun (members, rest) => (object members, rest) := by
  rw [value?]
  exact h

/-- The tokens of a value are read as this value, with any bound that is not below their number. -/
def IsRead (value : Json) : Prop :=
  ∀ {bound : Nat}, (tokens value).length ≤ bound → ∀ rest,
    value? bound (tokens value ++ rest) = some (value, rest)

theorem items?_itemTokens {items : List Json} (hne : items ≠ [])
    (hread : ∀ item ∈ items, IsRead item) {bound : Nat}
    (hbound : (itemTokens items).length < bound) (rest : List Token) :
    items? bound (itemTokens items ++ .closeArray :: rest) = some (items, rest) := by
  induction items generalizing bound with
  | nil => exact absurd rfl hne
  | cons item others ih =>
    rw [List.forall_mem_cons] at hread
    rcases Nat.exists_eq_succ_of_ne_zero (Nat.ne_zero_of_lt hbound) with ⟨bound, rfl⟩
    rw [Nat.lt_succ_iff] at hbound
    rw [items?_succ_eq_some_iff]
    by_cases hothers : others = []
    · subst hothers
      exact .inl ⟨item, hread.1 hbound _, rfl⟩
    · rw [itemTokens_cons hothers] at hbound ⊢
      rw [List.length_append, List.length_cons] at hbound
      rw [List.append_assoc, List.cons_append]
      have hlast : (itemTokens others).length < bound := by omega
      exact .inr ⟨item, others, _, hread.1 (by omega) _, ih hothers hread.2 hlast, rfl⟩

theorem members?_memberTokens {members : List (String × Json)} (hne : members ≠ [])
    (hread : ∀ member ∈ members, IsRead member.2) {bound : Nat}
    (hbound : (memberTokens members).length < bound) (rest : List Token) :
    members? bound (memberTokens members ++ .closeObject :: rest) = some (members, rest) := by
  induction members generalizing bound with
  | nil => exact absurd rfl hne
  | cons member others ih =>
    rw [List.forall_mem_cons] at hread
    rcases member with ⟨name, value⟩
    have hvalue : IsRead value := hread.1
    rcases Nat.exists_eq_succ_of_ne_zero (Nat.ne_zero_of_lt hbound) with ⟨bound, rfl⟩
    rw [Nat.lt_succ_iff] at hbound
    rw [members?_succ_eq_some_iff]
    by_cases hothers : others = []
    · subst hothers
      rw [memberTokens, List.length_cons, List.length_cons] at hbound
      exact ⟨name, value, _, rfl, .inl ⟨hvalue (by omega) _, rfl⟩⟩
    · rw [memberTokens_cons hothers] at hbound ⊢
      simp only [List.cons_append, List.length_append, List.length_cons] at hbound
      rw [List.append_assoc, List.cons_append, List.cons_append, List.cons_append]
      have hlast : (memberTokens others).length < bound := by omega
      exact ⟨name, value, _, rfl,
        .inr ⟨others, _, hvalue (by omega) _, ih hothers hread.2 hlast, rfl⟩⟩

theorem isRead_of_succ {value : Json} (h : ∀ bound, (tokens value).length ≤ bound + 1 → ∀ rest,
    value? (bound + 1) (tokens value ++ rest) = some (value, rest)) : IsRead value := by
  intro bound hbound rest
  cases bound with
  | zero =>
    have hnil : tokens value = [] := List.eq_nil_of_length_eq_zero (Nat.le_zero.mp hbound)
    cases value <;> simp [tokens] at hnil
  | succ bound => exact h bound hbound rest

/-- Every value is read from its tokens. -/
theorem isRead (value : Json) : IsRead value := by
  induction value using inductionOn with
  | bool value =>
    refine isRead_of_succ fun bound hbound rest => ?_
    rw [tokens, List.singleton_append, value?, ofWord?_boolChars]
    rfl
  | number value =>
    refine isRead_of_succ fun bound hbound rest => ?_
    rw [tokens, List.singleton_append, value?, ofWord?_toDigits]
    rfl
  | string value => exact isRead_of_succ fun bound hbound rest => rfl
  | array items ih =>
    refine isRead_of_succ fun bound hbound rest => ?_
    by_cases hitems : items = []
    · subst hitems
      rfl
    · rw [tokens] at hbound ⊢
      simp only [List.cons_append, List.length_cons, List.length_append] at hbound
      rw [List.cons_append, List.cons_append, List.append_assoc, List.singleton_append,
        value?_array (itemTokens_append_ne hitems _), items?_itemTokens hitems ih (by omega)]
      rfl
  | object members ih =>
    refine isRead_of_succ fun bound hbound rest => ?_
    by_cases hmembers : members = []
    · subst hmembers
      rfl
    · rw [tokens] at hbound ⊢
      simp only [List.cons_append, List.length_cons, List.length_append] at hbound
      rw [List.cons_append, List.cons_append, List.append_assoc, List.singleton_append,
        value?_object (memberTokens_append_ne hmembers _),
        members?_memberTokens hmembers ih (by omega)]
      rfl

/-- What is read is a value, and behind its tokens there are those that are returned. -/
theorem eq_tokens_of_read (bound : Nat) :
    (∀ {tokens rest : List Token} {value : Json}, value? bound tokens = some (value, rest) →
        tokens = value.tokens ++ rest) ∧
      (∀ {tokens rest : List Token} {items : List Json}, items? bound tokens = some (items, rest) →
        items ≠ [] ∧ tokens = itemTokens items ++ .closeArray :: rest) ∧
      ∀ {tokens rest : List Token} {members : List (String × Json)},
        members? bound tokens = some (members, rest) →
          members ≠ [] ∧ tokens = memberTokens members ++ .closeObject :: rest := by
  -- Each of the three readers calls the others with a smaller bound.
  induction bound with
  | zero => exact ⟨nofun, nofun, nofun⟩
  | succ bound ih =>
    rcases ih with ⟨ihValue, ihItems, ihMembers⟩
    refine ⟨fun {tokens rest value} h => ?_, fun {tokens rest items} h => ?_,
      fun {tokens rest members} h => ?_⟩
    · unfold value? at h
      split at h
      · cases h
      · rename_i letters after hbound
        rcases Option.map_eq_some_iff.mp h with ⟨value, hword, hvalue⟩
        cases hvalue
        rw [tokens_of_ofWord?_eq_some hword]
        rfl
      · cases h
        rfl
      · cases h
        rfl
      · rename_i after _ hbound
        obtain rfl := Nat.succ.inj hbound
        rcases Option.map_eq_some_iff.mp h with ⟨⟨items, behind⟩, hitems, hvalue⟩
        cases hvalue
        rw [(ihItems hitems).2]
        simp [Json.tokens]
      · cases h
        rfl
      · rename_i after _ hbound
        obtain rfl := Nat.succ.inj hbound
        rcases Option.map_eq_some_iff.mp h with ⟨⟨members, behind⟩, hmembers, hvalue⟩
        cases hvalue
        rw [(ihMembers hmembers).2]
        simp [Json.tokens]
      · cases h
    · rw [items?_succ_eq_some_iff] at h
      rcases h with ⟨item, hitem, rfl⟩ | ⟨item, others, after, hitem, hothers, rfl⟩
      · exact ⟨List.cons_ne_nil item [], ihValue hitem⟩
      · rcases ihItems hothers with ⟨hne, rfl⟩
        refine ⟨List.cons_ne_nil item others, ?_⟩
        rw [ihValue hitem, itemTokens_cons hne, List.append_assoc, List.cons_append]
    · rw [members?_succ_eq_some_iff] at h
      rcases h with ⟨name, value, behind, rfl,
        ⟨hvalue, rfl⟩ | ⟨others, after, hvalue, hothers, rfl⟩⟩
      · refine ⟨List.cons_ne_nil _ [], ?_⟩
        rw [ihValue hvalue]
        rfl
      · rcases ihMembers hothers with ⟨hne, rfl⟩
        refine ⟨List.cons_ne_nil _ others, ?_⟩
        rw [ihValue hvalue, memberTokens_cons hne]
        simp

/-- Tokens are read as a value if they are those of this value. -/
theorem ofTokens?_eq_some_iff {tokens : List Token} {value : Json} :
    ofTokens? tokens = some value ↔ tokens = value.tokens := by
  unfold ofTokens?
  constructor
  · intro h
    split at h
    · rename_i found hread
      cases h
      rw [(eq_tokens_of_read _).1 hread, List.append_nil]
    · cases h
  · rintro rfl
    have hread := isRead value (Nat.le_refl _) []
    rw [List.append_nil] at hread
    rw [hread]

/-- The reader accepts exactly the texts of values, and reads each of them as its value. -/
theorem ofText?_eq_some_iff {text : String} {value : Json} :
    ofText? text = some value ↔ value.IsTextOf text.toList := by
  unfold ofText? IsTextOf
  rw [Option.bind_eq_some_iff, ← tokens?_eq_some_iff]
  constructor
  · rintro ⟨tokens, htokens, hvalue⟩
    rw [htokens, ofTokens?_eq_some_iff.mp hvalue]
  · intro htokens
    exact ⟨value.tokens, htokens, ofTokens?_eq_some_iff.mpr rfl⟩

example : (ofText? " [12 , \"\\u0041\\ud834\\udd1e\",\n \x7b\"a\" : true\x7d] ").map compact =
    some "[12,\"A𝄞\",\x7b\"a\":true\x7d]" := by decide +kernel

/-- A text is the text of one value only. -/
theorem IsTextOf.unique {text : List Char} {value other : Json} (h : value.IsTextOf text)
    (h' : other.IsTextOf text) : value = other := by
  rw [← String.toList_ofList (l := text), ← ofText?_eq_some_iff] at h h'
  exact Option.some.inj (h.symm.trans h')

/-! ## Indented texts -/

theorem hexValue?_digitChar : ∀ digit < 16, hexValue? (Nat.digitChar digit) = some digit := by
  decide

theorem unescape?_plain {c : Char} (h : ¬ (c < ' ' ∨ c = '"' ∨ c = '\\')) (rest : List Char) :
    unescape? (c :: rest) = (unescape? rest).map (c :: ·) := by
  have hslash : c ≠ '\\' := fun heq => h (.inr (.inr heq))
  rw [unescape?, if_neg h]
  · exact fun _ _ _ _ _ heq => absurd heq hslash
  · exact fun _ _ heq => absurd heq hslash

/-- A character that is written in a string is found there again. -/
theorem unescape?_escapedChar (c : Char) (rest : List Char) :
    unescape? (escapedChar c ++ rest) = (unescape? rest).map (c :: ·) := by
  unfold escapedChar
  split_ifs with hquote hslash hbackspace htab hfeed hform hreturn hcontrol
  · subst hquote
    rfl
  · subst hslash
    rfl
  · subst hbackspace
    rfl
  · subst htab
    rfl
  · subst hfeed
    rfl
  · subst hform
    rfl
  · subst hreturn
    rfl
  · have hhigh := hexValue?_digitChar (c.toNat / 16) (by omega)
    have hlow := hexValue?_digitChar (c.toNat % 16) (by omega)
    have hunit : unit? '0' '0' (Nat.digitChar (c.toNat / 16)) (Nat.digitChar (c.toNat % 16)) =
        some c.toNat := by
      have hzero : hexValue? '0' = some 0 := rfl
      unfold unit?
      rw [hzero, hhigh, hlow]
      simp only [Option.pure_def, Option.bind_eq_bind, Option.bind_some, Option.some.injEq]
      omega
    have hsurrogate : isHighSurrogate c.toNat = false ∧ isLowSurrogate c.toNat = false := by
      simp only [isHighSurrogate, isLowSurrogate, Bool.and_eq_false_imp, decide_eq_true_eq,
        decide_eq_false_iff_not]
      omega
    simp only [List.cons_append, List.nil_append]
    rw [unescape?]
    simp [hunit, hsurrogate]
  · refine unescape?_plain ?_ rest
    rintro (hlt | heq | heq)
    · exact hcontrol (UInt32.lt_iff_toNat_lt.mp hlt)
    · exact hquote heq
    · exact hslash heq

theorem unescape?_flatMap (text : List Char) :
    unescape? (text.flatMap escapedChar) = some text := by
  induction text with
  | nil => rfl
  | cons c rest ih => rw [List.flatMap_cons, unescape?_escapedChar, ih, Option.map_some]

namespace SpellsTokens

variable {tokens : List Token} {text : List Char} (h : SpellsTokens tokens text)
include h

theorem stringChars (name : String) :
    SpellsTokens (.string name :: tokens) (Json.stringChars name ++ text) := by
  have hname := SpellsTokens.string (unescape?_flatMap name.toList) h
  rw [String.ofList_toList] at hname
  simpa [Json.stringChars] using hname

theorem newline (depth : Nat) : SpellsTokens tokens (Json.newline depth ++ text) := by
  refine .blank rfl ?_
  induction 2 * depth with
  | zero => exact h
  | succ width ih => exact .blank rfl ih

end SpellsTokens

theorem endsWord_newline (depth : Nat) (text : List Char) : EndsWord (newline depth ++ text) :=
  endsWord_cons (by decide) _

theorem isLetter_of_isDigit {c : Char} (h : c.isDigit) : isLetter c := by
  rw [isLetter_iff]
  refine ⟨fun hblank => ?_, ?_, ?_⟩
  · unfold isBlank at hblank
    simp only [Bool.or_eq_true, decide_eq_true_eq, or_assoc] at hblank
    rcases hblank with rfl | rfl | rfl | rfl <;> exact absurd h (by decide)
  · unfold mark?
    split <;> first | rfl | exact absurd h (by decide)
  · rintro rfl
    exact absurd h (by decide)

/-- A value is spelled by its indented form, on whatever level it stands, in front of a text that
does not continue a word. -/
def IsSpelled (value : Json) : Prop :=
  ∀ (depth : Nat) {tokens : List Token} {text : List Char}, SpellsTokens tokens text →
    EndsWord text →
      SpellsTokens (value.tokens ++ tokens) (indentedChars depth value ++ text)

theorem spells_indentedItems {items : List Json} (hitems : ∀ item ∈ items, IsSpelled item)
    (depth : Nat) {tokens : List Token} {text : List Char} (h : SpellsTokens tokens text)
    (htext : EndsWord text) :
    SpellsTokens (itemTokens items ++ tokens) (indentedItems depth items ++ text) := by
  induction items with
  | nil => exact h
  | cons item others ih =>
    rw [List.forall_mem_cons] at hitems
    cases others with
    | nil =>
      rw [itemTokens, indentedItems, List.append_assoc]
      exact (hitems.1 depth h htext).newline depth
    | cons next others =>
      have hrest := SpellsTokens.mark (c := ',') rfl (ih hitems.2)
      have hall := (hitems.1 depth hrest (endsWord_cons (by decide) _)).newline depth
      simpa [itemTokens, indentedItems] using hall

theorem spells_indentedMembers {members : List (String × Json)}
    (hmembers : ∀ member ∈ members, IsSpelled member.2) (depth : Nat) {tokens : List Token}
    {text : List Char} (h : SpellsTokens tokens text) (htext : EndsWord text) :
    SpellsTokens (memberTokens members ++ tokens) (indentedMembers depth members ++ text) := by
  induction members with
  | nil => exact h
  | cons member others ih =>
    rw [List.forall_mem_cons] at hmembers
    rcases member with ⟨name, value⟩
    have hmember : ∀ {tokens : List Token} {text : List Char}, SpellsTokens tokens text →
        EndsWord text →
          SpellsTokens (.string name :: .colon :: value.tokens ++ tokens)
            (newline depth ++ stringChars name ++ ':' :: ' ' :: indentedChars depth value ++
              text) := by
      intro tokens text h htext
      have hvalue := SpellsTokens.mark (c := ':') rfl
        (SpellsTokens.blank (c := ' ') rfl (hmembers.1 depth h htext))
      simpa using (hvalue.stringChars name).newline depth
    cases others with
    | nil =>
      rw [memberTokens, indentedMembers]
      exact hmember h htext
    | cons next others =>
      have hrest := SpellsTokens.mark (c := ',') rfl (ih hmembers.2)
      simpa [memberTokens, indentedMembers] using hmember hrest (endsWord_cons (by decide) _)

/-- A value is spelled by its indented form. -/
theorem isSpelled (value : Json) : IsSpelled value := by
  induction value using inductionOn with
  | bool value =>
    intro depth tokens text h htext
    have hletters : (boolChars value).all isLetter := by cases value <;> decide
    exact .word (by cases value <;> decide) (List.all_eq_true.mp hletters) htext h
  | number value =>
    intro depth tokens text h htext
    refine .word Nat.toDigits_ne_nil (fun c hc => ?_) htext h
    exact isLetter_of_isDigit (Nat.isDigit_of_mem_toDigits (by decide) (by decide) hc)
  | string value =>
    intro depth tokens text h htext
    exact h.stringChars value
  | array items ih =>
    intro depth tokens text h htext
    have hclose : SpellsTokens (.closeArray :: tokens) (newline depth ++ ']' :: text) :=
      (SpellsTokens.mark (c := ']') rfl h).newline depth
    cases items with
    | nil => exact .mark rfl (.mark rfl h)
    | cons item others =>
      have hitems := spells_indentedItems ih (depth + 1) hclose (endsWord_newline depth _)
      simpa [Json.tokens, indentedChars] using SpellsTokens.mark (c := '[') rfl hitems
  | object members ih =>
    intro depth tokens text h htext
    have hclose : SpellsTokens (.closeObject :: tokens) (newline depth ++ '\x7d' :: text) :=
      (SpellsTokens.mark (c := '\x7d') rfl h).newline depth
    cases members with
    | nil => exact .mark rfl (.mark rfl h)
    | cons member others =>
      have hmembers := spells_indentedMembers ih (depth + 1) hclose (endsWord_newline depth _)
      simpa [Json.tokens, indentedChars] using SpellsTokens.mark (c := '\x7b') rfl hmembers

/-- The indented text of a value is one of its texts. -/
theorem isTextOf_indented (value : Json) : value.IsTextOf value.indented.toList := by
  have htext := isSpelled value 0 .nil endsWord_nil
  rw [List.append_nil, List.append_nil] at htext
  unfold IsTextOf indented
  rwa [String.toList_ofList]

end Json
end AttributeScope
