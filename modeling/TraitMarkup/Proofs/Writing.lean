import TraitMarkup.Text.Json

/-
  The text of a JSON value determines the value.

  What stands in front of a text tells what it is: a string, an
  array and an object start with characters of their own, and
  everything else goes up to the next character that can stand
  behind a value. Characters of a string can be read back one by
  one. So two values whose texts agree are equal, and what
  follows the texts agrees as well.

  Key definitions include:
    * `Json.Stops`
    * `Json.unescape`
    * `Json.mark`
    * `Json.Separates`

  Main declarations:
    * `Json.unescape_escapeChar`
    * `Json.quote_append_inj`
    * `Json.separates_writeAt`
    * `Json.write_injective`
-/

namespace TraitMarkup

namespace Json

------------------------------------------------------------
-- Values Without Quotes And Brackets
------------------------------------------------------------

/- The character can stand right behind a value. -/
def isStop
    (c : Char) :
    Bool :=
  [',', ']', '\x7d', '\n'].contains c

/- The text can stand right behind a value. -/
def Stops
    (rest : List Char) : Prop :=
  ∀ c ∈ rest.head?, isStop c

/- Texts without stops are cut off where the first stop is. -/
theorem append_inj_of_stops
    {left right rest more : List Char}
    (hLeft : ∀ c ∈ left, isStop c = false)
    (hRight : ∀ c ∈ right, isStop c = false)
    (hRest : Stops rest)
    (hMore : Stops more)
    (hText : left ++ rest = right ++ more) :
    left = right ∧ rest = more := by
  induction left generalizing right with
  | nil =>
      cases right with
      | nil => exact ⟨rfl, hText⟩
      | cons c right =>
          rw [List.nil_append] at hText
          have hStop := hRest c (by simp [hText])
          rw [hRight c List.mem_cons_self] at hStop
          cases hStop
  | cons c left ih =>
      rw [List.forall_mem_cons] at hLeft
      cases right with
      | nil =>
          rw [List.nil_append] at hText
          have hStop := hMore c (by simp [← hText])
          rw [hLeft.1] at hStop
          cases hStop
      | cons d right =>
          rw [List.forall_mem_cons] at hRight
          rcases List.cons.inj hText with ⟨rfl, hLater⟩
          rcases ih hLeft.2 hRight.2 hLater with ⟨rfl, rfl⟩
          exact ⟨rfl, rfl⟩

/- The digits of a number determine it. -/
theorem toDigits_injective
    {m n : Nat}
    (hDigits : Nat.toDigits 10 m = Nat.toDigits 10 n) :
    m = n := by
  rw [← Nat.ofDigitChars_ten_toDigits (n := m), hDigits,
    Nat.ofDigitChars_ten_toDigits]

/- A number is digits, with a sign or without. -/
theorem toList_toString_int
    (value : Int) :
    (toString value).toList =
      if value < 0 then
        '-' :: Nat.toDigits 10 value.natAbs
      else
        Nat.toDigits 10 value.natAbs := by
  cases value with
  | ofNat n =>
      change n.repr.toList = _
      simp
  | negSucc n =>
      change ("-" ++ (n + 1).repr).toList = _
      simp

/- The characters of a number are digits and signs. -/
theorem isDigit_or_sign_of_mem
    {value : Int}
    {c : Char}
    (hMember : c ∈ (toString value).toList) :
    c.isDigit ∨ c = '-' := by
  have hDigits :
      ∀ {n : Nat}, c ∈ Nat.toDigits 10 n → c.isDigit :=
    Nat.isDigit_of_mem_toDigits (by decide) (by decide)
  rw [toList_toString_int] at hMember
  split at hMember
  · rcases List.mem_cons.mp hMember with rfl | hLater
    · exact .inr rfl
    · exact .inl (hDigits hLater)
  · exact .inl (hDigits hMember)

theorem toString_int_injective
    {left right : Int}
    (hText : toString left = toString right) :
    left = right := by
  have hSign :
      ∀ {m n : Nat},
        '-' :: Nat.toDigits 10 m ≠ Nat.toDigits 10 n := by
    intro m n hDigits
    have hMember : '-' ∈ Nat.toDigits 10 n := by
      simp [← hDigits]
    have hDigit :=
      Nat.isDigit_of_mem_toDigits (by decide) (by decide)
        hMember
    exact absurd hDigit (by decide)
  have hLists := congrArg String.toList hText
  rw [toList_toString_int, toList_toString_int] at hLists
  split at hLists <;> split at hLists
  · have hAbs := toDigits_injective (List.cons.inj hLists).2
    omega
  · exact absurd hLists hSign
  · exact absurd hLists.symm hSign
  · have hAbs := toDigits_injective hLists
    omega

------------------------------------------------------------
-- Strings
------------------------------------------------------------

/- The value of a hexadecimal digit. -/
def digitValue
    (c : Char) :
    Nat :=
  if c.isDigit then c.toNat - '0'.toNat
  else c.toNat - 'a'.toNat + 10

/- The value of four hexadecimal digits. -/
def unitValue
    (a b c d : Char) :
    Nat :=
  ((digitValue a * 16 + digitValue b) * 16 + digitValue c) * 16
    + digitValue d

/- The escaped unit in front of the rest of a text. -/
def readUnit : List Char → Option (Nat × List Char)
  | '\\' :: 'u' :: a :: b :: c :: d :: rest =>
      some (unitValue a b c d, rest)
  | _ => none

/- The characters that a letter behind a backslash stands for. -/
def mnemonics : List (Char × Char) :=
  [('"', '"'), ('\\', '\\'), ('n', '\n'), ('r', '\r'),
    ('t', '\t'), ('b', '\x08'), ('f', '\x0c')]

/- The character in front of the rest of a quoted text. -/
def unescape
    (text : List Char) :
    Option (Char × List Char) :=
  match readUnit text with
  | some (high, rest) =>
      if 0xD800 ≤ high ∧ high < 0xDC00 then
        (readUnit rest).map fun (low, rest) =>
          (Char.ofNat
            (0x10000 + (high - 0xD800) * 0x400
              + (low - 0xDC00)), rest)
      else
        some (Char.ofNat high, rest)
  | none =>
      match text with
      | [] => none
      | '\\' :: letter :: rest =>
          (mnemonics.lookup letter).map (·, rest)
      | c :: rest => some (c, rest)

theorem digitValue_hexDigit :
    ∀ n < 16, digitValue (hexDigit n) = n := by
  decide

/- Four digits are enough for a unit. -/
theorem readUnit_escapeUnit
    {n : Nat}
    (hUnit : n < 0x10000)
    (rest : List Char) :
    readUnit (escapeUnit n ++ rest) = some (n, rest) := by
  have hDigit :
      ∀ m, digitValue (hexDigit (m % 16)) = m % 16 :=
    fun m => digitValue_hexDigit _ (Nat.mod_lt m (by decide))
  have hValue :
      unitValue (hexDigit (n / 16 / 16 / 16 % 16))
          (hexDigit (n / 16 / 16 % 16))
          (hexDigit (n / 16 % 16)) (hexDigit (n % 16)) = n := by
    unfold unitValue
    rw [hDigit, hDigit, hDigit, hDigit]
    omega
  calc readUnit (escapeUnit n ++ rest)
    _ = some
          (unitValue (hexDigit (n / 16 / 16 / 16 % 16))
            (hexDigit (n / 16 / 16 % 16))
            (hexDigit (n / 16 % 16)) (hexDigit (n % 16)),
            rest) := rfl
    _ = some (n, rest) := by rw [hValue]

/- A letter behind a backslash is read back. -/
theorem unescape_letter
    {letter c : Char}
    (hLetter : (letter, c) ∈ mnemonics)
    (rest : List Char) :
    unescape ('\\' :: letter :: rest) = some (c, rest) := by
  simp only [mnemonics, List.mem_cons, Prod.mk.injEq,
    List.not_mem_nil, or_false] at hLetter
  rcases hLetter with h | h | h | h | h | h | h
  all_goals
    rcases h with ⟨rfl, rfl⟩
    rfl

/- A character that stands for itself is read back. -/
theorem unescape_self
    {c : Char}
    (hPlain : c ≠ '\\')
    (rest : List Char) :
    unescape (c :: rest) = some (c, rest) := by
  have hUnit : readUnit (c :: rest) = none := by
    unfold readUnit
    split
    · rename_i hText
      exact absurd (List.cons.inj hText).1 hPlain
    · rfl
  unfold unescape
  rw [hUnit]
  simp only
  split
  · rename_i hText
    cases hText
  · rename_i hText
    exact absurd (List.cons.inj hText).1 hPlain
  · rename_i hText
    cases hText
    rfl

/- The units of a character are read back. -/
theorem unescape_units
    (c : Char)
    (rest : List Char) :
    unescape ((units c).flatMap escapeUnit ++ rest) =
      some (c, rest) := by
  have hValid :
      c.toNat < 0xD800 ∨
        0xDFFF < c.toNat ∧ c.toNat < 0x110000 :=
    c.valid
  by_cases hSmall : c.toNat < 0x10000
  · have hHalf : ¬ (0xD800 ≤ c.toNat ∧ c.toNat < 0xDC00) := by
      omega
    rw [units, if_pos hSmall, List.flatMap_singleton]
    unfold unescape
    rw [readUnit_escapeUnit hSmall]
    simp only [if_neg hHalf, Char.ofNat_toNat]
  · have hHigh :
        0xD800 + (c.toNat - 0x10000) / 0x400 < 0xDC00 := by
      omega
    have hWhole :
        0x10000
            + (0xD800 + (c.toNat - 0x10000) / 0x400 - 0xD800)
              * 0x400
            + (0xDC00 + (c.toNat - 0x10000) % 0x400 - 0xDC00) =
          c.toNat := by
      omega
    rw [units, if_neg hSmall, List.flatMap_cons,
      List.flatMap_singleton, List.append_assoc]
    unfold unescape
    rw [readUnit_escapeUnit (by omega)]
    simp only [if_pos (And.intro (Nat.le_add_right _ _) hHigh)]
    rw [readUnit_escapeUnit (by omega)]
    simp only [Option.map_some, hWhole, Char.ofNat_toNat]

/- A character with a letter of its own. -/
theorem escapeChar_of_mem
    {letter c : Char}
    (hLetter : (letter, c) ∈ mnemonics) :
    escapeChar c = ['\\', letter] := by
  simp only [mnemonics, List.mem_cons, Prod.mk.injEq,
    List.not_mem_nil, or_false] at hLetter
  rcases hLetter with h | h | h | h | h | h | h
  all_goals
    rcases h with ⟨rfl, rfl⟩
    rfl

/- A character without a letter of its own. -/
theorem escapeChar_of_not_mem
    {c : Char}
    (hNone : ∀ entry ∈ mnemonics, c ≠ entry.2) :
    c ≠ '\\' ∧
      (escapeChar c = [c] ∨
        escapeChar c = (units c).flatMap escapeUnit) := by
  refine ⟨hNone ('\\', '\\') (by decide), ?_⟩
  simp only [mnemonics, List.forall_mem_cons] at hNone
  by_cases hPrinted : ' ' ≤ c ∧ c ≤ '~'
  · left
    simp [escapeChar, hNone, hPrinted]
  · right
    simp [escapeChar, hNone, hPrinted]

/- A character is read back from the way it is written. -/
theorem unescape_escapeChar
    (c : Char)
    (rest : List Char) :
    unescape (escapeChar c ++ rest) = some (c, rest) := by
  by_cases hSome : ∃ letter, (letter, c) ∈ mnemonics
  · rcases hSome with ⟨letter, hLetter⟩
    rw [escapeChar_of_mem hLetter]
    exact unescape_letter hLetter rest
  · have hNone : ∀ entry ∈ mnemonics, c ≠ entry.2 := by
      rintro ⟨letter, d⟩ hEntry rfl
      exact hSome ⟨letter, hEntry⟩
    rcases escapeChar_of_not_mem hNone with
      ⟨hPlain, hEscape | hEscape⟩
    · rw [hEscape]
      exact unescape_self hPlain rest
    · rw [hEscape]
      exact unescape_units c rest

/- An escape does not start with a quote. -/
theorem escapeChar_append_ne
    (c : Char)
    (rest more : List Char) :
    escapeChar c ++ rest ≠ '"' :: more := by
  intro hText
  have hRead := unescape_escapeChar c rest
  rw [hText, unescape_self (by decide)] at hRead
  cases hRead
  cases hText

/- The inside of a quoted text determines the text. -/
theorem escaped_append_inj
    {left right rest more : List Char}
    (hText :
      left.flatMap escapeChar ++ '"' :: rest =
        right.flatMap escapeChar ++ '"' :: more) :
    left = right ∧ rest = more := by
  induction left generalizing right with
  | nil =>
      cases right with
      | nil => exact ⟨rfl, (List.cons.inj hText).2⟩
      | cons d right =>
          rw [List.flatMap_cons, List.append_assoc] at hText
          exact absurd hText.symm (escapeChar_append_ne d _ _)
  | cons c left ih =>
      cases right with
      | nil =>
          rw [List.flatMap_cons, List.append_assoc] at hText
          exact absurd hText (escapeChar_append_ne c _ _)
      | cons d right =>
          rw [List.flatMap_cons, List.flatMap_cons,
            List.append_assoc, List.append_assoc] at hText
          have hRead := congrArg unescape hText
          rw [unescape_escapeChar, unescape_escapeChar] at hRead
          rcases Prod.mk.inj (Option.some.inj hRead) with
            ⟨rfl, hLater⟩
          rcases ih hLater with ⟨rfl, rfl⟩
          exact ⟨rfl, rfl⟩

/- A quoted text determines the text and where it ends. -/
theorem quote_append_inj
    {left right : String}
    {rest more : List Char}
    (hText :
      (quote left).toList ++ rest =
        (quote right).toList ++ more) :
    left = right ∧ rest = more := by
  simp only [quote, String.toList_ofList, List.cons_append,
    List.append_assoc, List.nil_append, List.cons.injEq,
    true_and] at hText
  rcases escaped_append_inj hText with ⟨hLists, hRest⟩
  exact ⟨String.toList_inj.mp hLists, hRest⟩

------------------------------------------------------------
-- What Stands In Front Of A Value
------------------------------------------------------------

/- The character that only values of this kind start with. -/
def mark : Json → Option Char
  | str _ => some '"'
  | arr _ => some '['
  | obj _ => some '\x7b'
  | _ => none

/- The mark that a character is. -/
def markOf
    (c : Char) :
    Option Char :=
  if ['"', '[', '\x7b'].contains c then some c else none

/- Brackets stand in front. -/
theorem exists_enclose
    (style : Style)
    (depth : Nat)
    (opening closing : String)
    (items : List String) :
    ∃ rest,
      (enclose style depth opening closing items).toList =
        opening.toList ++ rest := by
  unfold enclose
  split
  · exact ⟨_, String.toList_append⟩
  · rw [String.append_assoc]
    exact ⟨_, String.toList_append⟩
  · rw [String.append_assoc, String.append_assoc,
      String.append_assoc]
    exact ⟨_, String.toList_append⟩

/- A digit or a sign is no mark and no stop. -/
theorem quiet_of_digit
    {c : Char}
    (hDigit : c.isDigit ∨ c = '-') :
    isStop c = false ∧ markOf c = none := by
  have hOther :
      ∀ d ∈ [',', ']', '\x7d', '\n', '"', '[', '\x7b'], c ≠ d := by
    rintro d hMember rfl
    revert hMember hDigit
    simp only [List.mem_cons, List.not_mem_nil, or_false]
    rintro hDigit (rfl | rfl | rfl | rfl | rfl | rfl | rfl)
    all_goals exact absurd hDigit (by decide)
  simp only [List.forall_mem_cons] at hOther
  simp [isStop, markOf, hOther]

theorem quiet_of_all
    {word : String}
    (hWord :
      word.toList.all fun c =>
        !isStop c && (markOf c).isNone) :
    ∀ c ∈ word.toList, isStop c = false ∧ markOf c = none := by
  intro c hMember
  simpa using List.all_eq_true.mp hWord c hMember

/- A value without a mark has no mark and no stop in it. -/
theorem quiet_of_mark_eq_none
    (style : Style)
    (depth : Nat)
    {value : Json}
    (hMark : value.mark = none) :
    (writeAt style depth value).toList ≠ [] ∧
      ∀ c ∈ (writeAt style depth value).toList,
        isStop c = false ∧ markOf c = none := by
  cases value with
  | null =>
      rw [writeAt]
      exact ⟨by decide, quiet_of_all (by decide)⟩
  | bool value =>
      cases value with
      | false =>
          rw [writeAt]
          exact ⟨by decide, quiet_of_all (by decide)⟩
      | true =>
          rw [writeAt]
          exact ⟨by decide, quiet_of_all (by decide)⟩
  | int value =>
      rw [writeAt]
      refine ⟨?_, ?_⟩
      · rw [toList_toString_int]
        split
        · exact List.cons_ne_nil _ _
        · exact Nat.toDigits_ne_nil
      · intro c hMember
        exact quiet_of_digit (isDigit_or_sign_of_mem hMember)
  | str text => cases hMark
  | arr items => cases hMark
  | obj members => cases hMark

/- A value starts with the mark of its kind, or with none. -/
theorem exists_mark
    (style : Style)
    (depth : Nat)
    (value : Json) :
    ∃ c rest,
      (writeAt style depth value).toList = c :: rest ∧
        markOf c = value.mark := by
  cases hMark : value.mark with
  | none =>
      rcases quiet_of_mark_eq_none style depth hMark with
        ⟨hSome, hQuiet⟩
      rcases List.exists_cons_of_ne_nil hSome with
        ⟨c, rest, hText⟩
      exact ⟨c, rest, hText, (hQuiet c (by simp [hText])).2⟩
  | some c =>
      cases value with
      | str text =>
          cases hMark
          exact ⟨'"', text.toList.flatMap escapeChar ++ ['"'],
            String.toList_ofList, rfl⟩
      | arr items =>
          cases hMark
          rcases exists_enclose style depth "[" "]"
              (writeItems style (depth + 1) items) with
            ⟨rest, hText⟩
          exact ⟨'[', rest, hText, rfl⟩
      | obj members =>
          cases hMark
          rcases exists_enclose style depth "\x7b" "\x7d"
              (writeMembers style (depth + 1) members) with
            ⟨rest, hText⟩
          exact ⟨'\x7b', rest, hText, rfl⟩
      | _ => cases hMark

/- A number is not written as a word with other characters. -/
theorem toString_int_ne
    {value : Int}
    {word : String}
    {c : Char}
    (hMember : c ∈ word.toList)
    (hOther : ¬ (c.isDigit ∨ c = '-')) :
    toString value ≠ word := by
  rintro rfl
  exact hOther (isDigit_or_sign_of_mem hMember)

theorem toString_int_ne_null
    (value : Int) :
    toString value ≠ "null" :=
  toString_int_ne (c := 'n') (by decide) (by decide)

theorem toString_int_ne_bool
    (style : Style)
    (depth : Nat)
    (value : Int)
    (flag : Bool) :
    toString value ≠ writeAt style depth (bool flag) := by
  cases flag with
  | false =>
      rw [writeAt]
      exact toString_int_ne (c := 'f') (by decide) (by decide)
  | true =>
      rw [writeAt]
      exact toString_int_ne (c := 't') (by decide) (by decide)

theorem writeAt_bool_ne_null
    (style : Style)
    (depth : Nat)
    (flag : Bool) :
    writeAt style depth (bool flag) ≠ "null" := by
  cases flag <;> rw [writeAt] <;> decide

/- Values without marks are determined by their texts. -/
theorem eq_of_mark_eq_none
    {style : Style}
    {depth : Nat}
    {left right : Json}
    (hLeft : left.mark = none)
    (hRight : right.mark = none)
    (hText :
      writeAt style depth left = writeAt style depth right) :
    left = right := by
  have hNull : writeAt style depth null = "null" := by
    rw [writeAt]
  have hInt :
      ∀ value, writeAt style depth (int value) =
        toString value := by
    intro value
    rw [writeAt]
  cases left with
  | null =>
      rw [hNull] at hText
      cases right with
      | null => rfl
      | bool flag =>
          exact absurd hText.symm
            (writeAt_bool_ne_null style depth flag)
      | int value =>
          rw [hInt] at hText
          exact absurd hText.symm (toString_int_ne_null value)
      | _ => cases hRight
  | bool flag =>
      cases right with
      | null =>
          rw [hNull] at hText
          exact absurd hText
            (writeAt_bool_ne_null style depth flag)
      | bool other =>
          cases flag <;> cases other <;>
            simp [writeAt] at hText ⊢
      | int value =>
          rw [hInt] at hText
          exact absurd hText.symm
            (toString_int_ne_bool style depth value flag)
      | _ => cases hRight
  | int value =>
      rw [hInt] at hText
      cases right with
      | null =>
          rw [hNull] at hText
          exact absurd hText (toString_int_ne_null value)
      | bool flag =>
          exact absurd hText
            (toString_int_ne_bool style depth value flag)
      | int other =>
          rw [hInt] at hText
          rw [toString_int_injective hText]
      | _ => cases hRight
  | _ => cases hLeft

------------------------------------------------------------
-- Items One Behind The Other
------------------------------------------------------------

/-
  A text for each value that determines the value and where it
  ends, if what follows can stand behind a value.
-/
def Separates
    {α : Type}
    (write : α → List Char)
    (value : α) : Prop :=
  ∀ (other : α) {rest more : List Char},
    Stops rest → Stops more →
      write value ++ rest = write other ++ more →
        value = other ∧ rest = more

/- What stands between a comma and the next item. -/
def afterComma
    (depth : Nat) :
    Style → List Char
  | .compact => [' ']
  | .spread => (lineBreak (depth + 1)).toList

/- What stands between a bracket and the first item. -/
def lead
    (depth : Nat) :
    Style → List Char
  | .compact => []
  | .spread => (lineBreak (depth + 1)).toList

/- What stands between the last item and a bracket. -/
def trail
    (depth : Nat) :
    Style → List Char
  | .compact => []
  | .spread => (lineBreak depth).toList

/- Texts with a separator between them. -/
theorem toList_intercalate_cons
    (separator first : String)
    (others : List String) :
    (separator.intercalate (first :: others)).toList =
      first.toList
        ++ others.flatMap fun text =>
          separator.toList ++ text.toList := by
  induction others generalizing first with
  | nil => simp
  | cons next others ih =>
      rw [String.intercalate_cons_cons, String.toList_append,
        String.toList_append, ih next]
      simp

/- Items between brackets, if there are any. -/
theorem toList_enclose_cons
    (style : Style)
    (depth : Nat)
    (opening closing first : String)
    (others : List String) :
    (enclose style depth opening closing
        (first :: others)).toList =
      opening.toList
        ++ (lead depth style
          ++ (first.toList
            ++ ((others.flatMap fun text =>
                ',' :: afterComma depth style ++ text.toList)
              ++ (trail depth style ++ closing.toList)))) := by
  cases style with
  | compact =>
      simp only [enclose, String.toList_append,
        toList_intercalate_cons, lead, afterComma, trail]
      simp
  | spread =>
      simp only [enclose, String.toList_append,
        toList_intercalate_cons, lead, afterComma, trail]
      simp

/- The text ends the items: no comma can stand there. -/
def Ends
    (rest : List Char) : Prop :=
  ∃ c later, rest = c :: later ∧ isStop c ∧ c ≠ ','

/- A comma or an end can stand behind a value. -/
theorem stops_items
    {α : Type}
    (write : α → List Char)
    (items : List α)
    {rest : List Char}
    (hRest : Ends rest) :
    Stops ((items.flatMap (',' :: write ·)) ++ rest) := by
  rcases hRest with ⟨c, later, rfl, hStop, _⟩
  intro d hHead
  cases items with
  | nil =>
      cases hHead
      exact hStop
  | cons item items =>
      cases hHead
      rfl

/- Items behind a comma each, and what ends them. -/
theorem items_append_inj
    {α : Type}
    {write : α → List Char}
    {left right : List α}
    (hEach : ∀ item ∈ left, Separates write item)
    {rest more : List Char}
    (hRest : Ends rest)
    (hMore : Ends more)
    (hText :
      left.flatMap (',' :: write ·) ++ rest =
        right.flatMap (',' :: write ·) ++ more) :
    left = right ∧ rest = more := by
  induction left generalizing right with
  | nil =>
      cases right with
      | nil => exact ⟨rfl, hText⟩
      | cons item right =>
          rcases hRest with ⟨c, later, rfl, _, hComma⟩
          exact absurd (List.cons.inj hText).1 hComma
  | cons item left ih =>
      rw [List.forall_mem_cons] at hEach
      cases right with
      | nil =>
          rcases hMore with ⟨c, later, rfl, _, hComma⟩
          exact absurd (List.cons.inj hText).1.symm hComma
      | cons other right =>
          rw [List.flatMap_cons, List.flatMap_cons,
            List.append_assoc, List.append_assoc] at hText
          rcases hEach.1 other (stops_items write left hRest)
              (stops_items write right hMore)
              (List.cons.inj hText).2 with
            ⟨rfl, hLater⟩
          rcases ih hEach.2 hLater with ⟨rfl, rfl⟩
          exact ⟨rfl, rfl⟩

/- A fixed text in front of each value changes nothing. -/
theorem Separates.after
    {α : Type}
    {write : α → List Char}
    {value : α}
    (hValue : Separates write value)
    (front : List Char) :
    Separates (front ++ write ·) value := by
  intro other rest more hRest hMore hText
  rw [List.append_assoc, List.append_assoc,
    List.append_cancel_left_eq] at hText
  exact hValue other hRest hMore hText

section Enclose

variable
  {style : Style}
  {depth : Nat}
  {opening closing : String}
  {bracket : Char}

/- A closing bracket ends the items in front of it. -/
theorem ends_trail
    (style : Style)
    (depth : Nat)
    (hClosing : closing.toList = [bracket])
    (hStop : isStop bracket)
    (hComma : bracket ≠ ',')
    (rest : List Char) :
    Ends (trail depth style ++ (closing.toList ++ rest)) := by
  rw [hClosing]
  cases style with
  | compact => exact ⟨bracket, rest, rfl, hStop, hComma⟩
  | spread =>
      refine ⟨'\n', List.replicate (2 * depth) ' '
        ++ ([bracket] ++ rest), ?_, rfl, by decide⟩
      simp [trail, lineBreak]

/- Brackets around nothing are not brackets around something. -/
theorem enclose_nil_append_ne
    (hClosing : closing.toList = [bracket])
    (hStop : isStop bracket)
    (hBreak : bracket ≠ '\n')
    {first : String}
    {c : Char}
    {later : List Char}
    (hFirst : first.toList = c :: later)
    (hStart : isStop c = false)
    (others : List String)
    (rest more : List Char) :
    (enclose style depth opening closing []).toList ++ rest ≠
      (enclose style depth opening closing
        (first :: others)).toList ++ more := by
  intro hText
  have hNone :
      (enclose style depth opening closing []).toList =
        opening.toList ++ [bracket] := by
    rw [← hClosing, ← String.toList_append]
    rfl
  rw [hNone, toList_enclose_cons, List.append_assoc,
    List.append_assoc, List.append_cancel_left_eq] at hText
  cases style with
  | compact =>
      rw [hFirst] at hText
      rw [(List.cons.inj hText).1, hStart] at hStop
      cases hStop
  | spread =>
      simp only [lead, lineBreak, String.toList_ofList]
        at hText
      exact hBreak (List.cons.inj hText).1

/- A list in brackets determines its items. -/
theorem enclose_append_inj
    (hClosing : closing.toList = [bracket])
    (hStop : isStop bracket)
    (hOther : bracket ≠ ',' ∧ bracket ≠ '\n')
    {α : Type}
    {write : α → String}
    (hStart :
      ∀ item, ∃ c rest,
        (write item).toList = c :: rest ∧ isStop c = false)
    {left right : List α}
    (hEach :
      ∀ item ∈ left,
        Separates (fun item => (write item).toList) item)
    {rest more : List Char}
    (hText :
      (enclose style depth opening closing
          (left.map write)).toList ++ rest =
        (enclose style depth opening closing
          (right.map write)).toList ++ more) :
    left = right ∧ rest = more := by
  cases left with
  | nil =>
      cases right with
      | nil => exact ⟨rfl, List.append_cancel_left hText⟩
      | cons other right =>
          rcases hStart other with ⟨c, later, hFirst, hQuiet⟩
          exact absurd hText
            (enclose_nil_append_ne hClosing hStop hOther.2
              hFirst hQuiet _ _ _)
  | cons item left =>
      cases right with
      | nil =>
          rcases hStart item with ⟨c, later, hFirst, hQuiet⟩
          exact absurd hText.symm
            (enclose_nil_append_ne hClosing hStop hOther.2
              hFirst hQuiet _ _ _)
      | cons other right =>
          rw [List.forall_mem_cons] at hEach
          have hEnds :=
            ends_trail style depth hClosing hStop hOther.1
          rw [List.map_cons, List.map_cons, toList_enclose_cons,
            toList_enclose_cons] at hText
          simp only [List.append_assoc, List.flatMap_map,
            List.append_cancel_left_eq, List.cons_append]
            at hText
          rcases hEach.1 other (stops_items _ left (hEnds rest))
              (stops_items _ right (hEnds more)) hText with
            ⟨rfl, hLater⟩
          rcases items_append_inj
              (fun item hItem => (hEach.2 item hItem).after _)
              (hEnds rest) (hEnds more) hLater with
            ⟨rfl, hRest⟩
          exact ⟨rfl, by simpa using hRest⟩

end Enclose

------------------------------------------------------------
-- Whole Values
------------------------------------------------------------

/- What goes over from the parts to the whole holds always. -/
theorem induction
    {motive : Json → Prop}
    (atom : ∀ value, value.mark = none → motive value)
    (str : ∀ text, motive (str text))
    (arr :
      ∀ items : List Json,
        (∀ item ∈ items, motive item) → motive (arr items))
    (obj :
      ∀ members : List (String × Json),
        (∀ member ∈ members, motive member.2) →
          motive (obj members))
    (value : Json) :
    motive value :=
  match value with
  | .null => atom .null rfl
  | .bool flag => atom (.bool flag) rfl
  | .int number => atom (.int number) rfl
  | .str text => str text
  | .arr items =>
      arr items fun item _ => induction atom str arr obj item
  | .obj members =>
      obj members fun member _ =>
        induction atom str arr obj member.2
termination_by sizeOf value
decreasing_by
  · have hSize := List.sizeOf_lt_of_mem ‹item ∈ items›
    simp only [Json.arr.sizeOf_spec]
    omega
  · have hSize := List.sizeOf_lt_of_mem ‹member ∈ members›
    have hPair : sizeOf member.2 < sizeOf member := by
      rcases member with ⟨key, value⟩
      simp only [Prod.mk.sizeOf_spec]
      omega
    simp only [Json.obj.sizeOf_spec]
    omega

/- The texts of items are the texts of each. -/
theorem writeItems_eq
    (style : Style)
    (depth : Nat)
    (items : List Json) :
    writeItems style depth items =
      items.map (writeAt style depth) := by
  induction items with
  | nil => rfl
  | cons item items ih => rw [writeItems, ih, List.map_cons]

/- The text of a member. -/
def writeMember
    (style : Style)
    (depth : Nat)
    (member : String × Json) :
    String :=
  quote member.1 ++ ": " ++ writeAt style depth member.2

/- The texts of members are the texts of each. -/
theorem writeMembers_eq
    (style : Style)
    (depth : Nat)
    (members : List (String × Json)) :
    writeMembers style depth members =
      members.map (writeMember style depth) := by
  induction members with
  | nil => rfl
  | cons member members ih =>
      rw [writeMembers, ih, List.map_cons]
      rfl

/- No value starts with a stop. -/
theorem exists_start
    (style : Style)
    (depth : Nat)
    (value : Json) :
    ∃ c rest,
      (writeAt style depth value).toList = c :: rest ∧
        isStop c = false := by
  rcases exists_mark style depth value with
    ⟨c, rest, hText, hMark⟩
  refine ⟨c, rest, hText, ?_⟩
  cases hNone : value.mark with
  | none =>
      have hQuiet := quiet_of_mark_eq_none style depth hNone
      exact (hQuiet.2 c (by simp [hText])).1
  | some d =>
      rw [hNone, markOf] at hMark
      split at hMark
      · rename_i hBracket
        simp only [List.contains_eq_mem, List.mem_cons,
          List.not_mem_nil, or_false, decide_eq_true_eq]
          at hBracket
        rcases hBracket with rfl | rfl | rfl
        all_goals rfl
      · cases hMark

/- A member is determined by its text if its value is. -/
theorem separates_member
    {style : Style}
    {depth : Nat}
    {member : String × Json}
    (hValue :
      Separates (fun value => (writeAt style depth value).toList)
        member.2) :
    Separates
      (fun member => (writeMember style depth member).toList)
      member := by
  rintro ⟨key, value⟩ rest more hRest hMore hText
  simp only [writeMember, String.toList_append,
    List.append_assoc] at hText
  rcases quote_append_inj hText with ⟨hKey, hLater⟩
  rw [List.append_cancel_left_eq] at hLater
  rcases hValue value hRest hMore hLater with ⟨rfl, hSame⟩
  exact ⟨Prod.ext hKey rfl, hSame⟩

/- Values with the same text in front are of one kind. -/
theorem mark_eq_of_append_eq
    {style : Style}
    {depth : Nat}
    {left right : Json}
    {rest more : List Char}
    (hText :
      (writeAt style depth left).toList ++ rest =
        (writeAt style depth right).toList ++ more) :
    left.mark = right.mark := by
  rcases exists_mark style depth left with
    ⟨c, later, hLeft, hMark⟩
  rcases exists_mark style depth right with
    ⟨d, also, hRight, hOther⟩
  rw [hLeft, hRight] at hText
  rw [← hMark, ← hOther, (List.cons.inj hText).1]

/- A value is determined by its text, wherever it stands. -/
theorem separates_writeAt
    (style : Style)
    (depth : Nat)
    (value : Json) :
    Separates (fun value => (writeAt style depth value).toList)
      value := by
  induction value using induction generalizing depth with
  | atom value hMark =>
      intro other rest more hRest hMore hText
      have hMark' : other.mark = none := by
        rw [← mark_eq_of_append_eq hText, hMark]
      have hValue := quiet_of_mark_eq_none style depth hMark
      have hOther := quiet_of_mark_eq_none style depth hMark'
      rcases append_inj_of_stops
          (fun c hIn => (hValue.2 c hIn).1)
          (fun c hIn => (hOther.2 c hIn).1)
          hRest hMore hText with
        ⟨hTexts, hSame⟩
      exact ⟨eq_of_mark_eq_none hMark hMark'
        (String.toList_inj.mp hTexts), hSame⟩
  | str text =>
      intro other rest more _ _ hText
      have hMark := mark_eq_of_append_eq hText
      cases other with
      | str text' =>
          rcases quote_append_inj hText with ⟨rfl, hSame⟩
          exact ⟨rfl, hSame⟩
      | _ => cases hMark
  | arr items ih =>
      intro other rest more _ _ hText
      have hMark := mark_eq_of_append_eq hText
      cases other with
      | arr items' =>
          simp only [writeAt, writeItems_eq] at hText
          rcases enclose_append_inj rfl rfl (by decide)
              (exists_start style (depth + 1))
              (fun item hItem => ih item hItem (depth + 1))
              hText with
            ⟨rfl, hSame⟩
          exact ⟨rfl, hSame⟩
      | _ => cases hMark
  | obj members ih =>
      intro other rest more _ _ hText
      have hMark := mark_eq_of_append_eq hText
      cases other with
      | obj members' =>
          have hStart :
              ∀ member, ∃ c rest,
                (writeMember style (depth + 1) member).toList =
                    c :: rest ∧
                  isStop c = false := by
            intro member
            refine ⟨'"', member.1.toList.flatMap escapeChar
              ++ ('"' :: (": "
                ++ writeAt style (depth + 1) member.2).toList),
              ?_, rfl⟩
            simp [writeMember, quote]
          simp only [writeAt, writeMembers_eq] at hText
          rcases enclose_append_inj rfl rfl (by decide) hStart
              (fun member hMember =>
                separates_member
                  (ih member hMember (depth + 1)))
              hText with
            ⟨rfl, hSame⟩
          exact ⟨rfl, hSame⟩
      | _ => cases hMark

/- The text of a value determines it. -/
theorem write_injective
    (style : Style) :
    Function.Injective (write style) := by
  intro left right hText
  have hStops : Stops [] := by
    intro c hHead
    cases hHead
  have hLists := congrArg (fun text => text.toList ++ []) hText
  exact (separates_writeAt style 0 left right hStops hStops
    hLists).1

end Json

end TraitMarkup
