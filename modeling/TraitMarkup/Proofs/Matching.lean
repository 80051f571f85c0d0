import Mathlib.Data.List.Infix
import TraitMarkup.Token.Matcher

/-
  What a match takes, and what it depends on.

  A matcher takes the front of a text. Most matchers look at
  what they take and at nothing else; the others look at the
  next few characters to see where to stop.

  A text is loosened when it is cut short, or when blanks take
  the place of something in it. Nothing that stands apart in
  the old text comes to touch in the new one: what touches
  without a blank in the new text touches in the old one.

  Key definitions include:
    * `Matcher.Takes`, `Matcher.Fits`
    * `Matcher.Bounded`, `Matcher.Positive`
    * `Matcher.Closed`
    * `Loosened`
    * `Matcher.Keeps`, `Matcher.Reflects`

  Main declarations:
    * `Matcher.andThen_takes_iff`
    * `Loosened.split`
    * `Loosened.infix_of_infix`
    * `Matcher.Keeps.andThen`, `Matcher.Keeps.orElse`
    * `Matcher.Closed.reflects`
-/

namespace TraitMarkup

------------------------------------------------------------
-- What A Match Takes
------------------------------------------------------------

/- The text does not start with a character of the class. -/
def StartsOutside
    (belongs : Char → Bool)
    (text : List Char) : Prop :=
  ∀ c ∈ text.head?, belongs c = false

namespace Matcher

/- The matcher takes `front` where `rest` comes after it. -/
def Takes
    (matcher : Matcher)
    (front rest : List Char) : Prop :=
  matcher (front ++ rest) = some front.length

/- The matcher takes something from the text, or nothing. -/
def Fits
    (matcher : Matcher)
    (text : List Char) : Prop :=
  (matcher text).isSome

/- A matcher fits the text that it takes something from. -/
theorem Takes.fits
    {matcher : Matcher}
    {front rest : List Char}
    (hTakes : matcher.Takes front rest) :
    matcher.Fits (front ++ rest) := by
  unfold Fits
  rw [hTakes]
  rfl

/- A matcher that does not fit gives no answer. -/
theorem not_fits_iff
    {matcher : Matcher}
    {text : List Char} :
    ¬ matcher.Fits text ↔ matcher text = none := by
  simp [Fits]

/- One character of the class is taken. -/
theorem one_takes_iff
    {belongs : Char → Bool}
    {front rest : List Char} :
    (one belongs).Takes front rest ↔
      ∃ c, front = [c] ∧ belongs c := by
  unfold Takes
  rcases front with _ | ⟨c, front⟩
  · rcases rest with _ | ⟨c, rest⟩ <;> simp [one]
  · simp [one]
    grind

/- One character of the class fits if the text has it. -/
theorem one_fits_iff
    {belongs : Char → Bool}
    {text : List Char} :
    (one belongs).Fits text ↔
      ∃ c rest, text = c :: rest ∧ belongs c := by
  unfold Fits
  cases text with
  | nil => simp [one]
  | cons c rest => simp [one]

/- A fixed text takes itself. -/
theorem literal_takes_iff
    {word : String}
    {front rest : List Char} :
    (literal word).Takes front rest ↔
      front = word.toList := by
  unfold Takes literal
  constructor
  · intro hTakes
    split at hTakes
    case isTrue hPrefix =>
      have hLength : word.length = front.length := by
        simpa using hTakes
      rw [List.isPrefixOf_iff_prefix] at hPrefix
      have hFront :=
        List.prefix_of_prefix_length_le hPrefix
          (List.prefix_append front rest)
          (by rw [String.length_toList, hLength])
      have hSame : word.toList.length = front.length := by
        rw [String.length_toList, hLength]
      exact (hFront.eq_of_length hSame).symm
    case isFalse => cases hTakes
  · rintro rfl
    simp [String.length_toList]

/- A fixed text fits if the text starts with it. -/
theorem literal_fits_iff
    {word : String}
    {text : List Char} :
    (literal word).Fits text ↔
      ∃ rest, text = word.toList ++ rest := by
  unfold Fits literal
  rw [Option.isSome_ite, List.isPrefixOf_iff_prefix]
  constructor
  · rintro ⟨rest, rfl⟩
    exact ⟨rest, rfl⟩
  · rintro ⟨rest, rfl⟩
    exact ⟨rest, rfl⟩

/- A run takes characters of the class up to another one. -/
theorem run_takes_iff
    {belongs : Char → Bool}
    {front rest : List Char} :
    (run belongs).Takes front rest ↔
      (∀ c ∈ front, belongs c) ∧
        StartsOutside belongs rest := by
  unfold Takes run
  induction front with
  | nil =>
      cases rest with
      | nil => simp [StartsOutside]
      | cons c rest =>
          by_cases hClass : belongs c <;>
            simp [StartsOutside, hClass]
  | cons c front ih =>
      by_cases hClass : belongs c
      · simpa [hClass] using ih
      · simp [hClass]

/- A run always fits. -/
theorem run_fits
    (belongs : Char → Bool)
    (text : List Char) :
    (run belongs).Fits text :=
  rfl

/- Two matchers in a row take what each takes in turn. -/
theorem andThen_takes_iff
    {first second : Matcher}
    {front rest : List Char} :
    (first.andThen second).Takes front rest ↔
      ∃ left right,
        front = left ++ right ∧
          first.Takes left (right ++ rest) ∧
          second.Takes right rest := by
  constructor
  · intro hTakes
    unfold Takes andThen at hTakes
    split at hTakes
    case h_1 => cases hTakes
    case h_2 n hFirst =>
      split at hTakes
      case h_1 => cases hTakes
      case h_2 m hSecond =>
        have hSum : n + m = front.length := by
          simpa using hTakes
        have hLeft : (front.take n).length = n := by
          rw [List.length_take]
          omega
        refine ⟨front.take n, front.drop n,
          (List.take_append_drop n front).symm, ?_, ?_⟩
        · unfold Takes
          rw [← List.append_assoc, List.take_append_drop,
            hFirst, hLeft]
        · unfold Takes
          rw [List.drop_append_of_le_length (by omega)]
            at hSecond
          rw [hSecond, List.length_drop]
          congr 1
          omega
  · rintro ⟨left, right, rfl, hFirst, hSecond⟩
    unfold Takes at hFirst hSecond ⊢
    simp [andThen, hFirst, hSecond]

/- How matchers in a row are grouped makes no difference. -/
theorem andThen_assoc
    (first second third : Matcher) :
    (first.andThen second).andThen third =
      first.andThen (second.andThen third) := by
  funext text
  cases hFirst : first text with
  | none => simp [andThen, hFirst]
  | some n =>
      cases hSecond : second (text.drop n) with
      | none => simp [andThen, hFirst, hSecond]
      | some m =>
          cases hThird : third (text.drop (n + m)) with
          | none =>
              simp [andThen, hFirst, hSecond, hThird]
          | some k =>
              simp [andThen, hFirst, hSecond, hThird,
                Nat.add_assoc]

/- Two matchers fit in a row if the second fits after. -/
theorem andThen_fits_iff
    {first second : Matcher}
    {text : List Char} :
    (first.andThen second).Fits text ↔
      ∃ n, first text = some n ∧
        second.Fits (text.drop n) := by
  unfold Fits andThen
  cases hFirst : first text with
  | none => simp
  | some n =>
      cases hSecond : second (text.drop n) with
      | none => simp [hSecond]
      | some m => simp [hSecond]

/- If the second always fits, it is up to the first. -/
theorem andThen_fits_of_total
    {first second : Matcher}
    (hTotal : ∀ text, second.Fits text)
    {text : List Char} :
    (first.andThen second).Fits text ↔ first.Fits text := by
  rw [andThen_fits_iff]
  unfold Fits at hTotal ⊢
  rw [Option.isSome_iff_exists]
  constructor
  · rintro ⟨n, hSome, _⟩
    exact ⟨n, hSome⟩
  · rintro ⟨n, hSome⟩
    exact ⟨n, hSome, hTotal _⟩

/- After what the first takes, it is up to the second. -/
theorem Takes.andThen_fits_iff
    {first second : Matcher}
    {front rest : List Char}
    (hFirst : first.Takes front rest) :
    (first.andThen second).Fits (front ++ rest) ↔
      second.Fits rest := by
  unfold Takes at hFirst
  rw [Matcher.andThen_fits_iff, hFirst]
  simp

/- One of two matchers takes what the first takes, or else. -/
theorem orElse_takes_iff
    {first second : Matcher}
    {front rest : List Char} :
    (first.orElse second).Takes front rest ↔
      first.Takes front rest ∨
        ¬ first.Fits (front ++ rest) ∧
          second.Takes front rest := by
  unfold Takes Fits orElse
  cases first (front ++ rest) with
  | none => simp
  | some n => simp

/- One of two matchers fits if either does. -/
theorem orElse_fits_iff
    {first second : Matcher}
    {text : List Char} :
    (first.orElse second).Fits text ↔
      first.Fits text ∨ second.Fits text := by
  unfold Fits orElse
  cases first text with
  | none => simp
  | some n => simp

/- An optional matcher always fits. -/
theorem optional_fits
    (matcher : Matcher)
    (text : List Char) :
    (optional matcher).Fits text :=
  orElse_fits_iff.mpr (.inr rfl)

/- An optional matcher takes nothing if it does not fit. -/
theorem optional_takes_iff
    {matcher : Matcher}
    {front rest : List Char} :
    (optional matcher).Takes front rest ↔
      matcher.Takes front rest ∨
        ¬ matcher.Fits rest ∧ front = [] := by
  unfold optional
  rw [orElse_takes_iff]
  have hNothing :
      Takes (fun _ => some 0) front rest ↔
        front = [] := by
    unfold Takes
    simp [eq_comm]
  rw [hNothing]
  constructor
  · rintro (hTakes | ⟨hFits, rfl⟩)
    · exact .inl hTakes
    · exact .inr ⟨hFits, rfl⟩
  · rintro (hTakes | ⟨hFits, rfl⟩)
    · exact .inl hTakes
    · exact .inr ⟨hFits, rfl⟩

/- The first of several fits if one of them does. -/
theorem firstOf_fits_iff
    {matchers : List Matcher}
    {text : List Char} :
    (firstOf matchers).Fits text ↔
      ∃ matcher ∈ matchers, matcher.Fits text := by
  induction matchers with
  | nil => simp [firstOf, Fits]
  | cons matcher matchers ih =>
      unfold firstOf
      rw [orElse_fits_iff, ih]
      simp

/- The first of a single matcher is that matcher. -/
theorem firstOf_singleton
    (matcher : Matcher) :
    firstOf [matcher] = matcher := by
  funext text
  unfold firstOf orElse
  cases matcher text with
  | none => rfl
  | some n => rfl

/- What one of two inherits, the first of several does. -/
theorem firstOf_induction
    {motive : Matcher → Prop}
    (hNone : motive (fun _ => none))
    (hOrElse :
      ∀ {first second},
        motive first → motive second →
          motive (first.orElse second))
    {matchers : List Matcher}
    (hEach : ∀ matcher ∈ matchers, motive matcher) :
    motive (firstOf matchers) := by
  induction matchers with
  | nil => exact hNone
  | cons matcher matchers ih =>
      apply hOrElse
      · exact hEach matcher List.mem_cons_self
      · apply ih
        intro other hMember
        exact hEach other (List.mem_cons_of_mem _ hMember)

end Matcher

------------------------------------------------------------
-- How Much A Match Takes
------------------------------------------------------------

namespace Matcher

/- The matcher takes no more than there is. -/
def Bounded
    (matcher : Matcher) : Prop :=
  ∀ ⦃text n⦄, matcher text = some n → n ≤ text.length

/- The matcher takes at least one character. -/
def Positive
    (matcher : Matcher) : Prop :=
  ∀ ⦃text n⦄, matcher text = some n → 0 < n

/- What a bounded matcher answers is a front that it takes. -/
theorem Bounded.exists_takes
    {matcher : Matcher}
    (hBounded : matcher.Bounded)
    {text : List Char}
    (hFits : matcher.Fits text) :
    ∃ front rest,
      text = front ++ rest ∧ matcher.Takes front rest := by
  rcases Option.isSome_iff_exists.mp hFits with ⟨n, hSome⟩
  refine ⟨text.take n, text.drop n,
    (List.take_append_drop n text).symm, ?_⟩
  unfold Takes
  rw [List.take_append_drop, hSome, List.length_take,
    Nat.min_eq_left (hBounded hSome)]

theorem bounded_one
    (belongs : Char → Bool) :
    (one belongs).Bounded := by
  intro text n hSome
  cases text with
  | nil => cases hSome
  | cons c rest =>
      simp [one] at hSome
      simp [← hSome.2]

theorem bounded_run
    (belongs : Char → Bool) :
    (run belongs).Bounded := by
  intro text n hSome
  simp only [run, Option.some.injEq] at hSome
  rw [← hSome]
  exact (List.takeWhile_prefix belongs).length_le

theorem bounded_literal
    (word : String) :
    (literal word).Bounded := by
  intro text n hSome
  simp only [literal, Option.ite_none_right_eq_some,
    List.isPrefixOf_iff_prefix, Option.some.injEq] at hSome
  have hLength := hSome.1.length_le
  rwa [String.length_toList, hSome.2] at hLength

theorem Bounded.andThen
    {first second : Matcher}
    (hFirst : first.Bounded)
    (hSecond : second.Bounded) :
    (first.andThen second).Bounded := by
  intro text n hSome
  unfold Matcher.andThen at hSome
  split at hSome
  case h_1 => cases hSome
  case h_2 m hTaken =>
    split at hSome
    case h_1 => cases hSome
    case h_2 k hLater =>
      have hLeft := hFirst hTaken
      have hRight := hSecond hLater
      rw [List.length_drop] at hRight
      cases hSome
      omega

theorem Bounded.orElse
    {first second : Matcher}
    (hFirst : first.Bounded)
    (hSecond : second.Bounded) :
    (first.orElse second).Bounded := by
  intro text n hSome
  unfold Matcher.orElse at hSome
  split at hSome
  case h_1 m hTaken =>
    cases hSome
    exact hFirst hTaken
  case h_2 => exact hSecond hSome

theorem Bounded.optional
    {matcher : Matcher}
    (hBounded : matcher.Bounded) :
    (optional matcher).Bounded := by
  apply hBounded.orElse
  intro text n hSome
  cases hSome
  exact Nat.zero_le _

theorem bounded_firstOf
    {matchers : List Matcher}
    (hBounded : ∀ matcher ∈ matchers, matcher.Bounded) :
    (firstOf matchers).Bounded := by
  apply firstOf_induction
  · intro text n hSome
    cases hSome
  · exact fun hFirst hSecond => hFirst.orElse hSecond
  · exact hBounded

theorem positive_one
    (belongs : Char → Bool) :
    (one belongs).Positive := by
  intro text n hSome
  cases text with
  | nil => cases hSome
  | cons c rest =>
      simp [one] at hSome
      omega

theorem positive_literal
    {word : String}
    (hWord : word.length ≠ 0) :
    (literal word).Positive := by
  intro text n hSome
  simp only [literal, Option.ite_none_right_eq_some,
    Option.some.injEq] at hSome
  omega

theorem Positive.andThen
    {first : Matcher}
    (hFirst : first.Positive)
    (second : Matcher) :
    (first.andThen second).Positive := by
  intro text n hSome
  unfold Matcher.andThen at hSome
  split at hSome
  case h_1 => cases hSome
  case h_2 m hTaken =>
    split at hSome
    case h_1 => cases hSome
    case h_2 k hLater =>
      have hLeft := hFirst hTaken
      cases hSome
      omega

end Matcher

------------------------------------------------------------
-- Matches That Look No Further
------------------------------------------------------------

/- No character of the text is a blank. -/
def IsSolid
    (text : List Char) : Prop :=
  ∀ c ∈ text, isBlank c = false

instance
    (text : List Char) :
    Decidable (IsSolid text) :=
  List.decidableBAll (isBlank · = false) text

/- No blank is of the class. -/
def IsSolidClass
    (belongs : Char → Bool) : Prop :=
  ∀ c, belongs c → isBlank c = false

namespace Matcher

/- What the matcher takes does not depend on what follows. -/
def Closed
    (matcher : Matcher) : Prop :=
  ∀ ⦃front rest : List Char⦄ (other : List Char),
    matcher.Takes front rest → matcher.Takes front other

/- The matcher takes no blank. -/
def Solid
    (matcher : Matcher) : Prop :=
  ∀ ⦃front rest : List Char⦄,
    matcher.Takes front rest → IsSolid front

theorem closed_one
    (belongs : Char → Bool) :
    (one belongs).Closed := by
  intro front rest other hTakes
  exact one_takes_iff.mpr (one_takes_iff.mp hTakes)

theorem closed_literal
    (word : String) :
    (literal word).Closed := by
  intro front rest other hTakes
  exact literal_takes_iff.mpr (literal_takes_iff.mp hTakes)

theorem Closed.andThen
    {first second : Matcher}
    (hFirst : first.Closed)
    (hSecond : second.Closed) :
    (first.andThen second).Closed := by
  intro front rest other hTakes
  rcases andThen_takes_iff.mp hTakes with
    ⟨left, right, rfl, hLeft, hRight⟩
  exact andThen_takes_iff.mpr
    ⟨left, right, rfl, hFirst _ hLeft, hSecond _ hRight⟩

/- A run looks no further than a fixed text that ends it. -/
theorem closed_run_literal
    {belongs : Char → Bool}
    {word : String}
    {c : Char}
    {more : List Char}
    (hWord : word.toList = c :: more)
    (hOutside : belongs c = false) :
    ((run belongs).andThen (literal word)).Closed := by
  intro front rest other hTakes
  rcases andThen_takes_iff.mp hTakes with
    ⟨left, right, rfl, hLeft, hRight⟩
  have hEnd := literal_takes_iff.mp hRight
  apply andThen_takes_iff.mpr
  refine ⟨left, right, rfl, ?_, literal_takes_iff.mpr hEnd⟩
  apply run_takes_iff.mpr
  refine ⟨(run_takes_iff.mp hLeft).1, ?_⟩
  rw [hEnd, hWord]
  simpa [StartsOutside] using hOutside

/-
  One of two closed matchers is closed if the first never fits
  where the second takes something.
-/
theorem Closed.orElse
    {first second : Matcher}
    (hFirst : first.Closed)
    (hSecond : second.Closed)
    (hApart :
      ∀ ⦃front rest : List Char⦄,
        second.Takes front rest →
          ¬ first.Fits (front ++ rest)) :
    (first.orElse second).Closed := by
  intro front rest other hTakes
  rcases orElse_takes_iff.mp hTakes with
    hLeft | ⟨_, hRight⟩
  · exact orElse_takes_iff.mpr (.inl (hFirst other hLeft))
  · have hOther := hSecond other hRight
    exact orElse_takes_iff.mpr (.inr ⟨hApart hOther, hOther⟩)

theorem solid_one
    {belongs : Char → Bool}
    (hClass : IsSolidClass belongs) :
    (one belongs).Solid := by
  intro front rest hTakes
  rcases one_takes_iff.mp hTakes with ⟨c, rfl, hBelongs⟩
  intro d hMember
  rw [List.mem_singleton.mp hMember]
  exact hClass c hBelongs

theorem solid_literal
    {word : String}
    (hWord : IsSolid word.toList) :
    (literal word).Solid := by
  intro front rest hTakes
  rw [literal_takes_iff.mp hTakes]
  exact hWord

end Matcher

------------------------------------------------------------
-- Loosened Texts
------------------------------------------------------------

/- The new text is the old one, cut short or with blanks. -/
inductive Loosened : List Char → List Char → Prop
  /- The new text ends here. -/
  | cut
      (old : List Char) :
      Loosened old []
  | same
      (c : Char)
      {old new : List Char}
      (hRest : Loosened old new) :
      Loosened (c :: old) (c :: new)
  /- A blank stands for something, or for nothing. -/
  | blank
      (skipped : List Char)
      {c : Char}
      (hBlank : isBlank c)
      {old new : List Char}
      (hRest : Loosened old new) :
      Loosened (skipped ++ old) (c :: new)

namespace Loosened

/- A text is a loosened form of itself. -/
theorem refl
    (text : List Char) :
    Loosened text text := by
  induction text with
  | nil => exact .cut []
  | cons c text ih => exact .same c ih

/- What stands before a loosened text may stay. -/
theorem append
    (front : List Char)
    {old new : List Char}
    (hRest : Loosened old new) :
    Loosened (front ++ old) (front ++ new) := by
  induction front with
  | nil => exact hRest
  | cons c front ih => exact .same c ih

/- Several blanks may stand for something. -/
theorem blanks
    (skipped : List Char)
    {blanks : List Char}
    (hSome : blanks ≠ [])
    (hBlanks : ∀ c ∈ blanks, isBlank c)
    {old new : List Char}
    (hRest : Loosened old new) :
    Loosened (skipped ++ old) (blanks ++ new) := by
  induction blanks generalizing skipped with
  | nil => contradiction
  | cons c blanks ih =>
      have hFirst := hBlanks c List.mem_cons_self
      by_cases hMore : blanks = []
      · subst hMore
        exact .blank skipped hFirst hRest
      · have hLater :
            Loosened ([] ++ old) (blanks ++ new) :=
          ih [] hMore fun d hMember =>
            hBlanks d (List.mem_cons_of_mem c hMember)
        exact .blank skipped hFirst hLater

/- A character that is no blank stands in the old text too. -/
theorem head
    {c : Char}
    (hSolid : isBlank c = false)
    {old new : List Char}
    (hLoose : Loosened old (c :: new)) :
    ∃ rest, old = c :: rest ∧ Loosened rest new := by
  cases hLoose with
  | same c hRest => exact ⟨_, rfl, hRest⟩
  | blank skipped hBlank hRest =>
      rw [hSolid] at hBlank
      cases hBlank

/- Characters without a blank stand in the old text too. -/
theorem split
    {front : List Char}
    (hSolid : IsSolid front)
    {old new : List Char}
    (hLoose : Loosened old (front ++ new)) :
    ∃ rest, old = front ++ rest ∧ Loosened rest new := by
  induction front generalizing old with
  | nil => exact ⟨old, rfl, hLoose⟩
  | cons c front ih =>
      rcases head (hSolid c List.mem_cons_self) hLoose with
        ⟨rest, rfl, hRest⟩
      rcases ih (fun d hMember =>
          hSolid d (List.mem_cons_of_mem c hMember)) hRest
        with ⟨later, rfl, hLater⟩
      exact ⟨later, rfl, hLater⟩

/- What touches in the new text touches in the old one. -/
theorem infix_of_infix
    {part : List Char}
    (hSolid : IsSolid part)
    {old new : List Char}
    (hLoose : Loosened old new)
    (hPart : part <:+: new) :
    part <:+: old := by
  induction hLoose with
  | cut old =>
      rw [List.infix_nil.mp hPart]
      exact List.nil_infix
  | @same c old new hRest ih =>
      rcases List.infix_cons_iff.mp hPart with
        ⟨later, hEqual⟩ | hLater
      · have hWhole :
            Loosened (c :: old) (part ++ later) := by
          rw [hEqual]
          exact .same c hRest
        rcases split hSolid hWhole with ⟨rest, hOld, _⟩
        rw [hOld]
        exact (List.prefix_append part rest).isInfix
      · exact List.infix_cons (ih hLater)
  | @blank skipped c hBlank old new hRest ih =>
      rcases List.infix_cons_iff.mp hPart with
        ⟨later, hEqual⟩ | hLater
      · cases part with
        | nil => exact List.nil_infix
        | cons d part =>
            cases hEqual
            rw [hSolid c List.mem_cons_self] at hBlank
            cases hBlank
      · exact (ih hLater).trans
          (List.suffix_append skipped old).isInfix

/- A loosened text starts outside what the old one does. -/
theorem startsOutside
    {belongs : Char → Bool}
    (hClass : IsSolidClass belongs)
    {old new : List Char}
    (hLoose : Loosened old new)
    (hOld : StartsOutside belongs old) :
    StartsOutside belongs new := by
  intro c hHead
  by_contra hBelongs
  rw [Bool.not_eq_false] at hBelongs
  rcases new with _ | ⟨d, new⟩
  · cases hHead
  · cases hHead
    rcases head (hClass c hBelongs) hLoose with
      ⟨rest, rfl, _⟩
    rw [hOld c rfl] at hBelongs
    cases hBelongs

end Loosened

------------------------------------------------------------
-- Matches In Loosened Texts
------------------------------------------------------------

namespace Matcher

/- What is taken is taken whatever is loosened behind it. -/
def Keeps
    (matcher : Matcher) : Prop :=
  ∀ ⦃front old new : List Char⦄,
    Loosened old new →
      matcher.Takes front old → matcher.Takes front new

/- The matcher fits no loosened text but for the old one. -/
def Reflects
    (matcher : Matcher) : Prop :=
  ∀ ⦃old new : List Char⦄,
    Loosened old new → matcher.Fits new → matcher.Fits old

theorem Closed.keeps
    {matcher : Matcher}
    (hClosed : matcher.Closed) :
    matcher.Keeps := by
  intro front old new _ hTakes
  exact hClosed new hTakes

theorem keeps_run
    {belongs : Char → Bool}
    (hClass : IsSolidClass belongs) :
    (run belongs).Keeps := by
  intro front old new hLoose hTakes
  rcases run_takes_iff.mp hTakes with ⟨hFront, hOld⟩
  exact run_takes_iff.mpr
    ⟨hFront, hLoose.startsOutside hClass hOld⟩

theorem Keeps.andThen
    {first second : Matcher}
    (hFirst : first.Keeps)
    (hSecond : second.Keeps) :
    (first.andThen second).Keeps := by
  intro front old new hLoose hTakes
  rcases andThen_takes_iff.mp hTakes with
    ⟨left, right, rfl, hLeft, hRight⟩
  exact andThen_takes_iff.mpr
    ⟨left, right, rfl,
      hFirst (hLoose.append right) hLeft,
      hSecond hLoose hRight⟩

theorem Keeps.orElse
    {first second : Matcher}
    (hFirst : first.Keeps)
    (hReflects : first.Reflects)
    (hSecond : second.Keeps) :
    (first.orElse second).Keeps := by
  intro front old new hLoose hTakes
  rcases orElse_takes_iff.mp hTakes with
    hLeft | ⟨hNot, hRight⟩
  · exact orElse_takes_iff.mpr (.inl (hFirst hLoose hLeft))
  · apply orElse_takes_iff.mpr
    refine .inr ⟨?_, hSecond hLoose hRight⟩
    exact fun hFits =>
      hNot (hReflects (hLoose.append front) hFits)

theorem Keeps.optional
    {matcher : Matcher}
    (hKeeps : matcher.Keeps)
    (hReflects : matcher.Reflects) :
    (optional matcher).Keeps := by
  intro front old new hLoose hTakes
  rcases optional_takes_iff.mp hTakes with
    hSome | ⟨hNot, hNothing⟩
  · exact optional_takes_iff.mpr (.inl (hKeeps hLoose hSome))
  · exact optional_takes_iff.mpr
      (.inr ⟨fun hFits => hNot (hReflects hLoose hFits),
        hNothing⟩)

/-
  What a solid, closed matcher takes in the new text, it takes
  in the old one: nothing in it was loosened.
-/
theorem Closed.takes_of_loosened
    {matcher : Matcher}
    (hClosed : matcher.Closed)
    (hSolid : matcher.Solid)
    {front old new : List Char}
    (hLoose : Loosened old (front ++ new))
    (hTakes : matcher.Takes front new) :
    ∃ rest,
      old = front ++ rest ∧
        matcher.Takes front rest ∧ Loosened rest new := by
  rcases hLoose.split (hSolid hTakes) with
    ⟨rest, rfl, hRest⟩
  exact ⟨rest, rfl, hClosed rest hTakes, hRest⟩

theorem Closed.reflects
    {matcher : Matcher}
    (hClosed : matcher.Closed)
    (hSolid : matcher.Solid)
    (hBounded : matcher.Bounded) :
    matcher.Reflects := by
  intro old new hLoose hFits
  rcases hBounded.exists_takes hFits with
    ⟨front, rest, rfl, hTakes⟩
  rcases hClosed.takes_of_loosened hSolid hLoose hTakes with
    ⟨later, rfl, hOld, _⟩
  exact hOld.fits

theorem reflects_one
    {belongs : Char → Bool}
    (hClass : IsSolidClass belongs) :
    (one belongs).Reflects :=
  (closed_one belongs).reflects (solid_one hClass)
    (bounded_one belongs)

theorem reflects_literal
    {word : String}
    (hWord : IsSolid word.toList) :
    (literal word).Reflects :=
  (closed_literal word).reflects (solid_literal hWord)
    (bounded_literal word)

theorem reflects_run
    (belongs : Char → Bool) :
    (run belongs).Reflects := by
  intro old new _ _
  exact run_fits belongs old

/- A solid, closed start leaves it to the second. -/
theorem Reflects.after
    {first second : Matcher}
    (hSecond : second.Reflects)
    (hClosed : first.Closed)
    (hSolid : first.Solid)
    (hBounded : first.Bounded) :
    (first.andThen second).Reflects := by
  intro old new hLoose hFits
  rcases andThen_fits_iff.mp hFits with ⟨n, hSome, hLater⟩
  have hFirst : first.Fits new := by simp [Fits, hSome]
  rcases hBounded.exists_takes hFirst with
    ⟨front, rest, rfl, hTakes⟩
  rcases hClosed.takes_of_loosened hSolid hLoose hTakes with
    ⟨later, rfl, hOld, hRest⟩
  rw [hTakes.andThen_fits_iff] at hFits
  exact hOld.andThen_fits_iff.mpr (hSecond hRest hFits)

theorem Reflects.orElse
    {first second : Matcher}
    (hFirst : first.Reflects)
    (hSecond : second.Reflects) :
    (first.orElse second).Reflects := by
  intro old new hLoose hFits
  rw [orElse_fits_iff] at hFits ⊢
  exact hFits.imp (hFirst hLoose) (hSecond hLoose)

/- A matcher that reflects, then one that always fits. -/
theorem Reflects.beforeTotal
    {first second : Matcher}
    (hFirst : first.Reflects)
    (hTotal : ∀ text, second.Fits text) :
    (first.andThen second).Reflects := by
  intro old new hLoose hFits
  rw [andThen_fits_of_total hTotal] at hFits ⊢
  exact hFirst hLoose hFits

/- A fixed text, then a matcher that reflects. -/
theorem Reflects.afterLiteral
    {second : Matcher}
    (hSecond : second.Reflects)
    {word : String}
    (hWord : IsSolid word.toList) :
    ((literal word).andThen second).Reflects :=
  hSecond.after (closed_literal word) (solid_literal hWord)
    (bounded_literal word)

/- A character of a class, then a matcher that reflects. -/
theorem Reflects.afterOne
    {second : Matcher}
    (hSecond : second.Reflects)
    {belongs : Char → Bool}
    (hClass : IsSolidClass belongs) :
    ((one belongs).andThen second).Reflects :=
  hSecond.after (closed_one belongs) (solid_one hClass)
    (bounded_one belongs)

/- Fixed texts without a blank, the first that fits. -/
theorem keeps_firstOf_literal
    {words : List String}
    (hWords : ∀ word ∈ words, IsSolid word.toList) :
    (firstOf (words.map literal)).Keeps ∧
      (firstOf (words.map literal)).Reflects := by
  apply firstOf_induction
    (motive := fun matcher =>
      matcher.Keeps ∧ matcher.Reflects)
  · constructor
    · intro front old new _ hTakes
      cases hTakes
    · intro old new _ hFits
      cases hFits
  · intro first second hFirst hSecond
    exact ⟨hFirst.1.orElse hFirst.2 hSecond.1,
      hFirst.2.orElse hSecond.2⟩
  · intro matcher hMember
    rcases List.mem_map.mp hMember with ⟨word, hWord, rfl⟩
    exact ⟨(closed_literal word).keeps,
      reflects_literal (hWords word hWord)⟩

end Matcher

end TraitMarkup
