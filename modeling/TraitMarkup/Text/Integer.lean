/-
  Integers as they are written on a command line.

  Blanks around the number are ignored. A sign may come first,
  and a single `_` may stand between two digits. Digits are the
  decimal digits of any script.

  Key definitions include:
    * `digitZeros`, `digitValue?`
    * `isMargin`
    * `Integer.digits?`
    * `Integer.ofText?`
-/

namespace TraitMarkup

------------------------------------------------------------
-- Digits And Blanks
------------------------------------------------------------

/- The code points of the digit zero in each script. -/
def digitZeros : List Nat :=
  [0x30, 0x660, 0x6F0, 0x7C0, 0x966, 0x9E6, 0xA66, 0xAE6,
    0xB66, 0xBE6, 0xC66, 0xCE6, 0xD66, 0xDE6, 0xE50, 0xED0,
    0xF20, 0x1040, 0x1090, 0x17E0, 0x1810, 0x1946, 0x19D0,
    0x1A80, 0x1A90, 0x1B50, 0x1BB0, 0x1C40, 0x1C50, 0xA620,
    0xA8D0, 0xA900, 0xA9D0, 0xA9F0, 0xAA50, 0xABF0, 0xFF10,
    0x104A0, 0x10D30, 0x11066, 0x110F0, 0x11136, 0x111D0,
    0x112F0, 0x11450, 0x114D0, 0x11650, 0x116C0, 0x11730,
    0x118E0, 0x11950, 0x11C50, 0x11D50, 0x11DA0, 0x16A60,
    0x16AC0, 0x16B50, 0x1D7CE, 0x1D7D8, 0x1D7E2, 0x1D7EC,
    0x1D7F6, 0x1E140, 0x1E2F0, 0x1E950, 0x1FBF0]

/- The value of a decimal digit. -/
def digitValue?
    (c : Char) :
    Option Nat :=
  (digitZeros.find?
    (fun base => base ≤ c.toNat && c.toNat < base + 10)).map
      (c.toNat - ·)

/- A blank that may stand around a number. -/
def isMargin
    (c : Char) :
    Bool :=
  let n := c.toNat
  (0x09 ≤ n && n ≤ 0x0D) || n == 0x20 || n == 0x85 ||
    n == 0xA0 || n == 0x1680 || (0x2000 ≤ n && n ≤ 0x200A) ||
    n == 0x2028 || n == 0x2029 || n == 0x202F ||
    n == 0x205F || n == 0x3000

------------------------------------------------------------
-- Numbers
------------------------------------------------------------

namespace Integer

/- The greatest number of digits that is read. -/
def maxDigits : Nat := 4300

/-
  The digits of a number, most significant first. The first
  character has to be a digit, and so has every one after `_`.
-/
def digits? : List Char → Option (List Nat)
  | [] => none
  | [c] => (digitValue? c).map ([·])
  | c :: d :: rest =>
      match digitValue? c with
      | none => none
      | some value =>
          if d = '_' then
            (digits? rest).map (value :: ·)
          else
            (digits? (d :: rest)).map (value :: ·)

/- The value of digits, most significant first. -/
def ofDigits
    (digits : List Nat) :
    Nat :=
  digits.foldl (fun value digit => 10 * value + digit) 0

/- The number that digits stand for. -/
def natural?
    (text : List Char) :
    Option Nat :=
  match digits? text with
  | none => none
  | some digits =>
      if digits.length ≤ maxDigits then
        some (ofDigits digits)
      else
        none

/- The text without the blanks around it. -/
def trim
    (text : List Char) :
    List Char :=
  ((text.dropWhile isMargin).reverse.dropWhile
    isMargin).reverse

/- The integer that a text stands for. -/
def ofText?
    (text : String) :
    Option Int :=
  match trim text.toList with
  | '-' :: rest => (natural? rest).map (fun n => -(n : Int))
  | '+' :: rest => (natural? rest).map (fun n => (n : Int))
  | rest => (natural? rest).map (fun n => (n : Int))

end Integer

end TraitMarkup
