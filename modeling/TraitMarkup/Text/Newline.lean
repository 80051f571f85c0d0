/-
  Line endings.

  A source may end its lines in any of the usual ways. They are
  all read as a newline.

  Key definitions include:
    * `unifyNewlines`
-/

namespace TraitMarkup

/- Every line ending as a newline. -/
def unifyLineEnds : List Char → List Char
  | [] => []
  | [c] => if c = '\r' then ['\n'] else [c]
  | c :: d :: rest =>
      if c = '\r' then
        if d = '\n' then
          '\n' :: unifyLineEnds rest
        else
          '\n' :: unifyLineEnds (d :: rest)
      else
        c :: unifyLineEnds (d :: rest)

/- The text with every line ending as a newline. -/
def unifyNewlines
    (text : String) :
    String :=
  String.ofList (unifyLineEnds text.toList)

end TraitMarkup
