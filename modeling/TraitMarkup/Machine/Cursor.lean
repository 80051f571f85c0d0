import TraitMarkup.Token.Basic

/-
  Cursors: a place in a token stream.

  A cursor holds the tokens before it, nearest first, and the
  tokens after it in order.

  Key definitions include:
    * `Cursor`
    * `Cursor.ofTokens`, `Cursor.tokens`
    * `Cursor.position`, `Cursor.atEnd`
    * `Cursor.peek?`, `Cursor.last?`
    * `Cursor.advance`
-/

namespace TraitMarkup

------------------------------------------------------------
-- Cursors
------------------------------------------------------------

/- A place in a token stream. -/
structure Cursor where
  before : List Token
  rest : List Token
deriving DecidableEq, Repr

namespace Cursor

/- The place before the first token. -/
def ofTokens
    (tokens : List Token) :
    Cursor :=
  ⟨[], tokens⟩

/- The whole stream. -/
def tokens
    (cursor : Cursor) :
    List Token :=
  cursor.before.reverse ++ cursor.rest

/- The number of tokens before the place. -/
def position
    (cursor : Cursor) :
    Nat :=
  cursor.before.length

/- No token is left. -/
def atEnd
    (cursor : Cursor) :
    Bool :=
  cursor.rest.isEmpty

/- The next token. -/
def peek?
    (cursor : Cursor) :
    Option Token :=
  cursor.rest.head?

/- The token that was read last. -/
def last?
    (cursor : Cursor) :
    Option Token :=
  cursor.before.head?

/- The place after `code`, which is read next, and `rest`. -/
def past
    (cursor : Cursor)
    (code rest : List Token) :
    Cursor :=
  ⟨code.reverse ++ cursor.before, rest⟩

/- The place `n` tokens further, or the end. -/
def advance
    (cursor : Cursor)
    (n : Nat) :
    Cursor :=
  cursor.past (cursor.rest.take n) (cursor.rest.drop n)

end Cursor

end TraitMarkup
