import Lexis.Text

/-!
# Tokens

A token is a kind, the exact text it was read from (escapes are left as written), and the offset of
its first unit.  Two tokens are equal when all three agree.
-/

namespace Lexis

/-- The six kinds of token.

* `integer` — `0`, `42`, `-7`; `decimal` — `1.5`, `-0.25`.
* `character` — one unit or escape between single quotes; `string` — text between double quotes.
* `operator` — one of six two-unit operators, or any one unit that starts nothing else. -/
inductive TokenKind
  | identifier
  | integer
  | decimal
  | character
  | string
  | operator
deriving DecidableEq, Repr

namespace TokenKind

/-- All kinds, in the order in which they are listed to a user. -/
def all : List TokenKind := [identifier, integer, decimal, character, string, operator]

theorem mem_all (k : TokenKind) : k ∈ all := by
  cases k <;> decide

/-- The written name of a kind. -/
def name : TokenKind → String
  | identifier => "IDENTIFIER"
  | integer => "INTEGER"
  | decimal => "DECIMAL"
  | character => "CHARACTER"
  | string => "STRING"
  | operator => "OPERATOR"

def ofName? (s : String) : Option TokenKind := all.find? fun k => k.name == s

end TokenKind

structure Token where
  kind : TokenKind
  lexeme : Text
  offset : Int
deriving DecidableEq, Repr

end Lexis
