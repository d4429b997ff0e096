/-!
Tokens: the words of a line. The kinds with a fixed spelling are the operators
and parentheses; numbers and names have a class of spellings, and the end of
the line an empty one.
-/
namespace Reckoner

namespace Token

/-- The kind of a token. -/
inductive Kind where
  | number
  | identifier
  | plus
  | minus
  | star
  | slash
  | percent
  | caret
  | plusPlus
  | minusMinus
  | equal
  | plusEqual
  | minusEqual
  | starEqual
  | slashEqual
  | percentEqual
  | caretEqual
  | leftParen
  | rightParen
  | endOfLine
deriving DecidableEq, Inhabited

/-- The word that stands for the kind in a listing of tokens. -/
def Kind.label : Kind → String
  | .number => "NUMBER"
  | .identifier => "IDENTIFIER"
  | .plus => "PLUS"
  | .minus => "MINUS"
  | .star => "STAR"
  | .slash => "SLASH"
  | .percent => "PERCENT"
  | .caret => "CARET"
  | .plusPlus => "PLUS_PLUS"
  | .minusMinus => "MINUS_MINUS"
  | .equal => "EQUAL"
  | .plusEqual => "PLUS_EQUAL"
  | .minusEqual => "MINUS_EQUAL"
  | .starEqual => "STAR_EQUAL"
  | .slashEqual => "SLASH_EQUAL"
  | .percentEqual => "PERCENT_EQUAL"
  | .caretEqual => "CARET_EQUAL"
  | .leftParen => "LPAREN"
  | .rightParen => "RPAREN"
  | .endOfLine => "EOF"

/-- All kinds. -/
def Kind.all : List Kind :=
  [.number, .identifier, .plus, .minus, .star, .slash, .percent, .caret, .plusPlus,
    .minusMinus, .equal, .plusEqual, .minusEqual, .starEqual, .slashEqual,
    .percentEqual, .caretEqual, .leftParen, .rightParen, .endOfLine]

/-- The kinds with a fixed spelling, longer spellings first. -/
def spellings : List (List Char × Kind) :=
  [(['+', '+'], .plusPlus), (['-', '-'], .minusMinus), (['+', '='], .plusEqual),
    (['-', '='], .minusEqual), (['*', '='], .starEqual), (['/', '='], .slashEqual),
    (['%', '='], .percentEqual), (['^', '='], .caretEqual), (['+'], .plus),
    (['-'], .minus), (['*'], .star), (['/'], .slash), (['%'], .percent),
    (['^'], .caret), (['='], .equal), (['('], .leftParen), ([')'], .rightParen)]

end Token

/-- A word of a line, with the place of its first character. -/
structure Token where
  kind : Token.Kind
  lexeme : String
  position : Int
deriving DecidableEq, Inhabited

end Reckoner
