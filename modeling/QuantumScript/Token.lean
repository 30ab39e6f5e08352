import QuantumScript.Span
import QuantumScript.Decimal.Layout

/-!
# Tokens

The words of the language: numbers, texts, names, keywords, symbols and line ends, each with the
region of the source it was read from.
-/

namespace QuantumScript

/-- The words that are not names. -/
inductive Keyword
  | function
  | giveBack
  | cond
  | otherwise
  | whileLoop
  | forLoop
  | inside
  | importing
  | known
  | yes
  | no
  | null
  | and
  | or
  | not
deriving DecidableEq, Repr

namespace Keyword

/-- How a keyword is written. -/
def spelling : Keyword → String
  | function => "function"
  | giveBack => "return"
  | cond => "if"
  | otherwise => "else"
  | whileLoop => "while"
  | forLoop => "for"
  | inside => "in"
  | importing => "import"
  | known => "as"
  | yes => "true"
  | no => "false"
  | null => "null"
  | and => "and"
  | or => "or"
  | not => "not"

/-- Every keyword. -/
def all : List Keyword :=
  [function, giveBack, cond, otherwise, whileLoop, forLoop, inside, importing, known, yes, no, null,
   and, or, not]

/-- The keyword that a word spells, if it is one. -/
def ofWord? (word : String) : Option Keyword :=
  all.find? fun k => k.spelling = word

end Keyword

/-- Operators and punctuation. -/
inductive Symbol
  | power
  | arrow
  | equal
  | lessEqual
  | greaterEqual
  | notEqual
  | plus
  | minus
  | star
  | slash
  | percent
  | assign
  | less
  | greater
  | openParen
  | closeParen
  | openBrace
  | closeBrace
  | openBracket
  | closeBracket
  | comma
  | semicolon
  | colon
  | dot
deriving DecidableEq, Repr

namespace Symbol

/-- The characters of a symbol. -/
def chars : Symbol → List Char
  | power => ['*', '*']
  | arrow => ['-', '>']
  | equal => ['=', '=']
  | lessEqual => ['<', '=']
  | greaterEqual => ['>', '=']
  | notEqual => ['!', '=']
  | plus => ['+']
  | minus => ['-']
  | star => ['*']
  | slash => ['/']
  | percent => ['%']
  | assign => ['=']
  | less => ['<']
  | greater => ['>']
  | openParen => ['(']
  | closeParen => [')']
  | openBrace => ['\x7b']
  | closeBrace => ['\x7d']
  | openBracket => ['[']
  | closeBracket => [']']
  | comma => [',']
  | semicolon => [';']
  | colon => [':']
  | dot => ['.']

/-- Every symbol, the longer before the shorter. -/
def all : List Symbol :=
  [power, arrow, equal, lessEqual, greaterEqual, notEqual, plus, minus, star, slash, percent,
   assign, less, greater, openParen, closeParen, openBrace, closeBrace, openBracket, closeBracket, comma,
   semicolon, colon, dot]

/-- The longest symbol that a text starts with. -/
def leading? (cs : List Char) : Option Symbol :=
  all.find? fun s => s.chars.isPrefixOf cs

end Symbol

/-- What a token is, apart from where it stands. -/
inductive Token.Kind
  | number (value : Float)
  | text (value : String)
  | name (value : String)
  | keyword (word : Keyword)
  | symbol (sign : Symbol)
  | newline
deriving DecidableEq

/-- How a kind of token is named in a message. -/
def Token.Kind.spelling : Token.Kind → String
  | number value => Number.plain value
  | text value => "\"" ++ value ++ "\""
  | name value => value
  | keyword word => word.spelling
  | symbol sign => String.ofList sign.chars
  | newline => "\\n"

/-- A token with the region it covers and the characters it was read from. -/
structure Token where
  /-- What it is. -/
  kind : Token.Kind
  /-- Where it stands. -/
  span : Span
  /-- How it is written there. -/
  lexeme : String
deriving DecidableEq

namespace Token

/-- Whether a token is a given symbol. -/
def isSymbol (t : Token) (sign : Symbol) : Bool :=
  t.kind = .symbol sign

/-- Whether a token is a given keyword. -/
def isKeyword (t : Token) (word : Keyword) : Bool :=
  t.kind = .keyword word

/-- Whether a token is a line end. -/
def isNewline (t : Token) : Bool :=
  t.kind = .newline

/-- Whether a token may stand between two statements: a line end or a semicolon. -/
def isSeparator (t : Token) : Bool :=
  t.isNewline || t.isSymbol .semicolon

end Token

/-- All tokens of a source text, with the empty region at its end. -/
structure Tokens where
  /-- The tokens in order. -/
  items : List Token
  /-- The region after the last of them. -/
  ending : Span
deriving DecidableEq

/-- How the end of a source text is named in a message. -/
def Tokens.endSpelling : String := "EOF"

end QuantumScript
