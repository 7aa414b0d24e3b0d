import LoxLang.Number.Text

/-!
# Tokens

A token is one lexeme of source text with its kind and the line it ends on. Kinds of literals carry
the value that the lexeme stands for. Nothing ties a token's lexeme to its kind: trees and token
lists made by hand may pair them as they like, and every later stage looks only at the part it
needs.
-/

namespace LoxLang

/-- Punctuation and operators. -/
inductive Symbol where
  | leftParen
  | rightParen
  | leftBrace
  | rightBrace
  | comma
  | dot
  | minus
  | plus
  | semicolon
  | slash
  | star
  | bang
  | bangEqual
  | equal
  | equalEqual
  | greater
  | greaterEqual
  | less
  | lessEqual
deriving DecidableEq, Repr

/-- The sixteen reserved words. -/
inductive Keyword where
  | andWord
  | classWord
  | elseWord
  | falseWord
  | forWord
  | funWord
  | ifWord
  | nilWord
  | orWord
  | printWord
  | returnWord
  | superWord
  | thisWord
  | trueWord
  | varWord
  | whileWord
deriving DecidableEq, Repr

/-- What a token is; a literal's kind carries its value. -/
inductive Kind where
  | symbol (mark : Symbol)
  | keyword (word : Keyword)
  | identifier
  | string (contents : String)
  | number (value : Float)
  | eof
deriving DecidableEq, Repr

/-- One lexeme, with the line it ends on counted from one. -/
structure Token where
  kind : Kind
  lexeme : String
  line : Nat
deriving DecidableEq, Repr

namespace Symbol

/-- Every symbol once. -/
def all : List Symbol :=
  [leftParen, rightParen, leftBrace, rightBrace, comma, dot, minus, plus, semicolon, slash, star,
    bang, bangEqual, equal, equalEqual, greater, greaterEqual, less, lessEqual]

/-- The name of a symbol in a token listing. -/
def listingName : Symbol → String
  | leftParen => "LEFT_PAREN"
  | rightParen => "RIGHT_PAREN"
  | leftBrace => "LEFT_BRACE"
  | rightBrace => "RIGHT_BRACE"
  | comma => "COMMA"
  | dot => "DOT"
  | minus => "MINUS"
  | plus => "PLUS"
  | semicolon => "SEMICOLON"
  | slash => "SLASH"
  | star => "STAR"
  | bang => "BANG"
  | bangEqual => "BANG_EQUAL"
  | equal => "EQUAL"
  | equalEqual => "EQUAL_EQUAL"
  | greater => "GREATER"
  | greaterEqual => "GREATER_EQUAL"
  | less => "LESS"
  | lessEqual => "LESS_EQUAL"

end Symbol

namespace Keyword

/-- Every reserved word once. -/
def all : List Keyword :=
  [andWord, classWord, elseWord, falseWord, forWord, funWord, ifWord, nilWord, orWord, printWord,
    returnWord, superWord, thisWord, trueWord, varWord, whileWord]

/-- How a reserved word is written. -/
def spelling : Keyword → String
  | andWord => "and"
  | classWord => "class"
  | elseWord => "else"
  | falseWord => "false"
  | forWord => "for"
  | funWord => "fun"
  | ifWord => "if"
  | nilWord => "nil"
  | orWord => "or"
  | printWord => "print"
  | returnWord => "return"
  | superWord => "super"
  | thisWord => "this"
  | trueWord => "true"
  | varWord => "var"
  | whileWord => "while"

/-- The reserved word with a given spelling. -/
def ofSpelling? (text : String) : Option Keyword :=
  all.find? fun word => word.spelling == text

/-- The name of a reserved word in a token listing: its spelling in capitals. -/
def listingName (word : Keyword) : String :=
  word.spelling.toUpper

end Keyword

namespace Kind

/-- The name of a kind in a token listing, without its value. -/
def listingName : Kind → String
  | symbol mark => mark.listingName
  | keyword word => word.listingName
  | identifier => "IDENTIFIER"
  | string _ => "STRING"
  | number _ => "NUMBER"
  | eof => "EOF"

/-- The value of a literal in a token listing, `null` for every other kind. -/
def literalText : Kind → String
  | string contents => contents
  | number value => NumberText.token value
  | _ => "null"

end Kind

namespace Token

/-- One line of a token listing: kind, lexeme and literal value. -/
def display (token : Token) : String :=
  token.kind.listingName ++ " " ++ token.lexeme ++ " " ++ token.kind.literalText

/-- An identifier that no source token spells out, such as the `this` of a bound method. -/
def implicit (name : String) (line : Nat) : Token :=
  { kind := .identifier, lexeme := name, line }

end Token

end LoxLang
