import FortranInterface.Source.Span
import FortranInterface.Text.Quoted
import FortranInterface.Token.Keyword

/-!
The tokens of a source text. A token is a lexeme and the place where it stands; a lexeme that has a
text of its own keeps it, names and operators in lower case and literals as they were written.
-/

namespace FortranInterface

inductive Mark where
  | power
  | concat
  | equal
  | notEqual
  | lessEqual
  | greaterEqual
  | less
  | greater
  | plus
  | minus
  | slash
  | star
  | doubleColon
  | colon
  | dotDot
  | arrow
  | assign
  | leftParen
  | rightParen
  | leftBracket
  | rightBracket
  | comma
  | percent
  | and
  | or
  | not
  | eqv
  | neqv
  deriving DecidableEq

inductive Lexeme where
  | newline
  | name (spelling : String)
  | text (value : String)
  | boz (spelling : String)
  | real (spelling : String)
  | integer (spelling : String)
  | truth (value : Bool)
  | definedOperator (op : String)
  | keyword (word : Keyword)
  | mark (sign : Mark)
  | stray (found : String)
  deriving DecidableEq

structure Token where
  lexeme : Lexeme
  span : Span
  deriving DecidableEq

namespace Mark

def spelling : Mark → String
  | power => "**"
  | concat => "//"
  | equal => "=="
  | notEqual => "/="
  | lessEqual => "<="
  | greaterEqual => ">="
  | less => "<"
  | greater => ">"
  | plus => "+"
  | minus => "-"
  | slash => "/"
  | star => "*"
  | doubleColon => "::"
  | colon => ":"
  | dotDot => ".."
  | arrow => "=>"
  | assign => "="
  | leftParen => "("
  | rightParen => ")"
  | leftBracket => "["
  | rightBracket => "]"
  | comma => ","
  | percent => "%"
  | and => ".and."
  | or => ".or."
  | not => ".not."
  | eqv => ".eqv."
  | neqv => ".neqv."

def label : Mark → String
  | power => "Pow"
  | concat => "Concat"
  | equal => "EqEq"
  | notEqual => "Ne"
  | lessEqual => "Le"
  | greaterEqual => "Ge"
  | less => "Lt"
  | greater => "Gt"
  | plus => "Plus"
  | minus => "Minus"
  | slash => "Slash"
  | star => "Star"
  | doubleColon => "DColon"
  | colon => "Colon"
  | dotDot => "DotDot"
  | arrow => "Arrow"
  | assign => "Eq"
  | leftParen => "LParen"
  | rightParen => "RParen"
  | leftBracket => "LBracket"
  | rightBracket => "RBracket"
  | comma => "Comma"
  | percent => "Percent"
  | and => "And"
  | or => "Or"
  | not => "Not"
  | eqv => "Eqv"
  | neqv => "Neqv"

end Mark

namespace Lexeme

def word? : Lexeme → Option String
  | .name spelling => some spelling
  | .keyword word => some word.spelling
  | _ => none

def description : Lexeme → String
  | .newline => "end of statement"
  | .name spelling => "identifier " ++ spelling
  | .text value => "string literal " ++ Text.quoted value
  | .boz spelling => "BOZ literal " ++ spelling
  | .real spelling => "real literal " ++ spelling
  | .integer spelling => "integer literal " ++ spelling
  | .truth true => ".true."
  | .truth false => ".false."
  | .definedOperator op => "operator ." ++ op ++ "."
  | .keyword word => "keyword " ++ word.spelling
  | .mark sign => "'" ++ sign.spelling ++ "'"
  | .stray found => "error: " ++ found

def label : Lexeme → String × Option String
  | .newline => ("Newline", none)
  | .name spelling => ("Ident", some spelling)
  | .text value => ("Str", some value)
  | .boz spelling => ("Boz", some spelling)
  | .real spelling => ("Float", some spelling)
  | .integer spelling => ("Integer", some spelling)
  | .truth true => ("True", none)
  | .truth false => ("False", none)
  | .definedOperator op => ("DefinedOp", some op)
  | .keyword word => (word.label, none)
  | .mark sign => (sign.label, none)
  | .stray found => ("Error", some found)

end Lexeme

end FortranInterface
