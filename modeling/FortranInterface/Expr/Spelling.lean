import FortranInterface.Symbol.Table

/-!
Expressions and actual arguments in the spelling of the language.
-/

namespace FortranInterface

namespace Literal

def doubled (c : Char) : List Char :=
  if c = '\'' then ['\'', '\''] else [c]

def spelling : Literal → String
  | integer value kind =>
    if kind = 4 then toString value else toString value ++ "_" ++ toString kind
  | real text _ => text
  | complex realPart imaginaryPart _ => "(" ++ realPart ++ "," ++ imaginaryPart ++ ")"
  | character value _ => "'" ++ String.ofList (value.toList.flatMap doubled) ++ "'"
  | logical true _ => ".TRUE."
  | logical false _ => ".FALSE."

end Literal

def Callee.name (callee : Callee) (table : Table) : String :=
  match callee with
  | .symbol id => (table.symbol id).name
  | .intrinsic name => name

def commaSeparated (items : List String) : String :=
  String.intercalate "," items

def withKeyword (keyword : Option String) (value : String) : String :=
  match keyword with
  | some keyword => keyword ++ "=" ++ value
  | none => value

section

variable (table : Table)

mutual

def Expr.spelling : Expr → String
  | .literal value => value.spelling
  | .array _ values => "[" ++ commaSeparated (spellings values) ++ "]"
  | .designator symbol subscripts coindexed =>
    (table.symbol symbol).name ++
      (match subscriptSpellings subscripts with
        | [] => ""
        | items => "(" ++ commaSeparated items ++ ")") ++
      (if coindexed then "[*]" else "")
  | .call callee actuals =>
    callee.name table ++ "(" ++ commaSeparated (actualSpellings actuals) ++ ")"
  | .operation op operands =>
    match op, spellings operands with
    | .parentheses, [operand] => "(" ++ operand ++ ")"
    | .negate, [operand] => "-" ++ operand
    | .not, [operand] => ".NOT." ++ operand
    | op, [left, right] => left ++ op.spelling ++ right
    | op, items => op.spelling ++ "(" ++ commaSeparated items ++ ")"
  | .null => "NULL()"
  | .boz text => text
  | .procedure callee => callee.name table

def spellings : List Expr → List String
  | [] => []
  | value :: values => value.spelling :: spellings values

def boundSpelling : Option Expr → String
  | some value => value.spelling
  | none => ""

def strideSpelling : Option Expr → String
  | some value => ":" ++ value.spelling
  | none => ""

def Subscript.spelling : Subscript → String
  | .index value => value.spelling
  | .triplet lower upper stride =>
    boundSpelling lower ++ ":" ++ boundSpelling upper ++ strideSpelling stride

def subscriptSpellings : List Subscript → List String
  | [] => []
  | subscript :: subscripts => subscript.spelling :: subscriptSpellings subscripts

def ActualValue.spelling : ActualValue → String
  | .expr value => value.spelling
  | .assumedType symbol => (table.symbol symbol).name
  | .label value => "*" ++ toString value

def Actual.spelling : Actual → String
  | ⟨keyword, value, _, _⟩ => withKeyword keyword value.spelling

def actualSpellings : List (Option Actual) → List String
  | [] => []
  | some actual :: actuals => actual.spelling :: actualSpellings actuals
  | none :: actuals => actualSpellings actuals

end

end

end FortranInterface
