import FortranInterface.Expr.Folding
import FortranInterface.Intrinsic

/-!
The types of symbols and expressions, and the lengths of characters. What an expression has depends
on its symbols, and a symbol may in turn stand for an expression; each function on expressions
therefore takes the answer for symbols as an argument, and the answer for symbols counts the links
it follows from one symbol to the next.
-/

namespace FortranInterface

namespace Typing

section

variable (symbolType : SymbolId → Option DynamicType)

mutual

def typeOfWith : Expr → Option DynamicType
  | .literal value => some value.type
  | .array elementType _ => some elementType
  | .designator symbol _ _ => symbolType symbol
  | .call (.symbol id) _ => symbolType id
  | .call (.intrinsic name) actuals => Intrinsic.resultType? name (actualTypesWith actuals)
  | .operation op operands => op.resultType? (typesWith operands)
  | .null | .procedure _ => none
  | .boz _ => some .typeless

def typesWith : List Expr → List (Option DynamicType)
  | [] => []
  | value :: values => typeOfWith value :: typesWith values

def actualTypesWith : List (Option Actual) → List (Option DynamicType)
  | [] => []
  | some ⟨_, .expr value, _, _⟩ :: actuals => typeOfWith value :: actualTypesWith actuals
  | _ :: actuals => none :: actualTypesWith actuals

end

end

section

variable (table : Table) (symbolLength : SymbolId → Option Expr)

def charLengthWith : Expr → Option Expr
  | .literal (.character value _) => some (.int value.length)
  | .designator symbol _ _ => symbolLength symbol
  | .call callee _ => callee.symbol?.bind symbolLength
  | .operation .parentheses [operand] => charLengthWith operand
  | .operation .concat [left, right] =>
    ((charLengthWith left).bind table.foldInteger).bind fun leftLength =>
      ((charLengthWith right).bind table.foldInteger).bind fun rightLength =>
        (Word.fitting (leftLength + rightLength)).map Expr.int
  | .array _ (value :: _) => charLengthWith value
  | _ => none

end

end Typing

namespace Table

open Typing

def typeOfDeclared (table : Table) : DeclaredType → Option DynamicType
  | .intrinsic category kind _ => some (.plain category kind)
  | .type symbol => (table.derivedName? symbol).map .type
  | .classOf symbol => (table.derivedName? symbol).map .classOf
  | .typeStar => some .assumed
  | .classStar => some .unlimited

def symbolTypeWithin (table : Table) : Nat → SymbolId → Option DynamicType
  | 0, _ => none
  | links + 1, id =>
    match table.details id with
    | .object object => object.type.bind table.typeOfDeclared
    | .associate selector => typeOfWith (table.symbolTypeWithin links) selector
    | .procEntity entity =>
      match entity.type with
      | some type => table.typeOfDeclared type
      | none => entity.interface.bind (table.symbolTypeWithin links)
    | .subprogram subprogram => subprogram.result.bind (table.symbolTypeWithin links)
    | .binding binding => table.symbolTypeWithin links binding.procedure
    | _ => none

def symbolType (table : Table) (id : SymbolId) : Option DynamicType :=
  table.symbolTypeWithin table.symbols.size id

def typeOf (table : Table) (expr : Expr) : Option DynamicType :=
  typeOfWith table.symbolType expr

def declaredTypeWithin (table : Table) : Nat → SymbolId → Option DeclaredType
  | 0, _ => none
  | links + 1, id =>
    match table.details id with
    | .object object => object.type
    | .procEntity entity =>
      entity.type.or (entity.interface.bind (table.declaredTypeWithin links))
    | .subprogram subprogram => subprogram.result.bind (table.declaredTypeWithin links)
    | _ => none

def declaredType (table : Table) (id : SymbolId) : Option DeclaredType :=
  table.declaredTypeWithin table.symbols.size id

def lengthOfDeclared (table : Table) : DeclaredType → Option Expr
  | .intrinsic .character _ none => some (.int 1)
  | .intrinsic .character _ (some (.explicit length)) => some (table.fold length)
  | _ => none

def symbolLengthWithin (table : Table) : Nat → SymbolId → Option Expr
  | 0, _ => none
  | links + 1, id =>
    match table.details id with
    | .associate selector => charLengthWith table (table.symbolLengthWithin links) selector
    | _ => (table.declaredType id).bind table.lengthOfDeclared

def symbolLength (table : Table) (id : SymbolId) : Option Expr :=
  table.symbolLengthWithin table.symbols.size id

def charLength (table : Table) (expr : Expr) : Option Expr :=
  charLengthWith table table.symbolLength expr

def hasAssumedLength (table : Table) (id : SymbolId) : Bool :=
  match table.declaredType id with
  | some (.intrinsic .character _ (some .assumed)) => true
  | _ => false

end Table

end FortranInterface
