import FortranInterface.Procedure.Basic

/-!
The characteristics of the procedures that symbols denote: subprograms, procedure entities, bindings
of types, and specific intrinsic functions.
-/

namespace FortranInterface

def Symbol.flagsFrom {α : Type} [DecidableEq α] [Enumerated α] (symbol : Symbol)
    (pairs : List (Attribute × α)) : Flags α :=
  .ofList ((pairs.filter fun pair => symbol.has pair.1).map Prod.snd)

namespace DataObject

def attributePairs : List (Attribute × DataAttribute) :=
  [(.optional, .optional), (.allocatable, .allocatable), (.asynchronous, .asynchronous),
    (.contiguous, .contiguous), (.value, .value), (.volatile, .volatile), (.pointer, .pointer),
    (.target, .target)]

def coextent? (table : Table) : Bounds → Option Expr
  | .explicit (some lower) upper =>
    some (table.fold (.binary .add (.binary .subtract upper lower) (.int 1)))
  | .explicit none upper => some (table.fold upper)
  | _ => none

end DataObject

namespace DummyProcedure

def attributePairs : List (Attribute × DummyProcedureAttribute) :=
  [(.optional, .optional), (.pointer, .pointer)]

end DummyProcedure

namespace FunctionResult

def attributePairs : List (Attribute × ResultAttribute) :=
  [(.allocatable, .allocatable), (.contiguous, .contiguous), (.pointer, .pointer)]

end FunctionResult

namespace Procedure

def attributePairs : List (Attribute × ProcedureAttribute) :=
  [(.pure, .pure), (.elemental, .elemental), (.bindC, .bindC)]

/-- An elemental procedure is pure unless it is declared impure. -/
def declaredAttributes (symbol : Symbol) : Flags ProcedureAttribute :=
  let declared := symbol.flagsFrom attributePairs
  if declared.has .elemental && !symbol.has .impure then declared.insert .pure else declared

def ofSpecific (specific : Intrinsic.Specific) : Procedure :=
  ⟨some (.ofType specific.resultType),
    specific.dummies.map fun name =>
      .ofObject name { DataObject.ofTypeAndShape (.scalar specific.argumentType) with intent := .in },
    .ofList (if specific.isElemental then [.pure, .elemental] else [.pure])⟩

def markPassed (procedure : Procedure) (name : Option String) : Procedure :=
  match procedure.passIndex? name with
  | some index =>
    { procedure with
      dummies := procedure.dummies.modify index fun dummy => { dummy with pass := true } }
  | none => procedure

end Procedure

namespace Table

def dataObject (table : Table) (id : SymbolId) : Option DataObject :=
  (table.objectTypeAndShape id).map fun typeAndShape =>
    let symbol := table.symbol id
    ⟨typeAndShape,
      match symbol.details with
      | .object object => object.coshape.filterMap (DataObject.coextent? table)
      | _ => [],
      symbol.intent, symbol.flagsFrom DataObject.attributePairs⟩

section

variable (table : Table) (procedure : SymbolId → Option Procedure)

/-- A dummy procedure is never elemental, whatever its interface. -/
def dummyProcedureWith (id : SymbolId) : Option DummyProcedure :=
  (procedure id).map fun found =>
    let symbol := table.symbol id
    ⟨found.without .elemental, symbol.intent, symbol.flagsFrom DummyProcedure.attributePairs⟩

def dummyWith (id : SymbolId) : Option Dummy :=
  let symbol := table.symbol id
  if symbol.details.isObject then (table.dataObject id).map (.ofObject symbol.name)
  else (dummyProcedureWith table procedure id).map (.ofProcedure symbol.name)

def placeWith : Option SymbolId → Option Dummy
  | some id => dummyWith table procedure id
  | none => some .alternateReturn

def functionResultWith (id : SymbolId) : Option FunctionResult :=
  let symbol := table.symbol id
  if symbol.details.isObject then
    (table.objectTypeAndShape id).map fun typeAndShape =>
      ⟨symbol.flagsFrom FunctionResult.attributePairs, .data typeAndShape⟩
  else (procedure id).map .procedurePointer

def subprogramWith (attributes : Flags ProcedureAttribute) (subprogram : SubprogramDetails) :
    Option Procedure :=
  match subprogram.result with
  | some result =>
    (functionResultWith table procedure result).bind fun found =>
      (subprogram.dummies.mapM (placeWith table procedure)).map (⟨some found, ·, attributes⟩)
  | none =>
    (subprogram.dummies.mapM (placeWith table procedure)).map
      (⟨none, ·, attributes.insert .subroutine⟩)

end

/-- The characteristics of a procedure of which no interface is known. A type makes it a function,
unless it has been called as a subroutine. -/
def unknownInterface (table : Table) (symbol : Symbol) (attributes : Flags ProcedureAttribute)
    (entity : ProcEntityDetails) : Option Procedure :=
  let implicit := attributes.insert .implicitInterface
  if symbol.usage.has .subroutine then some ⟨none, [], implicit.insert .subroutine⟩
  else
    match entity.type with
    | some type =>
      (table.typeOfDeclared type).map fun dynamic => ⟨some (.ofType dynamic), [], implicit⟩
    | none => if symbol.usage.has .function then none else some ⟨none, [], implicit⟩

def procedureWithin (table : Table) : Nat → SymbolId → Option Procedure
  | 0, _ => none
  | links + 1, id =>
    let symbol := table.symbol id
    let attributes := Procedure.declaredAttributes symbol
    match symbol.details with
    | .subprogram subprogram =>
      subprogramWith table (table.procedureWithin links) attributes subprogram
    | .procEntity entity =>
      if symbol.has .intrinsic then (Intrinsic.specific? symbol.name).map Procedure.ofSpecific
      else
        match entity.interface with
        | some interface => table.procedureWithin links interface
        | none => table.unknownInterface symbol attributes entity
    | .binding binding =>
      (table.procedureWithin links binding.procedure).map fun found =>
        if symbol.has .noPass then found else found.markPassed binding.passName
    | _ => none

def procedure (table : Table) (id : SymbolId) : Option Procedure :=
  table.procedureWithin table.symbols.size id

def dummy (table : Table) (id : SymbolId) : Option Dummy :=
  dummyWith table table.procedure id

def functionResult (table : Table) (id : SymbolId) : Option FunctionResult :=
  functionResultWith table table.procedure id

def calleeProcedure (table : Table) : Callee → Option Procedure
  | .symbol id => table.procedure id
  | .intrinsic name => (Intrinsic.specific? name).map Procedure.ofSpecific

def returnedProcedure (table : Table) (callee : Callee) : Option Procedure :=
  (table.calleeProcedure callee).bind fun procedure =>
    procedure.result.bind FunctionResult.procedurePointer?

end Table

end FortranInterface
