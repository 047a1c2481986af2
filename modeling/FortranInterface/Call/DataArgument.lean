import FortranInterface.Call.Fault
import FortranInterface.Procedure.Basic

/-!
Checks of an actual argument against a dummy argument that is a data object.
-/

namespace FortranInterface

namespace CallFault

def when (condition : Bool) (fault : CallFault) : List CallFault :=
  if condition then [fault] else []

def ofMismatch? (found : Option Mismatch) : List CallFault :=
  (found.map mismatch).toList

end CallFault

namespace DataObject

/-- The argument takes over the shape of the actual argument, or lets it be set later. -/
def reshapes (object : DataObject) : Bool :=
  object.typeAndShape.has .assumedShape || object.typeAndShape.has .deferredShape ||
    object.has .pointer || object.has .allocatable

def isDefined (object : DataObject) : Bool :=
  object.intent = .out || object.intent = .inOut

end DataObject

def Symbol.canBeTarget (symbol : Symbol) : Bool :=
  symbol.has .target || symbol.isPointer

def Expr.isCoindexed : Expr → Bool
  | .designator _ _ coindexed => coindexed
  | _ => false

section

variable (table : Table) (label : DummyLabel) (dummy : DataObject) (expr : Expr)

open CallFault

/-- A scalar starts a sequence only if it is an element of an array or a character. -/
def scalarForArrayFaults : List CallFault :=
  let type := table.typeOf expr
  let isPolymorphic := (type.map DynamicType.isPolymorphic).getD false
  let isCharacter := type.map DynamicType.category = some .character
  match expr with
  | .designator id (_ :: _) _ =>
    if dummy.reshapes then
      if isPolymorphic then [polymorphicScalar label] else [wholeScalar label]
    else
      let array := table.symbol id
      if array.isPointer then [pointerElement label]
      else
        match array.details with
        | .object object =>
          when (object.isDummy && object.shape.isColonShape) (assumedShapeElement label)
        | _ => []
  | _ =>
    if !dummy.reshapes && isCharacter then []
    else if isPolymorphic then [polymorphicScalar label]
    else [wholeScalar label]

/-- Arrays of explicit shape or assumed size take the elements of an actual array in their order;
only arrays of the same rank are compared extent by extent. -/
def shapeFaults (actual : TypeAndShape) (isElemental : Bool) : List CallFault :=
  let expected := dummy.typeAndShape
  if isElemental || expected.has .assumedRank then []
  else if actual.has .assumedRank then [assumedRankActual label]
  else if expected.rank > 0 && actual.rank == 0 then scalarForArrayFaults table label dummy expr
  else if expected.rank == 0 || dummy.reshapes || actual.rank == expected.rank then
    ofMismatch? (Shape.mismatch? label.text "actual argument" expected.shape actual.shape)
  else []

def isPointerToTarget : Bool :=
  dummy.has .pointer && dummy.intent = .in && !table.isPointer expr &&
    (expr.lastSymbol?.map fun id => (table.symbol id).canBeTarget).getD false

def typeFaults (actual : TypeAndShape) (isElemental : Bool) : List CallFault :=
  let expected := dummy.typeAndShape
  if isPointerToTarget table dummy expr then
    ofMismatch? (expected.mismatch? actual "POINTER" "TARGET" false)
  else
    when (!expected.type.accepts actual.type)
        (incompatibleType actual.typeSpelling label expected.typeSpelling) ++
      shapeFaults table label dummy expr actual isElemental

def wholeFaults (actual : TypeAndShape) : List CallFault :=
  let isAssumedSize := actual.has .assumedSize
  when (expr.isCoindexed && dummy.type.isPolymorphic) (coindexedPolymorphic label) ++
    when (isAssumedSize && dummy.typeAndShape.has .assumedShape)
      (assumedSizeForAssumedShape label) ++
    when (isAssumedSize && dummy.has .value) (assumedSizeForValue label) ++
    when (dummy.has .value && actual.corank > 0) (coarrayForValue label)

/-- Why an argument cannot be defined by a call in a scope. Without a scope nothing is protected. -/
def indefinable? (scope : Option ScopeId) : Option Indefinable :=
  if !table.isVariable expr then some .noVariable
  else
    expr.lastSymbol?.bind fun id =>
      let symbol := table.symbol id
      if symbol.details.isDummy && symbol.has .intentIn then some (.intentIn symbol.name)
      else if (scope.map (table.isProtectedFrom id)).getD false then
        some (.protectedHere symbol.name)
      else none

def definabilityFaults (isElemental : Bool) (scope : Option ScopeId) : List CallFault :=
  let hasVector := table.hasVectorSubscript expr
  (if dummy.isDefined then
      ((indefinable? table expr scope).map (indefinable dummy.intent label)).toList ++
        when (hasVector && !isElemental && !dummy.has .value) (vectorSubscript dummy.intent label)
    else []) ++
    when ((dummy.has .asynchronous || dummy.has .volatile) && hasVector)
      (asynchronousVectorSubscript label)

def contiguityFaults (actual : TypeAndShape) : List CallFault :=
  let takesAny := dummy.typeAndShape.has .assumedShape || dummy.typeAndShape.has .assumedRank ||
    dummy.has .pointer
  when ((dummy.has .asynchronous || dummy.has .volatile) && actual.rank > 0 &&
      !table.isSimplyContiguous expr && (!takesAny || dummy.has .contiguous))
    (notContiguous label)

def isAllocatableWhole : Bool :=
  ((table.wholeSymbol? expr).map Symbol.isAllocatable).getD false

def allocatableFaults (actual : TypeAndShape) : List CallFault :=
  if !dummy.has .allocatable then []
  else if expr.isCoindexed then [coindexedForAllocatable label]
  else if !isAllocatableWhole table expr then [notAllocatable label]
  else
    when (dummy.typeAndShape.corank != actual.corank)
      (corank label dummy.typeAndShape.corank actual.corank)

def pointerFaults : List CallFault :=
  let isPointer := table.isPointer expr
  let isContiguous := ((table.wholeSymbol? expr).map (·.has .contiguous)).getD false
  if !dummy.has .pointer then []
  else
    when (dummy.has .contiguous && isPointer && !isContiguous) (contiguousPointer label) ++
      (if isPointer then []
        else if dummy.intent ≠ .in then [notPointer label]
        else when (!isPointerToTarget table dummy expr) (notPointerOrTarget label))

/-- The type of a pointer or allocatable argument may not change in a call. -/
def declaredTypeFaults (actual : TypeAndShape) : List CallFault :=
  if dummy.has .pointer && table.isPointer expr ||
      dummy.has .allocatable && isAllocatableWhole table expr then
    if dummy.type.isUnlimited != actual.type.isUnlimited then [unlimitedPolymorphism]
    else if dummy.type.isPolymorphic != actual.type.isPolymorphic then [polymorphism]
    else
      when (!dummy.type.isUnlimited && dummy.type.declared ≠ actual.type.declared) declaredTypes
  else []

def targetFaults : List CallFault :=
  let isTarget := (expr.lastSymbol?.map fun id => (table.symbol id).canBeTarget).getD false
  when (dummy.has .target && table.isVariable expr && !isTarget)
    (targetLost label (expr.spelling table))

def lengthFaults (actual : TypeAndShape) : List CallFault :=
  let expected := dummy.typeAndShape
  if expected.type.category = .character ∧ actual.type.category = .character then
    match expected.length.bind table.foldInteger, actual.length.bind table.foldInteger with
    | some expectedLength, some actualLength =>
      let isExact := dummy.has .pointer || dummy.has .allocatable ||
        expected.has .assumedShape || expected.has .assumedRank
      if isExact && actualLength ≠ expectedLength then
        [lengthDiffers actualLength expectedLength]
      else
        when (actualLength < expectedLength && (expected.rank == 0 || actual.rank > 0))
          (lengthShort (table.isVariable expr) actualLength expectedLength)
    | _, _ => []
  else []

/-- A null pointer stands for an absent optional argument. -/
def nullFaults : List CallFault :=
  if dummy.has .pointer then when dummy.isDefined (nullForIntent dummy.intent label)
  else when (!dummy.has .optional) (nullForNonPointer label)

def dataFaults (isElementalCall : Bool) (scope : Option ScopeId) : List CallFault :=
  match expr with
  | .boz _ => when (!dummy.type.isTypeless) (bozActual label)
  | .null => nullFaults label dummy
  | .procedure callee => [procedureForData (callee.name table) label]
  | expr =>
    match table.exprTypeAndShape expr with
    | none => [untypedActual]
    | some actual =>
      let isElemental := dummy.rank == 0 && isElementalCall
      typeFaults table label dummy expr actual isElemental ++
        wholeFaults label dummy expr actual ++
        definabilityFaults table label dummy expr isElemental scope ++
        contiguityFaults table label dummy expr actual ++
        allocatableFaults table label dummy expr actual ++
        pointerFaults table label dummy expr ++
        declaredTypeFaults table dummy expr actual ++
        targetFaults table label dummy expr ++
        lengthFaults table dummy expr actual

end

end FortranInterface
