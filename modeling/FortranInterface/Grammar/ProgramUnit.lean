import FortranInterface.Grammar.Declaration
import FortranInterface.Grammar.Statement
import FortranInterface.Token.Scan

/-!
Reading procedures, modules and main programs, and whole programs. A procedure holds others, behind
its `CONTAINS` and in the interface blocks of its specification part.
-/

namespace FortranInterface.Grammar

open FortranInterface.Tree

variable {n : Nat}

/-! Parts of a program unit, over a reader of the procedures inside. -/

section

variable (subprogram : Reader n Subprogram)

inductive InterfaceItem where
  | body (body : Subprogram)
  | named (name : Located)

def interfaceItem : Reader n (Option (List InterfaceItem)) := do
  if (← peek).isNone || (← isAtEnd) then
    return none
  if ← isAtSubprogram then
    return some [.body (← subprogram)]
  let isModuleProcedure :=
    (← isNextKeyword .module) && (← peekSecond) = some (.keyword .procedure)
  if isModuleProcedure || (← isNextKeyword .procedure) then
    skip
    if isModuleProcedure then
      skip
    let _ ← acceptMark .doubleColon
    let listed ← names
    statementEnd
    return some (listed.map .named)
  fail "an interface body or procedure statement"

def interfaceBlock (isAbstract : Bool) : Reader n InterfaceBlock := do
  let start ← start
  expectKeyword .interface
  let kind ← do
    if isAbstract then pure InterfaceKind.abstract
    else if ← isAtStatementEnd then pure .unnamed
    else .generic <$> genericSpec
  statementEnd
  let items ← many (interfaceItem subprogram)
  constructEnd "interface" []
  let bodies := items.filterMap fun
    | .body body => some body
    | .named _ => none
  let listed := items.filterMap fun
    | .body _ => none
    | .named name => some name
  return ⟨kind, bodies, listed, ← spanFrom start⟩

def opensAttributeStatement : Keyword → Bool
  | .optional | .external | .intrinsic | .intent | .pointer | .target | .allocatable | .value
  | .volatile | .asynchronous | .contiguous | .save | .protected | .private | .public => true
  | _ => false

def declaration? (opening : Keyword) (second : Option Lexeme) : Option (Reader n Decl) :=
  if opening.namesType then some entities
  else
    match opening with
    | .use => some use
    | .implicit => some implicit
    | .type =>
      if second = some (.mark .leftParen) then some entities
      else some (.derivedType <$> derivedType)
    | .class => some entities
    | .procedure => some procedure
    | .interface => some (.interface <$> interfaceBlock subprogram false)
    | .abstract =>
      if second = some (.keyword .interface) then
        some do
          skip
          return .interface (← interfaceBlock subprogram true)
      else none
    | keyword => if opensAttributeStatement keyword then some attributeStatement else none

def specificationItem : Reader n (Option (List Decl)) := do
  if (← isAtEnd) || startsAssignment (← get).rest || (← isAtSubprogram) then
    return none
  match ← peek with
  | some (.keyword opening) =>
    match declaration? subprogram opening (← peekSecond) with
    | some declaration => return some [← declaration]
    | none => return none
  | _ => return none

def specification : Reader n (List Decl) :=
  many (specificationItem subprogram)

def containedItem : Reader n (Option (List Subprogram)) := do
  if (← peek).isNone || (← isAtEnd) then
    return none
  if ← isAtSubprogram then
    return some [← subprogram]
  fail "a subroutine or function"

def containedPart : Reader n (List Subprogram) := do
  skipNewlines
  unless ← acceptKeyword .contains do
    return []
  statementEnd
  many (containedItem subprogram)

/-! Procedures. -/

def dummyName : Reader n DummyName := do
  if ← isNextMark .star then
    let span ← here
    skip
    return .star span
  let dummy ← name
  return .name dummy.name dummy.span

def dummyNames : Reader n (List DummyName) := do
  unless ← acceptMark .leftParen do
    return []
  if ← acceptMark .rightParen then
    return []
  let found ← separated dummyName
  expectMark .rightParen
  return found

structure HeaderTail where
  result : Option String
  bindC : Bool

def headerTailWithin (isFunction : Bool) : Nat → HeaderTail → Reader n HeaderTail
  | 0, tail => return tail
  | turns + 1, tail => do
    if isFunction && (← isNextKeyword .result) then
      skip
      expectMark .leftParen
      let result ← name
      expectMark .rightParen
      headerTailWithin isFunction turns { tail with result := some result.name }
    else if ← isNextKeyword .bind then
      bindC
      headerTailWithin isFunction turns { tail with bindC := true }
    else
      return tail

structure Heading where
  start : Nat
  modifiers : List Modifier
  type : Option TypeSpec

def subprogramBody (heading : Heading) (isFunction : Bool) : Reader n Subprogram := do
  let declared ← name
  let dummies ← dummyNames
  let tail ← headerTailWithin isFunction (← remaining) ⟨none, false⟩
  statementEnd
  let spec ← specification subprogram
  let body ← execution
  let contained ← containedPart subprogram
  constructEnd "subroutine" ["function", "procedure"]
  let kind :=
    if isFunction then SubprogramKind.function tail.result heading.type else .subroutine
  return ⟨kind, declared.name, heading.modifiers, dummies, tail.bindC, spec, body, contained,
    ← spanFrom heading.start⟩

def modifier? : Lexeme → Option Modifier
  | .keyword .pure => some .pure
  | .keyword .impure => some .impure
  | .keyword .elemental => some .elemental
  | .keyword .recursive => some .recursive
  | .keyword .module => some .module
  | _ => none

def subprogramWithin : Nat → Heading → Reader (n + 1) Subprogram
  | 0, _ => fail "a type specification"
  | turns + 1, heading => do
    match ← peek with
    | some (.keyword .subroutine) => past (subprogramBody subprogram heading false)
    | some (.keyword .function) => past (subprogramBody subprogram heading true)
    | lexeme =>
      match lexeme.bind modifier? with
      | some modifier =>
        skip
        subprogramWithin turns { heading with modifiers := heading.modifiers ++ [modifier] }
      | none =>
        let type ← typeSpec
        subprogramWithin turns { heading with type := some type }

end

def subprogramOf : (n : Nat) → Reader n Subprogram
  | 0 => fail "a type specification"
  | n + 1 => do
    subprogramWithin (subprogramOf n) ((← remaining) + 1) ⟨← start, [], none⟩

def subprogram : Reader n Subprogram :=
  subprogramOf n

/-! Program units. -/

def mainProgram : Reader n MainProgram := do
  let start ← start
  let declared ← do
    if ← acceptKeyword .program then
      let declared ← name
      statementEnd
      pure (some declared.name)
    else
      pure none
  let spec ← specification subprogram
  let body ← execution
  let contained ← containedPart subprogram
  constructEnd "program" []
  return ⟨declared, spec, body, contained, ← spanFrom start⟩

def moduleUnit : Reader n Module := do
  let start ← start
  expectKeyword .module
  let declared ← name
  statementEnd
  let spec ← specification subprogram
  let contained ← containedPart subprogram
  constructEnd "module" []
  return ⟨declared.name, spec, contained, ← spanFrom start⟩

def programUnit : Reader n ProgramUnit := do
  if ← isAtSubprogram then
    return .subprogram (← subprogram)
  if ← isNextKeyword .module then
    return .module (← moduleUnit)
  return .main (← mainProgram)

def programItem : Reader n (Option (List ProgramUnit)) := do
  if (← peek).isNone then
    return none
  return some [← programUnit]

def program : Reader n Program := do
  return ⟨← many programItem⟩

end Grammar

namespace Tree.Program

def ofTokens (tokens : List Token) (size : Nat) : Except (List Diagnostic) Program :=
  match Grammar.program (Grammar.Cursor.ofTokens tokens size) with
  | .ok program after =>
    if after.faults.isEmpty then .ok program
    else .error (after.faults.reverse.map Grammar.Fault.diagnostic)
  | .error fault after =>
    .error ((fault :: after.faults).reverse.map Grammar.Fault.diagnostic)

def strayDiagnostic? (token : Token) : Option Diagnostic :=
  match token.lexeme with
  | .stray found => some ⟨.lexical, "unrecognized token `" ++ found ++ "`", token.span, []⟩
  | _ => none

/-- The program of a source text. Where the text has stray lexemes, they are the only faults
told. -/
def ofSource (source : String) : Except (List Diagnostic) Program :=
  let tokens := tokens source
  match tokens.filterMap strayDiagnostic? with
  | [] => ofTokens tokens source.utf8ByteSize
  | stray => .error stray

end Tree.Program

end FortranInterface
