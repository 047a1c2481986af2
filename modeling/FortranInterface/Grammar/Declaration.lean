import FortranInterface.Grammar.Expression
import FortranInterface.Grammar.Lookahead

/-!
Reading the declarations that hold no procedure: types, attributes, entities, and derived types.
-/

namespace FortranInterface.Grammar

open FortranInterface.Tree

variable {n : Nat}

/-! Types. -/

def acceptNamed (keyword : Keyword) : Reader n Bool := do
  if (← isNextKeyword keyword) && (← peekSecond) = some (.mark .assign) then
    skip
    skip
    return true
  return false

def kindSelector : Reader n (Option Tree.Expr) := do
  unless ← acceptMark .leftParen do
    return none
  let _ ← acceptNamed .kind
  let kind ← expression
  expectMark .rightParen
  return some kind

def length : Reader n Length := do
  if ← acceptMark .star then
    return .assumed
  if ← acceptMark .colon then
    return .deferred
  return .expr (← expression)

def starLength : Reader n Length := do
  if ← acceptMark .leftParen then
    let value ← length
    expectMark .rightParen
    return value
  return .expr (← primary)

abbrev CharacterParameters := Option Length × Option Tree.Expr

/-- A parameter without a keyword is the length if there is none yet, and else the kind. -/
def characterParameter : CharacterParameters → Reader n CharacterParameters
  | (found, kind) => do
    if ← acceptNamed .len then
      return (some (← length), kind)
    if ← acceptNamed .kind then
      return (found, some (← expression))
    if found.isNone then
      return (some (← length), kind)
    return (found, some (← expression))

def characterParametersWithin : Nat → CharacterParameters → Reader n CharacterParameters
  | 0, found => return found
  | turns + 1, found => do
    let found ← characterParameter found
    if ← acceptMark .comma then
      characterParametersWithin turns found
    else
      return found

def characterParameters : Reader n CharacterParameters := do
  if ← acceptMark .star then
    return (some (← starLength), none)
  if ← acceptMark .leftParen then
    let found ← characterParametersWithin ((← remaining) + 1) (none, none)
    expectMark .rightParen
    return found
  return (none, none)

def derivedSpec (star : TypeSpec) (named : String → TypeSpec) : Reader n TypeSpec := do
  expectMark .leftParen
  let type ← if ← acceptMark .star then pure star else (named ·.name) <$> name
  expectMark .rightParen
  return type

def typeSpec : Reader n TypeSpec := do
  match ← peek with
  | some (.keyword .integer) =>
    skip
    return .integer (← kindSelector)
  | some (.keyword .real) =>
    skip
    return .real (← kindSelector)
  | some (.keyword .double) =>
    skip
    expectKeyword .precision
    return .doublePrecision
  | some (.keyword .complex) =>
    skip
    return .complex (← kindSelector)
  | some (.keyword .logical) =>
    skip
    return .logical (← kindSelector)
  | some (.keyword .character) =>
    skip
    let (length, kind) ← characterParameters
    return .character length kind
  | some (.keyword .type) =>
    skip
    derivedSpec .typeStar .type
  | some (.keyword .class) =>
    skip
    derivedSpec .classStar .classOf
  | _ => fail "a type specification"

/-! Dimensions. -/

def dimension (close : Mark) : Reader n Dimension := do
  if ← acceptMark .dotDot then
    return .assumedRank
  if ← acceptMark .star then
    return .star none
  if ← acceptMark .colon then
    return .colon none
  let first ← expression
  unless ← acceptMark .colon do
    return .explicit none first
  if ← acceptMark .star then
    return .star (some first)
  if (← isNextMark .comma) || (← isNextMark close) then
    return .colon (some first)
  return .explicit (some first) (← expression)

def dimensions (close : Mark) : Reader n (List Dimension) := do
  let found ← separated (dimension close)
  expectMark close
  return found

/-! Attributes. -/

def intent : Reader n Attribute := do
  expectMark .leftParen
  let found ← do
    if ← acceptKeyword .in then
      if ← acceptKeyword .out then pure Attribute.intentInOut else pure .intentIn
    else if ← acceptKeyword .out then
      pure .intentOut
    else if ← acceptKeyword .inOut then
      pure .intentInOut
    else
      fail "IN, OUT or INOUT"
  expectMark .rightParen
  return found

def closingParenWithin : Nat → Nat → Reader n Unit
  | turns + 1, level + 1 => do
    unless ← isAtStatementEnd do
      let level ← do
        match ← peek with
        | some (.mark .leftParen) => pure (level + 2)
        | some (.mark .rightParen) => pure level
        | _ => pure (level + 1)
      skip
      closingParenWithin turns level
  | _, _ => return

/-- `BIND(C)`; whatever else stands in its parentheses is passed over. -/
def bindC : Reader n Unit := do
  expectKeyword .bind
  expectMark .leftParen
  unless ← isNextWord "c" do
    fail "C"
  closingParenWithin (← remaining) 1

def plainAttribute? : Keyword → Option Attribute
  | .allocatable => some .allocatable
  | .asynchronous => some .asynchronous
  | .contiguous => some .contiguous
  | .external => some .external
  | .intrinsic => some .intrinsic
  | .optional => some .optional
  | .parameter => some .parameter
  | .pointer => some .pointer
  | .private => some .private
  | .protected => some .protected
  | .public => some .public
  | .save => some .save
  | .target => some .target
  | .value => some .value
  | .volatile => some .volatile
  | .noPass => some .noPass
  | .deferred => some .deferred
  | _ => none

def passSpec : Reader n AttributeSpec := do
  if ← acceptMark .leftParen then
    let dummy ← name
    expectMark .rightParen
    return .pass (some dummy.name)
  return .pass none

def attributeSpec : Reader n AttributeSpec := do
  match ← peek with
  | some (.keyword .bind) =>
    bindC
    return .plain .bindC
  | some (.name "codimension") =>
    skip
    expectMark .leftBracket
    return .codimension (← dimensions .rightBracket)
  | some (.keyword .dimension) =>
    skip
    expectMark .leftParen
    return .dimension (← dimensions .rightParen)
  | some (.keyword .intent) =>
    skip
    return .plain (← intent)
  | some (.keyword .pass) =>
    skip
    passSpec
  | some (.keyword word) =>
    match plainAttribute? word with
    | some attr =>
      skip
      return .plain attr
    | none => fail "an attribute"
  | _ => fail "an attribute"

/-! Declarations. -/

def names : Reader n (List Located) := do
  if ← isAtStatementEnd then
    return []
  separated name

def use : Reader n Decl := do
  let start ← start
  expectKeyword .use
  if ← acceptMark .comma then
    let _ ← name
    expectMark .doubleColon
  else
    let _ ← acceptMark .doubleColon
  let module ← name
  let span ← spanFrom start
  skipStatement
  return .use module.name span

def letter : Reader n Char := do
  return (← name).name.toList.headD 'a'

def letterRange : Reader n LetterRange := do
  let first ← letter
  if ← acceptMark .minus then
    return ⟨first, some (← letter)⟩
  return ⟨first, none⟩

def implicitRule : Reader n ImplicitRule := do
  let type ← typeSpec
  expectMark .leftParen
  let letters ← separated letterRange
  expectMark .rightParen
  return ⟨type, letters⟩

def implicit : Reader n Decl := do
  let start ← start
  expectKeyword .implicit
  if ← acceptKeyword .none then
    let span ← spanFrom start
    statementEnd
    return .implicitNone span
  let rules ← separated implicitRule
  let span ← spanFrom start
  statementEnd
  return .implicit rules span

def entity : Reader n Entity := do
  let declared ← name
  let extent ← if ← acceptMark .leftParen then some <$> dimensions .rightParen else pure none
  let coextent ← if ← acceptMark .leftBracket then some <$> dimensions .rightBracket else pure none
  let length ← if ← acceptMark .star then some <$> starLength else pure none
  let init ← do
    if (← acceptMark .assign) then some <$> expression
    else if (← acceptMark .arrow) then some <$> expression
    else pure none
  return ⟨declared.name, extent, coextent, length, init, declared.span⟩

def entities : Reader n Decl := do
  let start ← start
  let type ← typeSpec
  let attributes ← afterCommas attributeSpec
  let _ ← acceptMark .doubleColon
  let declared ← separated entity
  let span ← spanFrom start
  statementEnd
  return .entities type attributes declared span

def attributeStatement : Reader n Decl := do
  let start ← start
  let attr ← attributeSpec
  let _ ← acceptMark .doubleColon
  let listed ← names
  let span ← spanFrom start
  statementEnd
  return .attributes attr listed span

def interfaceName : Reader n (Option InterfaceName) := do
  unless ← acceptMark .leftParen do
    return none
  if ← acceptMark .rightParen then
    return none
  let isType ← do
    match ← peek with
    | some (.keyword .type) | some (.keyword .class) =>
      pure (decide ((← peekSecond) = some (.mark .leftParen)))
    | some lexeme => pure (namesType lexeme)
    | none => pure false
  let found ← if isType then .type <$> typeSpec else (.name ·.name) <$> name
  expectMark .rightParen
  return some found

/-- A procedure name; the initial target of a procedure pointer is read and forgotten. -/
def procedureName : Reader n Located := do
  let found ← name
  if ← acceptMark .arrow then
    let _ ← expression
  return found

def procedure : Reader n Decl := do
  let start ← start
  expectKeyword .procedure
  let interface ← interfaceName
  let attributes ← afterCommas attributeSpec
  let _ ← acceptMark .doubleColon
  let listed ← separated procedureName
  let span ← spanFrom start
  statementEnd
  return .procedure interface attributes listed span

/-! Generic specifications. -/

def operatorSpelling? : Lexeme → Option String
  | .definedOperator op => some ("." ++ op ++ ".")
  | .mark .plus => some "+"
  | .mark .minus => some "-"
  | .mark .star => some "*"
  | .mark .slash => some "/"
  | .mark .power => some "**"
  | .mark .concat => some "//"
  | .mark .equal => some "=="
  | .mark .notEqual => some "/="
  | .mark .less => some "<"
  | .mark .lessEqual => some "<="
  | .mark .greater => some ">"
  | .mark .greaterEqual => some ">="
  | .mark .and => some ".and."
  | .mark .or => some ".or."
  | .mark .not => some ".not."
  | .mark .eqv => some ".eqv."
  | .mark .neqv => some ".neqv."
  | _ => none

/-- An operator in parentheses; if the text ends at the opening one, the fault is there. -/
def operatorSpec : Reader n GenericSpec := do
  if (← peekSecond).isNone then
    fail "an operator"
  skip
  match (← peek).bind operatorSpelling? with
  | some op =>
    skip
    expectMark .rightParen
    return .operator op
  | none => fail "an operator"

def genericSpec : Reader n GenericSpec := do
  let opens := decide ((← peekSecond) = some (.mark .leftParen))
  match ← peek, opens with
  | some (.keyword .operator), true =>
    skip
    operatorSpec
  | some (.keyword .assignment), true =>
    skip
    skip
    expectMark .assign
    expectMark .rightParen
    return .assignment
  | _, _ => return .name (← name).name

/-! Derived types. -/

structure TypeHeader where
  parent : Option String
  isAbstract : Bool

def typeHeaderWithin : Nat → TypeHeader → Reader n TypeHeader
  | 0, header => return header
  | turns + 1, header => do
    unless ← acceptMark .comma do
      return header
    match ← peek with
    | some (.keyword .extends) =>
      skip
      expectMark .leftParen
      let parent ← name
      expectMark .rightParen
      typeHeaderWithin turns { header with parent := some parent.name }
    | some (.keyword .abstract) =>
      skip
      typeHeaderWithin turns { header with isAbstract := true }
    | some (.keyword .bind) =>
      bindC
      typeHeaderWithin turns header
    | some (.keyword .public) | some (.keyword .private) =>
      skip
      typeHeaderWithin turns header
    | _ => fail "a type attribute"

def component : Reader n (Option (List Decl)) := do
  if (← peek).isNone || (← isAtEnd) || (← isNextKeyword .contains) then
    return none
  match ← peek with
  | some (.keyword .procedure) => return some [← procedure]
  | some (.keyword .private) | some (.keyword .public) | some (.name "sequence") =>
    skipStatement
    return some []
  | _ => return some [← entities]

def bindingTarget (interface : Option String) (attributes : List AttributeSpec) :
    Reader n Binding := do
  let bound ← name
  let target ← if ← acceptMark .arrow then (some ·.name) <$> name else pure none
  return .specific bound.name target interface attributes (← spanFrom bound.span.start)

def specificBindings : Reader n (List Binding) := do
  skip
  let interface ← do
    match ← interfaceName with
    | some (.name found) => pure (some found)
    | some (.type _) => fail "an interface name"
    | none => pure none
  let attributes ← afterCommas attributeSpec
  let _ ← acceptMark .doubleColon
  let bindings ← separated (bindingTarget interface attributes)
  statementEnd
  return bindings

def bindingAccessWithin : Nat → Reader n Unit
  | 0 => return
  | turns + 1 => do
    if ← acceptMark .comma then
      skip
      bindingAccessWithin turns

def genericBinding : Reader n (List Binding) := do
  let start ← start
  skip
  bindingAccessWithin (← remaining)
  expectMark .doubleColon
  let spec ← genericSpec
  expectMark .arrow
  let specifics ← names
  let span ← spanFrom start
  statementEnd
  return [.generic spec (specifics.map Located.name) span]

def bindings : Reader n (Option (List Binding)) := do
  if (← peek).isNone || (← isAtEnd) then
    return none
  match ← peek with
  | some (.keyword .procedure) => return some (← specificBindings)
  | some (.keyword .generic) => return some (← genericBinding)
  | _ =>
    skipStatement
    return some []

def derivedType : Reader n DerivedType := do
  let start ← start
  expectKeyword .type
  let header ← typeHeaderWithin (← remaining) ⟨none, false⟩
  let _ ← acceptMark .doubleColon
  let declared ← name
  statementEnd
  let components ← many component
  let bound ← do
    if ← acceptKeyword .contains then
      statementEnd
      many bindings
    else
      pure []
  constructEnd "type" []
  return ⟨declared.name, header.parent, header.isAbstract, components, bound, ← spanFrom start⟩

end FortranInterface.Grammar
