import FortranInterface.Resolution.Program

/-!
The names that a tree mentions: all that may be looked up or declared when it is resolved.
-/

namespace FortranInterface.Tree

/-- A name as it is mentioned, in lower case: to stand for something, to be called as a function, or to be
given a new meaning; and the name of a module that is used, or the kind behind a literal, as it is spelled. -/
inductive Mention where
  | name (key : String)
  | called (key : String)
  | defined (key : String)
  | module (spelling : String)
  | suffix (category : Category) (spelling : String)
  /-- A mention that is looked at later, when procedures are known. -/
  | stored (mention : Mention)
  /-- A mention in a rule for undeclared names, which is looked at when it is applied. -/
  | ruled (mention : Mention)
  deriving DecidableEq

namespace Mention

def ofName (spelling : String) : Mention :=
  .name spelling.toLower

def ofDefined (spelling : String) : Mention :=
  .defined spelling.toLower

def ofOperator (op : String) : Mention :=
  ofName ("operator(" ++ op ++ ")")

end Mention

def UnaryOp.key : UnaryOp → String
  | .plus => "+"
  | .negate => "-"
  | .not => ".not."

def keptMentions (mentions : List Mention) : List Mention :=
  mentions ++ mentions.map Mention.stored

def optionMentions {α : Type} (mentions : α → List Mention) : Option α → List Mention
  | some value => mentions value
  | none => []

def nameMentions (spelling : Option String) : List Mention :=
  optionMentions (fun spelling => [Mention.ofName spelling]) spelling

def suffixMentions (category : Category) (spelling : Option String) : List Mention :=
  optionMentions (fun spelling => [.ofName spelling, .suffix category spelling]) spelling

mutual

def Expr.mentions : Expr → List Mention
  | .integer _ kind _ => suffixMentions .integer kind
  | .real _ kind _ => suffixMentions .real kind
  | .complex realPart imaginaryPart _ => realPart.mentions ++ imaginaryPart.mentions
  | .text _ _ => []
  | .logical _ _ => []
  | .boz _ _ => []
  | .name spelling _ => [.ofName spelling]
  | .call (.name spelling _) arguments _ =>
    .ofName spelling :: .called spelling.toLower :: argumentMentions arguments
  | .call (.component base spelling _) arguments _ =>
    .ofName spelling :: (base.mentions ++ argumentMentions arguments)
  | .call _ _ _ => []
  | .component base spelling _ => .ofName spelling :: base.mentions
  | .coindexed base _ => base.mentions
  | .array values _ => exprMentions values
  | .paren inner _ => inner.mentions
  | .binary op left right _ =>
    .ofOperator op.operator.spelling.toLower :: (left.mentions ++ right.mentions)
  | .unary op operand _ => .ofOperator op.key :: operand.mentions
  | .definedBinary op left right _ => .ofOperator ("." ++ op ++ ".") :: (left.mentions ++ right.mentions)
  | .definedUnary op operand _ => .ofOperator ("." ++ op ++ ".") :: operand.mentions

def exprMentions : List Expr → List Mention
  | [] => []
  | value :: values => value.mentions ++ exprMentions values

def boundMentions : Option Expr → List Mention
  | some value => value.mentions
  | none => []

def Arg.mentions : Arg → List Mention
  | ⟨_, .expr value, _⟩ => value.mentions
  | ⟨_, .label _, _⟩ => []
  | ⟨_, .triplet lower upper stride, _⟩ =>
    boundMentions lower ++ boundMentions upper ++ boundMentions stride

def argumentMentions : List Arg → List Mention
  | [] => []
  | argument :: arguments => argument.mentions ++ argumentMentions arguments

end

def Length.mentions : Length → List Mention
  | .expr value => value.mentions
  | _ => []

def TypeSpec.mentions : TypeSpec → List Mention
  | .integer kind | .real kind | .complex kind | .logical kind => boundMentions kind
  | .character length kind => optionMentions Length.mentions length ++ boundMentions kind
  | .type spelling | .classOf spelling => [.ofName spelling]
  | .doublePrecision | .typeStar | .classStar => []

def Dimension.mentions : Dimension → List Mention
  | .explicit lower upper => boundMentions lower ++ upper.mentions
  | .colon lower | .star lower => boundMentions lower
  | .assumedRank => []

def AttributeSpec.mentions : AttributeSpec → List Mention
  | .dimension dimensions | .codimension dimensions => dimensions.flatMap Dimension.mentions
  | .plain _ | .pass _ => []

def ruleMentions (rules : List ImplicitRule) : List Mention :=
  (rules.flatMap fun rule => rule.type.mentions).map Mention.ruled

def Entity.mentions (entity : Entity) : List Mention :=
  .ofName entity.name ::
    (optionMentions (List.flatMap Dimension.mentions) entity.dimensions ++
      optionMentions (List.flatMap Dimension.mentions) entity.codimensions ++
      optionMentions Length.mentions entity.length ++ boundMentions entity.init)

def InterfaceName.mentions : InterfaceName → List Mention
  | .name spelling => [.ofName spelling]
  | .type spec => spec.mentions

def Located.mention (name : Located) : Mention :=
  .ofName name.name

def Binding.mentions : Binding → List Mention
  | .specific name procedure interface _ _ =>
    .ofName name :: (nameMentions procedure ++ nameMentions interface)
  | .generic spec specifics _ => .ofName spec.key :: specifics.map Mention.ofName

def SubprogramKind.mentions : SubprogramKind → List Mention
  | .subroutine => []
  | .function result type => nameMentions result ++ optionMentions TypeSpec.mentions type

def DummyName.mentions : DummyName → List Mention
  | .name spelling _ => [.ofName spelling]
  | .star _ => []

def DoControl.mentions (control : DoControl) : List Mention :=
  .ofName control.index :: (control.start.mentions ++ control.stop.mentions ++ boundMentions control.step)

mutual

def Stmt.mentions : Stmt → List Mention
  | .call target arguments _ =>
    match target with
    | .name spelling _ => .ofName spelling :: argumentMentions arguments
    | .component base spelling _ => .ofName spelling :: (base.mentions ++ argumentMentions arguments)
    | _ => []
  | .assign left right _ => .ofName "assignment(=)" :: (left.mentions ++ right.mentions)
  | .associate names body _ =>
    names.flatMap (fun entry => .ofName entry.1 :: entry.2.mentions) ++ stmtMentions body
  | .conditional condition thenBody elseBody _ =>
    condition.mentions ++ stmtMentions thenBody ++ stmtMentions elseBody
  | .loop control body _ => optionMentions DoControl.mentions control ++ stmtMentions body
  | .print items _ => exprMentions items
  | .leave _ => []

def stmtMentions : List Stmt → List Mention
  | [] => []
  | first :: rest => first.mentions ++ stmtMentions rest

end

mutual

def Decl.mentions : Decl → List Mention
  | .use spelling _ => [.module spelling]
  | .implicitNone _ => []
  | .implicit rules _ => ruleMentions rules
  | .entities type attributes entities _ =>
    type.mentions ++ attributes.flatMap AttributeSpec.mentions ++ entities.flatMap Entity.mentions
  | .attributes attr names _ => attr.mentions ++ names.map Located.mention
  | .procedure interface _ names _ =>
    optionMentions InterfaceName.mentions interface ++ names.map Located.mention
  | .interface ⟨.generic spec, bodies, names, _⟩ =>
    .ofName spec.key :: .ofDefined spec.key :: (subprogramMentions bodies ++ keptMentions (names.map Located.mention))
  | .interface ⟨_, bodies, _, _⟩ => subprogramMentions bodies
  | .derivedType ⟨name, parent, _, components, bindings, _⟩ =>
    .ofName name :: .ofDefined name :: (nameMentions parent ++ declMentions components ++
      keptMentions (bindings.flatMap Binding.mentions))

def declMentions : List Decl → List Mention
  | [] => []
  | first :: rest => first.mentions ++ declMentions rest

def Subprogram.mentions : Subprogram → List Mention
  | ⟨kind, name, _, dummies, _, spec, body, contains, _⟩ =>
    .ofName name :: .ofDefined name :: (kind.mentions ++ dummies.flatMap DummyName.mentions ++
      declMentions spec ++ stmtMentions body ++ subprogramMentions contains)

def subprogramMentions : List Subprogram → List Mention
  | [] => []
  | first :: rest => first.mentions ++ subprogramMentions rest

end

def Decl.isUse : Decl → Bool
  | .use _ _ => true
  | _ => false

def Module.mentions (module : Module) : List Mention :=
  .ofName module.name :: .ofDefined module.name :: (declMentions module.spec ++ subprogramMentions module.contains)

def MainProgram.mentions (program : MainProgram) : List Mention :=
  .ofName (program.name.getD Resolve.unnamedMain) :: .ofDefined (program.name.getD Resolve.unnamedMain) ::
    (declMentions program.spec ++ stmtMentions program.body ++ subprogramMentions program.contains)

def ProgramUnit.mentions : ProgramUnit → List Mention
  | .main program => program.mentions
  | .module unit => unit.mentions
  | .subprogram unit => unit.mentions

theorem declMentions_append (first second : List Decl) :
    declMentions (first ++ second) = declMentions first ++ declMentions second := by
  induction first with
  | nil => rfl
  | cons decl rest ih => simp [declMentions, ih]

end FortranInterface.Tree
