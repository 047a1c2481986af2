import FortranInterface.Tree.Program

/-!
The spans of a tree. A tree is sited if every span in it is a site, and if in each of its expressions the spans of the
parts stand inside the span of the whole. What a site is, and when a span stands inside another, is left open here.
-/

namespace FortranInterface.Tree

section

variable (site : Span → Prop) (inside : Span → Span → Prop)

mutual

def Expr.Sited : Expr → Prop
  | .integer _ _ span => site span
  | .real _ _ span => site span
  | .complex realPart imaginaryPart span =>
    site span ∧ (inside realPart.span span ∧ realPart.Sited) ∧ inside imaginaryPart.span span ∧ imaginaryPart.Sited
  | .text _ span => site span
  | .logical _ span => site span
  | .boz _ span => site span
  | .name _ span => site span
  | .call target arguments span => site span ∧ (inside target.span span ∧ target.Sited) ∧ SitedArgs span arguments
  | .component base _ span => site span ∧ inside base.span span ∧ base.Sited
  | .coindexed base span => site span ∧ inside base.span span ∧ base.Sited
  | .array values span => site span ∧ SitedExprs span values
  | .paren inner span => site span ∧ inside inner.span span ∧ inner.Sited
  | .binary _ left right span =>
    site span ∧ (inside left.span span ∧ left.Sited) ∧ inside right.span span ∧ right.Sited
  | .unary _ operand span => site span ∧ inside operand.span span ∧ operand.Sited
  | .definedBinary _ left right span =>
    site span ∧ (inside left.span span ∧ left.Sited) ∧ inside right.span span ∧ right.Sited
  | .definedUnary _ operand span => site span ∧ inside operand.span span ∧ operand.Sited

def SitedExprs (outer : Span) : List Expr → Prop
  | [] => True
  | value :: values => (inside value.span outer ∧ value.Sited) ∧ SitedExprs outer values

def SitedBound (outer : Span) : Option Expr → Prop
  | none => True
  | some value => inside value.span outer ∧ value.Sited

def Arg.Sited : Arg → Prop
  | ⟨_, .expr value, span⟩ => site span ∧ inside value.span span ∧ value.Sited
  | ⟨_, .label _, span⟩ => site span
  | ⟨_, .triplet lower upper stride, span⟩ =>
    site span ∧ SitedBound span lower ∧ SitedBound span upper ∧ SitedBound span stride

def SitedArgs (outer : Span) : List Arg → Prop
  | [] => True
  | argument :: arguments => (inside argument.span outer ∧ argument.Sited) ∧ SitedArgs outer arguments

end

def Length.Sited : Length → Prop
  | .expr value => value.Sited site inside
  | .assumed | .deferred => True

def TypeSpec.Sited : TypeSpec → Prop
  | .integer kind | .real kind | .complex kind | .logical kind => ∀ value ∈ kind, value.Sited site inside
  | .character length kind => (∀ value ∈ length, value.Sited site inside) ∧ ∀ value ∈ kind, value.Sited site inside
  | .doublePrecision | .type _ | .classOf _ | .typeStar | .classStar => True

def Dimension.Sited : Dimension → Prop
  | .explicit lower upper => (∀ value ∈ lower, value.Sited site inside) ∧ upper.Sited site inside
  | .colon lower | .star lower => ∀ value ∈ lower, value.Sited site inside
  | .assumedRank => True

def AttributeSpec.Sited : AttributeSpec → Prop
  | .dimension dimensions | .codimension dimensions => ∀ dimension ∈ dimensions, dimension.Sited site inside
  | .plain _ | .pass _ => True

def ImplicitRule.Sited (rule : ImplicitRule) : Prop :=
  rule.type.Sited site inside

def Entity.Sited (entity : Entity) : Prop :=
  site entity.span ∧ (∀ dimensions ∈ entity.dimensions, ∀ dimension ∈ dimensions, dimension.Sited site inside) ∧
    (∀ dimensions ∈ entity.codimensions, ∀ dimension ∈ dimensions, dimension.Sited site inside) ∧
    (∀ length ∈ entity.length, length.Sited site inside) ∧ ∀ init ∈ entity.init, init.Sited site inside

def InterfaceName.Sited : InterfaceName → Prop
  | .name _ => True
  | .type spec => spec.Sited site inside

def Binding.Sited : Binding → Prop
  | .specific _ _ _ attributes span => site span ∧ ∀ attr ∈ attributes, attr.Sited site inside
  | .generic _ _ span => site span

def SubprogramKind.Sited : SubprogramKind → Prop
  | .subroutine => True
  | .function _ type => ∀ spec ∈ type, spec.Sited site inside

def DummyName.Sited : DummyName → Prop
  | .name _ span | .star span => site span

def DoControl.Sited (control : DoControl) : Prop :=
  control.start.Sited site inside ∧ control.stop.Sited site inside ∧ ∀ step ∈ control.step, step.Sited site inside

mutual

def Stmt.Sited : Stmt → Prop
  | .call target arguments span =>
    site span ∧ target.Sited site inside ∧ ∀ argument ∈ arguments, argument.Sited site inside
  | .assign left right span => site span ∧ left.Sited site inside ∧ right.Sited site inside
  | .associate names body span =>
    site span ∧ (∀ entry ∈ names, entry.2.Sited site inside) ∧ SitedStmts body
  | .conditional condition thenBody elseBody span =>
    site span ∧ condition.Sited site inside ∧ SitedStmts thenBody ∧ SitedStmts elseBody
  | .loop control body span => site span ∧ (∀ steers ∈ control, steers.Sited site inside) ∧ SitedStmts body
  | .print items span => site span ∧ ∀ item ∈ items, item.Sited site inside
  | .leave span => site span

def SitedStmts : List Stmt → Prop
  | [] => True
  | first :: rest => first.Sited ∧ SitedStmts rest

end

mutual

def Decl.Sited : Decl → Prop
  | .use _ span | .implicitNone span => site span
  | .implicit rules span => site span ∧ ∀ rule ∈ rules, rule.Sited site inside
  | .entities type attributes entities span =>
    site span ∧ type.Sited site inside ∧ (∀ attr ∈ attributes, attr.Sited site inside) ∧
      ∀ entity ∈ entities, entity.Sited site inside
  | .attributes attr names span => site span ∧ attr.Sited site inside ∧ ∀ name ∈ names, site name.span
  | .procedure interface attributes names span =>
    site span ∧ (∀ name ∈ interface, name.Sited site inside) ∧
      (∀ attr ∈ attributes, attr.Sited site inside) ∧ ∀ name ∈ names, site name.span
  | .interface ⟨_, bodies, names, span⟩ => site span ∧ SitedSubprograms bodies ∧ ∀ name ∈ names, site name.span
  | .derivedType ⟨_, _, _, components, bindings, span⟩ =>
    site span ∧ SitedDecls components ∧ ∀ binding ∈ bindings, binding.Sited site inside

def SitedDecls : List Decl → Prop
  | [] => True
  | first :: rest => first.Sited ∧ SitedDecls rest

def Subprogram.Sited : Subprogram → Prop
  | ⟨kind, _, _, dummies, _, spec, body, contains, span⟩ =>
    site span ∧ kind.Sited site inside ∧ (∀ dummy ∈ dummies, dummy.Sited site) ∧ SitedDecls spec ∧
      SitedStmts site inside body ∧ SitedSubprograms contains

def SitedSubprograms : List Subprogram → Prop
  | [] => True
  | first :: rest => first.Sited ∧ SitedSubprograms rest

end

def MainProgram.Sited (program : MainProgram) : Prop :=
  site program.span ∧ SitedDecls site inside program.spec ∧ SitedStmts site inside program.body ∧
    SitedSubprograms site inside program.contains

def Module.Sited (module : Module) : Prop :=
  site module.span ∧ SitedDecls site inside module.spec ∧ SitedSubprograms site inside module.contains

def ProgramUnit.Sited : ProgramUnit → Prop
  | .main program => program.Sited site inside
  | .module unit => unit.Sited site inside
  | .subprogram unit => unit.Sited site inside

def Program.Sited (program : Program) : Prop :=
  ∀ unit ∈ program.units, unit.Sited site inside

end

/-! Lists. -/

variable {site : Span → Prop} {inside : Span → Span → Prop} {outer : Span}

theorem Expr.Sited.span {expr : Expr} (sited : expr.Sited site inside) : site expr.span := by
  cases expr <;> simp only [Expr.Sited] at sited <;> first | exact sited.1 | exact sited

variable {unit : Subprogram}

section

variable (sited : unit.Sited site inside)
include sited

theorem Subprogram.Sited.span : site unit.span := by
  obtain ⟨kind, name, modifiers, dummies, bindC, spec, body, contains, span⟩ := unit
  rw [Subprogram.Sited] at sited
  exact sited.1

theorem Subprogram.Sited.kind : unit.kind.Sited site inside := by
  obtain ⟨kind, name, modifiers, dummies, bindC, spec, body, contains, span⟩ := unit
  rw [Subprogram.Sited] at sited
  exact sited.2.1

theorem Subprogram.Sited.spec : SitedDecls site inside unit.spec := by
  obtain ⟨kind, name, modifiers, dummies, bindC, spec, body, contains, span⟩ := unit
  rw [Subprogram.Sited] at sited
  exact sited.2.2.2.1

theorem Subprogram.Sited.dummies : ∀ dummy ∈ unit.dummies, dummy.Sited site := by
  obtain ⟨kind, name, modifiers, dummies, bindC, spec, body, contains, span⟩ := unit
  rw [Subprogram.Sited] at sited
  exact sited.2.2.1

end

theorem Arg.Sited.span {argument : Arg} (sited : argument.Sited site inside) : site argument.span := by
  obtain ⟨keyword, value, span⟩ := argument
  cases value <;> rw [Arg.Sited] at sited
  · exact sited.1
  · exact sited
  · exact sited.1

theorem sitedExprs_iff {values : List Expr} :
    SitedExprs site inside outer values ↔ ∀ value ∈ values, inside value.span outer ∧ value.Sited site inside := by
  induction values with
  | nil => simp [SitedExprs]
  | cons value values ih => rw [SitedExprs, ih, List.forall_mem_cons]

theorem sitedBound_iff {value : Option Expr} :
    SitedBound site inside outer value ↔ ∀ found ∈ value, inside found.span outer ∧ found.Sited site inside := by
  cases value <;> simp [SitedBound]

theorem sitedArgs_iff {arguments : List Arg} :
    SitedArgs site inside outer arguments ↔
      ∀ argument ∈ arguments, inside argument.span outer ∧ argument.Sited site inside := by
  induction arguments with
  | nil => simp [SitedArgs]
  | cons argument arguments ih => rw [SitedArgs, ih, List.forall_mem_cons]

theorem sitedStmts_iff {statements : List Stmt} :
    SitedStmts site inside statements ↔ ∀ statement ∈ statements, statement.Sited site inside := by
  induction statements with
  | nil => simp [SitedStmts]
  | cons first rest ih => rw [SitedStmts, ih, List.forall_mem_cons]

theorem sitedDecls_iff {decls : List Decl} : SitedDecls site inside decls ↔ ∀ decl ∈ decls, decl.Sited site inside := by
  induction decls with
  | nil => simp [SitedDecls]
  | cons first rest ih => rw [SitedDecls, ih, List.forall_mem_cons]

theorem sitedSubprograms_iff {subprograms : List Subprogram} :
    SitedSubprograms site inside subprograms ↔ ∀ subprogram ∈ subprograms, subprogram.Sited site inside := by
  induction subprograms with
  | nil => simp [SitedSubprograms]
  | cons first rest ih => rw [SitedSubprograms, ih, List.forall_mem_cons]

/-! Where every span is a site, and inside every other one, all trees are sited. -/

section

variable (all : ∀ span, site span) (nested : ∀ inner outer, inside inner outer)
include all nested

theorem Expr.sited_of_all (expr : Expr) : expr.Sited site inside := by
  refine (Expr.Sited.mutual_induct (Expr.Sited site inside) (SitedExprs site inside) (SitedArgs site inside)
    (Arg.Sited site inside) (SitedBound site inside) ?_ ?_ ?_ ?_ ?_ ?_ ?_ ?_ ?_ ?_ ?_ ?_ ?_ ?_ ?_ ?_ ?_ ?_ ?_ ?_
    ?_ ?_ ?_ ?_ ?_).1 expr
  all_goals intros; simp_all [Expr.Sited, SitedExprs, SitedArgs, Arg.Sited, SitedBound]

theorem Arg.sited_of_all (argument : Arg) : argument.Sited site inside := by
  rcases argument with ⟨keyword, value | value | ⟨lower, upper, stride⟩, span⟩ <;>
    simp [Arg.Sited, sitedBound_iff, all, nested, Expr.sited_of_all all nested]

theorem Length.sited_of_all (length : Length) : length.Sited site inside := by
  cases length <;> simp [Length.Sited, Expr.sited_of_all all nested]

theorem TypeSpec.sited_of_all (spec : TypeSpec) : spec.Sited site inside := by
  cases spec <;> simp [TypeSpec.Sited, Length.sited_of_all all nested, Expr.sited_of_all all nested]

theorem Dimension.sited_of_all (dimension : Dimension) : dimension.Sited site inside := by
  cases dimension <;> simp [Dimension.Sited, Expr.sited_of_all all nested]

theorem AttributeSpec.sited_of_all (attr : AttributeSpec) : attr.Sited site inside := by
  cases attr <;> simp [AttributeSpec.Sited, Dimension.sited_of_all all nested]

theorem Binding.sited_of_all (binding : Binding) : binding.Sited site inside := by
  cases binding <;> simp [Binding.Sited, all, AttributeSpec.sited_of_all all nested]

theorem Stmt.sited_of_all (stmt : Stmt) : stmt.Sited site inside := by
  refine (Stmt.Sited.mutual_induct (Stmt.Sited site inside) (SitedStmts site inside) ?_ ?_ ?_ ?_ ?_ ?_ ?_ ?_ ?_).1 stmt
  all_goals intros; simp_all [Stmt.Sited, SitedStmts, DoControl.Sited, Expr.sited_of_all, Arg.sited_of_all]

theorem sited_of_all : (∀ decl : Decl, decl.Sited site inside) ∧ (∀ decls, SitedDecls site inside decls) ∧
    (∀ subprograms, SitedSubprograms site inside subprograms) ∧
    ∀ subprogram : Subprogram, subprogram.Sited site inside := by
  have entity (entity : Entity) : entity.Sited site inside := by
    simp [Entity.Sited, all, Length.sited_of_all all nested, Dimension.sited_of_all all nested,
      Expr.sited_of_all all nested]
  have interface (name : InterfaceName) : name.Sited site inside := by
    cases name <;> simp [InterfaceName.Sited, TypeSpec.sited_of_all all nested]
  have kind (kind : SubprogramKind) : kind.Sited site inside := by
    cases kind <;> simp [SubprogramKind.Sited, TypeSpec.sited_of_all all nested]
  have dummy (dummy : DummyName) : dummy.Sited site := by
    cases dummy <;> exact all _
  refine Decl.Sited.mutual_induct (Decl.Sited site inside) (SitedDecls site inside) (SitedSubprograms site inside)
    (Subprogram.Sited site inside) ?_ ?_ ?_ ?_ ?_ ?_ ?_ ?_ ?_ ?_ ?_ ?_ ?_
  all_goals
    intros
    simp_all [Decl.Sited, SitedDecls, SitedSubprograms, Subprogram.Sited, ImplicitRule.Sited, sitedStmts_iff,
      TypeSpec.sited_of_all, AttributeSpec.sited_of_all, Binding.sited_of_all, Stmt.sited_of_all]

theorem Program.sited_of_all (program : Program) : program.Sited site inside := by
  obtain ⟨-, decls, subprograms, subprogram⟩ := Tree.sited_of_all all nested
  have stmts (body : List Stmt) : SitedStmts site inside body :=
    sitedStmts_iff.mpr fun stmt _ => Stmt.sited_of_all all nested stmt
  intro unit _
  cases unit with
  | main unit => exact ⟨all _, decls _, stmts _, subprograms _⟩
  | module unit => exact ⟨all _, decls _, subprograms _⟩
  | subprogram unit => exact subprogram unit

end

end FortranInterface.Tree
