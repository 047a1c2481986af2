import FortranInterface.Tree.Program

/-!
The outline of a program: its program units, and under each the subprograms that it contains.
-/

namespace FortranInterface.Tree

def outlineLine (depth : Nat) (word name : String) : String :=
  String.ofList (List.replicate (2 * depth) ' ') ++ word ++ " " ++ name

def SubprogramKind.word : SubprogramKind → String
  | .subroutine => "subroutine"
  | .function .. => "function"

mutual

def Subprogram.outline (depth : Nat) : Subprogram → List String
  | ⟨kind, name, _, _, _, _, _, contains, _⟩ =>
    outlineLine depth kind.word name :: subprogramsOutline (depth + 1) contains

def subprogramsOutline (depth : Nat) : List Subprogram → List String
  | [] => []
  | first :: others => first.outline depth ++ subprogramsOutline depth others

end

def ProgramUnit.outline : ProgramUnit → List String
  | .main program =>
    outlineLine 0 "program" (program.name.getD "") :: subprogramsOutline 1 program.contains
  | .module unit => outlineLine 0 "module" unit.name :: subprogramsOutline 1 unit.contains
  | .subprogram unit => unit.outline 0

def Program.outline (program : Program) : List String :=
  program.units.flatMap ProgramUnit.outline

end FortranInterface.Tree
