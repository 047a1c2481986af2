/-!
The words that have a meaning of their own in a statement. None of them is reserved: where a name
is wanted, a keyword stands for the name of the same spelling.
-/

namespace FortranInterface

inductive Keyword where
  | program
  | «end»
  | module
  | contains
  | use
  | implicit
  | none
  | subroutine
  | function
  | result
  | recursive
  | pure
  | impure
  | elemental
  | interface
  | abstract
  | procedure
  | operator
  | assignment
  | type
  | «class»
  | «extends»
  | integer
  | real
  | double
  | precision
  | complex
  | character
  | logical
  | dimension
  | intent
  | «in»
  | out
  | inOut
  | optional
  | pointer
  | target
  | allocatable
  | value
  | volatile
  | asynchronous
  | contiguous
  | parameter
  | save
  | external
  | intrinsic
  | «protected»
  | «private»
  | «public»
  | bind
  | call
  | associate
  | len
  | kind
  | pass
  | noPass
  | deferred
  | generic
  | print
  | «if»
  | «then»
  | «else»
  | «do»
  | «return»
  deriving DecidableEq

namespace Keyword

def spelling : Keyword → String
  | program => "program"
  | «end» => "end"
  | module => "module"
  | contains => "contains"
  | use => "use"
  | implicit => "implicit"
  | none => "none"
  | subroutine => "subroutine"
  | function => "function"
  | result => "result"
  | recursive => "recursive"
  | pure => "pure"
  | impure => "impure"
  | elemental => "elemental"
  | interface => "interface"
  | abstract => "abstract"
  | procedure => "procedure"
  | operator => "operator"
  | assignment => "assignment"
  | type => "type"
  | «class» => "class"
  | «extends» => "extends"
  | integer => "integer"
  | real => "real"
  | double => "double"
  | precision => "precision"
  | complex => "complex"
  | character => "character"
  | logical => "logical"
  | dimension => "dimension"
  | intent => "intent"
  | «in» => "in"
  | out => "out"
  | inOut => "inout"
  | optional => "optional"
  | pointer => "pointer"
  | target => "target"
  | allocatable => "allocatable"
  | value => "value"
  | volatile => "volatile"
  | asynchronous => "asynchronous"
  | contiguous => "contiguous"
  | parameter => "parameter"
  | save => "save"
  | external => "external"
  | intrinsic => "intrinsic"
  | «protected» => "protected"
  | «private» => "private"
  | «public» => "public"
  | bind => "bind"
  | call => "call"
  | associate => "associate"
  | len => "len"
  | kind => "kind"
  | pass => "pass"
  | noPass => "nopass"
  | deferred => "deferred"
  | generic => "generic"
  | print => "print"
  | «if» => "if"
  | «then» => "then"
  | «else» => "else"
  | «do» => "do"
  | «return» => "return"

def all : List Keyword :=
  [program, «end», module, contains, use, implicit, none, subroutine, function, result, recursive,
    pure, impure, elemental, interface, abstract, procedure, operator, assignment, type, «class»,
    «extends», integer, real, double, precision, complex, character, logical, dimension, intent,
    «in», out, inOut, optional, pointer, target, allocatable, value, volatile, asynchronous,
    contiguous, parameter, save, external, intrinsic, «protected», «private», «public», bind, call,
    associate, len, kind, pass, noPass, deferred, generic, print, «if», «then», «else», «do»,
    «return»]

def ofSpelling? (word : String) : Option Keyword :=
  all.find? fun keyword => keyword.spelling == word

/-- The name a listing of tokens gives the keyword: two words run together are both capitalized. -/
def label : Keyword → String
  | inOut => "KwInOut"
  | noPass => "KwNoPass"
  | keyword => "Kw" ++ keyword.spelling.capitalize

theorem mem_all (keyword : Keyword) : keyword ∈ all := by
  cases keyword <;> decide

def namesType : Keyword → Bool
  | integer | real | double | complex | character | logical => true
  | _ => false

end Keyword

end FortranInterface
