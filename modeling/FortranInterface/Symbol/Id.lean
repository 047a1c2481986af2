/-!
Names for the entries of a symbol table: a symbol and a scope are known by their place in it.
-/

namespace FortranInterface

structure SymbolId where
  index : Nat
  deriving DecidableEq, Inhabited

structure ScopeId where
  index : Nat
  deriving DecidableEq, Inhabited

end FortranInterface
