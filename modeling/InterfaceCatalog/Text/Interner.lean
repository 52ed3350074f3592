namespace InterfaceCatalog

structure Interner where
  names : List String
  deriving DecidableEq

namespace Interner

def empty : Interner := ⟨[]⟩

def contains (pool : Interner) (name : String) : Bool := pool.names.contains name

def get? (pool : Interner) (name : String) : Option String :=
  if pool.contains name then some name else none

def intern (pool : Interner) (name : String) : Interner :=
  if pool.contains name then pool else ⟨pool.names ++ [name]⟩

def size (pool : Interner) : Nat := pool.names.length

end Interner

end InterfaceCatalog
