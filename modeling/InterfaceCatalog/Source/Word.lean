import InterfaceCatalog.Model.Kind

namespace InterfaceCatalog

def ClassKind.word : ClassKind → String
  | .unknown => "Unknown"
  | .regular => "Regular"
  | .abstract => "Abstract"
  | .mixin => "Mixin"
  | .interface => "Interface"

def ClassKind.all : List ClassKind := [.unknown, .regular, .abstract, .mixin, .interface]

def ClassKind.ofWord? (word : String) : Option ClassKind :=
  all.find? (·.word = word)

def Scope.word : Scope → String
  | .unknown => "Unknown"
  | .publicScope => "Public"
  | .privateScope => "Private"
  | .protectedScope => "Protected"

def Scope.all : List Scope := [.unknown, .publicScope, .privateScope, .protectedScope]

def Scope.ofWord? (word : String) : Option Scope :=
  all.find? (·.word = word)

def Direction.word : Direction → String
  | .unknown => "Unknown"
  | .input => "In"
  | .output => "Out"
  | .inputOutput => "InOut"

def Direction.all : List Direction := [.unknown, .input, .output, .inputOutput]

def Direction.ofWord? (word : String) : Option Direction :=
  all.find? (·.word = word)

theorem ClassKind.ofWord?_word (k : ClassKind) : ofWord? k.word = some k := by
  cases k <;> decide

theorem Scope.ofWord?_word (s : Scope) : ofWord? s.word = some s := by
  cases s <;> decide

theorem Direction.ofWord?_word (d : Direction) : ofWord? d.word = some d := by
  cases d <;> decide

end InterfaceCatalog
