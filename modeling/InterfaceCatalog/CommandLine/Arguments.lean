import InterfaceCatalog.Files.Path

namespace InterfaceCatalog

structure Arguments where
  directories : List Path := []
  settingsFile : Option Path := none
  scansSystem : Bool := false
  className : Option String := none
  listsAll : Bool := false

/-- Why arguments are not understood. Asking for help ends the reading in the same way. -/
inductive UsageFault where
  | unknownArgument (text : String)
  | invalidValue (option : String)
  | excessValue (option : String)
  | repeated (option : String)
  | help
  deriving DecidableEq

def UsageFault.message : UsageFault → String
  | unknownArgument text => s!"unexpected argument `{text}`"
  | invalidValue option => s!"`{option}` needs a value"
  | excessValue option => s!"`{option}` takes no value"
  | repeated option => s!"`{option}` is given more than once"
  | help => ""

inductive Flag where
  | system | list | help
  deriving DecidableEq

inductive ValueOption where
  | settingsFile | className
  deriving DecidableEq

inductive OptionName where
  | flag (f : Flag)
  | value (o : ValueOption)

def ValueOption.text : ValueOption → String
  | settingsFile => "--config"
  | className => "--class"

def Flag.text : Flag → String
  | system => "--system"
  | list => "--list"
  | help => "--help"

def OptionName.ofLong? : String → Option OptionName
  | "config" => some (.value .settingsFile)
  | "class" => some (.value .className)
  | "system" => some (.flag .system)
  | "list" => some (.flag .list)
  | "help" => some (.flag .help)
  | _ => none

def OptionName.ofShort? : Char → Option OptionName
  | 'c' => some (.value .settingsFile)
  | 's' => some (.flag .system)
  | 'l' => some (.flag .list)
  | 'h' => some (.flag .help)
  | _ => none

/-- What was read last. It takes effect with the next option or at the end. -/
inductive PendingArgument where
  | none
  | directories (texts : List String)
  | awaiting (o : ValueOption)
  | given (o : ValueOption) (value : String)

structure ArgumentState where
  arguments : Arguments := {}
  pending : PendingArgument := .none

namespace ArgumentState

/-- A path that is given must not be empty. -/
def path? (option text : String) : Except UsageFault Path :=
  if text.isEmpty then .error (.invalidValue option) else .ok (.ofString text)

/-- Gives an option its value. An option is given once. -/
def setValue (a : Arguments) (o : ValueOption) (value : String) : Except UsageFault Arguments := do
  match o with
  | .settingsFile =>
    if a.settingsFile.isSome then throw (.repeated o.text)
    return { a with settingsFile := some (← path? o.text value) }
  | .className =>
    if a.className.isSome then throw (.repeated o.text)
    return { a with className := some value }

def setFlag (a : Arguments) (f : Flag) : Except UsageFault Arguments :=
  match f with
  | .help => .error .help
  | .system => if a.scansSystem then .error (.repeated f.text)
      else .ok { a with scansSystem := true }
  | .list => if a.listsAll then .error (.repeated f.text) else .ok { a with listsAll := true }

def settle (s : ArgumentState) : Except UsageFault Arguments :=
  match s.pending with
  | .none => .ok s.arguments
  | .awaiting o => .error (.invalidValue o.text)
  | .given o value => setValue s.arguments o value
  | .directories texts => do
    let paths ← texts.mapM (path? "directories")
    return { s.arguments with directories := s.arguments.directories ++ paths }

def readFlag (s : ArgumentState) (f : Flag) : Except UsageFault ArgumentState := do
  return { arguments := ← setFlag (← s.settle) f }

/-- An option that takes a value, which is attached to it or comes next. -/
def readValueOption (s : ArgumentState) (o : ValueOption) (attached : Option String) :
    Except UsageFault ArgumentState := do
  let arguments ← s.settle
  match attached with
  | some value => return { arguments := ← setValue arguments o value }
  | none => return { arguments, pending := .awaiting o }

def readLong (s : ArgumentState) (text : List Char) : Except UsageFault ArgumentState :=
  let name := String.ofList (text.takeWhile (· != '='))
  let attached := match text.dropWhile (· != '=') with
    | [] => none
    | _ :: value => some (String.ofList value)
  match OptionName.ofLong? name with
  | none => .error (.unknownArgument ("--" ++ name))
  | some (.value o) => s.readValueOption o attached
  | some (.flag f) => if attached.isSome then .error (.excessValue f.text) else s.readFlag f

/-- Options by their letters. The rest of the text after one that takes a value is its value. -/
def readShort (s : ArgumentState) : List Char → Except UsageFault ArgumentState
  | [] => .ok s
  | c :: rest =>
    match OptionName.ofShort? c with
    | none => .error (.unknownArgument (String.ofList ['-', c]))
    | some (.flag f) =>
      match s.readFlag f with
      | .error e => .error e
      | .ok s => s.readShort rest
    | some (.value o) =>
      match rest with
      | [] => s.readValueOption o none
      | '=' :: value => s.readValueOption o (some (String.ofList value))
      | value => s.readValueOption o (some (String.ofList value))

def readDirectory (s : ArgumentState) (text : String) : Except UsageFault ArgumentState :=
  match s.pending with
  | .directories texts => .ok { s with pending := .directories (texts ++ [text]) }
  | _ => do return { arguments := ← s.settle, pending := .directories [text] }

/-- A text that is no option: the value that an option waits for, or a directory. -/
def readPlain (s : ArgumentState) (text : String) : Except UsageFault ArgumentState :=
  match s.pending with
  | .awaiting o => .ok { s with pending := .given o text }
  | _ => s.readDirectory text

def readAll (s : ArgumentState) : List String → Except UsageFault ArgumentState
  | [] => .ok s
  | text :: texts => do
    match text.toList with
    | ['-', '-'] => texts.foldlM readDirectory s
    | '-' :: '-' :: name => (← s.readLong name).readAll texts
    | '-' :: c :: letters => (← s.readShort (c :: letters)).readAll texts
    | _ => (← s.readPlain text).readAll texts

end ArgumentState

def Arguments.usage : String :=
  "usage: [--config FILE] [--system] [--class NAME] [--list] [--help] [DIRECTORY...]"

def Arguments.read (texts : List String) : Except UsageFault Arguments := do
  (← ({} : ArgumentState).readAll texts).settle

end InterfaceCatalog
