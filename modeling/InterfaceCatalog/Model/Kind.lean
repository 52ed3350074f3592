namespace InterfaceCatalog

inductive FileKind where
  | interface | types
  deriving DecidableEq

inductive ClassKind where
  | unknown | regular | abstract | mixin | interface
  deriving DecidableEq

def ClassKind.cSuffix : ClassKind → String
  | .mixin => "MIXIN"
  | .interface => "INTERFACE"
  | .unknown | .regular | .abstract => "CLASS"

inductive FunctionKind where
  | unresolved | property | setter | getter | method | pointer
  deriving DecidableEq

inductive Scope where
  | unknown | publicScope | privateScope | protectedScope
  deriving DecidableEq

inductive Direction where
  | unknown | input | output | inputOutput
  deriving DecidableEq

inductive TypeKind where
  | unknown | void | regular | classType | undefined
  deriving DecidableEq

inductive TypedeclKind where
  | unknown | struct | opaqueStruct | enum | alias | functionPointer
  deriving DecidableEq

inductive VariableKind where
  | unknown | constant | global
  deriving DecidableEq

inductive DeclarationKind where
  | unknown | className | aliasName | structName | enumName | variableName
  deriving DecidableEq

def FunctionKind.all : List FunctionKind :=
  [.unresolved, .property, .setter, .getter, .method, .pointer]

def TypeKind.all : List TypeKind := [.unknown, .void, .regular, .classType, .undefined]

def TypedeclKind.all : List TypedeclKind :=
  [.unknown, .struct, .opaqueStruct, .enum, .alias, .functionPointer]

def VariableKind.all : List VariableKind := [.unknown, .constant, .global]

def DeclarationKind.all : List DeclarationKind :=
  [.unknown, .className, .aliasName, .structName, .enumName, .variableName]

/-- How a type is used: whether the receiver owns the value, may not change it, or gets a
pointer. -/
structure Qualifiers where
  owned : Bool
  isConst : Bool
  ptr : Bool
  deriving DecidableEq

inductive Builtin where
  | invalid
  | byte | ubyte | char | short | ushort | int | uint | long | ulong | llong | ullong
  | int8 | uint8 | int16 | uint16 | int32 | uint32 | int64 | uint64 | int128 | uint128
  | size | ssize | intptr | uintptr | ptrdiff | time
  | float | double | bool | void
  | accessor | array | iterator | hash | list | inarray | inlist | future
  | anyValue | anyValuePtr | mstring | string | stringshare | voidPtr | freeCallback
  deriving DecidableEq

namespace Builtin

def table : List (Builtin × String × String) :=
  [(invalid, "", ""),
    (byte, "byte", "signed char"), (ubyte, "ubyte", "unsigned char"), (char, "char", "char"),
    (short, "short", "short"), (ushort, "ushort", "unsigned short"), (int, "int", "int"),
    (uint, "uint", "unsigned int"), (long, "long", "long"), (ulong, "ulong", "unsigned long"),
    (llong, "llong", "long long"), (ullong, "ullong", "unsigned long long"),
    (int8, "int8", "int8_t"), (uint8, "uint8", "uint8_t"), (int16, "int16", "int16_t"),
    (uint16, "uint16", "uint16_t"), (int32, "int32", "int32_t"), (uint32, "uint32", "uint32_t"),
    (int64, "int64", "int64_t"), (uint64, "uint64", "uint64_t"), (int128, "int128", "int128_t"),
    (uint128, "uint128", "uint128_t"), (size, "size", "size_t"), (ssize, "ssize", "ssize_t"),
    (intptr, "intptr", "intptr_t"), (uintptr, "uintptr", "uintptr_t"),
    (ptrdiff, "ptrdiff", "ptrdiff_t"), (time, "time", "time_t"), (float, "float", "float"),
    (double, "double", "double"), (bool, "bool", "Eina_Bool"), (void, "void", "void"),
    (accessor, "accessor", "Eina_Accessor *"), (array, "array", "Eina_Array *"),
    (iterator, "iterator", "Eina_Iterator *"), (hash, "hash", "Eina_Hash *"),
    (list, "list", "Eina_List *"), (inarray, "inarray", "Eina_Inarray *"),
    (inlist, "inlist", "Eina_Inlist *"), (future, "future", "Eina_Future *"),
    (anyValue, "any_value", "Eina_Value"), (anyValuePtr, "any_value_ptr", "Eina_Value *"),
    (mstring, "mstring", "char *"), (string, "string", "const char *"),
    (stringshare, "stringshare", "Eina_Stringshare *"), (voidPtr, "void_ptr", "void *"),
    (freeCallback, "__builtin_free_cb", "Eina_Free_Cb")]

def name (b : Builtin) : String :=
  ((table.lookup b).map (·.1)).getD ""

def cName (b : Builtin) : String :=
  ((table.lookup b).map (·.2)).getD ""

def number (b : Builtin) : Nat :=
  (table.findIdx? (·.1 = b)).getD 0

/-- The builtin type of a name. No name means the invalid one. -/
def ofName? (text : String) : Option Builtin :=
  (table.tail.find? fun (_, n, _) => n = text).map (·.1)

def parameterCount : Builtin → Nat
  | accessor | array | iterator | list | inarray | inlist | future => 1
  | hash => 2
  | _ => 0

def isContainer (b : Builtin) : Bool := 0 < b.parameterCount

end Builtin

end InterfaceCatalog
