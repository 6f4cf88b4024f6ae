import DualCall.Text.Blank

namespace DualCall

/-- The types of native arguments and results, on a machine of 64 bits whose `long` has 64 bits. -/
inductive NativeType where
  | void
  | bool
  | i8
  | u8
  | i16
  | u16
  | i32
  | u32
  | i64
  | u64
  | f32
  | f64
  /-- An address of data or of code, whatever it points to. -/
  | pointer
deriving DecidableEq, Inhabited, Repr

namespace NativeType

/-- The name under which a type is shown; it is also one of the names that are read. -/
def display : NativeType → String
  | .void => "void"
  | .bool => "bool"
  | .i8 => "int8"
  | .u8 => "uint8"
  | .i16 => "int16"
  | .u16 => "uint16"
  | .i32 => "int32"
  | .u32 => "uint32"
  | .i64 => "int64"
  | .u64 => "uint64"
  | .f32 => "float"
  | .f64 => "double"
  | .pointer => "pointer"

/-- The tag of a type in signature files and in debugging output. -/
def tag : NativeType → String
  | .void => "Void"
  | .bool => "Bool"
  | .i8 => "I8"
  | .u8 => "U8"
  | .i16 => "I16"
  | .u16 => "U16"
  | .i32 => "I32"
  | .u32 => "U32"
  | .i64 => "I64"
  | .u64 => "U64"
  | .f32 => "F32"
  | .f64 => "F64"
  | .pointer => "Pointer"

/-- Every type, once. -/
def all : List NativeType :=
  [.void, .bool, .i8, .u8, .i16, .u16, .i32, .u32, .i64, .u64, .f32, .f64, .pointer]

/-- The type with a given tag. -/
def ofTag? (text : String) : Option NativeType :=
  all.find? fun type => type.tag = text

/-- The names that are read as each type. -/
def names : NativeType → List String
  | .void => ["void"]
  | .bool => ["bool", "_Bool"]
  | .i8 => ["char", "signed char", "int8", "int8_t", "i8"]
  | .u8 => ["unsigned char", "uint8", "uint8_t", "u8"]
  | .i16 => ["short", "int16", "int16_t", "i16"]
  | .u16 => ["unsigned short", "uint16", "uint16_t", "u16"]
  | .i32 => ["int", "int32", "int32_t", "i32"]
  | .u32 => ["unsigned", "unsigned int", "uint32", "uint32_t", "u32"]
  | .i64 => ["long", "long long", "ssize_t", "ptrdiff_t", "int64", "int64_t", "i64"]
  | .u64 => ["unsigned long", "unsigned long long", "size_t", "uint64", "uint64_t", "u64"]
  | .f32 => ["float", "f32"]
  | .f64 => ["double", "f64"]
  | .pointer => ["pointer", "ptr", "intptr_t", "uintptr_t"]

/-- The type that has a name among its names. -/
def ofName? (name : String) : Option NativeType :=
  all.find? fun type => type.names.contains name

/-- The type that a text names. A text with a star anywhere names an address; otherwise the words
    of the text, whatever blanks separate them, are the name. -/
def read? (cs : List Char) : Option NativeType :=
  if '*' ∈ cs then some .pointer
  else ofName? (String.ofList (Text.unwords (Text.words cs)))

end NativeType

/-- A text that names no type, without the blanks at its ends. -/
structure UnknownType where
  name : String
deriving DecidableEq, Repr

def UnknownType.message (e : UnknownType) : String :=
  "unknown native type '" ++ e.name ++ "'"

/-- The type that a text names, or the text as an unknown name. -/
def NativeType.read (text : String) : Except UnknownType NativeType :=
  match read? text.toList with
  | some type => .ok type
  | none => .error ⟨String.ofList (Text.trim text.toList)⟩

end DualCall
