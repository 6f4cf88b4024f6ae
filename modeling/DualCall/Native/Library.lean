import DualCall.Call.Run
import DualCall.FileTree

namespace DualCall

/-- The argument registers of a native call, with integers and addresses apart from floating-point
    numbers. -/
structure Registers where
  integers : List UInt64
  floats : List UInt64

namespace Registers

def ofScalars (args : List Scalar) : Registers where
  integers := args.filterMap fun
    | .f32 _ | .f64 _ => none
    | scalar => some (scalar.store 0)
  floats := args.filterMap fun
    | .f32 x => some (Scalar.store (.f32 x) 0)
    | .f64 x => some x.bits
    | _ => none

/-- A register that was not filled is read as zero. -/
def word (r : Registers) (i : Nat) : UInt64 := r.integers.getD i 0

def int32 (r : Registers) (i : Nat) : Int32 := (r.word i).toUInt32.toInt32

def int64 (r : Registers) (i : Nat) : Int64 := (r.word i).toInt64

def double (r : Registers) (i : Nat) : Signed := (Binary64.mk (r.floats.getD i 0)).decode

def single (r : Registers) (i : Nat) : Signed := (Binary32.mk (r.floats.getD i 0).toUInt32).decode

end Registers

namespace NativeFunction

/-- A function of its arguments alone. -/
def ofScalar (f : Registers → Scalar) : NativeFunction := fun args memory =>
  .finish ((f (.ofScalars args)).store 0) memory

def ofInt32 (f : Registers → Int32) : NativeFunction := ofScalar fun r => .i32 (f r)

def ofInt64 (f : Registers → Int64) : NativeFunction := ofScalar fun r => .i64 (f r)

def ofDouble (f : Registers → Signed) : NativeFunction := ofScalar fun r => .f64 (.encode (f r))

def ofSingle (f : Registers → Signed) : NativeFunction := ofScalar fun r => .f32 (.encode (f r))

/-- A function that works on the memory and returns a scalar. -/
def ofMemory (f : Registers → Memory → Scalar × Memory) : NativeFunction := fun args memory =>
  let (result, after) := f (.ofScalars args) memory
  .finish (result.store 0) after

/-- A function that only changes the memory. -/
def ofEffect (f : Registers → Memory → Memory) : NativeFunction := fun args memory =>
  .finish 0 (f (.ofScalars args) memory)

end NativeFunction

/-- The number of the lowest bit that is set, counted from one, or zero. -/
def lowestBit (word : Nat) : Nat :=
  if word = 0 then 0 else ((List.range 64).find? fun i => word.testBit i).elim 0 (· + 1)

/-- The bytes of a number in the opposite order. -/
def swapBytes (count word : Nat) : Nat :=
  (List.range count).foldl (fun total i => total * 256 + word >>> (8 * i) % 256) 0

/-- The lower-case form of an ASCII letter, by its code. -/
def lowerCode (c : Int32) : Int32 :=
  if 65 ≤ c ∧ c ≤ 90 then c + 32 else c

/-- The upper-case form of an ASCII letter, by its code. -/
def upperCode (c : Int32) : Int32 :=
  if 97 ≤ c ∧ c ≤ 122 then c - 32 else c

/-- The integer at the start of a text: blanks, a sign and digits; it is cut at the ends of the
    range of 64 bits, and its lower half is taken. -/
def leadingInteger (text : List UInt8) : Int32 :=
  let cs := (text.map fun byte => Char.ofNat byte.toNat).dropWhile fun c =>
    c = ' ' ∨ ('\t' ≤ c ∧ c ≤ '\x0d')
  let (negative, unsigned) := Text.takeSign cs
  let size : Int := Text.natOfDigits 10 (unsigned.takeWhile Text.isDigit)
  let number := if negative then -size else size
  Int32.ofInt (max Int64.minValue.toInt (min Int64.maxValue.toInt number))

/-- Merge two sorted lists, asking for the order of their first items; of equal ones the left
    comes first. `fuel` is at least the number of items. -/
def mergeRuns (order : UInt64 → UInt64 → Memory → NativeRun Int32) :
    Nat → List UInt64 → List UInt64 → Memory → NativeRun (List UInt64)
  | fuel + 1, x :: xs, y :: ys, memory =>
    (order x y memory).andThen fun result memory =>
      if result ≤ 0 then
        (mergeRuns order fuel xs (y :: ys) memory).andThen fun rest => .finish (x :: rest)
      else
        (mergeRuns order fuel (x :: xs) ys memory).andThen fun rest => .finish (y :: rest)
  | _, xs, ys, memory => .finish (xs ++ ys) memory

/-- Sort by halves. `fuel` is at least the number of items. -/
def sortRuns (order : UInt64 → UInt64 → Memory → NativeRun Int32) :
    Nat → List UInt64 → Memory → NativeRun (List UInt64)
  | fuel + 1, x :: y :: rest, memory =>
    let items := x :: y :: rest
    let half := items.length / 2
    (sortRuns order fuel (items.take half) memory).andThen fun left memory =>
      (sortRuns order fuel (items.drop half) memory).andThen fun right =>
        mergeRuns order items.length left right
  | _, items, memory => .finish items memory

/-- Sort items in memory by the code at an address, which is given the addresses of two items and
    returns their order as a sign. -/
def sortMemory (start : UInt64) (count size : Nat) (comparator : UInt64) (memory : Memory) :
    NativeRun UInt64 :=
  let order (x y : UInt64) (memory : Memory) : NativeRun Int32 :=
    .call comparator [.pointer x, .pointer y] memory fun slot memory =>
      .finish slot.toUInt32.toInt32 memory
  let items := (List.range count).map fun i => start + UInt64.ofNat (i * size)
  (sortRuns order count items memory).andThen fun sorted memory =>
    .finish 0 (memory.setBytes start (sorted.flatMap fun item => memory.bytes item size))

/-- A native function under its name. -/
structure Exported where
  name : String
  function : NativeFunction

namespace Library

open NativeFunction

/-- The functions of the C library. -/
def standard : List Exported := [
  ⟨"abs", ofInt32 fun r => if r.int32 0 < 0 then -r.int32 0 else r.int32 0⟩,
  ⟨"labs", ofInt64 fun r => if r.int64 0 < 0 then -r.int64 0 else r.int64 0⟩,
  ⟨"llabs", ofInt64 fun r => if r.int64 0 < 0 then -r.int64 0 else r.int64 0⟩,
  ⟨"ffs", ofInt32 fun r => Int32.ofNat (lowestBit (r.word 0).toUInt32.toNat)⟩,
  ⟨"ffsll", ofInt32 fun r => Int32.ofNat (lowestBit (r.word 0).toNat)⟩,
  ⟨"toupper", ofInt32 fun r => upperCode (r.int32 0)⟩,
  ⟨"tolower", ofInt32 fun r => lowerCode (r.int32 0)⟩,
  ⟨"htons", ofScalar fun r => .u16 (UInt16.ofNat (swapBytes 2 (r.word 0).toUInt16.toNat))⟩,
  ⟨"htonl", ofScalar fun r => .u32 (UInt32.ofNat (swapBytes 4 (r.word 0).toUInt32.toNat))⟩,
  ⟨"difftime", ofDouble fun r =>
    (Signed.ofInt .double (r.int64 0).toInt).sub .double (Signed.ofInt .double (r.int64 1).toInt)⟩,
  ⟨"copysign", ofDouble fun r => (r.double 0).copySign (r.double 1)⟩,
  ⟨"copysignf", ofSingle fun r => (r.single 0).copySign (r.single 1)⟩,
  ⟨"ldexp", ofDouble fun r => (r.double 0).scaleByPower .double (r.int32 0).toInt⟩,
  ⟨"ldexpf", ofSingle fun r => (r.single 0).scaleByPower .single (r.int32 0).toInt⟩,
  ⟨"memset", ofMemory fun r memory =>
    (.pointer (r.word 0),
      memory.setBytes (r.word 0) (List.replicate (r.word 2).toNat (r.word 1).toUInt8))⟩,
  ⟨"free", ofEffect fun _ memory => memory⟩,
  ⟨"strlen", ofMemory fun r memory =>
    (.u64 (UInt64.ofNat (memory.text (r.word 0)).length), memory)⟩,
  ⟨"strchr", ofMemory fun r memory =>
    let text := memory.text (r.word 0) ++ [0]
    (.pointer ((text.findIdx? (· == (r.word 1).toUInt8)).elim 0 fun i =>
      r.word 0 + UInt64.ofNat i), memory)⟩,
  ⟨"atoi", ofMemory fun r memory => (.i32 (leadingInteger (memory.text (r.word 0))), memory)⟩,
  ⟨"qsort", fun args memory =>
    let r := Registers.ofScalars args
    sortMemory (r.word 0) (r.word 1).toNat (r.word 2).toNat (r.word 3) memory⟩]

/-- The functions that are only in the mathematical library. -/
def mathematical : List Exported := [
  ⟨"sqrt", ofDouble fun r => (r.double 0).sqrt .double⟩,
  ⟨"sqrtf", ofSingle fun r => (r.single 0).sqrt .single⟩,
  ⟨"fabs", ofDouble fun r => ⟨false, (r.double 0).magnitude⟩⟩,
  ⟨"floor", ofDouble fun r => (r.double 0).floor .double⟩,
  ⟨"ceil", ofDouble fun r => (r.double 0).ceil .double⟩,
  ⟨"trunc", ofDouble fun r => (r.double 0).trunc .double⟩,
  ⟨"fmod", ofDouble fun r => (r.double 0).remainder .double (r.double 1)⟩]

/-- Every function that can be found by name. -/
def exported : List Exported := standard ++ mathematical

/-- Libraries that give no names but those of the C library, which they depend on. -/
def dependents : List String :=
  ["libdl.so.2", "libgcc_s.so.1", "libpthread.so.0", "librt.so.1", "libutil.so.1"]

/-- The names that can be found in a library, by its path. A library also gives the names of those
    it depends on, and the empty path stands for the process itself. -/
def loadable : List (String × List String) :=
  [("", standard.map (·.name)),
    ("libc.so.6", standard.map (·.name)),
    ("libm.so.6", exported.map (·.name))] ++
  dependents.map fun path => (path, standard.map (·.name))

/-- The address of the first function. -/
def start : UInt64 := 0x550000000000

/-- The distance of the addresses of two functions that follow each other. -/
def step : UInt64 := 0x10

/-- The address of the function at a place in a list. -/
def addressOf (start : UInt64) (place : Nat) : UInt64 :=
  start + UInt64.ofNat place * step

/-- The address of a function of a list by its name. -/
def addressIn? (start : UInt64) (functions : List Exported) (name : String) : Option UInt64 :=
  (functions.findIdx? (·.name = name)).map (addressOf start)

/-- The function of a list at an address. -/
def functionIn? (start : UInt64) (functions : List Exported) (address : UInt64) :
    Option NativeFunction :=
  ((List.range functions.length).find? fun place => addressOf start place == address).bind
    fun place => functions[place]?.map (·.function)

/-- The function at an address. -/
def function? (address : UInt64) : Option NativeFunction :=
  functionIn? start exported address

/-- A text as the system takes it: a null character ends it, which may be left out and may stand
    nowhere else. -/
def systemText (text : String) : Except String String :=
  let cs := text.toList
  if cs.getLast? = some '\x00' then
    if cs.dropLast.contains '\x00' then
      .error "could not create a C string from bytes with trailing null"
    else .ok (String.ofList cs.dropLast)
  else if cs.contains '\x00' then .error "could not create a C string from bytes"
  else .ok text

/-- The size of what stands at the start of every library, in bytes. -/
def headerSize : Nat := 64

/-- Why what a path leads to is no library. A directory can be opened but not read. -/
def refusal (path : String) : String :=
  match FileTree.standard.read path with
  | .error .isDirectory => "cannot read file data: " ++ FileError.isDirectory.reason
  | .error e => "cannot open shared object file: " ++ e.reason
  | .ok content =>
    if content.utf8ByteSize < headerSize then "file too short" else "invalid ELF header"

/-- The names that can be found in the library at a path, or why it cannot be loaded. -/
def load (path : String) : Except String (List String) :=
  match systemText path with
  | .error reason => .error reason
  | .ok wanted =>
    match loadable.find? (·.1 = wanted) with
    | some (_, names) => .ok names
    | none => .error (wanted ++ ": " ++ refusal wanted)

/-- The address of a function by its name, if it is among the names that can be found. -/
def addressAmong? (names : List String) (name : String) : Option UInt64 :=
  if names.contains name then addressIn? start exported name else none

/-- The pointer to a function by its name: among the functions of the process, which are those of
    the standard library, or in a library that is loaded for it. -/
def lookup (name : String) (library : Option String) : Except CallError NativePointer :=
  match library with
  | none =>
    match addressAmong? (standard.map (·.name)) name with
    | some address => .ok ⟨address, none⟩
    | none => .error (.native "symbol" ("'" ++ name ++ "' not found"))
  | some path =>
    match load path with
    | .error reason => .error (.native "load library" (path ++ ": " ++ reason))
    | .ok names =>
      let failure (reason : String) : Except CallError NativePointer :=
        .error (.native "symbol" ("'" ++ name ++ "' in " ++ path ++ ": " ++ reason))
      match systemText name with
      | .error reason => failure reason
      | .ok wanted =>
        match addressAmong? names wanted with
        | some address => .ok ⟨address, none⟩
        | none => failure ("undefined symbol: " ++ wanted)

end Library

end DualCall
