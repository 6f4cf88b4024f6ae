namespace DualCall

structure Block where
  start : UInt64
  bytes : List UInt8
deriving DecidableEq, Repr

/-- Bytes outside every block read as zero, and writing them has no effect. Numbers are stored with
    their low bytes first. -/
structure Memory where
  blocks : List Block := []
deriving DecidableEq, Repr, Inhabited

namespace Block

def contains (block : Block) (address : UInt64) : Bool :=
  (address - block.start).toNat < block.bytes.length

/-- The bytes of words, one after the other. -/
def bytesOfWords (words : List UInt64) : List UInt8 :=
  words.flatMap fun word => (List.range 8).map fun i => UInt8.ofNat (word.toNat >>> (8 * i))

end Block

namespace Memory

def byte (m : Memory) (address : UInt64) : UInt8 :=
  match m.blocks.find? (·.contains address) with
  | some block => block.bytes.getD (address - block.start).toNat 0
  | none => 0

def setByte (m : Memory) (address : UInt64) (value : UInt8) : Memory :=
  ⟨m.blocks.map fun block =>
    if block.contains address then
      { block with bytes := block.bytes.set (address - block.start).toNat value }
    else block⟩

/-- The number stored in `count` bytes. -/
def number (m : Memory) (address : UInt64) : Nat → Nat
  | 0 => 0
  | count + 1 => (m.byte address).toNat + 256 * number m (address + 1) count

/-- The signed number stored in four bytes. -/
def int32 (m : Memory) (address : UInt64) : Int32 :=
  (UInt32.ofNat (m.number address 4)).toInt32

/-- The bytes from an address on. -/
def bytes (m : Memory) (address : UInt64) (count : Nat) : List UInt8 :=
  (List.range count).map fun i => m.byte (address + UInt64.ofNat i)

def setBytes (m : Memory) (address : UInt64) : List UInt8 → Memory
  | [] => m
  | value :: rest => setBytes (m.setByte address value) (address + 1) rest

/-- Store a signed number in four bytes. -/
def setInt32 (m : Memory) (address : UInt64) (value : Int32) : Memory :=
  m.setBytes address
    ((List.range 4).map fun i => UInt8.ofNat (value.toUInt32.toNat >>> (8 * i)))

/-- The number of bytes in all blocks. -/
def size (m : Memory) : Nat :=
  m.blocks.foldl (fun total block => total + block.bytes.length) 0

/-- The bytes from an address up to the first that is zero. No text is longer than all blocks. -/
def text (m : Memory) (address : UInt64) : List UInt8 :=
  (m.bytes address (m.size + 1)).takeWhile (· != 0)

/-- The words of the block that starts at an address. -/
def words (m : Memory) (start : UInt64) : List UInt64 :=
  match m.blocks.find? (·.start == start) with
  | none => []
  | some block =>
    (List.range (block.bytes.length / 8)).map fun i =>
      UInt64.ofNat (m.number (start + UInt64.ofNat (8 * i)) 8)

end Memory

end DualCall
