import H5GG.Reader

/-!
# Pages of memory

`MemoryPage.cpp`. The reader may answer the same request in another way each time, so its answers
are given call by call.
-/

namespace H5GG

/-- `JJMemoryPage`: a byte, or `-1` where none was read. -/
structure JJMemoryPage where
  address : Nat
  bytes : List Int
  deriving DecidableEq, Repr

namespace JJMemoryPage

def readableCount (page : JJMemoryPage) : Nat := page.bytes.countP fun value => 0 ≤ value

def complete (page : JJMemoryPage) : Bool := page.readableCount = page.bytes.length

end JJMemoryPage

/-- The bytes of `buffer` that were read go into the page at `offset`. -/
def putBytes (bytes : List Int) (offset : Nat) : Bytes → List Int
  | [] => bytes
  | byte :: buffer => putBytes (bytes.set offset byte.toNat) (offset + 1) buffer

/-- The loop that asks for the rest of a chunk byte by byte. The state is the number of calls so
far, and the page. -/
def readSingly (readers : Nat → MemoryReader) (address : Nat) :
    Nat → Nat → Nat × List Int → Nat × List Int
  | _, 0, state => state
  | offset, remaining + 1, (calls, bytes) =>
      readSingly readers address (offset + 1) remaining
        (calls + 1, match (readers calls).readExact (u64 (address + offset)) 1 with
          | some byte => putBytes bytes offset byte
          | none => bytes)

def readChunk (readers : Nat → MemoryReader) (address offset requested : Nat) :
    Nat × List Int → Nat × List Int
  | (calls, bytes) =>
      let buffer := (readers calls).readBytes (u64 (address + offset)) requested
      readSingly readers address (offset + buffer.length) (requested - buffer.length)
        (calls + 1, putBytes bytes offset buffer)

def readChunks (readers : Nat → MemoryReader) (address length chunkSize : Nat)
    (positive : 0 < chunkSize) (offset : Nat) (state : Nat × List Int) : Nat × List Int :=
  if offset < length then
    let requested := min chunkSize (length - offset)
    readChunks readers address length chunkSize positive (offset + requested)
      (readChunk readers address offset requested state)
  else state
termination_by length - offset
decreasing_by omega

theorem chunkSize_pos (chunkSize : Nat) : 0 < if chunkSize = 0 then 1 else chunkSize := by
  split <;> omega

/-- `max_size()` of a vector: what a `ptrdiff_t` counts the bytes of. -/
def vectorMaxSize (elementSize : Nat) : Nat := (2 ^ 63 - 1) / elementSize

/-- The number of calls to the reader, and the page. `none` is the `std::length_error` of a vector
that is asked for more than its `max_size()`: `page.bytes`, or the buffer of a chunk. -/
def jjReadMemoryPage (readers : Nat → MemoryReader) (address length chunkSize : Nat) :
    Option (Nat × JJMemoryPage) :=
  if vectorMaxSize 2 < length then none
  else
    let bytes := List.replicate length (-1)
    if length = 0 || 2 ^ 64 - 1 - address < length - 1 then some (0, ⟨address, bytes⟩)
    else if vectorMaxSize 1 < if chunkSize = 0 then 1 else chunkSize then none
    else
      let read := readChunks readers address length _ (chunkSize_pos chunkSize) 0 (0, bytes)
      some (read.1, ⟨address, read.2⟩)

end H5GG
