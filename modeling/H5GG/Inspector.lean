import H5GG.Editing
import H5GG.MemoryPage
import H5GG.PointerSearch

/-!
# Looking at memory

`readPointer`, `readBytes`, `readMemoryPage` and `findPointers` of `h5gg.mm`.
-/

namespace H5GG

/-- `%02X `. -/
def hexByte (byte : UInt8) : CString :=
  let digit := fun n : Nat => UInt8.ofNat (n.digitChar.toUpper).toNat
  [digit (byte.toNat / 16), digit (byte.toNat % 16), 0x20]

/-- The loop of `readBytes` from index `i` on: lines of 16 in groups of 8. -/
def hexDump : Nat → Bytes → CString
  | _, [] => []
  | i, byte :: rest =>
      (if 0 < i ∧ i % 16 = 0 then [0x0A] else if 0 < i ∧ i % 8 = 0 then [0x20] else []) ++
        (hexByte byte ++ hexDump (i + 1) rest)

/-- What `readMemoryPage` returns, a byte that cannot be read as `null`. -/
inductive PageReply
  | error (error : String)
  | page (address : String) (length readable : Nat) (complete : Bool) (bytes : List (Option Nat))
  deriving DecidableEq, Repr

/-- The defaults of `JJReadMemoryPage` and `JJFindPointers`. -/
def pageChunkSize : Nat := 16
def pointerSearchOptions : JJPointerSearchOptions := {}

/-- The regions that `JJFindPointers` collects. -/
def pointerSearchRegions (memory : Target) : List JJPointerSearchRegion :=
  memory.regions.entries.attach.map fun region =>
    ⟨region.1.1, region.1.2, by
      have := (memory.regions.bounded region.1 region.2).2
      omega⟩

namespace MemorySession

def readPointer (reader : MemoryReader) (address : Option NSString) : String :=
  match (parseTarget address).bind (reader.readValue · SearchType.uLong.code) with
  | none => ""
  | some val =>
      let ptr := Word.ofLittleEndian val
      if ptr = 0 then "" else hexAddress ptr

def readBytes (reader : MemoryReader) (address : Option NSString) (length : Int) : CString :=
  match parseTarget address with
  | none => []
  | some addr =>
      let length := if length ≤ 0 ∨ 4096 < length then 256 else length
      hexDump 0 (reader.readBytes addr (min length.toNat 4096))

/-- `none` stands for an exception of `JJReadMemoryPage`, which nothing here catches. -/
def readMemoryPage (readers : Nat → MemoryReader) (address : Option NSString) (length : Int) :
    Option PageReply :=
  match FreezerController.parseAddress address with
  | none => some (.error "invalid-address")
  | some addr =>
      let length := if length ≤ 0 then 256 else length
      let length := min length 4096
      if (2 ^ 64 - 1 - addr : Int) < length - 1 then some (.error "address-range-overflow")
      else
        (jjReadMemoryPage readers addr length.toNat pageChunkSize).map fun (_, page) =>
          .page (hexAddress addr) page.bytes.length page.readableCount page.complete
            (page.bytes.map fun byte => if byte < 0 then none else some byte.toNat)

/-- Every answer of the reader is the target's; `none` is a search that the arithmetic fails. -/
def findPointers (system : System) (sorting : RegionSort) (fuel : Nat)
    (address rangeStart rangeEnd : Option NSString) : Option (List (String × String)) :=
  let parsed := do
    let addr ← FreezerController.parseAddress address
    let start ← (NSString.utf8String rangeStart).bind (jjParseAddress · 16)
    let endAddr ← (NSString.utf8String rangeEnd).bind (jjParseAddress · 16)
    if addr = 0 ∨ endAddr ≤ start then none else some (addr, start, endAddr)
  match parsed with
  | none => some []
  | some (addr, start, endAddr) =>
      (jjFindExactPointers (.checked 64) sorting fuel addr start endAddr
          (pointerSearchRegions system.memory) (fun _ => system.memory.reader)
          pointerSearchOptions).map fun found =>
        found.results.map fun pointer => (hexAddress pointer.1, hexAddress pointer.2)

end MemorySession

end H5GG
