import H5GG.Reader

/-!
# The size of an image in memory

`getMachoVMSize` of `crossproc.mm`. What it reads of another process is given; a read behind the end
of the load commands leaves no result.
-/

namespace H5GG

/-- A field of `width` bytes at `offset` of a buffer. -/
def loadField (buffer : Bytes) (offset width : Nat) : Option Nat :=
  if offset + width ≤ buffer.length then
    some (Word.ofLittleEndian ((buffer.drop offset).take width))
  else none

/-- The text that `%s` prints from `offset` on. -/
def loadText (buffer : Bytes) (offset : Nat) : Option Bytes :=
  let text := (buffer.drop offset).takeWhile (· ≠ 0)
  if offset + text.length < buffer.length then some text else none

abbrev LC_SEGMENT_64 : Nat := 0x19

/-- `sizeof` of `mach_header_64`, `load_command` and `segment_command_64`. -/
def machHeaderSize : Nat := 32
def loadCommandSize : Nat := 8
def segmentCommandSize : Nat := 72

/-- `(uint64_t)-1`, as long as no header segment is known. -/
abbrev noHeader : Nat := 2 ^ 64 - 1

/-- The fields of a `segment_command_64` that are looked at. -/
structure Segment where
  vmaddr : Nat
  vmsize : Nat
  fileoff : Nat
  filesize : Nat
  deriving DecidableEq, Repr

def loadSegment (commands : Bytes) (lc : Nat) : Option Segment := do
  let vmaddr ← loadField commands (lc + 24) 8
  let vmsize ← loadField commands (lc + 32) 8
  let fileoff ← loadField commands (lc + 40) 8
  let filesize ← loadField commands (lc + 48) 8
  return { vmaddr, vmsize, fileoff, filesize }

def Segment.isHeader (seg : Segment) : Bool := seg.fileoff = 0 && 0 < seg.filesize

def Segment.vmEnd (seg : Segment) (vmEnd : Nat) : Nat :=
  if seg.vmsize ≠ 0 && vmEnd < u64 (seg.vmaddr + seg.vmsize) then u64 (seg.vmaddr + seg.vmsize)
  else vmEnd

/-- The loop over the load commands, with `ncmds - i` of them to come: `vm_end` and `header_vaddr`
behind it. -/
def walkCommands (commands : Bytes) : Nat → Nat → Nat × Nat → Option (Nat × Nat)
  | 0, _, state => some state
  | remaining + 1, lc, (vmEnd, headerVaddr) =>
      if commands.length < lc + loadCommandSize then some (0, headerVaddr)
      else do
        let cmdsize ← loadField commands (lc + 4) 4
        if cmdsize < loadCommandSize || commands.length < lc + cmdsize then some (0, headerVaddr)
        else
          let cmd ← loadField commands lc 4
          if cmd = LC_SEGMENT_64 then
            if cmdsize < segmentCommandSize then some (0, headerVaddr)
            else
              let seg ← loadSegment commands lc
              if seg.isHeader then
                if headerVaddr ≠ noHeader then
                  -- The name goes into the log.
                  let _segname ← loadText commands (lc + 8)
                  some (0, headerVaddr)
                else walkCommands commands remaining (lc + cmdsize) (seg.vmEnd vmEnd, seg.vmaddr)
              else walkCommands commands remaining (lc + cmdsize) (seg.vmEnd vmEnd, headerVaddr)
          else walkCommands commands remaining (lc + cmdsize) (vmEnd, headerVaddr)

/-- What the kernel answers: whether a file lies behind the region, the header, whether there is
memory for the load commands, and the ones that are read. -/
structure MachoReads where
  vnode : Bool
  header : Option Bytes
  allocated : Bool
  commands : Option Bytes

/-- `vm_end`, less the header's address where one is known. -/
def machoSize : Nat × Nat → Nat
  | (vmEnd, headerVaddr) =>
      if vmEnd ≠ 0 && headerVaddr ≠ noHeader then (2 ^ 64 + vmEnd - headerVaddr) % 2 ^ 64 else vmEnd

def getMachoVMSize (reads : MachoReads) : Option Nat :=
  if reads.vnode = false then some 0
  else
    match reads.header with
    | none => some 0
    | some header =>
        if header.length ≠ machHeaderSize then some 0
        else do
          let ncmds ← loadField header 16 4
          let sizeofcmds ← loadField header 20 4
          if sizeofcmds < loadCommandSize then some 0
          else if reads.allocated = false then some 0
          else
            match reads.commands with
            | none => some 0
            | some commands => (walkCommands commands ncmds 0 (0, noHeader)).map machoSize

end H5GG
