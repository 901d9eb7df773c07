import H5GG.GlobalView.ImageTransfer
import H5GG.Modules
import H5GG.WriteMemory

/-!
# The memory that is shared with SpringBoard

`H5GGSetGlobalView` of `Tweak.mm`, with what the kernel answers while one call runs. A name that is
nil, of a process or of an image, ends a call, and the process with it.
-/

namespace H5GG

def GV_CAPABILITY_ALL : Nat := 31

def sizeofGVData : Nat := 112

/-- `offsetof(GVData, enable)`. -/
def enableOffset : Nat := 24

def GVDataIsCompatible (header : GVProtocolHeader) (availableSize requiredCapabilities : Nat) :
    Bool :=
  sizeofGVProtocolHeader ≤ availableSize &&
    headerIsCompatible header availableSize sizeofGVData requiredCapabilities

def wordAt (memory : Nat → UInt8) (address width : Nat) : Nat :=
  Word.ofLittleEndian ((List.range width).map fun i => memory (address + i))

/-- The header that lies at an address. -/
def headerAt (memory : Nat → UInt8) (address : Nat) : GVProtocolHeader where
  magic := wordAt memory address 4
  version := wordAt memory (address + 4) 2
  headerSize := wordAt memory (address + 6) 2
  totalSize := wordAt memory (address + 8) 4
  reserved := wordAt memory (address + 12) 4
  capabilities := wordAt memory (address + 16) 8

/-- `scanHexLongLong:`, which leaves a text without digits alone. -/
def scanHexLongLong (text : NSString) : Nat :=
  let text := (text.utf8.getD []).dropWhile isSpace
  let digits := match text with
    | 0x30 :: x :: rest =>
        if (x = 0x78 || x = 0x58) && rest.head?.any isXDigit then rest else 0x30 :: x :: rest
    | _ => text
  min (digitsValue 16 (digits.takeWhile isXDigit)) (2 ^ 64 - 1)

/-- `H5GGRemappedValue`, and where in the other task its mapping begins. -/
structure RemappedValue where
  mapping : Nat
  mappingSize : Nat
  value : Nat
  base : Nat
  deriving DecidableEq, Repr

/-- What the kernel answers about SpringBoard while one call runs. -/
structure SpringBoard where
  processes : Option (List KinfoProc)
  taskForPid : Option Nat
  task : TaskImages
  /-- Where the first and the second `vm_remap` of so many bytes at an address end up. -/
  remap : Nat → Nat → Nat → Option Nat
  memory : Nat → UInt8
  placed : ∀ k base size buffer, remap k base size = some buffer → buffer ≠ 0

structure GlobalViewCall where
  dylib : Option CString
  dataOffset : Nat
  imageOffset : Nat
  words : dataOffset < 2 ^ 64 ∧ imageOffset < 2 ^ 64
  springBoard : SpringBoard
  customIcon : Option Bytes
  bundledIcon : Bytes

structure GlobalView where
  /-- The mappings that were made and not given back. -/
  held : List RemappedValue := []
  ports : List Nat := []
  /-- `PGVSharedData` and `PGVSharedImage`, where they are no longer this process's own. -/
  shared : Option (RemappedValue × RemappedValue) := none
  /-- Where SpringBoard's memory was written to. -/
  enabled : List Nat := []
  offered : List Bytes := []
  deriving DecidableEq, Repr

section
variable (pageSize : Nat)

def h5ggRemapGlobal (remap : Nat → Nat → Option Nat) (moduleBase offset valueSize : Nat) :
    Option RemappedValue :=
  if valueSize = 0 ∨ 2 ^ 64 - 1 - offset < moduleBase then none
  else
    let address := moduleBase + offset
    if 2 ^ 64 - 1 - valueSize < address then none
    else
      let mapBase := pageBase pageSize address
      let bytesFromBase := address + valueSize - mapBase
      if 2 ^ 64 - 1 - (pageSize - 1) < bytesFromBase then none
      else
        let roundedSize := pageBase pageSize (bytesFromBase + (pageSize - 1))
        if roundedSize = 0 ∨ 2 ^ 64 - 1 < roundedSize then none
        else
          (remap mapBase roundedSize).map fun buffer =>
            ⟨buffer, roundedSize, buffer + (address - mapBase), mapBase⟩

/-- Where in SpringBoard's memory a value lies. -/
def RemappedValue.source (mapped : RemappedValue) : Nat :=
  mapped.base + (mapped.value - mapped.mapping)

def h5ggReleaseRemapping (mapped : Option RemappedValue) : EStateM NilInDictionary GlobalView Unit :=
  match mapped with
  | none => pure ()
  | some mapped =>
      if mapped.mapping ≠ 0 ∧ mapped.mappingSize ≠ 0 then
        modify fun view => { view with held := view.held.erase mapped }
      else pure ()

/-- The icon that `H5GGPublishButtonImage` takes. -/
def GlobalViewCall.icon (call : GlobalViewCall) : Option Bytes :=
  let iconData := match call.customIcon with
    | some icon => some icon
    | none => if call.bundledIcon.length ≤ GV_IMAGE_MAX_PAYLOAD then some call.bundledIcon else none
  iconData.filter fun data => data.length ≠ 0 && data.length ≤ GV_IMAGE_MAX_PAYLOAD

/-- From the two mappings on. -/
def adoptRemapped (call : GlobalViewCall) (dataMapping imageMapping : Option RemappedValue) :
    EStateM NilInDictionary GlobalView Unit := do
  match dataMapping, imageMapping with
  | some candidateData, some candidateImage =>
      let dataHeader := headerAt call.springBoard.memory candidateData.source
      let imageHeader := headerAt call.springBoard.memory candidateImage.source
      if (candidateData.value ≠ 0 && GVDataIsCompatible dataHeader sizeofGVData GV_CAPABILITY_ALL) &&
          (candidateImage.value ≠ 0 &&
            GVImageTransferIsCompatible { header := imageHeader } sizeofGVImageTransfer) then
        modify fun view =>
          { view with
            shared := some (candidateData, candidateImage)
            enabled := view.enabled ++ [candidateData.source + enableOffset]
            offered := view.offered ++ call.icon.toList }
      else
        h5ggReleaseRemapping (some candidateData)
        h5ggReleaseRemapping (some candidateImage)
  | dataMapping, imageMapping =>
      h5ggReleaseRemapping dataMapping
      h5ggReleaseRemapping imageMapping

/-- From the list of images on. -/
def adoptModule (call : GlobalViewCall) (sbtask : Nat) (modules : Option (List ModuleRange)) :
    EStateM NilInDictionary GlobalView Unit :=
  match modules with
  | none => throw .thrown
  | some [module] => do
      let moduleBase := scanHexLongLong (.ofAscii module.start)
      let dataMapping := h5ggRemapGlobal pageSize (call.springBoard.remap 0) moduleBase
        call.dataOffset sizeofGVData
      let imageMapping := h5ggRemapGlobal pageSize (call.springBoard.remap 1) moduleBase
        call.imageOffset sizeofGVImageTransfer
      modify fun view =>
        { view with
          held := view.held ++ (dataMapping.toList ++ imageMapping.toList)
          ports := view.ports.erase sbtask }
      adoptRemapped call dataMapping imageMapping
  | some _ => modify fun view => { view with ports := view.ports.erase sbtask }

def h5ggSetGlobalView (call : GlobalViewCall) : EStateM NilInDictionary GlobalView Unit := do
  let some dylib := call.dylib | return
  if dylib = [] then return
  let sbpid ← ofExcept (pidForName call.springBoard.processes (.ofAscii "SpringBoard"))
  if sbpid = 0 then return
  let some sbtask := call.springBoard.taskForPid | return
  modify fun view => { view with ports := sbtask :: view.ports }
  let filter := (NSString.stringWithUTF8String dylib).map lastPathComponent
  adoptModule pageSize call sbtask (getRangesList2 call.springBoard.task filter)

end

end H5GG
