import H5GG.Library.Validation
import H5GG.MachO
import H5GG.NSString
import H5GG.TextEncoding

/-!
# Processes and their images

`getRunningProcess`, `pid_for_name` and `getRangesList2` of `crossproc.mm`, and `getRangesList:` of
`h5gg.mm`.
-/

namespace H5GG

/-- `stringWithUTF8String:`, which is nil for other bytes. -/
def NSString.stringWithUTF8String (text : CString) : Option NSString :=
  if h5ggIsValidUTF8 .allow text then some ⟨some text⟩ else none

/-- `basename`. -/
def basename (path : CString) : CString :=
  if path = [] then [0x2E]
  else
    let trimmed := path.reverse.dropWhile (· = 0x2F)
    if trimmed = [] then [0x2F] else (trimmed.takeWhile (· ≠ 0x2F)).reverse

/-- `lastPathComponent`, which there is of the empty path, too. -/
def lastPathComponent (path : NSString) : NSString :=
  ⟨path.utf8.map fun text => if text = [] then [] else basename text⟩

/-- One image as `dyld` knows it, with what the kernel answers about its header. -/
structure LoadedImage where
  address : Nat
  path : CString
  macho : MachoReads
  small : address < 2 ^ 64

/-- A dictionary of a list of ranges. -/
structure ModuleRange where
  name : NSString
  start : String
  stop : String
  deriving DecidableEq, Repr

/-- The dictionary for an image; `none` is the exception for a name that is nil. -/
def LoadedImage.range (image : LoadedImage) : Option ModuleRange := do
  let size ← getMachoVMSize image.macho
  let name ← NSString.stringWithUTF8String image.path
  let stop := if size ≠ 0 then u64 (image.address + size) else 0
  return { name, start := hexAddress image.address, stop := hexAddress stop }

def firstImage : NSString := .ofAscii "0"

def imageMatches (filter : Option NSString) (i : Nat) (image : LoadedImage) : Bool :=
  filter = none || (i = 0 && filter = some firstImage) ||
    (filter.isSome && filter = NSString.stringWithUTF8String (basename image.path))

/-- The loop over the images, from number `i` on. -/
def listImages (filter : Option NSString) : Nat → List LoadedImage → Option (List ModuleRange)
  | _, [] => some []
  | i, image :: rest =>
      if imageMatches filter i image then do
        let range ← image.range
        if i = 0 ∧ filter = some firstImage then return [range]
        else return range :: (← listImages filter (i + 1) rest)
      else listImages filter (i + 1) rest

/-- `sizeof(struct dyld_image_info64)`. -/
def imageInfoSize : Nat := 24

def pathMax : Nat := 1024

/-- An entry of another task's `infoArray`, and what is read at its path. -/
structure ImageInfo where
  address : Nat
  path : Option Bytes
  macho : MachoReads
  small : address < 2 ^ 64

def ImageInfo.image (info : ImageInfo) : LoadedImage where
  address := info.address
  path := (info.path.getD ("<Unknown>".toUTF8.toList ++ [0])).take (pathMax - 1) |>.takeWhile (· ≠ 0)
  macho := info.macho
  small := info.small

/-- What the kernel answers about another task: whether there is a `TASK_DYLD_INFO`, the number of
images, and the array of them. -/
structure TaskImages where
  dyldInfo : Bool
  infoArrayCount : Option Nat
  infoArray : Option (Nat → ImageInfo)

def getRangesList2 (task : TaskImages) (filter : Option NSString) : Option (List ModuleRange) :=
  if task.dyldInfo = false then some []
  else
    match task.infoArrayCount with
    | none => some []
    | some count =>
        if (2 ^ 32 - 1) / imageInfoSize < count then some []
        else
          match task.infoArray with
          | none => some []
          | some infos =>
              listImages filter 0 ((List.range count).map fun i => (infos i).image)

/-- `getRangesList:`: of this process by what `dyld` says here, of any other by what is read there. -/
def getRangesList (pid getpid : Int) (own : List LoadedImage) (task : TaskImages)
    (filter : Option NSString) : Option (List ModuleRange) :=
  if pid ≠ getpid then getRangesList2 task filter else listImages filter 0 own

/-- The exception for a nil in a dictionary. -/
inductive NilInDictionary
  | thrown
  deriving DecidableEq, Repr

/-- `p_pid` and `p_comm` of a `struct kinfo_proc`. The kernel cuts a name after 16 bytes, wherever
that is in a character. -/
structure KinfoProc where
  pid : Int
  comm : CString
  deriving DecidableEq, Repr

/-- A dictionary of the list of processes. -/
structure RunningProcess where
  pid : Int
  name : NSString
  deriving DecidableEq, Repr

def KinfoProc.dictionary (process : KinfoProc) : Except NilInDictionary RunningProcess := do
  let name ← Validation.accept (NSString.stringWithUTF8String process.comm) .thrown
  return { pid := process.pid, name }

/-- `getRunningProcess` by the table that the kernel hands out in the end. -/
def getRunningProcess (table : Option (List KinfoProc)) :
    Except NilInDictionary (Option (List RunningProcess)) :=
  match table with
  | none => pure none
  | some [] => pure none
  | some (first :: others) => some <$> (first :: others).reverse.mapM KinfoProc.dictionary

def pidForName (table : Option (List KinfoProc)) (name : NSString) : Except NilInDictionary Int := do
  let allproc ← getRunningProcess table
  return ((allproc.getD []).find? (·.name = name)).elim 0 (·.pid)

end H5GG
