import H5GG.Library.Validation
import H5GG.NSString
import H5GG.Session
import H5GG.Value.Format

/-!
# The search facade

The search and target calls of `h5gg.mm`, with what they alert when they turn a call away. Every
allocation succeeds.
-/

namespace H5GG
open Validation

/-- What the kernel answers while one call runs. -/
structure System where
  memory : Target
  getpid : Int
  running : Int → Bool
  /-- Whether `task_for_pid` succeeds, and the port it hands out. -/
  taskForPid : Int → Bool × Nat

abbrev Alert := Option String

structure TargetStatus where
  available : Bool
  pid : Int
  selected : Bool
  deriving DecidableEq, Repr

/-- A dictionary that `getResults` hands to the page. -/
structure ResultDictionary where
  address : String
  value : NSString
  type : String
  deriving DecidableEq, Repr

/-- One entry of `getResults`, its value before `formatValue`. -/
structure ShownResult where
  address : Nat
  value : Bytes
  type : String
  deriving DecidableEq, Repr

namespace MemorySession
variable (system : System)

def targetIsAvailable (session : MemorySession) : Bool :=
  session.target.valid &&
    (session.target.pid = system.getpid || system.running session.target.pid)

def invalidateTargetSession (_session : MemorySession) : MemorySession := create {}

def setTargetProc (pid : Int) (session : MemorySession) : Bool × MemorySession :=
  if pid ≤ 0 then (false, session)
  else
    let selected := pid = session.target.pid && session.target.valid
    if selected && targetIsAvailable system session then (true, session)
    else
      let session := if selected then invalidateTargetSession session else session
      let (success, port) := system.taskForPid pid
      if !success || port = 0 then (false, session) else (true, create ⟨pid, port⟩)

def getTargetStatus (session : MemorySession) : TargetStatus × MemorySession :=
  let available := targetIsAvailable system session
  let pid := session.target.pid
  (⟨available, pid, 0 < pid⟩,
    if !available && session.target.port ≠ 0 then invalidateTargetSession session else session)

def setFloatTolerance (value : Option NSString) (session : MemorySession) :
    Except Alert MemorySession := do
  let bits ← accept ((NSString.utf8String value).bind jjParseNonnegativeFloat)
    (some "浮点误差格式错误")
  return { session with engine := { session.engine with floatTolerance := bits } }

def clearResults (session : MemorySession) : MemorySession := session.replaceEngine .fresh

def searchChange (type : Option NSString) (session : MemorySession) :
    Except Alert MemorySession := do
  let changeType ← accept
    (if type = some (.ofAscii "Unchanged") then some ChangeType.unchanged
      else if type = some (.ofAscii "Changed") then some .changed
      else if type = some (.ofAscii "Increased") then some .increased
      else if type = some (.ofAscii "Decreased") then some .decreased
      else none)
    (some "无效的变更类型, 请使用: Unchanged/Changed/Increased/Decreased")
  require (session.engine.result.count ≠ 0) (some "当前列表为空, 请先执行搜索")
  let session :=
    { session with engine := session.engine.jjRefineByChange system.memory changeType }
  return session.markSearchDone session.lastSearchType

def parseRange (memoryFrom memoryTo : Option NSString) : Option AddrRange := do
  let start ← (NSString.utf8String memoryFrom).bind (jjParseAddress · 16)
  let stop ← (NSString.utf8String memoryTo).bind (jjParseAddress · 16)
  if stop ≤ start then none else some ⟨start, stop⟩

/-- The checks of `searchNumber`, up to its engine call. -/
def searchNumberRequest (value type memoryFrom memoryTo : Option NSString)
    (session : MemorySession) : Except Alert (AddrRange × List JJSearchValue × Int) := do
  require (NSString.nonempty value && NSString.nonempty type && NSString.nonempty memoryFrom &&
    NSString.nonempty memoryTo) (some "数值搜索:参数有误")
  let jjtype := jjTypeFromName (NSString.utf8String type)
  require (jjtype ≠ 0) (some "不支持的数值类型")
  let values ← accept ((NSString.utf8String value).bind (jjParseSearchExpression · jjtype))
    (some "数值格式错误或与类型不匹配")
  require (NSString.hasPrefix (.ofAscii "0x") memoryFrom &&
    NSString.hasPrefix (.ofAscii "0x") memoryTo) (some "搜索范围需以0x开头十六进制数")
  let range ← accept (parseRange memoryFrom memoryTo) (some "内存搜索范围格式错误")
  require (!(session.firstSearchDone && session.engine.result.count = 0))
    (some "改善搜索失败: 当前列表为空, 请清除后再重新开始搜索")
  return (range, values, jjtype)

def searchNumber (value type memoryFrom memoryTo : Option NSString) (session : MemorySession) :
    Except Alert MemorySession := do
  let (range, values, jjtype) ← searchNumberRequest value type memoryFrom memoryTo session
  let session :=
    { session with engine := session.engine.jjScanMemoryAny system.memory range values jjtype }
  return session.markSearchDone jjtype

/-- The checks of `searchNearby`, up to its engine call. -/
def searchNearbyRequest (value type range : Option NSString) (session : MemorySession) :
    Except Alert (Nat × JJSearchValue × Int) := do
  require (NSString.nonempty value && NSString.nonempty type && NSString.nonempty range)
    (some "邻近搜索:参数有误")
  require (NSString.hasPrefix (.ofAscii "0x") range) (some "邻近范围需以0x开头十六进制数")
  let jjtype := jjTypeFromName (NSString.utf8String type)
  require (jjtype ≠ 0) (some "不支持的数值类型")
  let values ← accept ((NSString.utf8String value).bind (jjParseSearchExpression · jjtype))
    (some "数值格式错误或与类型不匹配")
  let target ← accept (match values with | [target] => some target | _ => none)
    (some "数值格式错误或与类型不匹配")
  let searchRange ← accept ((NSString.utf8String range).bind (jjParseAddress · 16))
    (some "邻近范围格式错误")
  require (2 ≤ searchRange && searchRange ≤ 4096) (some "邻近范围只能在2~4096之间")
  require (session.engine.result.count ≠ 0)
    (some "邻近搜索错误: 当前列表为空, 请清除后再重新开始搜索")
  return (searchRange, target, jjtype)

def searchNearby (value type range : Option NSString) (session : MemorySession) :
    Except Alert MemorySession := do
  let (searchRange, target, jjtype) ← searchNearbyRequest value type range session
  let session :=
    { session with engine := session.engine.jjNearBySearch system.memory searchRange target jjtype }
  return session.markSearchDone jjtype

def searchHex (hex memoryFrom memoryTo : Option NSString) (session : MemorySession) :
    Except Alert MemorySession := do
  require (hex.isSome && memoryFrom.isSome && memoryTo.isSome) (some "十六进制搜索:参数有误")
  require (NSString.hasPrefix (.ofAscii "0x") memoryFrom &&
    NSString.hasPrefix (.ofAscii "0x") memoryTo) (some "搜索范围需以0x开头十六进制数")
  let range ← accept (parseRange memoryFrom memoryTo) (some "内存搜索范围格式错误")
  let hexStr ← accept (NSString.utf8String hex) (some "十六进制格式错误")
  require (jjParseMaskedHexPattern hexStr).isSome (some "十六进制格式错误")
  let session :=
    { session with engine := session.engine.jjScanHexMemory system.memory range hexStr }
  return session.markSearchDone SearchType.uByte.code

def searchFilter (value type : Option NSString) (mode : Int) (session : MemorySession) :
    Except Alert (Int × MemorySession) := do
  require (value.isSome && type.isSome) none
  require (session.engine.result.count ≠ 0) (some "当前列表为空")
  let jjtype := jjTypeFromName (NSString.utf8String type)
  require (jjtype ≠ 0) none
  let text ← accept (NSString.utf8String value) (some "数值格式错误或筛选模式无效")
  require ((FilterMode.ofCode? mode).isSome && (jjParseValue text jjtype).isSome)
    (some "数值格式错误或筛选模式无效")
  let session :=
    { session with engine := session.engine.jjFilterResults system.memory text jjtype mode }
  return (int32 session.engine.result.count, session)

def getResults (maxCount skipCount : Int) (session : MemorySession) : List ShownResult :=
  (session.engine.getResultsAndTypes maxCount skipCount).toList.map fun (address, jjtype) =>
    let resolvedType := if jjtype = 0 then int8 session.lastSearchType else jjtype
    { address
      value := ((system.memory.reader.readValue address resolvedType).getD []).rightpad 8 0
      type := jjTypeName resolvedType }

/-- `formatValue:byType:`, which returns `nil` after its alert. -/
def formatValue (value : Bytes) (type : Int) : Except Alert NSString := do
  let formatted ← accept (jjFormatValue value type) (some "不支持的数值类型")
  return ⟨some formatted⟩

/-- All of `getResults`. A missing value raises out of the dictionary literal it is put into. -/
def getResultDictionaries (maxCount skipCount : Int) (session : MemorySession) :
    Except Alert (List ResultDictionary) :=
  (session.engine.getResultsAndTypes maxCount skipCount).toList.mapM fun (address, jjtype) => do
    let resolvedType := if jjtype = 0 then int8 session.lastSearchType else jjtype
    let valuebuf := ((system.memory.reader.readValue address resolvedType).getD []).rightpad 8 0
    let value ← formatValue valuebuf resolvedType
    return { address := hexAddress address, value, type := jjTypeName resolvedType }

end MemorySession

inductive FacadeCall
  | setTargetProc (pid : Int)
  | getTargetStatus
  | setFloatTolerance (value : Option NSString)
  | clearResults
  | searchNumber (value type memoryFrom memoryTo : Option NSString)
  | searchNearby (value type range : Option NSString)
  | searchChange (type : Option NSString)
  | searchHex (hex memoryFrom memoryTo : Option NSString)
  | searchFilter (value type : Option NSString) (mode : Int)

namespace MemorySession

/-- The session that a call leaves. A call that is turned away changes nothing. -/
def call : System × FacadeCall → MemorySession → MemorySession
  | (system, .setTargetProc pid), session => (setTargetProc system pid session).2
  | (system, .getTargetStatus), session => (getTargetStatus system session).2
  | (_, .setFloatTolerance value), session => settle (setFloatTolerance value session) session
  | (_, .clearResults), session => clearResults session
  | (system, .searchNumber value type memoryFrom memoryTo), session =>
      settle (searchNumber system value type memoryFrom memoryTo session) session
  | (system, .searchNearby value type range), session =>
      settle (searchNearby system value type range session) session
  | (system, .searchChange type), session => settle (searchChange system type session) session
  | (system, .searchHex hex memoryFrom memoryTo), session =>
      settle (searchHex system hex memoryFrom memoryTo session) session
  | (system, .searchFilter value type mode), session =>
      settle ((searchFilter system value type mode session).map Prod.snd) session

end MemorySession

end H5GG
