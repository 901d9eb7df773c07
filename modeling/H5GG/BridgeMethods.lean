import H5GG.NSString
import H5GG.Library.Validation

/-!
# Methods of the bridge

`BridgeMethods.cpp`, and from `FloatMenu.mm` how a message comes to a call of the engine.
-/

namespace H5GG

/-- A `double`. -/
inductive BridgeNumber
  | finite (value : Rat)
  | infinite (negative : Bool)
  | nan
  deriving DecidableEq, Repr

/-- What a script message may hold. -/
inductive BridgeValue
  | null
  | boolean (value : Bool)
  | number (value : BridgeNumber)
  | string (text : NSString)
  | array (items : List BridgeValue)
  | object (entries : List (NSString × BridgeValue))
  | date (seconds : Int)
  deriving Repr

inductive H5GGBridgeValueKind
  | null
  | boolean
  | number
  | string
  | array
  | object
  deriving DecidableEq, Repr

namespace H5GGBridgeValueKind

def code : H5GGBridgeValueKind → UInt8
  | null => (1 : UInt8) <<< 0
  | boolean => (1 : UInt8) <<< 1
  | number => (1 : UInt8) <<< 2
  | string => (1 : UInt8) <<< 3
  | array => (1 : UInt8) <<< 4
  | object => (1 : UInt8) <<< 5

end H5GGBridgeValueKind

namespace BridgeValue

/-- `H5GGBridgeKindForValue`; what is of none of the classes is of kind 0. -/
def kind : BridgeValue → Option H5GGBridgeValueKind
  | null => some .null
  | boolean _ => some .boolean
  | number _ => some .number
  | string _ => some .string
  | array _ => some .array
  | object _ => some .object
  | date _ => none

def numberValue : BridgeValue → BridgeNumber
  | number value => value
  | _ => .finite 0

end BridgeValue

structure H5GGBridgeArgument where
  allowedKinds : UInt8
  integerOnly : Bool := false
  minimum : Option Rat := none
  maximum : Option Rat := none
  allowedNumbers : List Rat := []
  deriving DecidableEq, Repr

namespace H5GGBridgeArgument
open H5GGBridgeValueKind

def accepts (argument : H5GGBridgeArgument) (kind : Option H5GGBridgeValueKind)
    (numberValue : BridgeNumber) : Bool :=
  if argument.allowedKinds &&& (kind.map code).getD 0 == 0 then false
  else if kind != some .number then true
  else match numberValue with
    | .infinite _ => false
    | .nan => false
    | .finite value =>
        if argument.integerOnly && value.den != 1 then false
        else if argument.minimum.any (value < ·) then false
        else if argument.maximum.any (· < value) then false
        else argument.allowedNumbers.isEmpty || argument.allowedNumbers.contains value

def string : H5GGBridgeArgument := { allowedKinds := code .string }

def optionalString : H5GGBridgeArgument := { allowedKinds := code .string ||| code .null }

def optionalArray : H5GGBridgeArgument := { allowedKinds := code .array ||| code .null }

def array : H5GGBridgeArgument := { allowedKinds := code .array }

def nonnegativeNumber : H5GGBridgeArgument :=
  { allowedKinds := code .number, minimum := some 0 }

def positiveInteger : H5GGBridgeArgument :=
  { allowedKinds := code .number, integerOnly := true, minimum := some 1, maximum := some 2147483647 }

def nonnegativeInteger : H5GGBridgeArgument :=
  { allowedKinds := code .number, integerOnly := true, minimum := some 0, maximum := some 2147483647 }

def memoryPageLength : H5GGBridgeArgument :=
  { allowedKinds := code .number, integerOnly := true, minimum := some 1, maximum := some 4096 }

def filterMode : H5GGBridgeArgument :=
  { allowedKinds := code .number, integerOnly := true, allowedNumbers := [0, 2, 3] }

end H5GGBridgeArgument

structure H5GGBridgeMethod where
  name : String
  selector : String
  minimumArguments : Nat
  maximumArguments : Nat
  arguments : List H5GGBridgeArgument
  deriving DecidableEq, Repr

namespace H5GGBridgeMethod

def acceptsArgumentCount (method : H5GGBridgeMethod) (count : Nat) : Bool :=
  method.minimumArguments ≤ count && count ≤ method.maximumArguments

/-- The arguments behind those that the table lists are zero and allow no kind. -/
def acceptsArgument (method : H5GGBridgeMethod) (index : Nat) (kind : Option H5GGBridgeValueKind)
    (numberValue : BridgeNumber) : Bool :=
  index < method.maximumArguments &&
    (method.arguments[index]?.getD { allowedKinds := 0 }).accepts kind numberValue

end H5GGBridgeMethod

open H5GGBridgeArgument in
/-- `kBridgeMethods`. -/
def h5ggBridgeMethods : List H5GGBridgeMethod := [
  ⟨"searchNumber", "searchNumber:param2:param3:param4:", 4, 4, [string, string, string, string]⟩,
  ⟨"searchNearby", "searchNearby:param2:param3:", 3, 3, [string, string, string]⟩,
  ⟨"getValue", "getValue:param2:", 2, 2, [string, string]⟩,
  ⟨"setValue", "setValue:param2:param3:", 3, 3, [string, string, string]⟩,
  ⟨"editAll", "editAll:param3:", 2, 2, [string, string]⟩,
  ⟨"getResults", "getResults:param1:", 1, 2, [positiveInteger, nonnegativeInteger]⟩,
  ⟨"getResultsCount", "getResultsCount", 0, 0, []⟩,
  ⟨"clearResults", "clearResults", 0, 0, []⟩,
  ⟨"getLocalScripts", "getLocalScripts", 0, 0, []⟩,
  ⟨"pickScriptFile", "pickScriptFileWithTypes:", 0, 1, [optionalArray]⟩,
  ⟨"getRangesList", "getRangesList:", 0, 1, [optionalString]⟩,
  ⟨"getProcList", "getProcList:", 0, 1, [optionalString]⟩,
  ⟨"setTargetProc", "setTargetProc:", 1, 1, [positiveInteger]⟩,
  ⟨"getTargetStatus", "getTargetStatus", 0, 0, []⟩,
  ⟨"loadPlugin", "loadPlugin:path:", 2, 2, [string, string]⟩,
  ⟨"callPlugin", "callPlugin:method:arguments:", 3, 3, [string, string, array]⟩,
  ⟨"getPluginCapabilities", "getPluginCapabilities", 0, 0, []⟩,
  ⟨"makeTweak", "makeTweak:with:", 2, 2, [string, string]⟩,
  ⟨"require", "require:", 1, 1, [nonnegativeNumber]⟩,
  ⟨"setFloatTolerance", "setFloatTolerance:", 1, 1, [string]⟩,
  ⟨"searchChange", "searchChange:", 1, 1, [string]⟩,
  ⟨"searchFilter", "searchFilter:type:mode:", 3, 3, [string, string, filterMode]⟩,
  ⟨"getInputHistory", "getInputHistory", 0, 0, []⟩,
  ⟨"addInputHistory", "addInputHistory:", 1, 1, [string]⟩,
  ⟨"clearInputHistory", "clearInputHistory", 0, 0, []⟩,
  ⟨"addBookmark", "addBookmark:name:type:", 3, 3, [string, string, string]⟩,
  ⟨"removeBookmark", "removeBookmark:", 1, 1, [string]⟩,
  ⟨"getBookmarks", "getBookmarks", 0, 0, []⟩,
  ⟨"clearBookmarks", "clearBookmarks", 0, 0, []⟩,
  ⟨"freezeValue", "freezeValue:value:type:", 3, 3, [string, string, string]⟩,
  ⟨"unfreezeValue", "unfreezeValue:", 1, 1, [string]⟩,
  ⟨"getFrozenValues", "getFrozenValues", 0, 0, []⟩,
  ⟨"clearFrozenValues", "clearFrozenValues", 0, 0, []⟩,
  ⟨"searchHex", "searchHex:memoryFrom:memoryTo:", 3, 3, [string, string, string]⟩,
  ⟨"getSearchHistory", "getSearchHistory", 0, 0, []⟩,
  ⟨"addSearchHistory", "addSearchHistory:type:count:", 3, 3, [string, string, nonnegativeInteger]⟩,
  ⟨"clearSearchHistory", "clearSearchHistory", 0, 0, []⟩,
  ⟨"dumpMemory", "dumpMemory:end:filename:", 3, 3, [string, string, string]⟩,
  ⟨"getDumpStatus", "getDumpStatus", 0, 0, []⟩,
  ⟨"cancelDump", "cancelDump", 0, 0, []⟩,
  ⟨"readPointer", "readPointer:", 1, 1, [string]⟩,
  ⟨"findPointers", "findPointers:rangeStart:rangeEnd:", 3, 3, [string, string, string]⟩,
  ⟨"getPointerCapabilities", "getPointerCapabilities", 0, 0, []⟩,
  ⟨"appendLog", "appendLog:", 1, 1, [string]⟩,
  ⟨"readBytes", "readBytes:length:", 2, 2, [string, memoryPageLength]⟩,
  ⟨"readMemoryPage", "readMemoryPage:length:", 1, 2, [string, memoryPageLength]⟩,
  ⟨"saveScript", "saveScript:content:", 2, 2, [string, string]⟩,
  ⟨"loadScript", "loadScript:", 1, 1, [string]⟩,
  ⟨"deleteScript", "deleteScript:", 1, 1, [string]⟩,
  ⟨"listScripts", "listScripts", 0, 0, []⟩,
  ⟨"getLastFileError", "getLastFileError", 0, 0, []⟩,
  ⟨"copyText", "copyText:", 1, 1, [string]⟩]

def cString (text : String) : CString := text.toList.map fun c => UInt8.ofNat c.toNat

def h5ggBridgeMethodNamed (name : Option CString) : Option H5GGBridgeMethod :=
  name.bind fun name => h5ggBridgeMethods.find? (cString ·.name == name)

/-! ## The engine's end -/

/-- `@encode(id)`, `@encode(int)` and `@encode(double)`. -/
inductive ParameterType
  | object
  | int
  | double
  deriving DecidableEq, Repr

open ParameterType in
/-- The parameters of the methods of `h5ggEngine` that the table has selectors of. -/
def h5ggEngineSignatures : List (String × List ParameterType) := [
  ("require:", [double]),
  ("copyText:", [object]),
  ("getProcList:", [object]),
  ("setTargetProc:", [int]),
  ("getTargetStatus", []),
  ("setFloatTolerance:", [object]),
  ("clearResults", []),
  ("searchChange:", [object]),
  ("getResultsCount", []),
  ("getResults:param1:", [int, int]),
  ("searchNumber:param2:param3:param4:", [object, object, object, object]),
  ("searchNearby:param2:param3:", [object, object, object]),
  ("getValue:param2:", [object, object]),
  ("setValue:param2:param3:", [object, object, object]),
  ("editAll:param3:", [object, object]),
  ("getRangesList:", [object]),
  ("getLocalScripts", []),
  ("pickScriptFileWithTypes:", [object]),
  ("makeTweak:with:", [object, object]),
  ("loadPlugin:path:", [object, object]),
  ("callPlugin:method:arguments:", [object, object, object]),
  ("getPluginCapabilities", []),
  ("getInputHistory", []),
  ("addInputHistory:", [object]),
  ("clearInputHistory", []),
  ("addBookmark:name:type:", [object, object, object]),
  ("removeBookmark:", [object]),
  ("getBookmarks", []),
  ("clearBookmarks", []),
  ("freezeValue:value:type:", [object, object, object]),
  ("unfreezeValue:", [object]),
  ("getFrozenValues", []),
  ("clearFrozenValues", []),
  ("getSearchHistory", []),
  ("addSearchHistory:type:count:", [object, object, int]),
  ("clearSearchHistory", []),
  ("searchHex:memoryFrom:memoryTo:", [object, object, object]),
  ("dumpMemory:end:filename:", [object, object, object]),
  ("getDumpStatus", []),
  ("cancelDump", []),
  ("appendLog:", [object]),
  ("readPointer:", [object]),
  ("readBytes:length:", [object, int]),
  ("readMemoryPage:length:", [object, int]),
  ("findPointers:rangeStart:rangeEnd:", [object, object, object]),
  ("getPointerCapabilities", []),
  ("saveScript:content:", [object, object]),
  ("loadScript:", [object]),
  ("deleteScript:", [object]),
  ("listScripts", []),
  ("getLastFileError", []),
  ("searchFilter:type:mode:", [object, object, int])]

/-- What a parameter is set to. -/
inductive BridgeArgument
  | object (value : Option BridgeValue)
  | int (value : Int)
  | double (value : BridgeNumber)
  deriving Repr

namespace BridgeNumber

/-- `intValue`, of a number in the range of `int`. -/
def intValue : BridgeNumber → Option Int
  | finite value => some (value.num.tdiv value.den)
  | _ => none

end BridgeNumber

/-- `_setInvocationArgument:atIndex:withType:value:`; `none` stands for the conversions that
strings, booleans and other objects have of their own, or lack. -/
def setInvocationArgument (type : ParameterType) (value : Option BridgeValue) :
    Option BridgeArgument :=
  match type, value with
  | .object, some .null => some (.object none)
  | .object, value => some (.object value)
  | .int, none | .int, some .null => some (.int 0)
  | .int, some (.number value) => value.intValue.map .int
  | .int, some _ => none
  | .double, none | .double, some .null => some (.double (.finite 0))
  | .double, some (.number value) => some (.double value)
  | .double, some _ => none

/-- `_invokeMethod:onObject:withArgs:error:` up to the call: a parameter without an argument is
set from `nil`. -/
def invocationArguments (types : List ParameterType) (args : List BridgeValue) :
    List (Option BridgeArgument) :=
  types.mapIdx fun index type => setInvocationArgument type args[index]?

namespace NSString

/-- `stringWithFormat:` of an ASCII text that ends in `%@`. -/
def format (start : String) (text : NSString) : NSString :=
  ⟨text.utf8.map (cString start ++ ·)⟩

end NSString

/-- The blocks that `setAction` has stored, by the number of their parameters, and whether the
engine is among the actions. -/
structure MenuActions where
  blocks : NSString → Option Nat
  engine : Bool

inductive Invocation
  | block (name : NSString) (args : List BridgeValue)
  | engine (selector : String) (arguments : List (Option BridgeArgument))
  deriving Repr

/-- The loop over the arguments in `_dispatchMethod:args:error:`, from `index` on. -/
def checkArguments (method : H5GGBridgeMethod) (methodName : NSString) :
    Nat → List BridgeValue → Except NSString Unit
  | _, [] => .ok ()
  | index, value :: rest =>
      if method.acceptsArgument index value.kind value.numberValue then
        checkArguments method methodName (index + 1) rest
      else .error (.format ("Invalid argument " ++ toString (index + 1) ++ " for ") methodName)

open Validation in
/-- `_dispatchMethod:args:error:` up to the call it makes. -/
def dispatchMethod (actions : MenuActions) (methodName : NSString) (args : List BridgeValue) :
    Except NSString Invocation :=
  match actions.blocks methodName with
  | some parameterCount => do
      require (parameterCount == args.length) (.format "Invalid argument count for " methodName)
      return .block methodName args
  | none => do
      let method ← accept (h5ggBridgeMethodNamed (NSString.utf8String methodName))
        (.format "Unknown bridge method: " methodName)
      require (method.acceptsArgumentCount args.length)
        (.format "Invalid argument count for " methodName)
      checkArguments method methodName 0 args
      require actions.engine (.ofAscii "H5GG engine is unavailable")
      let types ← accept (h5ggEngineSignatures.lookup method.selector)
        (.ofAscii ("Native method unavailable: " ++ method.name))
      return .engine method.selector (invocationArguments types args)

end H5GG
