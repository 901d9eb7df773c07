import Mathlib.Data.List.Basic

/-!
# Plugins

`PluginLoader.m`. What `dlopen`, the class resolver, the plugin's own code and `NSUUID` answer comes
with each call; `resolve` is `stringByAppendingPathComponent:` to the bundle path, where the path is
relative, and `stringByStandardizingPath`. The order in which a dictionary lists its values is not
defined, so `dealloc` takes it as a parameter.
-/

namespace H5GG

inductive PluginLoadMode
  | legacyObject
  | jsonRPC
  | unknown
  deriving DecidableEq, Repr

structure LibraryAnswer (Handle : Type) where
  handle : Option Handle
  error : Option String
  deriving Repr

/-- What the class resolver and `new` come to. -/
inductive Creation (Object : Type)
  | missing
  | throws (reason : String)
  | nothing
  | creates (object : Object) (conforms : Bool)
  deriving Repr

structure PluginRequest (Handle Object : Type) where
  className : String
  path : String
  mode : PluginLoadMode
  library : LibraryAnswer Handle
  creation : Creation Object
  uuid : String
  deriving Repr

inductive LoadReply (Object : Type)
  | failed (error : String)
  | object (object : Object)
  | loaded (id className : String)
  deriving DecidableEq, Repr

inductive InvokeAnswer (Json : Type)
  | throws (reason : String)
  | fails (description : String)
  | returns (result : Option Json) (serializable : Bool)
  deriving Repr

structure PluginCall (Json : Type) where
  pluginId : String
  method : String
  /-- `none` when they are no array. -/
  arguments : Option (List Json)
  serializable : Bool
  answer : InvokeAnswer Json
  deriving Repr

inductive CallReply (Json : Type)
  | failed (error : String)
  | result (value : Option Json)
  deriving DecidableEq, Repr

/-- `asked` are the paths the library loader was called with and the handles it gave, `created` the
objects whose ids were given out, `invoked` the objects that were called. -/
structure PluginLoader (Handle Object : Type) where
  libraryHandles : List (String × Handle) := []
  pluginObjects : List (String × Object) := []
  asked : List (String × Option Handle) := []
  created : List (String × Object) := []
  invoked : List (String × Object × String) := []
  closed : List Handle := []
  deriving Repr

/-- What `NSDictionary.allValues` answers: every value, in an order of its own. -/
structure AllValues (Handle : Type) where
  list : List (String × Handle) → List Handle
  perm : ∀ entries, (list entries).Perm (entries.map Prod.snd)

namespace PluginLoader
variable {Handle Object Json : Type}

/-- The first locked block of `loadPluginClass:path:mode:`. -/
def loadLibrary (path : String) (answer : LibraryAnswer Handle)
    (loader : PluginLoader Handle Object) : Option String × PluginLoader Handle Object :=
  match loader.libraryHandles.lookup path with
  | some _ => (none, loader)
  | none =>
      (answer.error, { loader with
        libraryHandles :=
          loader.libraryHandles ++ (answer.handle.map fun handle => (path, handle)).toList
        asked := loader.asked ++ [(path, answer.handle)] })

/-- The rest of it, from the class on. -/
def createPlugin (request : PluginRequest Handle Object) (loader : PluginLoader Handle Object) :
    LoadReply Object × PluginLoader Handle Object :=
  match request.creation with
  | .missing => (.failed "Plugin class was not found", loader)
  | .throws reason => (.failed reason, loader)
  | .nothing => (.failed "Plugin class could not be initialized", loader)
  | .creates object conforms =>
      if request.mode = .legacyObject then (.object object, loader)
      else if !conforms then
        (.failed "WK plugins must implement the H5GGPluginRPC protocol", loader)
      else
        (.loaded request.uuid request.className, { loader with
          pluginObjects := (request.uuid, object) :: loader.pluginObjects
          created := loader.created ++ [(request.uuid, object)] })

def loadPluginClass (resolve : String → String) (request : PluginRequest Handle Object)
    (loader : PluginLoader Handle Object) : LoadReply Object × PluginLoader Handle Object :=
  if request.className = "" ∨ request.path = "" then
    (.failed "Class name and dylib path are required", loader)
  else if request.mode = .unknown then (.failed "Unknown plugin load mode", loader)
  else
    let resolvedPath := resolve request.path
    match loader.loadLibrary resolvedPath request.library with
    | (some error, loader) => (.failed error, loader)
    | (none, loader) =>
        match loader.libraryHandles.lookup resolvedPath with
        | none => (.failed "Unable to load plugin", loader)
        | some _ => loader.createPlugin request

def callPlugin (call : PluginCall Json) (loader : PluginLoader Handle Object) :
    CallReply Json × PluginLoader Handle Object :=
  if call.pluginId = "" then (.failed "Unknown plugin handle", loader)
  else match loader.pluginObjects.lookup call.pluginId with
  | none => (.failed "Unknown plugin handle", loader)
  | some plugin =>
      if call.method = "" ∨ call.arguments = none then
        (.failed "A method name and argument array are required", loader)
      else if !call.serializable then
        (.failed "Plugin arguments are not JSON serializable", loader)
      else
        let loader :=
          { loader with invoked := loader.invoked ++ [(call.pluginId, plugin, call.method)] }
        match call.answer with
        | .throws reason => (.failed reason, loader)
        | .fails description => (.failed description, loader)
        | .returns result serializable =>
            if serializable then (.result result, loader)
            else (.failed "Plugin result is not JSON serializable", loader)

def dealloc (allValues : AllValues Handle) (loader : PluginLoader Handle Object) :
    PluginLoader Handle Object :=
  { loader with
    pluginObjects := []
    closed := loader.closed ++ allValues.list loader.libraryHandles }

end PluginLoader

inductive PluginEvent (Handle Object Json : Type)
  | loads (request : PluginRequest Handle Object)
  | calls (call : PluginCall Json)
  deriving Repr

namespace PluginEvent
variable {Handle Object Json : Type}

def step (resolve : String → String) : PluginEvent Handle Object Json →
    PluginLoader Handle Object → PluginLoader Handle Object
  | loads request, loader => (loader.loadPluginClass resolve request).2
  | calls call, loader => (loader.callPlugin call).2

end PluginEvent

end H5GG
