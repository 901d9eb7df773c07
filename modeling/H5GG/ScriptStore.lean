import H5GG.FileNames
import H5GG.Library.Directory
import H5GG.TextEncoding
import Mathlib.Logic.Function.Basic

/-!
# The store of scripts

`ScriptStore.cpp`. Each call holds the mutex from beginning to end, so that calls are taken one after
the other. The texts of error numbers are the system's.
-/

namespace H5GG
open Posix

structure ScriptStore where
  rootDirectory : Path
  lastError : String := ""
  deriving DecidableEq, Repr

namespace ScriptStore

def maximumScriptBytes : Nat := 2 * 1024 * 1024

/-- The loop of the constructor, over the reversed directory. -/
def popSlashes : List UInt8 → List UInt8
  | 0x2F :: next :: rest => popSlashes (next :: rest)
  | directory => directory

def new (rootDirectory : Path) : ScriptStore where
  rootDirectory := (popSlashes rootDirectory.reverse).reverse

def systemError (strerror : Nat → String) (operation : String) (error : Nat) : String :=
  operation ++ ": " ++ strerror error

def caseInsensitiveLess (left right : List UInt8) : Bool :=
  match (left.zip right).find? fun (l, r) => toLower l ≠ toLower r with
  | some (l, r) => toLower l < toLower r
  | none => if left.length ≠ right.length then left.length < right.length else left < right

def fail (store : ScriptStore) (error : String) : ScriptStore × Bool :=
  ({ store with lastError := error }, false)

def clearError (store : ScriptStore) : ScriptStore := { store with lastError := "" }

/-- The path of the normalized name, or the error. -/
def resolve (store : ScriptStore) (name : Option CString) : Except String Path :=
  if store.rootDirectory = [] then .error "The script directory is unavailable"
  else
    match h5ggNormalizeScriptFileName name with
    | none => .error "Use a single safe .js or .html file name"
    | some normalized => .ok (within store.rootDirectory normalized)

section
variable (strerror : Nat → String) (store : ScriptStore)

/-- `savedError` before the `close`, if anything has gone wrong by then. -/
def writeAll (descriptor : Nat) (content : Bytes) : Program (Option Nat) := do
  match ← writeFully descriptor content with
  | .error errno => pure (some errno)
  | .ok _ =>
      match ← fsync with
      | .error errno => pure (some errno)
      | .ok _ => pure none

def writeScript (descriptor : Nat) (content : Bytes) : Program (Option Nat) := do
  let saved ← writeAll descriptor content
  match ← close, saved with
  | .error errno, none => pure (some errno)
  | _, saved => pure saved

def discard (temporary : Path) (savedError : Nat) : Program (ScriptStore × Bool) := do
  let _ ← unlink temporary
  pure (store.fail (systemError strerror "Unable to save script" savedError))

/-- `saveContent` from `mkstemp` on. -/
def saveAt (path : Path) (content : Bytes) : Program (ScriptStore × Bool) := do
  match ← mkstemp (within store.rootDirectory ".h5gg-script.".toUTF8.toList) with
  | .error errno =>
      pure (store.fail (systemError strerror "Unable to create temporary script" errno))
  | .ok (descriptor, temporary) =>
      match ← writeScript descriptor content with
      | some errno => store.discard strerror temporary errno
      | none =>
          match ← rename temporary path with
          | .error errno => store.discard strerror temporary errno
          | .ok _ => pure (store, true)

def saveContent (name : Option CString) (content : Option Bytes) : Program (ScriptStore × Bool) :=
  match name, content with
  | some name, some content =>
      match store.clearError.resolve (some name) with
      | .error error => pure (store.fail error)
      | .ok path =>
          if maximumScriptBytes < content.length then
            pure (store.fail "Scripts are limited to 2 MB")
          else if h5ggIsValidUTF8 .allow content = false then
            pure (store.fail "Script content must be valid UTF-8")
          else store.clearError.saveAt strerror path content
  | _, _ => pure (store.fail "A file name and content are required")

/-- A `load` that fails hands out nothing. -/
def failLoad (error : String) : (ScriptStore × Bool) × Bytes := (store.fail error, [])

/-- `load` from the reading on. -/
def loadBytes (descriptor size : Nat) : Program ((ScriptStore × Bool) × Bytes) := do
  match ← readFully descriptor size with
  | .error errno => do
      let _ ← close
      pure (store.failLoad (systemError strerror "Unable to load script" errno))
  | .ok content =>
      match ← close with
      | .error errno =>
          pure (store.failLoad (systemError strerror "Unable to load script" errno))
      | .ok _ =>
          if h5ggIsValidUTF8 .allow content = false then
            pure (store.failLoad "Script content must be valid UTF-8")
          else pure ((store, true), content)

/-- `load` from the reply of `fstat` on. -/
def afterStat (descriptor : Nat) : Except Nat Stat → Program ((ScriptStore × Bool) × Bytes)
  | .error errno => do
      let _ ← close
      pure (store.failLoad (systemError strerror "Unable to load script" errno))
  | .ok info =>
      if info.isRegular = false then do
        let _ ← close
        pure (store.failLoad "Unable to load script: not a regular file")
      else if maximumScriptBytes < info.size then do
        let _ ← close
        pure (store.failLoad "Unable to load script: scripts are limited to 2 MB")
      else store.loadBytes strerror descriptor info.size

def loadAt (path : Path) : Program ((ScriptStore × Bool) × Bytes) := do
  match ← openFile path with
  | .error errno =>
      pure (store.failLoad (systemError strerror "Unable to load script" errno))
  | .ok descriptor =>
      let info ← fstat descriptor
      store.afterStat strerror descriptor info

def load (name : Option CString) : Program ((ScriptStore × Bool) × Bytes) :=
  match store.clearError.resolve name with
  | .error error => pure (store.failLoad error)
  | .ok path => store.clearError.loadAt strerror path

def remove (name : Option CString) : Program (ScriptStore × Bool) :=
  match store.clearError.resolve name with
  | .error error => pure (store.fail error)
  | .ok path => do
      match ← unlink path with
      | .error errno =>
          pure (store.fail (systemError strerror "Unable to delete script" errno))
      | .ok _ => pure (store.clearError, true)

/-- The loop of `list` over what is left of the stream, with `errno` and the scripts so far. It is
left with `errno` as it stands: `lstat` may have set it. -/
def listLoop (rootDirectory : Path) : List Path → Nat → List Path → Program (Nat × List Path)
  | [], errno, scripts => do
      match ← readdir with
      | .error errno => pure (errno, scripts)
      | .ok _ => pure (errno, scripts)
  | name :: stream, errno, scripts => do
      match ← readdir with
      | .error errno => pure (errno, scripts)
      | .ok _ =>
          if h5ggNormalizeScriptFileName (some name) ≠ some name then
            listLoop rootDirectory stream errno scripts
          else
            match ← lstat (within rootDirectory name) with
            | .error errno => listLoop rootDirectory stream errno scripts
            | .ok info =>
                if info.isRegular then listLoop rootDirectory stream errno (scripts ++ [name])
                else listLoop rootDirectory stream errno scripts

def list : Program ((ScriptStore × Bool) × List Path) := do
  match ← opendir store.rootDirectory with
  | .error errno => pure (store.fail (systemError strerror "Unable to list scripts" errno), [])
  | .ok stream =>
      let (readError, scripts) ← listLoop store.rootDirectory stream 0 []
      let _ ← closedir
      if readError ≠ 0 then
        pure (store.fail (systemError strerror "Unable to list scripts" readError), [])
      else
        pure ((store.clearError, true), scripts.mergeSort fun a b => !caseInsensitiveLess b a)

end

/-! ## Calls one after the other -/

inductive Operation
  | save (name : Option CString) (content : Option Bytes)
  | load (name : Option CString)
  | remove (name : Option CString)
  | list
  deriving DecidableEq, Repr

/-- The script that a call writes when it succeeds, and its content; a removed script has none. -/
def Operation.writes : Operation → Option (CString × Option Bytes)
  | .save name (some content) =>
      (h5ggNormalizeScriptFileName name).map fun normalized => (normalized, some content)
  | .remove name => (h5ggNormalizeScriptFileName name).map fun normalized => (normalized, none)
  | _ => none

structure Event where
  operation : Operation
  succeeded : Bool
  content : Bytes := []
  scripts : List Path := []
  deriving DecidableEq, Repr

def Event.writes (event : Event) : Option (CString × Option Bytes) :=
  if event.succeeded then event.operation.writes else none

def written (scripts : CString → Option Bytes) :
    Option (CString × Option Bytes) → CString → Option Bytes
  | none => scripts
  | some (name, content) => Function.update scripts name content

def storedFrom (scripts : CString → Option Bytes) (events : List Event) : CString → Option Bytes :=
  events.foldl (fun scripts event => written scripts event.writes) scripts

/-- The scripts that have been saved and not been removed since, by their normalized names. -/
def stored (events : List Event) : CString → Option Bytes := storedFrom (fun _ => none) events

def perform (strerror : Nat → String) (store : ScriptStore) :
    Operation → Program (ScriptStore × Event)
  | .save name content => do
      let (store, succeeded) ← store.saveContent strerror name content
      pure (store, { operation := .save name content, succeeded })
  | .load name => do
      let ((store, succeeded), content) ← store.load strerror name
      pure (store, { operation := .load name, succeeded, content })
  | .remove name => do
      let (store, succeeded) ← store.remove strerror name
      pure (store, { operation := .remove name, succeeded })
  | .list => do
      let ((store, succeeded), scripts) ← store.list strerror
      pure (store, { operation := .list, succeeded, scripts })

def run (strerror : Nat → String) : List Operation → ScriptStore → Program (ScriptStore × List Event)
  | [], store => pure (store, [])
  | operation :: rest, store => do
      let (store, event) ← store.perform strerror operation
      let (store, events) ← run strerror rest store
      pure (store, event :: events)

end ScriptStore

end H5GG
