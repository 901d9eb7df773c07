import H5GG.Dylib.Template
import H5GG.Library.Posix
import H5GG.TextEncoding

/-!
# Building a customised library

`DylibBuilder.cpp`. The validator and the signer are whatever the caller hands over, and the texts
of error numbers are the system's.
-/

namespace H5GG
open Posix

/-- `H5GGDylibBuildStatus`. -/
inductive DylibBuildStatus
  | completed
  | invalidRequest
  | unableToReadSource
  | unableToReadIcon
  | invalidIcon
  | unableToReadMenu
  | invalidMenu
  | iconTooLarge
  | menuTooLarge
  | templateMismatch
  | unableToWriteOutput
  | signingFailed
  deriving DecidableEq, Repr

/-- `H5GGDylibBuildRequest`. -/
structure DylibBuildRequest where
  sourcePath : Path
  iconPath : Path
  menuPath : Path
  outputPath : Path
  deriving DecidableEq, Repr

/-- `H5GGDylibBuildResult`. -/
structure DylibBuildResult where
  status : DylibBuildStatus := .invalidRequest
  outputPath : Path := []
  detail : String := ""
  architectureCount : Nat := 0
  deriving DecidableEq, Repr

/-- How a function of the caller ends: with a verdict and a text, or with an exception. -/
abbrev Verdict := Except (Option String) (Bool × String)

/-- What a signer makes of the file that it is given, and how it ends. -/
structure Signing where
  left : Option Node
  verdict : Verdict
  deriving Repr

structure DylibBuilder where
  iconPlaceholder : Bytes
  menuPlaceholder : Bytes
  iconValidator : Option (Bytes → Verdict)
  signer : Option (Path → Option Node → Signing)

namespace DylibBuilder

def result (status : DylibBuildStatus) (detail : String := "") : DylibBuildResult :=
  { status, detail }

inductive ReadStatus
  | completed (bytes : Bytes)
  | unavailable (detail : String)
  | tooLarge
  deriving DecidableEq, Repr

section
variable (strerror : Nat → String)

def systemError (operation : String) (error : Nat) : String :=
  operation ++ ": " ++ strerror error

/-- `readRegularFile` from the reply of `fstat` on. -/
def afterStat (descriptor exclusiveSizeLimit : Nat) : Except Nat Stat → Program ReadStatus
  | .error errno => do
      let _ ← close
      pure (.unavailable (systemError strerror "Unable to inspect file" errno))
  | .ok info =>
      if info.isRegular = false then do
        let _ ← close
        pure (.unavailable "The path is not a readable regular file")
      else if exclusiveSizeLimit ≠ 0 ∧ exclusiveSizeLimit ≤ info.size then do
        let _ ← close
        pure .tooLarge
      else do
        match ← readFully descriptor info.size with
        | .error errno => do
            let _ ← close
            pure (.unavailable (systemError strerror "Unable to read file" errno))
        | .ok bytes =>
            match ← close with
            | .error errno =>
                pure (.unavailable (systemError strerror "Unable to close file" errno))
            | .ok _ => pure (.completed bytes)

def readRegularFile (path : Path) (exclusiveSizeLimit : Nat) : Program ReadStatus := do
  match ← openFile path with
  | .error errno => pure (.unavailable (systemError strerror "Unable to open file" errno))
  | .ok descriptor => do
      let info ← fstat descriptor
      afterStat strerror descriptor exclusiveSizeLimit info

/-- The text of what has gone wrong, if anything has. -/
def writeAll (descriptor : Nat) (bytes : Bytes) : Program (Option String) := do
  match ← writeFully descriptor bytes with
  | .error errno => pure (some (systemError strerror "Unable to write output" errno))
  | .ok _ =>
      match ← fsync with
      | .error errno => pure (some (systemError strerror "Unable to sync output" errno))
      | .ok _ => pure none

/-- `writeAll` and the `close` after it. -/
def writeOutput (descriptor : Nat) (binary : Bytes) : Program (Option String) := do
  let wrote ← writeAll strerror descriptor binary
  match ← close, wrote with
  | .error errno, none => pure (some (systemError strerror "Unable to close output" errno))
  | _, wrote => pure wrote

/-- The signer works on the file that has the name, and may take the name away. -/
def sign (signer : Path → Option Node → Signing) (path : Path) : Program Verdict :=
  fun system =>
    let signing := signer path (system.disk.content path)
    let disk := match system.disk.find path, signing.left with
      | some file, some node => system.disk.edit file fun _ => node
      | _, _ => system.disk.unlink path
    .ok signing.verdict { system with disk }

/-- The text of an exception. -/
def exceptionText (what : Option String) : String :=
  what.getD "The signer raised an unknown exception"

variable (builder : DylibBuilder) (request : DylibBuildRequest)

/-- From the `rename` on. -/
def publish (temporary : Path) (architectureCount : Nat) : Program DylibBuildResult := do
  match ← rename temporary request.outputPath with
  | .error errno => do
      let _ ← unlink temporary
      pure (result .unableToWriteOutput (systemError strerror "Unable to publish output" errno))
  | .ok _ =>
      pure { result .completed with outputPath := request.outputPath, architectureCount }

/-- From the call of the signer on. -/
def signAndPublish (signer : Path → Option Node → Signing) (temporary : Path)
    (architectureCount : Nat) : Program DylibBuildResult := do
  match ← sign signer temporary with
  | .error what => do
      let _ ← unlink temporary
      pure (result .signingFailed (exceptionText what))
  | .ok (false, error) => do
      let _ ← unlink temporary
      pure (result .signingFailed error)
  | .ok (true, _) => publish strerror request temporary architectureCount

/-- From `mkstemp` on. -/
def output (signer : Path → Option Node → Signing) (binary : Bytes) (architectureCount : Nat) :
    Program DylibBuildResult := do
  match ← mkstemp (request.outputPath ++ ".tmp.".toUTF8.toList) with
  | .error errno =>
      pure (result .unableToWriteOutput (systemError strerror "Unable to create output" errno))
  | .ok (descriptor, temporary) =>
      match ← writeOutput strerror descriptor binary with
      | some detail => do
          let _ ← unlink temporary
          pure (result .unableToWriteOutput detail)
      | none => signAndPublish strerror request signer temporary architectureCount

/-- From the reading of the menu on. -/
def withIcon (signer : Path → Option Node → Signing) (binary icon : Bytes) :
    Program DylibBuildResult := do
  match ← readRegularFile strerror request.menuPath builder.menuPlaceholder.length with
  | .tooLarge => pure (result .menuTooLarge)
  | .unavailable detail => pure (result .unableToReadMenu detail)
  | .completed menu =>
      if menu = [] ∨ h5ggIsValidUTF8 .reject menu = false then pure (result .invalidMenu)
      else
        let icons := h5ggReplaceAllTemplates binary builder.iconPlaceholder icon
        let menus := h5ggReplaceAllTemplates icons.1 builder.menuPlaceholder menu
        if icons.2 = 0 ∨ icons.2 ≠ menus.2 then pure (result .templateMismatch)
        else output strerror request signer menus.1 icons.2

/-- From the reading of the icon on. -/
def withSource (iconValidator : Bytes → Verdict) (signer : Path → Option Node → Signing)
    (binary : Bytes) : Program DylibBuildResult := do
  match ← readRegularFile strerror request.iconPath builder.iconPlaceholder.length with
  | .tooLarge => pure (result .iconTooLarge)
  | .unavailable detail => pure (result .unableToReadIcon detail)
  | .completed icon =>
      if icon = [] then pure (result .invalidIcon)
      else
        match iconValidator icon with
        | .error what => throw (.raised what)
        | .ok (false, validationError) => pure (result .invalidIcon validationError)
        | .ok (true, _) => builder.withIcon strerror request signer binary icon

def build : Program DylibBuildResult := do
  if request.sourcePath = [] ∨ request.iconPath = [] ∨ request.menuPath = [] ∨
      request.outputPath = [] ∨ builder.iconPlaceholder = [] ∨ builder.menuPlaceholder = [] then
    pure (result .invalidRequest)
  else
    match builder.iconValidator, builder.signer with
    | some iconValidator, some signer =>
        match ← readRegularFile strerror request.sourcePath 0 with
        | .completed [] => pure (result .unableToReadSource)
        | .completed binary => builder.withSource strerror request iconValidator signer binary
        | .unavailable detail => pure (result .unableToReadSource detail)
        | .tooLarge => pure (result .unableToReadSource)
    | _, _ => pure (result .invalidRequest)

end

end DylibBuilder

end H5GG
