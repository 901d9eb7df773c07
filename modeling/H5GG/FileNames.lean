import H5GG.Value.Parse

namespace H5GG

def h5ggIsSafeFileName (name : Option CString) : Bool :=
  match name with
  | none => false
  | some name =>
      !(name = [] || 255 < name.length || name = [0x2E] || name = [0x2E, 0x2E]) &&
        name.all fun value =>
          !(value < 0x20 || value = 0x7F || value = 0x2F || value = 0x5C || value = 0x3A)

def javaScript : CString := [0x2E, 0x6A, 0x73]
def html : CString := [0x2E, 0x68, 0x74, 0x6D, 0x6C]

/-- The normalized name, or `none` when the function returns false. -/
def h5ggNormalizeScriptFileName (name : Option CString) : Option CString :=
  match name with
  | none => none
  | some name =>
      if h5ggIsSafeFileName (some name) = false then none
      else
        let lowercase := name.map toLower
        if javaScript.isSuffixOf lowercase then some name
        else if html.isSuffixOf lowercase then some name
        else if 0x2E ∈ name ∨ 252 < name.length then none
        else some (name ++ javaScript)

/-- `h5ggNormalizeScriptFileName` with the string that it writes, as it stands before the call. -/
def h5ggNormalizeScriptFileNameInto (name : Option CString) : StateM CString Bool := do
  set ([] : CString)
  if h5ggIsSafeFileName name = false then return false
  set (name.getD [])
  let lowercase := (← get).map toLower
  if 3 ≤ lowercase.length && lowercase.drop (lowercase.length - 3) = javaScript then return true
  if 5 ≤ lowercase.length && lowercase.drop (lowercase.length - 5) = html then return true
  if 0x2E ∈ (← get) ∨ 252 < (← get).length then
    set ([] : CString)
    return false
  modify (· ++ javaScript)
  return true

end H5GG
