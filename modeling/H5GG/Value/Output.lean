import H5GG.Value.Parse

/-!
# Parsing into buffers

`JJParseValue` and `JJParseSearchExpression` with what they write to. Each conversion is checked
before anything is stored.
-/

namespace H5GG

/-- `memcpy(buffer + start, bytes, ..)`. -/
def writeBytes (buffer : Bytes) (start : Nat) (bytes : Bytes) : Bytes :=
  buffer.zipIdx.map fun (byte, i) => if start ≤ i then bytes.getD (i - start) byte else byte

@[simp] theorem writeBytes_length (buffer : Bytes) (start : Nat) (bytes : Bytes) :
    (writeBytes buffer start bytes).length = buffer.length := by
  simp [writeBytes]

section
variable (output : Bytes) (start : Nat)

def storeValueInto (width value : Nat) : Bytes :=
  writeBytes (writeBytes output start (List.replicate 8 0)) start (Word.toLittleEndian width value)

def parseSignedInto (width : Nat) (text : CString) : Bool × Bytes :=
  let parsed := strtoll text 10
  if text = [] || parsed.rest ≠ [] || parsed.erange ||
      parsed.value < -2 ^ (8 * width - 1) || 2 ^ (8 * width - 1) - 1 < parsed.value then
    (false, output)
  else (true, storeValueInto output start width (parsed.value % 256 ^ width).toNat)

def parseUnsignedInto (width : Nat) (text : CString) : Bool × Bytes :=
  if text = [] || text.head? = some 0x2D then (false, output)
  else
    let parsed := strtoull text 10
    if parsed.rest ≠ [] || parsed.erange || 256 ^ width - 1 < parsed.value then (false, output)
    else (true, storeValueInto output start width parsed.value)

def parseFloatingInto (format : IEEE754.Format) (width : Nat) (text : CString) : Bool × Bytes :=
  let parsed := strtofloat format text
  if text = [] || parsed.rest ≠ [] || parsed.erange then (false, output)
  else
    match parsed.value with
    | none => (false, output)
    | some value => (true, storeValueInto output start width value)

/-- `JJParseValue(text, type, output + start)`, with the buffer it leaves. -/
def jjParseValueInto (text : Option CString) (type : Int) : Bool × Bytes :=
  match text, SearchType.ofCode? type with
  | some text, some t => match t.scalar with
    | .floating format => parseFloatingInto output start format t.len text
    | .signed => parseSignedInto output start t.len text
    | .unsigned => parseUnsignedInto output start t.len text
  | _, _ => (false, output)

variable {output start}

@[simp] theorem storeValueInto_length (width value : Nat) :
    (storeValueInto output start width value).length = output.length := by
  simp [storeValueInto]

theorem jjParseValueInto_length (text : Option CString) (type : Int) :
    (jjParseValueInto output start text type).2.length = output.length := by
  unfold jjParseValueInto
  split
  · split
    · unfold parseFloatingInto
      dsimp only
      split
      · rfl
      · split <;> simp
    · unfold parseSignedInto
      dsimp only
      split <;> simp
    · unfold parseUnsignedInto
      dsimp only
      split
      · rfl
      · split <;> simp
  · rfl

end

/-- `std::string::find(needle, start)`. -/
def stringFind (text needle : CString) (start : Nat) : Option Nat :=
  (List.range (text.length + 1)).find? fun i => start ≤ i && needle.isPrefixOf (text.drop i)

/-- `std::string::substr(start, count)`. -/
def substring (text : CString) (start count : Nat) : CString := (text.drop start).take count

namespace JJSearchValue

theorem zero_size : (List.replicate 16 (0 : UInt8)).length = 16 := List.length_replicate

/-- `JJSearchValue value = {}`. -/
def zero : JJSearchValue := ⟨List.replicate 16 0, zero_size⟩

/-- `JJParseValue(text, type, value.data() + start)`. -/
def parse (value : JJSearchValue) (start : Nat) (text : CString) (type : Int) :
    Bool × JJSearchValue :=
  let parsed := jjParseValueInto value.bytes start (some text) type
  (parsed.1, ⟨parsed.2, (jjParseValueInto_length _ _).trans value.size⟩)

/-- `memcpy(value.data() + length, value.data(), length)`. -/
def repeatFirst (value : JJSearchValue) (length : Nat) : JJSearchValue where
  bytes := writeBytes value.bytes length (value.bytes.take length)
  size := (writeBytes_length _ _ _).trans value.size

end JJSearchValue

/-- The part of the loop of `JJParseSearchExpression` that has one token. -/
def parseSearchToken (t : SearchType) (token : CString) : Option JJSearchValue :=
  if token = [] then none
  else
    let narrow := stringFind token tilde 0
    let wide := stringFind token wideTilde 0
    if narrow.isSome && wide.isSome then none
    else
      let (separator, separatorLength) :=
        if narrow = none then (wide, wideTilde.length) else (narrow, 1)
      match separator with
      | none =>
          let (accepted, value) := JJSearchValue.zero.parse 0 token t.code
          if accepted then some (value.repeatFirst t.len) else none
      | some separator =>
          if (stringFind token tilde (separator + 1)).isSome ||
              (stringFind token wideTilde (separator + separatorLength)).isSome then none
          else
            let lower := trimSearchToken (substring token 0 separator)
            let upper := trimSearchToken (token.drop (separator + separatorLength))
            if lower = [] || upper = [] then none
            else
              let (accepted, value) := JJSearchValue.zero.parse 0 lower t.code
              if accepted = false then none
              else
                let (accepted, value) := value.parse t.len upper t.code
                if accepted = false then none
                else if jjValueMatchesFilter (value.bytes.drop t.len) value.bytes t .less then none
                else some value

/-- The loop of `JJParseSearchExpression`; it has no result where it uses up its fuel. -/
def parseSearchTokens (t : SearchType) (expression : CString) :
    Nat → Nat → List JJSearchValue → Option (List JJSearchValue)
  | 0, _, _ => none
  | fuel + 1, start, parsed =>
      if expression.length < start then some parsed
      else
        let comma := stringFind expression [0x2C] start
        let stop := comma.getD expression.length
        match parseSearchToken t (trimSearchToken (substring expression start (stop - start))) with
        | none => none
        | some value =>
            match comma with
            | none => some (parsed ++ [value])
            | some comma => parseSearchTokens t expression fuel (comma + 1) (parsed ++ [value])

/-- `JJParseSearchExpression`, with the list that it leaves in `values`. -/
def jjParseSearchExpressionInto (text : Option CString) (type : Int) :
    StateM (List JJSearchValue) Bool := do
  set ([] : List JJSearchValue)
  match text, SearchType.ofCode? type with
  | some expression, some t =>
      match parseSearchTokens t expression (expression.length + 1) 0 [] with
      | none => return false
      | some parsed =>
          if parsed = [] then return false
          set parsed
          return true
  | _, _ => return false

end H5GG
