import H5GG.Value.Type

/-!
# Parsing values, addresses and patterns

A C string is the list of its bytes before the terminating NUL. `strtoll`, `strtoull`, `strtod`
and `strtof` follow the C standard in the C locale. The standard leaves it to the implementation
whether a subnormal result other than zero sets `ERANGE`; here it never does.
-/

namespace H5GG
open IEEE754

abbrev CString := List UInt8

def isSpace (c : UInt8) : Bool := c = 0x20 || (0x09 ≤ c && c ≤ 0x0D)

def isDigit (c : UInt8) : Bool := 0x30 ≤ c && c ≤ 0x39

def hexDigitValue (c : UInt8) : Option Nat :=
  if 0x30 ≤ c && c ≤ 0x39 then some (c.toNat - 0x30)
  else if 0x61 ≤ c && c ≤ 0x66 then some (c.toNat - 0x61 + 10)
  else if 0x41 ≤ c && c ≤ 0x46 then some (c.toNat - 0x41 + 10)
  else none

def isXDigit (c : UInt8) : Bool := (hexDigitValue c).isSome

def toLower (c : UInt8) : UInt8 := if 0x41 ≤ c && c ≤ 0x5A then c + 0x20 else c

def digitsValue (base : Nat) (digits : List UInt8) : Nat :=
  digits.foldl (fun value c => value * base + (hexDigitValue c).getD 0) 0

/-- What a `strto*` call leaves: its value, the text after the conversion, and `ERANGE`. -/
structure Conversion (α : Type) where
  value : α
  rest : CString
  erange : Bool := false

def skipSign (text : CString) : Bool × CString :=
  match text.dropWhile isSpace with
  | 0x2D :: rest => (true, rest)
  | 0x2B :: rest => (false, rest)
  | rest => (false, rest)

/-- The sign and the digits of an integer, or nothing when no digit is there to convert. -/
def subjectSequence (text : CString) (base : Nat) : Option (Bool × List UInt8 × CString) :=
  let (negative, body) := skipSign text
  let accepts := if base = 16 then isXDigit else isDigit
  let body := match base, body with
    | 16, 0x30 :: x :: c :: rest => if toLower x = 0x78 && isXDigit c then c :: rest else body
    | _, _ => body
  let digits := body.takeWhile accepts
  if digits = [] then none else some (negative, digits, body.drop digits.length)

def strtoll (text : CString) (base : Nat) : Conversion Int :=
  match subjectSequence text base with
  | none => ⟨0, text, false⟩
  | some (negative, digits, rest) =>
      let magnitude : Int := digitsValue base digits
      let value := if negative then -magnitude else magnitude
      if value < -2 ^ 63 then ⟨-2 ^ 63, rest, true⟩
      else if 2 ^ 63 - 1 < value then ⟨2 ^ 63 - 1, rest, true⟩
      else ⟨value, rest, false⟩

def strtoull (text : CString) (base : Nat) : Conversion Nat :=
  match subjectSequence text base with
  | none => ⟨0, text, false⟩
  | some (negative, digits, rest) =>
      let magnitude := digitsValue base digits
      if 2 ^ 64 ≤ magnitude then ⟨2 ^ 64 - 1, rest, true⟩
      else ⟨if negative then (2 ^ 64 - magnitude) % 2 ^ 64 else magnitude, rest, false⟩

inductive Magnitude
  | ratio (numerator denominator : Nat)
  | special

def exponentPart (letter : UInt8) (text : CString) : Int × CString :=
  match text with
  | c :: rest =>
      if toLower c = letter then
        let (negative, digits) : Bool × CString := match rest with
          | 0x2D :: rest => (true, rest)
          | 0x2B :: rest => (false, rest)
          | rest => (false, rest)
        let value : Int := digitsValue 10 (digits.takeWhile isDigit)
        if digits.takeWhile isDigit = [] then (0, text)
        else (if negative then -value else value, digits.dropWhile isDigit)
      else (0, text)
  | [] => (0, [])

def floatDigits (accepts : UInt8 → Bool) (base radix : Nat) (letter : UInt8) (text : CString) :
    Option (Magnitude × CString) :=
  let whole := text.takeWhile accepts
  let tail := text.drop whole.length
  let (fraction, tail) : List UInt8 × CString := match tail with
    | 0x2E :: rest =>
        if whole = [] && rest.takeWhile accepts = [] then ([], tail)
        else (rest.takeWhile accepts, rest.dropWhile accepts)
    | _ => ([], tail)
  if whole ++ fraction = [] then none
  else
    let (exponent, tail) := exponentPart letter tail
    let mantissa := digitsValue base (whole ++ fraction)
    let scale := base ^ fraction.length
    some (.ratio (mantissa * radix ^ exponent.toNat) (scale * radix ^ (-exponent).toNat), tail)

def dropPrefix (word : List UInt8) (text : CString) : Option CString :=
  if (text.take word.length).map toLower = word then some (text.drop word.length) else none

def floatBody (text : CString) : Option (Magnitude × CString) :=
  match dropPrefix [0x69, 0x6E, 0x66] text, dropPrefix [0x6E, 0x61, 0x6E] text with
  | some rest, _ => some (.special, (dropPrefix [0x69, 0x6E, 0x69, 0x74, 0x79] rest).getD rest)
  | _, some rest =>
      match rest with
      | 0x28 :: inner =>
          let word := fun c => isDigit c || (0x61 ≤ toLower c && toLower c ≤ 0x7A) || c = 0x5F
          match inner.dropWhile word with
          | 0x29 :: after => some (.special, after)
          | _ => some (.special, rest)
      | _ => some (.special, rest)
  | none, none =>
      match dropPrefix [0x30, 0x78] text with
      | some digits =>
          (floatDigits isXDigit 16 2 0x70 digits).orElse fun _ => floatDigits isDigit 10 10 0x65 text
      | none => floatDigits isDigit 10 10 0x65 text

/-- `strtod` and `strtof`: the bits of the result, or `none` for an infinity or a NaN. -/
def strtofloat (format : Format) (text : CString) : Conversion (Option Nat) :=
  let (negative, body) := skipSign text
  let sign := if negative then 2 ^ (format.fractionBits + format.exponentBits) else 0
  match floatBody body with
  | none => ⟨some 0, text, false⟩
  | some (.special, rest) => ⟨none, rest, false⟩
  | some (.ratio numerator denominator, rest) =>
      let units := numerator * 2 ^ (2 ^ (format.exponentBits - 1) + format.fractionBits - 2)
      let magnitude := format.roundRatio units denominator
      if format.limit ≤ magnitude then ⟨none, rest, true⟩
      else ⟨some (sign + format.encodeMagnitude magnitude), rest, magnitude = 0 && numerator ≠ 0⟩

def storeValue (width value : Nat) : Bytes :=
  Word.toLittleEndian width value ++ List.replicate (8 - width) 0

def parseSigned (width : Nat) (text : CString) : Option Bytes :=
  let parsed := strtoll text 10
  if text = [] || parsed.rest ≠ [] || parsed.erange ||
      parsed.value < -2 ^ (8 * width - 1) || 2 ^ (8 * width - 1) - 1 < parsed.value then none
  else some (storeValue width (parsed.value % 256 ^ width).toNat)

def parseUnsigned (width : Nat) (text : CString) : Option Bytes :=
  if text = [] || text.head? = some 0x2D then none
  else
    let parsed := strtoull text 10
    if parsed.rest ≠ [] || parsed.erange || 256 ^ width - 1 < parsed.value then none
    else some (storeValue width parsed.value)

def parseFloating (format : Format) (width : Nat) (text : CString) : Option Bytes :=
  let parsed := strtofloat format text
  if text = [] || parsed.rest ≠ [] || parsed.erange then none
  else parsed.value.map (storeValue width)

/-- `JJParseValue`: the eight bytes stored, or `none` when it returns false. -/
def jjParseValue (text : CString) (type : Int) : Option Bytes :=
  match SearchType.ofCode? type with
  | none => none
  | some t => match t.scalar with
    | .floating format => parseFloating format t.len text
    | .signed => parseSigned t.len text
    | .unsigned => parseUnsigned t.len text

def jjTypeFromName (name : Option CString) : Int :=
  match name with
  | none => 0
  | some name =>
      match SearchType.all.find? fun t => t.name.toList.map (fun c => c.toNat) = name.map UInt8.toNat with
      | some t => t.code
      | none => 0

def jjParseNonnegativeFloat (text : CString) : Option Nat :=
  if text = [] || text.head?.any isSpace then none
  else
    let parsed := strtofloat binary32 text
    if parsed.rest ≠ [] || parsed.erange then none
    else parsed.value.bind fun bits => if toleranceNegative bits then none else some bits

def trimSearchToken (token : CString) : CString :=
  ((token.dropWhile isSpace).reverse.dropWhile isSpace).reverse

def splitAtFirst (needle : CString) : CString → Option (CString × CString)
  | [] => if needle = [] then some ([], []) else none
  | c :: rest =>
      if needle.isPrefixOf (c :: rest) then some ([], (c :: rest).drop needle.length)
      else (splitAtFirst needle rest).map fun (before, after) => (c :: before, after)

def tilde : CString := [0x7E]
def wideTilde : CString := [0xEF, 0xBD, 0x9E]

namespace JJSearchValue

/-- Two eight-byte values stored at `data()` and `data() + len`, the second over the first. -/
def ofBounds (len : Nat) (lower upper : Bytes) : JJSearchValue where
  bytes := ((lower.take len ++ upper.take len).take 16).rightpad 16 0
  size := by
    rw [List.rightpad, List.length_append, List.length_replicate]
    exact Nat.add_sub_of_le (List.length_take_le _ _)

end JJSearchValue

/-- One member of a search expression. -/
def parseSearchMember (t : SearchType) (member : CString) : Option JJSearchValue :=
  let token := trimSearchToken member
  if token = [] then none
  else
    match splitAtFirst tilde token, splitAtFirst wideTilde token with
    | some _, some _ => none
    | none, none =>
        (jjParseValue token t.code).map fun value => .ofBounds t.len value value
    | some (before, after), none | none, some (before, after) =>
        if (splitAtFirst tilde after).isSome || (splitAtFirst wideTilde after).isSome then none
        else
          let lower := trimSearchToken before
          let upper := trimSearchToken after
          if lower = [] || upper = [] then none
          else
            match jjParseValue lower t.code, jjParseValue upper t.code with
            | some low, some high =>
                if jjValueMatchesFilter high low t .less then none
                else some (.ofBounds t.len low high)
            | _, _ => none

def jjParseSearchExpression (text : CString) (type : Int) : Option (List JJSearchValue) :=
  match SearchType.ofCode? type with
  | none => none
  | some t => (text.splitOn 0x2C).mapM (parseSearchMember t)

def jjParseAddress (text : CString) (base : Nat) : Option Nat :=
  match text with
  | [] => none
  | first :: _ =>
      if (base ≠ 10 && base ≠ 16) || first = 0x2D || first = 0x2B || isSpace first then none
      else
        let parsed := strtoull text base
        if parsed.rest ≠ [] || parsed.erange then none else some parsed.value

/-- The `(value, mask)` byte of two digits of a masked pattern, `?` standing for any nibble. -/
def patternByte (high low : UInt8) : UInt8 × UInt8 :=
  let nibble := fun c => if c = 0x3F then (0, 0) else (UInt8.ofNat ((hexDigitValue c).getD 0), 0x0F)
  let (h, hMask) : UInt8 × UInt8 := nibble high
  let (l, lMask) : UInt8 × UInt8 := nibble low
  ((h <<< 4) ||| l, (hMask <<< 4) ||| lMask)

def patternBytes : List UInt8 → List (UInt8 × UInt8)
  | high :: low :: rest => patternByte high low :: patternBytes rest
  | _ => []

def jjParseMaskedHexPattern (text : CString) : Option JJHexPattern :=
  let digits := text.filter fun c => !isSpace c
  if digits.any fun c => !(isXDigit c || c = 0x3F) then none
  else if digits = [] || digits.length % 2 ≠ 0 then none
  else some ⟨patternBytes digits⟩

def jjParseHexPattern (text : CString) : Option Bytes :=
  match jjParseMaskedHexPattern text with
  | none => none
  | some pattern =>
      if pattern.nibbles.any fun byte => byte.2 ≠ 0xFF then none
      else some (pattern.nibbles.map Prod.fst)

end H5GG
