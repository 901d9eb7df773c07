import H5GG.Value.Parse

/-!
# Strings from the bridge
-/

namespace H5GG

/-- An `NSString` by its UTF-8, which text with a lone surrogate does not have. -/
structure NSString where
  utf8 : Option (List UInt8)
  deriving DecidableEq, Repr

namespace NSString

def ofAscii (text : String) : NSString := ⟨some (text.toList.map fun c => UInt8.ofNat c.toNat)⟩

/-- A `length` other than 0; it is 0 of `nil`, too. -/
def nonempty (text : Option NSString) : Bool := text.any (·.utf8 ≠ some [])

/-- `UTF8String`, up to the first NUL, as C takes it. -/
def utf8String (text : Option NSString) : Option CString :=
  text.bind fun text => text.utf8.map (·.takeWhile (· ≠ 0))

def hasPrefix (start : NSString) (text : Option NSString) : Bool :=
  text.any fun text => match start.utf8, text.utf8 with
    | some start, some text => start.isPrefixOf text
    | _, _ => false

end NSString

/-- `0x%llX`. -/
def hexAddress (address : Nat) : String :=
  "0x" ++ String.ofList ((Nat.toDigits 16 address).map Char.toUpper)

end H5GG
