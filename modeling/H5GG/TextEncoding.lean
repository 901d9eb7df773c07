import Mathlib.Data.List.Basic

/-!
# Checking UTF-8
-/

namespace H5GG

/-- `H5GGUTF8NullPolicy`. -/
inductive UTF8NullPolicy
  | allow
  | reject
  deriving DecidableEq, Repr

/-- What the first byte of a longer sequence says: how many bytes follow it, its own bits, and the
least code point that needs them all. -/
def leadByte (first : UInt8) : Option (Nat × UInt32 × UInt32) :=
  if first &&& 0xE0 = 0xC0 then some (1, (first &&& 0x1F).toUInt32, 0x80)
  else if first &&& 0xF0 = 0xE0 then some (2, (first &&& 0x0F).toUInt32, 0x800)
  else if first &&& 0xF8 = 0xF0 then some (3, (first &&& 0x07).toUInt32, 0x10000)
  else none

/-- The code point, unless one of the bytes does not continue it. -/
def continuation (codePoint : UInt32) (bytes : List UInt8) : Option UInt32 :=
  bytes.foldlM (fun (codePoint : UInt32) (byte : UInt8) =>
    if byte &&& 0xC0 = 0x80 then some ((codePoint <<< 6) ||| (byte &&& 0x3F).toUInt32)
    else none) codePoint

def h5ggIsValidUTF8 (nullPolicy : UTF8NullPolicy) : List UInt8 → Bool
  | [] => true
  | first :: rest =>
      if first ≤ 0x7F then
        if first = 0 ∧ nullPolicy = .reject then false else h5ggIsValidUTF8 nullPolicy rest
      else
        match leadByte first with
        | none => false
        | some (continuationCount, codePoint, minimum) =>
            if rest.length < continuationCount then false
            else
              match continuation codePoint (rest.take continuationCount) with
              | none => false
              | some codePoint =>
                  if codePoint < minimum ∨ 0x10FFFF < codePoint ∨
                      (0xD800 ≤ codePoint ∧ codePoint ≤ 0xDFFF) then false
                  else h5ggIsValidUTF8 nullPolicy (rest.drop continuationCount)
termination_by text => text.length
decreasing_by
  · exact Nat.lt_succ_self _
  · rw [List.length_drop, List.length_cons]
    omega

/-- The loop over a sequence's further bytes, from `index` on, in `text` itself. A read behind the
end of the text leaves no result. -/
def continuationAt (text : List UInt8) : Nat → Nat → UInt32 → Option (Option UInt32)
  | _, 0, codePoint => some (some codePoint)
  | index, remaining + 1, codePoint =>
      match text[index]? with
      | none => none
      | some byte =>
          if byte &&& 0xC0 = 0x80 then
            continuationAt text (index + 1) remaining
              ((codePoint <<< 6) ||| (byte &&& 0x3F).toUInt32)
          else some none

/-- `h5ggIsValidUTF8` by the index it reads at. -/
def h5ggIsValidUTF8At (nullPolicy : UTF8NullPolicy) (text : List UInt8) (index : Nat) :
    Option Bool :=
  if index < text.length then
    match text[index]? with
    | none => none
    | some first =>
        if first ≤ 0x7F then
          if first = 0 ∧ nullPolicy = .reject then some false
          else h5ggIsValidUTF8At nullPolicy text (index + 1)
        else
          match leadByte first with
          | none => some false
          | some (continuationCount, codePoint, minimum) =>
              if text.length ≤ index + continuationCount then some false
              else
                match continuationAt text (index + 1) continuationCount codePoint with
                | none => none
                | some none => some false
                | some (some codePoint) =>
                    if codePoint < minimum ∨ 0x10FFFF < codePoint ∨
                        (0xD800 ≤ codePoint ∧ codePoint ≤ 0xDFFF) then some false
                    else h5ggIsValidUTF8At nullPolicy text (index + continuationCount + 1)
  else some true
termination_by text.length - index

end H5GG
