import H5GG.Engine.State
import H5GG.Library.Stride
import Std.Data.TreeMap

/-!
# Nearby search

The search facade lets through ranges from 2 to 4096, far from where the `size_t` and `long`
arithmetic on them would wrap.
-/

namespace H5GG

/-- `range -= range % len; range += len;` -/
def nearbyReach (range len : Nat) : Nat := range - range % len + len

def scanForHit (buffer : Buffer) (target : JJSearchValue) (type : SearchType)
    (tolerance offset : Nat) : Bool :=
  type.scalar.searchValueMatches (buffer.bytes offset type.len) (target.lower type.len)
    (target.upper type.len) tolerance

structure NearbyState where
  newRegion : Option ResultRegion := none
  lastold : Nat := 0
  lastpos : Nat := 0
  reads : List BufferRead := []

section
variable (buffer : Buffer) (region : ResultRegion) (target : JJSearchValue) (type : SearchType)
  (tolerance reach : Nat) (lastNumberType : Int)

def nearSlide (oldslide found : Nat) : Bool :=
  (found : Int) - reach < oldslide && (oldslide : Int) < found + reach

/-- The loop over the old results from `lastold` on, with the map of matches it fills. -/
def carryOld (first last : Nat) (matched : Std.TreeMap Nat Int) (lastold : Nat) :
    Std.TreeMap Nat Int × Nat :=
  ((region.typed lastNumberType).zipIdx.drop lastold).foldl
    (fun (matched, lastold) ((oldslide, oldtype), o) =>
      if nearSlide reach oldslide first || nearSlide reach oldslide last then
        (matched.insert oldslide (int8 oldtype), o + 1)
      else (matched, lastold)) (matched, lastold)

/-- The body of the loop over the old results: the window around `curslide` from where the last
one ended. A window that ends before it starts holds no element, as in the source, where its
negative length only wraps the pointer back. -/
def nearbyStep (needType : Bool) (state : NearbyState) (curslide : Nat) : NearbyState :=
  let rstart := max (curslide - reach) state.lastpos
  let rend := min (curslide + reach) region.regionSize
  let scan := Stride.collect (scanForHit buffer target type tolerance) (fun _ => true) type.len
    rend rend rstart
  let found := scan.1.map u32
  let matched : Std.TreeMap Nat Int :=
    found.foldl (fun matched slide => matched.insert slide type.code) ∅
  let (matched, lastold) := match found.head?, found.getLast? with
    | some foundfirst, some foundlast =>
        carryOld region reach lastNumberType foundfirst foundlast matched state.lastold
    | _, _ => (matched, state.lastold)
  { newRegion := matched.toList.foldl (fun newRegion entry =>
      grow region.regionBase region.regionSize newRegion entry.1
        (if needType then entry.2 else 0)) state.newRegion
    lastold
    lastpos := rend
    reads := state.reads ++ scan.2.map fun offset => ⟨offset, type.len, buffer.size⟩ }

end

def nearbyRegion (t : Target) (tolerance : Nat) (lastNumberType : Int) (range : Nat)
    (target : JJSearchValue) (type : SearchType) (region : ResultRegion) :
    Pass (Option ResultRegion) :=
  let needType := region.hasTypes || type.code ≠ lastNumberType
  match t.loadRegion region.regionBase region.regionSize with
  | none => { value := none }
  | some buffer =>
      let state := region.slides.foldl (nearbyStep buffer region target type tolerance
        (nearbyReach range type.len) lastNumberType needType) {}
      { value := state.newRegion, reads := state.reads }

def Engine.jjNearBySearch (t : Target) (range : Nat) (target : JJSearchValue) (type : Int)
    (e : Engine) : Engine :=
  match SearchType.ofCode? type with
  | none => e
  | some searched =>
      { e with result := e.result.replaceEach fun region =>
          (nearbyRegion t e.floatTolerance e.lastNumberType range target searched region).value }

end H5GG
