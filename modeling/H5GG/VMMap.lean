import H5GG.Engine.State

/-!
# Regions of a task

`enumerateRegions` in `MemScan.mm`, over the entries of a VM map as `vm_region_recurse_64` finds
them: the first entry that ends behind the address, where a submap above the depth asked for
stands for its own entries.
-/

namespace H5GG

inductive VMEntry
  | region (base size : Nat) (writable : Bool)
  | submap (base size : Nat) (entries : List VMEntry)

structure RegionInfo where
  base : Nat
  size : Nat
  depth : Nat
  isSubmap : Bool
  writable : Bool
  deriving DecidableEq, Repr

def RegionInfo.stop (info : RegionInfo) : Nat := info.base + info.size

namespace VMEntry

def base : VMEntry → Nat
  | region base _ _ => base
  | submap base _ _ => base

def stop : VMEntry → Nat
  | region base size _ => base + size
  | submap base size _ => base + size

mutual

def recurse (address maximum : Nat) : Nat → VMEntry → Option RegionInfo
  | depth, region base size writable =>
      if address < base + size then some ⟨base, size, depth, false, writable⟩ else none
  | depth, submap base size entries =>
      if address < base + size then
        if depth < maximum then recurseList address maximum (depth + 1) entries
        else some ⟨base, size, depth, true, false⟩
      else none

def recurseList (address maximum : Nat) : Nat → List VMEntry → Option RegionInfo
  | _, [] => none
  | depth, entry :: rest =>
      (recurse address maximum depth entry).or (recurseList address maximum depth rest)

end

mutual

/-- The entries below one, itself included, in address order. -/
def nodes : Nat → VMEntry → List RegionInfo
  | depth, region base size writable => [⟨base, size, depth, false, writable⟩]
  | depth, submap base size entries =>
      ⟨base, size, depth, true, false⟩ :: nodesList (depth + 1) entries

def nodesList : Nat → List VMEntry → List RegionInfo
  | _, [] => []
  | depth, entry :: rest => nodes depth entry ++ nodesList depth rest

end

mutual

/-- Regions are not empty, entries stand apart in ascending order, and those of a submap lie
within it. -/
def Sound : VMEntry → Prop
  | region _ size _ => 0 < size
  | submap base size entries =>
      SoundList entries ∧ ∀ entry ∈ entries, base ≤ entry.base ∧ entry.stop ≤ base + size

def SoundList : List VMEntry → Prop
  | [] => True
  | entry :: rest => Sound entry ∧ (∀ later ∈ rest, entry.stop ≤ later.base) ∧ SoundList rest

end

end VMEntry

structure VMMap where
  entries : List VMEntry
  sound : VMEntry.SoundList entries
  bounded : ∀ entry ∈ entries, entry.stop < 2 ^ 64

namespace VMMap
variable (map : VMMap)

/-- `vm_region_recurse_64`. -/
def regionRecurse (address depth : Nat) : Option RegionInfo :=
  VMEntry.recurseList address depth 0 map.entries

def nodes : List RegionInfo := VMEntry.nodesList 0 map.entries

/-- The loop of `enumerateRegions` from `region_base`, `region_size` and `depth` on: the regions
it comes to, `none` when it needs more than `fuel` turns. -/
def walk (rangeEnd : Nat) : Nat → Nat → Nat → Nat → Option (List RegionInfo)
  | 0, _, _, _ => none
  | fuel + 1, regionBase, regionSize, depth =>
      if regionBase < rangeEnd then
        match map.regionRecurse (u64 (regionBase + regionSize)) depth with
        | none => some []
        | some info =>
            if info.isSubmap then walk rangeEnd fuel info.base 0 (info.depth + 1)
            else (walk rangeEnd fuel info.base info.size info.depth).map (info :: ·)
      else some []

/-- The stack of the calling thread, by its start and end, is left out of its own task. -/
def listed (stack : Option (Nat × Nat)) (info : RegionInfo) : Bool :=
  !stack.any (fun stack => stack.1 < u64 (info.base + info.size) && info.base < stack.2) &&
    info.writable

/-- `regions` behind `enumerateRegions`, in the order of the insertions. -/
def enumerateRegions (stack : Option (Nat × Nat)) (range : AddrRange) (fuel : Nat) :
    Option (List (Nat × Nat)) :=
  (map.walk range.stop fuel range.start 0 1).map fun visited =>
    (visited.filter (listed stack)).map fun info => (info.base, info.size)

end VMMap

end H5GG
