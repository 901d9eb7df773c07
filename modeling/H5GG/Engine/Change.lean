import H5GG.Engine.State

namespace H5GG

inductive ChangeType
  | unchanged | changed | increased | decreased
  deriving DecidableEq, Repr

/-- The `keep` that `JJRefineByChange` settles for one result: `sameBits` compares `len` bytes,
the typed comparison only runs when the snapshot has the result's own type. -/
def keepsChange (change : ChangeType) (type snapType : Int) (curValue snapValue : Nat) : Bool :=
  let len := searchTypeLen type
  let sameBits := Word.toLittleEndian len curValue = Word.toLittleEndian len snapValue
  let compared := fun mode =>
    match SearchType.ofCode? type with
    | some t => t.scalar.compareValues (Word.toLittleEndian len curValue)
        (Word.toLittleEndian len snapValue) mode
    | none => false
  match change with
  | .unchanged => sameBits
  | .changed => !sameBits
  | .increased => !sameBits && snapType = type && compared .greater
  | .decreased => !sameBits && snapType = type && compared .less

def changeKeeps (t : Target) (snapshot : Snapshot) (change : ChangeType) (region : ResultRegion)
    (entry : Nat × Int) : Bool :=
  let address := region.address entry.1
  let type := uint8 entry.2
  match snapshot address, t.reader.readExact address (searchTypeLen type) with
  | some (snapType, snapValue), some bytes =>
      keepsChange change type snapType (Word.ofLittleEndian bytes) snapValue
  | _, _ => false

def changeRegion (t : Target) (e : Engine) (change : ChangeType) (region : ResultRegion) :
    Option ResultRegion :=
  match t.loadRegion region.regionBase region.regionSize with
  | none => none
  | some _ =>
      (region.typed e.lastNumberType).foldl (fun newRegion entry =>
        if changeKeeps t e.snapshot change region entry then
          grow region.regionBase region.regionSize newRegion entry.1
            (if region.hasTypes then entry.2 else 0)
        else newRegion) none

def Engine.jjRefineByChange (t : Target) (change : ChangeType) (e : Engine) : Engine :=
  saveSnapshot t { e with result := e.result.replaceEach (changeRegion t e change) }

end H5GG
