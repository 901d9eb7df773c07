import H5GG.Engine.Step

/-!
# What a snapshot holds

`saveSnapshot` keeps, for every address, what was read for the last result there that could be
read.
-/

namespace H5GG

def hitReading (t : Target) (hit : Nat × Int) : Option (Int × Nat) :=
  (t.reader.readExact hit.1 (searchTypeLen (uint8 hit.2))).map fun bytes =>
    (uint8 hit.2, Word.ofLittleEndian bytes)

def lastReading (t : Target) (hits : List (Nat × Int)) (address : Nat) : Option (Int × Nat) :=
  hits.reverse.findSome? fun hit => if hit.1 = address then hitReading t hit else none

def recordHit (t : Target) (snapshot : Snapshot) (hit : Nat × Int) : Snapshot :=
  match hitReading t hit with
  | some reading => Function.update snapshot hit.1 (some reading)
  | none => snapshot

theorem lastReading_cons {t : Target} {hit : Nat × Int} {hits : List (Nat × Int)} {address : Nat} :
    lastReading t (hit :: hits) address =
      (lastReading t hits address).or (if hit.1 = address then hitReading t hit else none) := by
  simp only [lastReading, List.reverse_cons, List.findSome?_append, List.findSome?_singleton]

theorem foldl_recordHit {t : Target} (hits : List (Nat × Int)) (snapshot : Snapshot)
    (address : Nat) :
    hits.foldl (recordHit t) snapshot address =
      (lastReading t hits address).or (snapshot address) := by
  induction hits generalizing snapshot with
  | nil => rfl
  | cons hit rest ih =>
      rw [List.foldl_cons, ih, lastReading_cons, Option.or_assoc]
      congr 1
      unfold recordHit
      cases hitReading t hit with
      | none => simp
      | some reading =>
          by_cases here : hit.1 = address
          · subst here
            simp
          · simp [here, Function.update_of_ne (Ne.symm here)]

theorem snapshotEntry_eq {t : Target} {region : ResultRegion} :
    Engine.snapshotEntry t region = fun snapshot entry =>
      recordHit t snapshot (region.address entry.1, entry.2) := by
  funext snapshot entry
  simp only [Engine.snapshotEntry, recordHit, hitReading]
  cases t.reader.readExact _ _ <;> rfl

/-- The snapshot that is saved is a function of the results and of the memory alone. -/
theorem saveSnapshot_eq {t : Target} {e : Engine} :
    e.saveSnapshot t = { e with snapshot := lastReading t e.hits } := by
  have flat : (e.result.allRegions.foldl (fun snapshot region =>
      (region.typed e.lastNumberType).foldl (Engine.snapshotEntry t region) snapshot)
        fun _ => none) = e.hits.foldl (recordHit t) fun _ => none := by
    rw [Engine.hits, Result.hits, List.foldl_flatMap]
    simp only [ResultRegion.hits, List.foldl_map, snapshotEntry_eq]
  rw [Engine.saveSnapshot, flat]
  congr 1
  funext address
  rw [foldl_recordHit]
  simp

/-- The snapshot holds what the results' addresses hold now, and nothing else. -/
def snapshotCurrent (t : Target) (e : Engine) : Prop :=
  ∀ address, e.snapshot address = lastReading t e.hits address

theorem snapshotCurrent_saveSnapshot {t : Target} {e : Engine} :
    snapshotCurrent t (e.saveSnapshot t) := by
  rw [saveSnapshot_eq]
  exact fun _ => rfl

theorem lastReading_some {t : Target} {hits : List (Nat × Int)} {address : Nat}
    {reading : Int × Nat} (recorded : lastReading t hits address = some reading) :
    ∃ hit ∈ hits, hit.1 = address ∧ hitReading t hit = some reading := by
  obtain ⟨hit, member, found⟩ := List.exists_of_findSome?_eq_some recorded
  split at found
  · rename_i here
    exact ⟨hit, List.mem_reverse.mp member, here, found⟩
  · cases found

theorem lastReading_isSome {t : Target} {hits : List (Nat × Int)} {hit : Nat × Int}
    (member : hit ∈ hits) (readable : (hitReading t hit).isSome = true) :
    (lastReading t hits hit.1).isSome = true := by
  rw [lastReading, List.findSome?_isSome_iff]
  exact ⟨hit, List.mem_reverse.mpr member, by simpa using readable⟩

def scannedZero : Engine :=
  Engine.fresh.jjScanMemoryAny (.onePage fun _ => 0) ⟨0x100000000, 0x100000004⟩
    [⟨List.replicate 16 0, rfl⟩] SearchType.sInt.code

end H5GG
