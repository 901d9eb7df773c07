import H5GG.Value.Type

/-!
# Memory readers and the target process

`MemoryReader` is `JJMemoryReader`: an adapter that fills an output buffer and reports a count.
`Target` is what the kernel answers about the selected process while one operation runs. The
Mach calls are outside the repository; `readable`, `remaps` and `beyond` leave open whatever a
kernel may answer.
-/

namespace H5GG

def u64 (n : Nat) : Nat := n % 2 ^ 64
def u32 (n : Nat) : Nat := n % 2 ^ 32
def uint8 (n : Int) : Int := n % 256
def int8 (n : Int) : Int := n.bmod 256
def int32 (n : Int) : Int := n.bmod (2 ^ 32)

theorem u64_of_lt {n : Nat} (small : n < 2 ^ 64) : u64 n = n := Nat.mod_eq_of_lt small
theorem u32_of_lt {n : Nat} (small : n < 2 ^ 32) : u32 n = n := Nat.mod_eq_of_lt small
theorem u32_lt (n : Nat) : u32 n < 2 ^ 32 := Nat.mod_lt _ (Nat.two_pow_pos 32)
theorem u32_le (n : Nat) : u32 n ≤ n := Nat.mod_le _ _

theorem map_u32 {slides : List Nat} (narrow : ∀ slide ∈ slides, slide < 2 ^ 32) :
    slides.map u32 = slides := by
  rw [List.map_congr_left fun slide member => u32_of_lt (narrow slide member)]
  exact List.map_id' slides

/-- `JJMemoryReader`, by its `performRead`: the count reported and the buffer left behind. -/
structure MemoryReader where
  performRead : Nat → Nat → Nat × (Nat → UInt8)

namespace MemoryReader

def readBytes (reader : MemoryReader) (address length : Nat) : Bytes :=
  if length = 0 then []
  else
    let answer := reader.performRead address length
    (List.range (min answer.1 length)).map answer.2

theorem readBytes_length (reader : MemoryReader) (address length : Nat) :
    (reader.readBytes address length).length ≤ length := by
  unfold readBytes
  split
  · exact Nat.zero_le _
  · rw [List.length_map, List.length_range]
    exact Nat.min_le_right _ _

def readExact (reader : MemoryReader) (address length : Nat) : Option Bytes :=
  let bytes := reader.readBytes address length
  if 0 < length ∧ bytes.length = length then some bytes else none

def readValue (reader : MemoryReader) (address : Nat) (type : Int) : Option Bytes :=
  match SearchType.ofCode? type with
  | none => none
  | some t => reader.readExact address t.len

end MemoryReader

/-- A mapping of target memory in this process. Behind its end any byte may follow. -/
structure Buffer where
  size : Nat
  byte : Nat → UInt8

def Buffer.bytes (buffer : Buffer) (offset count : Nat) : Bytes :=
  (List.range count).map fun i => buffer.byte (offset + i)

/-- `map<uint64_t, uint64_t> regions`: base and size of the target's writable regions. -/
structure RegionMap where
  entries : List (Nat × Nat)
  ascending : entries.Pairwise fun a b => a.1 + a.2 ≤ b.1
  bounded : ∀ region ∈ entries, 0 < region.2 ∧ region.1 + region.2 < 2 ^ 64

structure Target where
  pageSize : Nat
  pageSize_pos : 0 < pageSize
  byte : Nat → UInt8
  readable : Nat → Bool
  /-- Whether a mapping of `size` bytes at `base` is obtained, by `vm_remap` or in place. -/
  remaps : Nat → Nat → Bool
  /-- What a read behind the end of such a mapping would see. -/
  beyond : Nat → Nat → Nat → UInt8
  /-- A mapping shows readable memory only: elsewhere a load would fault. -/
  remaps_readable : ∀ base size, remaps base size = true →
    ∀ i < size, readable (base + i) = true
  regions : RegionMap

namespace Target

def ofMemory (pageSize : Nat) (pageSize_pos : 0 < pageSize) (byte : Nat → UInt8)
    (readable : Nat → Bool) (regions : RegionMap) : Target where
  pageSize
  pageSize_pos
  byte
  readable
  remaps base size := (List.range size).all fun i => readable (base + i)
  beyond _ _ _ := 0
  remaps_readable _ _ mapped i inside :=
    List.all_eq_true.mp mapped i (List.mem_range.mpr inside)
  regions

theorem page_pos : 0 < 0x4000 := by decide

def onePage (byte : Nat → UInt8) : Target :=
  ofMemory 0x4000 page_pos byte (fun a => 0x100000000 ≤ a && a < 0x100004000)
    { entries := [(0x100000000, 0x4000)], ascending := by simp, bounded := by decide }

/-- `vm_read_overwrite`: all of the bytes or a failure. -/
def vmReadOverwrite (t : Target) (address length : Nat) : Option Bytes :=
  if (List.range length).all fun i => t.readable (address + i) then
    some ((List.range length).map fun i => t.byte (address + i))
  else none

def reader (t : Target) : MemoryReader where
  performRead address length :=
    match t.vmReadOverwrite address length with
    | some bytes => (length, fun i => bytes.getD i 0)
    | none => (0, fun _ => 0)

/-- The page loop of `loadRegion`: the size up to the first page that does not answer. -/
def probePages (t : Target) (base size : Nat) : Nat → Nat → Nat
  | 0, _ => size
  | fuel + 1, s =>
      if s < size then
        if (t.vmReadOverwrite (u64 (base + s)) 8).isSome then
          probePages t base size fuel (s + t.pageSize)
        else s
      else size

def loadRegion (t : Target) (base size : Nat) : Option Buffer :=
  let size := t.probePages base size (size / t.pageSize + 1) 0
  if size = 0 then none
  else if t.remaps base size then
    some ⟨size, fun i => if i < size then t.byte (base + i) else t.beyond base size i⟩
  else none

def loadedSize (t : Target) (base size : Nat) : Nat :=
  match t.loadRegion base size with
  | some buffer => buffer.size
  | none => 0

def bytesAt (t : Target) (address count : Nat) : Bytes :=
  (List.range count).map fun i => t.byte (address + i)

theorem vmReadOverwrite_eq_some {t : Target} {address length : Nat} {bytes : Bytes} :
    t.vmReadOverwrite address length = some bytes ↔
      (∀ i < length, t.readable (address + i) = true) ∧ bytes = t.bytesAt address length := by
  unfold vmReadOverwrite bytesAt
  split
  · rename_i h
    simp only [List.all_eq_true, List.mem_range] at h
    rw [Option.some.injEq]
    exact ⟨fun same => ⟨h, same.symm⟩, fun same => same.2.symm⟩
  · rename_i h
    simp only [List.all_eq_true, List.mem_range, not_forall] at h
    obtain ⟨i, below, failed⟩ := h
    simp only [reduceCtorEq, false_iff, not_and]
    intro every
    exact absurd (every i below) failed

@[simp] theorem bytesAt_length (t : Target) (address count : Nat) :
    (t.bytesAt address count).length = count := by simp [bytesAt]

theorem readExact_reader {t : Target} {address length : Nat} {bytes : Bytes} :
    t.reader.readExact address length = some bytes ↔
      0 < length ∧ (∀ i < length, t.readable (address + i) = true) ∧
        bytes = t.bytesAt address length := by
  unfold MemoryReader.readExact MemoryReader.readBytes
  by_cases positive : 0 < length
  · have nonzero : length ≠ 0 := by omega
    simp only [nonzero, ↓reduceIte, positive, true_and, reader]
    cases answer : t.vmReadOverwrite address length with
    | none =>
        simp only [Nat.zero_min, List.range_zero, List.map_nil, List.length_nil]
        rw [if_neg (by omega)]
        simp only [reduceCtorEq, false_iff, not_and]
        intro every
        have := vmReadOverwrite_eq_some.mpr ⟨every, rfl⟩
        simp [answer] at this
    | some read =>
        obtain ⟨every, rfl⟩ := vmReadOverwrite_eq_some.mp answer
        have shape : (List.range length).map (fun i => (t.bytesAt address length).getD i 0) =
            t.bytesAt address length := by
          apply List.ext_getElem (by simp)
          intro i hi _
          simp only [List.length_map, List.length_range] at hi
          simp [bytesAt, hi]
        simp only [Nat.min_self, shape, bytesAt_length, ↓reduceIte, Option.some.injEq]
        exact ⟨fun h => ⟨every, h.symm⟩, fun h => h.2.symm⟩
  · simp [positive]

section
variable {t : Target} {base size : Nat}

theorem probePages_le (fuel s : Nat) : t.probePages base size fuel s ≤ size := by
  induction fuel generalizing s with
  | zero => exact le_rfl
  | succ fuel ih =>
      unfold probePages
      split_ifs with inside answered
      · exact ih _
      · omega
      · exact le_rfl

theorem probePages_prefix {size' : Nat} (fuel fuel' s : Nat) (enough : size ≤ s + fuel * t.pageSize)
    (within : size' ≤ t.probePages base size fuel s) :
    t.probePages base size' fuel' s = size' := by
  induction fuel' generalizing s fuel with
  | zero => rfl
  | succ fuel' ih =>
      unfold probePages
      by_cases inside : s < size'
      · have bound := @probePages_le t base size fuel s
        have below : s < size := by omega
        cases fuel with
        | zero => omega
        | succ fuel =>
            unfold probePages at within
            rw [if_pos below] at within
            by_cases answered : (t.vmReadOverwrite (u64 (base + s)) 8).isSome = true
            · rw [if_pos answered] at within
              rw [if_pos inside, if_pos answered]
              refine ih fuel (s + t.pageSize) ?_ within
              rw [Nat.succ_mul] at enough
              omega
            · rw [if_neg answered] at within
              omega
      · rw [if_neg inside]

theorem loadRegion_eq_some {buffer : Buffer} (loaded : t.loadRegion base size = some buffer) :
    buffer.size = t.probePages base size (size / t.pageSize + 1) 0 ∧ 0 < buffer.size ∧
      t.remaps base buffer.size = true ∧
      buffer = ⟨buffer.size, fun i =>
        if i < buffer.size then t.byte (base + i) else t.beyond base buffer.size i⟩ := by
  simp only [loadRegion] at loaded
  split_ifs at loaded with empty mapped
  rw [Option.some.injEq] at loaded
  subst loaded
  exact ⟨rfl, Nat.pos_of_ne_zero empty, mapped, rfl⟩

theorem loadRegion_size_le {buffer : Buffer} (loaded : t.loadRegion base size = some buffer) :
    buffer.size ≤ size := by
  rw [(loadRegion_eq_some loaded).1]
  exact probePages_le _ _

theorem loadRegion_byte {buffer : Buffer} (loaded : t.loadRegion base size = some buffer)
    {i : Nat} (inside : i < buffer.size) : buffer.byte i = t.byte (base + i) := by
  rw [(loadRegion_eq_some loaded).2.2.2]
  simp [inside]

theorem loadRegion_bytes {buffer : Buffer} (loaded : t.loadRegion base size = some buffer)
    {offset count : Nat} (inside : offset + count ≤ buffer.size) :
    buffer.bytes offset count = t.bytesAt (base + offset) count := by
  apply List.map_congr_left
  intro i member
  rw [loadRegion_byte loaded (by have := List.mem_range.mp member; omega), Nat.add_assoc]

theorem loadRegion_readable {buffer : Buffer} (loaded : t.loadRegion base size = some buffer)
    {i : Nat} (inside : i < buffer.size) : t.readable (base + i) = true :=
  t.remaps_readable base _ (loadRegion_eq_some loaded).2.2.1 i inside

theorem loadRegion_again {buffer : Buffer} (loaded : t.loadRegion base size = some buffer) :
    t.loadRegion base buffer.size = some buffer := by
  obtain ⟨probed, positive, mapped, shape⟩ := loadRegion_eq_some loaded
  have again : t.probePages base buffer.size (buffer.size / t.pageSize + 1) 0 = buffer.size := by
    refine probePages_prefix (size / t.pageSize + 1) _ 0 ?_ probed.le
    have := Nat.lt_div_mul_add (a := size) t.pageSize_pos
    rw [Nat.succ_mul]
    omega
  simp only [loadRegion, again, mapped, if_neg (Nat.pos_iff_ne_zero.mp positive), ↓reduceIte]
  rw [Option.some.injEq]
  exact shape.symm

theorem probePages_of_readable (readable : ∀ a, t.readable a = true) (fuel s : Nat) :
    t.probePages base size fuel s = size := by
  induction fuel generalizing s with
  | zero => rfl
  | succ fuel ih =>
      have answered : (t.vmReadOverwrite (u64 (base + s)) 8).isSome = true := by
        simp [vmReadOverwrite, readable]
      unfold probePages
      rw [if_pos answered, ih]
      exact ite_self _

theorem loadedSize_of_some {buffer : Buffer} (loaded : t.loadRegion base size = some buffer) :
    t.loadedSize base size = buffer.size := by
  simp [loadedSize, loaded]

theorem loadedSize_ofMemory {pageSize : Nat} {positive : 0 < pageSize} {byte : Nat → UInt8}
    {regions : RegionMap} (base size : Nat) :
    (ofMemory pageSize positive byte (fun _ => true) regions).loadedSize base size = size := by
  have mapped : (ofMemory pageSize positive byte (fun _ => true) regions).remaps base size = true :=
    List.all_eq_true.mpr fun _ _ => rfl
  have probed (fuel : Nat) : (ofMemory pageSize positive byte (fun _ => true) regions).probePages
      base size fuel 0 = size := probePages_of_readable (fun _ => rfl) fuel 0
  simp only [loadedSize, loadRegion, probed, mapped, ↓reduceIte]
  by_cases empty : size = 0 <;> simp [empty]

end

end Target

end H5GG
