import H5GG.MemoryPage
import H5GG.Proof.PointerSearch

/-!
# A page holds what the memory holds

Every call moves the border between the bytes that are settled and those that are still `-1`.
-/

namespace H5GG
open PointerSearch

/-- A reader of a partial memory. It may answer with any part of what is there, from the first byte
on, and gives a readable byte that is asked for alone. -/
structure Serves (memory : Nat → Option UInt8) (reader : MemoryReader) : Prop where
  part : ∀ address length i byte, (reader.readBytes address length)[i]? = some byte →
    memory (address + i) = some byte
  single : ∀ address byte, memory address = some byte → (reader.readBytes address 1).length = 1

/-- What a page shows of an address. -/
def shownByte (memory : Nat → Option UInt8) (address : Nat) : Int :=
  (memory address).elim (-1) fun byte => byte.toNat

def exactPage (memory : Nat → Option UInt8) (address length : Nat) : JJMemoryPage :=
  ⟨address, (List.range length).map fun i => shownByte memory (address + i)⟩

/-- The page is right below `done`, and `-1` from there on. -/
structure Filled (memory : Nat → Option UInt8) (address length done : Nat) (bytes : List Int) :
    Prop where
  size : bytes.length = length
  settled : ∀ i, i < done → i < length → bytes[i]? = some (shownByte memory (address + i))
  later : ∀ i, done ≤ i → i < length → bytes[i]? = some (-1)

namespace Filled
variable {memory : Nat → Option UInt8} {address length done : Nat} {bytes : List Int}

theorem start : Filled memory address length 0 (List.replicate length (-1)) where
  size := List.length_replicate
  settled _ low := absurd low (Nat.not_lt_zero _)
  later i _ high := by rw [List.getElem?_replicate, if_pos high]

theorem set (filled : Filled memory address length done bytes) {byte : UInt8}
    (there : memory (address + done) = some byte) :
    Filled memory address length (done + 1) (bytes.set done byte.toNat) where
  size := by rw [List.length_set, filled.size]
  settled i low high := by
    rw [List.getElem?_set]
    by_cases last : done = i
    · subst last
      rw [if_pos rfl, if_pos (by rwa [filled.size]), shownByte, there]
      rfl
    · rw [if_neg last]
      exact filled.settled i (by omega) high
  later i low high := by
    rw [List.getElem?_set, if_neg (by omega)]
    exact filled.later i (by omega) high

theorem skip (filled : Filled memory address length done bytes) (none : memory (address + done) = none) :
    Filled memory address length (done + 1) bytes where
  size := filled.size
  settled i low high := by
    by_cases last : i = done
    · subst last
      rw [filled.later i le_rfl high, shownByte, none]
      rfl
    · exact filled.settled i (by omega) high
  later i low high := filled.later i (by omega) high

theorem put (filled : Filled memory address length done bytes) (buffer : Bytes)
    (there : ∀ i byte, buffer[i]? = some byte → memory (address + done + i) = some byte) :
    Filled memory address length (done + buffer.length) (putBytes bytes done buffer) := by
  induction buffer generalizing done bytes with
  | nil => exact filled
  | cons byte buffer ih =>
      rw [putBytes, List.length_cons, Nat.add_comm buffer.length, ← Nat.add_assoc]
      apply ih (filled.set (there 0 byte rfl))
      intro i byte found
      rw [← Nat.add_assoc, Nat.add_assoc _ 1, Nat.add_comm 1]
      exact there (i + 1) byte found

theorem exact (filled : Filled memory address length done bytes) (all : length ≤ done) :
    (⟨address, bytes⟩ : JJMemoryPage) = exactPage memory address length := by
  unfold exactPage
  congr 1
  apply List.ext_getElem?
  intro i
  by_cases inside : i < length
  · rw [filled.settled i (by omega) inside]
    simp [inside]
  · rw [List.getElem?_eq_none (by rw [filled.size]; omega), List.getElem?_eq_none (by simpa using inside)]

section
variable {readers : Nat → MemoryReader} {state : Nat × List Int}

theorem singly (serves : ∀ call, Serves memory (readers call))
    (filled : Filled memory address length done state.2) (remaining : Nat)
    (fits : address + done + remaining ≤ 2 ^ 64) :
    Filled memory address length (done + remaining) (readSingly readers address done remaining state).2 := by
  induction remaining generalizing done state with
  | zero => exact filled
  | succ remaining ih =>
      obtain ⟨calls, bytes⟩ := state
      rw [readSingly, Nat.add_comm remaining, ← Nat.add_assoc, u64_of_lt (by omega)]
      apply ih _ (by omega)
      have answer := (serves calls).part (address + done) 1
      unfold MemoryReader.readExact
      cases there : memory (address + done) with
      | none =>
          have empty : (readers calls).readBytes (address + done) 1 = [] := by
            apply List.eq_nil_iff_forall_not_mem.mpr
            intro byte member
            obtain ⟨i, found⟩ := List.getElem?_of_mem member
            have length := (List.getElem?_eq_some_iff.mp found).1
            have := MemoryReader.readBytes_length (readers calls) (address + done) 1
            obtain rfl : i = 0 := by omega
            cases there.symm.trans (answer 0 byte found)
          simp only [empty]
          exact filled.skip there
      | some byte =>
          have one := (serves calls).single (address + done) byte there
          simp only [one, Nat.lt_one_iff, and_self, ↓reduceIte]
          have := filled.put ((readers calls).readBytes (address + done) 1)
            fun i byte found => answer i byte found
          rwa [one] at this

theorem chunk (serves : ∀ call, Serves memory (readers call))
    (filled : Filled memory address length done state.2) {requested : Nat}
    (fits : address + done + requested ≤ 2 ^ 64) (positive : 0 < requested) :
    Filled memory address length (done + requested)
      (readChunk readers address done requested state).2 := by
  obtain ⟨calls, bytes⟩ := state
  have bound := MemoryReader.readBytes_length (readers calls) (address + done) requested
  have split : done + requested = done + ((readers calls).readBytes (address + done) requested).length +
      (requested - ((readers calls).readBytes (address + done) requested).length) := by omega
  unfold readChunk
  simp only [u64_of_lt (show address + done < 2 ^ 64 by omega)]
  rw [split]
  apply singly serves _ _ (by omega)
  exact filled.put _ fun i byte found => (serves calls).part _ _ i byte found

theorem chunks (serves : ∀ call, Serves memory (readers call)) {chunkSize : Nat}
    (positive : 0 < chunkSize) (filled : Filled memory address length done state.2)
    (inside : done ≤ length) (fits : address + length ≤ 2 ^ 64) :
    Filled memory address length length
      (readChunks readers address length chunkSize positive done state).2 := by
  induction left : length - done using Nat.strong_induction_on generalizing done state with
  | h n ih =>
      rw [readChunks]
      by_cases more : done < length
      · rw [if_pos more]
        refine ih _ ?_ (filled.chunk serves ?_ ?_) ?_ rfl <;> omega
      · rw [if_neg more]
        obtain rfl : done = length := by omega
        exact filled

end

end Filled

theorem exactPage_complete (memory : Nat → Option UInt8) (address length : Nat) :
    (exactPage memory address length).complete = true ↔
      ∀ i < length, (memory (address + i)).isSome = true := by
  have shown (i : Nat) : 0 ≤ shownByte memory i ↔ (memory i).isSome = true := by
    unfold shownByte
    cases memory i with
    | none => simp
    | some byte => simp
  simp only [JJMemoryPage.complete, JJMemoryPage.readableCount, decide_eq_true_eq, exactPage,
    List.countP_eq_length, List.forall_mem_map, List.mem_range, shown]

/-- Both ways to answer a request that reaches into a hole are covered. -/
theorem memoryReader_serves (mode : ReadMode) (memory : Nat → Option UInt8) :
    Serves memory (memoryReader mode memory) where
  part address length i byte found := by
    have inside := (List.getElem?_eq_some_iff.mp found).1
    have positive : 0 < length := by
      have := MemoryReader.readBytes_length (memoryReader mode memory) address length
      omega
    have readable : i + 1 ≤ readablePrefix memory address length := by
      rw [memoryReader_length address length positive] at inside
      have short : readablePrefix memory address length ≤ length := (le_readablePrefix.mp le_rfl).1
      cases mode with
      | longestPrefix => exact inside
      | allOrNothing =>
          dsimp only at inside
          split at inside <;> omega
    obtain ⟨value, there⟩ := Option.isSome_iff_exists.mp
      ((le_readablePrefix.mp readable).2 i (Nat.lt_succ_self i))
    unfold MemoryReader.readBytes at found
    rw [if_neg positive.ne'] at found
    obtain ⟨_, same⟩ := List.getElem?_eq_some_iff.mp found
    rw [← same, List.getElem_map, List.getElem_range]
    show _ = some ((memory (address + i)).getD 0)
    rw [there]
    rfl
  single address byte there := by
    have one : readablePrefix memory address 1 = 1 := by
      apply le_antisymm (le_readablePrefix.mp le_rfl).1
      refine le_readablePrefix.mpr ⟨le_rfl, fun i low => ?_⟩
      obtain rfl : i = 0 := by omega
      exact Option.isSome_iff_exists.mpr ⟨byte, there⟩
    rw [memoryReader_length address 1 Nat.one_pos, one]
    cases mode <;> rfl

/-- What a page of an interval is, for every way to answer. -/
structure PageExact (memory : Nat → Option UInt8) (address length chunkSize : Nat) : Prop where
  exact : length - 1 ≤ 2 ^ 64 - 1 - address → ∀ readers : Nat → MemoryReader,
    (∀ call, Serves memory (readers call)) →
      ∃ calls, jjReadMemoryPage readers address length chunkSize =
        some (calls, exactPage memory address length)
  complete : length - 1 ≤ 2 ^ 64 - 1 - address → ∀ readers : Nat → MemoryReader,
    (∀ call, Serves memory (readers call)) →
      ∃ calls page, jjReadMemoryPage readers address length chunkSize = some (calls, page) ∧
        (page.complete = true ↔ ∀ i < length, (memory (address + i)).isSome = true)
  passes : 2 ^ 64 - 1 - address < length - 1 → ∀ readers,
    jjReadMemoryPage readers address length chunkSize =
      some (0, ⟨address, List.replicate length (-1)⟩)

/-- The vectors that a call makes are not too long: the one of the page, and the buffer if anything
is read. -/
def VectorsFit (address length chunkSize : Nat) : Prop :=
  length < 2 ^ 62 ∧ (length = 0 ∨ 2 ^ 64 - 1 - address < length - 1 ∨ chunkSize < 2 ^ 63)

theorem page_fits {length : Nat} : ¬vectorMaxSize 2 < length ↔ length < 2 ^ 62 := by
  unfold vectorMaxSize
  omega

theorem buffer_fits {chunkSize : Nat} :
    ¬vectorMaxSize 1 < (if chunkSize = 0 then 1 else chunkSize) ↔ chunkSize < 2 ^ 63 := by
  unfold vectorMaxSize
  split <;> omega

section
variable {readers : Nat → MemoryReader} {address length chunkSize : Nat}

theorem jjReadMemoryPage_early (page : length < 2 ^ 62)
    (early : length = 0 ∨ 2 ^ 64 - 1 - address < length - 1) :
    jjReadMemoryPage readers address length chunkSize =
      some (0, ⟨address, List.replicate length (-1)⟩) := by
  have early : (length = 0 || 2 ^ 64 - 1 - address < length - 1 : Bool) = true := by
    simpa using early
  rw [jjReadMemoryPage, if_neg (page_fits.mpr page), if_pos early]

theorem jjReadMemoryPage_read (page : length < 2 ^ 62) (some' : length ≠ 0)
    (fits : length - 1 ≤ 2 ^ 64 - 1 - address) (buffer : chunkSize < 2 ^ 63) :
    jjReadMemoryPage readers address length chunkSize =
      some ((readChunks readers address length _ (chunkSize_pos chunkSize) 0
          (0, List.replicate length (-1))).1,
        ⟨address, (readChunks readers address length _ (chunkSize_pos chunkSize) 0
          (0, List.replicate length (-1))).2⟩) := by
  have late : ¬(length = 0 || 2 ^ 64 - 1 - address < length - 1 : Bool) = true := by
    simp only [Bool.or_eq_true, decide_eq_true_eq]
    omega
  rw [jjReadMemoryPage, if_neg (page_fits.mpr page), if_neg late, if_neg (buffer_fits.mpr buffer)]

/-- A page that is handed out was made of vectors that fit. -/
theorem vectorsFit_of_some {result : Nat × JJMemoryPage}
    (made : jjReadMemoryPage readers address length chunkSize = some result) :
    VectorsFit address length chunkSize := by
  unfold jjReadMemoryPage at made
  split at made
  · cases made
  · rename_i page
    refine ⟨page_fits.mp page, ?_⟩
    dsimp only at made
    split at made
    · rename_i early
      simp only [Bool.or_eq_true, decide_eq_true_eq] at early
      exact early.imp_right .inl
    · by_cases buffer : vectorMaxSize 1 < if chunkSize = 0 then 1 else chunkSize
      · rw [if_pos buffer] at made
        cases made
      · exact .inr (.inr (buffer_fits.mp buffer))

theorem jjReadMemoryPage_fits {memory : Nat → Option UInt8} (word : address < 2 ^ 64)
    (fit : VectorsFit address length chunkSize) (fits : length - 1 ≤ 2 ^ 64 - 1 - address)
    (serves : ∀ call, Serves memory (readers call)) :
    ∃ calls, jjReadMemoryPage readers address length chunkSize =
      some (calls, exactPage memory address length) := by
  obtain ⟨page, nothing | passes | buffer⟩ := fit
  · rw [jjReadMemoryPage_early page (.inl nothing), nothing]
    exact ⟨0, rfl⟩
  · exact absurd fits (Nat.not_le_of_lt passes)
  · by_cases nothing : length = 0
    · rw [jjReadMemoryPage_early page (.inl nothing), nothing]
      exact ⟨0, rfl⟩
    · rw [jjReadMemoryPage_read page nothing fits buffer]
      have filled : Filled memory address length length (readChunks readers address length _
          (chunkSize_pos chunkSize) 0 (0, List.replicate length (-1))).2 :=
        Filled.start.chunks serves _ (Nat.zero_le _) (by omega)
      rw [filled.exact le_rfl]
      exact ⟨_, rfl⟩

end

/-- A page is what the memory holds exactly where its vectors can be made. -/
theorem jjReadMemoryPage_exact_iff (memory : Nat → Option UInt8) {address : Nat}
    (word : address < 2 ^ 64) (length chunkSize : Nat) :
    PageExact memory address length chunkSize ↔ VectorsFit address length chunkSize := by
  constructor
  · intro exact
    rcases Nat.lt_or_ge (2 ^ 64 - 1 - address) (length - 1) with passes | fits
    · exact vectorsFit_of_some (exact.passes passes fun _ => memoryReader .longestPrefix memory)
    · obtain ⟨calls, read⟩ := exact.exact fits (fun _ => memoryReader .longestPrefix memory)
        fun _ => memoryReader_serves .longestPrefix memory
      exact vectorsFit_of_some read
  · intro fit
    constructor
    · exact fun fits readers serves => jjReadMemoryPage_fits word fit fits serves
    · intro fits readers serves
      obtain ⟨calls, read⟩ := jjReadMemoryPage_fits word fit fits serves
      exact ⟨calls, _, read, exactPage_complete memory address length⟩
    · exact fun passes readers => jjReadMemoryPage_early fit.1 (.inr passes)

/-- Six bytes with a hole behind the third. -/
def holed (address : Nat) : Option UInt8 :=
  if address = 0x1003 then none else [0x10, 0x11, 0x12, 0x13, 0x14, 0x15][address - 0x1000]?

theorem jjReadMemoryPage_holed :
    ∃ calls, jjReadMemoryPage (fun _ => memoryReader .allOrNothing holed) 0x1000 8 4 =
      some (calls, ⟨0x1000, [0x10, 0x11, 0x12, -1, 0x14, 0x15, -1, -1]⟩) :=
  ((jjReadMemoryPage_exact_iff holed (by decide) 8 4).mpr
    ⟨by decide, .inr (.inr (by decide))⟩).exact (by decide) _
      fun _ => memoryReader_serves .allOrNothing holed

/-- Three bytes, for which the code makes a buffer that no vector can have. -/
theorem jjReadMemoryPage_oversized : ¬PageExact holed 0x1000 3 (2 ^ 63) := by
  intro exact
  obtain ⟨calls, read⟩ := exact.exact (by decide) (fun _ => memoryReader .allOrNothing holed)
    fun _ => memoryReader_serves .allOrNothing holed
  have thrown : jjReadMemoryPage (fun _ => memoryReader .allOrNothing holed) 0x1000 3 (2 ^ 63) =
      none := by simp [jjReadMemoryPage, vectorMaxSize]
  rw [thrown] at read
  cases read

end H5GG
