import H5GG.Editing
import H5GG.Library.Overwrite
import H5GG.Proof.Engine.Ascending
import H5GG.Proof.Engine.Refine
import H5GG.Proof.Facade
import H5GG.Proof.Value.RoundTrip
import H5GG.Proof.WriteMemory

/-!
# What an edit of all results leaves
-/

namespace H5GG
open Overwrite Validation

/-! ## The writes of `JJWriteAll` -/

/-- The addresses that `JJWriteAll` writes to, in its order. -/
def Engine.addresses (e : Engine) : List Nat :=
  e.result.allRegions.flatMap fun region => region.slides.map region.address

/-- What the `k`-th write comes to. -/
def writeStore (failures : Nat → Option (Nat → UInt8)) (target : Bytes) (k address : Nat) :
    Store UInt8 where
  address := address
  length := target.length
  cell a := (failures k).elim (target.getD (a - address) 0) fun left => left a

def writeStores (failures : Nat → Option (Nat → UInt8)) (target : Bytes) (first : Nat)
    (addresses : List Nat) : List (Store UInt8) :=
  addresses.mapIdx fun k address => writeStore failures target (first + k) address

section
variable {failures : Nat → Option (Nat → UInt8)} {target : Bytes} {memory : TaskMemory}

theorem vmWrite_protection (address : Nat) (failure : Option (Nat → UInt8)) :
    (memory.vmWrite address target failure).2.protection = memory.protection := by
  cases failure <;> rfl

theorem vmWrite_written (address : Nat) (failure : Option (Nat → UInt8)) :
    (memory.vmWrite address target failure).1 = failure.isNone := by
  cases failure <;> rfl

theorem vmWrite_byte (k address : Nat) :
    (memory.vmWrite address target (failures k)).2.byte =
      (writeStore failures target k address).put memory.byte := by
  funext a
  have window : (writeStore failures target k address).covers a = true ↔
      address ≤ a ∧ a < address + target.length := Store.covers_iff
  simp only [Store.put, window]
  cases failed : failures k with
  | none => simp only [writeStore, failed, Option.elim_none]; rfl
  | some left => simp only [writeStore, failed, Option.elim_some]; rfl

/-- What a run of the loop body adds to where it started. -/
structure Writes (failures : Nat → Option (Nat → UInt8)) (target : Bytes) (state : Writing)
    (addresses : List Nat) (after : Writing) : Prop where
  protection : after.memory.protection = state.memory.protection
  byte : after.memory.byte =
    execute Store.put (writeStores failures target state.calls addresses) state.memory.byte
  count : int32 after.count = int32 (state.count +
    (List.range addresses.length).countP fun k => (failures (state.calls + k)).isNone)
  bounded : int32 state.count = state.count → int32 after.count = after.count

variable (failures target) in
theorem writes_step (state : Writing) (address : Nat) :
    (state.step failures target address).memory.protection = state.memory.protection ∧
      (state.step failures target address).memory.byte =
        (writeStore failures target state.calls address).put state.memory.byte ∧
      (state.step failures target address).count =
        (if (failures state.calls).isNone then int32 (state.count + 1) else state.count) ∧
      (state.step failures target address).calls = state.calls + 1 := by
  refine ⟨vmWrite_protection _ _, vmWrite_byte _ _, ?_, rfl⟩
  have written : (state.memory.vmWrite address target (failures state.calls)).1 =
      (failures state.calls).isNone := vmWrite_written address _
  rw [Writing.step, ← written]

theorem writes_run (addresses : List Nat) (state : Writing) :
    Writes failures target state addresses
      (addresses.foldl (Writing.step failures target) state) := by
  induction addresses generalizing state with
  | nil => exact ⟨rfl, rfl, by simp, id⟩
  | cons address rest ih =>
      obtain ⟨protection, byte, count, calls⟩ := writes_step failures target state address
      have after := ih (state.step failures target address)
      rw [List.foldl_cons]
      refine ⟨after.protection.trans protection, ?_, ?_, fun bounded => after.bounded ?_⟩
      · rw [after.byte, byte, calls, writeStores, writeStores, List.mapIdx_cons, execute_cons]
        simp only [Nat.add_zero, Nat.add_assoc, Nat.add_comm 1]
      · rw [after.count, count, calls, List.length_cons, List.range_succ_eq_map,
          List.countP_cons, List.countP_map]
        have shifted : (List.range rest.length).countP
              ((fun k => (failures (state.calls + k)).isNone) ∘ Nat.succ) =
            (List.range rest.length).countP fun k => (failures (state.calls + 1 + k)).isNone := by
          simp only [Function.comp_def, Nat.succ_eq_add_one, Nat.add_assoc, Nat.add_comm 1]
        rw [shifted]
        cases failed : (failures state.calls).isNone with
        | true =>
            simp only [if_true]
            rw [int32, int32, Int.bmod_add_bmod]
            congr 1
            push_cast
            omega
        | false =>
            simp only [Bool.false_eq_true, if_false, Nat.add_zero]
      · rw [count]
        split
        · exact Int.bmod_bmod
        · exact bounded

variable (failures target memory) in
theorem jjWriteAll_eq (e : Engine) (t : SearchType) :
    ∃ after, Writes failures (target.take t.len) { memory } e.addresses after ∧
      e.jjWriteAll failures target t.code memory = (after.count, after.memory) := by
  refine ⟨_, writes_run e.addresses { memory }, ?_⟩
  rw [Engine.jjWriteAll, SearchType.ofCode?_code, Engine.addresses, List.foldl_flatMap]
  simp only [List.foldl_map]

/-- An edit of all results by `bytes`, of which a value has `len`. -/
structure Edited (failures : Nat → Option (Nat → UInt8)) (len : Nat) (bytes : Bytes) (e : Engine)
    (memory : TaskMemory) (outcome : Int × TaskMemory) : Prop where
  protection : outcome.2.protection = memory.protection
  count : outcome.1 =
    int32 ((List.range e.addresses.length).countP fun k => (failures k).isNone)
  frame : ∀ a, (∀ address ∈ e.addresses, a < address ∨ address + len ≤ a) →
    outcome.2.byte a = memory.byte a
  written : ∀ k address, e.addresses[k]? = some address → failures k = none →
    (∀ j later, k < j → e.addresses[j]? = some later →
      address + len ≤ later ∨ later + len ≤ address) →
    ∀ i < len, outcome.2.byte (address + i) = bytes.getD i 0

theorem covers_writeStore {k address a : Nat} :
    (writeStore failures target k address).covers a = true ↔
      address ≤ a ∧ a < address + target.length := Store.covers_iff

theorem take_len_length {t : SearchType} {bytes : Bytes} (eight : bytes.length = 8) :
    (bytes.take t.len).length = t.len := by
  rw [List.length_take, eight]
  exact Nat.min_eq_left (len_le_eight t)

theorem jjWriteAll_edited (e : Engine) (t : SearchType) {bytes : Bytes} (eight : bytes.length = 8) :
    Edited failures t.len bytes e memory (e.jjWriteAll failures bytes t.code memory) := by
  obtain ⟨after, writes, wrote⟩ := jjWriteAll_eq failures bytes memory e t
  have len : (bytes.take t.len).length = t.len := take_len_length eight
  have stored := writes.byte
  rw [wrote]
  refine ⟨writes.protection, ?_, fun a outside => ?_, ?_⟩
  · have counted := writes.count
    rw [writes.bounded rfl] at counted
    simpa only [Int.zero_add, Nat.zero_add] using counted
  · rw [stored]
    apply execute_frame
    intro store among
    obtain ⟨k, inside, rfl⟩ := List.mem_mapIdx.mp among
    have apart := outside _ (List.getElem_mem inside)
    rw [← Bool.not_eq_true, covers_writeStore, len]
    omega
  · intro k address listed succeeded later i inside
    rw [stored]
    obtain ⟨bound, rfl⟩ := List.getElem?_eq_some_iff.mp listed
    have place : (writeStores failures (bytes.take t.len) 0 e.addresses)[k]? =
        some (writeStore failures (bytes.take t.len) k e.addresses[k]) := by
      rw [writeStores, List.getElem?_mapIdx, listed, Option.map_some, Nat.zero_add]
    obtain ⟨bound', store⟩ := List.getElem?_eq_some_iff.mp place
    have split := List.take_append_drop k (writeStores failures (bytes.take t.len) 0 e.addresses)
    rw [List.drop_eq_getElem_cons bound', store] at split
    rw [execute_last _ split.symm]
    · simp only [writeStore, succeeded, Option.elim_none, Nat.add_sub_cancel_left,
        List.getD_eq_getElem?_getD, List.getElem?_take_of_lt inside]
    · rw [covers_writeStore, len]
      omega
    · intro other behind
      obtain ⟨j, here⟩ := List.mem_iff_getElem?.mp behind
      rw [List.getElem?_drop, writeStores, List.getElem?_mapIdx] at here
      obtain ⟨next, found, rfl⟩ := Option.map_eq_some_iff.mp here
      have apart := later _ next (by omega) found
      rw [← Bool.not_eq_true, covers_writeStore, len]
      omega

end

/-! ## What is read back -/

theorem parseTarget_hexAddress {address : Nat} (there : address ≠ 0) (small : address < 2 ^ 64) :
    MemorySession.parseTarget (some (.ofAscii (hexAddress address))) = some address := by
  have parsed : FreezerController.parseAddress (some (.ofAscii (hexAddress address))) =
      some address :=
    parseAddress_eq_some.mpr ⟨_, utf8String_hexAddress address, spells_hexDigits address, small⟩
  rw [MemorySession.parseTarget, parsed, Option.filter_some, if_pos (decide_eq_true there)]

theorem Engine.addresses_small {e : Engine} {address : Nat} (among : address ∈ e.addresses) :
    address < 2 ^ 64 := by
  obtain ⟨region, -, inside⟩ := List.mem_flatMap.mp among
  obtain ⟨slide, -, rfl⟩ := List.mem_map.mp inside
  exact Nat.mod_lt _ (Nat.two_pow_pos 64)

theorem formatValue_take {t : SearchType} {first second : Bytes}
    (same : first.take t.len = second.take t.len) :
    MemorySession.formatValue first t.code = MemorySession.formatValue second t.code := by
  simp only [MemorySession.formatValue, jjFormatValue, SearchType.ofCode?_code, same]

theorem readValue_code {t : Target} {address : Nat} (type : SearchType) :
    t.reader.readValue address type.code = t.reader.readExact address type.len := by
  rw [MemoryReader.readValue, SearchType.ofCode?_code]

/-- Where a value is readable, `getValue` shows it. -/
theorem getValue_readable {t : Target} {valuebuf : Bytes} {spelling type : Option NSString}
    {jjtype : SearchType} (named : jjTypeFromName (NSString.utf8String type) = jjtype.code)
    {address : Nat} (spelled : MemorySession.parseTarget spelling = some address)
    (readable : ∀ i < jjtype.len, t.readable (address + i) = true) {bytes : Bytes}
    (held : t.bytesAt address jjtype.len = bytes.take jjtype.len) :
    MemorySession.getValue t.reader valuebuf spelling type =
      MemorySession.formatValue bytes jjtype.code := by
  have read : t.reader.readValue address jjtype.code = some (t.bytesAt address jjtype.len) := by
    rw [readValue_code]
    exact Target.readExact_reader.mpr ⟨jjtype.len_pos, readable, rfl⟩
  have typed : decide (jjtype.code ≠ 0) = true := decide_eq_true jjtype.code_ne_zero
  rw [MemorySession.getValue, named]
  simp only [typed, require, accept, spelled, read, if_true, bind,
    Except.bind]
  apply formatValue_take
  rw [List.take_append_of_le_length (by rw [Target.bytesAt_length]), held, List.take_take,
    Nat.min_self]

theorem storeValue_length {width : Nat} (fits : width ≤ 8) (value : Nat) :
    (storeValue width value).length = 8 := by
  rw [storeValue, List.length_append, Word.toLittleEndian_length, List.length_replicate]
  omega

/-- A value fills all of the buffer that it is parsed into. -/
theorem jjParseValue_length {text : CString} {type : Int} {bytes : Bytes}
    (parsed : jjParseValue text type = some bytes) : bytes.length = 8 := by
  have stored (t : SearchType) (value : Nat) : (storeValue t.len value).length = 8 :=
    storeValue_length (len_le_eight t) value
  unfold jjParseValue at parsed
  cases known : SearchType.ofCode? type with
  | none =>
      rw [known] at parsed
      cases parsed
  | some t =>
      simp only [known] at parsed
      cases kind : t.scalar with
      | signed =>
          simp only [kind, parseSigned] at parsed
          split_ifs at parsed
          exact Option.some.inj parsed ▸ stored t _
      | unsigned =>
          simp only [kind, parseUnsigned] at parsed
          split_ifs at parsed
          exact Option.some.inj parsed ▸ stored t _
      | floating format =>
          simp only [kind, parseFloating] at parsed
          split_ifs at parsed
          obtain ⟨value, -, rfl⟩ := Option.map_eq_some_iff.mp parsed
          exact stored t value

/-- What `getValue` shows at the addresses of the results: the value where one was written, and not
written over; nothing where the memory is not readable; and at 0 it refuses. -/
structure ShownBack (failures : Nat → Option (Nat → UInt8)) (type : Option NSString)
    (jjtype : SearchType) (bytes : Bytes) (e : Engine) (memory : TaskMemory) : Prop where
  written : ∀ (target : Target) (valuebuf : Bytes) (k address : Nat), target.byte = memory.byte →
    e.addresses[k]? = some address → address ≠ 0 → failures k = none →
    (∀ j later, k < j → e.addresses[j]? = some later →
      address + jjtype.len ≤ later ∨ later + jjtype.len ≤ address) →
    (∀ i < jjtype.len, target.readable (address + i) = true) →
    MemorySession.getValue target.reader valuebuf (some (.ofAscii (hexAddress address))) type =
      MemorySession.formatValue bytes jjtype.code
  unreadable : ∀ (target : Target) (valuebuf : Bytes), ∀ address ∈ e.addresses, address ≠ 0 →
    ¬(∀ i < jjtype.len, target.readable (address + i) = true) →
    MemorySession.getValue target.reader valuebuf (some (.ofAscii (hexAddress address))) type =
      .error none
  refused : ∀ (target : Target) (valuebuf : Bytes),
    MemorySession.getValue target.reader valuebuf (some (.ofAscii (hexAddress 0))) type =
      .error (some "读取失败:地址格式有误!")

theorem getValue_unreadable {t : Target} {valuebuf : Bytes} {spelling type : Option NSString}
    {jjtype : SearchType} (named : jjTypeFromName (NSString.utf8String type) = jjtype.code)
    {address : Nat} (spelled : MemorySession.parseTarget spelling = some address)
    (unreadable : ¬∀ i < jjtype.len, t.readable (address + i) = true) :
    MemorySession.getValue t.reader valuebuf spelling type = .error none := by
  have read : t.reader.readValue address jjtype.code = none := by
    rw [readValue_code]
    cases answered : t.reader.readExact address jjtype.len with
    | none => rfl
    | some bytes => exact absurd (Target.readExact_reader.mp answered).2.1 unreadable
  have typed : decide (jjtype.code ≠ 0) = true := decide_eq_true jjtype.code_ne_zero
  rw [MemorySession.getValue, named]
  simp only [typed, require, accept, spelled, read, if_true, bind, Except.bind]

theorem getValue_refused {t : Target} {valuebuf : Bytes} {spelling type : Option NSString}
    {jjtype : SearchType} (named : jjTypeFromName (NSString.utf8String type) = jjtype.code)
    (unspelled : MemorySession.parseTarget spelling = none) :
    MemorySession.getValue t.reader valuebuf spelling type =
      .error (some "读取失败:地址格式有误!") := by
  have typed : decide (jjtype.code ≠ 0) = true := decide_eq_true jjtype.code_ne_zero
  rw [MemorySession.getValue, named]
  simp only [typed, require, accept, unspelled, if_true, bind, Except.bind]

theorem parseValue_ok {value type : Option NSString} {jjtype : Int} {bytes : Bytes}
    (parsed : MemorySession.parseValue value type = .ok (jjtype, bytes)) :
    ∃ (t : SearchType) (text : CString), jjtype = t.code ∧
      jjTypeFromName (NSString.utf8String type) = t.code ∧
      NSString.utf8String value = some text ∧ jjParseValue text t.code = some bytes := by
  simp only [MemorySession.parseValue, bind_eq_ok, require_eq_ok, accept_eq_ok, pure_eq_ok,
    decide_eq_true_eq, Prod.mk.injEq] at parsed
  obtain ⟨-, valid, _, accepted, rfl, rfl⟩ := parsed
  obtain ⟨t, code⟩ := jjTypeFromName_code _ valid
  obtain ⟨text, utf8, value⟩ := Option.bind_eq_some_iff.mp accepted
  rw [code] at value ⊢
  exact ⟨t, text, rfl, rfl, utf8, value⟩

/-- An edit writes the value to every result, in order, and to nothing else; it counts the writes
that succeed, and `getValue` shows the value at each result, unless it is at 0 or not readable, that
no later write of the edit reached. -/
theorem editAll_edits {failures : Nat → Option (Nat → UInt8)} {value type : Option NSString}
    {memory : TaskMemory} {session : MemorySession} {outcome : Int × TaskMemory}
    (accepted : session.editAll failures value type memory = .ok outcome) :
    ∃ (jjtype : SearchType) (text : CString) (bytes : Bytes),
      jjTypeFromName (NSString.utf8String type) = jjtype.code ∧
        NSString.utf8String value = some text ∧ jjParseValue text jjtype.code = some bytes ∧
        Edited failures jjtype.len bytes session.engine memory outcome ∧
        ShownBack failures type jjtype bytes session.engine outcome.2 := by
  simp only [MemorySession.editAll, bind_eq_ok, require_eq_ok, pure_eq_ok, Prod.exists] at accepted
  obtain ⟨_, bytes, parsed, -, -, rfl⟩ := accepted
  obtain ⟨jjtype, text, rfl, named, utf8, value⟩ := parseValue_ok parsed
  have edited : Edited failures jjtype.len bytes session.engine memory _ :=
    jjWriteAll_edited session.engine jjtype (jjParseValue_length value)
  refine ⟨jjtype, text, bytes, named, utf8, value, edited, ?_⟩
  constructor
  case unreadable =>
    intro target valuebuf address among there
    exact getValue_unreadable named (parseTarget_hexAddress there (Engine.addresses_small among))
  case refused => exact fun target valuebuf => getValue_refused named (by decide)
  case written =>
    intro target valuebuf k address same listed there succeeded later readable
    have small := Engine.addresses_small (List.mem_of_getElem? listed)
    apply getValue_readable named (parseTarget_hexAddress there small) readable
    apply List.ext_getElem
    · rw [Target.bytesAt_length, take_len_length (jjParseValue_length value)]
    · intro i inside within
      have below : i < jjtype.len := by rwa [Target.bytesAt_length] at inside
      have long : i < bytes.length := by
        rw [List.length_take] at within
        omega
      simp only [List.getElem_take, Target.bytesAt, List.getElem_map, List.getElem_range, same]
      rw [edited.written k address listed succeeded later i below, List.getD_eq_getElem?_getD,
        List.getElem?_eq_getElem long, Option.getD_some]

/-- Three 32-bit results, of which the first two share two bytes. -/
def threeResults : MemorySession where
  target := ⟨7, 9⟩
  engine := { Engine.fresh with
    result := .ofRegions [⟨0x100000000, 0x4000, [8, 10, 16], []⟩]
    lastNumberType := SearchType.sInt.code }

def blankMemory : TaskMemory := ⟨fun _ => none, fun _ => 0⟩

/-- The write to the last one fails. -/
def lastFails (k : Nat) : Option (Nat → UInt8) := if k = 2 then some fun _ => 7 else none

theorem editAll_edits_three : ∃ outcome,
    threeResults.editAll lastFails (some (.ofAscii "5")) (some (.ofAscii "I32")) blankMemory =
        .ok outcome ∧
      ∃ (jjtype : SearchType) (text : CString) (bytes : Bytes),
        jjTypeFromName (NSString.utf8String (some (.ofAscii "I32"))) = jjtype.code ∧
          NSString.utf8String (some (.ofAscii "5")) = some text ∧
          jjParseValue text jjtype.code = some bytes ∧
          Edited lastFails jjtype.len bytes threeResults.engine blankMemory outcome ∧
          ShownBack lastFails (some (.ofAscii "I32")) jjtype bytes threeResults.engine outcome.2 := by
  have accepted : threeResults.editAll lastFails (some (.ofAscii "5")) (some (.ofAscii "I32"))
      blankMemory = .ok (threeResults.engine.jjWriteAll lastFails [5, 0, 0, 0, 0, 0, 0, 0]
        SearchType.sInt.code blankMemory) := rfl
  exact ⟨_, accepted, editAll_edits accepted⟩

example : (threeResults.engine.jjWriteAll lastFails [5, 0, 0, 0, 0, 0, 0, 0]
    SearchType.sInt.code blankMemory).1 = 2 := by decide

/-! ## One value -/

theorem formatInteger_plain {n : Int} {c : UInt8} (inside : c ∈ formatInteger n) : c ≠ 0 := by
  have digit (inside : c ∈ Decimal.digits n.natAbs) : c ≠ 0 := by
    rintro rfl
    exact absurd (Decimal.mem_digits inside).1 (by decide)
  unfold formatInteger at inside
  split at inside
  · rcases List.mem_cons.mp inside with rfl | inside
    · decide
    · exact digit inside
  · exact digit inside

/-- The text of an integer is one that `UTF8String` gives back, and `JJParseValue` the integer. -/
theorem formatValue_parsesBack {t : SearchType} (integer : t.scalar = .signed ∨ t.scalar = .unsigned)
    {bytes : Bytes} (long : t.len ≤ bytes.length) {shown : NSString}
    (formatted : MemorySession.formatValue bytes t.code = .ok shown) :
    ∃ text, NSString.utf8String (some shown) = some text ∧
      jjParseValue text t.code = some (bytes.take t.len ++ List.replicate (8 - t.len) 0) := by
  simp only [MemorySession.formatValue, bind_eq_ok, accept_eq_ok, pure_eq_ok] at formatted
  obtain ⟨text, formatted, rfl⟩ := formatted
  have length : (bytes.take t.len).length = t.len := by
    rw [List.length_take]
    exact Nat.min_eq_left long
  have plain (n : Int) : NSString.utf8String (some ⟨some (formatInteger n)⟩) =
      some (formatInteger n) := by
    simp only [NSString.utf8String, Option.bind_some, Option.map_some]
    rw [List.takeWhile_eq_self_iff.mpr]
    exact fun c inside => decide_eq_true (formatInteger_plain inside)
  obtain ⟨-, rfl⟩ := jjFormatValue_eq_some.mp formatted
  cases integer with
  | inl signed =>
      rw [signed]
      refine ⟨_, plain _, ?_⟩
      rw [jjParseValue_signed signed]
      exact parseSigned_formatInteger t.len_pos (len_le_eight t) length
  | inr unsigned =>
      rw [unsigned]
      refine ⟨_, plain _, ?_⟩
      rw [jjParseValue_unsigned unsigned]
      exact parseUnsigned_formatInteger (len_le_eight t) length

/-- What a reader of the target's memory finds where a value was written. -/
theorem bytesAt_written {t : Target} {memory : TaskMemory} (same : t.byte = memory.byte)
    {address len : Nat} {bytes : Bytes} (long : len ≤ bytes.length)
    (written : ∀ i < len, bytes[i]? = some (memory.byte (address + i))) :
    t.bytesAt address len = bytes.take len := by
  apply List.ext_getElem?
  intro i
  by_cases inside : i < len
  · rw [List.getElem?_take_of_lt inside, written i inside, Target.bytesAt, List.getElem?_map,
      List.getElem?_range inside, same]
    rfl
  · rw [List.getElem?_eq_none, List.getElem?_eq_none]
    · rw [List.length_take]
      omega
    · rw [Target.bytesAt_length]
      omega

/-- What `getValue` was given and read, where it shows a text. -/
theorem getValue_ok {t : Target} {valuebuf : Bytes} {spelling type : Option NSString}
    {jjtype : SearchType} (named : jjTypeFromName (NSString.utf8String type) = jjtype.code)
    {shown : NSString} (showed : MemorySession.getValue t.reader valuebuf spelling type = .ok shown) :
    ∃ address, MemorySession.parseTarget spelling = some address ∧
      MemorySession.formatValue (t.bytesAt address jjtype.len) jjtype.code = .ok shown := by
  rw [MemorySession.getValue, named] at showed
  simp only [bind_eq_ok, require_eq_ok, accept_eq_ok] at showed
  obtain ⟨-, -, address, spelled, bytes, read, formatted⟩ := showed
  rw [readValue_code, Target.readExact_reader] at read
  obtain ⟨-, -, rfl⟩ := read
  refine ⟨address, spelled, ?_⟩
  rw [← formatted]
  apply formatValue_take
  rw [List.take_append_of_le_length (by rw [Target.bytesAt_length])]

end H5GG
