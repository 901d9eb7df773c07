import H5GG.Inspector
import H5GG.Proof.Dump
import H5GG.Proof.Editing
import H5GG.Proof.Engine.Agreement
import H5GG.Proof.Engine.Exact
import H5GG.Proof.MemoryPage
import H5GG.Proof.PointerSearch
import H5GG.Proof.SearchPages
import H5GG.Proof.Value.HexPattern

/-!
# What is shown of memory
-/

namespace H5GG
open Validation

/-! ## A page of results and its single values -/

theorem mem_of_mapM_ok {ε α β : Type} {f : α → Except ε β} {inputs : List α} {results : List β}
    (mapped : inputs.mapM f = .ok results) {result : β} (among : result ∈ results) :
    ∃ input ∈ inputs, f input = .ok result := by
  induction inputs generalizing results with
  | nil =>
      obtain rfl : results = [] := (Except.ok.inj mapped).symm
      exact absurd among List.not_mem_nil
  | cons input rest ih =>
      simp only [List.mapM_cons, bind_eq_ok, pure_eq_ok] at mapped
      obtain ⟨first, applied, others, mapped, rfl⟩ := mapped
      rcases List.mem_cons.mp among with rfl | later
      · exact ⟨input, .head rest, applied⟩
      · obtain ⟨other, inside, applied⟩ := ih mapped later
        exact ⟨other, .tail input inside, applied⟩

namespace MemorySession

theorem jjTypeFromName_name (t : SearchType) :
    jjTypeFromName (NSString.utf8String (some (.ofAscii t.name))) = t.code := by
  cases t <;> decide

theorem consistent_run (target : TargetProcess) (calls : List (System × FacadeCall)) :
    (execute call calls (create target)).Consistent :=
  execute_invariant Consistent
    (fun event session consistent => consistent_effect consistent (call_effect event session)) calls
    (consistent_create target)

theorem Consistent.hit {session : MemorySession} (consistent : session.Consistent) {hit : Nat × Int}
    (among : hit ∈ session.engine.hits) : hit.1 < 2 ^ 64 ∧ ∃ t : SearchType, hit.2 = t.code := by
  obtain ⟨region, listed, entry, typed, rfl⟩ := mem_hits.mp among
  refine ⟨Nat.mod_lt _ (Nat.two_pow_pos 64), ?_⟩
  have complete := (consistent.wellFormed.regions region listed).complete
  rcases ResultRegion.mem_typed_type complete typed with ⟨-, fallback⟩ | own
  · obtain ⟨last, code⟩ := consistent.known.fallback (consistent.wellFormed.done listed)
    exact ⟨last, fallback.trans code.symm⟩
  · exact consistent.known.regions region listed _ own

/-- An entry of a page by the result that it shows. -/
theorem Consistent.entry {session : MemorySession} (consistent : session.Consistent)
    {system : System} {maxCount skipCount : Int} {page : List ResultDictionary}
    (shown : session.getResultDictionaries system maxCount skipCount = .ok page)
    {entry : ResultDictionary} (among : entry ∈ page) :
    ∃ (t : SearchType) (address : Nat), address < 2 ^ 64 ∧ entry.address = hexAddress address ∧
      entry.type = t.name ∧
      formatValue (((system.memory.reader.readValue address t.code).getD []).rightpad 8 0) t.code =
        .ok entry.value := by
  obtain ⟨⟨address, jjtype⟩, listed, formatted⟩ := mem_of_mapM_ok shown among
  simp only [bind_eq_ok, pure_eq_ok] at formatted
  obtain ⟨value, formatted, rfl⟩ := formatted
  have result : ShownResult.mk address
      (((system.memory.reader.readValue address
        (if jjtype = 0 then int8 session.lastSearchType else jjtype)).getD []).rightpad 8 0)
      (jjTypeName (if jjtype = 0 then int8 session.lastSearchType else jjtype)) ∈
        session.getResults system maxCount skipCount := List.mem_map.mpr ⟨_, listed, rfl⟩
  obtain ⟨hit, inside, rfl, named⟩ := consistent.shown result
  obtain ⟨small, t, code⟩ := consistent.hit inside
  have known : t.name = jjTypeName hit.2 := name_eq_jjTypeName.mpr code.symm
  have resolved := name_eq_jjTypeName.mp (known.trans named.symm)
  rw [← resolved] at formatted ⊢
  exact ⟨t, hit.1, small, rfl, (name_eq_jjTypeName.mpr rfl).symm, formatted⟩

theorem readValue_length {reader : MemoryReader} {address : Nat} {t : SearchType} {bytes : Bytes}
    (read : reader.readValue address t.code = some bytes) : bytes.length = t.len := by
  simp only [MemoryReader.readValue, SearchType.ofCode?_code, MemoryReader.readExact] at read
  split at read
  · rename_i whole
    rw [← Option.some.inj read]
    exact whole.2
  · cases read

/-- What a page shows of a result is what `getValue` shows at its address and type. Where the memory
is not readable any more, the page shows a zero, and `getValue` nothing; at 0 `getValue` refuses. -/
def PageAgrees (reader : MemoryReader) (entry : ResultDictionary) : Prop :=
  ∃ (address : Nat) (t : SearchType), entry.address = hexAddress address ∧ entry.type = t.name ∧
    (reader.readValue address t.code = none →
      formatValue (List.replicate 8 0) t.code = .ok entry.value) ∧
    ∀ valuebuf,
      getValue reader valuebuf (some (.ofAscii entry.address)) (some (.ofAscii entry.type)) =
        if address = 0 then .error (some "读取失败:地址格式有误!")
        else if reader.readValue address t.code = none then .error none
        else .ok entry.value

/-- After every sequence of facade calls the pages of results agree with the single values. -/
theorem results_match_values (target : TargetProcess) (calls : List (System × FacadeCall))
    (system : System) (maxCount skipCount : Int) {page : List ResultDictionary}
    (shown : (execute call calls (create target)).getResultDictionaries system maxCount skipCount =
      .ok page) {entry : ResultDictionary} (among : entry ∈ page) :
    PageAgrees system.memory.reader entry := by
  obtain ⟨t, address, small, spelled, named, formatted⟩ :=
    (consistent_run target calls).entry shown among
  have typed : decide (t.code ≠ 0) = true := decide_eq_true t.code_ne_zero
  refine ⟨address, t, spelled, named, fun unreadable => ?_, fun valuebuf => ?_⟩
  · rw [unreadable] at formatted
    exact formatted
  rw [getValue, spelled, named, jjTypeFromName_name]
  by_cases there : address = 0
  · have refused : parseTarget (some (.ofAscii (hexAddress 0))) = none := by decide
    rw [there, refused, if_pos rfl]
    simp only [typed, require, accept, if_true, bind, Except.bind]
  simp only [typed, require, accept, parseTarget_hexAddress there small, if_true, bind,
    Except.bind]
  rw [if_neg there]
  cases read : system.memory.reader.readValue address t.code with
  | none => rfl
  | some bytes =>
      rw [read] at formatted
      rw [if_neg (Option.some_ne_none bytes), ← formatted]
      have length := readValue_length read
      apply formatValue_take
      rw [Option.getD_some, List.take_append_of_le_length length.ge, List.rightpad,
        List.take_append_of_le_length length.ge]

def fivesCall : FacadeCall :=
  .searchNumber (some (.ofAscii "5")) (some (.ofAscii "I8")) (some (.ofAscii "0x100000000"))
    (some (.ofAscii "0x100000002"))

theorem results_match_values_five :
    PageAgrees fives.memory.reader ⟨"0x100000000", .ofAscii "5", "I8"⟩ := by
  have shown : (execute call [(fives, fivesCall)] (create ⟨7, 9⟩)).getResultDictionaries fives 1 0 =
      .ok [⟨"0x100000000", .ofAscii "5", "I8"⟩] := by decide +kernel
  exact results_match_values ⟨7, 9⟩ [(fives, fivesCall)] fives 1 0 shown (.head _)

end MemorySession

/-! ## The text of `readBytes` as a pattern -/

def hexPair (byte : UInt8) : List UInt8 := (hexByte byte).take 2

theorem hexByte_pair (byte : UInt8) : patternDigits (hexByte byte) = hexPair byte ∧
    (hexPair byte).all isXDigit = true ∧ patternBytes (hexPair byte) = [(byte, 0xFF)] ∧
    0 ∉ hexByte byte := by
  induction byte using Word.byte_cases with
  | each n small =>
      revert n
      decide +kernel

theorem hexPair_cons (byte : UInt8) : ∃ high low, hexPair byte = [high, low] :=
  ⟨_, _, rfl⟩

theorem patternDigits_append (front back : CString) :
    patternDigits (front ++ back) = patternDigits front ++ patternDigits back :=
  List.filter_append _ _

theorem patternDigits_hexDump (bytes : Bytes) (i : Nat) :
    patternDigits (hexDump i bytes) = bytes.flatMap hexPair := by
  induction bytes generalizing i with
  | nil => rfl
  | cons byte rest ih =>
      have gap : patternDigits (if 0 < i ∧ i % 16 = 0 then [0x0A]
          else if 0 < i ∧ i % 8 = 0 then [0x20] else []) = [] := by
        split_ifs <;> rfl
      rw [hexDump, patternDigits_append, patternDigits_append, gap, (hexByte_pair byte).1, ih]
      rfl

theorem patternBytes_pairs (bytes : Bytes) :
    patternBytes (bytes.flatMap hexPair) = bytes.map fun byte => (byte, 0xFF) := by
  induction bytes with
  | nil => rfl
  | cons byte rest ih =>
      obtain ⟨high, low, pair⟩ := hexPair_cons byte
      have one := (hexByte_pair byte).2.2.1
      rw [pair] at one
      rw [List.flatMap_cons, pair, List.map_cons, ← ih]
      exact congrArg (· ++ _) one

theorem hexDump_plain (bytes : Bytes) (i : Nat) : 0 ∉ hexDump i bytes := by
  induction bytes generalizing i with
  | nil => exact List.not_mem_nil
  | cons byte rest ih =>
      intro inside
      rw [hexDump] at inside
      rcases List.mem_append.mp inside with gap | inside
      · split_ifs at gap
        · exact absurd gap (by decide)
        · exact absurd gap (by decide)
        · exact absurd gap List.not_mem_nil
      · rcases List.mem_append.mp inside with here | later
        · exact (hexByte_pair byte).2.2.2 here
        · exact ih (i + 1) later

theorem pairs_length (bytes : Bytes) : (bytes.flatMap hexPair).length = 2 * bytes.length := by
  induction bytes with
  | nil => rfl
  | cons byte rest ih =>
      rw [List.flatMap_cons, List.length_append, ih, List.length_cons, Nat.mul_add, Nat.add_comm]
      rfl

/-- The dump of some bytes is a pattern for just these. -/
theorem parse_hexDump {bytes : Bytes} (some' : bytes ≠ []) :
    jjParseMaskedHexPattern (hexDump 0 bytes) = some ⟨bytes.map fun byte => (byte, 0xFF)⟩ := by
  have positive := List.length_pos_iff.mpr some'
  have length := pairs_length bytes
  apply jjParseMaskedHexPattern_eq_some.mpr
  rw [patternDigits_hexDump, patternBytes_pairs]
  refine ⟨⟨by omega, by omega, fun c inside => ?_⟩, rfl⟩
  obtain ⟨byte, -, pair⟩ := List.mem_flatMap.mp inside
  exact .inl (List.all_eq_true.mp (hexByte_pair byte).2.1 c pair)

theorem matches_hexDump {bytes found : Bytes} (some' : bytes ≠ [])
    (length : found.length = bytes.length) :
    jjHexPatternMatches found ⟨bytes.map fun byte => (byte, 0xFF)⟩ = true ↔ found = bytes := by
  let pattern := bytes.map fun byte => ((byte, 0xFF) : UInt8 × UInt8)
  have values : pattern.map Prod.fst = bytes := by
    rw [List.map_map]
    exact List.map_id bytes
  have full : (∀ pair ∈ found.zip pattern, pair.1 &&& pair.2.2 = pair.2.1 &&& pair.2.2) ↔
      found = pattern.map Prod.fst := by
    apply zip_full_iff
    · simp [pattern]
    · rw [length, List.length_map]
  rw [values] at full
  simp only [jjHexPatternMatches, JJHexPattern.size, List.length_map, length, Nat.le_refl, ne_eq,
    List.map_eq_nil_iff, some', not_false_eq_true, decide_true, Bool.true_and, List.all_eq_true,
    decide_eq_true_eq]
  exact full

namespace MemorySession

/-- The bytes that `readBytes` asks for. -/
def dumpLength (length : Int) : Nat := (if length ≤ 0 ∨ 4096 < length then 256 else length).toNat

theorem readBytes_eq (reader : MemoryReader) (address : Option NSString) (length : Int) :
    readBytes reader address length = (parseTarget address).elim [] fun addr =>
      hexDump 0 (reader.readBytes addr (dumpLength length)) := by
  have whole : (min (if length ≤ 0 ∨ 4096 < length then 256 else length).toNat 4096) =
      dumpLength length := by
    unfold dumpLength
    omega
  unfold readBytes
  cases parseTarget address with
  | none => rfl
  | some addr => exact congrArg (fun count => hexDump 0 (reader.readBytes addr count)) whole

theorem hexDump_ne_nil {bytes : Bytes} (some' : bytes ≠ []) (i : Nat) : hexDump i bytes ≠ [] := by
  cases bytes with
  | nil => exact absurd rfl some'
  | cons byte rest =>
      intro empty
      exact absurd (List.append_eq_nil_iff.mp (List.append_eq_nil_iff.mp empty).2).1
        (List.cons_ne_nil _ _)

/-- What a search for the text of `readBytes` comes to: it is refused where nothing was read, and
finds the text where the memory holds just the bytes that it was made from. -/
structure FoundAgain (system : System) (session : MemorySession) (reader : MemoryReader)
    (address memoryFrom memoryTo : Option NSString) (length : Int) (range : AddrRange) : Prop where
  refused : (∀ addr ∈ parseTarget address, reader.readBytes addr (dumpLength length) = []) →
    searchHex system (some ⟨some (readBytes reader address length)⟩) memoryFrom memoryTo session =
      .error (some "十六进制格式错误")
  found : ∀ addr ∈ parseTarget address, reader.readBytes addr (dumpLength length) ≠ [] →
    ∃ after, searchHex system (some ⟨some (readBytes reader address length)⟩) memoryFrom memoryTo
        session = .ok after ∧
      reportsExactly after.engine.hits SearchType.uByte.code fun a =>
        ∃ part ∈ parts system.memory range, part.1 ≤ a ∧
          a + (reader.readBytes addr (dumpLength length)).length ≤
            part.1 + system.memory.loadedSize part.1 part.2 ∧
          system.memory.bytesAt a (reader.readBytes addr (dumpLength length)).length =
            reader.readBytes addr (dumpLength length)

section
variable {system : System} {session : MemorySession} {memoryFrom memoryTo : Option NSString}
  {range : AddrRange}

theorem searchHex_parsed (text : CString) (plain : 0 ∉ text)
    (hexadecimal : NSString.hasPrefix (.ofAscii "0x") memoryFrom = true)
    (hexadecimal' : NSString.hasPrefix (.ofAscii "0x") memoryTo = true)
    (parsed : parseRange memoryFrom memoryTo = some range) :
    searchHex system (some ⟨some text⟩) memoryFrom memoryTo session =
      if (jjParseMaskedHexPattern text).isSome then
        .ok (markSearchDone
          { session with engine := session.engine.jjScanHexMemory system.memory range text }
          SearchType.uByte.code)
      else .error (some "十六进制格式错误") := by
  have utf8 : NSString.utf8String (some ⟨some text⟩) = some text := by
    simp only [NSString.utf8String, Option.bind_some, Option.map_some]
    rw [List.takeWhile_eq_self_iff.mpr]
    exact fun c inside => decide_eq_true fun zero => plain (zero ▸ inside)
  have given : Option.isSome memoryFrom = true ∧ Option.isSome memoryTo = true := by
    cases memoryFrom <;> cases memoryTo <;> simp_all [NSString.hasPrefix]
  simp only [searchHex, utf8, hexadecimal, hexadecimal', parsed, given, accept, require,
    Option.isSome_some, Bool.and_self, if_true, bind, Except.bind, pure, Except.pure]
  cases (jjParseMaskedHexPattern text).isSome <;> rfl

end

end MemorySession

/-! ## Pointers -/

section
variable {t : Target}

theorem readBytes_readable {address length : Nat}
    (readable : ∀ i < length, t.readable (address + i) = true) :
    t.reader.readBytes address length = t.bytesAt address length := by
  by_cases empty : length = 0
  · rw [empty, MemoryReader.readBytes, if_pos rfl]
    rfl
  have whole := Target.readExact_reader.mpr ⟨Nat.pos_of_ne_zero empty, readable, rfl⟩
  simp only [MemoryReader.readExact] at whole
  split at whole
  · exact Option.some.inj whole
  · cases whole

/-- An answer of `vm_read_overwrite` that is not empty is the memory. -/
theorem readBytes_reader {address length : Nat} (some' : t.reader.readBytes address length ≠ []) :
    (∀ i < length, t.readable (address + i) = true) ∧
      t.reader.readBytes address length = t.bytesAt address length := by
  by_cases readable : ∀ i < length, t.readable (address + i) = true
  · exact ⟨readable, readBytes_readable readable⟩
  refine absurd ?_ some'
  have refused : t.vmReadOverwrite address length = none := by
    cases answered : t.vmReadOverwrite address length with
    | none => rfl
    | some bytes => exact absurd (Target.vmReadOverwrite_eq_some.mp answered).1 readable
  unfold MemoryReader.readBytes
  split
  · rfl
  · simp only [Target.reader, refused, Nat.zero_min, List.range_zero, List.map_nil]

theorem bytesAt_part {address length offset count : Nat} (inside : offset + count ≤ length) :
    ((t.bytesAt address length).drop offset).take count = t.bytesAt (address + offset) count := by
  apply List.ext_getElem
  · rw [List.length_take, List.length_drop, Target.bytesAt_length, Target.bytesAt_length]
    omega
  · intro i _ _
    simp only [Target.bytesAt, List.getElem_take, List.getElem_drop, List.getElem_map,
      List.getElem_range, Nat.add_assoc]

end

namespace MemorySession
open PointerSearch

theorem readPointer_held {t : Target} {spelling : Option NSString} {address value : Nat}
    (spelled : parseTarget spelling = some address) (nonzero : value ≠ 0)
    (readable : ∀ i < 8, t.readable (address + i) = true)
    (held : Word.ofLittleEndian (t.bytesAt address 8) = value) :
    readPointer t.reader spelling = hexAddress value := by
  have word : t.reader.readValue address SearchType.uLong.code = some (t.bytesAt address 8) := by
    rw [readValue_code]
    exact Target.readExact_reader.mpr ⟨by decide, readable, rfl⟩
  rw [readPointer, spelled, Option.bind_some, word]
  simp only [held, nonzero, if_false]

/-- A holder that a search shows is a word of the memory that holds the address asked for. -/
structure Holds (system : System) (address : Option NSString) (holder value : Nat) : Prop where
  asked : FreezerController.parseAddress address = some value
  nonzero : value ≠ 0
  small : holder < 2 ^ 64
  aligned : 8 ∣ holder
  readable : ∀ i < 8, system.memory.readable (holder + i) = true
  word : Word.ofLittleEndian (system.memory.bytesAt holder 8) = value

theorem findPointers_sound (system : System) (sorting : RegionSort)
    (address rangeStart rangeEnd : Option NSString) :
    ∃ shown, (∀ fuel, 2 ^ 61 ≤ fuel →
        findPointers system sorting fuel address rangeStart rangeEnd = some shown) ∧
      ∀ pointer ∈ shown, ∃ holder value,
        pointer = (hexAddress holder, hexAddress value) ∧ Holds system address holder value := by
  unfold findPointers
  dsimp only
  generalize parsed : (FreezerController.parseAddress address >>= fun addr => _) = request
  rcases request with - | ⟨addr, start, endAddr⟩
  · exact ⟨[], fun _ _ => rfl, nofun⟩
  · simp only [bind, Option.bind_eq_some_iff] at parsed
    obtain ⟨value, asked, first, ⟨startText, -, startParsed⟩, last, ⟨endText, -, endParsed⟩,
      accepted⟩ := parsed
    split at accepted
    · cases accepted
    rename_i admitted
    cases accepted
    obtain ⟨found, result, results, -, swept, -⟩ := jjFindExactPointers_spec addr start endAddr
      (fun _ => system.memory.reader) pointerSearchOptions sorting
      (pointerSearchRegions system.memory) (DumpJob.jjParseAddress_lt startParsed) (DumpJob.jjParseAddress_lt endParsed)
    refine ⟨found.results.map fun pointer => (hexAddress pointer.1, hexAddress pointer.2),
      fun fuel enough => ?_, fun pointer among => ?_⟩
    · dsimp only
      rw [jjFindExactPointers_mono (.refl _) enough _ result]
      rfl
    · obtain ⟨entry, listed, rfl⟩ := List.mem_map.mp among
      have kept := List.mem_of_mem_take (results ▸ listed)
      obtain ⟨aligned, -, stop, -⟩ := answers_placed swept kept
      obtain ⟨same, count, request, -, reads⟩ := mem_answers.mp kept
      have fits := readsTarget_fits reads
      obtain ⟨above, -, inside, word⟩ := reads
      have below := DumpJob.jjParseAddress_lt endParsed
      have answered : system.memory.reader.readBytes request.1 request.2 ≠ [] := by
        intro empty
        rw [empty] at inside
        exact absurd inside (by simp)
      obtain ⟨readable, whole⟩ := readBytes_reader answered
      have place : request.1 + (entry.1 - request.1) = entry.1 := Nat.add_sub_cancel' above
      rw [whole, bytesAt_part (by omega), place] at word
      refine ⟨entry.1, entry.2, rfl, same ▸ asked, ?_, by omega, aligned, ?_, word.trans same.symm⟩
      · rw [same]
        exact fun zero => admitted (.inl zero)
      · intro i low
        have := readable (entry.1 - request.1 + i) (by omega)
        rwa [← Nat.add_assoc, place] at this

/-! ## One stretch of memory, as numbers and as text -/

section
variable (t : Target)

/-- What `vm_read_overwrite` gives of an address. -/
def shownMemory (address : Nat) : Option UInt8 :=
  if t.readable address then some (t.byte address) else none

theorem reader_serves : H5GG.Serves (shownMemory t) t.reader where
  part address length i byte found := by
    have some' : t.reader.readBytes address length ≠ [] := by
      intro empty
      rw [empty] at found
      cases found
    obtain ⟨readable, whole⟩ := readBytes_reader some'
    rw [whole] at found
    obtain ⟨inside, rfl⟩ := List.getElem?_eq_some_iff.mp found
    have low : i < length := (Target.bytesAt_length t address length) ▸ inside
    rw [shownMemory, if_pos (readable i low)]
    simp only [Target.bytesAt, List.getElem_map, List.getElem_range]
  single address byte there := by
    unfold shownMemory at there
    split at there
    · rename_i readable
      rw [readBytes_readable, Target.bytesAt_length]
      intro i low
      rwa [Nat.lt_one_iff.mp low]
    · cases there

/-- The bytes that `readMemoryPage` asks for. -/
def pageLength (length : Int) : Nat := (min (if length ≤ 0 then 256 else length) 4096).toNat

def shownBytes (address length : Nat) : List (Option Nat) :=
  (List.range length).map fun i => (shownMemory t (address + i)).map UInt8.toNat

def shownPage (address length : Nat) : PageReply :=
  .page (hexAddress address) length ((shownBytes t address length).countP Option.isSome)
    ((shownBytes t address length).all Option.isSome) (shownBytes t address length)

/-- What `readMemoryPage` and `readBytes` show of one address. -/
structure Shows (address : Option NSString) (length : Int) : Prop where
  invalid : FreezerController.parseAddress address = none →
    readMemoryPage (fun _ => t.reader) address length = some (.error "invalid-address")
  overflow : ∀ addr, FreezerController.parseAddress address = some addr →
    2 ^ 64 < addr + pageLength length →
      readMemoryPage (fun _ => t.reader) address length = some (.error "address-range-overflow")
  page : ∀ addr, FreezerController.parseAddress address = some addr →
    addr + pageLength length ≤ 2 ^ 64 →
      readMemoryPage (fun _ => t.reader) address length =
        some (shownPage t addr (pageLength length))
  /-- Up to 4096 bytes both are about the same stretch; for more the text has 256. -/
  stretch : dumpLength length = pageLength length ∨
    4096 < length ∧ dumpLength length = 256 ∧ pageLength length = 4096
  text : readBytes t.reader address length ≠ [] ↔
    ∃ addr, FreezerController.parseAddress address = some addr ∧ addr ≠ 0 ∧
      (shownBytes t addr (dumpLength length)).all Option.isSome = true
  /-- The text is a pattern for the numbers of its stretch. -/
  pattern : ∀ addr, FreezerController.parseAddress address = some addr → addr ≠ 0 →
    ∀ dump : Bytes, shownBytes t addr (dumpLength length) = dump.map (fun b => some b.toNat) →
      jjParseMaskedHexPattern (readBytes t.reader address length) =
        some ⟨dump.map fun byte => (byte, 0xFF)⟩

variable {t}

theorem shownBytes_all {address length : Nat} :
    (shownBytes t address length).all Option.isSome = true ↔
      ∀ i < length, t.readable (address + i) = true := by
  simp only [shownBytes, List.all_map, List.all_eq_true, List.mem_range, Function.comp_apply,
    Option.isSome_map, shownMemory]
  refine forall₂_congr fun i _ => ?_
  split
  · rename_i readable
    simp [readable]
  · rename_i refused
    simp [refused]

theorem shownBytes_readable {address length : Nat}
    (readable : ∀ i < length, t.readable (address + i) = true) :
    shownBytes t address length =
      (t.bytesAt address length).map fun byte => some byte.toNat := by
  rw [shownBytes, Target.bytesAt, List.map_map]
  refine List.map_congr_left fun i inside => ?_
  rw [shownMemory, if_pos (readable i (List.mem_range.mp inside))]
  rfl

theorem page_bytes {address length : Nat} (small : address + length ≤ 2 ^ 64)
    (positive : 0 < length) (short : length ≤ 4096) :
    ∃ calls, jjReadMemoryPage (fun _ => t.reader) address length pageChunkSize =
      some (calls, exactPage (shownMemory t) address length) := by
  have fit : VectorsFit address length pageChunkSize := ⟨by omega, .inr (.inr (by decide))⟩
  exact jjReadMemoryPage_fits (by omega) fit (by omega) fun _ => reader_serves t

theorem shownByte_option (memory : Nat → Option UInt8) (address : Nat) :
    (if shownByte memory address < 0 then none else some (shownByte memory address).toNat) =
      (memory address).map UInt8.toNat := by
  unfold shownByte
  cases memory address with
  | none => rfl
  | some byte => exact if_neg (not_lt.mpr (Int.natCast_nonneg _))

theorem exactPage_count (address length : Nat) :
    (exactPage (shownMemory t) address length).readableCount =
      (shownBytes t address length).countP Option.isSome := by
  simp only [JJMemoryPage.readableCount, exactPage, shownBytes, List.countP_map]
  apply List.countP_congr
  intro i _
  simp only [Function.comp_apply, shownByte, Option.isSome_map, decide_eq_true_eq]
  cases shownMemory t (address + i) <;> simp

theorem dumpLength_pos (length : Int) : 0 < dumpLength length := by
  unfold dumpLength
  omega

theorem readBytes_text {address : Option NSString} {addr : Nat}
    (spelled : FreezerController.parseAddress address = some addr) (there : addr ≠ 0)
    (length : Int) : readBytes t.reader address length =
      hexDump 0 (t.reader.readBytes addr (dumpLength length)) := by
  rw [readBytes_eq, parseTarget, spelled, Option.filter_some, if_pos (decide_eq_true there),
    Option.elim_some]

/-- The text is there exactly where all of its bytes are. -/
theorem dumped_iff {addr : Nat} (length : Int) :
    hexDump 0 (t.reader.readBytes addr (dumpLength length)) ≠ [] ↔
      (shownBytes t addr (dumpLength length)).all Option.isSome = true := by
  rw [shownBytes_all]
  constructor
  · intro dumped
    refine (readBytes_reader fun empty => dumped ?_).1
    rw [empty]
    rfl
  · intro readable
    rw [readBytes_readable readable]
    apply hexDump_ne_nil
    rw [← List.length_pos_iff, Target.bytesAt_length]
    exact dumpLength_pos length

/-- The page and the text that are shown of an address are views of one memory. -/
theorem shows (t : Target) (address : Option NSString) (length : Int) : Shows t address length where
  invalid unspelled := by rw [readMemoryPage, unspelled]
  overflow addr spelled far := by
    rw [readMemoryPage, spelled]
    unfold pageLength at far
    dsimp only
    rw [if_pos]
    omega
  page addr spelled near := by
    have asked : pageLength length = (min (if length ≤ 0 then 256 else length) 4096).toNat := rfl
    obtain ⟨calls, read⟩ := page_bytes near (by omega) (by omega)
    rw [readMemoryPage, spelled]
    dsimp only
    rw [if_neg (by omega), ← asked, read, Option.map_some]
    have all : (exactPage (shownMemory t) addr (pageLength length)).complete =
        (shownBytes t addr (pageLength length)).all Option.isSome := by
      rw [Bool.eq_iff_iff, JJMemoryPage.complete, exactPage_count, decide_eq_true_eq,
        List.all_eq_true, ← List.countP_eq_length]
      simp only [exactPage, shownBytes, List.length_map]
    dsimp only
    rw [all, exactPage_count]
    simp only [exactPage, List.length_map, List.length_range, List.map_map]
    refine congrArg _ (congrArg _ (List.map_congr_left fun i _ => ?_))
    exact shownByte_option _ _
  stretch := by
    unfold dumpLength pageLength
    omega
  text := by
    constructor
    · intro dumped
      rw [readBytes_eq] at dumped
      cases target : parseTarget address with
      | none =>
          rw [target] at dumped
          exact absurd rfl dumped
      | some addr =>
          rw [target] at dumped
          obtain ⟨spelled, there⟩ := Option.filter_eq_some_iff.mp target
          exact ⟨addr, spelled, of_decide_eq_true there, (dumped_iff length).mp dumped⟩
    · rintro ⟨addr, spelled, there, readable⟩
      rw [readBytes_text spelled there]
      exact (dumped_iff length).mpr readable
  pattern addr spelled there dump numbers := by
    have readable : ∀ i < dumpLength length, t.readable (addr + i) = true := by
      rw [← shownBytes_all, numbers, List.all_map]
      exact List.all_eq_true.mpr fun _ _ => rfl
    rw [shownBytes_readable readable] at numbers
    have same : t.bytesAt addr (dumpLength length) = dump := by
      refine List.map_injective_iff.mpr (fun first second equal => ?_) numbers
      exact UInt8.toNat_inj.mp (Option.some.inj equal)
    rw [readBytes_text spelled there, readBytes_readable readable, same]
    apply parse_hexDump
    rw [← same, ← List.length_pos_iff, Target.bytesAt_length]
    exact dumpLength_pos length

end

/-! ## Chains of pointers -/

/-- A chain of pointers, each among those that a search for the one before it shows. -/
inductive PointsTo (system : System) (sorting : RegionSort) (base : String) : Nat → String → Prop
  | start : PointsTo system sorting base 0 base
  | step {depth : Nat} {address : String} {rangeStart rangeEnd : Option NSString}
      {shown : List (String × String)} {pointer : String × String}
      (path : PointsTo system sorting base depth address)
      (found : findPointers system sorting (2 ^ 61) (some (.ofAscii address)) rangeStart rangeEnd =
        some shown)
      (among : pointer ∈ shown) : PointsTo system sorting base (depth + 1) pointer.1

def followPointers (reader : MemoryReader) : Nat → String → String
  | 0, address => address
  | depth + 1, address =>
      followPointers reader depth (readPointer reader (some (.ofAscii address)))

theorem followPointers_empty (reader : MemoryReader) (depth : Nat) :
    followPointers reader depth "" = "" := by
  induction depth with
  | zero => rfl
  | succ depth ih => exact ih

theorem followPointers_zero (reader : MemoryReader) {depth : Nat} (there : 0 < depth) :
    followPointers reader depth (hexAddress 0) = "" := by
  obtain ⟨depth, rfl⟩ := Nat.exists_eq_succ_of_ne_zero there.ne'
  exact followPointers_empty reader depth

/-- A chain of pointers, followed with `readPointer`, leads back to the address it began with. At 0
`readPointer` reads nothing; no chain goes on from there. -/
theorem followPointers_back {system : System} {sorting : RegionSort} {base address : String}
    {depth : Nat} (path : PointsTo system sorting base depth address) (there : 0 < depth) :
    ∃ value, FreezerController.parseAddress (some (.ofAscii base)) = some value ∧
      followPointers system.memory.reader depth address =
        if address = hexAddress 0 then "" else hexAddress value := by
  -- The step needs that behind the first pointer every address is spelled as `hexAddress` does.
  have holders : ∀ depth address, PointsTo system sorting base depth address → 0 < depth →
      ∃ holder < 2 ^ 64, address = hexAddress holder ∧
      ∃ value, FreezerController.parseAddress (some (.ofAscii base)) = some value ∧
        (holder ≠ 0 → followPointers system.memory.reader depth address = hexAddress value) := by
    intro depth address path
    induction path with
    | start => exact fun positive => absurd positive (Nat.lt_irrefl 0)
    | @step depth address rangeStart rangeEnd shown pointer path found among ih =>
        intro _
        obtain ⟨shown', found', sound⟩ :=
          findPointers_sound system sorting (some (.ofAscii address)) rangeStart rangeEnd
        obtain rfl := Option.some.inj (found.symm.trans (found' _ le_rfl))
        obtain ⟨holder, value, rfl, holds⟩ := sound pointer among
        have back (nonzero : holder ≠ 0) : readPointer system.memory.reader
            (some (.ofAscii (hexAddress holder))) = hexAddress value :=
          readPointer_held (parseTarget_hexAddress nonzero holds.small) holds.nonzero holds.readable
            holds.word
        refine ⟨holder, holds.small, rfl, ?_⟩
        cases depth with
        | zero =>
            cases path
            exact ⟨value, holds.asked, back⟩
        | succ depth =>
            obtain ⟨held, small, rfl, origin, asked, followed⟩ := ih (Nat.succ_pos depth)
            have spelled : FreezerController.parseAddress (some (.ofAscii (hexAddress held))) =
                some held :=
              parseAddress_eq_some.mpr
                ⟨_, utf8String_hexAddress held, spells_hexDigits held, small⟩
            obtain rfl := Option.some.inj (spelled.symm.trans holds.asked)
            refine ⟨origin, asked, fun nonzero => ?_⟩
            rw [followPointers, back nonzero]
            exact followed holds.nonzero
  obtain ⟨holder, -, rfl, value, asked, followed⟩ := holders depth address path there
  refine ⟨value, asked, ?_⟩
  split
  · rename_i zero
    rw [zero]
    exact followPointers_zero _ there
  · rename_i nonzero
    exact followed fun zero => nonzero (congrArg hexAddress zero)

/-- The first word of a page holds the address of the second, which holds 24. -/
def linkedWords : System where
  getpid := 1
  memory := .onePage fun a =>
    if a = 0x100000000 then 8 else if a = 0x100000004 then 1
    else if a = 0x100000008 then 0x18 else 0
  running _ := true
  taskForPid _ := (true, 9)

theorem followPointers_back_twice :
    ∃ value, FreezerController.parseAddress (some (.ofAscii "24")) = some value ∧
      followPointers linkedWords.memory.reader 2 "0x100000000" =
        if "0x100000000" = hexAddress 0 then "" else hexAddress value := by
  have second : findPointers linkedWords insertionSort (2 ^ 61) (some (.ofAscii "24"))
      (some (.ofAscii "0x100000000")) (some (.ofAscii "0x100000010")) =
        some [("0x100000008", "0x18")] := by decide +kernel
  have first : findPointers linkedWords insertionSort (2 ^ 61) (some (.ofAscii "0x100000008"))
      (some (.ofAscii "0x100000000")) (some (.ofAscii "0x100000010")) =
        some [("0x100000000", "0x100000008")] := by decide +kernel
  exact followPointers_back
    ((PointsTo.start.step second (.head _)).step first (.head _)) Nat.two_pos

end MemorySession

end H5GG
