import H5GG.Dump.Calls
import Mathlib.Data.List.Range

/-!
# Streamed dumps are exact prefixes

What one round adds to the calls, and from it what the calls of a whole dump are.
-/

namespace H5GG.DumpCall

def read? : DumpCall → Option DumpRead
  | .read request => some request
  | _ => none

def write? : DumpCall → Option (Bytes × Bool)
  | .write bytes answer => some (bytes, answer)
  | _ => none

def progress? : DumpCall → Option Nat
  | .progress written _ => some written
  | _ => none

end H5GG.DumpCall

namespace H5GG.DumpTrace

section
variable (calls : List DumpCall)

def reads : List DumpRead := calls.filterMap DumpCall.read?

def writes : List (Bytes × Bool) := calls.filterMap DumpCall.write?

/-- The buffers that the writer took. -/
def accepted : List Bytes := ((writes calls).filter Prod.snd).map Prod.fst

def progressed : List Nat := calls.filterMap DumpCall.progress?

end

def span (request : DumpRead) : List Nat :=
  List.range' request.address request.bytes.length

/-- The calls are answered by the callbacks of their rounds. -/
structure Answered (answers : DumpAnswers) (calls : List DumpCall) : Prop where
  read : ∀ round request, (reads calls)[round]? = some request →
    request.bytes = (answers.reader round).readBytes request.address request.requested
  write : ∀ round write, (writes calls)[round]? = some write →
    answers.writer.map (fun writer => writer round write.1) = some write.2

/-- What the writer took is what was read for the addresses from the first one on, in their order
and each of them once. -/
structure StreamsExactly (answers : DumpAnswers) (address length : Nat) (outcome : DumpOutcome) :
    Prop where
  answered : Answered answers outcome.2
  contiguous : ∃ taken left, reads outcome.2 = taken ++ left ∧
    accepted outcome.2 = taken.map (·.bytes) ∧
    taken.flatMap span = List.range' address outcome.1.bytesWritten
  completed : outcome.1.status = .completed ↔ outcome.1.bytesWritten = length
  failed : outcome.1.status = .readFailed ∨ outcome.1.status = .writeFailed →
    outcome.1.failureAddress = address + outcome.1.bytesWritten
  increasing : (progressed outcome.2).Pairwise (· < ·)
  last : (progressed outcome.2).getLast? =
    if answers.progress = true ∧ 0 < outcome.1.bytesWritten then some outcome.1.bytesWritten
    else none

/-- The loop before a round: all that was read has been taken. -/
structure Going (answers : DumpAnswers) (address length round written : Nat)
    (calls : List DumpCall) : Prop where
  answered : Answered answers calls
  rounds : (reads calls).length = round ∧ (writes calls).length = round
  taken : accepted calls = (reads calls).map (·.bytes)
  addresses : (reads calls).flatMap span = List.range' address written
  unfinished : written ≤ length
  increasing : (progressed calls).Pairwise (· < ·)
  below : ∀ report ∈ progressed calls, report ≤ written
  last : (progressed calls).getLast? =
    if answers.progress = true ∧ 0 < written then some written else none

section
variable {answers : DumpAnswers} {address length round written : Nat} {calls extra : List DumpCall}

/-! ### One round -/

theorem reads_append : reads (calls ++ extra) = reads calls ++ reads extra :=
  List.filterMap_append

theorem writes_append : writes (calls ++ extra) = writes calls ++ writes extra :=
  List.filterMap_append

theorem accepted_append : accepted (calls ++ extra) = accepted calls ++ accepted extra := by
  unfold accepted
  rw [writes_append, List.filter_append, List.map_append]

theorem progressed_append : progressed (calls ++ extra) = progressed calls ++ progressed extra :=
  List.filterMap_append

/-- A round asks its reader and its writer at most once. -/
theorem Answered.extend (answered : Answered answers calls)
    (rounds : (reads calls).length = round ∧ (writes calls).length = round)
    (few : (reads extra).length ≤ 1 ∧ (writes extra).length ≤ 1)
    (read : ∀ request ∈ reads extra,
      request.bytes = (answers.reader round).readBytes request.address request.requested)
    (write : ∀ write ∈ writes extra,
      answers.writer.map (fun writer => writer round write.1) = some write.2) :
    Answered answers (calls ++ extra) where
  read i request found := by
    rw [reads_append] at found
    by_cases before : i < (reads calls).length
    · rw [List.getElem?_append_left before] at found
      exact answered.read i request found
    · rw [List.getElem?_append_right (not_lt.mp before)] at found
      have inside := (List.getElem?_eq_some_iff.mp found).1
      obtain rfl : i = round := by omega
      exact read request (List.mem_of_getElem? found)
  write i request found := by
    rw [writes_append] at found
    by_cases before : i < (writes calls).length
    · rw [List.getElem?_append_left before] at found
      exact answered.write i request found
    · rw [List.getElem?_append_right (not_lt.mp before)] at found
      have inside := (List.getElem?_eq_some_iff.mp found).1
      obtain rfl : i = round := by omega
      exact write request (List.mem_of_getElem? found)

/-- A dump that ends here has exactly what was taken before. -/
theorem Going.ends (going : Going answers address length round written calls)
    {result : JJMemoryDumpResult} (same : result.bytesWritten = written)
    (answered : Answered answers (calls ++ extra)) (refused : accepted extra = [])
    (quiet : progressed extra = []) (completed : result.status = .completed ↔ written = length)
    (failed : result.status = .readFailed ∨ result.status = .writeFailed →
      result.failureAddress = address + written) :
    StreamsExactly answers address length (result, calls ++ extra) := by
  subst same
  constructor
  · exact answered
  · refine ⟨reads calls, reads extra, reads_append, ?_, going.addresses⟩
    rw [accepted_append, refused, List.append_nil, going.taken]
  · exact completed
  · exact failed
  · rw [progressed_append, quiet, List.append_nil]
    exact going.increasing
  · rw [progressed_append, quiet, List.append_nil]
    exact going.last

/-- A round whose bytes are taken goes on behind them. -/
theorem Going.step (going : Going answers address length round written calls) {request : DumpRead}
    (here : request.address = address + written) (some' : request.bytes ≠ [])
    (fits : request.bytes.length ≤ length - written)
    (answered : Answered answers (calls ++ extra)) (read : reads extra = [request])
    (write : writes extra = [(request.bytes, true)])
    (report : progressed extra =
      if answers.progress = true then [written + request.bytes.length] else []) :
    Going answers address length (round + 1) (written + request.bytes.length) (calls ++ extra) := by
  have positive := List.length_pos_of_ne_nil some'
  have unfinished := going.unfinished
  constructor
  · exact answered
  · rw [reads_append, writes_append, read, write, List.length_append, List.length_append,
      going.rounds.1, going.rounds.2]
    exact ⟨rfl, rfl⟩
  · rw [accepted_append, reads_append, read, going.taken, List.map_append, accepted, write]
    rfl
  · rw [reads_append, read, List.flatMap_append, going.addresses, List.flatMap_singleton,
      span, here, List.range'_append_1]
  · omega
  · rw [progressed_append, report, List.pairwise_append]
    refine ⟨going.increasing, by split <;> simp, fun before inside after => ?_⟩
    have low := going.below before inside
    split
    · intro reported
      obtain rfl := List.mem_singleton.mp reported
      omega
    · exact fun reported => absurd reported List.not_mem_nil
  · rw [progressed_append, report]
    intro before inside
    rcases List.mem_append.mp inside with old | new
    · exact (going.below before old).trans (Nat.le_add_right _ _)
    · split at new
      · exact (List.mem_singleton.mp new).le
      · exact absurd new List.not_mem_nil
  · rw [progressed_append, report]
    by_cases given : answers.progress = true
    · rw [if_pos given, List.getLast?_concat, if_pos ⟨given, by omega⟩]
    · rw [if_neg given, List.append_nil, going.last, if_neg (fun both => given both.1),
        if_neg (fun both => given both.1)]

theorem going_start : Going answers address length 0 0 [] := by
  constructor
  · constructor
    · exact fun _ _ found => by cases found
    · exact fun _ _ found => by cases found
  · exact ⟨rfl, rfl⟩
  · rfl
  · rfl
  · exact Nat.zero_le _
  · exact .nil
  · exact fun _ inside => absurd inside List.not_mem_nil
  · rw [if_neg (fun both => absurd both.2 (Nat.lt_irrefl 0))]
    rfl

/-! ### The loop -/

/-- The calls of one round: a poll, a read, what the writer answers and what is reported. -/
def roundCalls (polled : Option Bool) (request : DumpRead) (answer : Option Bool)
    (reported : Option Nat) (total : Nat) : List DumpCall :=
  polled.toList.map .cancelled ++ [.read request] ++ answer.toList.map (.write request.bytes) ++
    reported.toList.map (.progress · total)

section
variable {polled answer : Option Bool} {request : DumpRead} {reported : Option Nat} {total : Nat}

theorem reads_polls : reads (polled.toList.map .cancelled) = [] := by cases polled <;> rfl

theorem writes_polls : writes (polled.toList.map .cancelled) = [] := by cases polled <;> rfl

theorem progressed_polls : progressed (polled.toList.map .cancelled) = [] := by
  cases polled <;> rfl

theorem reads_roundCalls : reads (roundCalls polled request answer reported total) = [request] := by
  unfold roundCalls
  rw [reads_append, reads_append, reads_append, reads_polls]
  cases answer <;> cases reported <;> rfl

theorem writes_roundCalls : writes (roundCalls polled request answer reported total) =
    answer.toList.map fun answer => (request.bytes, answer) := by
  unfold roundCalls
  rw [writes_append, writes_append, writes_append, writes_polls]
  cases answer <;> cases reported <;> rfl

theorem progressed_roundCalls :
    progressed (roundCalls polled request answer reported total) = reported.toList := by
  unfold roundCalls
  rw [progressed_append, progressed_append, progressed_append, progressed_polls]
  cases answer <;> cases reported <;> rfl

theorem Going.answeredRound (going : Going answers address length round written calls)
    (read : request.bytes = (answers.reader round).readBytes request.address request.requested)
    (write : ∀ given ∈ answer,
      answers.writer.map (fun writer => writer round request.bytes) = some given) :
    Answered answers (calls ++ roundCalls polled request answer reported total) := by
  refine going.answered.extend going.rounds ?_ ?_ ?_
  · rw [reads_roundCalls, writes_roundCalls]
    cases answer <;> simp
  · rw [reads_roundCalls]
    intro request' same
    obtain rfl := List.mem_singleton.mp same
    exact read
  · rw [writes_roundCalls]
    intro written inside
    obtain ⟨given, found, rfl⟩ := List.mem_map.mp inside
    exact write given (Option.mem_toList.mp found)

end

theorem accepted_of_writes (refused : ∀ write ∈ writes extra, write.2 = false) :
    accepted extra = [] := by
  unfold accepted
  rw [List.filter_eq_nil_iff.mpr fun write inside => by rw [refused write inside]; simp]
  rfl

section
variable {writer : Nat → Bytes → Bool} {bufferSize fuel requested : Nat} {polled : Option Bool}
  {bytes : Bytes}

theorem read_within (asked : min bufferSize (length - written) = requested)
    (read : (answers.reader round).readBytes (address + written) requested = bytes) :
    bytes.length ≤ length - written := by
  have short := (answers.reader round).readBytes_length (address + written) requested
  rw [read, ← asked] at short
  exact short.trans (Nat.min_le_right bufferSize (length - written))

/-- What a round does: nothing wraps, and its calls are appended. -/
theorem dumpCalls_succ (top : address + length ≤ 2 ^ 64) (small : length < 2 ^ 64)
    (unfinished : written < length)
    (poll : answers.cancelled.map (fun cancelled => cancelled round) = polled)
    (asked : min bufferSize (length - written) = requested)
    (read : (answers.reader round).readBytes (address + written) requested = bytes) :
    dumpCalls (.checked 64) answers writer address length bufferSize (fuel + 1) round
        ⟨.invalidInput, written, address⟩ calls =
      if polled = some true then
        some (⟨.cancelled, written, address⟩, calls ++ polled.toList.map .cancelled)
      else if bytes = [] then
        some (⟨.readFailed, written, address + written⟩,
          calls ++ roundCalls polled ⟨address + written, requested, bytes⟩ none none length)
      else if writer round bytes = false then
        some (⟨.writeFailed, written, address + written⟩,
          calls ++ roundCalls polled ⟨address + written, requested, bytes⟩ (some false) none length)
      else
        dumpCalls (.checked 64) answers writer address length bufferSize fuel (round + 1)
          ⟨.invalidInput, written + bytes.length, address⟩
          (calls ++ roundCalls polled ⟨address + written, requested, bytes⟩ (some true)
            (if answers.progress then some (written + bytes.length) else none) length) := by
  have current : address + written < 2 ^ 64 := by omega
  have next : written + bytes.length < 2 ^ 64 := by
    have within := read_within asked read
    omega
  rw [dumpCalls, if_pos unfinished, poll]
  dsimp only
  by_cases stop : polled = some true
  · rw [if_pos stop, if_pos stop]
  rw [if_neg stop, if_neg stop, Arithmetic.checked_sub unfinished.le small,
    Arithmetic.checked_add current]
  simp only [Option.bind_eq_bind, Option.bind_some, asked, read]
  by_cases empty : bytes = []
  · rw [if_pos empty, if_pos empty]
    simp [roundCalls]
  rw [if_neg empty, if_neg empty]
  cases answer : writer round bytes with
  | false =>
      rw [if_pos rfl, if_pos rfl]
      simp [roundCalls]
  | true =>
      rw [if_neg (show ¬true = false by decide), if_neg (show ¬true = false by decide),
        Arithmetic.checked_add next, Option.bind_some]
      congr 1
      cases answers.progress <;> simp [roundCalls]

end

theorem dumpCalls_spec {writer : Nat → Bytes → Bool} (given : answers.writer = some writer)
    (top : address + length ≤ 2 ^ 64) (small : length < 2 ^ 64) (bufferSize fuel : Nat)
    (enough : length < fuel + written) (going : Going answers address length round written calls) :
    ∃ outcome, dumpCalls (.checked 64) answers writer address length bufferSize fuel round
        ⟨.invalidInput, written, address⟩ calls = some outcome ∧
      StreamsExactly answers address length outcome := by
  induction fuel generalizing round written calls with
  | zero => exact absurd going.unfinished (by omega)
  | succ fuel ih =>
      by_cases unfinished : written < length
      · have apart : written ≠ length := Nat.ne_of_lt unfinished
        obtain ⟨polled, poll⟩ : ∃ polled,
          answers.cancelled.map (fun cancelled => cancelled round) = polled := ⟨_, rfl⟩
        obtain ⟨requested, asked⟩ : ∃ requested,
          min bufferSize (length - written) = requested := ⟨_, rfl⟩
        obtain ⟨bytes, read⟩ : ∃ bytes,
          (answers.reader round).readBytes (address + written) requested = bytes := ⟨_, rfl⟩
        have answered (answer : Option Bool) (reported : Option Nat)
            (write : ∀ given ∈ answer, writer round bytes = given) :
            Answered answers (calls ++
              roundCalls polled ⟨address + written, requested, bytes⟩ answer reported length) := by
          refine going.answeredRound read.symm fun answer inside => ?_
          rw [given, Option.map_some, write answer inside]
        rw [dumpCalls_succ top small unfinished poll asked read]
        by_cases stop : polled = some true
        · rw [if_pos stop]
          refine ⟨_, rfl, going.ends rfl ?_ ?_ progressed_polls ?_ ?_⟩
          · refine going.answered.extend going.rounds ?_ ?_ ?_ <;> simp [reads_polls, writes_polls]
          · exact accepted_of_writes (by simp [writes_polls])
          · simp [apart]
          · simp
        rw [if_neg stop]
        by_cases empty : bytes = []
        · rw [if_pos empty]
          refine ⟨_, rfl, going.ends rfl (answered none none (by simp)) ?_ progressed_roundCalls ?_
            fun _ => rfl⟩
          · exact accepted_of_writes (by simp [writes_roundCalls])
          · simp [apart]
        rw [if_neg empty]
        cases answer : writer round bytes with
        | false =>
            rw [if_pos rfl]
            refine ⟨_, rfl, going.ends rfl (answered (some false) none (by simp [answer])) ?_
              progressed_roundCalls ?_ fun _ => rfl⟩
            · exact accepted_of_writes (by simp [writes_roundCalls])
            · simp [apart]
        | true =>
            have positive := List.length_pos_of_ne_nil empty
            rw [if_neg (show ¬true = false by decide)]
            apply ih (by omega)
            apply going.step rfl empty (read_within asked read)
              (answered (some true) _ (by simp [answer])) reads_roundCalls
            · rw [writes_roundCalls]
              rfl
            · rw [progressed_roundCalls]
              split <;> rfl
      · have all : written = length := by
          have := going.unfinished
          omega
        rw [dumpCalls, if_neg unfinished]
        refine ⟨_, rfl, ?_⟩
        have ended := @Going.ends answers address length round written calls [] going
          ⟨.completed, written, address⟩ rfl
        rw [List.append_nil] at ended
        exact ended going.answered rfl rfl (iff_of_true rfl all) (by simp)

/-! ### More arithmetic and more fuel change nothing -/

section
variable {first second : Arithmetic} {writer : Nat → Bytes → Bool} {bufferSize chunkSize : Nat}

theorem dumpCalls_mono (larger : first.Extends second) {fuel more : Nat} (enough : fuel ≤ more)
    (round : Nat) (result : JJMemoryDumpResult) (calls : List DumpCall) :
    LessDefined (dumpCalls first answers writer address length bufferSize fuel round result calls)
      (dumpCalls second answers writer address length bufferSize more round result calls) := by
  induction fuel generalizing more round result calls with
  | zero => exact fun outcome found => absurd found.symm (Option.some_ne_none outcome)
  | succ fuel ih =>
      cases more with
      | zero => exact absurd enough (Nat.not_succ_le_zero fuel)
      | succ more =>
          unfold dumpCalls
          refine .ite ?_ (.refl _)
          refine .ite (.refl _) ?_
          refine .bind (larger.sub _ _) fun left => ?_
          refine .bind (larger.add _ _) fun current => ?_
          refine .ite (.bind (larger.add _ _) fun failureAddress => .refl _) ?_
          refine .ite (.bind (larger.add _ _) fun failureAddress => .refl _) ?_
          refine .bind (larger.add _ _) fun bytesWritten => ?_
          exact ih (Nat.succ_le_succ_iff.mp enough) _ _ _

theorem jjStreamMemoryDumpCalls_mono (larger : first.Extends second) {fuel more : Nat}
    (enough : fuel ≤ more) :
    LessDefined (jjStreamMemoryDumpCalls first answers fuel address length chunkSize)
      (jjStreamMemoryDumpCalls second answers more address length chunkSize) := by
  unfold jjStreamMemoryDumpCalls
  cases answers.writer with
  | none => exact .refl _
  | some writer =>
      refine .ite (.refl _) ?_
      refine .bind (larger.sub _ _) fun last => ?_
      refine .bind (larger.sub _ _) fun room => ?_
      exact .ite (.refl _) (dumpCalls_mono larger enough _ _ _)

end

/-! ### Whole dumps -/

section
variable {chunkSize : Nat} (word : address < 2 ^ 64) (size : length < 2 ^ 64)
include word size

theorem jjStreamMemoryDumpCalls_valid {writer : Nat → Bytes → Bool}
    (given : answers.writer = some writer) (some' : 0 < length) (chunk : 0 < chunkSize)
    (top : address + length - 1 ≤ 2 ^ 64 - 1) (fuel : Nat) :
    jjStreamMemoryDumpCalls (.checked 64) answers fuel address length chunkSize =
      dumpCalls (.checked 64) answers writer address length (min chunkSize length) fuel 0
        { failureAddress := address } [] := by
  unfold jjStreamMemoryDumpCalls
  rw [given]
  dsimp only
  rw [if_neg (by omega), Arithmetic.checked_sub some' size,
    Arithmetic.checked_sub (by omega) (by decide)]
  exact if_neg (by omega)

theorem jjStreamMemoryDumpCalls_invalid (invalid : length = 0 ∨ answers.writer = none ∨
    chunkSize = 0 ∨ 2 ^ 64 - 1 < address + length - 1) (fuel : Nat) :
    jjStreamMemoryDumpCalls (.checked 64) answers fuel address length chunkSize =
      some ({ failureAddress := address }, []) := by
  unfold jjStreamMemoryDumpCalls
  cases given : answers.writer with
  | none => rfl
  | some writer =>
      dsimp only
      by_cases empty : length = 0 ∨ chunkSize = 0
      · rw [if_pos empty]
      · have beyond : 2 ^ 64 - 1 < address + length - 1 := by
          rcases invalid with none' | absent | none' | beyond
          · exact absurd (.inl none') empty
          · rw [given] at absent
            cases absent
          · exact absurd (.inr none') empty
          · exact beyond
        rw [if_neg empty, Arithmetic.checked_sub (by omega) size,
          Arithmetic.checked_sub (by omega) (by decide)]
        exact if_pos (by omega)

end

variable (answers) (chunkSize : Nat) in
/-- A dump ends, never wraps, and streams an exact prefix of a valid range. -/
theorem streamedDump_exact (word : address < 2 ^ 64) (size : length < 2 ^ 64) :
    ∃ outcome,
      (∀ fuel, length < fuel →
        jjStreamMemoryDumpCalls (.checked 64) answers fuel address length chunkSize = some outcome ∧
          jjStreamMemoryDumpCalls (.wrapping 64) answers fuel address length chunkSize =
            some outcome) ∧
      (0 < length → answers.writer.isSome = true → 0 < chunkSize →
        address + length - 1 ≤ 2 ^ 64 - 1 → StreamsExactly answers address length outcome) ∧
      (length = 0 ∨ answers.writer = none ∨ chunkSize = 0 ∨ 2 ^ 64 - 1 < address + length - 1 →
        outcome = ({ status := .invalidInput, failureAddress := address }, [])) := by
  have wraps {fuel : Nat} {outcome : DumpOutcome} (enough : length < fuel)
      (found : jjStreamMemoryDumpCalls (.checked 64) answers (length + 1) address length chunkSize =
        some outcome) :
      jjStreamMemoryDumpCalls (.checked 64) answers fuel address length chunkSize = some outcome ∧
        jjStreamMemoryDumpCalls (.wrapping 64) answers fuel address length chunkSize =
          some outcome :=
    ⟨jjStreamMemoryDumpCalls_mono (.refl _) enough _ found,
      jjStreamMemoryDumpCalls_mono (Arithmetic.checked_extends 64) enough _ found⟩
  by_cases invalid : length = 0 ∨ answers.writer = none ∨ chunkSize = 0 ∨
      2 ^ 64 - 1 < address + length - 1
  · refine ⟨_, fun fuel enough => wraps enough (jjStreamMemoryDumpCalls_invalid word size invalid _),
      fun some' given chunk top => ?_, fun _ => rfl⟩
    rcases invalid with empty | absent | empty | beyond
    · omega
    · rw [absent] at given
      cases given
    · omega
    · omega
  · simp only [not_or, not_lt] at invalid
    obtain ⟨some', present, chunk, top⟩ := invalid
    obtain ⟨writer, given⟩ := Option.ne_none_iff_exists'.mp present
    have some'' := Nat.pos_of_ne_zero some'
    have inside : address + length ≤ 2 ^ 64 := by omega
    obtain ⟨outcome, found, exactly⟩ := dumpCalls_spec given inside size (min chunkSize length)
      (length + 1) (Nat.lt_succ_self length) going_start
    rw [← jjStreamMemoryDumpCalls_valid word size given some'' (Nat.pos_of_ne_zero chunk) top] at found
    refine ⟨outcome, fun fuel enough => wraps enough found, fun _ _ _ _ => exactly, fun invalid => ?_⟩
    rcases invalid with empty | absent | empty | beyond
    · exact absurd empty some'
    · exact absurd absent present
    · exact absurd empty chunk
    · omega

end

/-- A reader that reports three bytes whatever it is asked for. -/
def threeBytes : DumpAnswers where
  reader _ := ⟨fun address _ => (3, fun i => UInt8.ofNat (address + i))⟩
  writer := some fun _ _ => true
  progress := true

theorem streamedDump_exact_top : ∃ outcome,
    jjStreamMemoryDumpCalls (.wrapping 64) threeBytes 17 (2 ^ 64 - 16) 16 8 = some outcome ∧
      StreamsExactly threeBytes (2 ^ 64 - 16) 16 outcome := by
  obtain ⟨outcome, runs, exactly, -⟩ := streamedDump_exact threeBytes 8
    (show 2 ^ 64 - 16 < 2 ^ 64 by decide) (show 16 < 2 ^ 64 by decide)
  exact ⟨outcome, (runs 17 (by decide)).2, exactly (by decide) rfl (by decide) (by decide)⟩

/-- A dump of no bytes is not completed. -/
theorem streamedDump_not_exact : ∃ outcome,
    (0 + 0 - 1 : Int) ≤ 2 ^ 64 - 1 ∧
      jjStreamMemoryDumpCalls (.wrapping 64) threeBytes 1 0 0 1 = some outcome ∧
      ¬StreamsExactly threeBytes 0 0 outcome := by
  refine ⟨({ failureAddress := 0 }, []), by decide, rfl, fun exactly => ?_⟩
  exact absurd (exactly.completed.mpr rfl) (by decide)

/-! ### The dump that the controller starts -/

/-- The callbacks with these answers, which keep what is written and reported. -/
def callbacks (answers : DumpAnswers) (writer : Nat → Bytes → Bool) :
    DumpCallbacks (List DumpCall) where
  reader := answers.reader
  writer round bytes calls :=
    (.returned (writer round bytes), calls ++ [.write bytes (writer round bytes)])
  cancelled round := answers.cancelled.any fun cancelled => cancelled round
  progress written total calls :=
    if answers.progress then calls ++ [.progress written total] else calls

/-- The calls that leave something behind. -/
def outputs (calls : List DumpCall) : List DumpCall := calls.filter fun
  | .write _ _ | .progress _ _ => true
  | .cancelled _ | .read _ => false

section
variable {answers : DumpAnswers} {writer : Nat → Bytes → Bool} {address length : Nat}

theorem outputs_append (calls extra : List DumpCall) :
    outputs (calls ++ extra) = outputs calls ++ outputs extra := List.filter_append _ _

theorem outputs_polls (polled : Option Bool) :
    outputs (polled.toList.map .cancelled) = [] := by cases polled <;> rfl

theorem outputs_roundCalls (polled : Option Bool) (request : DumpRead) (answer : Option Bool)
    (reported : Option Nat) (total : Nat) :
    outputs (roundCalls polled request answer reported total) =
      answer.toList.map (.write request.bytes) ++ reported.toList.map (.progress · total) := by
  unfold roundCalls
  rw [outputs_append, outputs_append, outputs_append, outputs_polls]
  cases answer <;> cases reported <;> rfl

theorem callbacks_cancelled {round : Nat} : (callbacks answers writer).cancelled round = true ↔
    answers.cancelled.map (fun cancelled => cancelled round) = some true := by
  unfold callbacks
  cases answers.cancelled <;> simp

theorem dumpRounds_eq (top : address + length ≤ 2 ^ 64) (small : length < 2 ^ 64)
    (bufferSize fuel : Nat) {more round written : Nat} {calls : List DumpCall}
    (unfinished : written ≤ length) (enough : length ≤ fuel + written) {outcome : DumpOutcome}
    (found : dumpCalls (.checked 64) answers writer address length bufferSize more round
      ⟨.invalidInput, written, address⟩ calls = some outcome) :
    dumpRounds (callbacks answers writer) address length bufferSize fuel round written
      (outputs calls) = (.ok outcome.1, outputs outcome.2) := by
  induction fuel generalizing more round written calls with
  | zero =>
      have done : ¬written < length := by omega
      cases more with
      | zero => cases found
      | succ more =>
          rw [dumpCalls, if_neg done] at found
          cases found
          rfl
  | succ fuel ih =>
      cases more with
      | zero => cases found
      | succ more =>
          rw [dumpRounds]
          by_cases done : written < length
          · obtain ⟨polled, poll⟩ : ∃ polled,
              answers.cancelled.map (fun cancelled => cancelled round) = polled := ⟨_, rfl⟩
            obtain ⟨requested, asked⟩ : ∃ requested,
              min bufferSize (length - written) = requested := ⟨_, rfl⟩
            obtain ⟨bytes, read⟩ : ∃ bytes,
              (answers.reader round).readBytes (address + written) requested = bytes := ⟨_, rfl⟩
            have same : ((callbacks answers writer).reader round).readBytes (address + written)
              requested = bytes := read
            rw [dumpCalls_succ top small done poll asked read] at found
            rw [if_neg (not_le.mpr done), u64_of_lt (by omega)]
            dsimp only
            rw [asked, same]
            by_cases stop : polled = some true
            · rw [if_pos stop] at found
              rw [if_pos (callbacks_cancelled.mpr (poll.trans stop))]
              cases found
              rw [outputs_append, outputs_polls, List.append_nil]
            rw [if_neg stop] at found
            rw [if_neg (fun told => stop (poll.symm.trans (callbacks_cancelled.mp told)))]
            by_cases empty : bytes = []
            · rw [if_pos empty] at found
              rw [if_pos empty]
              cases found
              rw [outputs_append, outputs_roundCalls]
              exact congrArg (Prod.mk _) (List.append_nil _).symm
            rw [if_neg empty] at found
            rw [if_neg empty]
            have kept : (callbacks answers writer).writer round bytes (outputs calls) =
              (.returned (writer round bytes),
                outputs calls ++ [.write bytes (writer round bytes)]) := rfl
            rw [kept]
            cases answer : writer round bytes with
            | false =>
                rw [answer, if_pos rfl] at found
                cases found
                rw [outputs_append, outputs_roundCalls]
                rfl
            | true =>
                have within := read_within asked read
                have positive := List.length_pos_of_ne_nil empty
                rw [answer, if_neg (show ¬true = false by decide)] at found
                refine Eq.trans ?_ (ih (by omega) (by omega) found)
                dsimp only
                congr 1
                rw [outputs_append, outputs_roundCalls]
                unfold callbacks
                dsimp only
                cases answers.progress
                · rfl
                · exact List.append_assoc _ _ _
          · rw [dumpCalls, if_neg done] at found
            rw [if_pos (not_lt.mp done)]
            cases found
            rfl

/-- Without exceptions the controller's dump is this one. -/
theorem jjStreamMemoryDump_eq {chunkSize fuel : Nat} (given : answers.writer = some writer)
    (word : address < 2 ^ 64) (size : length < 2 ^ 64) {outcome : DumpOutcome}
    (found : jjStreamMemoryDumpCalls (.checked 64) answers fuel address length chunkSize =
      some outcome) :
    jjStreamMemoryDump (callbacks answers writer) address length chunkSize [] =
      (.ok outcome.1, outputs outcome.2) := by
  unfold jjStreamMemoryDump
  by_cases invalid : length = 0 ∨ chunkSize = 0 ∨ 2 ^ 64 - 1 < address + length - 1
  · have refused : (decide (length = 0) || decide (chunkSize = 0) ||
        decide (2 ^ 64 - 1 - address < length - 1)) = true := by
      simp only [Bool.or_eq_true, decide_eq_true_eq]
      omega
    rw [jjStreamMemoryDumpCalls_invalid word size (invalid.imp_right .inr)] at found
    rw [if_pos refused]
    cases found
    rfl
  · simp only [not_or, not_lt] at invalid
    obtain ⟨some', chunk, top⟩ := invalid
    have granted : ¬(decide (length = 0) || decide (chunkSize = 0) ||
        decide (2 ^ 64 - 1 - address < length - 1)) = true := by
      simp only [Bool.or_eq_true, decide_eq_true_eq]
      omega
    rw [jjStreamMemoryDumpCalls_valid word size given (Nat.pos_of_ne_zero some')
      (Nat.pos_of_ne_zero chunk) top] at found
    rw [if_neg granted]
    exact dumpRounds_eq (by omega) size _ length (Nat.zero_le _) (Nat.le_add_right _ _) found

end

end H5GG.DumpTrace
