import H5GG.Dump.Controller
import Mathlib.Data.List.Basic

/-!
# Dumps and the entries that were there before

A job that does not complete removes the entry of its name, whatever it was.
-/

namespace H5GG
open Validation

namespace DumpJob
variable {Tree : Type} (job : DumpJob) (host : DumpHost)

/-! ### The rounds of a job -/

def chunkAt (round written : Nat) : Bytes :=
  (host.reader round).readBytes (u64 (job.address + written))
    (min (min (64 * 1024) job.totalSize) (job.totalSize - written))

def written : Nat → Nat
  | 0 => 0
  | round + 1 => written round + (job.chunkAt host round (written round)).length

def chunk (round : Nat) : Bytes := job.chunkAt host round (job.written host round)

/-- The bytes that the first rounds read, one after the other. -/
def asRead (rounds : Nat) : Bytes := (List.range rounds).flatMap (job.chunk host)

/-- A round in which nothing goes wrong. -/
def Smooth (round : Nat) : Prop :=
  host.cancelled round = false ∧ job.chunk host round ≠ [] ∧ host.raises round = none

theorem written_le (round : Nat) : job.written host round ≤ job.totalSize := by
  induction round with
  | zero => exact Nat.zero_le _
  | succ round ih =>
      have short := (host.reader round).readBytes_length
        (u64 (job.address + job.written host round))
        (min (min (64 * 1024) job.totalSize) (job.totalSize - job.written host round))
      rw [written, chunkAt]
      omega

theorem written_mono {first later : Nat} (order : first ≤ later) :
    job.written host first ≤ job.written host later := by
  induction order with
  | refl => exact Nat.le_refl _
  | step _ ih => exact Nat.le_trans ih (Nat.le_add_right _ _)

theorem asRead_succ (rounds : Nat) :
    job.asRead host (rounds + 1) = job.asRead host rounds ++ job.chunk host rounds := by
  rw [asRead, List.range_succ, List.flatMap_append, List.flatMap_singleton, ← asRead]

theorem asRead_length (rounds : Nat) : (job.asRead host rounds).length = job.written host rounds := by
  induction rounds with
  | zero => rfl
  | succ rounds ih =>
      rw [asRead_succ, List.length_append, ih]
      rfl

end DumpJob

/-! ### Streaming into the file -/

def SameElsewhere {Tree : Type} (name : CString) (before after : Documents Tree) : Prop :=
  ∀ other, other ≠ name → after other = before other

theorem writeData_file {Tree : Type} {name : CString} {documents : Documents Tree} {old : Bytes}
    (content : documents name = some (.file old)) (bytes : Bytes) :
    documents.writeData name bytes =
      Function.update documents name (some (.file (old ++ bytes))) := by
  simp only [Documents.writeData, content]

theorem writeData_elsewhere {Tree : Type} {name : CString} {documents : Documents Tree}
    {old : Bytes} (content : documents name = some (.file old)) (bytes : Bytes) :
    SameElsewhere name documents (documents.writeData name bytes) := by
  intro other different
  rw [writeData_file content, Function.update_of_ne different]

def Completes {State : Type} (outcome : Except (Option String) JJMemoryDumpResult × State) : Prop :=
  ∃ result, outcome.1 = .ok result ∧ result.status = .completed

/-- The outcome of the rounds from `round` on. -/
structure Streamed {Tree : Type} (job : DumpJob) (host : DumpHost) (round : Nat)
    (before : Documents Tree)
    (outcome : Except (Option String) JJMemoryDumpResult × DumpWorld Tree) : Prop where
  elsewhere : SameElsewhere job.filename before outcome.2.documents
  dumped : Completes outcome → ∃ rounds, job.written host rounds = job.totalSize ∧
    outcome.2.documents job.filename = some (.file (job.asRead host rounds))
  completes : Completes outcome ↔
    ∀ later, round ≤ later → job.written host later < job.totalSize → job.Smooth host later

namespace DumpJob
variable {Tree : Type} {job : DumpJob} {host : DumpHost} {round : Nat} {world : DumpWorld Tree}
  {outcome : Except (Option String) JJMemoryDumpResult × DumpWorld Tree}

theorem streamed_of_done (done : job.totalSize ≤ job.written host round)
    (content : world.documents job.filename = some (.file (job.asRead host round))) :
    Streamed job host round world.documents
      (.ok ⟨.completed, job.written host round, job.address⟩, world) where
  elsewhere _ _ := rfl
  dumped _ := ⟨round, Nat.le_antisymm (job.written_le host round) done, content⟩
  completes := by
    refine iff_of_true ⟨_, rfl, rfl⟩ fun later order unfinished => ?_
    have := job.written_mono host order
    omega

theorem streamed_of_rough (unfinished : job.written host round < job.totalSize)
    (rough : ¬ job.Smooth host round) (stopped : ¬ Completes outcome)
    (elsewhere : SameElsewhere job.filename world.documents outcome.2.documents) :
    Streamed job host round world.documents outcome where
  elsewhere := elsewhere
  dumped done := absurd done stopped
  completes := iff_of_false stopped fun smooth => rough (smooth round (Nat.le_refl _) unfinished)

theorem Streamed.of_smooth {after : DumpWorld Tree} (smooth : job.Smooth host round)
    (elsewhere : SameElsewhere job.filename world.documents after.documents)
    (rest : Streamed job host (round + 1) after.documents outcome) :
    Streamed job host round world.documents outcome where
  elsewhere other different := (rest.elsewhere other different).trans (elsewhere other different)
  dumped := rest.dumped
  completes := by
    refine rest.completes.trans ⟨fun later_smooth later order unfinished => ?_,
      fun all later order => all later (Nat.le_of_succ_le order)⟩
    rcases Nat.eq_or_lt_of_le order with rfl | after
    · exact smooth
    · exact later_smooth later after unfinished

theorem writer_returned (bytes : Bytes) (raised : host.raises round = none) :
    (job.callbacks host).writer round bytes world = (.returned true,
      { world with documents := world.documents.writeData job.filename bytes }) := by
  simp only [callbacks, raised]

theorem writer_raised (bytes : Bytes) {count : Nat} {reason : Option String}
    (raised : host.raises round = some (count, reason)) :
    (job.callbacks host).writer round bytes world = (.raised reason,
      { world with documents := world.documents.writeData job.filename (bytes.take count) }) := by
  simp only [callbacks, raised]

theorem dumpRounds_streamed (fuel : Nat) (enough : job.totalSize ≤ job.written host round + fuel)
    (content : world.documents job.filename = some (.file (job.asRead host round))) :
    Streamed job host round world.documents
      (dumpRounds (job.callbacks host) job.address job.totalSize (min (64 * 1024) job.totalSize)
        fuel round (job.written host round) world) := by
  induction fuel generalizing round world with
  | zero => exact streamed_of_done enough content
  | succ fuel ih =>
      rw [dumpRounds]
      split
      · rename_i done
        exact streamed_of_done done content
      · rename_i unfinished
        replace unfinished := Nat.lt_of_not_le unfinished
        split
        · rename_i cancelled
          refine streamed_of_rough unfinished ?_ (by simp [Completes]) fun _ _ => rfl
          exact fun smooth => by simp [smooth.1, callbacks] at cancelled
        · rename_i going
          have chunk : ((job.callbacks host : DumpCallbacks (DumpWorld Tree)).reader round).readBytes
              (u64 (job.address + job.written host round))
              (min (min (64 * 1024) job.totalSize) (job.totalSize - job.written host round)) =
                job.chunk host round := rfl
          dsimp only
          rw [chunk]
          split
          · rename_i unreadable
            refine streamed_of_rough unfinished ?_ (by simp [Completes]) fun _ _ => rfl
            exact fun smooth => smooth.2.1 unreadable
          · rename_i readable
            cases raised : host.raises round with
            | some exception =>
                rw [writer_raised _ raised]
                refine streamed_of_rough unfinished ?_ (by simp [Completes])
                  (writeData_elsewhere content _)
                exact fun smooth => by simp [smooth.2.2] at raised
            | none =>
                rw [writer_returned _ raised]
                have wrote := List.length_pos_iff.mpr readable
                have enough : job.totalSize ≤ job.written host (round + 1) + fuel := by
                  show _ ≤ job.written host round + (job.chunk host round).length + fuel
                  omega
                refine Streamed.of_smooth ⟨by simpa [callbacks] using going, readable, raised⟩ ?_
                  (ih enough ?_)
                · exact writeData_elsewhere content (job.chunk host round)
                · refine (congrFun (writeData_file content _) job.filename).trans ?_
                  rw [Function.update_self, asRead_succ]

/-! ### Whole jobs -/

structure Accepted (job : DumpJob) : Prop where
  nonempty : 0 < job.totalSize
  bounded : job.address + job.totalSize < 2 ^ 64

theorem strtoull_lt (text : CString) (base : Nat) : (strtoull text base).value < 2 ^ 64 := by
  unfold strtoull
  split
  · exact Nat.two_pow_pos 64
  · dsimp only
    split_ifs
    · exact Nat.sub_lt (Nat.two_pow_pos 64) Nat.one_pos
    · exact Nat.mod_lt _ (Nat.two_pow_pos 64)
    · rename_i small _
      exact Nat.lt_of_not_le small

theorem jjParseAddress_lt {text : CString} {base address : Nat}
    (parsed : jjParseAddress text base = some address) : address < 2 ^ 64 := by
  unfold jjParseAddress at parsed
  split at parsed
  · cases parsed
  · dsimp only at parsed
    split_ifs at parsed
    rw [← Option.some.inj parsed]
    exact strtoull_lt _ _

theorem startFrom_accepted {status : DumpStatus} {start stop filename : Option NSString}
    {lease completion : Bool}
    (started : startFrom status start stop filename lease completion = .ok job) : job.Accepted := by
  simp only [startFrom, dumpRequest, bind_eq_ok, accept_eq_ok, require_eq_ok, Bool.and_eq_true,
    decide_eq_true_eq, pure_eq_ok] at started
  obtain ⟨_, ⟨-, -, -, -, address, -, stop, parsed, -, ⟨-, ordered⟩, name, -, rfl⟩, -, -, -, -, -, -,
    rfl⟩ := started
  obtain ⟨text, -, parsed⟩ := Option.bind_eq_some_iff.mp parsed
  have below := jjParseAddress_lt parsed
  exact ⟨Nat.sub_pos_of_lt ordered, by dsimp only; omega⟩

theorem Accepted.stream_eq (accepted : job.Accepted) {State : Type}
    (callbacks : DumpCallbacks State) (state : State) :
    jjStreamMemoryDump callbacks job.address job.totalSize (64 * 1024) state =
      dumpRounds callbacks job.address job.totalSize (min (64 * 1024) job.totalSize)
        job.totalSize 0 0 state := by
  have := accepted.nonempty
  have := accepted.bounded
  refine if_neg ?_
  simp only [Bool.or_eq_true, decide_eq_true_eq]
  omega

/-- What a dump owes to the entries of the directory: one that does not complete keeps all of them
and adds none, and one that completes leaves the bytes it read. -/
structure LosesNothing (job : DumpJob) (host : DumpHost) (before : Documents Tree)
    (after : DumpWorld Tree) : Prop where
  kept : after.status.state ≠ .completed → ∀ name entry, before name = some entry →
    after.documents name = some entry
  cleaned : after.status.state ≠ .completed → ∀ name, before name = none →
    after.documents name = none
  dumped : after.status.state = .completed → ∃ rounds,
    (job.asRead host rounds).length = job.totalSize ∧
      after.documents job.filename = some (.file (job.asRead host rounds))

/-- Nothing gets in the way of a job: no directory has its name, its file is created and opened,
and every round it needs is smooth. -/
structure Unhindered (job : DumpJob) (host : DumpHost) (before : Documents Tree) : Prop where
  free : ∀ tree, before job.filename ≠ some (.directory tree)
  creates : host.creates = true
  opens : host.opens = true
  smooth : ∀ round, job.written host round < job.totalSize → job.Smooth host round

/-- A job ends completed with the bytes it read, or it leaves no entry of its name. -/
structure Ended (job : DumpJob) (host : DumpHost) (before : Documents Tree)
    (after : DumpWorld Tree) : Prop where
  elsewhere : SameElsewhere job.filename before after.documents
  completed : after.status.state = .completed ↔ job.Unhindered host before
  dumped : after.status.state = .completed → ∃ rounds,
    job.written host rounds = job.totalSize ∧
      after.documents job.filename = some (.file (job.asRead host rounds))
  removed : after.status.state ≠ .completed → after.documents job.filename = none

theorem finish_failed {cancelled : Bool} {failure : Option String} {count : Nat}
    {before documents : Documents Tree} (hindered : ¬ job.Unhindered host before)
    (elsewhere : SameElsewhere job.filename before documents) :
    Ended job host before (job.finish false cancelled failure count documents) where
  elsewhere other different :=
    (Function.update_of_ne different _ _).trans (elsewhere other different)
  completed := by
    refine iff_of_false ?_ hindered
    cases cancelled <;> simp [finish]
  dumped done := by cases cancelled <;> simp [finish] at done
  removed _ := Function.update_self _ _ _

theorem createFile_cases (name : CString) (before : Documents Tree) (creates : Bool) :
    (before.createFile name creates).1 = false ∧
        ((∃ tree, before name = some (.directory tree)) ∨ creates = false) ∧
        (before.createFile name creates).2 = before ∨
      (before.createFile name creates).1 = true ∧ creates = true ∧
        (∀ tree, before name ≠ some (.directory tree)) ∧
        (before.createFile name creates).2 = Function.update before name (some (.file [])) := by
  unfold Documents.createFile
  cases entry : before name with
  | none => cases creates <;> simp
  | some found => cases found <;> cases creates <;> simp

theorem conclude_ended {before opened : Documents Tree}
    (elsewhere : SameElsewhere job.filename before opened)
    (streamed : Streamed job host 0 opened outcome)
    (hurdles : job.Unhindered host before ↔
      ∀ round, job.written host round < job.totalSize → job.Smooth host round) :
    Ended job host before (job.conclude outcome) := by
  have completes : Completes outcome ↔ job.Unhindered host before :=
    (streamed.completes.trans (by simp)).trans hurdles.symm
  have others : SameElsewhere job.filename before outcome.2.documents := fun other different =>
    (streamed.elsewhere other different).trans (elsewhere other different)
  obtain ⟨returned, world⟩ := outcome
  cases returned with
  | error reason =>
      exact finish_failed (fun unhindered => by simpa [Completes] using completes.mpr unhindered)
        others
  | ok result =>
      by_cases done : result.status = .completed
      · have completed : Completes (.ok result, world) := ⟨result, rfl, done⟩
        simp only [conclude, done]
        exact ⟨others, iff_of_true rfl (completes.mp completed), fun _ => streamed.dumped completed,
          fun failed => absurd rfl failed⟩
      · have stopped : ¬ Completes (.ok result, world) := by
          rintro ⟨_, same, completed⟩
          exact done (Except.ok.inj same ▸ completed)
        simp only [conclude, done, decide_false]
        exact finish_failed (fun unhindered => stopped (completes.mpr unhindered)) others

theorem work_ended (accepted : job.Accepted) (before : Documents Tree) :
    Ended job host before (job.work host before) := by
  unfold work
  rcases createFile_cases job.filename before host.creates with
    ⟨uncreated, reason, same⟩ | ⟨created, creates, free, truncated⟩
  · simp only [uncreated, same, Bool.false_and, Bool.false_eq_true, ↓reduceIte]
    refine finish_failed (fun unhindered => ?_) fun _ _ => rfl
    rcases reason with ⟨tree, occupied⟩ | refused
    · exact unhindered.free tree occupied
    · simp [unhindered.creates] at refused
  · have elsewhere : SameElsewhere job.filename before
        (Function.update before job.filename (some (.file []))) := fun other different => by
      rw [Function.update_of_ne different]
    simp only [created, truncated, Bool.true_and]
    split
    · rename_i opens
      rw [accepted.stream_eq]
      have start : (⟨Function.update before job.filename (some (.file [])), job.running 0⟩ :
          DumpWorld Tree).documents job.filename = some (.file (job.asRead host 0)) :=
        Function.update_self _ _ _
      exact conclude_ended elsewhere
        (dumpRounds_streamed job.totalSize (Nat.le_add_left _ _) start)
        ⟨fun unhindered => unhindered.smooth, fun smooth => ⟨free, creates, opens, smooth⟩⟩
    · rename_i closed
      exact finish_failed (fun unhindered => closed unhindered.opens) elsewhere

theorem losesNothing_iff {status : DumpStatus} {start stop filename : Option NSString}
    {lease completion : Bool}
    (started : startFrom status start stop filename lease completion = .ok job)
    (before : Documents Tree) :
    job.LosesNothing host before (job.work host before) ↔
      before job.filename = none ∨ job.Unhindered host before := by
  have ended : Ended job host before (job.work host before) :=
    work_ended (startFrom_accepted started) before
  constructor
  · intro safe
    by_cases completed : (job.work host before).status.state = .completed
    · exact .inr (ended.completed.mp completed)
    · left
      cases old : before job.filename with
      | none => rfl
      | some entry =>
          have kept := safe.kept completed _ entry old
          rw [ended.removed completed] at kept
          cases kept
  · intro condition
    have absent : (job.work host before).status.state ≠ .completed → before job.filename = none :=
      fun failed => condition.resolve_right fun unhindered => failed (ended.completed.mpr unhindered)
    have same : (job.work host before).status.state ≠ .completed →
        ∀ name, (job.work host before).documents name = before name := by
      intro failed name
      by_cases own : name = job.filename
      · rw [own, ended.removed failed, absent failed]
      · exact ended.elsewhere name own
    refine ⟨fun failed name entry old => (same failed name).trans old,
      fun failed name missing => (same failed name).trans missing, fun completed => ?_⟩
    obtain ⟨rounds, all, content⟩ := ended.dumped completed
    exact ⟨rounds, (job.asRead_length host rounds).trans all, content⟩

def twoBytes : DumpJob := ⟨1, 2, [0x61]⟩

def unreadable : DumpHost where
  creates := true
  opens := true
  reader _ := ⟨fun _ _ => (0, fun _ => 0)⟩
  cancelled _ := false
  raises _ := none

theorem losesNothing_beside : twoBytes.LosesNothing unreadable
    (fun name => if name = [0x62] then some (.file [1]) else none : Documents Unit)
    (twoBytes.work unreadable fun name => if name = [0x62] then some (.file [1]) else none) :=
  (losesNothing_iff (show startFrom {} (some (.ofAscii "1")) (some (.ofAscii "3"))
    (some (.ofAscii "a")) true true = .ok twoBytes from rfl) _).mpr (.inl rfl)

/-- A failed dump removes the file that had its name. -/
theorem not_losesNothing : ¬ ∀ (status : DumpStatus) (start stop filename : Option NSString)
    (lease completion : Bool) (job : DumpJob) (host : DumpHost) (before : Documents Unit),
    startFrom status start stop filename lease completion = .ok job →
      job.LosesNothing host before (job.work host before) := by
  intro safe
  have kept := (safe {} (some (.ofAscii "1")) (some (.ofAscii "3")) (some (.ofAscii "a")) true true
    twoBytes unreadable (fun name => if name = [0x61] then some (.file [1]) else none) rfl).kept
    (by decide) [0x61] (.file [1]) rfl
  exact absurd kept (by decide)

end DumpJob

end H5GG
