import H5GG.Proof.ScriptStore
import Mathlib.Order.Defs.Unbundled

/-!
# What a listing shows
-/

namespace H5GG
open Posix

namespace ScriptStore

/-! ### The order of names -/

def lowercase (name : List UInt8) : List UInt8 := name.map toLower

theorem firstDifference_some {left right : List UInt8} {pair : UInt8 × UInt8}
    (found : (left.zip right).find? (fun pair => toLower pair.1 ≠ toLower pair.2) = some pair) :
    (lowercase left < lowercase right ↔ toLower pair.1 < toLower pair.2) ∧
      lowercase left ≠ lowercase right := by
  induction left generalizing right with
  | nil => cases found
  | cons l left ih =>
      cases right with
      | nil => cases found
      | cons r right =>
          rw [List.zip_cons_cons, List.find?_cons] at found
          simp only [lowercase, List.map_cons, List.cons_lt_cons_iff, ne_eq, List.cons.injEq] at ih ⊢
          by_cases same : toLower l = toLower r
          · simp only [same, ne_eq, not_true_eq_false, decide_false] at found
            obtain ⟨less, differ⟩ := ih found
            simp only [same, UInt8.lt_irrefl, false_or, true_and]
            exact ⟨less, differ⟩
          · simp only [same, ne_eq, not_false_eq_true, decide_true, Option.some.injEq] at found
            subst found
            simp [same]

theorem firstDifference_none {left right : List UInt8}
    (none : (left.zip right).find? (fun pair => toLower pair.1 ≠ toLower pair.2) = none) :
    (left.length < right.length → lowercase left < lowercase right) ∧
      (right.length < left.length → lowercase right < lowercase left) ∧
      (left.length = right.length → lowercase left = lowercase right) := by
  induction left generalizing right with
  | nil =>
      cases right with
      | nil => simp
      | cons r right => simp [lowercase]
  | cons l left ih =>
      cases right with
      | nil => simp [lowercase]
      | cons r right =>
          rw [List.zip_cons_cons, List.find?_cons] at none
          by_cases same : toLower l = toLower r
          · simp only [same, ne_eq, not_true_eq_false, decide_false] at none
            simpa [lowercase, List.cons_lt_cons_iff, same] using ih none
          · simp [same] at none

theorem caseInsensitiveLess_iff {left right : List UInt8} :
    caseInsensitiveLess left right = true ↔
      lowercase left < lowercase right ∨ lowercase left = lowercase right ∧ left < right := by
  unfold caseInsensitiveLess
  split
  · rename_i l r found
    obtain ⟨less, differ⟩ := firstDifference_some found
    simp [less, differ]
  · rename_i none
    obtain ⟨shorter, longer, equal⟩ := firstDifference_none none
    split
    · rename_i differ
      rcases Nat.lt_or_gt_of_ne differ with less | more
      · simp [less, shorter less]
      · have above := longer more
        have different : lowercase left ≠ lowercase right := by
          intro same
          rw [same] at above
          exact List.lt_irrefl _ above
        simp [Nat.lt_asymm more, different, List.lt_asymm above]
    · rename_i same
      rw [equal (not_not.mp same)]
      simp [List.lt_irrefl]

instance less_strictTotal :
    IsStrictTotalOrder (List UInt8) fun left right => caseInsensitiveLess left right = true where
  irrefl name less := by
    rcases caseInsensitiveLess_iff.mp less with below | ⟨_, below⟩
    · exact List.lt_irrefl _ below
    · exact List.lt_irrefl _ below
  trans a b c first second := by
    rcases caseInsensitiveLess_iff.mp first with below | ⟨same, below⟩
    · rcases caseInsensitiveLess_iff.mp second with below' | ⟨same', _⟩
      · exact caseInsensitiveLess_iff.mpr (.inl (List.lt_trans below below'))
      · exact caseInsensitiveLess_iff.mpr (.inl (same' ▸ below))
    · rcases caseInsensitiveLess_iff.mp second with below' | ⟨same', below'⟩
      · exact caseInsensitiveLess_iff.mpr (.inl (same ▸ below'))
      · exact caseInsensitiveLess_iff.mpr (.inr ⟨same.trans same', List.lt_trans below below'⟩)
  trichotomous a b notLess notMore := by
    rw [caseInsensitiveLess_iff, not_or, not_and] at notLess notMore
    have same : lowercase a = lowercase b := List.le_antisymm notMore.1 notLess.1
    exact List.le_antisymm (notMore.2 same.symm) (notLess.2 same)

/-! ### One run of the loop -/

/-- A name that `readdir` hands out, with what becomes of that call and of an `lstat` behind it. -/
structure Entry where
  name : Path
  read : Posix.Answer
  inspect : Posix.Answer

def isScriptName (name : Path) : Bool := h5ggNormalizeScriptFileName (some name) = some name

def Entry.answers (entry : Entry) : List Posix.Answer :=
  if isScriptName entry.name then [entry.read, entry.inspect] else [entry.read]

/-- What `lstat` replies. -/
def lstatReply (disk : Disk) (path : Path) (answer : Posix.Answer) : Except Nat Stat :=
  match answer.error with
  | some errno => .error errno
  | none =>
      match disk.content path with
      | none => .error ENOENT
      | some (.regular bytes) => .ok { isRegular := true, size := bytes.length }
      | some _ => .ok { isRegular := false, size := 0 }

/-- The script names of a directory stream, with the reply to the `lstat` of each. -/
def outcomes (root : Path) (disk : Disk) (entries : List Entry) : List (Path × Except Nat Stat) :=
  (entries.filter fun entry => isScriptName entry.name).map fun entry =>
    (entry.name, lstatReply disk (within root entry.name) entry.inspect)

/-- `errno` behind the loop. -/
def errnoAfter : Nat → List (Path × Except Nat Stat) → Nat
  | errno, [] => errno
  | _, (_, .error errno) :: rest => errnoAfter errno rest
  | errno, (_, .ok _) :: rest => errnoAfter errno rest

def isRegularFile : Except Nat Stat → Bool
  | .ok info => info.isRegular
  | .error _ => false

/-- The scripts for which `lstat` reported a regular file. -/
def regular (outcomes : List (Path × Except Nat Stat)) : List Path :=
  (outcomes.filter fun outcome => isRegularFile outcome.2).map Prod.fst

theorem lstat_run (system : System) (path : Path) {answer : Posix.Answer} {answers : List Posix.Answer}
    (next : system.answers = answer :: answers) :
    lstat path system = .ok (lstatReply system.disk path answer)
      { system with answers, log := system.log ++ [.inspected path] } := by
  unfold lstat record call lstatReply
  simp only [bind, EStateM.bind, next]
  cases answer.error with
  | some errno => rfl
  | none =>
      dsimp only
      cases system.disk.content path with
      | none => rfl
      | some node => cases node <;> rfl

theorem readdir_run {system : System} {answer : Posix.Answer} {answers : List Posix.Answer}
    (next : system.answers = answer :: answers) (fine : answer.error = none) :
    readdir system = .ok (.ok ()) { system with answers } := by
  unfold readdir call
  simp only [next, fine]

theorem closedir_run {system : System} {answer : Posix.Answer} {answers : List Posix.Answer}
    (next : system.answers = answer :: answers) :
    ∃ reply, closedir system = .ok reply { system with answers } := by
  unfold closedir call
  simp only [next]
  cases answer.error with
  | some errno => exact ⟨_, rfl⟩
  | none => exact ⟨_, rfl⟩

theorem outcomes_cons (root : Path) (disk : Disk) (entry : Entry) (entries : List Entry) :
    outcomes root disk (entry :: entries) =
      outcomes root disk [entry] ++ outcomes root disk entries := by
  unfold outcomes
  rw [← List.singleton_append, List.filter_append, List.map_append]

theorem errnoAfter_append (errno : Nat) (first later : List (Path × Except Nat Stat)) :
    errnoAfter errno (first ++ later) = errnoAfter (errnoAfter errno first) later := by
  induction first generalizing errno with
  | nil => rfl
  | cons outcome rest ih =>
      obtain ⟨name, reply⟩ := outcome
      cases reply with
      | error failed => exact ih failed
      | ok info => exact ih errno

theorem regular_append (first later : List (Path × Except Nat Stat)) :
    regular (first ++ later) = regular first ++ regular later := by
  unfold regular
  rw [List.filter_append, List.map_append]

theorem listLoop_turn (root : Path) {entry : Entry} (names : List Path) (errno : Nat)
    (scripts : List Path) {system : System} {later : List Posix.Answer}
    (answers : system.answers = entry.answers ++ later) (reads : entry.read.error = none) :
    ∃ next : System, next.disk = system.disk ∧ next.answers = later ∧
      listLoop root (entry.name :: names) errno scripts system =
        listLoop root names (errnoAfter errno (outcomes root system.disk [entry]))
          (scripts ++ regular (outcomes root system.disk [entry])) next := by
  rw [Entry.answers] at answers
  rw [listLoop]
  by_cases script : isScriptName entry.name = true
  · have normal : h5ggNormalizeScriptFileName (some entry.name) = some entry.name :=
      of_decide_eq_true script
    rw [if_pos script, List.cons_append] at answers
    have inspected := lstat_run { system with answers := entry.inspect :: later }
      (within root entry.name) rfl
    have shown : outcomes root system.disk [entry] =
        [(entry.name, lstatReply system.disk (within root entry.name) entry.inspect)] := by
      simp [outcomes, script]
    rw [shown]
    refine ⟨{ system with
      answers := later, log := system.log ++ [.inspected (within root entry.name)] }, rfl, rfl, ?_⟩
    simp only [bind, EStateM.bind, readdir_run answers reads, normal, ne_eq, not_true_eq_false,
      ↓reduceIte, inspected, List.singleton_append]
    cases lstatReply system.disk (within root entry.name) entry.inspect with
    | error failed => simp [regular, isRegularFile, errnoAfter]
    | ok info => cases isRegular : info.isRegular <;> simp [regular, isRegularFile, isRegular, errnoAfter]
  · have other : h5ggNormalizeScriptFileName (some entry.name) ≠ some entry.name :=
      fun normal => script (decide_eq_true normal)
    rw [if_neg script, List.singleton_append] at answers
    refine ⟨{ system with answers := later }, rfl, rfl, ?_⟩
    simp only [bind, EStateM.bind, readdir_run answers reads, other, ne_eq, not_false_eq_true,
      ↓reduceIte]
    simp [outcomes, script, errnoAfter, regular]

theorem listLoop_run (root : Path) {entries : List Entry} (system : System) {last : Posix.Answer}
    {more : List Posix.Answer} (answers : system.answers = entries.flatMap Entry.answers ++ last :: more)
    (reads : ∀ entry ∈ entries, entry.read.error = none) (ends : last.error = none) (errno : Nat)
    (scripts : List Path) : ∃ after,
      listLoop root (entries.map Entry.name) errno scripts system =
        .ok (errnoAfter errno (outcomes root system.disk entries),
          scripts ++ regular (outcomes root system.disk entries)) after ∧ after.answers = more := by
  induction entries generalizing system errno scripts with
  | nil =>
      refine ⟨{ system with answers := more }, ?_, rfl⟩
      rw [List.map_nil, listLoop]
      simp only [bind, EStateM.bind, readdir_run answers ends]
      simp [outcomes, errnoAfter, regular, pure, EStateM.pure]
  | cons entry entries ih =>
      rw [List.forall_mem_cons] at reads
      rw [List.flatMap_cons, List.append_assoc] at answers
      obtain ⟨next, disk, left, turned⟩ :=
        listLoop_turn root (entries.map Entry.name) errno scripts answers reads.1
      obtain ⟨after, looped, gone⟩ := ih next left reads.2 (errnoAfter errno (outcomes root system.disk [entry]))
        (scripts ++ regular (outcomes root system.disk [entry]))
      refine ⟨after, ?_, gone⟩
      rw [List.map_cons, turned, looped, disk, outcomes_cons root system.disk entry entries,
        errnoAfter_append, regular_append, List.append_assoc]

theorem errnoAfter_eq_zero {outcomes : List (Path × Except Nat Stat)}
    (errnos : ∀ outcome ∈ outcomes, ∀ errno, outcome.2 = .error errno → errno ≠ 0) (errno : Nat) :
    errnoAfter errno outcomes = 0 ↔ errno = 0 ∧ ∀ outcome ∈ outcomes, outcome.2.isOk = true := by
  induction outcomes generalizing errno with
  | nil => simp [errnoAfter]
  | cons outcome outcomes ih =>
      rw [List.forall_mem_cons] at errnos ⊢
      obtain ⟨name, reply⟩ := outcome
      cases reply with
      | ok info =>
          rw [errnoAfter, ih errnos.2]
          simp [Except.isOk, Except.toBool]
      | error failed =>
          rw [errnoAfter, ih errnos.2]
          simp [Except.isOk, Except.toBool, errnos.1 failed rfl]

/-! ### The whole call -/

/-- How a listing goes in which `opendir` and every `readdir` succeed. -/
structure Listing where
  opened : Posix.Answer
  entries : List Entry
  last : Posix.Answer
  closed : Posix.Answer
  rest : List Posix.Answer

/-- A call that fails leaves an error number, which is not zero. -/
structure Listing.Runs (listing : Listing) (store : ScriptStore) (system : System) : Prop where
  names : listing.entries.map Entry.name = system.disk.entries store.rootDirectory
  answers : system.answers = listing.opened ::
    (listing.entries.flatMap Entry.answers ++ listing.last :: listing.closed :: listing.rest)
  opens : listing.opened.error = none
  reads : ∀ entry ∈ listing.entries, entry.read.error = none
  ends : listing.last.error = none
  errnos : ∀ entry ∈ listing.entries, entry.inspect.error ≠ some 0

def Listing.outcomes (listing : Listing) (store : ScriptStore) (system : System) :
    List (Path × Except Nat Stat) :=
  ScriptStore.outcomes store.rootDirectory system.disk listing.entries

section
variable {strerror : Nat → String} {store : ScriptStore} {system : System} {listing : Listing}

theorem Listing.Runs.errno (runs : listing.Runs store system) :
    ∀ outcome ∈ listing.outcomes store system, ∀ errno, outcome.2 = .error errno → errno ≠ 0 := by
  intro outcome member errno failed zero
  obtain ⟨entry, inside, rfl⟩ := List.mem_map.mp member
  have nonzero := runs.errnos entry (List.mem_filter.mp inside).1
  subst zero
  unfold lstatReply at failed
  split at failed
  · rename_i errno given
    cases failed
    exact nonzero given
  · split at failed <;> cases failed

def sorted (scripts : List Path) : List Path := scripts.mergeSort fun a b => !caseInsensitiveLess b a

theorem list_run (strerror : Nat → String) (runs : listing.Runs store system) : ∃ after,
    store.list strerror system = .ok
      (if errnoAfter 0 (listing.outcomes store system) ≠ 0 then
        (store.fail (systemError strerror "Unable to list scripts"
          (errnoAfter 0 (listing.outcomes store system))), [])
      else ((store.clearError, true), sorted (regular (listing.outcomes store system)))) after := by
  let opened := { system with
    answers := listing.entries.flatMap Entry.answers ++ listing.last :: listing.closed :: listing.rest
    log := system.log ++ [.listed store.rootDirectory] : System }
  have opendir_run : opendir store.rootDirectory system =
      .ok (.ok (listing.entries.map Entry.name)) opened := by
    unfold opendir record call
    simp only [bind, EStateM.bind, runs.answers, runs.opens, runs.names, opened]
  obtain ⟨after, looped, left⟩ := listLoop_run store.rootDirectory opened
    rfl runs.reads runs.ends 0 []
  obtain ⟨reply, closes⟩ := closedir_run left
  refine ⟨{ after with answers := listing.rest }, ?_⟩
  unfold ScriptStore.list
  have disk : opened.disk = system.disk := rfl
  simp only [bind, EStateM.bind, opendir_run, looped, closes, disk, List.nil_append, Listing.outcomes]
  split
  · rename_i failed
    exact congrArg (fun result => EStateM.Result.ok result _) (if_pos failed).symm
  · rename_i fine
    exact congrArg (fun result => EStateM.Result.ok result _) (if_neg fine).symm

theorem sorted_perm (scripts : List Path) : (sorted scripts).Perm scripts :=
  List.mergeSort_perm _ _

theorem sorted_pairwise (scripts : List Path) :
    (sorted scripts).Pairwise fun a b => caseInsensitiveLess b a = false := by
  have order := less_strictTotal
  have ordered : (sorted scripts).Pairwise fun a b => (!caseInsensitiveLess b a) = true :=
    List.pairwise_mergeSort ?_ ?_ scripts
  · refine ordered.imp fun {a b} notAbove => ?_
    rwa [Bool.not_eq_true'] at notAbove
  · intro a b c first second
    rw [Bool.not_eq_true', ← Bool.not_eq_true] at *
    intro above
    by_cases more : caseInsensitiveLess b a = true
    · exact first more
    · by_cases less : caseInsensitiveLess a b = true
      · exact second (order.trans _ _ _ above less)
      · rw [order.trichotomous a b less more] at above
        exact second above
  · intro a b
    cases below : caseInsensitiveLess b a with
    | false => rfl
    | true =>
        cases above : caseInsensitiveLess a b with
        | false => rfl
        | true => exact absurd (order.trans _ _ _ below above) (order.irrefl b)

theorem sorted_congr {scripts scripts' : List Path} (same : scripts.Perm scripts') :
    sorted scripts = sorted scripts' := by
  refine List.Perm.eq_of_pairwise (fun a b _ _ notAbove notBelow => ?_) (sorted_pairwise scripts)
    (sorted_pairwise scripts') ((sorted_perm scripts).trans (same.trans (sorted_perm scripts').symm))
  apply less_strictTotal.trichotomous a b
  · rw [notBelow]
    exact Bool.false_ne_true
  · rw [notAbove]
    exact Bool.false_ne_true

/-- The names that a call to `list` returns. -/
def listed (strerror : Nat → String) (store : ScriptStore) (system : System) : Option (List Path) :=
  match store.list strerror system with
  | .ok result _ => some result.2
  | .error _ _ => none

/-- The listing succeeds with the names of the regular files among the scripts, in an order that is
strict and total, and another stream with the same replies gives the same list. -/
structure Listing.Exact (listing : Listing) (strerror : Nat → String) (store : ScriptStore)
    (system : System) : Prop where
  order : IsStrictTotalOrder (List UInt8) fun left right => caseInsensitiveLess left right = true
  succeeds : ∃ scripts after, store.list strerror system = .ok ((store.clearError, true), scripts) after ∧
    scripts.Perm (regular (listing.outcomes store system)) ∧
    scripts.Pairwise fun a b => caseInsensitiveLess b a = false
  anyOrder : ∀ (listing' : Listing) (store' : ScriptStore) (system' : System),
    listing'.Runs store' system' →
    (listing'.outcomes store' system').Perm (listing.outcomes store system) →
    listed strerror store' system' = listed strerror store system
  failing : ∀ (system' : System) result after, store.list strerror system' = .ok result after →
    result.1.2 = false → result.2 = [] ∧ result.1.1.lastError ≠ ""

/-- Every `lstat` of a script name succeeds. -/
def Listing.Inspected (listing : Listing) (store : ScriptStore) (system : System) : Prop :=
  ∀ outcome ∈ listing.outcomes store system, outcome.2.isOk = true

theorem listed_eq (runs : listing.Runs store system) : listed strerror store system =
    some (if errnoAfter 0 (listing.outcomes store system) ≠ 0 then []
      else sorted (regular (listing.outcomes store system))) := by
  obtain ⟨after, run⟩ := list_run strerror runs
  unfold listed
  rw [run]
  split_ifs <;> rfl

theorem list_failing (strerror : Nat → String) (store : ScriptStore) (system : System) :
    Ensures (store.list strerror) system
      (fun result _ => result.1.2 = false → result.2 = [] ∧ result.1.1.lastError ≠ "")
      (fun _ _ => True) := by
  have any {Value : Type} (program : Program Value) (system : System) :
      Ensures program system (fun _ _ => True) (fun _ _ => True) := by
    unfold Ensures
    split <;> trivial
  refine Ensures.bind ((any _ _).mono (fun reply opened _ => ?_) fun _ _ _ => trivial)
  cases reply with
  | error errno => exact fun _ => ⟨rfl, systemError_nonempty _ _ _⟩
  | ok stream =>
      refine Ensures.bind ((any _ _).mono (fun looped after _ => ?_) fun _ _ _ => trivial)
      refine Ensures.bind ((any _ _).mono (fun reply closed _ => ?_) fun _ _ _ => trivial)
      split_ifs
      · exact fun _ => ⟨rfl, systemError_nonempty _ _ _⟩
      · intro failed
        cases failed

theorem list_exact_iff (strerror : Nat → String) (runs : listing.Runs store system) :
    listing.Exact strerror store system ↔ listing.Inspected store system := by
  obtain ⟨after, run⟩ := list_run strerror runs
  have noError := errnoAfter_eq_zero runs.errno 0
  constructor
  · intro exact
    obtain ⟨scripts, after', succeeds, _⟩ := exact.succeeds
    rw [run] at succeeds
    by_cases failed : errnoAfter 0 (listing.outcomes store system) ≠ 0
    · rw [if_pos failed] at succeeds
      have result := (EStateM.Result.ok.inj succeeds).1
      exact absurd (congrArg (fun result => result.1.2) result) Bool.false_ne_true
    · exact (noError.mp (not_not.mp failed)).2
  · intro inspected
    have none := noError.mpr ⟨rfl, inspected⟩
    constructor
    · exact less_strictTotal
    · refine ⟨_, after, run.trans ?_, sorted_perm _, sorted_pairwise _⟩
      rw [if_neg (not_not.mpr none)]
    · intro listing' store' system' runs' same
      have none' := (errnoAfter_eq_zero runs'.errno 0).mpr
        ⟨rfl, fun outcome member => inspected outcome (same.mem_iff.mp member)⟩
      rw [listed_eq runs', listed_eq runs, if_neg (not_not.mpr none), if_neg (not_not.mpr none')]
      exact congrArg some (sorted_congr ((same.filter _).map _))
    · intro system' result after' returned
      have ensured := list_failing strerror store system'
      unfold Ensures at ensured
      rw [returned] at ensured
      exact ensured

end

/-- The directory `/s`. -/
def scriptRoot : Path := [0x2F, 0x73]
def bScript : Path := [0x62, 0x2E, 0x6A, 0x73]
def aScript : Path := [0x41, 0x2E, 0x6A, 0x73]

theorem scriptLinks_linked :
    ∀ link ∈ [(within scriptRoot bScript, 0), (within scriptRoot aScript, 0)], link.2 < 1 := by decide

/-- `b.js` and `A.js`. -/
def scriptSystem (inspect : Posix.Answer) : System where
  disk := {
    links := [(within scriptRoot bScript, 0), (within scriptRoot aScript, 0)]
    nodes := [.regular []]
    linked := scriptLinks_linked }
  answers := [{}, {}, {}, {}, inspect, {}, {}, {}, {}]

/-- The reply to the `lstat` of the first script is left open. -/
def scriptListing (inspect : Posix.Answer) : Listing where
  opened := {}
  entries := [⟨[0x2E], {}, {}⟩, ⟨[0x2E, 0x2E], {}, {}⟩, ⟨bScript, {}, inspect⟩, ⟨aScript, {}, {}⟩]
  last := {}
  closed := {}
  rest := []

theorem scriptListing_runs {inspect : Posix.Answer} (errno : inspect.error ≠ some 0) :
    (scriptListing inspect).Runs { rootDirectory := scriptRoot } (scriptSystem inspect) where
  names := rfl
  answers := rfl
  opens := rfl
  reads := by simp [scriptListing]
  ends := rfl
  errnos := by
    simpa [scriptListing] using errno

theorem list_exact_iff_scriptListing :
    (scriptListing {}).Exact (fun _ => "") { rootDirectory := scriptRoot } (scriptSystem {}) ↔
      (scriptListing {}).Inspected { rootDirectory := scriptRoot } (scriptSystem {}) :=
  list_exact_iff (fun _ => "") (scriptListing_runs (by decide))

/-- The first script is removed before it is inspected, and the listing fails. -/
theorem lostScript_fails : ¬∀ (strerror : Nat → String) (listing : Listing) (store : ScriptStore)
    (system : System), listing.Runs store system → listing.Exact strerror store system := by
  intro claim
  have exact := claim (fun _ => "") (scriptListing { error := some ENOENT })
    { rootDirectory := scriptRoot } (scriptSystem { error := some ENOENT }) (scriptListing_runs (by decide))
  have inspected := (list_exact_iff (fun _ => "") (scriptListing_runs (by decide))).mp exact
  exact absurd (inspected (bScript, .error ENOENT) (by decide)) (by decide)

end ScriptStore

end H5GG
