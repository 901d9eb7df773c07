import H5GG.Library.Program
import Mathlib.Data.List.Basic

/-!
# Files, and the calls that a program makes on them

What a call comes to is decided by the next of a list of answers. A call that fails changes nothing.
-/

namespace Posix

abbrev Path := List UInt8
abbrev Bytes := List UInt8

inductive Node
  | regular (bytes : Bytes)
  | symbolicLink
  | other
  deriving DecidableEq, Repr

/-- The files there are, and the ones that have names. A file is known by its place. -/
@[ext] structure Disk where
  links : List (Path × Nat)
  nodes : List Node
  linked : ∀ link ∈ links, link.2 < nodes.length

namespace Disk

def find (path : Path) (disk : Disk) : Option Nat := disk.links.lookup path

/-- What a path names. -/
def content (path : Path) (disk : Disk) : Option Node :=
  (disk.find path).bind fun file => disk.nodes[file]?

def bytes (file : Nat) (disk : Disk) : Bytes :=
  match disk.nodes[file]? with
  | some (.regular bytes) => bytes
  | _ => []

theorem lookup_mem {links : List (Path × Nat)} {path : Path} {file : Nat}
    (found : links.lookup path = some file) : (path, file) ∈ links := by
  induction links with
  | nil => cases found
  | cons link rest ih =>
      rw [List.lookup_cons] at found
      cases here : path == link.1 with
      | true =>
          rw [here] at found
          cases found
          rw [eq_of_beq here]
          exact List.mem_cons_self
      | false =>
          rw [here] at found
          exact List.mem_cons_of_mem _ (ih found)

/-- A file that has not been there before. -/
def create (path : Path) (disk : Disk) : Disk where
  links := (path, disk.nodes.length) :: disk.links.filter (·.1 ≠ path)
  nodes := disk.nodes ++ [.regular []]
  linked link inside := by
    rw [List.length_append]
    cases List.mem_cons.mp inside with
    | inl new => exact new ▸ Nat.lt_succ_self _
    | inr old => exact Nat.lt_succ_of_lt (disk.linked link (List.mem_filter.mp old).1)

def edit (file : Nat) (change : Node → Node) (disk : Disk) : Disk where
  links := disk.links
  nodes := disk.nodes.modify file change
  linked link inside := by
    rw [List.length_modify]
    exact disk.linked link inside

def append (file : Nat) (more : Bytes) : Disk → Disk :=
  edit file fun node => match node with
    | .regular bytes => .regular (bytes ++ more)
    | node => node

def unlink (path : Path) (disk : Disk) : Disk where
  links := disk.links.filter (·.1 ≠ path)
  nodes := disk.nodes
  linked link inside := disk.linked link (List.mem_filter.mp inside).1

/-- The new name loses what it named. Two names of one file both stay. -/
def rename (source target : Path) (disk : Disk) : Disk :=
  match found : disk.links.lookup source with
  | none => disk
  | some file =>
      if disk.find target = some file then disk
      else {
        links := (target, file) :: (disk.unlink source).links.filter (·.1 ≠ target)
        nodes := disk.nodes
        linked := fun link inside => by
          cases List.mem_cons.mp inside with
          | inl new =>
              rw [new]
              exact disk.linked (source, file) (lookup_mem found)
          | inr old => exact (disk.unlink source).linked link (List.mem_filter.mp old).1 }

end Disk

def EINTR : Nat := 4
def EIO : Nat := 5
def EEXIST : Nat := 17
def ENOENT : Nat := 2
def ELOOP : Nat := 62

/-- What becomes of a call: `errno`, or how many bytes it transfers, or which name it takes. -/
structure Answer where
  error : Option Nat := none
  count : Nat := 0
  suffix : Bytes := []
  deriving DecidableEq, Repr

inductive PathCall
  | opened (path : Path)
  | created (path : Path)
  | renamed (source target : Path)
  /-- After the call the name is gone, or it is still there. -/
  | unlinked (path : Path) (gone : Bool)
  | listed (directory : Path)
  | inspected (path : Path)
  deriving DecidableEq, Repr

structure System where
  disk : Disk
  answers : List Answer
  /-- The calls that name a path. -/
  log : List PathCall := []

/-- A program waits for a call that is never answered, or lets an exception through. -/
inductive Stop
  | waiting
  | raised (what : Option String)
  deriving DecidableEq, Repr

abbrev Program (Value : Type) := EStateM Stop System Value

variable {Value : Type}

/-- A call that does what `effect` says, unless it fails. -/
def call (effect : Answer → Disk → Except Nat Value × Disk) : Program (Except Nat Value) :=
  fun system =>
    match system.answers with
    | [] => .error .waiting system
    | answer :: answers =>
        match answer.error with
        | some errno => .ok (.error errno) { system with answers }
        | none =>
            let result := effect answer system.disk
            .ok result.1 { system with answers, disk := result.2 }

def record (entry : PathCall) : Program Unit :=
  fun system => .ok () { system with log := system.log ++ [entry] }

/-- `open` with `O_RDONLY` and `O_NOFOLLOW`. -/
def openFile (path : Path) : Program (Except Nat Nat) := do
  record (.opened path)
  call fun _ disk =>
    match disk.find path with
    | none => (.error ENOENT, disk)
    | some file =>
        if disk.nodes[file]? = some .symbolicLink then (.error ELOOP, disk) else (.ok file, disk)

structure Stat where
  isRegular : Bool
  size : Nat
  deriving DecidableEq, Repr

def fstat (file : Nat) : Program (Except Nat Stat) :=
  call fun _ disk =>
    match disk.nodes[file]? with
    | some (.regular bytes) => (.ok { isRegular := true, size := bytes.length }, disk)
    | _ => (.ok { isRegular := false, size := 0 }, disk)

def close : Program (Except Nat Unit) := call fun _ disk => (.ok (), disk)

def fsync : Program (Except Nat Unit) := call fun _ disk => (.ok (), disk)

def isAlphanumeric (c : UInt8) : Bool :=
  (0x30 ≤ c && c ≤ 0x39) || (0x41 ≤ c && c ≤ 0x5A) || (0x61 ≤ c && c ≤ 0x7A)

/-- The name is new, and its last six characters are chosen here. -/
def mkstemp (stem : Path) : Program (Except Nat (Nat × Path)) := do
  let reply ← call fun answer disk =>
    let path := stem ++ answer.suffix
    if answer.suffix.length = 6 ∧ answer.suffix.all isAlphanumeric ∧ disk.find path = none then
      (.ok (disk.nodes.length, path), disk.create path)
    else (.error EEXIST, disk)
  if let .ok (_, path) := reply then record (.created path)
  pure reply

def rename (source target : Path) : Program (Except Nat Unit) := do
  record (.renamed source target)
  call fun _ disk =>
    match disk.find source with
    | none => (.error ENOENT, disk)
    | some _ => (.ok (), disk.rename source target)

def unlink (path : Path) : Program (Except Nat Unit) := do
  let reply ← call fun _ disk =>
    match disk.find path with
    | none => (.error ENOENT, disk)
    | some _ => (.ok (), disk.unlink path)
  record (.unlinked path ((← get).disk.find path).isNone)
  pure reply

/-! ## Reading and writing it all -/

/-- `read` for the rest, over and over: once more after `EINTR`, and no longer after the end. -/
def readLoop (contents : Bytes) (size : Nat) :
    List Answer → Bytes → EStateM.Result Stop (List Answer) (Except Nat Bytes)
  | [], bytes => if bytes.length < size then .error .waiting [] else .ok (.ok bytes) []
  | answer :: answers, bytes =>
      if bytes.length < size then
        match answer.error with
        | some errno =>
            if errno = EINTR then readLoop contents size answers bytes
            else .ok (.error errno) answers
        | none =>
            let piece := (contents.drop bytes.length).take (min answer.count (size - bytes.length))
            if piece = [] then .ok (.error EIO) answers
            else readLoop contents size answers (bytes ++ piece)
      else .ok (.ok bytes) (answer :: answers)

def readFully (file size : Nat) : Program (Except Nat Bytes) :=
  fun system =>
    match readLoop (system.disk.bytes file) size system.answers [] with
    | .ok reply answers => .ok reply { system with answers }
    | .error stop answers => .error stop { system with answers }

/-- `write` of what is left, over and over. -/
def writeLoop (file : Nat) :
    List Answer → Bytes → Disk → EStateM.Result Stop (List Answer × Disk) (Except Nat Unit)
  | [], bytes, disk => if bytes = [] then .ok (.ok ()) ([], disk) else .error .waiting ([], disk)
  | answer :: answers, bytes, disk =>
      if bytes = [] then .ok (.ok ()) (answer :: answers, disk)
      else
        match answer.error with
        | some errno =>
            if errno = EINTR then writeLoop file answers bytes disk
            else .ok (.error errno) (answers, disk)
        | none =>
            let piece := bytes.take answer.count
            if piece = [] then .ok (.error EIO) (answers, disk)
            else writeLoop file answers (bytes.drop answer.count) (disk.append file piece)

def writeFully (file : Nat) (bytes : Bytes) : Program (Except Nat Unit) :=
  fun system =>
    match writeLoop file system.answers bytes system.disk with
    | .ok reply (answers, disk) => .ok reply { system with answers, disk }
    | .error stop (answers, disk) => .error stop { system with answers, disk }

/-! ## What the operations on a disk do to its names -/

namespace Disk

theorem lookup_filter {links : List (Path × Nat)} (path other : Path) :
    (links.filter (·.1 ≠ path)).lookup other = if other = path then none else links.lookup other := by
  induction links with
  | nil => simp
  | cons link rest ih =>
      by_cases here : link.1 = path
      · rw [List.filter_cons_of_neg (by simpa using here), ih, List.lookup_cons]
        split_ifs with same
        · rfl
        · have apart : (other == link.1) = false := by
            rw [here]
            exact beq_eq_false_iff_ne.mpr same
          rw [apart]
      · rw [List.filter_cons_of_pos (by simpa using here), List.lookup_cons, List.lookup_cons, ih]
        split_ifs with same
        · have apart : (other == link.1) = false := by
            rw [same]
            exact beq_eq_false_iff_ne.mpr (Ne.symm here)
          rw [apart]
        · rfl

theorem lookup_link {links : List (Path × Nat)} (path other : Path) (file : Nat) :
    ((path, file) :: links.filter (·.1 ≠ path)).lookup other =
      if other = path then some file else links.lookup other := by
  rw [List.lookup_cons, lookup_filter]
  by_cases same : other = path
  · simp [same]
  · simp [same, beq_eq_false_iff_ne.mpr same]

variable {disk : Disk} {path : Path} {file : Nat}

theorem find_lt (found : disk.find path = some file) : file < disk.nodes.length :=
  disk.linked _ (lookup_mem found)

@[simp] theorem find_create (other : Path) :
    (disk.create path).find other =
      if other = path then some disk.nodes.length else disk.find other :=
  lookup_link path other disk.nodes.length

@[simp] theorem find_edit (change : Node → Node) (other : Path) :
    (disk.edit file change).find other = disk.find other := rfl

@[simp] theorem find_unlink (other : Path) :
    (disk.unlink path).find other = if other = path then none else disk.find other :=
  lookup_filter path other

theorem nodes_rename (source target : Path) : (disk.rename source target).nodes = disk.nodes := by
  unfold rename
  split
  · rfl
  · split_ifs <;> rfl

theorem find_rename {source target : Path} (found : disk.find source = some file)
    (apart : disk.find target ≠ some file) (other : Path) :
    (disk.rename source target).find other =
      if other = target then some file else if other = source then none else disk.find other := by
  unfold rename
  split
  · rename_i missing
    cases missing.symm.trans found
  · rename_i known here
    cases here.symm.trans found
    rw [if_neg apart]
    exact (lookup_link target other file).trans (by rw [← find_unlink]; rfl)

theorem edit_id {change : Node → Node} (unchanged : ∀ node, change node = node) :
    disk.edit file change = disk := by
  obtain rfl : change = id := funext unchanged
  exact Disk.ext rfl (List.modify_id _ _)

theorem edit_edit (first second : Node → Node) :
    (disk.edit file first).edit file second = disk.edit file (second ∘ first) :=
  Disk.ext rfl (List.modify_modify_eq _ _ _ _)

theorem append_nil : disk.append file [] = disk := by
  refine edit_id fun node => ?_
  cases node <;> simp

theorem append_append (first second : Bytes) :
    (disk.append file first).append file second = disk.append file (first ++ second) := by
  rw [append, append, append, edit_edit]
  congr 1
  funext node
  cases node <;> simp

theorem content_create : (disk.create path).content path = some (.regular []) := by
  rw [content, find_create, if_pos rfl]
  exact List.getElem?_concat_length

theorem find_created (last : file = disk.nodes.length) :
    (disk.create path).find path = some file := by
  rw [find_create, if_pos rfl, last]

theorem content_edit (found : disk.find path = some file) (change : Node → Node) :
    (disk.edit file change).content path = (disk.content path).map change := by
  rw [content, content, find_edit, found]
  exact List.getElem?_modify_eq _ _ _

theorem content_unlink : (disk.unlink path).content path = none := by
  rw [content, find_unlink, if_pos rfl]
  rfl

theorem content_eq_some (found : disk.find path = some file) :
    ∃ node, disk.content path = some node := by
  rw [content, found]
  exact ⟨_, List.getElem?_eq_getElem (find_lt found)⟩

end Disk

/-! ## What the calls ensure -/

section
variable {system : System}

theorem call_ensures {effect : Answer → Disk → Except Nat Value × Disk}
    {returns : Except Nat Value → System → Prop} {stops : Stop → System → Prop}
    (waits : system.answers = [] → stops .waiting system)
    (fails : ∀ errno answers, returns (.error errno) { system with answers })
    (works : ∀ answer answers, returns (effect answer system.disk).1
      { system with answers, disk := (effect answer system.disk).2 }) :
    Ensures (call effect) system returns stops := by
  unfold Ensures call
  cases answered : system.answers with
  | nil => exact waits answered
  | cons answer answers =>
      dsimp only
      cases answer.error with
      | none => exact works answer answers
      | some errno => exact fails errno answers

/-- Nothing on the disk changes. -/
structure Rests (entries : List PathCall) (before after : System) : Prop where
  disk : after.disk = before.disk
  log : after.log = before.log ++ entries

/-- The answers do not reach to the end of the program. -/
structure Waits (entries : List PathCall) (before : System) (stop : Stop) (after : System) :
    Prop where
  waiting : stop = .waiting
  answers : after.answers = []
  rests : Rests entries before after

theorem rests_answers (answers : List Answer) : Rests [] system { system with answers } where
  disk := rfl
  log := (List.append_nil _).symm

theorem openFile_ensures (path : Path) :
    Ensures (openFile path) system
      (fun reply after => Rests [.opened path] system after ∧
        ∀ file, reply = .ok file → system.disk.find path = some file)
      (Waits [.opened path] system) := by
  refine Ensures.bind (call_ensures (fun none_left => ⟨rfl, none_left, rfl, rfl⟩) ?_ ?_)
  · exact fun errno answers => ⟨⟨rfl, rfl⟩, fun file ok => nomatch ok⟩
  · intro answer answers
    cases found : system.disk.find path with
    | none =>
        exact ⟨⟨rfl, rfl⟩, fun file ok => nomatch ok⟩
    | some file =>
        dsimp only
        split_ifs
        · exact ⟨⟨rfl, rfl⟩, fun file ok => nomatch ok⟩
        · refine ⟨⟨rfl, rfl⟩, fun file ok => ?_⟩
          cases ok
          rfl

theorem fstat_ensures (file : Nat) :
    Ensures (fstat file) system
      (fun reply after => Rests [] system after ∧ ∀ info, reply = .ok info → info.isRegular = true →
        system.disk.nodes[file]? = some (.regular (system.disk.bytes file)) ∧
          info.size = (system.disk.bytes file).length)
      (Waits [] system) := by
  refine call_ensures (fun none_left => ⟨rfl, none_left, rests_answers _⟩) ?_ ?_
  · exact fun errno answers => ⟨rests_answers answers, fun info ok => nomatch ok⟩
  · intro answer answers
    split
    · rename_i bytes here
      refine ⟨rests_answers answers, fun info ok regular => ?_⟩
      cases ok
      rw [Disk.bytes, here]
      exact ⟨rfl, rfl⟩
    · refine ⟨rests_answers answers, fun info ok regular => ?_⟩
      cases ok
      cases regular

theorem close_ensures :
    Ensures close system (fun _ after => Rests [] system after) (Waits [] system) :=
  call_ensures (fun none_left => ⟨rfl, none_left, rests_answers _⟩)
    (fun _ answers => rests_answers answers) fun _ answers => rests_answers answers

theorem fsync_ensures :
    Ensures fsync system (fun _ after => Rests [] system after) (Waits [] system) := close_ensures

theorem taken {contents got : Bytes} {size : Nat} (read : got <+: contents)
    (within : got.length ≤ size) (full : ¬got.length < size) : got = contents.take size := by
  rw [← Nat.le_antisymm within (Nat.le_of_not_lt full)]
  exact List.prefix_iff_eq_take.mp read

theorem readLoop_take {contents : Bytes} {size : Nat} {answers rest : List Answer} {got : Bytes}
    {reply : Except Nat Bytes} (read : got <+: contents) (within : got.length ≤ size)
    (done : readLoop contents size answers got = .ok reply rest) :
    ∀ bytes, reply = .ok bytes → bytes = contents.take size := by
  induction answers generalizing got with
  | nil =>
      rw [readLoop] at done
      split_ifs at done with short
      cases done
      intro bytes same
      cases same
      exact taken read within short
  | cons answer answers ih =>
      rw [readLoop] at done
      split_ifs at done with short
      · cases error : answer.error with
        | some errno =>
            simp only [error] at done
            split_ifs at done with again
            · exact ih read within done
            · cases done
              exact fun bytes ok => nomatch ok
        | none =>
            simp only [error] at done
            split_ifs at done with ended
            · cases done
              exact fun bytes ok => nomatch ok
            · refine ih ?_ ?_ done
              · obtain ⟨more, rfl⟩ := read
                rw [List.drop_left]
                exact (List.prefix_append_right_inj got).mpr (List.take_prefix _ _)
              · rw [List.length_append, List.length_take]
                omega
      · cases done
        intro bytes same
        cases same
        exact taken read within short

theorem readLoop_waits {contents : Bytes} {size : Nat} {answers rest : List Answer} {got : Bytes}
    {stop : Stop} (stopped : readLoop contents size answers got = .error stop rest) :
    stop = .waiting ∧ rest = [] := by
  induction answers generalizing got with
  | nil =>
      rw [readLoop] at stopped
      split_ifs at stopped
      cases stopped
      exact ⟨rfl, rfl⟩
  | cons answer answers ih =>
      rw [readLoop] at stopped
      split_ifs at stopped
      cases error : answer.error with
      | some errno =>
          simp only [error] at stopped
          split_ifs at stopped
          exact ih stopped
      | none =>
          simp only [error] at stopped
          split_ifs at stopped
          exact ih stopped

theorem readFully_ensures (file size : Nat) :
    Ensures (readFully file size) system
      (fun reply after => Rests [] system after ∧
        ∀ bytes, reply = .ok bytes → bytes = (system.disk.bytes file).take size)
      (Waits [] system) := by
  unfold Ensures readFully
  cases outcome : readLoop (system.disk.bytes file) size system.answers [] with
  | ok reply answers =>
      exact ⟨rests_answers answers, readLoop_take List.nil_prefix (Nat.zero_le _) outcome⟩
  | error stop answers =>
      obtain ⟨waiting, none_left⟩ := readLoop_waits outcome
      exact ⟨waiting, none_left, rests_answers answers⟩

/-- A first part of the bytes is added to the file, and all of them if the reply says so. -/
def Wrote (file : Nat) (bytes : Bytes) (disk : Disk) :
    EStateM.Result Stop (List Answer × Disk) (Except Nat Unit) → Prop
  | .ok reply (_, after) => ∃ written, written <+: bytes ∧ after = disk.append file written ∧
      (reply = .ok () → written = bytes)
  | .error stop (rest, after) => stop = .waiting ∧ rest = [] ∧
      ∃ written, written <+: bytes ∧ after = disk.append file written

theorem Wrote.later {file count : Nat} {bytes : Bytes} {disk : Disk}
    {result : EStateM.Result Stop (List Answer × Disk) (Except Nat Unit)}
    (rest : Wrote file (bytes.drop count) (disk.append file (bytes.take count)) result) :
    Wrote file bytes disk result := by
  have extend : ∀ written, written <+: bytes.drop count → bytes.take count ++ written <+: bytes := by
    intro written part
    have whole := (List.prefix_append_right_inj (bytes.take count)).mpr part
    rwa [List.take_append_drop] at whole
  cases result with
  | ok reply after =>
      obtain ⟨written, part, appended, all⟩ := rest
      refine ⟨bytes.take count ++ written, extend written part, ?_, fun success => ?_⟩
      · rw [appended, Disk.append_append]
      · rw [all success, List.take_append_drop]
  | error stop after =>
      obtain ⟨waiting, none_left, written, part, appended⟩ := rest
      refine ⟨waiting, none_left, bytes.take count ++ written, extend written part, ?_⟩
      rw [appended, Disk.append_append]

theorem writeLoop_wrote (file : Nat) (answers : List Answer) (bytes : Bytes) (disk : Disk) :
    Wrote file bytes disk (writeLoop file answers bytes disk) := by
  have failed : ∀ errno rest, Wrote file bytes disk (.ok (.error errno) (rest, disk)) :=
    fun errno rest => ⟨[], List.nil_prefix, Disk.append_nil.symm, fun ok => nomatch ok⟩
  induction answers generalizing bytes disk with
  | nil =>
      rw [writeLoop]
      split_ifs with empty
      · exact ⟨[], List.nil_prefix, Disk.append_nil.symm, fun _ => empty.symm⟩
      · exact ⟨rfl, rfl, [], List.nil_prefix, Disk.append_nil.symm⟩
  | cons answer answers ih =>
      have again := ih bytes disk failed
      rw [writeLoop]
      split_ifs with empty
      · exact ⟨[], List.nil_prefix, Disk.append_nil.symm, fun _ => empty.symm⟩
      · cases answer.error with
        | some errno =>
            dsimp only
            split_ifs with interrupted
            · exact again
            · exact failed errno answers
        | none =>
            dsimp only
            split_ifs with ended
            · exact failed EIO answers
            · refine Wrote.later (ih _ _ fun errno rest => ?_)
              exact ⟨[], List.nil_prefix, Disk.append_nil.symm, fun ok => nomatch ok⟩

theorem writeFully_ensures (file : Nat) (bytes : Bytes) :
    Ensures (writeFully file bytes) system
      (fun reply after => after.log = system.log ∧ ∃ written, written <+: bytes ∧
        after.disk = system.disk.append file written ∧ (reply = .ok () → written = bytes))
      (fun stop after => stop = .waiting ∧ after.answers = [] ∧ after.log = system.log ∧
        ∃ written, written <+: bytes ∧ after.disk = system.disk.append file written) := by
  have wrote := writeLoop_wrote file system.answers bytes system.disk
  unfold Ensures writeFully
  cases outcome : writeLoop file system.answers bytes system.disk with
  | ok reply after =>
      rw [outcome] at wrote
      exact ⟨rfl, wrote⟩
  | error stop after =>
      rw [outcome] at wrote
      obtain ⟨waiting, none_left, written⟩ := wrote
      exact ⟨waiting, none_left, rfl, written⟩

theorem mkstemp_ensures (stem : Path) :
    Ensures (mkstemp stem) system
      (fun reply after => match reply with
        | .error _ => Rests [] system after
        | .ok (file, path) => file = system.disk.nodes.length ∧ system.disk.find path = none ∧
            (∃ suffix, suffix.length = 6 ∧ suffix.all isAlphanumeric ∧ path = stem ++ suffix) ∧
            after.disk = system.disk.create path ∧ after.log = system.log ++ [.created path])
      (Waits [] system) := by
  refine Ensures.bind (call_ensures (fun none_left => ⟨rfl, none_left, rests_answers _⟩) ?_ ?_)
  · exact fun errno answers => rests_answers answers
  · intro answer answers
    dsimp only
    split_ifs with free
    · obtain ⟨long, plain, absent⟩ := free
      exact ⟨rfl, absent, ⟨answer.suffix, long, plain, rfl⟩, rfl, rfl⟩
    · exact rests_answers answers

theorem rename_ensures (source target : Path) :
    Ensures (rename source target) system
      (fun reply after => after.log = system.log ++ [.renamed source target] ∧
        match reply with
        | .error _ => after.disk = system.disk
        | .ok _ => (∃ file, system.disk.find source = some file) ∧
            after.disk = system.disk.rename source target)
      (Waits [.renamed source target] system) := by
  refine Ensures.bind (call_ensures (fun none_left => ⟨rfl, none_left, rfl, rfl⟩) ?_ ?_)
  · exact fun errno answers => ⟨rfl, rfl⟩
  · intro answer answers
    cases found : system.disk.find source with
    | none => exact ⟨rfl, rfl⟩
    | some file => exact ⟨rfl, ⟨file, rfl⟩, rfl⟩

theorem unlink_ensures (path : Path) :
    Ensures (unlink path) system
      (fun reply after => after.log = system.log ++ [.unlinked path (after.disk.find path).isNone] ∧
        match reply with
        | .error _ => after.disk = system.disk
        | .ok _ => after.disk = system.disk.unlink path)
      (Waits [] system) := by
  refine Ensures.bind (call_ensures (fun none_left => ⟨rfl, none_left, rests_answers _⟩) ?_ ?_)
  · exact fun errno answers => ⟨rfl, rfl⟩
  · intro answer answers
    cases found : system.disk.find path with
    | none =>
        refine ⟨?_, rfl⟩
        rw [found]
    | some file => exact ⟨rfl, rfl⟩

/-! ### Where every call works -/

/-- As many calls as that are answered, and none of them fails. -/
structure Ready (calls : Nat) (system : System) : Prop where
  willing : ∀ answer ∈ system.answers, answer.error = none ∧ 0 < answer.count
  enough : calls ≤ system.answers.length

theorem Ready.fewer {calls more : Nat} (ready : Ready more system) (less : calls ≤ more) :
    Ready calls system := ⟨ready.willing, Nat.le_trans less ready.enough⟩

/-- A call that has worked, and left the disk alone. -/
structure Worked (calls : Nat) (before after : System) : Prop where
  disk : after.disk = before.disk
  ready : Ready calls after
  answers : after.answers ⊆ before.answers

theorem Worked.content {calls : Nat} {before after : System} (worked : Worked calls before after)
    (path : Path) : after.disk.content path = before.disk.content path := by
  rw [worked.disk]

theorem Worked.trans {calls more : Nat} {first second third : System}
    (early : Worked more first second) (late : Worked calls second third) :
    Worked calls first third where
  disk := late.disk.trans early.disk
  ready := late.ready
  answers := List.Subset.trans late.answers early.answers

variable {calls : Nat}

theorem call_ready {effect : Answer → Disk → Except Nat Value × Disk}
    {returns : Except Nat Value → System → Prop} (ready : Ready (calls + 1) system)
    (works : ∀ answer answers, answer ∈ system.answers → answers ⊆ system.answers →
      Ready calls { system with answers, disk := (effect answer system.disk).2 } →
      returns (effect answer system.disk).1
        { system with answers, disk := (effect answer system.disk).2 }) :
    Ensures (call effect) system returns fun _ _ => False := by
  obtain ⟨willing, enough⟩ := ready
  unfold Ensures call
  cases answered : system.answers with
  | nil =>
      rw [answered] at enough
      cases enough
  | cons answer answers =>
      rw [answered] at willing enough works
      dsimp only
      rw [(willing answer List.mem_cons_self).1]
      refine works answer answers List.mem_cons_self (List.subset_cons_self _ _)
        ⟨fun later inside => ?_, Nat.le_of_succ_le_succ enough⟩
      exact willing later (List.mem_cons_of_mem _ inside)

theorem close_ready (ready : Ready (calls + 1) system) :
    Ensures close system (fun reply after => reply = .ok () ∧ Worked calls system after)
      fun _ _ => False :=
  call_ready ready fun _ _ _ fewer ready => ⟨rfl, rfl, ready, fewer⟩

theorem fsync_ready (ready : Ready (calls + 1) system) :
    Ensures fsync system (fun reply after => reply = .ok () ∧ Worked calls system after)
      fun _ _ => False := close_ready ready

theorem openFile_ready (ready : Ready (calls + 1) system) {path : Path} {file : Nat} {bytes : Bytes}
    (found : system.disk.find path = some file)
    (node : system.disk.nodes[file]? = some (.regular bytes)) :
    Ensures (openFile path) system
      (fun reply after => reply = .ok file ∧ Worked calls system after) fun _ _ => False := by
  refine Ensures.bind (call_ready ⟨ready.willing, ready.enough⟩ fun answer answers _ fewer left => ?_)
  have regular : some (Node.regular bytes) ≠ some .symbolicLink := fun same => nomatch same
  simp only [found, node, if_neg regular] at left ⊢
  exact ⟨trivial, rfl, left, fewer⟩

theorem fstat_ready (ready : Ready (calls + 1) system) {file : Nat} {bytes : Bytes}
    (node : system.disk.nodes[file]? = some (.regular bytes)) :
    Ensures (fstat file) system
      (fun reply after => reply = .ok { isRegular := true, size := bytes.length } ∧
        Worked calls system after) fun _ _ => False := by
  refine call_ready ready fun answer answers _ fewer left => ?_
  simp only [node] at left ⊢
  exact ⟨trivial, rfl, left, fewer⟩

/-- Whichever of the answers `mkstemp` gets, it finds a name. -/
def Nameable (stem : Path) (system : System) : Prop :=
  ∀ answer ∈ system.answers, answer.suffix.length = 6 ∧ answer.suffix.all isAlphanumeric = true ∧
    system.disk.find (stem ++ answer.suffix) = none

theorem Nameable.worked {stem : Path} {after : System} (nameable : Nameable stem system)
    (worked : Worked calls system after) : Nameable stem after := fun answer among =>
  worked.disk ▸ nameable answer (worked.answers among)

theorem mkstemp_ready {stem : Path} (ready : Ready (calls + 1) system)
    (nameable : Nameable stem system) :
    Ensures (mkstemp stem) system
      (fun reply after => ∃ file path, reply = .ok (file, path) ∧
        after.disk.find path = some file ∧ after.disk.content path = some (.regular []) ∧
        Ready calls after) fun _ _ => False := by
  refine Ensures.bind (call_ready ready fun answer answers among _ left => ?_)
  obtain ⟨long, plain, absent⟩ := nameable answer among
  have free : answer.suffix.length = 6 ∧ answer.suffix.all isAlphanumeric ∧
      system.disk.find (stem ++ answer.suffix) = none := ⟨long, plain, absent⟩
  simp only [if_pos free] at left ⊢
  exact ⟨_, _, rfl, Disk.find_created rfl, Disk.content_create, left.willing, left.enough⟩

theorem rename_ready {source target : Path} (ready : Ready (calls + 1) system)
    {file : Nat} (found : system.disk.find source = some file) :
    Ensures (rename source target) system
      (fun reply after => reply = .ok () ∧ after.disk = system.disk.rename source target ∧
        Ready calls after) fun _ _ => False := by
  refine Ensures.bind (call_ready ⟨ready.willing, ready.enough⟩ fun answer answers _ _ left => ?_)
  simp only [found] at left ⊢
  exact ⟨trivial, trivial, left⟩

theorem readLoop_ready {contents : Bytes} {answers : List Answer} {got : Bytes}
    (willing : ∀ answer ∈ answers, answer.error = none ∧ 0 < answer.count)
    (read : got <+: contents) (enough : contents.length + calls ≤ got.length + answers.length) :
    ∃ rest, readLoop contents contents.length answers got = .ok (.ok contents) rest ∧
      rest ⊆ answers ∧ calls ≤ rest.length := by
  have short := read.length_le
  induction answers generalizing got with
  | nil =>
      rw [List.length_nil] at enough
      have whole := read.eq_of_length (by omega)
      refine ⟨[], ?_, List.Subset.refl _, by rw [List.length_nil]; omega⟩
      rw [readLoop, whole, if_neg (Nat.lt_irrefl _)]
  | cons answer answers ih =>
      rw [List.length_cons] at enough
      rw [readLoop]
      split_ifs with more
      · obtain ⟨fine, some_bytes⟩ := willing answer List.mem_cons_self
        have progress : min answer.count (contents.length - got.length) ≠ 0 := by omega
        have piece : (contents.drop got.length).take
            (min answer.count (contents.length - got.length)) ≠ [] := by
          rw [ne_eq, List.take_eq_nil_iff, not_or]
          refine ⟨progress, fun ended => ?_⟩
          rw [List.drop_eq_nil_iff] at ended
          omega
        have longer := List.length_pos_iff.mpr piece
        simp only [fine, if_neg piece]
        have grown : got ++ (contents.drop got.length).take
            (min answer.count (contents.length - got.length)) <+: contents := by
          obtain ⟨rest, rfl⟩ := read
          rw [List.drop_left]
          exact (List.prefix_append_right_inj got).mpr (List.take_prefix _ _)
        obtain ⟨rest, whole, fewer, enough⟩ :=
          ih (fun later inside => willing later (List.mem_cons_of_mem _ inside)) grown
            (by rw [List.length_append]; omega) grown.length_le
        exact ⟨rest, whole, List.subset_cons_of_subset _ fewer, enough⟩
      · have whole := read.eq_of_length (by omega)
        refine ⟨answer :: answers, by rw [whole], List.Subset.refl _, ?_⟩
        rw [List.length_cons]
        omega

theorem readFully_ready {file : Nat} {bytes : Bytes}
    (ready : Ready (bytes.length + calls) system)
    (node : system.disk.nodes[file]? = some (.regular bytes)) :
    Ensures (readFully file bytes.length) system
      (fun reply after => reply = .ok bytes ∧ Worked calls system after) fun _ _ => False := by
  have contents : system.disk.bytes file = bytes := by rw [Disk.bytes, node]
  obtain ⟨rest, read, fewer, enough⟩ :=
    readLoop_ready ready.willing (List.nil_prefix (l := bytes))
      (by rw [List.length_nil, Nat.zero_add]; exact ready.enough)
  unfold Ensures readFully
  rw [contents, read]
  exact ⟨rfl, rfl, ⟨fun answer among => ready.willing answer (fewer among), enough⟩, fewer⟩

theorem writeLoop_ready (file : Nat) {answers : List Answer} (bytes : Bytes) (disk : Disk)
    (willing : ∀ answer ∈ answers, answer.error = none ∧ 0 < answer.count)
    (enough : bytes.length + calls ≤ answers.length) :
    ∃ rest, writeLoop file answers bytes disk = .ok (.ok ()) (rest, disk.append file bytes) ∧
      rest ⊆ answers ∧ calls ≤ rest.length := by
  induction answers generalizing bytes disk with
  | nil =>
      rw [List.length_nil] at enough
      have empty : bytes = [] := List.length_eq_zero_iff.mp (by omega)
      refine ⟨[], ?_, List.Subset.refl _, by rw [List.length_nil]; omega⟩
      rw [writeLoop, if_pos empty, empty, Disk.append_nil]
  | cons answer answers ih =>
      rw [writeLoop]
      split_ifs with empty
      · refine ⟨answer :: answers, by rw [empty, Disk.append_nil], List.Subset.refl _, by omega⟩
      · obtain ⟨fine, some_bytes⟩ := willing answer List.mem_cons_self
        have long := List.length_pos_iff.mpr empty
        have piece : bytes.take answer.count ≠ [] := by
          rw [ne_eq, List.take_eq_nil_iff, not_or]
          exact ⟨by omega, empty⟩
        simp only [fine, if_neg piece]
        rw [List.length_cons] at enough
        obtain ⟨rest, whole, fewer, left⟩ := ih (bytes.drop answer.count)
          (disk.append file (bytes.take answer.count))
          (fun later inside => willing later (List.mem_cons_of_mem _ inside))
          (by rw [List.length_drop]; omega)
        refine ⟨rest, ?_, List.subset_cons_of_subset _ fewer, left⟩
        rw [whole, Disk.append_append, List.take_append_drop]

theorem writeFully_ready {file : Nat} {bytes : Bytes}
    (ready : Ready (bytes.length + calls) system) :
    Ensures (writeFully file bytes) system
      (fun reply after => reply = .ok () ∧ after.disk = system.disk.append file bytes ∧
        Ready calls after) fun _ _ => False := by
  obtain ⟨rest, wrote, fewer, enough⟩ :=
    writeLoop_ready file bytes system.disk ready.willing ready.enough
  unfold Ensures writeFully
  rw [wrote]
  exact ⟨rfl, rfl, fun answer among => ready.willing answer (fewer among), enough⟩

end

end Posix
