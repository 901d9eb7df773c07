import H5GG.Proof.FileNames
import H5GG.ScriptStore

/-!
# The store of scripts is a map

The scripts in the directory are those that the calls so far have left there, and a call works on
nothing else.
-/

namespace H5GG.ScriptStore
open Posix

/-! ### Names -/

def Normal (name : CString) : Prop := ∃ given, h5ggNormalizeScriptFileName given = some name

/-- A name that `mkstemp` makes up for a script that is not there yet. -/
def Temporary (root path : Path) : Prop :=
  ∃ suffix, suffix.length = 6 ∧ suffix.all isAlphanumeric ∧
    path = within root (".h5gg-script.".toUTF8.toList ++ suffix)

def Under (root path : Path) : Prop := within root [] <+: path

theorem under_within (root name : Path) : Under root (within root name) := by
  refine ⟨name, ?_⟩
  simp [within]

theorem within_inj {root name other : Path} : within root name = within root other ↔ name = other := by
  simp [within]

theorem Normal.named {name : CString} (normal : Normal name) : ∃ given, ScriptName given name := by
  obtain ⟨given, normalized⟩ := normal
  cases given with
  | none => cases normalized
  | some given => exact ⟨given, .of_normalize normalized⟩

/-- A name of one component that is not the directory or its parent. -/
structure Component (name : CString) : Prop where
  no_slash : 0x2F ∉ name
  nonempty : name ≠ []
  not_here : name ≠ [0x2E]
  not_parent : name ≠ [0x2E, 0x2E]

theorem Normal.component {name : CString} (normal : Normal name) : Component name := by
  obtain ⟨given, named⟩ := normal.named
  have safe := named.safe
  exact ⟨fun inside => (safe.plain _ inside).2.2.1 rfl, safe.nonempty, safe.not_here,
    safe.not_parent⟩

theorem Normal.not_temporary {root name : Path} (normal : Normal name) :
    ¬Temporary root (within root name) := by
  rintro ⟨suffix, long, plain, same⟩
  obtain ⟨given, named⟩ := normal.named
  obtain ⟨front, rest, rfl, short⟩ := named.extension.dot
  cases List.append_eq_append_iff.mp (within_inj.mp same) with
  | inl behind =>
      obtain ⟨more, -, split⟩ := behind
      have lengths := congrArg List.length split
      simp only [List.length_cons, List.length_append] at lengths
      omega
  | inr inside =>
      obtain ⟨more, -, split⟩ := inside
      have dotted : 0x2E ∈ suffix := by rw [split]; simp
      exact absurd (List.all_eq_true.mp plain _ dotted) (by decide)

/-! ### What holds between the calls -/

/-- The calls that stay in the directory. -/
inductive Confined (root : Path) : PathCall → Prop
  | opened {name : CString} (normal : Normal name) : Confined root (.opened (within root name))
  | created {path : Path} (temporary : Temporary root path) : Confined root (.created path)
  | renamed {path : Path} {name : CString} (temporary : Temporary root path)
      (normal : Normal name) : Confined root (.renamed path (within root name))
  | removed {name : CString} (normal : Normal name) (gone : Bool) :
      Confined root (.unlinked (within root name) gone)
  | discarded {path : Path} (temporary : Temporary root path) (gone : Bool) :
      Confined root (.unlinked path gone)
  | listed : Confined root (.listed root)
  | inspected {name : CString} (normal : Normal name) :
      Confined root (.inspected (within root name))

def AllConfined (root : Path) (log : List PathCall) : Prop := ∀ call ∈ log, Confined root call

def Acceptable (content : Bytes) : Prop :=
  content.length ≤ maximumScriptBytes ∧ h5ggIsValidUTF8 .allow content = true

/-- The names in the directory are those of the scripts, and of files that could not be removed. -/
structure Holds (root : Path) (before : Disk) (scripts : CString → Option Bytes) (system : System) :
    Prop where
  contents : ∀ name, Normal name →
    system.disk.content (within root name) = (scripts name).map .regular
  accepted : ∀ name content, scripts name = some content → Normal name ∧ Acceptable content
  others : ∀ path, Under root path → system.disk.find path ≠ none →
    (∃ name, Normal name ∧ path = within root name) ∨
      Temporary root path ∧ .unlinked path false ∈ system.log
  elsewhere : ∀ path, ¬Under root path → SameAt before system.disk path
  confined : AllConfined root system.log

/-- A call that is never answered has left the scripts alone. -/
structure Halted (root : Path) (before : Disk) (scripts : CString → Option Bytes) (stop : Stop)
    (after : System) : Prop where
  waiting : stop = .waiting
  answers : after.answers = []
  contents : ∀ name, Normal name →
    after.disk.content (within root name) = (scripts name).map .regular
  elsewhere : ∀ path, ¬Under root path → SameAt before after.disk path
  confined : AllConfined root after.log

section
variable {root : Path} {before : Disk} {scripts : CString → Option Bytes} {system : System}

theorem AllConfined.append {log entries : List PathCall} (old : AllConfined root log)
    (new : AllConfined root entries) : AllConfined root (log ++ entries) := fun call inside =>
  (List.mem_append.mp inside).elim (old call) (new call)

theorem AllConfined.one {call : PathCall} (confined : Confined root call) :
    AllConfined root [call] := fun _ inside => List.mem_singleton.mp inside ▸ confined

theorem AllConfined.nil : AllConfined root [] := fun _ inside => absurd inside List.not_mem_nil

theorem Temporary.under {path : Path} (temporary : Temporary root path) : Under root path := by
  obtain ⟨suffix, -, -, rfl⟩ := temporary
  exact under_within root _

theorem Holds.of_empty {disk : Disk} (answers : List Posix.Answer)
    (empty : ∀ path, Under root path → disk.find path = none) :
    Holds root disk (fun _ => none) { disk, answers } where
  contents name _ := by
    rw [Disk.content, empty _ (under_within root name)]
    rfl
  accepted name content stored := absurd stored.symm (Option.some_ne_none _)
  others path under known := absurd (empty path under) known
  elsewhere path _ := .rfl
  confined := AllConfined.nil

namespace Holds
variable (holds : Holds root before scripts system)
include holds

theorem rests {entries : List PathCall} {after : System} (rests : Rests entries system after)
    (confined : AllConfined root entries) : Holds root before scripts after where
  contents name normal := rests.disk ▸ holds.contents name normal
  accepted := holds.accepted
  others path under known := by
    rw [rests.disk] at known
    rw [rests.log]
    refine (holds.others path under known).imp_right fun left => ?_
    exact ⟨left.1, List.mem_append_left _ left.2⟩
  elsewhere path apart := rests.disk ▸ holds.elsewhere path apart
  confined := rests.log ▸ holds.confined.append confined

theorem waits {entries : List PathCall} {stop : Stop} {after : System}
    (waits : Waits entries system stop after) (confined : AllConfined root entries) :
    Halted root before scripts stop after :=
  have held := holds.rests waits.rests confined
  ⟨waits.waiting, waits.answers, held.contents, held.elsewhere, held.confined⟩

theorem replaced {name : CString} {value : Option Bytes} {entries : List PathCall} {after : System}
    (normal : Normal name) (acceptable : ∀ content, value = some content → Acceptable content)
    (others : ∀ path, path ≠ within root name → SameAt system.disk after.disk path)
    (here : after.disk.content (within root name) = value.map .regular)
    (log : after.log = system.log ++ entries) (confined : AllConfined root entries) :
    Holds root before (Function.update scripts name value) after where
  contents other otherNormal := by
    by_cases same : other = name
    · subst same
      rw [Function.update_self, here]
    · rw [Function.update_of_ne same, ← holds.contents other otherNormal]
      exact (others _ (mt within_inj.mp same)).2
  accepted other stored kept := by
    by_cases same : other = name
    · subst same
      rw [Function.update_self] at kept
      exact ⟨normal, acceptable stored kept⟩
    · rw [Function.update_of_ne same] at kept
      exact holds.accepted other stored kept
  others path under known := by
    by_cases target : path = within root name
    · exact .inl ⟨name, normal, target⟩
    · rw [(others path target).1] at known
      rw [log]
      refine (holds.others path under known).imp_right fun left => ?_
      exact ⟨left.1, List.mem_append_left _ left.2⟩
  elsewhere path outside :=
    (holds.elsewhere path outside).trans
      (others path fun same => outside (same ▸ under_within root name))
  confined := by
    rw [log]
    exact holds.confined.append confined

end Holds

/-! ### Saving -/

/-- A save is at work on its temporary file. -/
structure Saving (root : Path) (start : System) (temporary : Path) (system : System) : Prop where
  staged : Staged start.disk temporary system.disk
  named : Temporary root temporary
  log : ∃ entries, system.log = start.log ++ entries ∧ AllConfined root entries

namespace Saving
variable {start : System} {temporary : Path} (holds : Holds root before scripts start)
  (saving : Saving root start temporary system)
include saving

theorem onward {entries : List PathCall} {after : System}
    (staged : Staged start.disk temporary after.disk) (log : after.log = system.log ++ entries)
    (confined : AllConfined root entries) : Saving root start temporary after where
  staged := staged
  named := saving.named
  log := by
    obtain ⟨earlier, grown, safe⟩ := saving.log
    exact ⟨earlier ++ entries, by rw [log, grown, List.append_assoc], safe.append confined⟩

theorem rests {entries : List PathCall} {after : System} (rests : Rests entries system after)
    (confined : AllConfined root entries) : Saving root start temporary after :=
  saving.onward (rests.disk ▸ saving.staged) rests.log confined

theorem apart {name : CString} (normal : Normal name) : within root name ≠ temporary :=
  fun same => normal.not_temporary (same ▸ saving.named)

include holds

theorem confined : AllConfined root system.log := by
  obtain ⟨entries, log, safe⟩ := saving.log
  rw [log]
  exact holds.confined.append safe

theorem contents (name : CString) (normal : Normal name) :
    system.disk.content (within root name) = (scripts name).map .regular :=
  (saving.staged.elsewhere (saving.apart normal)).2.trans (holds.contents name normal)

theorem elsewhere (path : Path) (outside : ¬Under root path) : SameAt before system.disk path :=
  (holds.elsewhere path outside).trans
    (saving.staged.elsewhere fun same => outside (same ▸ saving.named.under))

theorem others {path : Path} (other : path ≠ temporary) (under : Under root path)
    (known : system.disk.find path ≠ none) : (∃ name, Normal name ∧ path = within root name) ∨
      Temporary root path ∧ .unlinked path false ∈ system.log := by
  obtain ⟨entries, log, -⟩ := saving.log
  rw [saving.staged.links path other] at known
  rw [log]
  refine (holds.others path under known).imp_right fun left => ?_
  exact ⟨left.1, List.mem_append_left _ left.2⟩

theorem waits {entries : List PathCall} {stop : Stop} {after : System}
    (waits : Waits entries system stop after) (confined : AllConfined root entries) :
    Halted root before scripts stop after :=
  have saving := saving.rests waits.rests confined
  ⟨waits.waiting, waits.answers, saving.contents holds, saving.elsewhere holds,
    saving.confined holds⟩

/-- After `unlink`, whether or not it has worked. -/
theorem discarded
    (left : system.disk.find temporary ≠ none → .unlinked temporary false ∈ system.log) :
    Holds root before scripts system where
  contents := saving.contents holds
  accepted := holds.accepted
  others path under known := by
    by_cases here : path = temporary
    · subst here
      exact .inr ⟨saving.named, left known⟩
    · exact saving.others holds here under known
  elsewhere := saving.elsewhere holds
  confined := saving.confined holds

theorem published {name : CString} {content : Bytes} {file : Nat} {after : System}
    (normal : Normal name) (acceptable : Acceptable content)
    (found : system.disk.find temporary = some file)
    (written : system.disk.content temporary = some (.regular content))
    (disk : after.disk = system.disk.rename temporary (within root name))
    (log : after.log = system.log ++ [.renamed temporary (within root name)]) :
    Holds root before (Function.update scripts name (some content)) after := by
  obtain ⟨others, here⟩ := saving.staged.rename (saving.apart normal) found
  rw [← disk] at others here
  obtain ⟨entries, grown, safe⟩ := saving.log
  rw [grown, List.append_assoc] at log
  refine holds.replaced normal (fun other same => ?_) others (here.trans written) log
    (safe.append (.one (.renamed saving.named normal)))
  cases same
  exact acceptable

end Saving

/-! ### The calls -/

/-- What a call returns, and what it leaves: `kept`, or `made` if it has succeeded. -/
structure Returned (root : Path) (before : Disk) (kept made : CString → Option Bytes)
    (result : ScriptStore × Bool) (after : System) : Prop where
  rootDirectory : result.1.rootDirectory = root
  lastError : result.1.lastError = "" ↔ result.2 = true
  holds : Holds root before (if result.2 then made else kept) after

theorem systemError_nonempty (strerror : Nat → String) (operation : String) (error : Nat) :
    systemError strerror operation error ≠ "" := by
  intro empty
  have lengths := congrArg String.length empty
  simp only [systemError, String.length_append] at lengths
  have colon : ": ".length = 2 := rfl
  have none_ : "".length = 0 := rfl
  omega

theorem resolve_eq {store : ScriptStore} (present : store.rootDirectory ≠ []) (name : Option CString) :
    store.resolve name =
      match h5ggNormalizeScriptFileName name with
      | none => .error "Use a single safe .js or .html file name"
      | some normalized => .ok (within store.rootDirectory normalized) := if_neg present

variable {store : ScriptStore} {kept made : CString → Option Bytes}

theorem Returned.fail (rootDirectory : store.rootDirectory = root) {error : String}
    (text : error ≠ "") (holds : Holds root before kept system) :
    Returned root before kept made (store.fail error) system where
  rootDirectory := rootDirectory
  lastError := iff_of_false text Bool.false_ne_true
  holds := holds

theorem Returned.succeed (rootDirectory : store.rootDirectory = root)
    (cleared : store.lastError = "") (holds : Holds root before made system) :
    Returned root before kept made (store, true) system where
  rootDirectory := rootDirectory
  lastError := iff_of_true cleared rfl
  holds := holds

namespace Saving
variable {start : System} {temporary : Path} (holds : Holds root before scripts start)
  (saving : Saving root start temporary system)
include saving holds

theorem discard (strerror : Nat → String) (rootDirectory : store.rootDirectory = root)
    (errno : Nat) :
    Ensures (store.discard strerror temporary errno) system (Returned root before scripts made)
      (Halted root before scripts) := by
  refine Ensures.bind ((unlink_ensures temporary).mono ?_ ?_)
  · intro reply after ⟨log, disk⟩
    have staged : Staged start.disk temporary after.disk := by
      cases reply with
      | error errno => exact disk ▸ saving.staged
      | ok done => exact disk ▸ saving.staged.unlink
    have worked := saving.onward staged log (.one (.discarded saving.named _))
    refine .fail rootDirectory (systemError_nonempty _ _ _) (worked.discarded holds fun still => ?_)
    rw [log, Option.isNone_eq_false_iff.mpr (Option.isSome_iff_ne_none.mpr still)]
    exact List.mem_append_right _ (List.mem_singleton.mpr rfl)
  · exact fun stop after waits => saving.waits holds waits .nil

theorem writeAll {file : Nat} (content : Bytes) (found : system.disk.find temporary = some file)
    (empty : system.disk.content temporary = some (.regular [])) :
    Ensures (ScriptStore.writeAll file content) system
      (fun saved after => Saving root start temporary after ∧
        (saved = none → after.disk.content temporary = some (.regular content)))
      (Halted root before scripts) := by
  have worked : ∀ after : System, after.log = system.log → Staged start.disk temporary after.disk →
      Saving root start temporary after := fun after log staged =>
    ⟨staged, saving.named, by rw [log]; exact saving.log⟩
  refine Ensures.bind ((saving.staged.writes found empty content).mono ?_ ?_)
  · intro reply after ⟨log, staged, written⟩
    have saving := worked after log staged
    cases reply with
    | error errno => exact ⟨saving, fun ok => absurd ok (Option.some_ne_none _)⟩
    | ok done =>
        refine Ensures.bind (fsync_ensures.mono ?_ ?_)
        · intro reply synced rests
          cases reply with
          | error errno =>
              exact ⟨saving.rests rests .nil, fun ok => absurd ok (Option.some_ne_none _)⟩
          | ok done => exact ⟨saving.rests rests .nil, fun _ => rests.disk ▸ written rfl⟩
        · exact fun stop stopped waits => saving.waits holds waits .nil
  · intro stop after ⟨waiting, none_left, log, staged⟩
    have saving := worked after log staged
    exact ⟨waiting, none_left, saving.contents holds, saving.elsewhere holds, saving.confined holds⟩

theorem writeScript {file : Nat} (content : Bytes)
    (found : system.disk.find temporary = some file)
    (empty : system.disk.content temporary = some (.regular [])) :
    Ensures (ScriptStore.writeScript file content) system
      (fun saved after => Saving root start temporary after ∧
        (saved = none → after.disk.content temporary = some (.regular content)))
      (Halted root before scripts) := by
  refine Ensures.bind ((saving.writeAll holds content found empty).mono ?_ fun _ _ halted => halted)
  intro saved after ⟨saving, written⟩
  refine Ensures.bind (close_ensures.mono ?_ ?_)
  · intro reply closed rests
    have still : saved = none → closed.disk.content temporary = some (.regular content) :=
      fun fine => rests.disk ▸ written fine
    cases reply with
    | ok done => exact ⟨saving.rests rests .nil, still⟩
    | error errno =>
        cases saved with
        | none => exact ⟨saving.rests rests .nil, fun ok => absurd ok (Option.some_ne_none _)⟩
        | some error => exact ⟨saving.rests rests .nil, still⟩
  · exact fun stop stopped waits => saving.waits holds waits .nil

end Saving

namespace Holds
variable (holds : Holds root before scripts system)
include holds

theorem saveAt (strerror : Nat → String) (rootDirectory : store.rootDirectory = root)
    (cleared : store.lastError = "") {name : CString} (normal : Normal name) {content : Bytes}
    (acceptable : Acceptable content) :
    Ensures (store.saveAt strerror (within root name) content) system
      (Returned root before scripts (Function.update scripts name (some content)))
      (Halted root before scripts) := by
  refine Ensures.bind ((mkstemp_ensures _).mono ?_ ?_)
  · intro reply made outcome
    cases reply with
    | error errno =>
        exact .fail rootDirectory (systemError_nonempty _ _ _) (holds.rests outcome .nil)
    | ok created =>
        obtain ⟨descriptor, temporary⟩ := created
        obtain ⟨last, absent, ⟨suffix, long, plain, path⟩, disk, log⟩ := outcome
        have named : Temporary root temporary := by
          refine ⟨suffix, long, plain, ?_⟩
          rw [path, rootDirectory]
          simp [within]
        have saving : Saving root system temporary made :=
          ⟨disk ▸ .create absent, named, _, log, .one (.created named)⟩
        have found : made.disk.find temporary = some descriptor := disk ▸ Disk.find_created last
        have empty : made.disk.content temporary = some (.regular []) := disk ▸ Disk.content_create
        refine Ensures.bind ((saving.writeScript holds content found empty).mono ?_
          fun _ _ halted => halted)
        intro saved written ⟨saving, whole⟩
        cases saved with
        | some errno => exact saving.discard holds strerror rootDirectory errno
        | none =>
            refine Ensures.bind ((rename_ensures temporary (within root name)).mono ?_ ?_)
            · intro reply moved ⟨log, outcome⟩
              cases reply with
              | error errno =>
                  have rests : Rests [.renamed temporary (within root name)] written moved :=
                    ⟨outcome, log⟩
                  exact (saving.rests rests (.one (.renamed named normal))).discard holds strerror
                    rootDirectory errno
              | ok done =>
                  obtain ⟨⟨file, found⟩, disk⟩ := outcome
                  exact .succeed rootDirectory cleared
                    (saving.published holds normal acceptable found (whole rfl) disk log)
            · exact fun stop after waits => saving.waits holds waits (.one (.renamed named normal))
  · exact fun stop after waits => holds.waits waits .nil

theorem saveContent (strerror : Nat → String) (rootDirectory : store.rootDirectory = root)
    (present : root ≠ []) (name : Option CString) (content : Option Bytes) :
    Ensures (store.saveContent strerror name content) system
      (Returned root before scripts (written scripts (Operation.save name content).writes))
      (Halted root before scripts) := by
  cases name with
  | none => exact .fail rootDirectory (by decide) holds
  | some name =>
      cases content with
      | none => exact .fail rootDirectory (by decide) holds
      | some content =>
          simp only [ScriptStore.saveContent, Operation.writes]
          rw [resolve_eq (rootDirectory ▸ present)]
          cases normalized : h5ggNormalizeScriptFileName (some name) with
          | none => exact .fail rootDirectory (by decide) holds
          | some normal =>
              dsimp only
              split_ifs with long invalid
              · exact .fail rootDirectory (by decide) holds
              · exact .fail rootDirectory (by decide) holds
              · have acceptable : Acceptable content :=
                  ⟨Nat.le_of_not_lt long, by simpa using invalid⟩
                have root_eq : store.clearError.rootDirectory = root := rootDirectory
                have saved := holds.saveAt strerror root_eq rfl ⟨some name, normalized⟩ acceptable
                exact rootDirectory ▸ saved

theorem remove (strerror : Nat → String) (rootDirectory : store.rootDirectory = root)
    (present : root ≠ []) (name : Option CString) :
    Ensures (store.remove strerror name) system
      (Returned root before scripts (written scripts (Operation.remove name).writes))
      (Halted root before scripts) := by
  simp only [ScriptStore.remove, Operation.writes]
  rw [resolve_eq (rootDirectory ▸ present)]
  cases normalized : h5ggNormalizeScriptFileName name with
  | none => exact .fail rootDirectory (by decide) holds
  | some normal =>
      have isNormal : Normal normal := ⟨name, normalized⟩
      have root_eq : store.clearError.rootDirectory = root := rootDirectory
      dsimp only
      rw [root_eq]
      refine Ensures.bind ((unlink_ensures (within root normal)).mono ?_ ?_)
      · intro reply after ⟨log, disk⟩
        have confined : AllConfined root
            [.unlinked (within root normal) (after.disk.find (within root normal)).isNone] :=
          .one (.removed isNormal _)
        cases reply with
        | error errno =>
            exact .fail rootDirectory (systemError_nonempty _ _ _) (holds.rests ⟨disk, log⟩ confined)
        | ok done =>
            refine .succeed rootDirectory rfl (holds.replaced isNormal (fun _ none_ => nomatch none_)
              (fun path apart => disk ▸ SameAt.unlink apart) ?_ log confined)
            rw [disk, Disk.content_unlink]
            rfl
      · exact fun stop after waits => holds.waits waits .nil

/-- What a load returns: it leaves the scripts alone, and hands out the one that it is asked for. -/
def Loaded (root : Path) (before : Disk) (scripts : CString → Option Bytes) (normal : CString)
    (result : (ScriptStore × Bool) × Bytes) (after : System) : Prop :=
  Returned root before scripts scripts result.1 after ∧
    (result.1.2 = true → scripts normal = some result.2)

theorem failLoad (rootDirectory : store.rootDirectory = root) {error : String} (text : error ≠ "")
    (normal : CString) : Loaded root before scripts normal (store.failLoad error) system :=
  ⟨.fail rootDirectory text holds, fun success => absurd success Bool.false_ne_true⟩

theorem closeAndFail (rootDirectory : store.rootDirectory = root) {error : String}
    (text : error ≠ "") (normal : CString) :
    Ensures (do let _ ← close; pure (store.failLoad error) :
        Program ((ScriptStore × Bool) × Bytes)) system
      (Loaded root before scripts normal) (Halted root before scripts) := by
  refine Ensures.bind (close_ensures.mono ?_ ?_)
  · exact fun _ after rests => (holds.rests rests .nil).failLoad rootDirectory text normal
  · exact fun stop after waits => holds.waits waits .nil

theorem loadBytes (strerror : Nat → String) (rootDirectory : store.rootDirectory = root)
    (cleared : store.lastError = "") {normal : CString} {descriptor size : Nat}
    (script : scripts normal = some (system.disk.bytes descriptor))
    (whole : size = (system.disk.bytes descriptor).length) :
    Ensures (store.loadBytes strerror descriptor size) system (Loaded root before scripts normal)
      (Halted root before scripts) := by
  refine Ensures.bind ((readFully_ensures descriptor size).mono ?_ ?_)
  · intro reply read ⟨rests, all⟩
    rw [whole, List.take_length] at all
    have holds := holds.rests rests .nil
    cases reply with
    | error errno =>
        exact holds.closeAndFail rootDirectory (systemError_nonempty _ _ _) normal
    | ok content =>
        refine Ensures.bind (close_ensures.mono ?_ ?_)
        · intro reply closed rests
          have holds := holds.rests rests .nil
          cases reply with
          | error errno =>
              exact holds.failLoad rootDirectory (systemError_nonempty _ _ _) normal
          | ok done =>
              dsimp only
              split_ifs
              · exact holds.failLoad rootDirectory (by decide) normal
              · refine ⟨.succeed rootDirectory cleared holds, fun _ => ?_⟩
                rw [all content rfl]
                exact script
        · exact fun stop after waits => holds.waits waits .nil
  · exact fun stop after waits => holds.waits waits .nil

theorem afterStat (strerror : Nat → String) (rootDirectory : store.rootDirectory = root)
    (cleared : store.lastError = "") {normal : CString} (isNormal : Normal normal)
    {descriptor : Nat} (found : system.disk.find (within root normal) = some descriptor)
    {reply : Except Nat Stat}
    (regular : ∀ info, reply = .ok info → info.isRegular = true →
      system.disk.nodes[descriptor]? = some (.regular (system.disk.bytes descriptor)) ∧
        info.size = (system.disk.bytes descriptor).length) :
    Ensures (store.afterStat strerror descriptor reply) system (Loaded root before scripts normal)
      (Halted root before scripts) := by
  cases reply with
  | error errno => exact holds.closeAndFail rootDirectory (systemError_nonempty _ _ _) normal
  | ok info =>
      simp only [ScriptStore.afterStat]
      split_ifs with special tooLarge
      · exact holds.closeAndFail rootDirectory (by decide) normal
      · exact holds.closeAndFail rootDirectory (by decide) normal
      · obtain ⟨node, size⟩ := regular info rfl (by simpa using special)
        refine holds.loadBytes strerror rootDirectory cleared ?_ size
        have content := holds.contents normal isNormal
        rw [Disk.content, found, Option.bind_some, node] at content
        obtain ⟨script, stored, same⟩ := Option.map_eq_some_iff.mp content.symm
        cases same
        exact stored

theorem loadAt (strerror : Nat → String) (rootDirectory : store.rootDirectory = root)
    (cleared : store.lastError = "") {normal : CString} (isNormal : Normal normal) :
    Ensures (store.loadAt strerror (within root normal)) system (Loaded root before scripts normal)
      (Halted root before scripts) := by
  have confined : AllConfined root [.opened (within root normal)] := .one (.opened isNormal)
  refine Ensures.bind ((openFile_ensures (within root normal)).mono ?_ ?_)
  · intro reply opened ⟨rests, names⟩
    have held := holds.rests rests confined
    cases reply with
    | error errno => exact held.failLoad rootDirectory (systemError_nonempty _ _ _) normal
    | ok descriptor =>
        have found := names descriptor rfl
        rw [← rests.disk] at found
        refine Ensures.bind ((fstat_ensures descriptor).mono ?_ ?_)
        · intro reply inspected ⟨rests, regular⟩
          rw [← rests.disk] at regular found
          exact (held.rests rests .nil).afterStat strerror rootDirectory cleared isNormal found regular
        · exact fun stop after waits => held.waits waits .nil
  · exact fun stop after waits => holds.waits waits confined

theorem load (strerror : Nat → String) (rootDirectory : store.rootDirectory = root)
    (present : root ≠ []) (name : Option CString) :
    Ensures (store.load strerror name) system
      (fun result after => Returned root before scripts scripts result.1 after ∧
        (result.1.2 = true → ∃ normal, h5ggNormalizeScriptFileName name = some normal ∧
          scripts normal = some result.2))
      (Halted root before scripts) := by
  simp only [ScriptStore.load]
  rw [resolve_eq (rootDirectory ▸ present)]
  cases normalized : h5ggNormalizeScriptFileName name with
  | none =>
      exact ⟨.fail rootDirectory (by decide) holds, fun success => absurd success Bool.false_ne_true⟩
  | some normal =>
      have root_eq : store.clearError.rootDirectory = root := rootDirectory
      dsimp only
      rw [root_eq]
      refine (holds.loadAt strerror root_eq rfl ⟨name, normalized⟩).mono ?_ fun _ _ halted => halted
      exact fun result after loaded => ⟨loaded.1, fun success => ⟨normal, rfl, loaded.2 success⟩⟩

theorem listLoop (stream : List Path) (errno : Nat) (listed : List Path) :
    Ensures (ScriptStore.listLoop root stream errno listed) system
      (fun _ after => Holds root before scripts after) (Halted root before scripts) := by
  induction stream generalizing system errno listed with
  | nil =>
      refine Ensures.bind (readdir_ensures.mono ?_ ?_)
      · intro reply after rests
        cases reply with
        | error errno => exact holds.rests rests .nil
        | ok done => exact holds.rests rests .nil
      · exact fun stop after waits => holds.waits waits .nil
  | cons name stream ih =>
      refine Ensures.bind (readdir_ensures.mono ?_ ?_)
      · intro reply after rests
        have holds := holds.rests rests .nil
        cases reply with
        | error errno => exact holds
        | ok done =>
            dsimp only
            split_ifs with other
            · exact ih holds errno listed
            · have normal : Normal name := ⟨some name, not_not.mp other⟩
              refine Ensures.bind ((lstat_ensures _).mono ?_ ?_)
              · intro reply inspected rests
                have holds := holds.rests rests (.one (.inspected normal))
                cases reply with
                | error errno => exact ih holds errno listed
                | ok info =>
                    dsimp only
                    split_ifs
                    · exact ih holds errno (listed ++ [name])
                    · exact ih holds errno listed
              · exact fun stop after waits => holds.waits waits (.one (.inspected normal))
      · exact fun stop after waits => holds.waits waits .nil

theorem list (strerror : Nat → String) (rootDirectory : store.rootDirectory = root) :
    Ensures (store.list strerror) system
      (fun result after => Returned root before scripts scripts result.1 after)
      (Halted root before scripts) := by
  refine Ensures.bind ((opendir_ensures _).mono ?_ ?_)
  · rw [rootDirectory]
    intro reply opened rests
    have holds := holds.rests rests (.one .listed)
    cases reply with
    | error errno => exact .fail rootDirectory (systemError_nonempty _ _ _) holds
    | ok stream =>
        refine Ensures.bind ((holds.listLoop stream 0 []).mono ?_ fun _ _ halted => halted)
        intro looped after holds
        refine Ensures.bind (closedir_ensures.mono ?_ ?_)
        · intro _ closed rests
          have holds := holds.rests rests .nil
          split_ifs
          · exact .fail rootDirectory (systemError_nonempty _ _ _) holds
          · exact .succeed rootDirectory rfl holds
        · exact fun stop after waits => holds.waits waits .nil
  · rw [rootDirectory]
    exact fun stop after waits => holds.waits waits (.one .listed)

end Holds

/-! ### Calls one after the other -/

/-- What a load of `scripts` hands out. -/
def Event.Honest (event : Event) (scripts : CString → Option Bytes) : Prop :=
  ∀ name, event.operation = .load name → event.succeeded = true →
    ∃ normal, h5ggNormalizeScriptFileName name = some normal ∧ scripts normal = some event.content

structure Performed (root : Path) (before : Disk) (scripts : CString → Option Bytes)
    (operation : Operation) (result : ScriptStore × Event) (after : System) : Prop where
  operation : result.2.operation = operation
  rootDirectory : result.1.rootDirectory = root
  lastError : result.1.lastError = "" ↔ result.2.succeeded = true
  honest : result.2.Honest scripts
  holds : Holds root before (written scripts result.2.writes) after

theorem Returned.performed (operation : Operation) {result : ScriptStore × Bool} {after : System}
    (returned : Returned root before scripts (written scripts operation.writes) result after)
    (event : Event) (same : event.operation = operation) (succeeded : event.succeeded = result.2)
    (honest : event.Honest scripts) :
    Performed root before scripts operation (result.1, event) after where
  operation := same
  rootDirectory := returned.rootDirectory
  lastError := by rw [succeeded]; exact returned.lastError
  honest := honest
  holds := by
    have holds := returned.holds
    rw [Event.writes, same, succeeded]
    cases success : result.2 with
    | true =>
        rw [success] at holds
        exact holds
    | false =>
        rw [success] at holds
        exact holds

theorem Holds.perform (holds : Holds root before scripts system) (strerror : Nat → String)
    (rootDirectory : store.rootDirectory = root) (present : root ≠ []) (operation : Operation) :
    Ensures (store.perform strerror operation) system (Performed root before scripts operation)
      (Halted root before scripts) := by
  cases operation with
  | save name content =>
      refine Ensures.bind ((holds.saveContent strerror rootDirectory present name content).mono ?_
        fun _ _ halted => halted)
      exact fun result after returned =>
        returned.performed _ _ rfl rfl fun _ load => nomatch load
  | load name =>
      refine Ensures.bind ((holds.load strerror rootDirectory present name).mono ?_
        fun _ _ halted => halted)
      intro result after ⟨returned, script⟩
      refine returned.performed (.load name) _ rfl rfl fun other load success => ?_
      cases load
      exact script success
  | remove name =>
      refine Ensures.bind ((holds.remove strerror rootDirectory present name).mono ?_
        fun _ _ halted => halted)
      exact fun result after returned =>
        returned.performed _ _ rfl rfl fun _ load => nomatch load
  | list =>
      refine Ensures.bind ((holds.list strerror rootDirectory).mono ?_ fun _ _ halted => halted)
      exact fun result after returned =>
        returned.performed .list _ rfl rfl fun _ load => nomatch load

/-- The last of the events has succeeded; with none, what was known before them. -/
def lastSucceeded (known : Prop) (events : List Event) : Prop :=
  events.foldl (fun _ event => event.succeeded = true) known

structure Ran (root : Path) (before : Disk) (scripts : CString → Option Bytes) (known : Prop)
    (operations : List Operation) (result : ScriptStore × List Event) (after : System) : Prop where
  operations : result.2.map Event.operation = operations
  rootDirectory : result.1.rootDirectory = root
  lastError : result.1.lastError = "" ↔ lastSucceeded known result.2
  honest : ∀ earlier event later, result.2 = earlier ++ event :: later →
    event.Honest (storedFrom scripts earlier)
  holds : Holds root before (storedFrom scripts result.2) after

/-- A run that waits for an answer has left the scripts as the calls before made them. -/
def Interrupted (root : Path) (before : Disk) (scripts : CString → Option Bytes)
    (operations : List Operation) (stop : Stop) (after : System) : Prop :=
  ∃ events : List Event, events.map Event.operation <+: operations ∧
    Halted root before (storedFrom scripts events) stop after

theorem Ran.cons {known : Prop} {operation : Operation} {operations : List Operation}
    {first : ScriptStore × Event} {rest : ScriptStore × List Event} {middle after : System}
    (now : Performed root before scripts operation first middle)
    (later : Ran root before (written scripts first.2.writes) (first.2.succeeded = true) operations
      rest after) :
    Ran root before scripts known (operation :: operations) (rest.1, first.2 :: rest.2) after where
  operations := by rw [List.map_cons, now.operation, later.operations]
  rootDirectory := later.rootDirectory
  lastError := later.lastError
  honest earlier event others split := by
    cases earlier with
    | nil =>
        obtain ⟨same, -⟩ := List.cons.inj split
        exact same ▸ now.honest
    | cons head earlier =>
        obtain ⟨same, split⟩ := List.cons.inj split
        exact same ▸ later.honest earlier event others split
  holds := later.holds

theorem Holds.run (holds : Holds root before scripts system) (strerror : Nat → String)
    {known : Prop} (rootDirectory : store.rootDirectory = root) (present : root ≠ [])
    (lastError : store.lastError = "" ↔ known) (operations : List Operation) :
    Ensures (ScriptStore.run strerror operations store) system
      (Ran root before scripts known operations) (Interrupted root before scripts operations) := by
  induction operations generalizing store scripts known system with
  | nil =>
      refine ⟨rfl, rootDirectory, lastError, fun earlier event later split => ?_, holds⟩
      exact absurd split.symm (List.append_ne_nil_of_right_ne_nil _ (List.cons_ne_nil _ _))
  | cons operation rest ih =>
      refine Ensures.bind ((holds.perform strerror rootDirectory present operation).mono ?_ ?_)
      · intro first middle now
        refine Ensures.bind ((ih now.holds now.rootDirectory now.lastError).mono ?_ ?_)
        · exact fun result after later => .cons now later
        · intro stop after ⟨events, before, halted⟩
          refine ⟨first.2 :: events, ?_, halted⟩
          rw [List.map_cons, now.operation]
          exact (List.prefix_cons_inj operation).mpr before
      · exact fun stop after halted => ⟨[], List.nil_prefix, halted⟩

/-! ### What a save turns down and a load takes -/

theorem saveContent_refused (strerror : Nat → String) (present : store.rootDirectory ≠ [])
    (name : Option CString) (content : Option Bytes) :
    (∃ error, ∀ system, store.saveContent strerror name content system = .ok (store.fail error) system) ↔
      h5ggNormalizeScriptFileName name = none ∨ ¬∃ script, content = some script ∧ Acceptable script := by
  cases name with
  | none => exact iff_of_true ⟨_, fun _ => rfl⟩ (.inl rfl)
  | some name =>
      cases content with
      | none =>
          refine iff_of_true ⟨_, fun _ => rfl⟩ (.inr ?_)
          rintro ⟨script, same, -⟩
          cases same
      | some content =>
          simp only [ScriptStore.saveContent]
          have known : store.clearError.rootDirectory ≠ [] := present
          rw [resolve_eq known]
          cases h5ggNormalizeScriptFileName (some name) with
          | none => exact iff_of_true ⟨_, fun _ => rfl⟩ (.inl rfl)
          | some normal =>
              dsimp only
              split_ifs with long invalid
              · refine iff_of_true ⟨_, fun _ => rfl⟩ (.inr ?_)
                rintro ⟨script, same, short, -⟩
                cases same
                exact absurd long (Nat.not_lt.mpr short)
              · refine iff_of_true ⟨_, fun _ => rfl⟩ (.inr ?_)
                rintro ⟨script, same, -, valid⟩
                cases same
                rw [valid] at invalid
                cases invalid
              · refine iff_of_false ?_ ?_
                · rintro ⟨error, returns⟩
                  have waits := returns ⟨⟨[], [], by simp⟩, [], []⟩
                  cases waits
                · rintro (refused | unacceptable)
                  · cases refused
                  · exact unacceptable ⟨content, rfl, Nat.le_of_not_lt long, by simpa using invalid⟩

theorem Holds.load_accepts (holds : Holds root before scripts system) (strerror : Nat → String)
    (rootDirectory : store.rootDirectory = root) (present : root ≠ []) {name : Option CString}
    {normal : CString} (normalized : h5ggNormalizeScriptFileName name = some normal)
    {content : Bytes} (saved : scripts normal = some content)
    (ready : Ready (content.length + 3) system) :
    Ensures (store.load strerror name) system
      (fun result _ => result = ((store.clearError, true), content)) fun _ _ => False := by
  obtain ⟨isNormal, short, valid⟩ := holds.accepted normal content saved
  have here := holds.contents normal isNormal
  rw [saved, Disk.content] at here
  obtain ⟨file, found, node⟩ := Option.bind_eq_some_iff.mp here
  have root_eq : store.clearError.rootDirectory = root := rootDirectory
  simp only [ScriptStore.load]
  rw [resolve_eq (root_eq ▸ present), normalized]
  dsimp only
  rw [root_eq]
  refine Ensures.bind ((openFile_ready ready found node).mono ?_
    fun _ _ stopped => stopped)
  rintro reply opened ⟨same, worked⟩
  subst same
  rw [← worked.disk] at node
  refine Ensures.bind ((fstat_ready worked.ready node).mono ?_
    fun _ _ stopped => stopped)
  rintro reply inspected ⟨same, worked⟩
  subst same
  rw [← worked.disk] at node
  simp only [ScriptStore.afterStat, Bool.true_eq_false, ↓reduceIte, if_neg (Nat.not_lt.mpr short)]
  refine Ensures.bind ((readFully_ready worked.ready node).mono ?_ fun _ _ stopped => stopped)
  rintro reply read ⟨same, worked⟩
  subst same
  refine Ensures.bind ((close_ready worked.ready).mono ?_ fun _ _ stopped => stopped)
  rintro reply closed ⟨same, -⟩
  subst same
  dsimp only
  rw [if_neg (by simp [valid])]
  rfl

/-- Where every call works, a save that is not turned down succeeds. -/
theorem saveContent_accepts (strerror : Nat → String) (present : store.rootDirectory ≠ [])
    {name : CString} {normal : CString} (normalized : h5ggNormalizeScriptFileName (some name) = some normal)
    {content : Bytes} (acceptable : Acceptable content)
    (ready : Ready (content.length + 4) system)
    (nameable : Nameable (within store.rootDirectory ".h5gg-script.".toUTF8.toList) system) :
    Ensures (store.saveContent strerror (some name) (some content)) system
      (fun result _ => result = (store.clearError, true)) fun _ _ => False := by
  obtain ⟨short, valid⟩ := acceptable
  simp only [ScriptStore.saveContent]
  rw [resolve_eq (show store.clearError.rootDirectory ≠ [] from present), normalized]
  dsimp only
  rw [if_neg (Nat.not_lt.mpr short), if_neg (by simp [valid])]
  refine Ensures.bind ((mkstemp_ready ready nameable).mono ?_ fun _ _ stopped => stopped)
  rintro reply made ⟨file, temporary, same, found, -, ready⟩
  subst same
  have written : Ensures (ScriptStore.writeScript file content) made
      (fun saved after => saved = none ∧ after.disk.find temporary = some file ∧ Ready 1 after)
      fun _ _ => False := by
    refine Ensures.bind (Ensures.bind ((writeFully_ready ready).mono ?_ fun _ _ stopped => stopped))
    rintro reply wrote ⟨same, disk, ready⟩
    subst same
    refine Ensures.bind ((fsync_ready ready).mono ?_ fun _ _ stopped => stopped)
    rintro reply synced ⟨same, worked⟩
    subst same
    refine Ensures.bind ((close_ready worked.ready).mono ?_ fun _ _ stopped => stopped)
    rintro reply closed ⟨same, worked'⟩
    subst same
    refine ⟨rfl, ?_, worked'.ready⟩
    rw [worked'.disk, worked.disk, disk]
    exact (Disk.find_edit _ _).trans found
  refine Ensures.bind (written.mono ?_ fun _ _ stopped => stopped)
  rintro saved kept ⟨same, found, ready⟩
  subst same
  refine Ensures.bind ((rename_ready ready found).mono ?_ fun _ _ stopped => stopped)
  rintro reply renamed ⟨same, -, -⟩
  subst same
  rfl

/-! ### The latest save -/

/-- The last event that has written the script saved this content. -/
def LatestSave (events : List Event) (name : CString) (content : Bytes) : Prop :=
  ∃ earlier save later, events = earlier ++ save :: later ∧
    save.writes = some (name, some content) ∧
    ∀ event ∈ later, ∀ value, event.writes ≠ some (name, value)

theorem written_eq_some {write : Option (CString × Option Bytes)} {name : CString}
    {content : Bytes} : written scripts write name = some content ↔
      write = some (name, some content) ∨
        scripts name = some content ∧ ∀ value, write ≠ some (name, value) := by
  cases write with
  | none => simp [written]
  | some entry =>
      obtain ⟨other, value⟩ := entry
      rw [written]
      by_cases same : name = other
      · subst same
        simp
      · rw [Function.update_of_ne same]
        have apart : ∀ kept, some (other, value) ≠ some (name, kept) := by
          intro kept equal
          cases equal
          exact same rfl
        simp [apart]

theorem latestSave_cons {event : Event} {events : List Event} {name : CString} {content : Bytes} :
    LatestSave (event :: events) name content ↔ LatestSave events name content ∨
      event.writes = some (name, some content) ∧
        ∀ later ∈ events, ∀ value, later.writes ≠ some (name, value) := by
  constructor
  · rintro ⟨earlier, save, later, split, saves, last⟩
    cases earlier with
    | nil =>
        cases split
        exact .inr ⟨saves, last⟩
    | cons head earlier =>
        cases split
        exact .inl ⟨earlier, save, later, rfl, saves, last⟩
  · rintro (⟨earlier, save, later, rfl, saves, last⟩ | ⟨saves, last⟩)
    · exact ⟨event :: earlier, save, later, rfl, saves, last⟩
    · exact ⟨[], event, events, rfl, saves, last⟩

theorem storedFrom_eq_some {events : List Event} {name : CString} {content : Bytes} :
    storedFrom scripts events name = some content ↔ LatestSave events name content ∨
      scripts name = some content ∧ ∀ event ∈ events, ∀ value, event.writes ≠ some (name, value) := by
  induction events generalizing scripts with
  | nil => simp [storedFrom, LatestSave]
  | cons event events ih =>
      rw [storedFrom, List.foldl_cons, ← storedFrom, ih, written_eq_some, latestSave_cons,
        List.forall_mem_cons]
      tauto

theorem stored_eq_some {events : List Event} {name : CString} {content : Bytes} :
    stored events name = some content ↔ LatestSave events name content := by
  rw [stored, storedFrom_eq_some]
  simp

/-! ### The store as a map -/

/-- The directory after some calls, as the map of the scripts that were saved last. -/
structure Kept (strerror : Nat → String) (root : Path) (before : Disk) (operations : List Operation)
    (result : ScriptStore × List Event) (after : System) : Prop where
  operations : result.2.map Event.operation = operations
  confined : AllConfined root after.log
  components : ∀ name, Normal name → Component name
  elsewhere : ∀ path, ¬Under root path → SameAt before after.disk path
  contents : ∀ name, Normal name →
    after.disk.content (within root name) = (stored result.2 name).map .regular
  leftovers : ∀ path, Under root path → after.disk.find path ≠ none →
    (∃ name content, LatestSave result.2 name content ∧ path = within root name) ∨
      Temporary root path ∧ .unlinked path false ∈ after.log
  loads : ∀ earlier event later name, result.2 = earlier ++ event :: later →
    event.operation = .load name → event.succeeded = true →
      ∃ normal, h5ggNormalizeScriptFileName name = some normal ∧
        LatestSave earlier normal event.content
  lastError : ∀ earlier event, result.2 = earlier ++ [event] →
    (result.1.lastError = "" ↔ event.succeeded = true)
  rejects : ∀ name content,
    (∃ error, ∀ system,
      result.1.saveContent strerror name content system = .ok (result.1.fail error) system) ↔
    h5ggNormalizeScriptFileName name = none ∨ ¬∃ script, content = some script ∧ Acceptable script
  accepts : ∀ name normal content, h5ggNormalizeScriptFileName name = some normal →
    LatestSave result.2 normal content →
      ∀ answers, Ready (content.length + 3) { after with answers } →
        Ensures (result.1.load strerror name) { after with answers }
          (fun loaded _ => loaded = ((result.1.clearError, true), content)) fun _ _ => False
  saves : ∀ name normal content, h5ggNormalizeScriptFileName (some name) = some normal →
    Acceptable content →
      ∀ answers, Ready (content.length + 4) { after with answers } →
        Nameable (within root ".h5gg-script.".toUTF8.toList) { after with answers } →
          Ensures (result.1.saveContent strerror (some name) (some content)) { after with answers }
            (fun saved _ => saved = (result.1.clearError, true)) fun _ _ => False

theorem Ran.keeps {strerror : Nat → String} (present : root ≠ []) {operations : List Operation}
    {result : ScriptStore × List Event} {after : System}
    (ran : Ran root before (fun _ => none) True operations result after) :
    Kept strerror root before operations result after where
  operations := ran.operations
  confined := ran.holds.confined
  components _ normal := normal.component
  elsewhere := ran.holds.elsewhere
  contents := ran.holds.contents
  leftovers path under known := by
    refine (ran.holds.others path under known).imp_left fun ⟨name, normal, same⟩ => ?_
    obtain ⟨file, found⟩ := Option.ne_none_iff_exists'.mp known
    obtain ⟨node, content⟩ := Disk.content_eq_some found
    rw [same, ran.holds.contents name normal] at content
    obtain ⟨script, saved, -⟩ := Option.map_eq_some_iff.mp content
    exact ⟨name, script, stored_eq_some.mp saved, same⟩
  loads earlier event later name split load success := by
    obtain ⟨normal, normalized, saved⟩ := ran.honest earlier event later split name load success
    exact ⟨normal, normalized, stored_eq_some.mp saved⟩
  lastError earlier event split := by
    rw [ran.lastError, split, lastSucceeded, List.foldl_append]
    rfl
  rejects := saveContent_refused strerror (ran.rootDirectory ▸ present)
  accepts name normal content normalized saved answers ready := by
    have holds : Holds root before (stored result.2) { after with answers } :=
      { ran.holds with }
    exact holds.load_accepts strerror ran.rootDirectory present normalized
      (stored_eq_some.mpr saved) ready
  saves name normal content normalized acceptable answers ready nameable :=
    saveContent_accepts strerror (ran.rootDirectory ▸ present) normalized acceptable ready
      (ran.rootDirectory ▸ nameable)

end

theorem new_present {rootDirectory : Path} (present : rootDirectory ≠ []) :
    (new rootDirectory).rootDirectory ≠ [] := by
  have kept : ∀ directory, directory ≠ [] → popSlashes directory ≠ [] := by
    intro directory some_bytes
    induction directory using popSlashes.induct with
    | case1 next rest ih =>
        rw [popSlashes]
        exact ih (List.cons_ne_nil _ _)
    | case2 directory other =>
        rw [popSlashes]
        · exact some_bytes
        · exact other
  rw [new, ne_eq, List.reverse_eq_nil_iff]
  exact kept _ (mt List.reverse_eq_nil_iff.mp present)

/-- Whatever the calls meet with, the directory holds the scripts that were saved last. -/
theorem scripts_kept (strerror : Nat → String) (rootDirectory : Path)
    (present : rootDirectory ≠ []) (disk : Disk)
    (empty : ∀ path, Under (new rootDirectory).rootDirectory path → disk.find path = none)
    (answers : List Posix.Answer) (operations : List Operation) :
    Ensures (run strerror operations (new rootDirectory)) { disk, answers }
      (Kept strerror (new rootDirectory).rootDirectory disk operations)
      (Interrupted (new rootDirectory).rootDirectory disk (fun _ => none) operations) := by
  have holds := Holds.of_empty answers empty
  refine (holds.run strerror rfl (new_present present) (iff_true_intro rfl) operations).mono ?_
    fun _ _ interrupted => interrupted
  exact fun result after ran => ran.keeps (new_present present)

theorem blank_linked : ∀ link ∈ ([] : List (Path × Nat)), link.2 < ([] : List Node).length := by
  simp

def blankDisk : Disk := ⟨[], [], blank_linked⟩

theorem scripts_kept_alpha :
    Ensures
      (run (fun _ => "I/O error") [.save (some [0x61]) (some [0x78]), .load (some [0x61, 0x2E, 0x6A, 0x73])]
        (new [0x2F, 0x73]))
      { disk := blankDisk
        answers := { suffix := [0x41, 0x41, 0x41, 0x41, 0x41, 0x41] } ::
          List.replicate 8 { count := 1 } }
      (Kept (fun _ => "I/O error") (new [0x2F, 0x73]).rootDirectory blankDisk
        [.save (some [0x61]) (some [0x78]), .load (some [0x61, 0x2E, 0x6A, 0x73])])
      (Interrupted (new [0x2F, 0x73]).rootDirectory blankDisk (fun _ => none)
        [.save (some [0x61]) (some [0x78]), .load (some [0x61, 0x2E, 0x6A, 0x73])]) :=
  scripts_kept _ [0x2F, 0x73] (by decide) blankDisk (fun _ _ => rfl) _ _

end H5GG.ScriptStore
