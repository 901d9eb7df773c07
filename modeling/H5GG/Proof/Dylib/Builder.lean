import H5GG.Dylib.Builder
import H5GG.Library.Staging
import H5GG.Proof.Dylib.Template

/-!
# A library is published as a whole or not at all
-/

namespace H5GG.DylibBuilder
open Posix

/-- Every name that was to be removed has gone. -/
def Cleaned (system : System) : Prop := ∀ path, .unlinked path false ∉ system.log

structure Unpublished (request : DylibBuildRequest) (before : Disk) (after : System) : Prop where
  source : SameAt before after.disk request.sourcePath
  output : SameAt before after.disk request.outputPath
  cleaned : Cleaned after → ∀ path, SameAt before after.disk path

/-- The output is what the signer has left of the binary. -/
structure Published (request : DylibBuildRequest) (signer : Path → Option Node → Signing)
    (before : Disk) (binary : Bytes) (architectureCount : Nat) (built : DylibBuildResult)
    (after : System) : Prop where
  result : built =
    { status := .completed, outputPath := request.outputPath, detail := "", architectureCount }
  signed : ∃ temporary node error,
    signer temporary (some (.regular binary)) =
      { left := some node, verdict := .ok (true, error) } ∧
    after.disk.content request.outputPath = some node
  elsewhere : ∀ path, path ≠ request.outputPath → SameAt before after.disk path
  source : request.outputPath ≠ request.sourcePath → SameAt before after.disk request.sourcePath

/-- A build that waits for a call leaves the source and the output alone, and one that lets an
exception through leaves everything. -/
structure Stopped (request : DylibBuildRequest) (before : Disk) (stop : Stop) (after : System) :
    Prop where
  source : SameAt before after.disk request.sourcePath
  output : SameAt before after.disk request.outputPath
  waits : stop = .waiting → after.answers = []
  raised : stop ≠ .waiting → ∀ path, SameAt before after.disk path

def Ended (request : DylibBuildRequest) (signer : Path → Option Node → Signing) (before : Disk)
    (binary : Bytes) (architectureCount : Nat) (built : DylibBuildResult) (after : System) : Prop :=
  (built.status ≠ .completed ∧ Unpublished request before after) ∨
    Published request signer before binary architectureCount built after

/-! ## After `mkstemp` -/

structure AtWork (request : DylibBuildRequest) (before : Disk) (temporary : Path)
    (system : System) : Prop where
  staged : Staged before temporary system.disk
  output : request.outputPath ≠ temporary
  source : request.sourcePath ≠ temporary
  cleaned : Cleaned system

namespace AtWork
variable {request : DylibBuildRequest} {before : Disk} {temporary : Path} {system : System}
  (atWork : AtWork request before temporary system)
include atWork

theorem rests {entries : List PathCall} {after : System} (rests : Rests entries system after)
    (harmless : ∀ path, .unlinked path false ∉ entries) :
    AtWork request before temporary after where
  staged := rests.disk ▸ atWork.staged
  output := atWork.output
  source := atWork.source
  cleaned path inside := by
    rw [rests.log] at inside
    cases List.mem_append.mp inside with
    | inl old => exact atWork.cleaned path old
    | inr new => exact harmless path new

theorem stopped {stop : Stop} (waiting : stop = .waiting) (none_left : system.answers = []) :
    Stopped request before stop system where
  source := atWork.staged.elsewhere atWork.source
  output := atWork.staged.elsewhere atWork.output
  waits _ := none_left
  raised notWaiting := absurd waiting notWaiting

theorem waits {entries : List PathCall} {stop : Stop} {after : System}
    (waits : Waits entries system stop after) (harmless : ∀ path, .unlinked path false ∉ entries) :
    Stopped request before stop after :=
  (atWork.rests waits.rests harmless).stopped waits.waiting waits.answers

theorem discard {signer : Path → Option Node → Signing} {binary : Bytes} {architectureCount : Nat}
    (failed : DylibBuildResult) (incomplete : failed.status ≠ .completed) :
    Ensures (do let _ ← unlink temporary; pure failed : Program DylibBuildResult) system
      (Ended request signer before binary architectureCount) (Stopped request before) := by
  refine Ensures.bind ((unlink_ensures temporary).mono ?_ ?_)
  · intro reply after ⟨log, disk⟩
    have staged : Staged before temporary after.disk := by
      cases reply with
      | error errno => exact disk ▸ atWork.staged
      | ok done => exact disk ▸ atWork.staged.unlink
    refine .inl ⟨incomplete, staged.elsewhere atWork.source, staged.elsewhere atWork.output, ?_⟩
    intro cleaned
    refine staged.gone ?_
    cases found : after.disk.find temporary with
    | none => rfl
    | some file =>
        have still : .unlinked temporary false ∈ after.log := by
          rw [log, found]
          exact List.mem_append_right _ (List.mem_singleton.mpr rfl)
        exact absurd still (cleaned temporary)
  · exact fun stop after waits => atWork.waits waits fun _ => List.not_mem_nil

theorem publish (strerror : Nat → String) {signer : Path → Option Node → Signing} {binary : Bytes}
    (error : String) (architectureCount : Nat)
    (signed : ∀ node, system.disk.content temporary = some node →
      signer temporary (some (.regular binary)) =
        { left := some node, verdict := .ok (true, error) }) :
    Ensures (DylibBuilder.publish strerror request temporary architectureCount) system
      (Ended request signer before binary architectureCount) (Stopped request before) := by
  refine Ensures.bind ((rename_ensures temporary request.outputPath).mono ?_ ?_)
  · intro reply after ⟨log, moved⟩
    cases reply with
    | error errno =>
        have rests : Rests [.renamed temporary request.outputPath] system after := ⟨moved, log⟩
        exact (atWork.rests rests (by simp)).discard _ (by simp [result])
    | ok done =>
        obtain ⟨⟨file, found⟩, disk⟩ := moved
        obtain ⟨elsewhere, here⟩ := atWork.staged.rename atWork.output found
        rw [← disk] at elsewhere here
        obtain ⟨node, content⟩ := Disk.content_eq_some found
        refine .inr ⟨rfl, ⟨temporary, node, error, signed node content, here.trans content⟩,
          elsewhere, fun apart => elsewhere _ (Ne.symm apart)⟩
  · exact fun stop after waits => atWork.waits waits (by simp)

theorem sign (signer : Path → Option Node → Signing) {stops : Stop → System → Prop} :
    Ensures (DylibBuilder.sign signer temporary) system
      (fun verdict after => AtWork request before temporary after ∧
        verdict = (signer temporary (system.disk.content temporary)).verdict ∧
        ∀ node, after.disk.content temporary = some node →
          (signer temporary (system.disk.content temporary)).left = some node) stops := by
  have removed : AtWork request before temporary
      { system with disk := system.disk.unlink temporary } :=
    { atWork with staged := atWork.staged.unlink }
  unfold Ensures DylibBuilder.sign
  dsimp only
  split
  · rename_i file node found left
    refine ⟨{ atWork with staged := atWork.staged.edit (atWork.staged.fresh file found) _ }, rfl, ?_⟩
    intro kept here
    obtain ⟨old, content⟩ := Disk.content_eq_some found
    rw [Disk.content_edit found, content] at here
    cases here
    exact left
  · refine ⟨removed, rfl, fun node here => ?_⟩
    cases Disk.content_unlink.symm.trans here

theorem signAndPublish (strerror : Nat → String) (signer : Path → Option Node → Signing)
    {binary : Bytes} (architectureCount : Nat)
    (written : system.disk.content temporary = some (.regular binary)) :
    Ensures (DylibBuilder.signAndPublish strerror request signer temporary architectureCount) system
      (Ended request signer before binary architectureCount) (Stopped request before) := by
  refine Ensures.bind ((atWork.sign signer).mono ?_ fun _ _ stopped => stopped)
  intro verdict after ⟨worked, same, left⟩
  rw [written] at same left
  cases verdict with
  | error what => exact worked.discard _ (by simp [result])
  | ok answer =>
      obtain ⟨accepted, error⟩ := answer
      cases accepted with
      | false => exact worked.discard _ (by simp [result])
      | true =>
          refine worked.publish strerror error architectureCount (fun node here => ?_)
          have kept := left node here
          cases signing : signer temporary (some (.regular binary)) with
          | mk left verdict =>
              rw [signing] at same kept
              cases same
              cases kept
              rfl

theorem onward {after : System} (log : after.log = system.log)
    (staged : Staged before temporary after.disk) : AtWork request before temporary after where
  staged := staged
  output := atWork.output
  source := atWork.source
  cleaned path inside := atWork.cleaned path (log ▸ inside)

/-- The temporary file holds the binary, unless something has gone wrong. -/
structure Holds (request : DylibBuildRequest) (before : Disk) (temporary : Path) (binary : Bytes)
    (detail : Option String) (after : System) : Prop where
  atWork : AtWork request before temporary after
  content : detail = none → after.disk.content temporary = some (.regular binary)

theorem writeAll (strerror : Nat → String) {file : Nat} (binary : Bytes)
    (found : system.disk.find temporary = some file)
    (empty : system.disk.content temporary = some (.regular [])) :
    Ensures (DylibBuilder.writeAll strerror file binary) system
      (Holds request before temporary binary) (Stopped request before) := by
  refine Ensures.bind ((atWork.staged.writes found empty binary).mono ?_ ?_)
  · intro reply after wrote
    obtain ⟨log, staged, content⟩ := wrote
    have worked := atWork.onward log staged
    cases reply with
    | error errno => exact ⟨worked, fun ok => absurd ok (Option.some_ne_none _)⟩
    | ok done =>
        refine Ensures.bind (fsync_ensures.mono ?_ ?_)
        · intro reply synced rests
          have worked := worked.rests rests fun _ => List.not_mem_nil
          cases reply with
          | error errno => exact ⟨worked, fun ok => absurd ok (Option.some_ne_none _)⟩
          | ok done => exact ⟨worked, fun _ => rests.disk ▸ content rfl⟩
        · exact fun stop stopped waits => worked.waits waits fun _ => List.not_mem_nil
  · intro stop after stopped
    obtain ⟨waiting, none_left, log, staged⟩ := stopped
    exact (atWork.onward log staged).stopped waiting none_left

theorem writeOutput (strerror : Nat → String) {file : Nat} (binary : Bytes)
    (found : system.disk.find temporary = some file)
    (empty : system.disk.content temporary = some (.regular [])) :
    Ensures (DylibBuilder.writeOutput strerror file binary) system
      (Holds request before temporary binary) (Stopped request before) := by
  refine Ensures.bind ((atWork.writeAll strerror binary found empty).mono ?_
    fun _ _ stopped => stopped)
  intro wrote after held
  refine Ensures.bind (close_ensures.mono ?_ ?_)
  · intro reply closed rests
    have worked := held.atWork.rests rests fun _ => List.not_mem_nil
    have content : wrote = none → closed.disk.content temporary = some (.regular binary) :=
      fun fine => rests.disk ▸ held.content fine
    cases reply with
    | ok done => exact ⟨worked, content⟩
    | error errno =>
        cases wrote with
        | none => exact ⟨worked, fun ok => absurd ok (Option.some_ne_none _)⟩
        | some detail => exact ⟨worked, content⟩
  · exact fun stop stopped waits => held.atWork.waits waits fun _ => List.not_mem_nil

end AtWork

/-! ## Before `mkstemp` -/

structure Untouched (before : Disk) (system : System) : Prop where
  disk : system.disk = before
  cleaned : Cleaned system

namespace Untouched
variable {request : DylibBuildRequest} {before : Disk} {system : System}
  (untouched : Untouched before system)
include untouched

theorem rests {entries : List PathCall} {after : System} (rests : Rests entries system after)
    (harmless : ∀ path, .unlinked path false ∉ entries) : Untouched before after where
  disk := rests.disk.trans untouched.disk
  cleaned path inside := by
    rw [rests.log] at inside
    cases List.mem_append.mp inside with
    | inl old => exact untouched.cleaned path old
    | inr new => exact harmless path new

theorem unpublished : Unpublished request before system := by
  have same : ∀ path, SameAt before system.disk path := fun path => untouched.disk ▸ .rfl
  exact ⟨same _, same _, fun _ => same⟩

theorem stopped {stop : Stop} (waits : stop = .waiting → system.answers = []) :
    Stopped request before stop system := by
  have same : ∀ path, SameAt before system.disk path := fun path => untouched.disk ▸ .rfl
  exact ⟨same _, same _, waits, fun _ => same⟩

theorem waits {entries : List PathCall} {stop : Stop} {after : System}
    (waits : Waits entries system stop after) (harmless : ∀ path, .unlinked path false ∉ entries) :
    Stopped request before stop after :=
  (untouched.rests waits.rests harmless).stopped fun _ => waits.answers

/-- A call that leaves the disk alone is followed by one that may, too. -/
theorem andClose {status : ReadStatus} {path : Path}
    (read : ∀ bytes, status = .completed bytes → before.content path = some (.regular bytes)) :
    Ensures (do let _ ← close; pure status : Program ReadStatus) system
      (fun status after => Untouched before after ∧
        ∀ bytes, status = .completed bytes → before.content path = some (.regular bytes))
      (Stopped request before) := by
  refine Ensures.bind (close_ensures.mono ?_ ?_)
  · exact fun _ after rests => ⟨untouched.rests rests fun _ => List.not_mem_nil, read⟩
  · exact fun stop after waits => untouched.waits waits fun _ => List.not_mem_nil

theorem inspected (strerror : Nat → String) {path : Path} {exclusiveSizeLimit descriptor : Nat}
    (found : before.find path = some descriptor) {reply : Except Nat Stat}
    (regular : ∀ info, reply = .ok info → info.isRegular = true →
      before.nodes[descriptor]? = some (.regular (before.bytes descriptor)) ∧
        info.size = (before.bytes descriptor).length) :
    Ensures (afterStat strerror descriptor exclusiveSizeLimit reply) system
      (fun status after => Untouched before after ∧
        ∀ bytes, status = .completed bytes → before.content path = some (.regular bytes))
      (Stopped request before) := by
  cases reply with
  | error errno => exact untouched.andClose fun bytes ok => nomatch ok
  | ok info =>
      simp only [afterStat]
      split_ifs with special tooLarge
      · exact untouched.andClose fun bytes ok => nomatch ok
      · exact untouched.andClose fun bytes ok => nomatch ok
      · obtain ⟨node, size⟩ := regular info rfl (by simpa using special)
        refine Ensures.bind ((readFully_ensures descriptor info.size).mono ?_ ?_)
        · intro reply read ⟨rests, all⟩
          rw [untouched.disk, size, List.take_length] at all
          have untouchedThen := untouched.rests rests fun _ => List.not_mem_nil
          cases reply with
          | error errno => exact untouchedThen.andClose fun bytes ok => nomatch ok
          | ok bytes =>
              refine Ensures.bind (close_ensures.mono ?_ ?_)
              · intro reply closed rests
                have untouchedLast := untouchedThen.rests rests fun _ => List.not_mem_nil
                cases reply with
                | error errno => exact ⟨untouchedLast, fun bytes ok => nomatch ok⟩
                | ok done =>
                    refine ⟨untouchedLast, fun got ok => ?_⟩
                    cases ok
                    rw [Disk.content, found, all bytes rfl]
                    exact node
              · exact fun stop after waits => untouchedThen.waits waits fun _ => List.not_mem_nil
        · exact fun stop after waits => untouched.waits waits fun _ => List.not_mem_nil

theorem readRegularFile (strerror : Nat → String) (path : Path) (exclusiveSizeLimit : Nat) :
    Ensures (DylibBuilder.readRegularFile strerror path exclusiveSizeLimit) system
      (fun status after => Untouched before after ∧
        ∀ bytes, status = .completed bytes → before.content path = some (.regular bytes))
      (Stopped request before) := by
  refine Ensures.bind ((openFile_ensures path).mono ?_ ?_)
  · intro reply opened ⟨rests, names⟩
    have untouchedThen := untouched.rests rests (by simp)
    cases reply with
    | error errno => exact ⟨untouchedThen, fun bytes ok => nomatch ok⟩
    | ok descriptor =>
        have found := names descriptor rfl
        rw [untouched.disk] at found
        refine Ensures.bind ((fstat_ensures descriptor).mono ?_ ?_)
        · intro reply inspected ⟨rests, regular⟩
          rw [untouchedThen.disk] at regular
          exact (untouchedThen.rests rests fun _ => List.not_mem_nil).inspected strerror found
            regular
        · exact fun stop after waits => untouchedThen.waits waits fun _ => List.not_mem_nil
  · exact fun stop after waits => untouched.waits waits (by simp)

/-- The name that `mkstemp` finds is neither that of the output nor that of the source. -/
theorem atWork {temporary suffix : Path} {after : System}
    (source : before.find request.sourcePath ≠ none) (absent : system.disk.find temporary = none)
    (named : temporary = request.outputPath ++ ".tmp.".toUTF8.toList ++ suffix)
    (long : suffix.length = 6) (disk : after.disk = system.disk.create temporary)
    (log : after.log = system.log ++ [.created temporary]) :
    AtWork request before temporary after where
  staged := by
    rw [untouched.disk] at absent disk
    exact disk ▸ .create absent
  output same := by
    have lengths := congrArg List.length (same.trans named)
    rw [List.length_append, List.length_append] at lengths
    omega
  source same := source (by rw [same, ← untouched.disk, absent])
  cleaned path inside := by
    rw [log] at inside
    cases List.mem_append.mp inside with
    | inl old => exact untouched.cleaned path old
    | inr new => simp at new

theorem output (strerror : Nat → String) (signer : Path → Option Node → Signing) (binary : Bytes)
    (architectureCount : Nat) (source : before.find request.sourcePath ≠ none) :
    Ensures (DylibBuilder.output strerror request signer binary architectureCount) system
      (Ended request signer before binary architectureCount) (Stopped request before) := by
  refine Ensures.bind ((mkstemp_ensures _).mono ?_ ?_)
  · intro reply made outcome
    cases reply with
    | error errno =>
        have same := untouched.rests outcome fun _ => List.not_mem_nil
        exact .inl ⟨by simp [result], same.unpublished⟩
    | ok created =>
        obtain ⟨descriptor, temporary⟩ := created
        obtain ⟨last, absent, ⟨suffix, long, -, named⟩, disk, log⟩ := outcome
        have worked := untouched.atWork source absent named long disk log
        have found : made.disk.find temporary = some descriptor := disk ▸ Disk.find_created last
        have empty : made.disk.content temporary = some (.regular []) := disk ▸ Disk.content_create
        refine Ensures.bind ((worked.writeOutput strerror binary found empty).mono ?_
          fun _ _ stopped => stopped)
        intro wrote written held
        cases wrote with
        | some detail => exact held.atWork.discard _ (by simp [result])
        | none =>
            exact held.atWork.signAndPublish strerror signer architectureCount (held.content rfl)
  · exact fun stop after waits => untouched.waits waits fun _ => List.not_mem_nil

end Untouched

/-- Every placeholder for the icon is replaced in the source, and then every one for the menu. -/
structure Customised (builder : DylibBuilder) (request : DylibBuildRequest) (before : Disk)
    (binary : Bytes) (architectureCount : Nat) : Prop where
  positive : 0 < architectureCount
  replaced : ∃ source icon menu between iconPieces menuPieces,
    before.content request.sourcePath = some (.regular source) ∧
    before.content request.iconPath = some (.regular icon) ∧
    before.content request.menuPath = some (.regular menu) ∧
    icon.length < builder.iconPlaceholder.length ∧
    menu.length < builder.menuPlaceholder.length ∧
    Cut builder.iconPlaceholder source iconPieces ∧
    between = List.intercalate (padded builder.iconPlaceholder icon) iconPieces ∧
    Cut builder.menuPlaceholder between menuPieces ∧
    binary = List.intercalate (padded builder.menuPlaceholder menu) menuPieces ∧
    iconPieces.length = architectureCount + 1 ∧ menuPieces.length = architectureCount + 1

/-- Either nothing is published or all of it is. -/
def Outcome (builder : DylibBuilder) (request : DylibBuildRequest) (before : Disk)
    (built : DylibBuildResult) (after : System) : Prop :=
  (built.status ≠ .completed ∧ Unpublished request before after) ∨
    ∃ signer binary architectureCount, builder.signer = some signer ∧
      Customised builder request before binary architectureCount ∧
      Published request signer before binary architectureCount built after

namespace Untouched
variable {builder : DylibBuilder} {request : DylibBuildRequest} {before : Disk} {system : System}
  (untouched : Untouched before system)
include untouched

theorem failed {status : DylibBuildStatus} (detail : String) (incomplete : status ≠ .completed) :
    Outcome builder request before (result status detail) system :=
  .inl ⟨incomplete, untouched.unpublished⟩

theorem withIcon (strerror : Nat → String) {signer : Path → Option Node → Signing}
    {source icon : Bytes} (signs : builder.signer = some signer)
    (sourceIs : before.content request.sourcePath = some (.regular source))
    (iconIs : before.content request.iconPath = some (.regular icon)) :
    Ensures (builder.withIcon strerror request signer source icon) system
      (Outcome builder request before) (Stopped request before) := by
  refine Ensures.bind ((untouched.readRegularFile strerror _ _).mono ?_ fun _ _ stopped => stopped)
  intro status after ⟨untouched, reads⟩
  cases status with
  | tooLarge => exact untouched.failed _ (by decide)
  | unavailable detail => exact untouched.failed _ (by decide)
  | completed menu =>
      dsimp only
      split_ifs with invalid mismatch
      · exact untouched.failed _ (by decide)
      · exact untouched.failed _ (by decide)
      · obtain ⟨some_icon, equal⟩ := not_or.mp mismatch
        have equal := not_not.mp equal
        obtain ⟨iconShort, iconPieces, iconCut, between, iconCount⟩ := replaceAll_cut some_icon
        obtain ⟨menuShort, menuPieces, menuCut, binary, menuCount⟩ :=
          replaceAll_cut (equal ▸ some_icon)
        have known : before.find request.sourcePath ≠ none := by
          intro missing
          rw [Disk.content, missing] at sourceIs
          cases sourceIs
        refine (untouched.output strerror signer _ _ known).mono ?_ fun _ _ stopped => stopped
        intro built after ended
        cases ended with
        | inl failed => exact .inl failed
        | inr published =>
            refine .inr ⟨signer, _, _, signs, ⟨Nat.pos_of_ne_zero some_icon, ?_⟩, published⟩
            exact ⟨source, icon, menu, _, iconPieces, menuPieces, sourceIs, iconIs, reads menu rfl,
              iconShort, menuShort, iconCut, between, menuCut, binary, iconCount.symm,
              equal ▸ menuCount.symm⟩

theorem withSource (strerror : Nat → String) (iconValidator : Bytes → Verdict)
    {signer : Path → Option Node → Signing} {source : Bytes} (signs : builder.signer = some signer)
    (sourceIs : before.content request.sourcePath = some (.regular source)) :
    Ensures (builder.withSource strerror request iconValidator signer source) system
      (Outcome builder request before) (Stopped request before) := by
  refine Ensures.bind ((untouched.readRegularFile strerror _ _).mono ?_ fun _ _ stopped => stopped)
  intro status after ⟨untouched, reads⟩
  cases status with
  | tooLarge => exact untouched.failed _ (by decide)
  | unavailable detail => exact untouched.failed _ (by decide)
  | completed icon =>
      dsimp only
      split_ifs with empty
      · exact untouched.failed _ (by decide)
      · cases iconValidator icon with
        | error what => exact untouched.stopped fun waits => nomatch waits
        | ok verdict =>
            obtain ⟨accepted, validationError⟩ := verdict
            cases accepted with
            | false => exact untouched.failed _ (by decide)
            | true => exact untouched.withIcon strerror signs sourceIs (reads icon rfl)

end Untouched

theorem build_outcome (strerror : Nat → String) (builder : DylibBuilder)
    (request : DylibBuildRequest) (disk : Disk) (answers : List Answer) :
    Ensures (builder.build strerror request) { disk, answers } (Outcome builder request disk)
      (Stopped request disk) := by
  have untouched : Untouched disk { disk, answers } := ⟨rfl, fun _ => List.not_mem_nil⟩
  unfold DylibBuilder.build
  split_ifs with invalid
  · exact untouched.failed _ (by decide)
  · cases builder.iconValidator with
    | none => exact untouched.failed _ (by decide)
    | some iconValidator =>
        cases signs : builder.signer with
        | none => exact untouched.failed _ (by decide)
        | some signer =>
            refine Ensures.bind ((untouched.readRegularFile strerror _ _).mono ?_
              fun _ _ stopped => stopped)
            intro status after ⟨untouched, reads⟩
            cases status with
            | tooLarge => exact untouched.failed _ (by decide)
            | unavailable detail => exact untouched.failed _ (by decide)
            | completed source =>
                cases source with
                | nil => exact untouched.failed _ (by decide)
                | cons byte rest =>
                    exact untouched.withSource strerror iconValidator signs (reads _ rfl)

/-! ## Where every call works -/

section
variable {system : System} {calls : Nat} (strerror : Nat → String)

theorem readRegularFile_ready {path : Path} {bytes : Bytes} {exclusiveSizeLimit : Nat}
    (here : system.disk.content path = some (.regular bytes))
    (fits : exclusiveSizeLimit = 0 ∨ bytes.length < exclusiveSizeLimit)
    (ready : Ready (bytes.length + (calls + 1) + 1 + 1) system) :
    Ensures (readRegularFile strerror path exclusiveSizeLimit) system
      (fun status after => status = .completed bytes ∧ Worked calls system after)
      fun _ _ => False := by
  obtain ⟨file, found, node⟩ := Option.bind_eq_some_iff.mp here
  refine Ensures.bind ((openFile_ready ready found node).mono ?_ fun _ _ stopped => stopped)
  rintro reply opened ⟨same, first⟩
  subst same
  rw [← first.disk] at node
  refine Ensures.bind ((fstat_ready first.ready node).mono ?_ fun _ _ stopped => stopped)
  rintro reply inspected ⟨same, second⟩
  subst same
  rw [← second.disk] at node
  simp only [afterStat, Bool.true_eq_false, ↓reduceIte]
  rw [if_neg (by omega)]
  refine Ensures.bind ((readFully_ready second.ready node).mono ?_ fun _ _ stopped => stopped)
  rintro reply read ⟨same, third⟩
  subst same
  refine Ensures.bind ((close_ready third.ready).mono ?_ fun _ _ stopped => stopped)
  rintro reply closed ⟨same, last⟩
  subst same
  exact ⟨rfl, (first.trans second).trans (third.trans last)⟩

theorem writeOutput_ready {file : Nat} {temporary : Path} {binary : Bytes}
    (found : system.disk.find temporary = some file)
    (empty : system.disk.content temporary = some (.regular []))
    (ready : Ready (binary.length + (calls + 1 + 1)) system) :
    Ensures (writeOutput strerror file binary) system
      (fun detail after => detail = none ∧ after.disk.find temporary = some file ∧
        after.disk.content temporary = some (.regular binary) ∧ Ready calls after)
      fun _ _ => False := by
  refine Ensures.bind (Ensures.bind ((writeFully_ready ready).mono ?_ fun _ _ stopped => stopped))
  rintro reply wrote ⟨same, disk, ready⟩
  subst same
  refine Ensures.bind ((fsync_ready ready).mono ?_ fun _ _ stopped => stopped)
  rintro reply synced ⟨same, first⟩
  subst same
  refine Ensures.bind ((close_ready first.ready).mono ?_ fun _ _ stopped => stopped)
  rintro reply closed ⟨same, last⟩
  subst same
  have whole : closed.disk = system.disk.append file binary :=
    last.disk.trans (first.disk.trans disk)
  refine ⟨rfl, ?_, ?_, last.ready⟩
  · rw [whole]
    exact (Disk.find_edit _ _).trans found
  · rw [whole, Disk.append, Disk.content_edit found, empty]
    rfl

end

/-- What a request and its files have to be for a library to be made of them. -/
structure Buildable (builder : DylibBuilder) (request : DylibBuildRequest) (disk : Disk)
    (iconValidator : Bytes → Verdict) (signer : Path → Option Node → Signing)
    (source icon menu binary : Bytes) (architectureCount : Nat) : Prop where
  named : request.sourcePath ≠ [] ∧ request.iconPath ≠ [] ∧ request.menuPath ≠ [] ∧
    request.outputPath ≠ [] ∧ builder.iconPlaceholder ≠ [] ∧ builder.menuPlaceholder ≠ []
  callbacks : builder.iconValidator = some iconValidator ∧ builder.signer = some signer
  files : disk.content request.sourcePath = some (.regular source) ∧
    disk.content request.iconPath = some (.regular icon) ∧
    disk.content request.menuPath = some (.regular menu)
  given : source ≠ [] ∧ icon ≠ [] ∧ menu ≠ []
  fits : icon.length < builder.iconPlaceholder.length ∧ menu.length < builder.menuPlaceholder.length
  validated : ∃ error, iconValidator icon = .ok (true, error)
  text : h5ggIsValidUTF8 .reject menu = true
  icons : (h5ggReplaceAllTemplates source builder.iconPlaceholder icon).2 = architectureCount
  menus : h5ggReplaceAllTemplates (h5ggReplaceAllTemplates source builder.iconPlaceholder icon).1
    builder.menuPlaceholder menu = (binary, architectureCount)
  found : 0 < architectureCount
  signed : ∀ temporary, ∃ node error, signer temporary (some (.regular binary)) =
    { left := some node, verdict := .ok (true, error) }

/-- How many calls a build makes at most. -/
def callsOf (source icon menu binary : Bytes) : Nat :=
  source.length + icon.length + menu.length + binary.length + 13

section
variable {builder : DylibBuilder} {request : DylibBuildRequest} {disk : Disk}
  {iconValidator : Bytes → Verdict} {signer : Path → Option Node → Signing}
  {source icon menu binary : Bytes} {architectureCount : Nat}

theorem output_ready (strerror : Nat → String) {system : System}
    (signed : ∀ temporary, ∃ node error, signer temporary (some (.regular binary)) =
      { left := some node, verdict := .ok (true, error) })
    (nameable : Nameable (request.outputPath ++ ".tmp.".toUTF8.toList) system)
    (ready : Ready (binary.length + (1 + 1 + 1) + 1) system) :
    Ensures (output strerror request signer binary architectureCount) system
      (fun built _ => built = { result .completed with
        outputPath := request.outputPath, architectureCount }) fun _ _ => False := by
  refine Ensures.bind ((mkstemp_ready ready nameable).mono ?_ fun _ _ stopped => stopped)
  rintro reply made ⟨file, temporary, same, found, empty, ready⟩
  subst same
  refine Ensures.bind ((writeOutput_ready strerror found empty ready).mono ?_
    fun _ _ stopped => stopped)
  rintro detail written ⟨same, found, content, ready⟩
  subst same
  obtain ⟨node, error, signing⟩ := signed temporary
  have signs : sign signer temporary written =
      .ok (.ok (true, error)) { written with disk := written.disk.edit file fun _ => node } := by
    unfold sign
    rw [content, found, signing]
  refine Ensures.bind ?_
  unfold Ensures
  rw [signs]
  dsimp only
  have signedReady : Ready (0 + 1) { written with disk := written.disk.edit file fun _ => node } :=
    ⟨ready.willing, ready.enough⟩
  refine Ensures.bind ((rename_ready signedReady ((Disk.find_edit _ _).trans found)).mono ?_
    fun _ _ stopped => stopped)
  rintro reply renamed ⟨same, -, -⟩
  subst same
  rfl

/-- A build whose calls, validator and signer all succeed is completed. -/
theorem build_completes (strerror : Nat → String)
    (buildable : Buildable builder request disk iconValidator signer source icon menu binary
      architectureCount) {answers : List Answer}
    (ready : Ready (callsOf source icon menu binary) { disk, answers })
    (nameable : Nameable (request.outputPath ++ ".tmp.".toUTF8.toList) { disk, answers }) :
    Ensures (builder.build strerror request) { disk, answers }
      (fun built _ => built = { result .completed with
        outputPath := request.outputPath, architectureCount }) fun _ _ => False := by
  obtain ⟨named, ⟨validates, signs⟩, ⟨sourceIs, iconIs, menuIs⟩, ⟨source', icon', menu'⟩,
    ⟨iconFits, menuFits⟩, ⟨error, validated⟩, text, icons, menus, found, signed⟩ := buildable
  unfold callsOf at ready
  unfold DylibBuilder.build
  rw [if_neg (by tauto), validates, signs]
  dsimp only
  refine Ensures.bind ((readRegularFile_ready strerror sourceIs (.inl rfl)
    (ready.fewer (by omega : source.length +
      (icon.length + menu.length + binary.length + 10 + 1) + 1 + 1 ≤ _))).mono ?_
    fun _ _ stopped => stopped)
  rintro status first ⟨same, worked⟩
  subst same
  obtain ⟨byte, rest, rfl⟩ := List.exists_cons_of_ne_nil source'
  dsimp only
  refine Ensures.bind ((readRegularFile_ready strerror ((worked.content _).trans iconIs) (.inr iconFits)
    (worked.ready.fewer (by omega : icon.length +
      (menu.length + binary.length + 7 + 1) + 1 + 1 ≤ _))).mono ?_ fun _ _ stopped => stopped)
  rintro status second ⟨same, worked'⟩
  subst same
  dsimp only
  rw [if_neg icon', validated]
  dsimp only
  have both := worked.trans worked'
  refine Ensures.bind ((readRegularFile_ready strerror ((both.content _).trans menuIs) (.inr menuFits)
    (both.ready.fewer (by omega : menu.length + (binary.length + 4 + 1) + 1 + 1 ≤ _))).mono ?_
    fun _ _ stopped => stopped)
  rintro status third ⟨same, worked⟩
  subst same
  dsimp only
  rw [if_neg (by simp [menu', text]), icons, menus, if_neg (by omega)]
  have all := both.trans worked
  exact output_ready strerror signed (nameable.worked all) all.ready

/-- Whatever a build meets with, it publishes all of the library or nothing; and it publishes the
library where nothing fails. -/
theorem build_publishes (strerror : Nat → String) (builder : DylibBuilder)
    (request : DylibBuildRequest) (disk : Disk) (answers : List Answer) :
    Ensures (builder.build strerror request) { disk, answers } (Outcome builder request disk)
        (Stopped request disk) ∧
      ∀ (iconValidator : Bytes → Verdict) (signer : Path → Option Node → Signing)
        (source icon menu binary : Bytes) (architectureCount : Nat),
        Buildable builder request disk iconValidator signer source icon menu binary
          architectureCount →
        Ready (callsOf source icon menu binary) { disk, answers } →
        Nameable (request.outputPath ++ ".tmp.".toUTF8.toList) { disk, answers } →
        Ensures (builder.build strerror request) { disk, answers }
          (fun built _ => built = { result .completed with
            outputPath := request.outputPath, architectureCount }) fun _ _ => False :=
  ⟨build_outcome strerror builder request disk answers,
    fun _ _ _ _ _ _ _ buildable ready nameable =>
      build_completes strerror buildable ready nameable⟩

end

/-! A library of four bytes: two for the icon, and two for the menu. -/

def fourBytes : Disk where
  links := [([0x73], 0), ([0x69], 1), ([0x6D], 2)]
  nodes := [.regular [1, 2, 3, 4], .regular [9], .regular [0x61]]
  linked := by decide

def anyVerdict : DylibBuilder where
  iconPlaceholder := [1, 2]
  menuPlaceholder := [3, 4]
  iconValidator := some fun _ => .ok (true, "")
  signer := some fun _ node => { left := node, verdict := .ok (true, "") }

example (strerror : Nat → String) :
    Ensures (anyVerdict.build strerror ⟨[0x73], [0x69], [0x6D], [0x6F]⟩)
      { disk := fourBytes
        answers := List.replicate 23 { count := 1, suffix := [0x41, 0x41, 0x41, 0x41, 0x41, 0x41] } }
      (fun built _ => built = { result .completed with outputPath := [0x6F], architectureCount := 1 })
      fun _ _ => False := by
  have buildable : Buildable anyVerdict ⟨[0x73], [0x69], [0x6D], [0x6F]⟩ fourBytes
      (fun _ => .ok (true, "")) (fun _ node => { left := node, verdict := .ok (true, "") })
      [1, 2, 3, 4] [9] [0x61] [9, 0, 0x61, 0] 1 := by
    constructor
    · decide
    · exact ⟨rfl, rfl⟩
    · exact ⟨rfl, rfl, rfl⟩
    · decide
    · decide
    · exact ⟨"", rfl⟩
    · simp [h5ggIsValidUTF8]
    · simp [h5ggReplaceAllTemplates, replaceFrom, search, padded, anyVerdict]
    · simp [h5ggReplaceAllTemplates, replaceFrom, search, padded, anyVerdict]
    · decide
    · exact fun _ => ⟨_, "", rfl⟩
  apply build_completes strerror buildable
  · constructor
    · decide
    · decide
  · intro answer among
    rw [List.eq_of_mem_replicate among]
    decide

end H5GG.DylibBuilder
