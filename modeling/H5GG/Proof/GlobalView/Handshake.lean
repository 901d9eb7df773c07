import H5GG.GlobalView.Handshake
import H5GG.Library.Program
import H5GG.Proof.Modules
import H5GG.Proof.Value.Tokens
import H5GG.Proof.WriteMemory

/-!
# What a process holds of SpringBoard's memory
-/

namespace H5GG

/-! ## One mapping -/

/-- The mapping of the pages around `size` bytes at `address`. -/
def remapAround (pageSize : Nat) (remap : Nat → Nat → Option Nat) (address size : Nat) :
    Option RemappedValue :=
  let base := pageBase pageSize address
  let mappingSize := pageBase pageSize (address - base + size + (pageSize - 1))
  (remap base mappingSize).map fun buffer => ⟨buffer, mappingSize, buffer + (address - base), base⟩

/-- `size` bytes at `address` lie in whole pages, no more than needed, and are seen at `value`. -/
structure RemappedValue.Around (pageSize address size : Nat) (mapped : RemappedValue) : Prop where
  base : pageSize ∣ mapped.base
  pages : pageSize ∣ mapped.mappingSize
  below : mapped.base ≤ address
  covered : address + size ≤ mapped.base + mapped.mappingSize
  tight : mapped.mappingSize < address - mapped.base + size + pageSize
  inside : mapped.mapping ≤ mapped.value ∧
    mapped.value + size ≤ mapped.mapping + mapped.mappingSize
  source : mapped.source = address

section
variable {pageSize : Nat} {remap : Nat → Nat → Option Nat}

theorem pageBase_dvd (pageSize address : Nat) : pageSize ∣ pageBase pageSize address := by
  rw [pageBase_eq]
  exact Nat.dvd_mul_right pageSize _

theorem pageBase_le (pageSize address : Nat) : pageBase pageSize address ≤ address :=
  Nat.sub_le _ _

theorem lt_pageBase (positive : 0 < pageSize) (address : Nat) :
    address < pageBase pageSize address + pageSize := by
  have := Nat.mod_lt address positive
  unfold pageBase
  omega

theorem remapAround_spec (positive : 0 < pageSize) {address size : Nat} {mapped : RemappedValue}
    (made : remapAround pageSize remap address size = some mapped) :
    mapped.Around pageSize address size := by
  obtain ⟨buffer, -, rfl⟩ := Option.map_eq_some_iff.mp made
  have below := pageBase_le pageSize address
  have reached := lt_pageBase positive (address - pageBase pageSize address + size + (pageSize - 1))
  have rounded := pageBase_le pageSize (address - pageBase pageSize address + size + (pageSize - 1))
  constructor
  · exact pageBase_dvd pageSize address
  · exact pageBase_dvd pageSize _
  · exact below
  · dsimp only
    omega
  · dsimp only
    omega
  · dsimp only
    omega
  · simp only [RemappedValue.source, Nat.add_sub_cancel_left]
    exact Nat.add_sub_cancel' below

/-- The arithmetic of `H5GGRemapGlobal` does not wrap: it maps just what lies in memory. -/
theorem h5ggRemapGlobal_eq (positive : 0 < pageSize) {moduleBase offset valueSize : Nat}
    (word : offset < 2 ^ 64) (some' : 0 < valueSize)
    (modest : pageSize + pageSize + valueSize ≤ 2 ^ 64) :
    h5ggRemapGlobal pageSize remap moduleBase offset valueSize =
      if moduleBase + offset + valueSize < 2 ^ 64 then
        remapAround pageSize remap (moduleBase + offset) valueSize
      else none := by
  unfold h5ggRemapGlobal remapAround
  dsimp only
  by_cases far : 2 ^ 64 - 1 - offset < moduleBase
  · rw [if_pos (.inr far), if_neg (by omega)]
  rw [if_neg (by omega)]
  by_cases long : 2 ^ 64 - 1 - valueSize < moduleBase + offset
  · rw [if_pos long, if_neg (by omega)]
  rw [if_neg long, if_pos (show moduleBase + offset + valueSize < 2 ^ 64 by omega)]
  generalize moduleBase + offset = address
  have below := pageBase_le pageSize address
  have near := lt_pageBase positive address
  have bytes : address + valueSize - pageBase pageSize address =
      address - pageBase pageSize address + valueSize := by omega
  have rounded := pageBase_le pageSize (address - pageBase pageSize address + valueSize + (pageSize - 1))
  have reached := lt_pageBase positive (address - pageBase pageSize address + valueSize + (pageSize - 1))
  rw [bytes, if_neg (by omega), if_neg (by omega)]

end

/-! ## One call -/

namespace GlobalViewCall
variable (call : GlobalViewCall)

/-- Whether a call ends over a process that has no name, before there is a port. -/
def NamelessProcess : Prop :=
  (call.dylib.getD [] ≠ []) ∧ ∃ processes, call.springBoard.processes = some processes ∧
    ∃ process ∈ processes, h5ggIsValidUTF8 .allow process.comm = false

/-- The images that a call comes to choose from. -/
def found : Option (List LoadedImage) :=
  match pidForName call.springBoard.processes (.ofAscii "SpringBoard"), call.springBoard.taskForPid with
  | .ok sbpid, some _ =>
      if call.dylib.getD [] = [] ∨ sbpid = 0 then none
      else
        some (chosen ((NSString.stringWithUTF8String (call.dylib.getD [])).map lastPathComponent)
          call.springBoard.task.images)
  | _, _ => none

/-- Whether a call ends over an image that has no name, with a port. -/
def NamelessImage : Prop :=
  ∃ images, call.found = some images ∧ ∃ image ∈ images, h5ggIsValidUTF8 .allow image.path = false

/-- `size` bytes of SpringBoard's memory, if they are in it and can be mapped. -/
def mapped (pageSize k address size : Nat) : Option RemappedValue :=
  if address + size < 2 ^ 64 then remapAround pageSize (call.springBoard.remap k) address size
  else none

/-- The headers at two addresses of SpringBoard's memory are the ones expected. -/
def Compatible (data image : Nat) : Prop :=
  headerIsCompatible (headerAt call.springBoard.memory data) sizeofGVData sizeofGVData
      GV_CAPABILITY_ALL = true ∧
    headerIsCompatible (headerAt call.springBoard.memory image) sizeofGVImageTransfer
      sizeofGVImageTransfer GV_CAPABILITY_IMAGE_TRANSFER = true

instance (data image : Nat) : Decidable (call.Compatible data image) :=
  inferInstanceAs (Decidable (_ ∧ _))

/-- The one image that a call finds. -/
def image : Option LoadedImage :=
  call.found.bind fun images => if images.length = 1 then images.head? else none

/-- The mappings that a call keeps. -/
def adoption (pageSize : Nat) : Option (RemappedValue × RemappedValue) := do
  let image ← call.image
  let data ← call.mapped pageSize 0 (image.address + call.dataOffset) sizeofGVData
  let slot ← call.mapped pageSize 1 (image.address + call.imageOffset) sizeofGVImageTransfer
  guard (call.Compatible (image.address + call.dataOffset) (image.address + call.imageOffset))
  return (data, slot)

end GlobalViewCall

theorem ofAscii_hexAddress (address : Nat) :
    (NSString.ofAscii (hexAddress address)).utf8 = some (0x30 :: 0x78 :: hexDigits address) := by
  simp only [NSString.ofAscii, hexAddress, String.toList_append, String.toList_ofList,
    List.map_append, List.map_map]
  rfl

theorem scanHexLongLong_hexAddress {address : Nat} (small : address < 2 ^ 64) :
    scanHexLongLong (.ofAscii (hexAddress address)) = address := by
  have some' : hexDigits address ≠ [] := by
    rw [hexDigits, ne_eq, List.map_eq_nil_iff]
    exact Nat.toDigits_ne_nil
  have first : (hexDigits address).head?.any isXDigit = true := by
    obtain ⟨digit, rest, shape⟩ := List.exists_cons_of_ne_nil some'
    rw [shape]
    exact (hexDigits_digit (shape ▸ List.mem_cons_self)).1
  have all : (hexDigits address).takeWhile isXDigit = hexDigits address :=
    List.takeWhile_eq_self_iff.mpr fun c inside => (hexDigits_digit inside).1
  have value : digitsValue 16 (hexDigits address) = address := by
    apply digitsValue_toDigits (by decide)
    decide
  have skipped : (0x30 :: 0x78 :: hexDigits address).dropWhile isSpace =
      0x30 :: 0x78 :: hexDigits address := rfl
  simp only [scanHexLongLong, ofAscii_hexAddress, Option.getD_some, skipped, decide_true,
    Bool.true_or, Bool.true_and, first, if_true, all, value]
  omega

/-- What a process holds after some adoptions: a pair of mappings for each of them, and the last
pair to work with. -/
structure GlobalView.Holds (adopted : List (RemappedValue × RemappedValue)) (view : GlobalView) :
    Prop where
  held : view.held.Perm (adopted.flatMap fun pair => [pair.1, pair.2])
  shared : view.shared = adopted.getLast?
  enabled : view.enabled = adopted.map fun pair => pair.1.source + enableOffset

section
variable {pageSize : Nat} {call : GlobalViewCall} {view : GlobalView}

/-- A mapping that a call has made is one to give back. -/
structure RemappedValue.Real (mapped : RemappedValue) : Prop where
  mapping : mapped.mapping ≠ 0
  size : mapped.mappingSize ≠ 0
  value : mapped.value ≠ 0

theorem GlobalViewCall.mapped_spec (positive : 0 < pageSize) {k address size : Nat}
    (some' : 0 < size) {mapped : RemappedValue}
    (made : call.mapped pageSize k address size = some mapped) :
    mapped.Real ∧ mapped.Around pageSize address size := by
  unfold GlobalViewCall.mapped at made
  split at made
  · have around := remapAround_spec positive made
    obtain ⟨buffer, given, rfl⟩ := Option.map_eq_some_iff.mp made
    have there := call.springBoard.placed _ _ _ _ given
    obtain ⟨-, -, below, covered, -, ⟨inside, -⟩, -⟩ := around
    dsimp only at covered below inside
    refine ⟨⟨there, ?_, ?_⟩, remapAround_spec positive made⟩
    · dsimp only
      omega
    · dsimp only
      omega
  · cases made

theorem release_held {mapped : Option RemappedValue} (real : ∀ value ∈ mapped, value.Real) :
    h5ggReleaseRemapping mapped view =
      .ok () { view with held := mapped.elim view.held view.held.erase } := by
  cases mapped with
  | none => rfl
  | some value =>
      have made := real value rfl
      rw [h5ggReleaseRemapping, if_pos ⟨made.mapping, made.size⟩]
      rfl

theorem erase_last {held old : List RemappedValue} {mapped : RemappedValue}
    (made : held.Perm (mapped :: old)) : (held.erase mapped).Perm old := by
  have given := made.erase mapped
  rwa [List.erase_cons_head] at given

theorem perm_erase {held old : List RemappedValue} {data image : Option RemappedValue}
    (made : held.Perm (old ++ (data.toList ++ image.toList))) :
    (image.elim (data.elim held held.erase) (data.elim held held.erase).erase).Perm old := by
  have first : (data.elim held held.erase).Perm (old ++ image.toList) := by
    cases data with
    | none => exact made
    | some data => exact erase_last (made.trans List.perm_middle)
  cases image with
  | none => simpa using first
  | some image => exact erase_last (first.trans List.perm_append_comm)

theorem adoptRemapped_compatible {data image : RemappedValue} (real : data.Real) (real' : image.Real)
    (compatible : call.Compatible data.source image.source) :
    adoptRemapped call (some data) (some image) view =
      .ok () { view with
        shared := some (data, image)
        enabled := view.enabled ++ [data.source + enableOffset]
        offered := view.offered ++ call.icon.toList } := by
  obtain ⟨first, second⟩ := compatible
  have large : decide (sizeofGVProtocolHeader ≤ sizeofGVData) = true := rfl
  have large' : decide (sizeofGVProtocolHeader ≤ sizeofGVImageTransfer) = true := rfl
  simp only [adoptRemapped, GVDataIsCompatible, GVImageTransferIsCompatible, first, second, large,
    large', real.value, real'.value, ne_eq, not_false_eq_true, decide_true, Bool.and_true, if_true]
  rfl

theorem adoptRemapped_other {data image : Option RemappedValue}
    (real : ∀ value ∈ data, value.Real) (real' : ∀ value ∈ image, value.Real)
    (other : ∀ first ∈ data, ∀ second ∈ image, ¬call.Compatible first.source second.source) :
    adoptRemapped call data image view =
      .ok () { view with
        held := image.elim (data.elim view.held view.held.erase)
          (data.elim view.held view.held.erase).erase } := by
  have releases : (h5ggReleaseRemapping data >>= fun _ => h5ggReleaseRemapping image) view =
      .ok () { view with
        held := image.elim (data.elim view.held view.held.erase)
          (data.elim view.held view.held.erase).erase } := by
    simp only [bind, EStateM.bind, release_held real, release_held real']
  cases data with
  | none => exact releases
  | some data =>
      cases image with
      | none => exact releases
      | some image =>
          rw [← releases]
          simp only [adoptRemapped]
          rw [if_neg]
          intro both
          simp only [GVDataIsCompatible, GVImageTransferIsCompatible, Bool.and_eq_true] at both
          exact other data rfl image rfl ⟨both.1.2.2, both.2.2.2⟩

theorem GlobalView.Holds.kept {adopted : List (RemappedValue × RemappedValue)} {after : GlobalView}
    (holds : view.Holds adopted) (held : after.held.Perm view.held) (shared : after.shared = view.shared)
    (enabled : after.enabled = view.enabled) : after.Holds adopted where
  held := held.trans holds.held
  shared := shared.trans holds.shared
  enabled := enabled.trans holds.enabled

/-- What a call does with the mappings that it has made. -/
theorem adoptRemapped_spec (positive : 0 < pageSize) {adopted : List (RemappedValue × RemappedValue)}
    {image : LoadedImage} (one : call.image = some image) (holds : view.Holds adopted)
    {data slot : Option RemappedValue}
    (first : call.mapped pageSize 0 (image.address + call.dataOffset) sizeofGVData = data)
    (second : call.mapped pageSize 1 (image.address + call.imageOffset) sizeofGVImageTransfer = slot) :
    ∃ after, adoptRemapped call data slot
        { view with held := view.held ++ (data.toList ++ slot.toList) } = .ok () after ∧
      after.ports = view.ports ∧ after.Holds (adopted ++ (call.adoption pageSize).toList) := by
  have real : ∀ value ∈ data, value.Real ∧ value.source = image.address + call.dataOffset := by
    intro value given
    obtain ⟨made, around⟩ := GlobalViewCall.mapped_spec positive (by decide) (first.trans given)
    exact ⟨made, around.source⟩
  have real' : ∀ value ∈ slot, value.Real ∧ value.source = image.address + call.imageOffset := by
    intro value given
    obtain ⟨made, around⟩ := GlobalViewCall.mapped_spec positive (by decide) (second.trans given)
    exact ⟨made, around.source⟩
  have adoption : call.adoption pageSize = data.bind fun data => slot.bind fun slot =>
      if call.Compatible (image.address + call.dataOffset) (image.address + call.imageOffset) then
        some (data, slot) else none := by
    simp only [GlobalViewCall.adoption, one, first, second, bind, Option.bind_some, guard]
    refine congrArg _ (funext fun data => congrArg _ (funext fun slot => ?_))
    split <;> rfl
  by_cases kept : (∃ value, data = some value) ∧ (∃ value, slot = some value) ∧
      call.Compatible (image.address + call.dataOffset) (image.address + call.imageOffset)
  · obtain ⟨⟨data, rfl⟩, ⟨slot, rfl⟩, compatible⟩ := kept
    obtain ⟨real, source⟩ := real data rfl
    obtain ⟨real', source'⟩ := real' slot rfl
    rw [← source, ← source'] at compatible
    refine ⟨_, adoptRemapped_compatible real real' compatible, rfl, ?_⟩
    rw [source, source'] at compatible
    rw [adoption, Option.bind_some, Option.bind_some, if_pos compatible]
    constructor
    · simp only [List.flatMap_append]
      exact holds.held.append_right _
    · simp
    · simp only [holds.enabled]
      simp
  · have other : ∀ first ∈ data, ∀ second ∈ slot, ¬call.Compatible first.source second.source := by
      intro first given second given' compatible
      rw [(real first given).2, (real' second given').2] at compatible
      exact kept ⟨⟨first, given⟩, ⟨second, given'⟩, compatible⟩
    have none' : call.adoption pageSize = none := by
      rw [adoption]
      cases data with
      | none => rfl
      | some data =>
          cases slot with
          | none => rfl
          | some slot =>
              rw [Option.bind_some, Option.bind_some, if_neg]
              exact fun compatible => kept ⟨⟨data, rfl⟩, ⟨slot, rfl⟩, compatible⟩
    refine ⟨_, adoptRemapped_other (fun value given => (real value given).1)
      (fun value given => (real' value given).1) other, rfl, ?_⟩
    rw [none', Option.toList_none, List.append_nil]
    exact holds.kept (perm_erase (.refl _)) rfl rfl

theorem GlobalViewCall.unfound (nothing : call.found = none) :
    ¬call.NamelessImage ∧ call.adoption pageSize = none := by
  constructor
  · rintro ⟨images, found, -⟩
    rw [nothing] at found
    cases found
  · rw [GlobalViewCall.adoption, GlobalViewCall.image, nothing]
    rfl

theorem GlobalViewCall.namelessProcess_iff : call.NamelessProcess ↔ call.dylib.getD [] ≠ [] ∧
    pidForName call.springBoard.processes (.ofAscii "SpringBoard") = .error .thrown := by
  rw [NamelessProcess]
  apply and_congr_right
  rintro -
  have listed := pidForName_ok_iff call.springBoard.processes (.ofAscii "SpringBoard")
  cases answered : pidForName call.springBoard.processes (.ofAscii "SpringBoard") with
  | ok sbpid =>
      have valid := listed.mp ⟨sbpid, answered⟩
      refine iff_of_false ?_ nofun
      rintro ⟨processes, table, process, among, invalid⟩
      exact Bool.false_ne_true (invalid.symm.trans (valid processes table process among))
  | error stop =>
      refine iff_of_true ?_ rfl
      by_contra valid
      obtain ⟨sbpid, found⟩ := listed.mpr fun processes table process among =>
        Bool.not_eq_false _ ▸ fun invalid => valid ⟨processes, table, process, among, invalid⟩
      rw [answered] at found
      cases found

/-- How far a call comes: not to the list of images, or over the list of processes not even there,
or with a port to what `getRangesList2` makes of the images. -/
inductive GlobalViewCall.Course (pageSize : Nat) (call : GlobalViewCall) (view : GlobalView) : Prop
  | ends (found : call.found = none) (named : ¬call.NamelessProcess)
      (unchanged : h5ggSetGlobalView pageSize call view = .ok () view)
  | throws (found : call.found = none) (nameless : call.NamelessProcess)
      (unchanged : h5ggSetGlobalView pageSize call view = .error .thrown view)
  | lists (images : List LoadedImage) (sbtask : Nat) (found : call.found = some images)
      (named : ¬call.NamelessProcess)
      (listed : ∀ ranges, images.mapM LoadedImage.range = ranges →
        h5ggSetGlobalView pageSize call view =
          adoptModule pageSize call sbtask ranges { view with ports := sbtask :: view.ports })

variable (pageSize call view) in
theorem h5ggSetGlobalView_eq : h5ggSetGlobalView pageSize call view =
    if call.dylib.getD [] = [] then .ok () view
    else
      match pidForName call.springBoard.processes (.ofAscii "SpringBoard") with
      | .error stop => .error stop view
      | .ok sbpid =>
          match if sbpid = 0 then none else call.springBoard.taskForPid with
          | none => .ok () view
          | some sbtask =>
              adoptModule pageSize call sbtask
                (getRangesList2 call.springBoard.task
                  ((NSString.stringWithUTF8String (call.dylib.getD [])).map lastPathComponent))
                { view with ports := sbtask :: view.ports } := by
  unfold h5ggSetGlobalView
  cases call.dylib with
  | none => rfl
  | some dylib =>
      rw [Option.getD_some]
      by_cases empty : dylib = []
      · dsimp only
        rw [if_pos empty, if_pos empty]
        rfl
      dsimp only
      rw [if_neg empty, if_neg empty]
      cases pidForName call.springBoard.processes (.ofAscii "SpringBoard") with
      | error stop => rfl
      | ok sbpid =>
          by_cases stopped : sbpid = 0
          · subst stopped
            rfl
          · dsimp only
            rw [if_neg stopped]
            refine Eq.trans (congrFun (if_neg stopped) view) ?_
            cases call.springBoard.taskForPid <;> rfl

variable (pageSize call view) in
theorem h5ggSetGlobalView_course : call.Course pageSize view := by
  have nameless := call.namelessProcess_iff
  have outcome := h5ggSetGlobalView_eq pageSize call view
  by_cases empty : call.dylib.getD [] = []
  · rw [if_pos empty] at outcome
    refine .ends ?_ (fun throws => (nameless.mp throws).1 empty) outcome
    unfold GlobalViewCall.found
    split
    · exact if_pos (.inl empty)
    · rfl
  rw [if_neg empty] at outcome
  cases searched : pidForName call.springBoard.processes (.ofAscii "SpringBoard") with
  | error stop =>
      rw [searched] at nameless outcome
      refine .throws ?_ (nameless.mpr ⟨empty, rfl⟩) outcome
      rw [GlobalViewCall.found, searched]
  | ok sbpid =>
  rw [searched] at nameless outcome
  dsimp only at outcome
  have named : ¬call.NamelessProcess := by
    rw [nameless]
    exact fun throws => nomatch throws.2
  cases granted : if sbpid = 0 then none else call.springBoard.taskForPid with
  | none =>
      rw [granted] at outcome
      refine .ends ?_ named outcome
      by_cases stopped : sbpid = 0
      · unfold GlobalViewCall.found
        rw [searched]
        cases call.springBoard.taskForPid with
        | none => rfl
        | some sbtask => exact if_pos (.inr stopped)
      · rw [if_neg stopped] at granted
        rw [GlobalViewCall.found, searched, granted]
  | some sbtask =>
      rw [granted] at outcome
      by_cases stopped : sbpid = 0
      · rw [if_pos stopped] at granted
        cases granted
      · rw [if_neg stopped] at granted
        have found : call.found = some (chosen
            ((NSString.stringWithUTF8String (call.dylib.getD [])).map lastPathComponent)
            call.springBoard.task.images) := by
          simp only [GlobalViewCall.found, searched, granted]
          exact if_neg (not_or.mpr ⟨empty, stopped⟩)
        refine .lists _ sbtask found named fun ranges listed => ?_
        rw [outcome, getRangesList2_eq, listed]

theorem adoptModule_several {sbtask : Nat} {modules : List ModuleRange}
    (several : modules.length ≠ 1) :
    adoptModule pageSize call sbtask (some modules) view =
      .ok () { view with ports := view.ports.erase sbtask } := by
  rcases modules with - | ⟨first, - | ⟨second, rest⟩⟩
  · rfl
  · exact absurd rfl several
  · rfl

/-- Why a call ended with the exception, and the ports it has left. -/
def GlobalViewCall.Throws (call : GlobalViewCall) (before after : List Nat) : Prop :=
  call.NamelessProcess ∧ after = before ∨ call.NamelessImage ∧ ∃ port, after = port :: before

theorem GlobalViewCall.namelessImage_iff {images : List LoadedImage}
    (found : call.found = some images) :
    call.NamelessImage ↔ images.mapM LoadedImage.range = none := by
  simp only [NamelessImage, found, Option.some.injEq, exists_eq_left', mapM_range_eq_none]

/-- What is left of a call: a port only if it met an image without a name, and a pair of mappings only
if it adopted it. -/
theorem h5ggSetGlobalView_spec (positive : 0 < pageSize) (modest : pageSize ≤ 2 ^ 32)
    {adopted : List (RemappedValue × RemappedValue)} (holds : view.Holds adopted) :
    Ensures (h5ggSetGlobalView pageSize call) view
      (fun _ after => (¬call.NamelessProcess ∧ ¬call.NamelessImage) ∧ after.ports = view.ports ∧
        after.Holds (adopted ++ (call.adoption pageSize).toList))
      (fun _ after => call.Throws view.ports after.ports ∧ after.Holds adopted) := by
  unfold Ensures
  cases h5ggSetGlobalView_course pageSize call view with
  | ends nothing named unchanged =>
      rw [unchanged]
      obtain ⟨quiet, none'⟩ := call.unfound nothing
      rw [none', Option.toList_none, List.append_nil]
      exact ⟨⟨named, quiet⟩, rfl, holds⟩
  | throws nothing nameless unchanged =>
      rw [unchanged]
      exact ⟨.inl ⟨nameless, rfl⟩, holds⟩
  | lists images sbtask found named listed =>
  have nameless := GlobalViewCall.namelessImage_iff found
  cases ranges : images.mapM LoadedImage.range with
  | none =>
      rw [listed none ranges]
      exact ⟨.inr ⟨nameless.mpr ranges, sbtask, rfl⟩, holds.kept (.refl _) rfl rfl⟩
  | some modules =>
  have quiet : ¬call.NamelessProcess ∧ ¬call.NamelessImage := by
    refine ⟨named, ?_⟩
    rw [nameless, ranges]
    nofun
  have each := SearchExpression.mapM_eq_some.mp ranges
  rw [listed _ ranges]
  by_cases single : modules.length = 1
  · obtain ⟨module, rfl⟩ := List.length_eq_one_iff.mp single
    obtain ⟨image, others, made, rest, rfl⟩ := List.forall₂_cons_right_iff.mp each
    cases rest
    have one : call.image = some image := by
      rw [GlobalViewCall.image, found]
      rfl
    have mapped (k : Nat) {offset size : Nat} (word : offset < 2 ^ 64) (some' : 0 < size)
        (small : size ≤ 2 ^ 32) :
        h5ggRemapGlobal pageSize (call.springBoard.remap k) (scanHexLongLong (.ofAscii module.start))
            offset size = call.mapped pageSize k (image.address + offset) size := by
      rw [(LoadedImage.range_spec made).start, scanHexLongLong_hexAddress image.small]
      exact h5ggRemapGlobal_eq positive word some' (by omega)
    obtain ⟨after, adopts, ports, holds'⟩ := adoptRemapped_spec positive one holds
      (mapped 0 call.words.1 (by decide) (by decide)).symm
      (mapped 1 call.words.2 (by decide) (by decide)).symm
    have outcome : adoptModule pageSize call sbtask (some [module])
        { view with ports := sbtask :: view.ports } = .ok () after := by
      show adoptRemapped call _ _
        { view with held := _, ports := (sbtask :: view.ports).erase sbtask } = _
      rw [List.erase_cons_head]
      exact adopts
    rw [outcome]
    exact ⟨quiet, ports, holds'⟩
  · have several : call.adoption pageSize = none := by
      rw [GlobalViewCall.adoption, GlobalViewCall.image, found, Option.bind_some, if_neg]
      · rfl
      · rwa [each.length_eq]
    rw [adoptModule_several single, several, Option.toList_none, List.append_nil]
    exact ⟨quiet, List.erase_cons_head sbtask view.ports, holds.kept (.refl _) rfl rfl⟩

end

/-! ## Every call -/

/-- The mappings that some calls keep, in order. -/
def adoptions (pageSize : Nat) (calls : List GlobalViewCall) :
    List (RemappedValue × RemappedValue) :=
  calls.filterMap (·.adoption pageSize)

theorem adoptions_cons (pageSize : Nat) (call : GlobalViewCall) (rest : List GlobalViewCall) :
    adoptions pageSize (call :: rest) =
      (call.adoption pageSize).toList ++ adoptions pageSize rest := by
  rw [adoptions, List.filterMap_cons]
  cases call.adoption pageSize <;> rfl

/-- What is kept lies where it was asked for, in the one image of the name, with the right headers. -/
structure GlobalViewCall.Keeps (pageSize : Nat) (call : GlobalViewCall)
    (pair : RemappedValue × RemappedValue) : Prop where
  image : ∃ image, call.found = some [image] ∧
    pair.1.Around pageSize (image.address + call.dataOffset) sizeofGVData ∧
    pair.2.Around pageSize (image.address + call.imageOffset) sizeofGVImageTransfer
  compatible : call.Compatible pair.1.source pair.2.source

theorem GlobalViewCall.adoption_keeps {pageSize : Nat} (positive : 0 < pageSize)
    {call : GlobalViewCall} {pair : RemappedValue × RemappedValue}
    (adopted : call.adoption pageSize = some pair) : call.Keeps pageSize pair := by
  simp only [adoption, bind, Option.bind_eq_some_iff, guard, pure] at adopted
  obtain ⟨image, one, data, first, slot, second, passed, checked, same⟩ := adopted
  cases same
  split at checked
  · rename_i compatible
    have around := (mapped_spec positive (by decide) first).2
    have around' := (mapped_spec positive (by decide) second).2
    rw [← around.source, ← around'.source] at compatible
    refine ⟨⟨image, ?_, around, around'⟩, compatible⟩
    obtain ⟨images, found, one⟩ := Option.bind_eq_some_iff.mp one
    split at one
    · rename_i single
      obtain ⟨only, rfl⟩ := List.length_eq_one_iff.mp single
      rw [found, Option.some.inj one]
    · cases one
  · cases checked

/-- However many calls there are and whatever each of them meets, the process holds the mappings it
has kept, two for each call, and no port; a call that throws ends the process, with one more port if
it was over an image. -/
theorem h5ggSetGlobalView_run {pageSize : Nat} (positive : 0 < pageSize)
    (modest : pageSize ≤ 2 ^ 32) (calls : List GlobalViewCall) :
    (∀ call ∈ calls, ∀ pair ∈ call.adoption pageSize, call.Keeps pageSize pair) ∧
    Ensures (calls.forM (h5ggSetGlobalView pageSize)) {}
      (fun _ after => (∀ call ∈ calls, ¬call.NamelessProcess ∧ ¬call.NamelessImage) ∧
        after.ports = [] ∧ after.Holds (adoptions pageSize calls))
      (fun _ after => ∃ before call rest, calls = before ++ call :: rest ∧
        call.Throws [] after.ports ∧ after.Holds (adoptions pageSize before)) := by
  have run : ∀ (calls : List GlobalViewCall) (adopted : List (RemappedValue × RemappedValue))
      (view : GlobalView), view.Holds adopted →
      Ensures (calls.forM (h5ggSetGlobalView pageSize)) view
        (fun _ after => (∀ call ∈ calls, ¬call.NamelessProcess ∧ ¬call.NamelessImage) ∧
          after.ports = view.ports ∧ after.Holds (adopted ++ adoptions pageSize calls))
        (fun _ after => ∃ before call rest, calls = before ++ call :: rest ∧
          call.Throws view.ports after.ports ∧
          after.Holds (adopted ++ adoptions pageSize before)) := by
    intro calls
    induction calls with
    | nil =>
        intro adopted view holds
        exact ⟨nofun, rfl, by rwa [adoptions, List.filterMap_nil, List.append_nil]⟩
    | cons call rest ih =>
        intro adopted view holds
        rw [List.forM]
        apply Ensures.bind
        apply (h5ggSetGlobalView_spec positive modest holds).mono
        · rintro - after ⟨named, ports, holds'⟩
          apply (ih _ after holds').mono
          · rintro - final ⟨others, ports', last⟩
            rw [adoptions_cons, ← List.append_assoc]
            exact ⟨List.forall_mem_cons.mpr ⟨named, others⟩, ports'.trans ports, last⟩
          · rintro - final ⟨before, thrower, later, rfl, throws, last⟩
            refine ⟨call :: before, thrower, later, rfl, ports ▸ throws, ?_⟩
            rw [adoptions_cons, ← List.append_assoc]
            exact last
        · rintro - after ⟨throws, holds'⟩
          refine ⟨[], call, rest, rfl, throws, ?_⟩
          rwa [adoptions, List.filterMap_nil, List.append_nil]
  refine ⟨fun call _ pair kept => GlobalViewCall.adoption_keeps positive kept, ?_⟩
  exact run calls [] {} ⟨.refl _, rfl, rfl⟩

/-- The bytes of a header. -/
def GVProtocolHeader.bytes (header : GVProtocolHeader) : Bytes :=
  Word.toLittleEndian 4 header.magic ++ Word.toLittleEndian 2 header.version ++
    Word.toLittleEndian 2 header.headerSize ++ Word.toLittleEndian 4 header.totalSize ++
    Word.toLittleEndian 4 header.reserved ++ Word.toLittleEndian 8 header.capabilities

/-- An image with both of its structures in the page behind its first. -/
def hostImage : ImageInfo where
  address := 0x100000000
  path := some ("/GlobalView.dylib".toUTF8.toList ++ [0])
  macho := ⟨false, none, false, none⟩
  small := by decide

def hostMemory (address : Nat) : UInt8 :=
  if address < 0x100004100 then
    (makeHeader sizeofGVData GV_CAPABILITY_ALL).bytes.getD (address - 0x100004000) 0
  else
    (makeHeader sizeofGVImageTransfer GV_CAPABILITY_IMAGE_TRANSFER).bytes.getD
      (address - 0x100004100) 0

def sharing : GlobalViewCall where
  dylib := some "/GlobalView.dylib".toUTF8.toList
  dataOffset := 0x4000
  imageOffset := 0x4100
  words := by decide
  springBoard :=
    { processes := some [⟨50, "SpringBoard".toUTF8.toList⟩]
      taskForPid := some 9
      task := ⟨true, some 1, some fun _ => hostImage⟩
      remap := fun k _ _ => some (0x200000000 + 0x1000000 * k)
      memory := hostMemory
      placed := by
        intro k base size buffer made
        have := Option.some.inj made
        omega }
  customIcon := none
  bundledIcon := [1]

theorem h5ggSetGlobalView_run_sharing :
    (∀ call ∈ [sharing, sharing], ∀ pair ∈ call.adoption 0x4000, call.Keeps 0x4000 pair) ∧
    Ensures ([sharing, sharing].forM (h5ggSetGlobalView 0x4000)) {}
      (fun _ after =>
        (∀ call ∈ [sharing, sharing], ¬call.NamelessProcess ∧ ¬call.NamelessImage) ∧
        after.ports = [] ∧ after.Holds (adoptions 0x4000 [sharing, sharing]))
      (fun _ after => ∃ before call rest, [sharing, sharing] = before ++ call :: rest ∧
        call.Throws [] after.ports ∧ after.Holds (adoptions 0x4000 before)) :=
  h5ggSetGlobalView_run (by decide) (by decide) [sharing, sharing]

/-- It is adopted. -/
example : sharing.adoption 0x4000 =
    some (⟨0x200000000, 0x4000, 0x200000000, 0x100004000⟩,
      ⟨0x201000000, 0x84000, 0x201000100, 0x100004000⟩) := by
  decide +kernel

end H5GG
