import H5GG.Facade
import H5GG.Modules
import H5GG.Proof.MachO
import H5GG.Proof.Value.RoundTrip

/-!
# Lists of images, and what their texts are good for
-/

namespace H5GG

/-! ## The processes -/

theorem KinfoProc.dictionary_ok_iff (process : KinfoProc) :
    (∃ entry, process.dictionary = .ok entry) ↔ h5ggIsValidUTF8 .allow process.comm = true := by
  simp only [dictionary, Validation.bind_eq_ok, Validation.pure_eq_ok, Validation.accept_eq_ok,
    NSString.stringWithUTF8String]
  constructor
  · rintro ⟨_, name, converted, -⟩
    split at converted
    · assumption
    · cases converted
  · intro valid
    exact ⟨_, _, if_pos valid, rfl⟩

/-- A process whose name is no text ends the search for any other, too. -/
theorem pidForName_ok_iff (table : Option (List KinfoProc)) (name : NSString) :
    (∃ pid, pidForName table name = .ok pid) ↔
      ∀ processes, table = some processes → ∀ process ∈ processes,
        h5ggIsValidUTF8 .allow process.comm = true := by
  have listed : (∃ pid, pidForName table name = .ok pid) ↔
      ∃ allproc, getRunningProcess table = .ok allproc := by
    simp only [pidForName, Validation.bind_eq_ok, Validation.pure_eq_ok]
    exact ⟨fun ⟨_, allproc, made, _⟩ => ⟨allproc, made⟩, fun ⟨allproc, made⟩ => ⟨_, allproc, made, rfl⟩⟩
  rw [listed]
  rcases table with - | - | ⟨first, others⟩
  · exact ⟨fun _ => nofun, fun _ => ⟨none, rfl⟩⟩
  · refine ⟨?_, fun _ => ⟨none, rfl⟩⟩
    rintro - _ ⟨⟩ process among
    cases among
  · have each := Validation.mapM_ok_iff (f := KinfoProc.dictionary) (first :: others).reverse
    simp only [KinfoProc.dictionary_ok_iff, List.mem_reverse] at each
    simp only [getRunningProcess, map_eq_pure_bind, Validation.bind_eq_ok, Validation.pure_eq_ok,
      Option.some.injEq, forall_eq']
    rw [← each]
    exact ⟨fun ⟨_, allproc, made, _⟩ => ⟨allproc, made⟩, fun ⟨allproc, made⟩ => ⟨_, allproc, made, rfl⟩⟩

/-! ## The images that are listed -/

/-- The images that a filter asks for; `"0"` asks for the first one. -/
def chosen (filter : Option NSString) (images : List LoadedImage) : List LoadedImage :=
  match filter with
  | none => images
  | some name =>
      if name = firstImage then images.take 1
      else images.filter fun image =>
        NSString.stringWithUTF8String (basename image.path) = some name

theorem imageMatches_none (i : Nat) (image : LoadedImage) : imageMatches none i image = true := rfl

theorem imageMatches_first (image : LoadedImage) : imageMatches (some firstImage) 0 image = true := rfl

theorem imageMatches_name {name : NSString} (other : name ≠ firstImage) (i : Nat)
    (image : LoadedImage) : imageMatches (some name) i image =
      decide (NSString.stringWithUTF8String (basename image.path) = some name) := by
  have first : ¬some name = some firstImage := fun same => other (Option.some.inj same)
  simp only [imageMatches, first, reduceCtorEq, decide_false, Bool.and_false, Bool.or_false,
    Bool.false_or, Option.isSome_some, Bool.true_and]
  exact decide_eq_decide.mpr eq_comm

theorem listImages_none (images : List LoadedImage) (i : Nat) :
    listImages none i images = images.mapM LoadedImage.range := by
  induction images generalizing i with
  | nil => rfl
  | cons image rest ih =>
      have other : ¬(i = 0 ∧ (none : Option NSString) = some firstImage) := fun both => nomatch both.2
      rw [listImages, if_pos (imageMatches_none i image), List.mapM_cons]
      simp only [if_neg other, ih]

theorem listImages_name {name : NSString} (other : name ≠ firstImage) (images : List LoadedImage)
    (i : Nat) : listImages (some name) i images =
      (chosen (some name) images).mapM LoadedImage.range := by
  rw [chosen, if_neg other]
  induction images generalizing i with
  | nil => rfl
  | cons image rest ih =>
      have last : ¬(i = 0 ∧ some name = some firstImage) := fun both => other (Option.some.inj both.2)
      rw [listImages, imageMatches_name other, List.filter_cons]
      by_cases named : NSString.stringWithUTF8String (basename image.path) = some name
      · rw [if_pos (decide_eq_true named), if_pos (decide_eq_true named), List.mapM_cons]
        simp only [if_neg last, ih]
      · rw [if_neg (mt decide_eq_true_eq.mp named), if_neg (mt decide_eq_true_eq.mp named), ih]

/-- The loop lists what its filter chooses, in order. -/
theorem listImages_eq (filter : Option NSString) (images : List LoadedImage) :
    listImages filter 0 images = (chosen filter images).mapM LoadedImage.range := by
  cases filter with
  | none => exact listImages_none images 0
  | some name =>
      by_cases first : name = firstImage
      · subst first
        cases images with
        | nil => rfl
        | cons image rest =>
            rw [listImages, if_pos (imageMatches_first image)]
            simp only [chosen, if_true, List.take_succ_cons, List.take_zero, List.mapM_cons,
              List.mapM_nil, and_self, pure_bind]
      · exact listImages_name first images 0

/-! ## The texts of an image -/

theorem Segment.vmEnd_lt (seg : Segment) {vmEnd : Nat} (small : vmEnd < 2 ^ 64) :
    seg.vmEnd vmEnd < 2 ^ 64 := by
  unfold Segment.vmEnd
  split
  · exact Nat.mod_lt _ (Nat.two_pow_pos 64)
  · exact small

theorem measure_lt (segs : List Segment) {state : Nat × Nat} (small : state.1 < 2 ^ 64) :
    (measure segs state).1 < 2 ^ 64 := by
  induction segs generalizing state with
  | nil => exact small
  | cons seg rest ih =>
      rw [measure]
      split
      · exact Nat.two_pow_pos 64
      · apply ih
        exact seg.vmEnd_lt small

theorem machoSize_lt {state : Nat × Nat} (small : state.1 < 2 ^ 64) : machoSize state < 2 ^ 64 := by
  obtain ⟨vmEnd, headerVaddr⟩ := state
  rw [machoSize]
  split
  · exact Nat.mod_lt _ (Nat.two_pow_pos 64)
  · exact small

/-- There always is a size. -/
theorem getMachoVMSize_lt (reads : MachoReads) :
    ∃ size, getMachoVMSize reads = some size ∧ size < 2 ^ 64 := by
  rw [MachoReads.getMachoVMSize_eq]
  cases reached : reads.walked with
  | none => exact ⟨0, rfl, Nat.two_pow_pos 64⟩
  | some walk =>
      obtain ⟨after, walked, measured, unlisted⟩ := walkCommands_eq walk.2 walk.1 0 (0, noHeader)
      refine ⟨machoSize after, by rw [Option.elim_some, walked, Option.map_some], ?_⟩
      apply machoSize_lt
      cases listed : segments walk.2 walk.1 0 with
      | none =>
          rw [unlisted listed]
          exact Nat.two_pow_pos 64
      | some segs =>
          rw [measured segs listed]
          apply measure_lt
          exact Nat.two_pow_pos 64

theorem parse_hexAddress {address : Nat} (small : address < 2 ^ 64) :
    (NSString.utf8String (some (.ofAscii (hexAddress address)))).bind (jjParseAddress · 16) =
      some address := by
  rw [utf8String_hexAddress, Option.bind_some]
  exact jjParseAddress_hexadecimal.mpr ⟨spells_hexDigits address, small⟩

theorem parseRange_hexAddress {start stop : Nat} (small : start < 2 ^ 64) (small' : stop < 2 ^ 64) :
    MemorySession.parseRange (some (.ofAscii (hexAddress start)))
        (some (.ofAscii (hexAddress stop))) =
      if stop ≤ start then none else some ⟨start, stop⟩ := by
  simp only [MemorySession.parseRange, parse_hexAddress small, parse_hexAddress small', bind,
    Option.bind_some]

/-- An image's texts are a range to search exactly where it has a size and ends in memory. -/
structure LoadedImage.Ranged (image : LoadedImage) (range : ModuleRange) : Prop where
  name : range.name.utf8 = some image.path
  start : range.start = hexAddress image.address
  searched : ∃ size, getMachoVMSize image.macho = some size ∧
    MemorySession.parseRange (some (.ofAscii range.start)) (some (.ofAscii range.stop)) =
      if 0 < size ∧ image.address + size < 2 ^ 64 then
        some ⟨image.address, image.address + size⟩
      else none

theorem LoadedImage.range_eq_none {image : LoadedImage} :
    image.range = none ↔ h5ggIsValidUTF8 .allow image.path = false := by
  obtain ⟨size, measured, -⟩ := getMachoVMSize_lt image.macho
  simp only [LoadedImage.range, measured, NSString.stringWithUTF8String, bind, Option.bind_some]
  split
  · rename_i valid
    simp [valid]
  · rename_i invalid
    simp [Bool.eq_false_iff.mpr invalid]

theorem mapM_range_eq_none (images : List LoadedImage) : images.mapM LoadedImage.range = none ↔
    ∃ image ∈ images, h5ggIsValidUTF8 .allow image.path = false := by
  simp only [← LoadedImage.range_eq_none]
  induction images with
  | nil => simp
  | cons image rest ih =>
      simp only [List.mapM_cons, List.mem_cons, exists_eq_or_imp, ← ih]
      cases image.range with
      | none => simp
      | some range => cases rest.mapM LoadedImage.range <;> simp

theorem LoadedImage.range_spec {image : LoadedImage} {range : ModuleRange}
    (made : image.range = some range) : image.Ranged range := by
  obtain ⟨size, measured, small⟩ := getMachoVMSize_lt image.macho
  have address := image.small
  simp only [LoadedImage.range, measured, NSString.stringWithUTF8String, bind, Option.bind_some,
    Option.bind_eq_some_iff, Option.ite_none_right_eq_some, pure] at made
  obtain ⟨name, ⟨-, named⟩, made⟩ := made
  cases named
  cases made
  have stop : (if size ≠ 0 then u64 (image.address + size) else 0) < 2 ^ 64 := by
    split
    · exact Nat.mod_lt _ (Nat.two_pow_pos 64)
    · exact Nat.two_pow_pos 64
  refine ⟨rfl, rfl, size, measured, ?_⟩
  rw [parseRange_hexAddress address stop]
  by_cases empty : size = 0
  · subst empty
    rfl
  · rw [if_pos empty]
    unfold u64
    by_cases inside : image.address + size < 2 ^ 64
    · rw [Nat.mod_eq_of_lt inside, if_neg (by omega), if_pos (by omega)]
    · rw [if_pos (by omega), if_neg (by omega)]

/-! ## `getRangesList:` -/

/-- The images that `getRangesList2` comes to walk over. -/
def TaskImages.images (task : TaskImages) : List LoadedImage :=
  if task.dyldInfo = false then []
  else
    match task.infoArrayCount, task.infoArray with
    | some count, some infos =>
        if (2 ^ 32 - 1) / imageInfoSize < count then []
        else (List.range count).map fun i => (infos i).image
    | _, _ => []

theorem getRangesList2_eq (task : TaskImages) (filter : Option NSString) :
    getRangesList2 task filter = (chosen filter task.images).mapM LoadedImage.range := by
  have nothing : (chosen filter []).mapM LoadedImage.range = some [] := by
    cases filter with
    | none => rfl
    | some name =>
        rw [chosen]
        split <;> rfl
  unfold getRangesList2 TaskImages.images
  by_cases refused : task.dyldInfo = false
  · rw [if_pos refused, if_pos refused, nothing]
  rw [if_neg refused, if_neg refused]
  cases task.infoArrayCount with
  | none => exact nothing.symm
  | some count =>
      cases task.infoArray with
      | none =>
          dsimp only
          rw [nothing]
          exact ite_self _
      | some infos =>
          dsimp only
          by_cases many : (2 ^ 32 - 1) / imageInfoSize < count
          · rw [if_pos many, if_pos many, nothing]
          · rw [if_neg many, if_neg many, listImages_eq]

/-- The list is of the chosen images in order, whoever they were asked of; it fails over a path that
is no text, and what it tells of an image is a range to search. -/
theorem getRangesList_exact (pid getpid : Int) (own : List LoadedImage) (task : TaskImages)
    (filter : Option NSString) :
    getRangesList pid getpid own task filter =
        (chosen filter (if pid ≠ getpid then task.images else own)).mapM LoadedImage.range ∧
      (∀ image : LoadedImage, image.range = none ↔ h5ggIsValidUTF8 .allow image.path = false) ∧
      ∀ (image : LoadedImage) (range : ModuleRange), image.range = some range →
        image.Ranged range := by
  refine ⟨?_, fun _ => LoadedImage.range_eq_none, fun _ _ => LoadedImage.range_spec⟩
  unfold getRangesList
  by_cases other : pid ≠ getpid
  · rw [if_pos other, if_pos other]
    exact getRangesList2_eq task filter
  · rw [if_neg other, if_neg other]
    exact listImages_eq filter own

end H5GG
