import H5GG.MachO

/-!
# The size of an image against its segments

The walk is compared with the list of all segments, which is there if every load command fits into
the bytes that were read.
-/

namespace H5GG

/-! ### Reads -/

/-- A field of a buffer that has it. -/
def fieldAt (buffer : Bytes) (offset width : Nat) : Nat :=
  Word.ofLittleEndian ((buffer.drop offset).take width)

def segmentAt (commands : Bytes) (lc : Nat) : Segment where
  vmaddr := fieldAt commands (lc + 24) 8
  vmsize := fieldAt commands (lc + 32) 8
  fileoff := fieldAt commands (lc + 40) 8
  filesize := fieldAt commands (lc + 48) 8

section
variable {buffer commands : Bytes} {offset width lc : Nat}

theorem loadField_eq (inside : offset + width ≤ buffer.length) :
    loadField buffer offset width = some (fieldAt buffer offset width) :=
  if_pos inside

theorem loadSegment_eq (inside : lc + segmentCommandSize ≤ commands.length) :
    loadSegment commands lc = some (segmentAt commands lc) := by
  unfold segmentCommandSize at inside
  simp only [loadSegment, loadField_eq (show lc + 24 + 8 ≤ commands.length by omega),
    loadField_eq (show lc + 32 + 8 ≤ commands.length by omega),
    loadField_eq (show lc + 40 + 8 ≤ commands.length by omega),
    loadField_eq (show lc + 48 + 8 ≤ commands.length by omega), bind, Option.bind, segmentAt, pure]

theorem fieldAt_lt (buffer : Bytes) (offset width : Nat) : fieldAt buffer offset width < 256 ^ width := by
  apply (Word.ofLittleEndian_lt _).trans_le
  apply Nat.pow_le_pow_right (by decide)
  exact List.length_take_le _ _

theorem ofLittleEndian_eq_zero {bytes : Bytes} (zero : Word.ofLittleEndian bytes = 0) :
    ∀ byte ∈ bytes, byte = 0 := by
  induction bytes with
  | nil => simp
  | cons byte rest ih =>
      rw [Word.ofLittleEndian] at zero
      refine List.forall_mem_cons.mpr ⟨UInt8.toNat_inj.mp ?_, ih (by omega)⟩
      show byte.toNat = 0
      omega

theorem takeWhile_length_le {bytes : Bytes} {k : Nat} (zero : bytes[k]? = some 0) :
    (bytes.takeWhile (· ≠ 0)).length ≤ k := by
  induction bytes generalizing k with
  | nil => cases zero
  | cons byte rest ih =>
      rw [List.takeWhile_cons]
      split
      · rename_i nonzero
        cases k with
        | zero =>
            obtain rfl := Option.some.inj zero
            simp at nonzero
        | succ k => exact Nat.succ_le_succ (ih zero)
      · exact Nat.zero_le k

/-- A header segment's offset in the file is zero, so that its name ends in front of it at the latest. -/
theorem loadText_isSome (inside : lc + segmentCommandSize ≤ commands.length)
    (header : (segmentAt commands lc).isHeader = true) :
    ∃ text, loadText commands (lc + 8) = some text := by
  unfold segmentCommandSize at inside
  have zero : (segmentAt commands lc).fileoff = 0 := by
    simp only [Segment.isHeader, Bool.and_eq_true, decide_eq_true_eq] at header
    exact header.1
  have first : commands[lc + 40]? = some 0 := by
    rw [List.getElem?_eq_getElem (by omega)]
    congr 1
    apply ofLittleEndian_eq_zero zero
    apply List.mem_iff_getElem?.mpr
    refine ⟨0, ?_⟩
    rw [List.getElem?_take_of_lt (by decide), List.getElem?_drop, List.getElem?_eq_getElem]
  have short : ((commands.drop (lc + 8)).takeWhile (· ≠ 0)).length ≤ 32 := by
    apply takeWhile_length_le
    rw [List.getElem?_drop]
    exact first
  exact ⟨_, if_pos (by omega)⟩

end

/-! ### The segments -/

/-- The `LC_SEGMENT_64` commands, if all the load commands fit. -/
def segments (commands : Bytes) : Nat → Nat → Option (List Segment)
  | 0, _ => some []
  | remaining + 1, lc =>
      let cmdsize := fieldAt commands (lc + 4) 4
      if commands.length < lc + loadCommandSize ∨ cmdsize < loadCommandSize ∨
          commands.length < lc + cmdsize then none
      else if fieldAt commands lc 4 = LC_SEGMENT_64 then
        if cmdsize < segmentCommandSize then none
        else (segments commands remaining (lc + cmdsize)).map (segmentAt commands lc :: ·)
      else segments commands remaining (lc + cmdsize)

/-- What the walk makes of a list of segments. -/
def measure : List Segment → Nat × Nat → Nat × Nat
  | [], state => state
  | seg :: rest, (vmEnd, headerVaddr) =>
      if seg.isHeader && headerVaddr ≠ noHeader then (0, headerVaddr)
      else measure rest (seg.vmEnd vmEnd, if seg.isHeader then seg.vmaddr else headerVaddr)

/-- A command that ends the walk with no size. -/
def Malformed (commands : Bytes) (lc : Nat) : Prop :=
  commands.length < lc + loadCommandSize ∨ fieldAt commands (lc + 4) 4 < loadCommandSize ∨
    commands.length < lc + fieldAt commands (lc + 4) 4 ∨
    fieldAt commands lc 4 = LC_SEGMENT_64 ∧ fieldAt commands (lc + 4) 4 < segmentCommandSize

section
variable {commands : Bytes} {lc : Nat} (remaining vmEnd headerVaddr : Nat)

theorem walkCommands_malformed (malformed : Malformed commands lc) :
    walkCommands commands (remaining + 1) lc (vmEnd, headerVaddr) = some (0, headerVaddr) := by
  rw [walkCommands]
  by_cases short : commands.length < lc + loadCommandSize
  · rw [if_pos short]
  · have room : lc + 8 ≤ commands.length := Nat.le_of_not_lt short
    rw [if_neg short, loadField_eq (by omega), loadField_eq (by omega), Option.bind_eq_bind,
      Option.bind_some]
    split
    · rfl
    · rename_i fits
      simp only [Bool.or_eq_true, decide_eq_true_eq, not_or] at fits
      rcases malformed with absent | small | long | ⟨isSegment, small⟩
      · exact absurd absent short
      · exact absurd small fits.1
      · exact absurd long fits.2
      · rw [Option.bind_some, if_pos isSegment, if_pos small]

theorem segments_malformed (malformed : Malformed commands lc) :
    segments commands (remaining + 1) lc = none := by
  rw [segments]
  split
  · rfl
  · rename_i fits
    rcases malformed with absent | small | long | ⟨isSegment, small⟩
    · exact absurd (.inl absent) fits
    · exact absurd (.inr (.inl small)) fits
    · exact absurd (.inr (.inr long)) fits
    · rw [if_pos isSegment, if_pos small]

theorem segments_regular (regular : ¬Malformed commands lc) :
    segments commands (remaining + 1) lc =
      if fieldAt commands lc 4 = LC_SEGMENT_64 then
        (segments commands remaining (lc + fieldAt commands (lc + 4) 4)).map (segmentAt commands lc :: ·)
      else segments commands remaining (lc + fieldAt commands (lc + 4) 4) := by
  simp only [Malformed, not_or, not_and] at regular
  obtain ⟨room, some', fits, whole⟩ := regular
  rw [segments, if_neg (by simp only [not_or]; exact ⟨room, some', fits⟩)]
  split
  · rename_i isSegment
    rw [if_neg (whole isSegment)]
  · rfl

/-- A command that is no segment is passed over. The walk stops at a second header segment. -/
theorem walkCommands_regular (regular : ¬Malformed commands lc) :
    walkCommands commands (remaining + 1) lc (vmEnd, headerVaddr) =
      if fieldAt commands lc 4 = LC_SEGMENT_64 then
        if ((segmentAt commands lc).isHeader && headerVaddr ≠ noHeader) = true then
          some (0, headerVaddr)
        else walkCommands commands remaining (lc + fieldAt commands (lc + 4) 4)
          ((segmentAt commands lc).vmEnd vmEnd,
            if (segmentAt commands lc).isHeader then (segmentAt commands lc).vmaddr else headerVaddr)
      else walkCommands commands remaining (lc + fieldAt commands (lc + 4) 4) (vmEnd, headerVaddr) := by
  simp only [Malformed, not_or, not_and] at regular
  obtain ⟨room, some', fits, whole⟩ := regular
  have inside : lc + 8 ≤ commands.length := Nat.le_of_not_lt room
  rw [walkCommands, if_neg room, loadField_eq (by omega), loadField_eq (by omega),
    Option.bind_eq_bind, Option.bind_some, if_neg (by simp [some', fits]), Option.bind_some]
  by_cases isSegment : fieldAt commands lc 4 = LC_SEGMENT_64
  · have long := whole isSegment
    have segment : lc + segmentCommandSize ≤ commands.length := by omega
    rw [if_pos isSegment, if_pos isSegment, if_neg long, loadSegment_eq segment, Option.bind_eq_bind,
      Option.bind_some]
    by_cases header : (segmentAt commands lc).isHeader = true
    · by_cases second : headerVaddr ≠ noHeader
      · obtain ⟨text, named⟩ := loadText_isSome segment header
        rw [if_pos header, if_pos second, named, if_pos (by simp [header, second])]
        rfl
      · rw [if_pos header, if_neg second, if_neg (by simp [second]), if_pos header]
    · rw [if_neg header, if_neg (by simp [header]), if_neg header]
  · rw [if_neg isSegment, if_neg isSegment]

end

theorem walkCommands_eq (commands : Bytes) (remaining lc : Nat) (state : Nat × Nat) :
    ∃ after, walkCommands commands remaining lc state = some after ∧
      (∀ segs, segments commands remaining lc = some segs → after = measure segs state) ∧
      (segments commands remaining lc = none → after.1 = 0) := by
  induction remaining generalizing lc state with
  | zero =>
      refine ⟨state, rfl, ?_, ?_⟩
      · intro segs listed
        cases listed
        rfl
      · intro none
        cases none
  | succ remaining ih =>
      obtain ⟨vmEnd, headerVaddr⟩ := state
      by_cases malformed : Malformed commands lc
      · rw [walkCommands_malformed _ _ _ malformed, segments_malformed _ malformed]
        refine ⟨_, rfl, ?_, fun _ => rfl⟩
        intro segs listed
        cases listed
      · rw [walkCommands_regular _ _ _ malformed, segments_regular _ malformed]
        by_cases isSegment : fieldAt commands lc 4 = LC_SEGMENT_64
        · rw [if_pos isSegment, if_pos isSegment]
          by_cases second : ((segmentAt commands lc).isHeader && headerVaddr ≠ noHeader) = true
          · rw [if_pos second]
            refine ⟨_, rfl, ?_, fun _ => rfl⟩
            intro segs listed
            obtain ⟨rest, _, rfl⟩ := Option.map_eq_some_iff.mp listed
            rw [measure, if_pos second]
          · rw [if_neg second]
            obtain ⟨after, walked, measured, unlisted⟩ := ih _ _
            refine ⟨after, walked, ?_, ?_⟩
            · intro segs listed
              obtain ⟨rest, found, rfl⟩ := Option.map_eq_some_iff.mp listed
              rw [measure, if_neg second]
              exact measured rest found
            · intro none
              exact unlisted (Option.map_eq_none_iff.mp none)
        · rw [if_neg isSegment, if_neg isSegment]
          exact ih _ _

theorem segments_words {commands : Bytes} {remaining lc : Nat} {segs : List Segment}
    (listed : segments commands remaining lc = some segs) : ∀ seg ∈ segs, seg.vmaddr < 2 ^ 64 := by
  induction remaining generalizing lc segs with
  | zero =>
      cases listed
      simp
  | succ remaining ih =>
      rw [segments] at listed
      split at listed
      · cases listed
      · split at listed
        · split at listed
          · cases listed
          · obtain ⟨rest, found, rfl⟩ := Option.map_eq_some_iff.mp listed
            exact List.forall_mem_cons.mpr ⟨fieldAt_lt commands _ 8, ih found⟩
        · exact ih listed

/-! ### The value -/

/-- Where a segment ends; one without a size ends nowhere. -/
def Segment.endBy (wrap : Nat → Nat) (seg : Segment) : Nat :=
  if seg.vmsize = 0 then 0 else wrap (seg.vmaddr + seg.vmsize)

/-- The last end, with the sums as `wrap` leaves them. -/
def lastEnd (wrap : Nat → Nat) (segs : List Segment) : Nat :=
  (segs.map (Segment.endBy wrap)).foldr max 0

def headers (segs : List Segment) : List Segment := segs.filter Segment.isHeader

/-- The addresses of the header segments from the first on that is not taken for "none yet". -/
def knownHeaders (segs : List Segment) : List Nat :=
  ((headers segs).map Segment.vmaddr).dropWhile (· = noHeader)

theorem Segment.vmEnd_eq (seg : Segment) (vmEnd : Nat) :
    seg.vmEnd vmEnd = max vmEnd (seg.endBy u64) := by
  unfold Segment.vmEnd Segment.endBy
  by_cases empty : seg.vmsize = 0
  · simp [empty]
  · by_cases below : vmEnd < u64 (seg.vmaddr + seg.vmsize)
    · simp [empty, below, below.le]
    · simp [empty, below, Nat.le_of_not_lt below]

theorem measure_known {segs : List Segment} {vmEnd header : Nat} (known : header ≠ noHeader) :
    measure segs (vmEnd, header) =
      if headers segs = [] then (max vmEnd (lastEnd u64 segs), header) else (0, header) := by
  induction segs generalizing vmEnd with
  | nil => simp [measure, headers, lastEnd]
  | cons seg rest ih =>
      rw [measure]
      by_cases isHeader : seg.isHeader = true
      · simp [isHeader, known, headers]
      · rw [if_neg (by simp [isHeader]), if_neg isHeader, ih, seg.vmEnd_eq]
        simp [headers, isHeader, lastEnd, max_assoc]

/-- What the walk is left with: one header that is known gives way to the next. -/
def leftWith (vmEnd : Nat) : List Nat → Nat × Nat
  | [] => (vmEnd, noHeader)
  | [header] => (vmEnd, header)
  | header :: _ :: _ => (0, header)

theorem measure_eq (segs : List Segment) (vmEnd : Nat) : measure segs (vmEnd, noHeader) =
    leftWith (max vmEnd (lastEnd u64 segs)) (knownHeaders segs) := by
  induction segs generalizing vmEnd with
  | nil => simp [measure, knownHeaders, headers, lastEnd, leftWith]
  | cons seg rest ih =>
      have last : max (seg.vmEnd vmEnd) (lastEnd u64 rest) = max vmEnd (lastEnd u64 (seg :: rest)) := by
        rw [seg.vmEnd_eq]
        simp [lastEnd, max_assoc]
      rw [measure, if_neg (by simp)]
      by_cases isHeader : seg.isHeader = true
      · rw [if_pos isHeader]
        by_cases unknown : seg.vmaddr = noHeader
        · have same : knownHeaders (seg :: rest) = knownHeaders rest := by
            simp [knownHeaders, headers, isHeader, unknown]
          rw [unknown, ih, same, last]
        · have same : knownHeaders (seg :: rest) =
              seg.vmaddr :: (headers rest).map Segment.vmaddr := by
            simp [knownHeaders, headers, isHeader, unknown]
          rw [measure_known unknown, same, last]
          cases headers rest with
          | nil => rfl
          | cons other others => rfl
      · have same : knownHeaders (seg :: rest) = knownHeaders rest := by
          simp [knownHeaders, headers, isHeader]
        rw [if_neg isHeader, ih, same, last]

/-- One header segment at or below the last end, and the difference between the two. -/
def SizeOf (segs : List Segment) (value : Nat) : Prop :=
  ∃ header, headers segs = [header] ∧ header.vmaddr ≤ lastEnd id segs ∧
    value = lastEnd id segs - header.vmaddr

/-- When the walk gives up or comes to a size that is right: a second header, no end but `2 ^ 64`,
the header at the last end as the sums wrap, or one header from which the true last end is as far
as the one that is found. -/
def SoundSegments (segs : List Segment) : Prop :=
  2 ≤ (knownHeaders segs).length ∨ lastEnd u64 segs = 0 ∨ knownHeaders segs = [lastEnd u64 segs] ∨
    ∃ header, headers segs = [header] ∧ header.vmaddr ≤ lastEnd id segs ∧
      if header.vmaddr = noHeader then lastEnd u64 segs = lastEnd id segs - header.vmaddr
      else lastEnd id segs - header.vmaddr < 2 ^ 64 ∧ lastEnd u64 segs = lastEnd id segs % 2 ^ 64

theorem lastEnd_lt (segs : List Segment) : lastEnd u64 segs < 2 ^ 64 := by
  induction segs with
  | nil => exact Nat.two_pow_pos 64
  | cons seg rest ih =>
      have below : seg.endBy u64 < 2 ^ 64 := by
        unfold Segment.endBy u64
        split <;> omega
      exact max_lt below ih

theorem knownHeaders_of_one {segs : List Segment} {header : Segment} (one : headers segs = [header]) :
    knownHeaders segs = if header.vmaddr = noHeader then [] else [header.vmaddr] := by
  unfold knownHeaders
  rw [one]
  by_cases unknown : header.vmaddr = noHeader
  · simp [unknown]
  · simp [unknown]

theorem mem_knownHeaders {segs : List Segment} {header : Nat} {rest : List Nat}
    (known : knownHeaders segs = header :: rest) :
    header ≠ noHeader ∧ ∃ seg ∈ segs, seg.vmaddr = header := by
  constructor
  · intro unknown
    have first := List.head?_dropWhile_not (fun h : Nat => decide (h = noHeader))
      ((headers segs).map Segment.vmaddr)
    rw [← knownHeaders, known] at first
    simp [unknown] at first
  · have member : header ∈ knownHeaders segs := by simp [known]
    obtain ⟨seg, inside, same⟩ := List.mem_map.mp ((List.dropWhile_sublist _).subset member)
    exact ⟨seg, (List.mem_filter.mp inside).1, same⟩

section
variable {segs : List Segment} {seg : Segment}

theorem machoSize_unknown (shape : knownHeaders segs = []) :
    (machoSize (measure segs (0, noHeader)) = 0 ∨ SizeOf segs (machoSize (measure segs (0, noHeader)))) ↔
      SoundSegments segs := by
  have value : machoSize (measure segs (0, noHeader)) = lastEnd u64 segs := by
    rw [measure_eq, shape]
    simp [leftWith, machoSize]
  have unknown (header : Segment) (one : headers segs = [header]) : header.vmaddr = noHeader := by
    rw [knownHeaders_of_one one] at shape
    by_contra known
    simp [known] at shape
  rw [value, SoundSegments, shape]
  constructor
  · rintro (zero | ⟨header, one, low, same⟩)
    · exact .inr (.inl zero)
    · refine .inr (.inr (.inr ⟨header, one, low, ?_⟩))
      rwa [if_pos (unknown header one)]
  · rintro (two | zero | same | ⟨header, one, low, same⟩)
    · simp at two
    · exact .inl zero
    · cases same
    · rw [if_pos (unknown header one)] at same
      exact .inr ⟨header, one, low, same⟩

theorem machoSize_known (shape : knownHeaders segs = [seg.vmaddr]) (known : seg.vmaddr ≠ noHeader)
    (word : seg.vmaddr < 2 ^ 64) :
    (machoSize (measure segs (0, noHeader)) = 0 ∨ SizeOf segs (machoSize (measure segs (0, noHeader)))) ↔
      SoundSegments segs := by
  have below := lastEnd_lt segs
  have value : machoSize (measure segs (0, noHeader)) =
      if lastEnd u64 segs = 0 then 0 else (2 ^ 64 + lastEnd u64 segs - seg.vmaddr) % 2 ^ 64 := by
    rw [measure_eq, shape, Nat.zero_max]
    by_cases zero : lastEnd u64 segs = 0
    · simp [leftWith, machoSize, zero]
    · simp [leftWith, machoSize, zero, known]
  have same (header : Segment) (one : headers segs = [header]) : header.vmaddr = seg.vmaddr := by
    rw [knownHeaders_of_one one] at shape
    split at shape
    · cases shape
    · exact (List.cons.inj shape).1
  rw [value, SoundSegments, shape]
  unfold SizeOf
  generalize lastEnd u64 segs = found at below
  generalize lastEnd id segs = last
  constructor
  · rintro (zero | ⟨header, one, low, size⟩)
    · split at zero
      · rename_i none
        exact .inr (.inl none)
      · refine .inr (.inr (.inl ?_))
        congr 1
        omega
    · split at size
      · rename_i none
        exact .inr (.inl none)
      · refine .inr (.inr (.inr ⟨header, one, low, ?_⟩))
        rw [same header one] at low size ⊢
        rw [if_neg known]
        omega
  · rintro (two | zero | there | ⟨header, one, low, size⟩)
    · simp at two
    · exact .inl (if_pos zero)
    · obtain ⟨rfl, _⟩ := List.cons.inj there
      left
      split <;> omega
    · rw [same header one] at low size
      rw [if_neg known] at size
      by_cases zero : found = 0
      · exact .inl (if_pos zero)
      · refine .inr ⟨header, one, ?_⟩
        rw [if_neg zero, same header one]
        omega

theorem machoSize_measure_iff (words : ∀ seg ∈ segs, seg.vmaddr < 2 ^ 64) :
    (machoSize (measure segs (0, noHeader)) = 0 ∨ SizeOf segs (machoSize (measure segs (0, noHeader)))) ↔
      SoundSegments segs := by
  cases shape : knownHeaders segs with
  | nil => exact machoSize_unknown shape
  | cons header more =>
      obtain ⟨known, seg, member, rfl⟩ := mem_knownHeaders shape
      cases more with
      | nil => exact machoSize_known shape known (words seg member)
      | cons second more =>
          have value : machoSize (measure segs (0, noHeader)) = 0 := by
            rw [measure_eq, shape]
            simp [leftWith, machoSize]
          rw [value, SoundSegments, shape]
          exact iff_of_true (.inl rfl) (.inl (by simp))

end

/-! ### The whole function -/

namespace MachoReads

/-- The number of load commands and their bytes, if it comes to the walk. -/
def walked (reads : MachoReads) : Option (Nat × Bytes) :=
  match reads.header, reads.commands with
  | some header, some commands =>
      if reads.vnode && reads.allocated && header.length = machHeaderSize &&
          loadCommandSize ≤ fieldAt header 20 4 then
        some (fieldAt header 16 4, commands)
      else none
  | _, _ => none

/-- The value is zero, or the distance from the one header segment to the last end. -/
def Exact (reads : MachoReads) (value : Nat) : Prop :=
  value = 0 ∨ ∃ ncmds commands segs, reads.walked = some (ncmds, commands) ∧
    segments commands ncmds 0 = some segs ∧ SizeOf segs value

def Sound (reads : MachoReads) : Prop :=
  ∀ ncmds commands segs, reads.walked = some (ncmds, commands) →
    segments commands ncmds 0 = some segs → SoundSegments segs

theorem getMachoVMSize_eq (reads : MachoReads) : getMachoVMSize reads =
    reads.walked.elim (some 0) fun walk =>
      (walkCommands walk.2 walk.1 0 (0, noHeader)).map machoSize := by
  unfold getMachoVMSize walked
  obtain ⟨vnode, header, allocated, commands⟩ := reads
  cases vnode with
  | false => cases header <;> cases commands <;> rfl
  | true =>
      cases header with
      | none => rfl
      | some header =>
          by_cases whole : header.length = machHeaderSize
          · have length : header.length = 32 := whole
            simp only [whole, loadField_eq (show 16 + 4 ≤ header.length by omega),
              loadField_eq (show 20 + 4 ≤ header.length by omega), Bool.true_eq_false, ↓reduceIte, ne_eq,
              not_true_eq_false, Option.bind_eq_bind, Option.bind_some, Bool.true_and]
            by_cases small : fieldAt header 20 4 < loadCommandSize
            · have : ¬loadCommandSize ≤ fieldAt header 20 4 := Nat.not_le.mpr small
              cases commands <;> simp [small, this]
            · have : loadCommandSize ≤ fieldAt header 20 4 := Nat.le_of_not_lt small
              cases allocated <;> cases commands <;> simp [whole, small, this]
          · cases commands <;> simp [whole]

/-- The walk ends without a read behind the bytes, and with a size that is zero or right exactly
where it is sound. -/
theorem getMachoVMSize_exact_iff (reads : MachoReads) : ∃ value,
    getMachoVMSize reads = some value ∧ (reads.Exact value ↔ reads.Sound) := by
  rw [getMachoVMSize_eq]
  unfold Exact Sound
  cases reached : reads.walked with
  | none =>
      refine ⟨0, rfl, iff_of_true (.inl rfl) ?_⟩
      intro ncmds commands segs walked
      cases walked
  | some walk =>
      obtain ⟨ncmds, commands⟩ := walk
      obtain ⟨after, walked, measured, unlisted⟩ := walkCommands_eq commands ncmds 0 (0, noHeader)
      refine ⟨machoSize after, by simp [walked], ?_⟩
      cases listed : segments commands ncmds 0 with
      | none =>
          have zero : machoSize after = 0 := by
            have := unlisted listed
            simp [machoSize, this]
          rw [zero]
          refine iff_of_true (.inl rfl) ?_
          intro ncmds' commands' segs same there
          cases same
          rw [listed] at there
          cases there
      | some segs =>
          obtain rfl := measured segs listed
          have sizes := machoSize_measure_iff (segments_words listed)
          constructor
          · intro exact ncmds' commands' segs' same there
            cases same
            rw [listed] at there
            cases there
            apply sizes.mp
            rcases exact with zero | ⟨ncmds', commands', segs', same, there, size⟩
            · exact .inl zero
            · cases same
              rw [listed] at there
              cases there
              exact .inr size
          · intro sound
            rcases sizes.mpr (sound ncmds commands segs rfl listed) with zero | size
            · exact .inl zero
            · exact .inr ⟨ncmds, commands, segs, rfl, listed, size⟩

end MachoReads

/-! ### A header that is wrong -/

def segmentBytes (seg : Segment) : Bytes :=
  Word.toLittleEndian 4 LC_SEGMENT_64 ++ Word.toLittleEndian 4 segmentCommandSize ++
    List.replicate 16 0 ++ Word.toLittleEndian 8 seg.vmaddr ++ Word.toLittleEndian 8 seg.vmsize ++
    Word.toLittleEndian 8 seg.fileoff ++ Word.toLittleEndian 8 seg.filesize ++ List.replicate 16 0

/-- Two load commands of 144 bytes in all. -/
def machHeaderBytes : Bytes :=
  List.replicate 16 0 ++ Word.toLittleEndian 4 2 ++ Word.toLittleEndian 4 144 ++ List.replicate 8 0

/-- The header segment lies above the end of the only segment with a size. -/
def headerAbove : MachoReads where
  vnode := true
  header := some machHeaderBytes
  allocated := true
  commands := some (segmentBytes ⟨0x200000000, 0, 0, 0x4000⟩ ++
    segmentBytes ⟨0x100000000, 0x4000, 0x4000, 0x4000⟩)

def headerAboveSegments : List Segment :=
  [⟨0x200000000, 0, 0, 0x4000⟩, ⟨0x100000000, 0x4000, 0x4000, 0x4000⟩]

theorem headerAbove_segments : ∀ walk ∈ headerAbove.walked,
    segments walk.2 walk.1 0 = some headerAboveSegments := by
  decide +kernel

theorem headerAbove_size : getMachoVMSize headerAbove = some (2 ^ 64 - 0xFFFFC000) := by
  decide +kernel

theorem headerAbove_wrong : ¬∀ reads : MachoReads, ∃ value,
    getMachoVMSize reads = some value ∧ reads.Exact value := by
  intro claim
  obtain ⟨value, size, exact⟩ := claim headerAbove
  rw [headerAbove_size] at size
  obtain rfl := Option.some.inj size
  rcases exact with zero | ⟨ncmds, commands, segs, walked, listed, header, one, low, _⟩
  · exact absurd zero (by decide)
  · rw [headerAbove_segments (ncmds, commands) walked] at listed
    obtain rfl := Option.some.inj listed
    obtain rfl := (List.cons.inj one).1
    exact absurd low (by decide)

end H5GG
