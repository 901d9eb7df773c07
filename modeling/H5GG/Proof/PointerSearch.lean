import H5GG.PointerSearch
import Mathlib.Algebra.Order.BigOperators.Group.List
import Mathlib.Algebra.Order.Group.Nat
import Mathlib.Data.List.Perm.Basic

/-!
# What a pointer search asks for and finds

The requests of a search determine its results: they are what the answers hold, in order, up to the
limit. Where the arithmetic is checked a search still has a result, so it never wraps.
-/

namespace H5GG.PointerSearch

/-! ### More arithmetic and more fuel change nothing -/

section
variable {first second : Arithmetic} {targetAddress rangeStart rangeEnd maxResults cursor : Nat}
  {bytes : Bytes} {reader : Nat → MemoryReader} {options : JJPointerSearchOptions}
  {chunkBytes scanEnd : Nat}

theorem alignPointerAddress_mono (larger : first.Extends second) (address : Nat) :
    LessDefined (alignPointerAddress first address) (alignPointerAddress second address) := by
  refine .bind (larger.sub _ _) fun limit => ?_
  refine .ite (.refl _) ?_
  exact .bind (larger.add _ _) fun sum => .refl _

theorem regionLimit_mono (larger : first.Extends second) (region : JJPointerSearchRegion) :
    LessDefined (regionLimit first region) (regionLimit second region) := by
  refine .bind (larger.sub _ _) fun room => ?_
  exact .ite (.refl _) (larger.add _ _)

theorem collectPointers_mono (larger : first.Extends second) (indices : List Nat)
    (search : PointerSearch) :
    LessDefined (collectPointers first targetAddress maxResults cursor bytes indices search)
      (collectPointers second targetAddress maxResults cursor bytes indices search) := by
  induction indices generalizing search with
  | nil => exact .refl _
  | cons index rest ih =>
      unfold collectPointers
      refine .bind (larger.mul _ _) fun offset => ?_
      refine .ite ?_ (ih _)
      refine .bind (larger.add _ _) fun address => ?_
      exact .ite (.refl _) (ih _)

theorem scanPointers_mono (larger : first.Extends second) {fuel more : Nat} (enough : fuel ≤ more)
    (cursor : Nat) (search : PointerSearch) :
    LessDefined
      (scanPointers first targetAddress reader options chunkBytes scanEnd fuel cursor search)
      (scanPointers second targetAddress reader options chunkBytes scanEnd more cursor search) := by
  induction fuel generalizing more cursor search with
  | zero => exact fun found result => absurd result.symm (Option.some_ne_none found)
  | succ fuel ih =>
      cases more with
      | zero => exact absurd enough (Nat.not_succ_le_zero fuel)
      | succ more =>
          unfold scanPointers
          refine .ite ?_ (.refl _)
          refine .bind (larger.sub _ _) fun available => ?_
          refine .bind (larger.sub _ _) fun budget => ?_
          refine .bind (larger.sub _ _) fun requestValue => ?_
          refine .ite (.refl _) ?_
          refine .bind (larger.add _ _) fun scannedBytes => ?_
          refine .bind (collectPointers_mono larger _ _) fun collected => ?_
          refine .ite (.refl _) ?_
          exact .bind (larger.add _ _) fun next => ih (Nat.succ_le_succ_iff.mp enough) next _

theorem searchRegions_mono (larger : first.Extends second) {fuel more : Nat}
    (enough : fuel ≤ more) (regions : List JJPointerSearchRegion) (search : PointerSearch) :
    LessDefined
      (searchRegions first targetAddress rangeStart rangeEnd reader options chunkBytes fuel regions
        search)
      (searchRegions second targetAddress rangeStart rangeEnd reader options chunkBytes more regions
        search) := by
  induction regions generalizing search with
  | nil => exact .refl _
  | cons region rest ih =>
      unfold searchRegions
      refine .ite (ih _) ?_
      refine .bind (regionLimit_mono larger region) fun regionEnd => ?_
      refine .ite (ih _) ?_
      refine .bind (alignPointerAddress_mono larger _) fun aligned => ?_
      cases aligned with
      | none => exact ih _
      | some cursor =>
          refine .bind (scanPointers_mono larger enough _ _) fun scanned => ?_
          exact .ite (.refl _) (ih _)

theorem jjFindExactPointers_mono (larger : first.Extends second) {fuel more : Nat}
    (enough : fuel ≤ more) {sorting : RegionSort} {regions : List JJPointerSearchRegion} :
    LessDefined
      (jjFindExactPointers first sorting fuel targetAddress rangeStart rangeEnd regions reader
        options)
      (jjFindExactPointers second sorting more targetAddress rangeStart rangeEnd regions reader
        options) := by
  unfold jjFindExactPointers
  refine .ite (.refl _) ?_
  refine .bind (larger.sub _ _) fun chunkBytes => ?_
  exact .ite (.refl _) (searchRegions_mono larger enough _ _)

end

/-! ### The answers hold the results -/

/-- The pointers to the target that the answer to one request holds. -/
def pointersIn (targetAddress cursor : Nat) (bytes : Bytes) (indices : List Nat) :
    List (Nat × Nat) :=
  (indices.filter fun index => Word.ofLittleEndian
    ((bytes.drop (index * pointerWidth)).take pointerWidth) = targetAddress).map
      fun index => (cursor + index * pointerWidth, targetAddress)

def answered (targetAddress : Nat) (reader : Nat → MemoryReader) (count : Nat)
    (request : Nat × Nat) : List (Nat × Nat) :=
  let bytes := (reader count).readBytes request.1 request.2
  pointersIn targetAddress request.1 bytes (List.range (bytes.length / pointerWidth))

/-- The pointers in the answers to all requests, in order. -/
def answers (targetAddress : Nat) (reader : Nat → MemoryReader) (requests : List (Nat × Nat)) :
    List (Nat × Nat) :=
  requests.zipIdx.flatMap fun request => answered targetAddress reader request.2 request.1

/-- The results of a search are the pointers in the answers to its requests, up to its limit. -/
structure Searched (targetAddress maxResults : Nat) (reader : Nat → MemoryReader)
    (search : PointerSearch) : Prop where
  results : search.results = (answers targetAddress reader search.requests).take maxResults
  full : search.full = true ↔ maxResults ≤ (answers targetAddress reader search.requests).length
  scanned : search.scannedBytes = (search.requests.map Prod.snd).sum

section
variable {targetAddress maxResults cursor : Nat} {bytes : Bytes} {reader : Nat → MemoryReader}
  {search : PointerSearch}

theorem answers_concat (requests : List (Nat × Nat)) (request : Nat × Nat) :
    answers targetAddress reader (requests ++ [request]) =
      answers targetAddress reader requests ++
        answered targetAddress reader requests.length request := by
  simp [answers, List.zipIdx_append]

theorem pointersIn_cons (index : Nat) (rest : List Nat) :
    pointersIn targetAddress cursor bytes (index :: rest) =
      if Word.ofLittleEndian ((bytes.drop (index * pointerWidth)).take pointerWidth) =
          targetAddress then
        (cursor + index * pointerWidth, targetAddress) ::
          pointersIn targetAddress cursor bytes rest
      else pointersIn targetAddress cursor bytes rest := by
  unfold pointersIn
  split
  · rw [List.filter_cons_of_pos (by simpa), List.map_cons]
  · rw [List.filter_cons_of_neg (by simpa)]

theorem collectPointers_eq (open' : search.full = false)
    (room : search.results.length < maxResults) {indices : List Nat}
    (fits : ∀ index ∈ indices, cursor + index * pointerWidth < 2 ^ 64) :
    collectPointers (.checked 64) targetAddress maxResults cursor bytes indices search =
      let found := search.results ++ pointersIn targetAddress cursor bytes indices
      some { search with results := found.take maxResults, full := maxResults ≤ found.length } := by
  induction indices generalizing search with
  | nil =>
      have whole : pointersIn targetAddress cursor bytes [] = [] := rfl
      simp only [collectPointers, whole, List.append_nil, List.take_of_length_le room.le,
        decide_eq_false (not_le.mpr room), ← open']
  | cons index rest ih =>
      obtain ⟨here, later⟩ := List.forall_mem_cons.mp fits
      rw [collectPointers, Arithmetic.checked_mul (by omega), pointersIn_cons]
      simp only [Option.bind_eq_bind, Option.bind_some]
      split
      · rename_i same
        rw [Arithmetic.checked_add here, Option.bind_some, same]
        have grown : search.results ++ (cursor + index * pointerWidth, targetAddress) ::
            pointersIn targetAddress cursor bytes rest =
              (search.results ++ [(cursor + index * pointerWidth, targetAddress)]) ++
                pointersIn targetAddress cursor bytes rest := by simp
        split
        · rename_i reached
          have exactly : maxResults =
              (search.results ++ [(cursor + index * pointerWidth, targetAddress)]).length := by
            rw [List.length_append, List.length_singleton] at reached ⊢
            omega
          have limit : maxResults ≤ (search.results ++ (cursor + index * pointerWidth,
              targetAddress) :: pointersIn targetAddress cursor bytes rest).length := by
            rw [grown, List.length_append]
            omega
          simp only [decide_eq_true limit]
          rw [grown, exactly, List.take_left' rfl]
          rfl
        · rename_i below
          have onward := @ih { search with
            results := search.results ++ [(cursor + index * pointerWidth, targetAddress)] }
            open' (not_le.mp below) later
          rw [onward, grown]
      · exact ih open' room later

/-- One more request adds what its answer holds. -/
theorem Searched.ask (searched : Searched targetAddress maxResults reader search)
    (open' : search.full = false) (cursor length : Nat) (fits : cursor + length < 2 ^ 64) :
    let bytes := (reader search.requests.length).readBytes cursor length
    ∃ found, collectPointers (.checked 64) targetAddress maxResults cursor bytes
        (List.range (bytes.length / pointerWidth))
        { search with
          requests := search.requests ++ [(cursor, length)]
          scannedBytes := search.scannedBytes + length } = some found ∧
      Searched targetAddress maxResults reader found ∧
      found.requests = search.requests ++ [(cursor, length)] ∧
      found.scannedBytes = search.scannedBytes + length := by
  intro bytes
  have below : (answers targetAddress reader search.requests).length < maxResults :=
    not_le.mp fun reached => absurd (searched.full.mpr reached) (Bool.eq_false_iff.mp open')
  have all := searched.results
  rw [List.take_of_length_le below.le] at all
  have inside : ∀ index ∈ List.range (bytes.length / pointerWidth),
      cursor + index * pointerWidth < 2 ^ 64 := by
    intro index member
    have bound : index < bytes.length / pointerWidth := List.mem_range.mp member
    have short : bytes.length ≤ length := MemoryReader.readBytes_length _ _ _
    have whole := Nat.div_mul_le_self bytes.length pointerWidth
    have := Nat.mul_le_mul_right pointerWidth bound.le
    omega
  have shape : search.results ++ pointersIn targetAddress cursor bytes
      (List.range (bytes.length / pointerWidth)) =
        answers targetAddress reader (search.requests ++ [(cursor, length)]) := by
    rw [answers_concat, all]
    rfl
  have room : search.results.length < maxResults := by rw [all]; exact below
  have collected := @collectPointers_eq targetAddress maxResults cursor bytes
    { search with
      requests := search.requests ++ [(cursor, length)]
      scannedBytes := search.scannedBytes + length } open' room _ inside
  refine ⟨_, collected, ⟨?_, ?_, ?_⟩, ?_, ?_⟩
  · simp only [shape]
  · simp only [shape, decide_eq_true_eq]
  · simp only [List.map_append, List.sum_append, searched.scanned]
    rfl
  · rfl
  · rfl

end

/-! ### The requests that one region takes -/

def wholeWords (n : Nat) : Nat := n - n % pointerWidth

theorem wholeWords_le (n : Nat) : wholeWords n ≤ n := Nat.sub_le _ _

theorem lt_wholeWords (n : Nat) : n < wholeWords n + 8 := by
  unfold wholeWords pointerWidth
  omega

theorem dvd_wholeWords (n : Nat) : 8 ∣ wholeWords n := Nat.dvd_sub_mod n

/-- Consecutive requests for whole words, up to `stop`. -/
inductive Chunks (stop : Nat) : Nat → List (Nat × Nat) → Prop
  | stop {cursor : Nat} : Chunks stop cursor []
  | next {cursor length : Nat} {rest : List (Nat × Nat)} (whole : 8 ∣ length)
      (positive : 0 < length) (inside : cursor + length ≤ stop)
      (later : Chunks stop (cursor + length) rest) : Chunks stop cursor ((cursor, length) :: rest)

/-- The request that the word at `address` is part of. -/
def requestAt (chunkBytes cursor stop address : Nat) : Nat × Nat :=
  let first := cursor + (address - cursor) / chunkBytes * chunkBytes
  (first, min chunkBytes (wholeWords (stop - first)))

structure Covers (chunkBytes cursor stop : Nat) (requests : List (Nat × Nat)) : Prop where
  sum : (requests.map Prod.snd).sum = wholeWords (stop - cursor)
  word : ∀ address, cursor ≤ address → 8 ∣ address - cursor → address + 8 ≤ stop →
    requestAt chunkBytes cursor stop address ∈ requests

section
variable {chunkBytes cursor stop : Nat}

theorem covers_nil (short : wholeWords (stop - cursor) = 0) : Covers chunkBytes cursor stop [] where
  sum := short.symm
  word address above _ inside := by
    have := lt_wholeWords (stop - cursor)
    omega

theorem covers_next (positive : 0 < chunkBytes) {length : Nat} {rest : List (Nat × Nat)}
    (shape : length = min chunkBytes (wholeWords (stop - cursor)))
    (whole : 8 ∣ length) (onward : Covers chunkBytes (cursor + length) stop rest) :
    Covers chunkBytes cursor stop ((cursor, length) :: rest) where
  sum := by
    have left : stop - (cursor + length) = stop - cursor - length := by omega
    have bound := wholeWords_le (stop - cursor)
    rw [List.map_cons, List.sum_cons, onward.sum, left]
    unfold wholeWords pointerWidth at *
    omega
  word address above multiple inside := by
    have fits := lt_wholeWords (stop - cursor)
    have lower := wholeWords_le (stop - cursor)
    rcases Nat.lt_or_ge address (cursor + length) with here | beyond
    · have first : (address - cursor) / chunkBytes = 0 := Nat.div_eq_of_lt (by omega)
      simp only [requestAt, first, Nat.zero_mul, Nat.add_zero, ← shape, List.mem_cons_self]
    · have units := dvd_wholeWords (stop - cursor)
      have full : length = chunkBytes := by omega
      have turn : (address - cursor) / chunkBytes =
          (address - (cursor + length)) / chunkBytes + 1 := by
        rw [full, ← Nat.sub_sub, Nat.div_eq_sub_div positive (by omega)]
      have later := onward.word address beyond (by omega) inside
      have same : requestAt chunkBytes cursor stop address =
          requestAt chunkBytes (cursor + length) stop address := by
        have first : cursor + (address - cursor) / chunkBytes * chunkBytes =
            cursor + length + (address - (cursor + length)) / chunkBytes * chunkBytes := by
          rw [turn, Nat.succ_mul, full]
          omega
        simp only [requestAt, first]
      exact same ▸ List.mem_cons_of_mem _ later

theorem wholeWords_min (whole : 8 ∣ chunkBytes) (available budget : Nat)
    (enough : wholeWords available ≤ budget) :
    wholeWords (min (min available chunkBytes) budget) =
      min chunkBytes (wholeWords available) := by
  obtain ⟨k, rfl⟩ := whole
  unfold wholeWords pointerWidth at *
  omega

end

/-- What `new` requests have made of a search. -/
structure Grown (targetAddress : Nat) (reader : Nat → MemoryReader)
    (options : JJPointerSearchOptions) (search found : PointerSearch) (new : List (Nat × Nat)) :
    Prop where
  searched : Searched targetAddress options.maxResults reader found
  requests : found.requests = search.requests ++ new
  scanned : found.scannedBytes = search.scannedBytes + (new.map Prod.snd).sum
  within : found.scannedBytes ≤ options.maxScannedBytes

section
variable {targetAddress cursor stop chunkBytes : Nat} {reader : Nat → MemoryReader}
  {options : JJPointerSearchOptions} {search found other : PointerSearch}
  {new newer : List (Nat × Nat)}

theorem Grown.refl (searched : Searched targetAddress options.maxResults reader search)
    (within : search.scannedBytes ≤ options.maxScannedBytes) :
    Grown targetAddress reader options search search [] :=
  ⟨searched, (List.append_nil _).symm, rfl, within⟩

theorem Grown.trans (before : Grown targetAddress reader options search found new)
    (after : Grown targetAddress reader options found other newer) :
    Grown targetAddress reader options search other (new ++ newer) where
  searched := after.searched
  requests := by rw [after.requests, before.requests, List.append_assoc]
  scanned := by
    rw [after.scanned, before.scanned, List.map_append, List.sum_append, Nat.add_assoc]
  within := after.within

/-- One turn of the loop: nothing wraps, and it asks for whole words. -/
theorem scanPointers_succ (bounded : stop < 2 ^ 64) (ahead : cursor < stop)
    (left : search.scannedBytes < options.maxScannedBytes) {length : Nat}
    (rounded : wholeWords (min (min (stop - cursor) chunkBytes)
      (options.maxScannedBytes - search.scannedBytes)) = length) (fuel : Nat) :
    scanPointers (.checked 64) targetAddress reader options chunkBytes stop (fuel + 1) cursor search =
      if length < pointerWidth then some search
      else
        let bytes := (reader search.requests.length).readBytes cursor length
        (collectPointers (.checked 64) targetAddress options.maxResults cursor bytes
          (List.range (bytes.length / pointerWidth))
          { search with
            requests := search.requests ++ [(cursor, length)]
            scannedBytes := search.scannedBytes + length }).bind fun asked =>
          if asked.full = true then some asked
          else scanPointers (.checked 64) targetAddress reader options chunkBytes stop fuel
            (cursor + length) asked := by
  have limit := options.bounded.2.1
  have below := wholeWords_le (min (min (stop - cursor) chunkBytes)
    (options.maxScannedBytes - search.scannedBytes))
  rw [rounded] at below
  have next : cursor + length < 2 ^ 64 := by omega
  have rounded' : min (min (stop - cursor) chunkBytes)
      (options.maxScannedBytes - search.scannedBytes) -
      min (min (stop - cursor) chunkBytes)
        (options.maxScannedBytes - search.scannedBytes) % pointerWidth = length := rounded
  rw [scanPointers, if_pos ⟨ahead, left⟩, Arithmetic.checked_sub ahead.le bounded,
    Arithmetic.checked_sub left.le limit]
  simp only [Option.bind_eq_bind, Option.bind_some]
  rw [Arithmetic.checked_sub (Nat.mod_le _ _) (by omega), Option.bind_some, rounded']
  split
  · rfl
  · rw [Arithmetic.checked_add (show search.scannedBytes + length < 2 ^ 64 by omega),
      Option.bind_some]
    simp only [Arithmetic.checked_add next, Option.bind_some]
    rfl

theorem scanPointers_spec (searched : Searched targetAddress options.maxResults reader search)
    (open' : search.full = false) (within : search.scannedBytes ≤ options.maxScannedBytes)
    (whole : 8 ∣ chunkBytes) (positive : 0 < chunkBytes) (bounded : stop < 2 ^ 64) {fuel : Nat}
    (enough : stop - cursor < 8 * fuel) :
    ∃ found new,
      scanPointers (.checked 64) targetAddress reader options chunkBytes stop fuel cursor search =
        some found ∧
      Grown targetAddress reader options search found new ∧ Chunks stop cursor new ∧
      (found.full = false → search.scannedBytes + wholeWords (stop - cursor) ≤
        options.maxScannedBytes → Covers chunkBytes cursor stop new) := by
  induction fuel generalizing cursor search with
  | zero => omega
  | succ fuel ih =>
      by_cases going : cursor < stop ∧ search.scannedBytes < options.maxScannedBytes
      · obtain ⟨ahead, left⟩ := going
        obtain ⟨length, rounded⟩ : ∃ length, wholeWords (min (min (stop - cursor) chunkBytes)
          (options.maxScannedBytes - search.scannedBytes)) = length := ⟨_, rfl⟩
        have below := rounded ▸ wholeWords_le (min (min (stop - cursor) chunkBytes)
          (options.maxScannedBytes - search.scannedBytes))
        have multiple := rounded ▸ dvd_wholeWords (min (min (stop - cursor) chunkBytes)
          (options.maxScannedBytes - search.scannedBytes))
        have exact' := rounded ▸ wholeWords_min whole (stop - cursor)
          (options.maxScannedBytes - search.scannedBytes)
        rw [scanPointers_succ bounded ahead left rounded fuel]
        by_cases short : length < pointerWidth
        · rw [if_pos short]
          refine ⟨search, [], rfl, .refl searched within, .stop, fun _ budget => covers_nil ?_⟩
          have none' := exact' (by omega)
          have units := dvd_wholeWords (stop - cursor)
          unfold pointerWidth at short
          omega
        · rw [if_neg short]
          unfold pointerWidth at short
          obtain ⟨asked, collected, searched', requests, scanned⟩ :=
            searched.ask open' cursor length (by omega)
          dsimp only
          rw [collected, Option.bind_some]
          have grown : Grown targetAddress reader options search asked [(cursor, length)] :=
            ⟨searched', requests, scanned, by omega⟩
          by_cases reached : asked.full = true
          · rw [if_pos reached]
            refine ⟨asked, _, rfl, grown, .next multiple (by omega) (by omega) .stop, ?_⟩
            intro open'
            exact absurd reached (Bool.eq_false_iff.mp open')
          · rw [if_neg reached]
            obtain ⟨found, new, result, onward, chunks, covered⟩ := @ih (cursor + length)
              asked searched' (Bool.eq_false_iff.mpr reached) grown.within (by omega)
            refine ⟨found, _, result, grown.trans onward,
              .next multiple (by omega) (by omega) chunks, fun open' budget => ?_⟩
            have shape := exact' (by omega)
            apply covers_next positive shape multiple
            apply covered open'
            have left : stop - (cursor + length) = stop - cursor - length := by omega
            rw [scanned, left]
            unfold wholeWords pointerWidth at *
            omega
      · rw [scanPointers, if_neg going]
        refine ⟨search, [], rfl, .refl searched within, .stop, fun _ budget => covers_nil ?_⟩
        have units := wholeWords_le (stop - cursor)
        omega

end

theorem chunks_placed {stop cursor : Nat} {requests : List (Nat × Nat)} (aligned : 8 ∣ cursor)
    (chunks : Chunks stop cursor requests) :
    ∀ request ∈ requests, 8 ∣ request.1 ∧ 8 ∣ request.2 ∧ 0 < request.2 ∧ cursor ≤ request.1 ∧
      request.1 + request.2 ≤ stop := by
  induction chunks with
  | stop => exact fun _ member => absurd member List.not_mem_nil
  | next whole positive inside later ih =>
      rw [List.forall_mem_cons]
      refine ⟨⟨aligned, whole, positive, le_rfl, inside⟩, fun request member => ?_⟩
      obtain ⟨first, second, nonempty, above, below⟩ := ih (Nat.dvd_add aligned whole) request member
      exact ⟨first, second, nonempty, (Nat.le_add_right _ _).trans above, below⟩

theorem chunks_start {stop cursor : Nat} {requests : List (Nat × Nat)}
    (chunks : Chunks stop cursor requests) : ∀ request ∈ requests, cursor ≤ request.1 := by
  induction chunks with
  | stop => exact fun _ member => absurd member List.not_mem_nil
  | next whole positive inside later ih =>
      rw [List.forall_mem_cons]
      exact ⟨le_rfl, fun request member => (Nat.le_add_right _ _).trans (ih request member)⟩

theorem chunks_apart {stop cursor : Nat} {requests : List (Nat × Nat)}
    (chunks : Chunks stop cursor requests) :
    requests.Pairwise fun earlier later => earlier.1 + earlier.2 ≤ later.1 := by
  induction chunks with
  | stop => exact .nil
  | next whole positive inside later ih =>
      exact List.pairwise_cons.mpr ⟨chunks_start later, ih⟩

/-! ### The requests of all regions -/

section
variable (rangeStart rangeEnd : Nat) (region : JJPointerSearchRegion)

/-- The first word of a region in the range. -/
def searchStart : Nat := wholeWords (max region.base rangeStart + 7)

def searchStop : Nat := min (region.base + region.size) rangeEnd

def wordBytes : Nat := wholeWords (searchStop rangeEnd region - searchStart rangeStart region)

/-- A request for whole words that lie inside the region and the range. -/
structure Placed (request : Nat × Nat) : Prop where
  aligned : 8 ∣ request.1
  whole : 8 ∣ request.2
  positive : 0 < request.2
  start : max region.base rangeStart ≤ request.1
  stop : request.1 + request.2 ≤ searchStop rangeEnd region

end

def regionBefore (left right : JJPointerSearchRegion) : Prop :=
  left.size = 0 ∨ right.size = 0 ∨ left.base + left.size ≤ right.base

section
variable {rangeStart rangeEnd : Nat} {region : JJPointerSearchRegion}

theorem searchStart_bounds (rangeStart : Nat) (region : JJPointerSearchRegion) :
    8 ∣ searchStart rangeStart region ∧
      max region.base rangeStart ≤ searchStart rangeStart region ∧
      searchStart rangeStart region < max region.base rangeStart + 8 := by
  refine ⟨dvd_wholeWords _, ?_, ?_⟩
  · have := lt_wholeWords (max region.base rangeStart + 7)
    unfold searchStart
    omega
  · have := wholeWords_le (max region.base rangeStart + 7)
    unfold searchStart
    omega

theorem alignPointerAddress_eq {address : Nat} (bounded : address < 2 ^ 64) :
    alignPointerAddress (.checked 64) address =
      some (if maximumAddress - 7 < address then none else some (wholeWords (address + 7))) := by
  have limit : (Arithmetic.checked 64).sub maximumAddress 7 = some (maximumAddress - 7) :=
    Arithmetic.checked_sub (by decide) (by decide)
  unfold alignPointerAddress pointerWidth
  simp only [Nat.add_one_sub_one, limit, Option.bind_eq_bind, Option.bind_some]
  split
  · rfl
  · rw [Arithmetic.checked_add (by unfold maximumAddress at *; omega)]
    rfl

theorem regionLimit_eq (region : JJPointerSearchRegion) :
    regionLimit (.checked 64) region = some (min (region.base + region.size) maximumAddress) := by
  obtain ⟨base, size⟩ := region.bounded
  unfold regionLimit
  rw [Arithmetic.checked_sub (by unfold maximumAddress; omega) (by decide)]
  simp only [Option.bind_eq_bind, Option.bind_some]
  split
  · rename_i room
    rw [min_eq_right (by omega)]
    rfl
  · rename_i room
    unfold maximumAddress at *
    rw [Arithmetic.checked_add (by omega), min_eq_left (by omega)]

/-- A region without a word in the range takes no request. -/
theorem wordBytes_eq_zero
    (short : searchStop rangeEnd region < searchStart rangeStart region + 8) :
    wordBytes rangeStart rangeEnd region = 0 := by
  unfold wordBytes wholeWords pointerWidth
  omega

theorem short_of_wordBytes (none' : wordBytes rangeStart rangeEnd region = 0) :
    searchStop rangeEnd region < searchStart rangeStart region + 8 := by
  have := lt_wholeWords (searchStop rangeEnd region - searchStart rangeStart region)
  unfold wordBytes at none'
  omega

end

/-- The requests of a search over some regions. -/
structure Swept (rangeStart rangeEnd : Nat) (regions : List JJPointerSearchRegion)
    (new : List (Nat × Nat)) : Prop where
  placed : ∀ request ∈ new, ∃ region ∈ regions, Placed rangeStart rangeEnd region request
  apart : regions.Pairwise regionBefore →
    new.Pairwise fun earlier later => earlier.1 + earlier.2 ≤ later.1

/-- The request around a word of a region is one of them. -/
def Complete (rangeStart rangeEnd chunkBytes : Nat) (regions : List JJPointerSearchRegion)
    (new : List (Nat × Nat)) : Prop :=
  ∀ region ∈ regions, ∀ address, 8 ∣ address → searchStart rangeStart region ≤ address →
    address + 8 ≤ searchStop rangeEnd region →
    requestAt chunkBytes (searchStart rangeStart region) (searchStop rangeEnd region) address ∈ new

section
variable {rangeStart rangeEnd chunkBytes : Nat} {region : JJPointerSearchRegion}
  {regions : List JJPointerSearchRegion} {new newer : List (Nat × Nat)}

theorem Swept.skip (swept : Swept rangeStart rangeEnd regions new) :
    Swept rangeStart rangeEnd (region :: regions) new where
  placed request member := by
    obtain ⟨other, listed, placed⟩ := swept.placed request member
    exact ⟨other, List.mem_cons_of_mem _ listed, placed⟩
  apart ordered := swept.apart (List.pairwise_cons.mp ordered).2

theorem Complete.skip (complete : Complete rangeStart rangeEnd chunkBytes regions new)
    (none' : wordBytes rangeStart rangeEnd region = 0) :
    Complete rangeStart rangeEnd chunkBytes (region :: regions) new := by
  have short := short_of_wordBytes none'
  refine List.forall_mem_cons.mpr ⟨fun address _ above inside => ?_, complete⟩
  omega

theorem complete_of_sum {requests : List (Nat × Nat)}
    (none' : (regions.map (wordBytes rangeStart rangeEnd)).sum = 0) :
    Complete rangeStart rangeEnd chunkBytes regions requests := by
  intro region listed address _ above inside
  have zero := List.sum_eq_zero_iff_forall_eq_nat.mp none' _ (List.mem_map_of_mem listed)
  have short := short_of_wordBytes zero
  omega

theorem chunks_swept (chunks : Chunks (searchStop rangeEnd region) (searchStart rangeStart region)
    new) : Swept rangeStart rangeEnd [region] new where
  placed request member := by
    obtain ⟨aligned, above, -⟩ := searchStart_bounds rangeStart region
    obtain ⟨first, whole, positive, start, stop⟩ := chunks_placed aligned chunks request member
    exact ⟨region, List.mem_singleton_self _, first, whole, positive, above.trans start, stop⟩
  apart _ := chunks_apart chunks

theorem Swept.append (here : Swept rangeStart rangeEnd [region] new)
    (later : Swept rangeStart rangeEnd regions newer) :
    Swept rangeStart rangeEnd (region :: regions) (new ++ newer) where
  placed := by
    rw [List.forall_mem_append]
    constructor
    · intro request member
      obtain ⟨other, listed, placed⟩ := here.placed request member
      exact ⟨other, List.mem_cons.mpr (.inl (List.mem_singleton.mp listed)), placed⟩
    · intro request member
      obtain ⟨other, listed, placed⟩ := later.placed request member
      exact ⟨other, List.mem_cons_of_mem _ listed, placed⟩
  apart ordered := by
    obtain ⟨before, ordered⟩ := List.pairwise_cons.mp ordered
    refine List.pairwise_append.mpr
      ⟨here.apart (List.pairwise_singleton _ _), later.apart ordered, ?_⟩
    intro first memberFirst second memberSecond
    obtain ⟨_, listed, placed⟩ := here.placed first memberFirst
    obtain ⟨other, inside, placed'⟩ := later.placed second memberSecond
    obtain rfl := List.mem_singleton.mp listed
    have stop := placed.stop
    have start := placed.start
    have positive := placed.positive
    have stop' := placed'.stop
    have start' := placed'.start
    have positive' := placed'.positive
    unfold searchStop at stop stop'
    rcases before other inside with empty | empty | gap <;> omega

end

section
variable {targetAddress rangeStart rangeEnd chunkBytes fuel : Nat} {reader : Nat → MemoryReader}
  {options : JJPointerSearchOptions}

/-- A region is passed over, or it is scanned from its first word to its end in the range. -/
theorem searchRegions_cons (bounded : rangeEnd < 2 ^ 64) (ordered : rangeStart < 2 ^ 64)
    (region : JJPointerSearchRegion) (rest : List JJPointerSearchRegion) (search : PointerSearch) :
    (searchStop rangeEnd region < searchStart rangeStart region + 8 ∧
      searchRegions (.checked 64) targetAddress rangeStart rangeEnd reader options chunkBytes fuel
          (region :: rest) search =
        searchRegions (.checked 64) targetAddress rangeStart rangeEnd reader options chunkBytes fuel
          rest search) ∨
    searchRegions (.checked 64) targetAddress rangeStart rangeEnd reader options chunkBytes fuel
        (region :: rest) search =
      (scanPointers (.checked 64) targetAddress reader options chunkBytes
        (searchStop rangeEnd region) fuel (searchStart rangeStart region) search).bind fun search =>
          if search.full = true ∨ options.maxScannedBytes ≤ search.scannedBytes then some search
          else searchRegions (.checked 64) targetAddress rangeStart rangeEnd reader options
            chunkBytes fuel rest search := by
  obtain ⟨aligned, above, close⟩ := searchStart_bounds rangeStart region
  obtain ⟨base, size⟩ := region.bounded
  have highest : maximumAddress = 2 ^ 64 - 1 := rfl
  rw [searchRegions]
  by_cases missed : region.size = 0 ∨ rangeEnd ≤ region.base
  · refine .inl ⟨?_, if_pos missed⟩
    unfold searchStop
    omega
  rw [if_neg missed, regionLimit_eq]
  simp only [Option.bind_eq_bind, Option.bind_some]
  by_cases early : min (region.base + region.size) maximumAddress ≤ rangeStart
  · refine .inl ⟨?_, if_pos early⟩
    unfold searchStop
    omega
  rw [if_neg early, alignPointerAddress_eq (by omega), Option.bind_some]
  by_cases high : maximumAddress - 7 < max region.base rangeStart
  · refine .inl ⟨?_, by rw [if_pos high]⟩
    unfold searchStop
    omega
  · have stop : min (min (region.base + region.size) maximumAddress) rangeEnd =
        searchStop rangeEnd region := by
      unfold searchStop
      omega
    rw [if_neg high, stop]
    exact .inr rfl

theorem searchRegions_spec {search : PointerSearch} {regions : List JJPointerSearchRegion}
    (searched : Searched targetAddress options.maxResults reader search)
    (open' : search.full = false) (within : search.scannedBytes ≤ options.maxScannedBytes)
    (whole : 8 ∣ chunkBytes) (positive : 0 < chunkBytes) (bounded : rangeEnd < 2 ^ 64)
    (ordered : rangeStart < 2 ^ 64) (enough : 2 ^ 64 ≤ 8 * fuel) :
    ∃ found new,
      searchRegions (.checked 64) targetAddress rangeStart rangeEnd reader options chunkBytes fuel
        regions search = some found ∧
      Grown targetAddress reader options search found new ∧
      Swept rangeStart rangeEnd regions new ∧
      (found.full = false → search.scannedBytes + (regions.map (wordBytes rangeStart rangeEnd)).sum ≤
        options.maxScannedBytes → Complete rangeStart rangeEnd chunkBytes regions new) := by
  induction regions generalizing search with
  | nil =>
      exact ⟨search, [], rfl, .refl searched within, ⟨by simp, fun _ => .nil⟩,
        fun _ _ region listed => absurd listed List.not_mem_nil⟩
  | cons region rest ih =>
      rcases @searchRegions_cons targetAddress rangeStart rangeEnd chunkBytes fuel reader options
        bounded ordered region rest search with ⟨short, skips⟩ | scans
      · obtain ⟨found, new, result, grown, swept, complete⟩ := ih searched open' within
        refine ⟨found, new, skips.trans result, grown, swept.skip, fun open' budget => ?_⟩
        have zero := wordBytes_eq_zero short
        rw [List.map_cons, List.sum_cons, zero, Nat.zero_add] at budget
        exact (complete open' budget).skip zero
      · obtain ⟨aligned, -, -⟩ := searchStart_bounds rangeStart region
        have top : searchStop rangeEnd region ≤ rangeEnd := Nat.min_le_right _ _
        obtain ⟨scanned, new, scan, grown, chunks, covered⟩ :=
          @scanPointers_spec targetAddress (searchStart rangeStart region)
            (searchStop rangeEnd region) chunkBytes reader options search searched open' within
            whole positive (by omega) fuel (by omega)
        rw [scan, Option.bind_some] at scans
        have here : scanned.full = false → search.scannedBytes +
            ((region :: rest).map (wordBytes rangeStart rangeEnd)).sum ≤ options.maxScannedBytes →
            Covers chunkBytes (searchStart rangeStart region) (searchStop rangeEnd region) new := by
          intro open' budget
          rw [List.map_cons, List.sum_cons] at budget
          exact covered open' (by unfold wordBytes at budget; omega)
        by_cases done : scanned.full = true ∨ options.maxScannedBytes ≤ scanned.scannedBytes
        · rw [if_pos done] at scans
          refine ⟨scanned, new, scans, grown, ?_, fun open' budget => ?_⟩
          · have nothing : Swept rangeStart rangeEnd rest [] := ⟨by simp, fun _ => .nil⟩
            simpa using (chunks_swept chunks).append nothing
          · have covers := here open' budget
            have spent := done.resolve_left (Bool.eq_false_iff.mp open')
            rw [grown.scanned, covers.sum] at spent
            rw [List.map_cons, List.sum_cons] at budget
            refine List.forall_mem_cons.mpr ⟨fun address multiple above inside => ?_, ?_⟩
            · exact covers.word address above (Nat.dvd_sub multiple aligned) inside
            · exact complete_of_sum (by unfold wordBytes at *; omega)
        · rw [if_neg done] at scans
          have still : scanned.full = false := Bool.eq_false_iff.mpr fun full => done (.inl full)
          obtain ⟨found, newer, result, onward, swept, complete⟩ :=
            ih grown.searched still grown.within
          refine ⟨found, new ++ newer, scans.trans result, grown.trans onward,
            (chunks_swept chunks).append swept, fun open' budget => ?_⟩
          have covers := here still budget
          have later := complete open' (by
            rw [grown.scanned, covers.sum]
            rw [List.map_cons, List.sum_cons] at budget
            unfold wordBytes at *
            omega)
          refine List.forall_mem_cons.mpr ⟨fun address multiple above inside => ?_, ?_⟩
          · exact List.mem_append_left _
              (covers.word address above (Nat.dvd_sub multiple aligned) inside)
          · intro other listed address multiple above inside
            exact List.mem_append_right _ (later other listed address multiple above inside)

end

/-! ### The whole search -/

def searchChunk (options : JJPointerSearchOptions) : Nat :=
  wholeWords (min options.chunkBytes maximumChunkBytes)

def regionsDisjoint (left right : JJPointerSearchRegion) : Prop :=
  ∀ address, left.base ≤ address → address < left.base + left.size →
    right.base ≤ address → address < right.base + right.size → False

section
variable {targetAddress rangeStart rangeEnd : Nat} {reader : Nat → MemoryReader}
  {options : JJPointerSearchOptions} {sorting : RegionSort} {regions : List JJPointerSearchRegion}

theorem sorted_before (disjoint : regions.Pairwise regionsDisjoint) :
    (sorting.sort regions).Pairwise regionBefore := by
  have apart : (sorting.sort regions).Pairwise regionsDisjoint :=
    ((sorting.perm regions).pairwise_iff fun apart address inLeft inLeft' inRight inRight' =>
      apart address inRight inRight' inLeft inLeft').mpr disjoint
  refine (List.pairwise_and_iff.mpr ⟨apart, sorting.ascending regions⟩).imp ?_
  intro left right both
  obtain ⟨apart, below⟩ := both
  by_contra overlap
  unfold regionBefore at overlap
  exact apart right.base below (by omega) le_rfl (by omega)

variable (targetAddress rangeStart rangeEnd reader options sorting regions) in
/-- A search ends and wraps nowhere, with the results that its requests were answered with. -/
theorem jjFindExactPointers_spec (ordered : rangeStart < 2 ^ 64) (bounded : rangeEnd < 2 ^ 64) :
    ∃ found, jjFindExactPointers (.checked 64) sorting (2 ^ 61) targetAddress rangeStart rangeEnd
        regions reader options = some found ∧
      found.results = (answers targetAddress reader found.requests).take options.maxResults ∧
      (found.requests.map Prod.snd).sum ≤ options.maxScannedBytes ∧
      Swept rangeStart rangeEnd (sorting.sort regions) found.requests ∧
      ((answers targetAddress reader found.requests).length < options.maxResults →
        8 ≤ options.chunkBytes →
        (regions.map (wordBytes rangeStart rangeEnd)).sum ≤ options.maxScannedBytes →
        Complete rangeStart rangeEnd (searchChunk options) (sorting.sort regions)
          found.requests) := by
  have total : ((sorting.sort regions).map (wordBytes rangeStart rangeEnd)).sum =
      (regions.map (wordBytes rangeStart rangeEnd)).sum :=
    ((sorting.perm regions).map _).sum_nat
  unfold jjFindExactPointers
  by_cases refused : rangeEnd ≤ rangeStart ∨ options.maxResults = 0 ∨
      options.maxScannedBytes < pointerWidth ∨ options.chunkBytes < pointerWidth
  · rw [if_pos refused]
    refine ⟨{}, rfl, (List.take_nil).symm, Nat.zero_le _, ⟨by simp, fun _ => .nil⟩, ?_⟩
    intro below wide budget region listed address multiple above inside
    obtain ⟨-, start, -⟩ := searchStart_bounds rangeStart region
    have top : searchStop rangeEnd region ≤ rangeEnd := Nat.min_le_right _ _
    have words : wordBytes rangeStart rangeEnd region ≤ options.maxScannedBytes := by
      have most := List.single_le_sum (by simp) _
        (List.mem_map_of_mem (f := wordBytes rangeStart rangeEnd) listed)
      omega
    have least := lt_wholeWords (searchStop rangeEnd region - searchStart rangeStart region)
    have unit := dvd_wholeWords (searchStop rangeEnd region - searchStart rangeStart region)
    unfold wordBytes at words
    unfold pointerWidth at refused
    omega
  · rw [if_neg refused]
    have wide : 8 ≤ min options.chunkBytes maximumChunkBytes := by
      unfold pointerWidth at refused
      unfold maximumChunkBytes
      omega
    have limit : min options.chunkBytes maximumChunkBytes < 2 ^ 64 := by
      have := options.bounded.2.2
      omega
    have positive : 0 < searchChunk options := by
      have := lt_wholeWords (min options.chunkBytes maximumChunkBytes)
      unfold searchChunk
      omega
    obtain ⟨found, new, result, grown, swept, complete⟩ :=
      @searchRegions_spec targetAddress rangeStart rangeEnd (searchChunk options) (2 ^ 61) reader
        options {} (sorting.sort regions) ⟨(List.take_nil).symm, by simp [answers]; omega, rfl⟩ rfl
        (Nat.zero_le _) (dvd_wholeWords _) positive bounded ordered (by decide)
    have same : new = found.requests := grown.requests.symm
    obtain rfl := same
    simp only [Arithmetic.checked_sub (Nat.mod_le _ _) limit, Option.bind_eq_bind,
      Option.bind_some]
    refine ⟨found, (if_neg positive.ne').trans result, grown.searched.results, ?_, swept, ?_⟩
    · have within := grown.within
      rwa [grown.searched.scanned] at within
    · intro below _ budget
      apply complete
      · exact Bool.eq_false_iff.mpr fun full => absurd (grown.searched.full.mp full) (not_le.mpr below)
      · rw [total]
        exact (Nat.zero_add _).le.trans budget

end

/-! ### What the answers hold -/

section
variable {targetAddress : Nat} {reader : Nat → MemoryReader} {requests : List (Nat × Nat)}

/-- The answer to request `count` holds the target at `address`. -/
def readsTarget (targetAddress : Nat) (reader : Nat → MemoryReader) (count : Nat)
    (request : Nat × Nat) (address : Nat) : Prop :=
  let bytes := (reader count).readBytes request.1 request.2
  request.1 ≤ address ∧ 8 ∣ address - request.1 ∧ address - request.1 + 8 ≤ bytes.length ∧
    Word.ofLittleEndian ((bytes.drop (address - request.1)).take 8) = targetAddress

theorem mem_answered {count : Nat} {request entry : Nat × Nat} :
    entry ∈ answered targetAddress reader count request ↔
      entry.2 = targetAddress ∧ readsTarget targetAddress reader count request entry.1 := by
  simp only [answered, pointersIn, List.mem_map, List.mem_filter, List.mem_range,
    decide_eq_true_eq, readsTarget]
  unfold pointerWidth
  constructor
  · rintro ⟨index, ⟨below, same⟩, rfl⟩
    have offset : request.1 + index * 8 - request.1 = index * 8 := by omega
    simp only [offset]
    exact ⟨trivial, Nat.le_add_right _ _, Nat.dvd_mul_left _ _, by omega, same⟩
  · rintro ⟨value, above, ⟨index, shape⟩, fits, same⟩
    have offset : index * 8 = entry.1 - request.1 := by omega
    refine ⟨index, ⟨by omega, by rw [offset]; exact same⟩, Prod.ext ?_ value.symm⟩
    dsimp only
    omega

theorem mem_answers {entry : Nat × Nat} :
    entry ∈ answers targetAddress reader requests ↔ entry.2 = targetAddress ∧
      ∃ count request, requests[count]? = some request ∧
        readsTarget targetAddress reader count request entry.1 := by
  simp only [answers, List.mem_flatMap, List.mem_zipIdx_iff_getElem?, mem_answered]
  constructor
  · rintro ⟨⟨request, count⟩, listed, value, reads⟩
    exact ⟨value, count, request, listed, reads⟩
  · rintro ⟨value, count, request, listed, reads⟩
    exact ⟨(request, count), listed, value, reads⟩

theorem readsTarget_fits {count : Nat} {request : Nat × Nat} {address : Nat}
    (reads : readsTarget targetAddress reader count request address) :
    address + 8 ≤ request.1 + request.2 := by
  obtain ⟨above, -, fits, -⟩ := reads
  have short := MemoryReader.readBytes_length (reader count) request.1 request.2
  omega

theorem answers_ascending
    (apart : requests.Pairwise fun earlier later => earlier.1 + earlier.2 ≤ later.1) :
    ((answers targetAddress reader requests).map Prod.fst).Pairwise (· < ·) := by
  rw [List.pairwise_map, answers, List.pairwise_flatMap]
  constructor
  · rintro ⟨request, count⟩ -
    rw [answered, pointersIn, List.pairwise_map]
    refine (List.pairwise_lt_range.filter _).imp ?_
    intro first second below
    have := Nat.mul_lt_mul_of_pos_right below (show 0 < pointerWidth by decide)
    dsimp only
    omega
  · have indexed : requests.zipIdx.Pairwise fun earlier later =>
        earlier.1.1 + earlier.1.2 ≤ later.1.1 := by
      rw [← List.pairwise_map (f := Prod.fst)
        (R := fun earlier later : Nat × Nat => earlier.1 + earlier.2 ≤ later.1),
        List.zipIdx_map_fst]
      exact apart
    refine indexed.imp ?_
    intro first second gap entry inFirst other inSecond
    have ends := readsTarget_fits (mem_answered.mp inFirst).2
    have starts := (mem_answered.mp inSecond).2.1
    omega

end

section
variable {targetAddress rangeStart rangeEnd : Nat} {sorting : RegionSort}
  {regions : List JJPointerSearchRegion} {reader : Nat → MemoryReader}
  {options : JJPointerSearchOptions}

/-- A result is an aligned word of a region in the range, read as the target. -/
theorem answers_placed {requests : List (Nat × Nat)} {entry : Nat × Nat}
    (swept : Swept rangeStart rangeEnd (sorting.sort regions) requests)
    (member : entry ∈ answers targetAddress reader requests) :
    8 ∣ entry.1 ∧ rangeStart ≤ entry.1 ∧ entry.1 + 8 ≤ rangeEnd ∧
      ∃ region ∈ regions, region.base ≤ entry.1 ∧ entry.1 + 8 ≤ region.base + region.size := by
  obtain ⟨-, count, request, listed, reads⟩ := mem_answers.mp member
  obtain ⟨region, inside, placed⟩ := swept.placed request (List.mem_of_getElem? listed)
  have fits := readsTarget_fits reads
  obtain ⟨above, multiple, -⟩ := reads
  have start := placed.start
  have stop := placed.stop
  unfold searchStop at stop
  have aligned : entry.1 = request.1 + (entry.1 - request.1) := by omega
  refine ⟨aligned ▸ Nat.dvd_add placed.aligned multiple, by omega, by omega, region,
    (sorting.perm regions).mem_iff.mp inside, by omega, by omega⟩

variable (targetAddress sorting regions reader options) in
theorem search_sound (ordered : rangeStart < 2 ^ 64) (bounded : rangeEnd < 2 ^ 64) :
    ∃ search,
      (∀ fuel, 2 ^ 61 ≤ fuel →
        jjFindExactPointers (.checked 64) sorting fuel targetAddress rangeStart rangeEnd regions
            reader options = some search ∧
          jjFindExactPointers (.wrapping 64) sorting fuel targetAddress rangeStart rangeEnd regions
            reader options = some search) ∧
      (∀ entry ∈ search.results, entry.2 = targetAddress ∧ 8 ∣ entry.1 ∧
        rangeStart ≤ entry.1 ∧ entry.1 + 8 ≤ rangeEnd ∧
        (∃ region ∈ regions, region.base ≤ entry.1 ∧ entry.1 + 8 ≤ region.base + region.size) ∧
        ∃ count request, search.requests[count]? = some request ∧
          readsTarget targetAddress reader count request entry.1) ∧
      (regions.Pairwise regionsDisjoint → (search.results.map Prod.fst).Pairwise (· < ·)) ∧
      search.results.length ≤ options.maxResults ∧
      (search.requests.map Prod.snd).sum ≤ options.maxScannedBytes := by
  obtain ⟨search, result, results, scanned, swept, -⟩ := jjFindExactPointers_spec targetAddress
    rangeStart rangeEnd reader options sorting regions ordered bounded
  refine ⟨search, fun fuel enough => ?_, fun entry member => ?_, fun disjoint => ?_, ?_, scanned⟩
  · exact ⟨jjFindExactPointers_mono (.refl _) enough _ result,
      jjFindExactPointers_mono (Arithmetic.checked_extends 64) enough _ result⟩
  · have kept := List.mem_of_mem_take (results ▸ member)
    obtain ⟨value, reads⟩ := mem_answers.mp kept
    obtain ⟨aligned, start, stop, inside⟩ := answers_placed swept kept
    exact ⟨value, aligned, start, stop, inside, reads⟩
  · rw [results]
    exact List.Pairwise.sublist ((List.take_sublist _ _).map _)
      (answers_ascending (swept.apart (sorted_before disjoint)))
  · rw [results]
    exact List.length_take_le _ _

end

/-! ### Memory with holes -/

/-- What a reader returns of a request that reaches into unreadable memory: the bytes in front, or,
like `vm_read_overwrite`, nothing. -/
inductive ReadMode
  | longestPrefix
  | allOrNothing
  deriving DecidableEq, Repr

def readablePrefix (memory : Nat → Option UInt8) : Nat → Nat → Nat
  | _, 0 => 0
  | address, length + 1 =>
      if (memory address).isSome then readablePrefix memory (address + 1) length + 1 else 0

def memoryReader (mode : ReadMode) (memory : Nat → Option UInt8) : MemoryReader where
  performRead address length :=
    let readable := readablePrefix memory address length
    (match mode with
      | .longestPrefix => readable
      | .allOrNothing => if readable = length then length else 0,
      fun i => (memory (address + i)).getD 0)

/-- All eight bytes are readable, and they are the pointer. -/
def holdsPointer (memory : Nat → Option UInt8) (targetAddress address : Nat) : Prop :=
  (∀ i < 8, (memory (address + i)).isSome) ∧
    Word.ofLittleEndian ((List.range 8).map fun i => (memory (address + i)).getD 0) = targetAddress

/-- What has to be readable for the word at `address` to be in the answer to a request. -/
def wordAnswered (mode : ReadMode) (memory : Nat → Option UInt8) (request : Nat × Nat)
    (address : Nat) : Prop :=
  match mode with
  | .longestPrefix => ∀ i, request.1 ≤ i → i < address + 8 → (memory i).isSome
  | .allOrNothing => ∀ i, request.1 ≤ i → i < request.1 + request.2 → (memory i).isSome

section
variable {mode : ReadMode} {memory : Nat → Option UInt8} {targetAddress : Nat}

theorem le_readablePrefix {address length n : Nat} :
    n ≤ readablePrefix memory address length ↔
      n ≤ length ∧ ∀ i < n, (memory (address + i)).isSome = true := by
  induction length generalizing address n with
  | zero =>
      rw [readablePrefix, Nat.le_zero]
      constructor
      · rintro rfl
        exact ⟨rfl, fun i below => absurd below (Nat.not_lt_zero i)⟩
      · exact fun shape => shape.1
  | succ length ih =>
      cases n with
      | zero => exact ⟨fun _ => ⟨Nat.zero_le _, fun i below => absurd below (Nat.not_lt_zero i)⟩,
          fun _ => Nat.zero_le _⟩
      | succ n =>
          unfold readablePrefix
          split
          · rename_i here
            have shift (i : Nat) : address + (i + 1) = address + 1 + i := by omega
            rw [Nat.succ_le_succ_iff, ih, Nat.succ_le_succ_iff]
            refine and_congr_right fun _ => ⟨fun later i below => ?_, fun all i below => ?_⟩
            · cases i with
              | zero => exact here
              | succ i =>
                  rw [shift]
                  exact later i (Nat.lt_of_succ_lt_succ below)
            · rw [← shift]
              exact all (i + 1) (Nat.succ_lt_succ below)
          · rename_i hole
            constructor
            · intro impossible
              exact absurd impossible (Nat.not_succ_le_zero n)
            · intro shape
              exact absurd (shape.2 0 (Nat.succ_pos n)) hole

theorem memoryReader_length (address length : Nat) (positive : 0 < length) :
    ((memoryReader mode memory).readBytes address length).length =
      match mode with
      | .longestPrefix => readablePrefix memory address length
      | .allOrNothing => if readablePrefix memory address length = length then length else 0 := by
  have short : readablePrefix memory address length ≤ length := (le_readablePrefix.mp le_rfl).1
  unfold MemoryReader.readBytes
  rw [if_neg positive.ne', List.length_map, List.length_range]
  cases mode with
  | longestPrefix => exact min_eq_left short
  | allOrNothing =>
      show min (if readablePrefix memory address length = length then length else 0) length = _
      split
      · exact min_self length
      · exact Nat.zero_min length

theorem readBytes_word {address length offset : Nat} (positive : 0 < length)
    (inside : offset + 8 ≤ ((memoryReader mode memory).readBytes address length).length) :
    (((memoryReader mode memory).readBytes address length).drop offset).take 8 =
      (List.range 8).map fun i => (memory (address + offset + i)).getD 0 := by
  apply List.ext_getElem
  · rw [List.length_take, List.length_drop, List.length_map, List.length_range]
    omega
  · intro i _ bound
    rw [List.length_map, List.length_range] at bound
    simp only [MemoryReader.readBytes, if_neg positive.ne', List.getElem_take, List.getElem_drop,
      List.getElem_map, List.getElem_range, memoryReader, Nat.add_assoc]

/-- The answer to a request holds the words that are readable as its mode asks. -/
theorem readsTarget_iff {count : Nat} {request : Nat × Nat} {address : Nat}
    (inside : address + 8 ≤ request.1 + request.2) :
    readsTarget targetAddress (fun _ => memoryReader mode memory) count request address ↔
      request.1 ≤ address ∧ 8 ∣ address - request.1 ∧ wordAnswered mode memory request address ∧
        holdsPointer memory targetAddress address := by
  unfold readsTarget
  refine and_congr_right fun above => and_congr_right fun multiple => ?_
  have positive : 0 < request.2 := by omega
  have back : request.1 + (address - request.1) = address := by omega
  have fits : address - request.1 + 8 ≤
      ((memoryReader mode memory).readBytes request.1 request.2).length ↔
        wordAnswered mode memory request address := by
    rw [memoryReader_length _ _ positive]
    cases mode with
    | longestPrefix =>
        show address - request.1 + 8 ≤ readablePrefix memory request.1 request.2 ↔ _
        rw [le_readablePrefix]
        constructor
        · intro shape i from' below
          have there : request.1 + (i - request.1) = i := by omega
          exact there ▸ shape.2 (i - request.1) (by omega)
        · intro all
          exact ⟨by omega, fun i below => all _ (Nat.le_add_right _ _) (by omega)⟩
    | allOrNothing =>
        show address - request.1 + 8 ≤ (if _ then _ else _) ↔ _
        have short := (@le_readablePrefix memory request.1 request.2 _).mp le_rfl
        constructor
        · intro answers i from' below
          split at answers
          · rename_i whole
            have there : request.1 + (i - request.1) = i := by omega
            exact there ▸ short.2 (i - request.1) (by omega)
          · omega
        · intro all
          have whole : request.2 ≤ readablePrefix memory request.1 request.2 :=
            le_readablePrefix.mpr
              ⟨le_rfl, fun i below => all _ (Nat.le_add_right _ _) (by omega)⟩
          rw [if_pos (le_antisymm short.1 whole)]
          omega
  rw [fits]
  constructor
  · rintro ⟨answered, same⟩
    have inAnswer := fits.mpr answered
    rw [readBytes_word positive inAnswer, back] at same
    refine ⟨answered, fun i below => ?_, same⟩
    cases mode with
    | longestPrefix => exact answered _ (by omega) (by omega)
    | allOrNothing => exact answered _ (by omega) (by omega)
  · rintro ⟨answered, -, same⟩
    refine ⟨answered, ?_⟩
    rw [readBytes_word positive (fits.mpr answered), back]
    exact same

end

theorem requestAt_holds {chunkBytes cursor stop address : Nat} (whole : 8 ∣ chunkBytes)
    (positive : 0 < chunkBytes) (above : cursor ≤ address) (multiple : 8 ∣ address - cursor)
    (inside : address + 8 ≤ stop) :
    (requestAt chunkBytes cursor stop address).1 ≤ address ∧
      8 ∣ address - (requestAt chunkBytes cursor stop address).1 ∧
      address + 8 ≤ (requestAt chunkBytes cursor stop address).1 +
        (requestAt chunkBytes cursor stop address).2 := by
  unfold requestAt
  dsimp only
  have split := Nat.div_add_mod' (address - cursor) chunkBytes
  have small := Nat.mod_lt (address - cursor) positive
  have unit : 8 ∣ (address - cursor) % chunkBytes := (Nat.dvd_mod_iff whole).mpr multiple
  generalize (address - cursor) / chunkBytes * chunkBytes = skipped at split ⊢
  generalize (address - cursor) % chunkBytes = offset at split small unit
  have words := lt_wholeWords (stop - (cursor + skipped))
  have units := dvd_wholeWords (stop - (cursor + skipped))
  omega

theorem eq_of_apart {requests : List (Nat × Nat)}
    (apart : requests.Pairwise fun earlier later => earlier.1 + earlier.2 ≤ later.1)
    {first second : Nat × Nat} {address : Nat} (memberFirst : first ∈ requests)
    (memberSecond : second ∈ requests) (startFirst : first.1 ≤ address)
    (stopFirst : address < first.1 + first.2) (startSecond : second.1 ≤ address)
    (stopSecond : address < second.1 + second.2) : first = second := by
  obtain ⟨i, inI, rfl⟩ := List.getElem_of_mem memberFirst
  obtain ⟨j, inJ, rfl⟩ := List.getElem_of_mem memberSecond
  rcases Nat.lt_trichotomy i j with below | rfl | above
  · have gap := List.pairwise_iff_getElem.mp apart i j inI inJ below
    omega
  · rfl
  · have gap := List.pairwise_iff_getElem.mp apart j i inJ inI above
    omega

section
variable {mode : ReadMode} {memory : Nat → Option UInt8} {targetAddress rangeStart rangeEnd : Nat}
  {sorting : RegionSort} {regions : List JJPointerSearchRegion} {options : JJPointerSearchOptions}

/-- The aligned addresses of the pointers to the target, in ascending order. -/
def FindsAll (memory : Nat → Option UInt8) (targetAddress rangeStart rangeEnd : Nat)
    (regions : List JJPointerSearchRegion) (results : List (Nat × Nat)) : Prop :=
  (results.map Prod.fst).Pairwise (· < ·) ∧ ∀ entry, entry ∈ results ↔
    entry.2 = targetAddress ∧ 8 ∣ entry.1 ∧ rangeStart ≤ entry.1 ∧ entry.1 + 8 ≤ rangeEnd ∧
      (∃ region ∈ regions, region.base ≤ entry.1 ∧ entry.1 + 8 ≤ region.base + region.size) ∧
      holdsPointer memory targetAddress entry.1

/-- A search finds all pointers exactly where what precedes a pointer in its request, or, for a
reader that returns all or nothing, all of its request, is readable. -/
theorem search_complete_iff (ordered : rangeStart < 2 ^ 64) (bounded : rangeEnd < 2 ^ 64)
    (disjoint : regions.Pairwise regionsDisjoint) (wide : 8 ≤ options.chunkBytes)
    (budget : (regions.map (wordBytes rangeStart rangeEnd)).sum ≤ options.maxScannedBytes) :
    ∃ search,
      (∀ fuel, 2 ^ 61 ≤ fuel →
        jjFindExactPointers (.wrapping 64) sorting fuel targetAddress rangeStart rangeEnd regions
          (fun _ => memoryReader mode memory) options = some search) ∧
      (search.results.length < options.maxResults →
        (FindsAll memory targetAddress rangeStart rangeEnd regions search.results ↔
          ∀ region ∈ regions, ∀ address, 8 ∣ address → searchStart rangeStart region ≤ address →
            address + 8 ≤ searchStop rangeEnd region → holdsPointer memory targetAddress address →
            wordAnswered mode memory (requestAt (searchChunk options)
              (searchStart rangeStart region) (searchStop rangeEnd region) address) address)) := by
  obtain ⟨search, result, results, -, swept, complete⟩ := jjFindExactPointers_spec targetAddress
    rangeStart rangeEnd (fun _ => memoryReader mode memory) options sorting regions ordered bounded
  refine ⟨search, fun fuel enough =>
    jjFindExactPointers_mono (Arithmetic.checked_extends 64) enough _ result, fun below => ?_⟩
  have short : (answers targetAddress (fun _ => memoryReader mode memory)
      search.requests).length < options.maxResults := by
    by_contra reached
    rw [results, List.length_take, min_eq_left (not_lt.mp reached)] at below
    exact absurd below (lt_irrefl _)
  rw [List.take_of_length_le short.le] at results
  have covered := complete short wide budget
  have apart := swept.apart (sorted_before disjoint)
  have chunkUnit : 8 ∣ searchChunk options := dvd_wholeWords _
  have chunkPositive : 0 < searchChunk options := by
    have := lt_wholeWords (min options.chunkBytes maximumChunkBytes)
    unfold searchChunk maximumChunkBytes at *
    omega
  constructor
  · rintro ⟨-, exactly⟩ region listed address aligned above inside holds
    obtain ⟨multiple, start, -⟩ := searchStart_bounds rangeStart region
    have expected := inside
    unfold searchStop at expected
    have found := (exactly (address, targetAddress)).mpr ⟨rfl, aligned, by omega, by omega,
      ⟨region, listed, by omega, by omega⟩, holds⟩
    rw [results, mem_answers] at found
    obtain ⟨-, count, request, here, reads⟩ := found
    have fits : address + 8 ≤ request.1 + request.2 := readsTarget_fits reads
    have answered := ((readsTarget_iff fits).mp reads).2.2.1
    have asked := covered region ((sorting.perm regions).mem_iff.mpr listed) address aligned above
      inside
    obtain ⟨startAt, -, stopAt⟩ := requestAt_holds chunkUnit chunkPositive above
      (Nat.dvd_sub aligned multiple) inside
    have same := eq_of_apart apart asked (List.mem_of_getElem? here) startAt (by omega) reads.1
      (by omega)
    exact same ▸ answered
  · intro answered
    refine ⟨results ▸ answers_ascending apart, fun entry => ⟨fun member => ?_, ?_⟩⟩
    · rw [results] at member
      obtain ⟨aligned, start, stop, inside⟩ := answers_placed swept member
      obtain ⟨value, count, request, -, reads⟩ := mem_answers.mp member
      exact ⟨value, aligned, start, stop, inside,
        ((readsTarget_iff (readsTarget_fits reads)).mp reads).2.2.2⟩
    · rintro ⟨value, aligned, start, stop, ⟨region, listed, base, limit⟩, holds⟩
      obtain ⟨multiple, -, close⟩ := searchStart_bounds rangeStart region
      have above : searchStart rangeStart region ≤ entry.1 := by omega
      have inside : entry.1 + 8 ≤ searchStop rangeEnd region := by
        unfold searchStop
        omega
      have asked := covered region ((sorting.perm regions).mem_iff.mpr listed) entry.1 aligned above
        inside
      obtain ⟨startAt, unit, stopAt⟩ := requestAt_holds chunkUnit chunkPositive above
        (Nat.dvd_sub aligned multiple) inside
      obtain ⟨count, here⟩ := List.mem_iff_getElem?.mp asked
      rw [results, mem_answers]
      exact ⟨value, count, _, here, (readsTarget_iff stopAt).mpr
        ⟨startAt, unit, answered region listed entry.1 aligned above inside holds, holds⟩⟩

end

def insertionSort : RegionSort where
  sort regions := regions.insertionSort fun left right => left.base ≤ right.base
  perm regions := List.perm_insertionSort _ regions
  ascending regions := by
    have total : Std.Total fun left right : JJPointerSearchRegion => left.base ≤ right.base :=
      ⟨fun left right => Nat.le_total left.base right.base⟩
    have trans : IsTrans JJPointerSearchRegion fun left right => left.base ≤ right.base :=
      ⟨fun _ _ _ => Nat.le_trans⟩
    exact List.pairwise_insertionSort _ regions

def topRegions : List JJPointerSearchRegion := [⟨2 ^ 64 - 16, 32, by decide⟩]

theorem search_sound_top : ∃ search,
    jjFindExactPointers (.wrapping 64) insertionSort (2 ^ 61) 1 (2 ^ 64 - 16) (2 ^ 64 - 1) topRegions
        (fun _ => ⟨fun _ length => (length + 1, fun _ => 0)⟩) {} = some search ∧
      search.results.length ≤ 4096 := by
  obtain ⟨search, runs, -, -, few, -⟩ := search_sound 1 insertionSort topRegions
    (fun _ => ⟨fun _ length => (length + 1, fun _ => 0)⟩) {}
    (show 2 ^ 64 - 16 < 2 ^ 64 by decide) (show 2 ^ 64 - 1 < 2 ^ 64 by decide)
  exact ⟨search, (runs _ le_rfl).2, few⟩

def wordRegions : List JJPointerSearchRegion := [⟨0x1000, 16, by decide⟩]

/-- Words that hold 1, unreadable from `0x1000` up to `hole`. -/
def holeMemory (hole address : Nat) : Option UInt8 :=
  if 0x1000 ≤ address ∧ address < hole then none
  else some (if address % 8 = 0 then 1 else 0)

def holeSearch (hole fuel : Nat) : Option PointerSearch :=
  jjFindExactPointers (.wrapping 64) insertionSort fuel 1 0x1000 0x1010 wordRegions
    (fun _ => memoryReader .longestPrefix (holeMemory hole)) { chunkBytes := 16 }

theorem holeSearch_mono (hole : Nat) : LessDefined (holeSearch hole 8) (holeSearch hole (2 ^ 61)) :=
  jjFindExactPointers_mono (.refl _) (by decide)

theorem search_complete_words : ∃ search,
    holeSearch 0x1000 (2 ^ 61) = some search ∧
      FindsAll (holeMemory 0x1000) 1 0x1000 0x1010 wordRegions search.results := by
  have readable (address : Nat) : (holeMemory 0x1000 address).isSome = true := by
    unfold holeMemory
    rw [if_neg (by omega)]
    rfl
  obtain ⟨search, runs, complete⟩ := @search_complete_iff .longestPrefix
    (holeMemory 0x1000) 1 0x1000 0x1010 insertionSort wordRegions { chunkBytes := 16 }
    (by decide) (by decide) (List.pairwise_singleton _ _) (by decide) (by decide)
  have same := holeSearch_mono 0x1000 ⟨[(0x1000, 1), (0x1008, 1)], [(0x1000, 16)], 16, false⟩
    (by decide)
  have result := Option.some.inj ((runs _ le_rfl).symm.trans same)
  refine ⟨search, runs _ le_rfl, (complete (by rw [result]; decide)).mpr ?_⟩
  intro region _ address _ _ _ _ i _ _
  exact readable i

/-- The second of two words is not found: the first one is unreadable and in the same request. -/
theorem search_not_complete : ∃ search,
    holeSearch 0x1008 (2 ^ 61) = some search ∧ search.results.length < 4096 ∧
      ¬ FindsAll (holeMemory 0x1008) 1 0x1000 0x1010 wordRegions search.results := by
  refine ⟨⟨[], [(0x1000, 16)], 16, false⟩, holeSearch_mono 0x1008 _ (by decide), by decide, ?_⟩
  rintro ⟨-, exactly⟩
  have expected := (exactly (0x1008, 1)).mpr ⟨rfl, by decide, by decide, by decide,
    ⟨⟨0x1000, 16, by decide⟩, by simp [wordRegions], by decide, by decide⟩, by decide, by decide⟩
  exact absurd expected List.not_mem_nil

end H5GG.PointerSearch
