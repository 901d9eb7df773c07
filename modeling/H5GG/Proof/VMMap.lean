import H5GG.VMMap
import H5GG.Proof.Engine.Exact

/-!
# What the enumeration of regions comes to
-/

namespace H5GG
namespace VMEntry

/-- Within an entry, and each region not empty. -/
structure Inside (depth low high : Nat) (info : RegionInfo) : Prop where
  base : low ≤ info.base
  stop : info.stop ≤ high
  depth : depth ≤ info.depth
  size : info.isSubmap = false → 0 < info.size

theorem Inside.weaken {depth low high depth' low' high' : Nat} {info : RegionInfo}
    (inside : Inside depth low high info) (deeper : depth' ≤ depth) (lower : low' ≤ low)
    (higher : high ≤ high') : Inside depth' low' high' info :=
  ⟨Nat.le_trans lower inside.base, Nat.le_trans inside.stop higher,
    Nat.le_trans deeper inside.depth, inside.size⟩

mutual

theorem nodes_inside : ∀ (depth : Nat) (entry : VMEntry), entry.Sound →
    ∀ info ∈ nodes depth entry, Inside depth entry.base entry.stop info
  | depth, region base size writable, sound, info, among => by
      rw [nodes, List.mem_singleton] at among
      subst among
      exact ⟨Nat.le_refl _, Nat.le_refl _, Nat.le_refl _, fun _ => sound⟩
  | depth, submap base size entries, sound, info, among => by
      rw [nodes, List.mem_cons] at among
      rcases among with rfl | below
      · exact ⟨Nat.le_refl _, Nat.le_refl _, Nat.le_refl _, nofun⟩
      · obtain ⟨entry, listed, inside⟩ := nodesList_inside (depth + 1) entries sound.1 info below
        obtain ⟨lower, higher⟩ := sound.2 entry listed
        exact inside.weaken (Nat.le_succ depth) lower higher

theorem nodesList_inside : ∀ (depth : Nat) (entries : List VMEntry), SoundList entries →
    ∀ info ∈ nodesList depth entries,
      ∃ entry ∈ entries, Inside depth entry.base entry.stop info
  | depth, [], _, info, among => by cases among
  | depth, entry :: rest, sound, info, among => by
      rw [nodesList, List.mem_append] at among
      rcases among with first | later
      · exact ⟨entry, .head rest, nodes_inside depth entry sound.1 info first⟩
      · obtain ⟨other, listed, inside⟩ := nodesList_inside depth rest sound.2.2 info later
        exact ⟨other, .tail entry listed, inside⟩

end

/-- In address order: one ends before the other, or holds it as a submap. -/
def Before (first second : RegionInfo) : Prop :=
  first.stop ≤ second.base ∨ first.isSubmap = true ∧ first.depth < second.depth ∧
    first.base ≤ second.base ∧ second.stop ≤ first.stop

mutual

theorem nodes_ordered : ∀ (depth : Nat) (entry : VMEntry), entry.Sound →
    (nodes depth entry).Pairwise Before
  | depth, region base size writable, sound => List.pairwise_singleton _ _
  | depth, submap base size entries, sound => by
      rw [nodes, List.pairwise_cons]
      refine ⟨fun info below => ?_, nodesList_ordered (depth + 1) entries sound.1⟩
      obtain ⟨entry, listed, inside⟩ := nodesList_inside (depth + 1) entries sound.1 info below
      obtain ⟨lower, higher⟩ := sound.2 entry listed
      exact .inr ⟨rfl, inside.depth, Nat.le_trans lower inside.base, Nat.le_trans inside.stop higher⟩

theorem nodesList_ordered : ∀ (depth : Nat) (entries : List VMEntry), SoundList entries →
    (nodesList depth entries).Pairwise Before
  | depth, [], _ => List.Pairwise.nil
  | depth, entry :: rest, sound => by
      rw [nodesList, List.pairwise_append]
      refine ⟨nodes_ordered depth entry sound.1, nodesList_ordered depth rest sound.2.2, ?_⟩
      intro first early second late
      have inside := nodes_inside depth entry sound.1 first early
      obtain ⟨other, listed, behind⟩ := nodesList_inside depth rest sound.2.2 second late
      have apart := sound.2.1 other listed
      exact .inl (Nat.le_trans inside.stop (Nat.le_trans apart behind.base))

end

/-- What a search by address and depth comes to: no region that ends behind the address starts
before what it finds. -/
def Finds (nodes : List RegionInfo) (address maximum : Nat) : Option RegionInfo → Prop
  | some found => found ∈ nodes ∧ address < found.stop ∧
      (found.isSubmap = true → found.depth = maximum) ∧
      ∀ info ∈ nodes, info.isSubmap = false → address < info.stop → found.base ≤ info.base
  | none => ∀ info ∈ nodes, info.isSubmap = false → info.stop ≤ address

mutual

theorem recurse_finds (address maximum : Nat) : ∀ (depth : Nat) (entry : VMEntry), entry.Sound →
    depth ≤ maximum → Finds (nodes depth entry) address maximum (recurse address maximum depth entry)
  | depth, region base size writable, sound, within => by
      rw [recurse, nodes]
      split
      · rename_i behind
        exact ⟨.head [], behind, nofun, fun info among _ _ => List.mem_singleton.mp among ▸ Nat.le_refl _⟩
      · rename_i passed
        exact fun info among _ => List.mem_singleton.mp among ▸ Nat.le_of_not_lt passed
  | depth, submap base size entries, sound, within => by
      have below : ∀ info ∈ nodesList (depth + 1) entries,
          base ≤ info.base ∧ info.stop ≤ base + size := by
        intro info among
        obtain ⟨entry, listed, inside⟩ := nodesList_inside (depth + 1) entries sound.1 info among
        obtain ⟨lower, higher⟩ := sound.2 entry listed
        exact ⟨Nat.le_trans lower inside.base, Nat.le_trans inside.stop higher⟩
      rw [recurse, nodes]
      split
      · rename_i behind
        split
        · rename_i deeper
          have finds := recurseList_finds address maximum (depth + 1) entries sound.1 deeper
          cases result : recurseList address maximum (depth + 1) entries with
          | none =>
              rw [result] at finds
              intro info among region
              rcases List.mem_cons.mp among with rfl | inner
              · cases region
              · exact finds info inner region
          | some found =>
              rw [result] at finds
              obtain ⟨inner, late, stopped, first⟩ := finds
              refine ⟨.tail _ inner, late, stopped, fun info among region => ?_⟩
              rcases List.mem_cons.mp among with rfl | inner
              · cases region
              · exact first info inner region
        · rename_i shallow
          refine ⟨.head _, behind, fun _ => Nat.le_antisymm within (Nat.le_of_not_lt shallow), ?_⟩
          intro info among region _
          rcases List.mem_cons.mp among with rfl | inner
          · cases region
          · exact (below info inner).1
      · rename_i passed
        intro info among region
        rcases List.mem_cons.mp among with rfl | inner
        · cases region
        · exact Nat.le_trans (below info inner).2 (Nat.le_of_not_lt passed)

theorem recurseList_finds (address maximum : Nat) : ∀ (depth : Nat) (entries : List VMEntry),
    SoundList entries → depth ≤ maximum →
      Finds (nodesList depth entries) address maximum (recurseList address maximum depth entries)
  | depth, [], _, _ => nofun
  | depth, entry :: rest, sound, within => by
      have here := recurse_finds address maximum depth entry sound.1 within
      rw [recurseList, nodesList]
      cases result : recurse address maximum depth entry with
      | some found =>
          rw [result] at here
          obtain ⟨among, late, stopped, first⟩ := here
          have inside := nodes_inside depth entry sound.1 found among
          refine ⟨List.mem_append_left _ among, late, stopped, fun info listed region behind => ?_⟩
          rcases List.mem_append.mp listed with near | far
          · exact first info near region behind
          · obtain ⟨other, later, inner⟩ := nodesList_inside depth rest sound.2.2 info far
            have apart := sound.2.1 other later
            have stop := Nat.le_trans inside.stop (Nat.le_trans apart inner.base)
            exact Nat.le_trans (Nat.le_add_right _ _) stop
      | none =>
          rw [result] at here
          have there := recurseList_finds address maximum depth rest sound.2.2 within
          rw [Option.none_or]
          cases next : recurseList address maximum depth rest with
          | none =>
              rw [next] at there
              intro info listed region
              exact (List.mem_append.mp listed).elim (here info · region) (there info · region)
          | some found =>
              rw [next] at there
              obtain ⟨among, late, stopped, first⟩ := there
              refine ⟨List.mem_append_right _ among, late, stopped, fun info listed region behind => ?_⟩
              rcases List.mem_append.mp listed with near | far
              · exact absurd behind (Nat.not_lt_of_le (here info near region))
              · exact first info far region behind

end

end VMEntry

namespace VMMap
open VMEntry
variable {map : VMMap}

theorem node_bounds {info : RegionInfo} (among : info ∈ map.nodes) :
    info.stop < 2 ^ 64 ∧ (info.isSubmap = false → info.base < info.stop) := by
  obtain ⟨entry, listed, inside⟩ := nodesList_inside 0 map.entries map.sound info among
  refine ⟨Nat.lt_of_le_of_lt inside.stop (map.bounded entry listed), fun region => ?_⟩
  exact Nat.lt_add_of_pos_right (inside.size region)

theorem nodes_before {first second : RegionInfo} (one : first ∈ map.nodes)
    (other : second ∈ map.nodes) : first = second ∨ Before first second ∨ Before second first := by
  have ordered := nodesList_ordered 0 map.entries map.sound
  obtain ⟨i, low, rfl⟩ := List.getElem_of_mem one
  obtain ⟨j, high, rfl⟩ := List.getElem_of_mem other
  rcases Nat.lt_trichotomy i j with before | rfl | behind
  · exact .inr (.inl (List.pairwise_iff_getElem.mp ordered i j low high before))
  · exact .inl rfl
  · exact .inr (.inr (List.pairwise_iff_getElem.mp ordered j i high low behind))

theorem regions_apart {first second : RegionInfo} (one : first ∈ map.nodes)
    (other : second ∈ map.nodes) (region : first.isSubmap = false)
    (region' : second.isSubmap = false) (differ : first ≠ second) :
    first.stop ≤ second.base ∨ second.stop ≤ first.base := by
  rcases nodes_before one other with same | before | behind
  · exact absurd same differ
  · rcases before with apart | ⟨submap, -⟩
    · exact .inl apart
    · rw [region] at submap
      cases submap
  · rcases behind with apart | ⟨submap, -⟩
    · exact .inr apart
    · rw [region'] at submap
      cases submap

theorem submap_around {submap region : RegionInfo} (one : submap ∈ map.nodes)
    (other : region ∈ map.nodes) (is : submap.isSubmap = true) (leaf : region.isSubmap = false) :
    region.stop ≤ submap.base ∨ submap.stop ≤ region.base ∨ submap.depth < region.depth := by
  rcases nodes_before one other with rfl | before | behind
  · rw [is] at leaf
    cases leaf
  · rcases before with apart | ⟨-, deeper, -⟩
    · exact .inr (.inl apart)
    · exact .inr (.inr deeper)
  · rcases behind with apart | ⟨nested, -⟩
    · exact .inl apart
    · rw [leaf] at nested
      cases nested

theorem regionRecurse_finds (map : VMMap) (address depth : Nat) :
    Finds map.nodes address depth (map.regionRecurse address depth) :=
  recurseList_finds address depth 0 map.entries map.sound (Nat.zero_le depth)

/-- Where the loop stands that has come to the regions `visited` so far: what is left ends behind
the next address and starts no earlier than the last entry found. -/
structure Walking (map : VMMap) (start : Nat) (visited : List RegionInfo)
    (regionBase regionSize depth : Nat) : Prop where
  found : ∀ info ∈ visited, info ∈ map.nodes ∧ info.isSubmap = false ∧
    info.stop ≤ regionBase + regionSize
  ascending : visited.Pairwise fun first second => first.stop ≤ second.base
  left : ∀ info ∈ map.nodes, info.isSubmap = false → info ∈ visited ∨ info.stop ≤ start ∨
    regionBase + regionSize < info.stop ∧ (regionBase ≤ info.base ∨ regionBase ≤ start)
  deep : ∀ earlier last, visited = earlier ++ [last] → last.depth ≤ depth
  bound : regionBase + regionSize < 2 ^ 64

theorem walking_init {start : Nat} (bound : start < 2 ^ 64) (map : VMMap) :
    Walking map start [] start 0 1 := by
  refine ⟨nofun, List.Pairwise.nil, fun info _ _ => ?_, ?_, bound⟩
  · rcases Nat.lt_or_ge start info.stop with behind | before
    · exact .inr (.inr ⟨behind, .inr (Nat.le_refl _)⟩)
    · exact .inr (.inl before)
  · intro earlier last shape
    exact absurd shape.symm (List.append_ne_nil_of_right_ne_nil earlier (List.cons_ne_nil last []))

section
variable {start : Nat} {visited : List RegionInfo} {regionBase regionSize depth : Nat}
  {info : RegionInfo}

theorem Walking.region (walking : Walking map start visited regionBase regionSize depth)
    (found : map.regionRecurse (regionBase + regionSize) depth = some info)
    (region : info.isSubmap = false) :
    Walking map start (visited ++ [info]) info.base info.size info.depth := by
  have finds := map.regionRecurse_finds (regionBase + regionSize) depth
  rw [found] at finds
  obtain ⟨among, behind, -, first⟩ := finds
  have bounds := node_bounds among
  constructor
  case found =>
    intro other listed
    rcases List.mem_append.mp listed with old | new
    · obtain ⟨inner, leaf, before⟩ := walking.found other old
      exact ⟨inner, leaf, Nat.le_of_lt (Nat.lt_of_le_of_lt before behind)⟩
    · rw [List.mem_singleton.mp new]
      exact ⟨among, region, Nat.le_refl _⟩
  case ascending =>
    rw [List.pairwise_append]
    refine ⟨walking.ascending, List.pairwise_singleton _ _, fun old listed new only => ?_⟩
    rw [List.mem_singleton.mp only]
    obtain ⟨inner, leaf, before⟩ := walking.found old listed
    have differ : old ≠ info := by
      rintro rfl
      exact Nat.not_lt_of_le before behind
    apply (regions_apart inner among leaf region differ).resolve_right
    intro crossed
    have := (node_bounds inner).2 leaf
    omega
  case left =>
    intro other inner leaf
    rcases walking.left other inner leaf with old | before | ⟨ahead, -⟩
    · exact .inl (List.mem_append_left _ old)
    · exact .inr (.inl before)
    · by_cases same : info = other
      · exact .inl (List.mem_append_right _ (List.mem_singleton.mpr same.symm))
      · have lower := first other inner leaf ahead
        have positive := (node_bounds inner).2 leaf
        rcases regions_apart among inner region leaf same with apart | crossed
        · exact .inr (.inr ⟨Nat.lt_of_le_of_lt apart positive, .inl lower⟩)
        · omega
  case deep =>
    intro earlier last shape
    rw [(List.append_inj_right' shape rfl |> List.cons.inj).1]
  case bound => exact bounds.1

theorem Walking.submap (walking : Walking map start visited regionBase regionSize depth)
    (found : map.regionRecurse (regionBase + regionSize) depth = some info)
    (submap : info.isSubmap = true) :
    Walking map start visited info.base 0 (info.depth + 1) := by
  have finds := map.regionRecurse_finds (regionBase + regionSize) depth
  rw [found] at finds
  obtain ⟨among, behind, stopped, first⟩ := finds
  have passed : ∀ old ∈ visited, old.stop ≤ info.base := by
    intro old listed
    obtain rfl | ⟨earlier, last, rfl⟩ := visited.eq_nil_or_concat'
    · cases listed
    · obtain ⟨inner, leaf, before⟩ := walking.found last (List.mem_append_right _ (.head []))
      have deep := walking.deep earlier last rfl
      have final : last.stop ≤ info.base := by
        have positive := (node_bounds inner).2 leaf
        have around := submap_around among inner submap leaf
        rw [stopped submap] at around
        omega
      rcases List.mem_append.mp listed with early | only
      · have apart := (List.pairwise_append.mp walking.ascending).2.2 old early last (.head [])
        have positive := (node_bounds inner).2 leaf
        omega
      · rw [List.mem_singleton.mp only]
        exact final
  constructor
  case found =>
    intro old listed
    obtain ⟨inner, leaf, -⟩ := walking.found old listed
    exact ⟨inner, leaf, passed old listed⟩
  case ascending => exact walking.ascending
  case left =>
    intro other inner leaf
    apply (walking.left other inner leaf).imp_right
    apply Or.imp_right
    rintro ⟨ahead, -⟩
    have lower := first other inner leaf ahead
    exact ⟨Nat.lt_of_le_of_lt lower ((node_bounds inner).2 leaf), .inl lower⟩
  case deep =>
    intro earlier last shape
    have := walking.deep earlier last shape
    rw [stopped submap]
    exact Nat.le_succ_of_le this
  case bound => exact Nat.lt_of_le_of_lt (Nat.le_add_right _ _) (node_bounds among).1

theorem Walking.count (walking : Walking map start visited regionBase regionSize depth) :
    visited.length ≤ map.nodes.length := by
  have nodup : visited.Nodup := by
    apply walking.ascending.imp_of_mem
    rintro first second one - apart rfl
    obtain ⟨inner, leaf, -⟩ := walking.found first one
    exact Nat.not_lt_of_le apart ((node_bounds inner).2 leaf)
  apply (List.subperm_of_subset nodup fun info listed => ?_).length_le
  exact (walking.found info listed).1

end

/-- What a finished enumeration has come to: some regions, in order, and each that shares an
address with the range. -/
structure Visits (map : VMMap) (range : AddrRange) (visited : List RegionInfo) : Prop where
  found : ∀ info ∈ visited, info ∈ map.nodes ∧ info.isSubmap = false
  ascending : visited.Pairwise fun first second => first.stop ≤ second.base
  covers : ∀ info ∈ map.nodes, info.isSubmap = false →
    max info.base range.start < min info.stop range.stop → info ∈ visited

theorem Walking.visits {range : AddrRange} {visited : List RegionInfo}
    {regionBase regionSize depth : Nat}
    (walking : Walking map range.start visited regionBase regionSize depth)
    (ends : range.stop ≤ regionBase ∨
      ∀ info ∈ map.nodes, info.isSubmap = false → info.stop ≤ regionBase + regionSize) :
    Visits map range visited := by
  refine ⟨fun info listed => ?_, walking.ascending, fun info inner leaf overlaps => ?_⟩
  · obtain ⟨inner, leaf, -⟩ := walking.found info listed
    exact ⟨inner, leaf⟩
  · rcases walking.left info inner leaf with old | before | ⟨ahead, lower⟩
    · exact old
    · omega
    · rcases ends with beyond | none
      · omega
      · exact absurd ahead (Nat.not_lt_of_le (none info inner leaf))

/-- Each turn comes to a new region or goes one submap deeper. -/
theorem walk_visits {range : AddrRange} {height : Nat}
    (heights : ∀ info ∈ map.nodes, info.depth ≤ height) (fuel : Nat) {visited : List RegionInfo}
    {regionBase regionSize depth : Nat}
    (walking : Walking map range.start visited regionBase regionSize depth)
    (shallow : depth ≤ height + 1)
    (enough : (map.nodes.length - visited.length) * (height + 2) + (height + 1 - depth) < fuel) :
    ∃ later, map.walk range.stop fuel regionBase regionSize depth = some later ∧
      Visits map range (visited ++ later) := by
  induction fuel generalizing visited regionBase regionSize depth with
  | zero => cases enough
  | succ fuel ih =>
      rw [walk]
      split
      · have finds := map.regionRecurse_finds (regionBase + regionSize) depth
        rw [u64_of_lt walking.bound]
        split
        · rename_i none
          rw [none] at finds
          refine ⟨[], rfl, ?_⟩
          rw [List.append_nil]
          exact walking.visits (.inr finds)
        · rename_i info found
          rw [found] at finds
          obtain ⟨among, -, stopped, -⟩ := finds
          have height := heights info among
          split
          · rename_i submap
            apply ih (walking.submap found submap) (Nat.succ_le_succ height)
            have := stopped submap
            omega
          · rename_i region
            have next := walking.region found (Bool.eq_false_iff.mpr region)
            have count := next.count
            rw [List.length_append, List.length_singleton] at count
            obtain ⟨later, rest, visits⟩ := ih next (Nat.le_succ_of_le height) (by
              rw [List.length_append, List.length_singleton]
              obtain ⟨left, more⟩ := Nat.exists_eq_add_of_le count
              have shrunk : map.nodes.length - visited.length = left + 1 := by omega
              have smaller : map.nodes.length - (visited.length + 1) = left := by omega
              rw [shrunk, Nat.add_mul] at enough
              rw [smaller]
              omega)
            refine ⟨info :: later, by rw [rest]; rfl, ?_⟩
            rwa [List.append_cons]
      · rename_i beyond
        refine ⟨[], rfl, ?_⟩
        rw [List.append_nil]
        exact walking.visits (.inl (Nat.le_of_not_lt beyond))

theorem walk_more {rangeEnd : Nat} (fuel : Nat) {regionBase regionSize depth : Nat}
    {visited : List RegionInfo}
    (ended : map.walk rangeEnd fuel regionBase regionSize depth = some visited) (more : Nat) :
    map.walk rangeEnd (fuel + more) regionBase regionSize depth = some visited := by
  induction fuel generalizing regionBase regionSize depth visited with
  | zero => cases ended
  | succ fuel ih =>
      rw [walk] at ended
      rw [Nat.succ_add, walk]
      split
      · rename_i below
        rw [if_pos below] at ended
        split
        · rename_i none
          rwa [none] at ended
        · rename_i info found
          rw [found] at ended
          split
          · rename_i submap
            simp only [if_pos submap] at ended
            exact ih ended
          · rename_i region
            simp only [if_neg region, Option.map_eq_some_iff] at ended
            obtain ⟨later, rest, rfl⟩ := ended
            rw [ih rest]
            rfl
      · rename_i beyond
        rwa [if_neg beyond] at ended

/-- The writable regions that are not the own stack, in address order. -/
def writable (map : VMMap) (stack : Option (Nat × Nat)) : List (Nat × Nat) :=
  (map.nodes.filter fun info => !info.isSubmap && listed stack info).map fun info =>
    (info.base, info.size)

/-- What `regions` holds behind an enumeration. -/
structure Enumerates (map : VMMap) (stack : Option (Nat × Nat)) (range : AddrRange)
    (regions : List (Nat × Nat)) : Prop where
  ascending : regions.Pairwise fun first second => first.1 + first.2 ≤ second.1
  bounded : ∀ region ∈ regions, 0 < region.2 ∧ region.1 + region.2 < 2 ^ 64
  among : ∀ region ∈ regions, region ∈ map.writable stack
  covers : ∀ region ∈ map.writable stack, (overlap range region).isSome → region ∈ regions

theorem writable_ascending (map : VMMap) (stack : Option (Nat × Nat)) :
    (map.writable stack).Pairwise fun first second => first.1 + first.2 ≤ second.1 := by
  apply List.pairwise_map.mpr
  apply (nodesList_ordered 0 map.entries map.sound).filter _ |>.imp_of_mem
  intro first second one _ before
  have leaf := (List.mem_filter.mp one).2
  rw [Bool.and_eq_true, Bool.not_eq_true'] at leaf
  rcases before with apart | ⟨submap, -⟩
  · exact apart
  · rw [leaf.1] at submap
    cases submap

theorem Visits.enumerates {stack : Option (Nat × Nat)} {range : AddrRange}
    {visited : List RegionInfo} (visits : Visits map range visited) :
    Enumerates map stack range
      ((visited.filter (listed stack)).map fun info => (info.base, info.size)) := by
  constructor
  case ascending => exact List.pairwise_map.mpr (visits.ascending.filter _)
  case bounded =>
    intro region among
    obtain ⟨info, kept, rfl⟩ := List.mem_map.mp among
    obtain ⟨inner, leaf⟩ := visits.found info (List.mem_of_mem_filter kept)
    obtain ⟨bound, positive⟩ := node_bounds inner
    have positive := positive leaf
    unfold RegionInfo.stop at bound positive
    dsimp only
    omega
  case among =>
    intro region among
    obtain ⟨info, kept, rfl⟩ := List.mem_map.mp among
    obtain ⟨old, listed⟩ := List.mem_filter.mp kept
    obtain ⟨inner, leaf⟩ := visits.found info old
    apply List.mem_map_of_mem
    exact List.mem_filter.mpr ⟨inner, by rw [leaf, listed]; rfl⟩
  case covers =>
    intro region among overlaps
    obtain ⟨info, kept, rfl⟩ := List.mem_map.mp among
    obtain ⟨inner, shown⟩ := List.mem_filter.mp kept
    rw [Bool.and_eq_true, Bool.not_eq_true'] at shown
    apply List.mem_map_of_mem
    apply List.mem_filter.mpr
    refine ⟨visits.covers info inner shown.1 ?_, shown.2⟩
    simp only [overlap] at overlaps
    split at overlaps
    · assumption
    · cases overlaps

theorem node_heights (nodes : List RegionInfo) :
    ∃ height, ∀ info ∈ nodes, info.depth ≤ height := by
  induction nodes with
  | nil => exact ⟨0, nofun⟩
  | cons first rest ih =>
      obtain ⟨height, heights⟩ := ih
      refine ⟨max first.depth height, fun info among => ?_⟩
      rcases List.mem_cons.mp among with rfl | later
      · exact Nat.le_max_left _ _
      · exact Nat.le_trans (heights info later) (Nat.le_max_right _ _)

theorem enumerateRegions_more {stack : Option (Nat × Nat)} {range : AddrRange} {fuel : Nat}
    {regions : List (Nat × Nat)} (ended : map.enumerateRegions stack range fuel = some regions)
    (more : Nat) : map.enumerateRegions stack range (fuel + more) = some regions := by
  rw [enumerateRegions, Option.map_eq_some_iff] at ended ⊢
  obtain ⟨visited, walked, shape⟩ := ended
  exact ⟨visited, walk_more fuel walked more, shape⟩

/-- The enumeration ends, whatever submaps the map holds, with disjoint regions in order, all of
them writable, and with each writable region that shares an address with the range. -/
theorem enumerateRegions_spec (map : VMMap) (stack : Option (Nat × Nat)) (range : AddrRange)
    (bound : range.start < 2 ^ 64) :
    ∃ fuel regions, (∀ more, map.enumerateRegions stack range (fuel + more) = some regions) ∧
      Enumerates map stack range regions := by
  obtain ⟨height, heights⟩ := node_heights map.nodes
  obtain ⟨visited, walked, visits⟩ := walk_visits heights _ (walking_init bound map)
    (Nat.le_add_left 1 height) (Nat.lt_succ_self _)
  have ended : map.enumerateRegions stack range
      ((map.nodes.length - 0) * (height + 2) + (height + 1 - 1)).succ =
        some ((visited.filter (listed stack)).map fun info => (info.base, info.size)) :=
    Option.map_eq_some_iff.mpr ⟨visited, walked, rfl⟩
  exact ⟨_, _, enumerateRegions_more ended, visits.enumerates⟩

theorem filterMap_overlap (range : AddrRange) (regions : List (Nat × Nat)) :
    regions.filterMap (overlap range) =
      (regions.filter fun region => (overlap range region).isSome).filterMap (overlap range) := by
  rw [List.filterMap_filter]
  apply List.filterMap_congr
  intro region _
  cases overlap range region <;> rfl

/-- A page in a submap of a submap. -/
def sharedMap : VMMap where
  entries := [.submap 0x100000000 0x8000
    [.submap 0x100000000 0x4000 [.region 0x100000000 0x4000 true], .region 0x100004000 0x4000 false]]
  sound := by simp [SoundList, Sound, VMEntry.base, VMEntry.stop]
  bounded := by simp [VMEntry.stop]

theorem enumerateRegions_shared : ∃ fuel regions,
    (∀ more, sharedMap.enumerateRegions none ⟨0x100000000, 0x100000008⟩ (fuel + more) =
      some regions) ∧ Enumerates sharedMap none ⟨0x100000000, 0x100000008⟩ regions :=
  enumerateRegions_spec sharedMap none ⟨0x100000000, 0x100000008⟩ (by decide)

/-- Behind an enumeration the parts that a first scan loads are those of all writable regions. -/
theorem Enumerates.overlaps {stack : Option (Nat × Nat)} {range : AddrRange}
    {regions : List (Nat × Nat)} (enumerates : Enumerates map stack range regions) :
    regions.filterMap (overlap range) = (map.writable stack).filterMap (overlap range) := by
  have positive : ∀ region ∈ map.writable stack, 0 < region.2 := by
    intro region among
    obtain ⟨info, kept, rfl⟩ := List.mem_map.mp among
    obtain ⟨inner, shown⟩ := List.mem_filter.mp kept
    rw [Bool.and_eq_true, Bool.not_eq_true'] at shown
    exact Nat.lt_add_right_iff_pos.mp ((node_bounds inner).2 shown.1)
  have nodup {regions : List (Nat × Nat)}
      (ascending : regions.Pairwise fun first second => first.1 + first.2 ≤ second.1)
      (among : ∀ region ∈ regions, region ∈ map.writable stack) : regions.Nodup := by
    apply ascending.imp_of_mem
    rintro first second one - apart rfl
    have := positive first (among first one)
    omega
  rw [filterMap_overlap, filterMap_overlap range (map.writable stack)]
  congr 1
  refine List.Perm.eq_of_pairwise (fun first second one other before behind => ?_)
    (enumerates.ascending.filter _) ((writable_ascending map stack).filter _) ?_
  · have := positive second (List.mem_of_mem_filter other)
    omega
  · rw [List.perm_ext_iff_of_nodup ((nodup enumerates.ascending enumerates.among).filter _)
      ((nodup (writable_ascending map stack) fun _ among => among).filter _)]
    intro region
    rw [List.mem_filter, List.mem_filter]
    apply and_congr_left
    intro overlaps
    exact ⟨enumerates.among region, fun among => enumerates.covers region among overlaps⟩

/-- With the regions of an enumeration a first numeric scan reports exactly the elements that match
in the writable memory of the map within the range, as far as the slides reach. -/
theorem enumerated_scan_exact (map : VMMap) (stack : Option (Nat × Nat)) (range : AddrRange)
    (bound : range.start < 2 ^ 64) (t : Target) (fuel : Nat)
    (regions : map.enumerateRegions stack range fuel = some t.regions.entries) (e : Engine)
    (first : e.firstScanDone = false) (empty : e.result = {}) (values : List JJSearchValue)
    (given : values ≠ []) (type : Int) (searched : SearchType)
    (valid : SearchType.ofCode? type = some searched) :
    reportsExactly (e.jjScanMemoryAny t range values type).hits type
        (fun a => ∃ part ∈ (map.writable stack).filterMap (overlap range),
          numericMatch t e.floatTolerance values searched part a) ↔
      ∀ part ∈ (map.writable stack).filterMap (overlap range), ∀ a,
        numericMatch t e.floatTolerance values searched part a → a < part.1 + 2 ^ 32 := by
  obtain ⟨enough, found, ended, enumerates⟩ := enumerateRegions_spec map stack range bound
  have same : found = t.regions.entries := by
    apply Option.some.inj
    rw [← ended fuel, Nat.add_comm]
    exact enumerateRegions_more regions enough
  rw [← enumerates.overlaps, same]
  exact numericScan_exact_iff first empty given valid

theorem enumerated_scan_exact_shared :
    reportsExactly (Engine.fresh.jjScanMemoryAny (.onePage fun _ => 0)
        ⟨0x100000000, 0x100000008⟩ [byteValue 0] SearchType.uByte.code).hits
      SearchType.uByte.code
      (fun a => ∃ part ∈ (sharedMap.writable none).filterMap (overlap ⟨0x100000000, 0x100000008⟩),
        numericMatch (.onePage fun _ => 0) 0 [byteValue 0] .uByte part a) := by
  refine (enumerated_scan_exact sharedMap none ⟨0x100000000, 0x100000008⟩ (by decide)
    (.onePage fun _ => 0) 8 (by decide) Engine.fresh rfl rfl [byteValue 0] (by simp)
    SearchType.uByte.code .uByte rfl).mpr ?_
  rintro part among a ⟨-, fits, -⟩
  obtain ⟨region, listed, clipped⟩ := List.mem_filterMap.mp among
  have loaded := loadedSize_le (.onePage fun _ => 0) part.1 part.2
  have := overlap_eq_some.mp clipped
  dsimp only at this
  omega

end VMMap
end H5GG
