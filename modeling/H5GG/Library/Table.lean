import Mathlib.Data.List.Basic

/-!
# Tables of objects
-/

section
variable {Object : Type*} {table : List Object} {index : Nat} {found : Object}

theorem getElem?_concat_iff {new : Object} : (table ++ [new])[index]? = some found ↔
    table[index]? = some found ∨ index = table.length ∧ found = new := by
  rcases Nat.lt_trichotomy index table.length with before | rfl | behind
  · rw [List.getElem?_append_left before]
    exact (or_iff_left fun last => absurd last.1 (Nat.ne_of_lt before)).symm
  · simp [eq_comm]
  · have outside : (table ++ [new]).length ≤ index := by
      rw [List.length_append]
      exact behind
    rw [List.getElem?_eq_none outside, List.getElem?_eq_none (Nat.le_of_lt behind)]
    simp [Nat.ne_of_gt behind]

theorem getElem?_concat_some {new : Object} (entry : (table ++ [new])[index]? = some found) :
    table[index]? = some found ∨ index = table.length ∧ found = new :=
  getElem?_concat_iff.mp entry

theorem getElem?_set_some {place : Nat} {new : Object}
    (entry : (table.set place new)[index]? = some found) :
    index = place ∧ found = new ∨ index ≠ place ∧ table[index]? = some found := by
  by_cases here : index = place
  · subst here
    rw [List.getElem?_set, if_pos rfl] at entry
    split_ifs at entry
    cases entry
    exact .inl ⟨rfl, rfl⟩
  · rw [List.getElem?_set_ne (Ne.symm here)] at entry
    exact .inr ⟨here, entry⟩

/-- A search for the key of an object of the table finds that object. -/
theorem find?_of_nodup_map {Key : Type*} [BEq Key] [LawfulBEq Key] {key : Object → Key}
    (nodup : (table.map key).Nodup) (inside : found ∈ table) :
    table.find? (key · == key found) = some found := by
  induction table with
  | nil => cases inside
  | cons first rest ih =>
      rw [List.map_cons, List.nodup_cons] at nodup
      rcases List.mem_cons.mp inside with rfl | later
      · exact List.find?_cons_of_pos (beq_self_eq_true (key found))
      · have differs : ¬ (key first == key found) = true := by
          rw [beq_iff_eq]
          exact fun same => nodup.1 (same ▸ List.mem_map_of_mem later)
        exact (List.find?_cons_of_neg (p := (key · == key found)) differs).trans (ih nodup.2 later)

/-- Without the object of a key, a search for that key fails and the others stay as they are. -/
theorem find?_eraseP_of_nodup_map {Key : Type*} [BEq Key] [LawfulBEq Key] [DecidableEq Key]
    {key : Object → Key}
    (nodup : (table.map key).Nodup) (gone sought : Key) :
    (table.eraseP (key · == gone)).find? (key · == sought) =
      if gone = sought then none else table.find? (key · == sought) := by
  induction table with
  | nil => simp
  | cons first rest ih =>
      rw [List.map_cons, List.nodup_cons] at nodup
      by_cases here : key first = gone
      · rw [List.eraseP_cons_of_pos (by simpa using here)]
        split
        · rename_i same
          apply List.find?_eq_none.mpr
          intro other later hit
          apply nodup.1
          rw [here, same, ← beq_iff_eq.mp hit]
          exact List.mem_map_of_mem later
        · rename_i differ
          have missed : ¬ (key first == sought) = true := by
            rw [beq_iff_eq, here]
            exact differ
          exact (List.find?_cons_of_neg (p := (key · == sought)) missed).symm
      · rw [List.eraseP_cons_of_neg (by simpa using here)]
        by_cases found : key first = sought
        · have differ : gone ≠ sought := fun same => here (found.trans same.symm)
          rw [if_neg differ]
          simp [found]
        · have missed : ¬ (key first == sought) = true := by simpa using found
          have shorter := ih nodup.2
          simpa [List.find?_cons, found] using shorter

end

/-! ## What the objects hold -/

variable {Object Item : Type*} [DecidableEq Item] {holds : Object → List Item}
  {table : List Object}

/-- How often the objects of a table hold an item. -/
def tally (holds : Object → List Item) (table : List Object) (item : Item) : Nat :=
  (table.flatMap holds).count item

@[simp] theorem tally_nil (item : Item) : tally holds [] item = 0 := rfl

theorem tally_cons (object : Object) (item : Item) :
    tally holds (object :: table) item = (holds object).count item + tally holds table item := by
  rw [tally, tally, List.flatMap_cons, List.count_append]

@[simp] theorem tally_append (more : List Object) (item : Item) :
    tally holds (table ++ more) item = tally holds table item + tally holds more item := by
  rw [tally, tally, tally, List.flatMap_append, List.count_append]

theorem tally_set (holds : Object → List Item) {index : Nat} {before : Object}
    (found : table[index]? = some before) (after : Object) (item : Item) :
    tally holds (table.set index after) item + (holds before).count item =
      tally holds table item + (holds after).count item := by
  induction table generalizing index with
  | nil => cases found
  | cons object rest ih =>
      cases index with
      | zero =>
          cases found
          rw [List.set_cons_zero, tally_cons, tally_cons]
          omega
      | succ index =>
          have later := ih found
          rw [List.set_cons_succ, tally_cons, tally_cons]
          omega

theorem tally_pos {item : Item} :
    0 < tally holds table item ↔ ∃ object ∈ table, item ∈ holds object := by
  rw [tally, List.count_pos_iff, List.mem_flatMap]

theorem tally_eq_zero {item : Item} :
    tally holds table item = 0 ↔ ∀ object ∈ table, item ∉ holds object := by
  rw [tally, List.count_eq_zero, List.mem_flatMap]
  exact ⟨fun none' object inside held => none' ⟨object, inside, held⟩,
    fun none' ⟨object, inside, held⟩ => none' object inside held⟩

theorem tally_filter {Key Value : Type*} [DecidableEq Key] (holds : Key × Value → List Item)
    {table : List (Key × Value)} (nodup : (table.map Prod.fst).Nodup) {entry : Key × Value}
    (inside : entry ∈ table) (item : Item) :
    tally holds (table.filter (·.1 ≠ entry.1)) item + (holds entry).count item =
      tally holds table item := by
  induction table with
  | nil => cases inside
  | cons first rest ih =>
      rw [List.map_cons, List.nodup_cons] at nodup
      cases List.mem_cons.mp inside with
      | inl same =>
          subst same
          have others : rest.filter (·.1 ≠ entry.1) = rest := by
            refine List.filter_eq_self.mpr fun other later => ?_
            have apart : other.1 ≠ entry.1 := fun equal =>
              nodup.1 (equal ▸ List.mem_map_of_mem later)
            exact decide_eq_true apart
          rw [List.filter_cons_of_neg (by simp), others, tally_cons]
          omega
      | inr later =>
          have apart : first.1 ≠ entry.1 := fun equal =>
            nodup.1 (equal ▸ List.mem_map_of_mem later)
          have rest := ih nodup.2 later
          rw [List.filter_cons_of_pos (by simpa using apart), tally_cons, tally_cons]
          omega
