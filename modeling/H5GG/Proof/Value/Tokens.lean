import H5GG.Proof.Value.Parse
import Mathlib.Data.List.Forall2
import Mathlib.Data.List.Infix

/-!
# The tokens of a search expression

`JJParseSearchExpression` finds its separators by offset and stores both bounds in one buffer.
`jjParseSearchExpression` cuts the text at them instead, and the two agree.
-/

namespace H5GG.SearchExpression

/-! ### Substrings -/

section
variable {α : Type*} {needle before after text : List α}

/-- No proper suffix of the needle begins it, so two occurrences never overlap. -/
def Unbordered (needle : List α) : Prop :=
  ∀ front back, front ≠ [] → back ≠ [] → needle = front ++ back → ¬back <+: needle

theorem unbordered_of_not_mem {c : α} {rest : List α} (absent : c ∉ rest) :
    Unbordered (c :: rest) := by
  rintro front back front' back' whole start
  obtain ⟨first, front, rfl⟩ := List.exists_cons_of_ne_nil front'
  obtain ⟨second, back, rfl⟩ := List.exists_cons_of_ne_nil back'
  obtain ⟨-, tail⟩ := List.cons.inj whole
  obtain ⟨rfl, -⟩ := List.cons_prefix_cons.mp start
  exact absent (by rw [tail]; simp)

theorem not_prefix_before (unbordered : Unbordered needle) (some' : before ≠ [])
    (absent : ¬needle <:+: before) : ¬needle <+: before ++ (needle ++ after) := by
  rintro ⟨rest, same⟩
  rcases List.append_eq_append_iff.mp same with ⟨back, whole, -⟩ | ⟨back, whole, tail⟩
  · exact absent (whole ▸ (List.prefix_append needle back).isInfix)
  · by_cases empty : back = []
    · rw [empty, List.append_nil] at whole
      exact absent (whole ▸ List.infix_rfl)
    · refine unbordered before back some' empty whole ?_
      have length := congrArg List.length whole
      rw [List.length_append] at length
      exact List.prefix_of_prefix_length_le (tail ▸ List.prefix_append back rest)
        (List.prefix_append needle after) (by omega)

theorem prefix_of_append_cons {c : α} (absent : c ∉ needle)
    (start : needle <+: before ++ c :: after) : needle <+: before := by
  induction before generalizing needle with
  | nil =>
      rcases List.prefix_cons_iff.mp start with rfl | ⟨rest, rfl, -⟩
      · exact List.nil_prefix
      · exact absurd List.mem_cons_self absent
  | cons first before ih =>
      rcases List.prefix_cons_iff.mp start with rfl | ⟨rest, rfl, later⟩
      · exact List.nil_prefix
      · rw [List.prefix_cons_inj]
        exact ih (fun inside => absent (List.mem_cons_of_mem first inside)) later

theorem infix_of_append_cons {c : α} (absent : c ∉ needle)
    (inside : needle <:+: before ++ c :: after) : needle <:+: before ∨ needle <:+: after := by
  induction before with
  | nil =>
      rcases List.infix_cons_iff.mp inside with start | later
      · exact .inl (prefix_of_append_cons absent start).isInfix
      · exact .inr later
  | cons first before ih =>
      rcases List.infix_cons_iff.mp inside with start | later
      · exact .inl (prefix_of_append_cons absent start).isInfix
      · exact (ih later).imp_left List.infix_cons

end

section
variable {needle before after text : CString}

theorem splitAtFirst_eq_none (some' : needle ≠ []) :
    splitAtFirst needle text = none ↔ ¬needle <:+: text := by
  induction text with
  | nil => simp [splitAtFirst, some', List.infix_nil]
  | cons c rest ih =>
      rw [splitAtFirst, List.infix_cons_iff, not_or, ← ih]
      by_cases here : needle <+: c :: rest
      · rw [if_pos (List.isPrefixOf_iff_prefix.mpr here)]
        simp [here]
      · rw [if_neg (mt List.isPrefixOf_iff_prefix.mp here), Option.map_eq_none_iff]
        simp [here]

/-- The first occurrence of a needle that does not overlap itself. -/
theorem splitAtFirst_eq_some (some' : needle ≠ []) (unbordered : Unbordered needle) :
    splitAtFirst needle text = some (before, after) ↔
      text = before ++ (needle ++ after) ∧ ¬needle <:+: before := by
  constructor
  · induction text generalizing before with
    | nil => simp [splitAtFirst, some']
    | cons c rest ih =>
        rw [splitAtFirst]
        by_cases here : needle <+: c :: rest
        · rw [if_pos (List.isPrefixOf_iff_prefix.mpr here)]
          rintro ⟨⟩
          exact ⟨(List.prefix_iff_eq_append.mp here).symm, by rwa [List.infix_nil]⟩
        · rw [if_neg (mt List.isPrefixOf_iff_prefix.mp here), Option.map_eq_some_iff]
          rintro ⟨⟨front, back⟩, found, ⟨⟩⟩
          obtain ⟨rfl, absent⟩ := ih found
          refine ⟨rfl, fun inside => ?_⟩
          rcases List.infix_cons_iff.mp inside with start | later
          · exact here (start.trans (List.prefix_append (c :: front) _))
          · exact absent later
  · rintro ⟨rfl, absent⟩
    induction before with
    | nil =>
        obtain ⟨first, tail, rfl⟩ := List.exists_cons_of_ne_nil some'
        rw [List.nil_append, List.cons_append, splitAtFirst, if_pos, List.length_cons,
          List.drop_succ_cons, List.drop_left]
        exact List.isPrefixOf_iff_prefix.mpr (List.prefix_append (first :: tail) after)
    | cons c front ih =>
        have later : ¬needle <:+: front := fun inside => absent (List.infix_cons inside)
        rw [List.cons_append, splitAtFirst, if_neg, ih later]
        · rfl
        · intro here
          exact not_prefix_before unbordered (List.cons_ne_nil c front) absent
            (List.isPrefixOf_iff_prefix.mp here)

end

/-! ### Searching by offset -/

section
variable {needle text : CString}

theorem stringFind_cons (c : UInt8) (rest : CString) :
    stringFind (c :: rest) needle 0 =
      if needle.isPrefixOf (c :: rest) then some 0 else (stringFind rest needle 0).map (· + 1) := by
  simp only [stringFind, Nat.zero_le, decide_true, Bool.true_and, List.length_cons]
  rw [List.range_succ_eq_map, List.find?_cons]
  split <;> rename_i here
  · rw [List.drop_zero] at here
    rw [if_pos here]
  · rw [List.drop_zero] at here
    rw [if_neg (by rw [here]; exact Bool.false_ne_true), List.find?_map]
    rfl

theorem stringFind_drop {start : Nat} (inside : start ≤ text.length) :
    stringFind text needle start = (stringFind (text.drop start) needle 0).map (start + ·) := by
  have size : text.length + 1 = start + ((text.drop start).length + 1) := by
    rw [List.length_drop]
    omega
  have before : (List.range start).find? (fun i =>
      start ≤ i && needle.isPrefixOf (text.drop i)) = none := by
    simp only [List.find?_eq_none, List.mem_range]
    intro i below
    simp [Nat.not_le.mpr below]
  simp only [stringFind, Nat.zero_le, decide_true, Bool.true_and]
  rw [size, List.range_add, List.find?_append, before, Option.none_or, List.find?_map]
  simp only [Function.comp_def, Nat.le_add_right, decide_true, Bool.true_and, List.drop_drop]

theorem splitAtFirst_eq (some' : needle ≠ []) :
    splitAtFirst needle text = (stringFind text needle 0).map fun i =>
      (text.take i, text.drop (i + needle.length)) := by
  induction text with
  | nil =>
      obtain ⟨first, tail, rfl⟩ := List.exists_cons_of_ne_nil some'
      rfl
  | cons c rest ih =>
      rw [splitAtFirst, stringFind_cons]
      split
      · simp
      · rw [ih, Option.map_map, Option.map_map]
        congr 1
        funext i
        simp [Nat.add_right_comm]

end

/-! ### The packed values -/

theorem writeBytes_middle {front middle back bytes : Bytes} (same : middle.length = bytes.length) :
    writeBytes (front ++ (middle ++ back)) front.length bytes = front ++ (bytes ++ back) := by
  apply List.ext_getElem?
  intro i
  rw [writeBytes_getElem?]
  by_cases low : i < front.length
  · rw [List.getElem?_append_left low, List.getElem?_append_left low]
    simp [Nat.not_le.mpr low]
  rw [List.getElem?_append_right (not_lt.mp low), List.getElem?_append_right (not_lt.mp low),
    List.getElem?_append, List.getElem?_append]
  by_cases inside : i - front.length < bytes.length
  · rw [if_pos (same ▸ inside), if_pos inside, List.getElem?_eq_getElem (same ▸ inside),
      List.getElem?_eq_getElem inside]
    simp [not_lt.mp low, inside]
  · rw [if_neg (same ▸ inside), if_neg inside, same]
    simp [not_lt.mp low, List.getElem?_eq_none (not_lt.mp inside)]

section
variable {t : SearchType} {text : CString} {stored other : Bytes}

theorem jjParseValue_stored (parsed : jjParseValue text t.code = some stored) :
    ∃ value, stored = storeValue t.len value := by
  simp only [jjParseValue, SearchType.ofCode?_code] at parsed
  cases kind : t.scalar with
  | signed =>
      simp only [kind, parseSigned] at parsed
      split at parsed
      · cases parsed
      · exact ⟨_, (Option.some.inj parsed).symm⟩
  | unsigned =>
      simp only [kind, parseUnsigned] at parsed
      split at parsed
      · cases parsed
      · split at parsed
        · cases parsed
        · exact ⟨_, (Option.some.inj parsed).symm⟩
  | floating format =>
      simp only [kind, parseFloating] at parsed
      split at parsed
      · cases parsed
      · obtain ⟨value, -, rfl⟩ := Option.map_eq_some_iff.mp parsed
        exact ⟨value, rfl⟩

/-- A stored value is its bytes, then zeros up to eight. -/
theorem stored_shape (parsed : jjParseValue text t.code = some stored) :
    stored = stored.take t.len ++ List.replicate (8 - t.len) 0 ∧ (stored.take t.len).length = t.len := by
  obtain ⟨value, rfl⟩ := jjParseValue_stored parsed
  have length := Word.toLittleEndian_length t.len value
  have low : (storeValue t.len value).take t.len = Word.toLittleEndian t.len value :=
    List.take_left' length
  rw [low]
  exact ⟨rfl, length⟩

theorem stored_length (parsed : jjParseValue text t.code = some stored) : stored.length = 8 := by
  obtain ⟨shape, length⟩ := stored_shape parsed
  have fits := len_le_eight t
  rw [shape, List.length_append, List.length_replicate, length]
  omega

theorem parseInto_zeros : jjParseValueInto (List.replicate 8 0) 0 (some text) t.code =
    ((jjParseValue text t.code).isSome,
      (jjParseValue text t.code).getD (List.replicate 8 0)) := by
  rw [jjParseValueInto_eq]
  cases parsed : jjParseValue text t.code with
  | none => rfl
  | some stored =>
      have written := @writeBytes_middle [] (List.replicate 8 0) [] stored
        (by rw [List.length_replicate, stored_length parsed])
      simp only [List.nil_append, List.append_nil, List.length_nil] at written
      simp only [written]
      rfl

/-- The sixteen bytes of two bounds. -/
def packed (t : SearchType) (lower upper : Bytes) : Bytes :=
  lower ++ (upper ++ List.replicate (16 - 2 * t.len) 0)

theorem ofBounds_bytes {lower upper : Bytes} (first : (lower.take t.len).length = t.len)
    (second : (upper.take t.len).length = t.len) :
    (JJSearchValue.ofBounds t.len lower upper).bytes =
      packed t (lower.take t.len) (upper.take t.len) := by
  have fits := len_le_eight t
  have length : (lower.take t.len ++ upper.take t.len).length = 2 * t.len := by
    rw [List.length_append, first, second]
    omega
  show ((lower.take t.len ++ upper.take t.len).take 16).rightpad 16 0 = _
  rw [List.take_of_length_le (by omega), List.rightpad, length, List.append_assoc]
  rfl

theorem zero_parse (parsed : jjParseValue text t.code = some stored) :
    ∃ value, JJSearchValue.zero.parse 0 text t.code = (true, value) ∧
      value.bytes = stored.take t.len ++ List.replicate (16 - t.len) 0 := by
  have fits := len_le_eight t
  obtain ⟨shape, length⟩ := stored_shape parsed
  have written : writeBytes JJSearchValue.zero.bytes 0 stored =
      stored.take t.len ++ List.replicate (16 - t.len) 0 := by
    have same := @writeBytes_middle [] (List.replicate 8 0) (List.replicate 8 0) stored
      (by rw [List.length_replicate, stored_length parsed])
    have zeros : 8 - t.len + 8 = 16 - t.len := by omega
    refine same.trans ?_
    nth_rewrite 1 [shape]
    rw [List.nil_append, List.append_assoc, List.replicate_append_replicate, zeros]
  simp only [JJSearchValue.parse, jjParseValueInto_eq, parsed]
  exact ⟨_, rfl, written⟩

theorem repeatFirst_bytes {value : JJSearchValue} {lower : Bytes} (length : lower.length = t.len)
    (held : value.bytes = lower ++ List.replicate (16 - t.len) 0) :
    (value.repeatFirst t.len).bytes = packed t lower lower := by
  have fits := len_le_eight t
  have zeros : 16 - t.len = t.len + (16 - 2 * t.len) := by omega
  have first : (lower ++ List.replicate (16 - t.len) 0).take t.len = lower := List.take_left' length
  show writeBytes value.bytes t.len (value.bytes.take t.len) = _
  rw [held, first, zeros, ← List.replicate_append_replicate]
  have same := @writeBytes_middle lower (List.replicate t.len 0) (List.replicate (16 - 2 * t.len) 0)
    lower (by rw [List.length_replicate, length])
  rw [length] at same
  exact same

theorem parse_second {value : JJSearchValue} {lower : Bytes} (length : lower.length = t.len)
    (held : value.bytes = lower ++ List.replicate (16 - t.len) 0)
    (parsed : jjParseValue text t.code = some stored) :
    ∃ both, value.parse t.len text t.code = (true, both) ∧
      both.bytes = packed t lower (stored.take t.len) := by
  have fits := len_le_eight t
  obtain ⟨shape, size⟩ := stored_shape parsed
  have written : writeBytes value.bytes t.len stored = packed t lower (stored.take t.len) := by
    have zeros : 16 - t.len = 8 + (8 - t.len) := by omega
    have same := @writeBytes_middle lower (List.replicate 8 0) (List.replicate (8 - t.len) 0) stored
      (by rw [List.length_replicate, stored_length parsed])
    have rest : 8 - t.len + (8 - t.len) = 16 - 2 * t.len := by omega
    rw [length] at same
    rw [held, zeros, ← List.replicate_append_replicate, same]
    nth_rewrite 1 [shape]
    rw [List.append_assoc, List.replicate_append_replicate, rest]
    rfl
  simp only [JJSearchValue.parse, jjParseValueInto_eq, parsed]
  exact ⟨_, rfl, written⟩

theorem parse_none (value : JJSearchValue) (start : Nat) (refused : jjParseValue text t.code = none) :
    value.parse start text t.code = (false, value) := by
  simp only [JJSearchValue.parse, jjParseValueInto_eq, refused]

theorem packed_lower {lower : Bytes} (length : lower.length = t.len) (upper : Bytes) :
    (packed t lower upper).take t.len = lower := List.take_left' length

theorem packed_upper {lower upper : Bytes} (first : lower.length = t.len)
    (second : upper.length = t.len) : ((packed t lower upper).drop t.len).take t.len = upper := by
  rw [packed, List.drop_left' first, List.take_left' second]

theorem value_ext {value same : JJSearchValue} (bytes : value.bytes = same.bytes) : value = same := by
  cases value
  cases same
  cases bytes
  rfl

end

/-! ### One token -/

section
variable {t : SearchType}

theorem single_agrees (token : CString) :
    (if (JJSearchValue.zero.parse 0 token t.code).1 = true then
      some ((JJSearchValue.zero.parse 0 token t.code).2.repeatFirst t.len) else none) =
      (jjParseValue token t.code).map fun value => .ofBounds t.len value value := by
  cases parsed : jjParseValue token t.code with
  | none =>
      rw [parse_none _ _ parsed]
      rfl
  | some stored =>
      obtain ⟨value, found, held⟩ := zero_parse parsed
      obtain ⟨-, length⟩ := stored_shape parsed
      rw [found, Option.map_some, if_pos rfl]
      congr 1
      exact value_ext ((repeatFirst_bytes length held).trans (ofBounds_bytes length length).symm)

/-- Both sides of a separator, once they are known to have no other one. -/
def parseBounds (t : SearchType) (lower upper : CString) : Option JJSearchValue :=
  (jjParseValue lower t.code).bind fun low => (jjParseValue upper t.code).bind fun high =>
    if jjValueMatchesFilter high low t .less then none else some (.ofBounds t.len low high)

theorem range_agrees (lower upper : CString) :
    (if (JJSearchValue.zero.parse 0 lower t.code).1 = false then none
      else
        let second := (JJSearchValue.zero.parse 0 lower t.code).2.parse t.len upper t.code
        if second.1 = false then none
        else if jjValueMatchesFilter (second.2.bytes.drop t.len) second.2.bytes t .less then none
        else some second.2) =
      parseBounds t lower upper := by
  unfold parseBounds
  cases first : jjParseValue lower t.code with
  | none =>
      rw [parse_none _ _ first]
      rfl
  | some low =>
      obtain ⟨value, found, held⟩ := zero_parse first
      obtain ⟨-, length⟩ := stored_shape first
      rw [found, Option.bind_some]
      dsimp only
      cases second : jjParseValue upper t.code with
      | none =>
          rw [parse_none _ _ second]
          rfl
      | some high =>
          obtain ⟨both, found', held'⟩ := parse_second length held second
          obtain ⟨-, length'⟩ := stored_shape second
          have same : both = .ofBounds t.len low high :=
            value_ext (held'.trans (ofBounds_bytes length length').symm)
          have compared : jjValueMatchesFilter (both.bytes.drop t.len) both.bytes t .less =
              jjValueMatchesFilter high low t .less := by
            rw [jjValueMatchesFilter, held', packed_lower length, packed_upper length length']
            rfl
          rw [found', Option.bind_some]
          dsimp only
          rw [compared, same]
          rfl

theorem stringFind_le {text needle : CString} {i : Nat} (found : stringFind text needle 0 = some i) :
    i + needle.length ≤ text.length := by
  have here := List.find?_some found
  simp only [Nat.zero_le, decide_true, Bool.true_and, List.isPrefixOf_iff_prefix] at here
  have inside := List.mem_of_find?_eq_some found
  have size := here.length_le
  rw [List.length_drop] at size
  rw [List.mem_range] at inside
  omega

theorem splitAtFirst_isSome {text needle : CString} (some' : needle ≠ []) :
    (splitAtFirst needle text).isSome = (stringFind text needle 0).isSome := by
  rw [splitAtFirst_eq some', Option.isSome_map]

theorem stringFind_isSome {text needle : CString} {start : Nat} (inside : start ≤ text.length)
    (some' : needle ≠ []) :
    (stringFind text needle start).isSome = (splitAtFirst needle (text.drop start)).isSome := by
  rw [stringFind_drop inside, Option.isSome_map, splitAtFirst_isSome some']

theorem stringFind_none {text needle : CString} (start : Nat) (some' : needle ≠ [])
    (absent : stringFind text needle 0 = none) : (stringFind text needle start).isSome = false := by
  have nowhere : ¬needle <:+: text := by
    rw [← splitAtFirst_eq_none some', splitAtFirst_eq some', absent]
    rfl
  refine Option.isSome_eq_false_iff.mpr (Option.isNone_iff_eq_none.mpr (List.find?_eq_none.mpr ?_))
  intro i _ here
  simp only [Bool.and_eq_true, List.isPrefixOf_iff_prefix] at here
  exact nowhere (here.2.isInfix.trans (List.drop_suffix i text).isInfix)

/-- The token is cut at the only spelling of the separator that it has. -/
def CutAt (token before after : CString) : Prop :=
  splitAtFirst tilde token = some (before, after) ∧ splitAtFirst wideTilde token = none ∨
    splitAtFirst tilde token = none ∧ splitAtFirst wideTilde token = some (before, after)

/-- What is left to do with the two sides of a separator. -/
def parseSides (t : SearchType) (before after : CString) : Option JJSearchValue :=
  if (splitAtFirst tilde after).isSome || (splitAtFirst wideTilde after).isSome then none
  else if trimSearchToken before = [] || trimSearchToken after = [] then none
  else parseBounds t (trimSearchToken before) (trimSearchToken after)

section
variable {member token before after : CString}

theorem CutAt.nonempty (cut : CutAt token before after) : token ≠ [] := by
  rintro rfl
  rcases cut with ⟨narrow, -⟩ | ⟨-, wide⟩
  · exact absurd narrow (by simp [splitAtFirst, tilde])
  · exact absurd wide (by simp [splitAtFirst, wideTilde])

theorem parseSearchMember_sides (cut : CutAt (trimSearchToken member) before after) :
    parseSearchMember t member = parseSides t before after := by
  have some' := cut.nonempty
  unfold parseSides parseBounds
  rcases cut with ⟨narrow, wide⟩ | ⟨narrow, wide⟩
  all_goals
    simp only [parseSearchMember, some', if_false, narrow, wide]
    congr 2
    cases jjParseValue (trimSearchToken before) t.code with
    | none => rfl
    | some low => cases jjParseValue (trimSearchToken after) t.code <;> rfl

theorem stringFind_of_cut {needle : CString} (some' : needle ≠ [])
    (cut : splitAtFirst needle token = some (before, after)) :
    ∃ separator, stringFind token needle 0 = some separator ∧
      separator + needle.length ≤ token.length ∧ substring token 0 separator = before ∧
        token.drop (separator + needle.length) = after := by
  rw [splitAtFirst_eq some'] at cut
  obtain ⟨separator, found, same⟩ := Option.map_eq_some_iff.mp cut
  obtain ⟨rfl, rfl⟩ := Prod.mk.inj same
  exact ⟨separator, found, stringFind_le found, rfl, rfl⟩

theorem stringFind_of_none {needle : CString} (some' : needle ≠ [])
    (absent : splitAtFirst needle token = none) : stringFind token needle 0 = none := by
  rw [splitAtFirst_eq some'] at absent
  exact Option.map_eq_none_iff.mp absent

theorem parseSearchToken_sides (cut : CutAt token before after) :
    parseSearchToken t token = parseSides t before after := by
  have narrow' : tilde ≠ [] := List.cons_ne_nil _ _
  have wide' : wideTilde ≠ [] := List.cons_ne_nil _ _
  unfold parseSearchToken parseSides
  rw [if_neg cut.nonempty]
  rcases cut with ⟨narrow, wide⟩ | ⟨narrow, wide⟩
  · have absent := stringFind_of_none wide' wide
    obtain ⟨separator, found, inside, first, second⟩ := stringFind_of_cut narrow' narrow
    have one : tilde.length = 1 := rfl
    rw [one] at inside second
    simp only [found, absent, Option.isSome_none, Option.isSome_some, Bool.and_false,
      Bool.false_eq_true, if_false, reduceCtorEq]
    rw [stringFind_isSome inside narrow', stringFind_isSome inside wide', first, second]
    congr 2
    exact range_agrees _ _
  · have absent := stringFind_of_none narrow' narrow
    obtain ⟨separator, found, inside, first, second⟩ := stringFind_of_cut wide' wide
    have narrower : (splitAtFirst tilde after).isSome = false := by
      rw [← second, ← stringFind_isSome inside narrow']
      exact stringFind_none _ narrow' absent
    simp only [found, absent, Option.isSome_none, Bool.false_and, Bool.false_eq_true, if_false,
      if_true]
    rw [stringFind_none _ narrow' absent, stringFind_isSome inside wide', narrower, first, second]
    congr 2
    exact range_agrees _ _

theorem parseSearchToken_eq (member : CString) :
    parseSearchToken t (trimSearchToken member) = parseSearchMember t member := by
  have narrow' : tilde ≠ [] := List.cons_ne_nil _ _
  have wide' : wideTilde ≠ [] := List.cons_ne_nil _ _
  cases narrow : splitAtFirst tilde (trimSearchToken member) with
  | none =>
      cases wide : splitAtFirst wideTilde (trimSearchToken member) with
      | none =>
          simp only [parseSearchToken, parseSearchMember, narrow, wide,
            stringFind_of_none narrow' narrow, stringFind_of_none wide' wide]
          split
          · rfl
          · exact single_agrees _
      | some cut =>
          have cut' : CutAt (trimSearchToken member) cut.1 cut.2 := .inr ⟨narrow, wide⟩
          rw [parseSearchToken_sides cut', parseSearchMember_sides cut']
  | some cut =>
      cases wide : splitAtFirst wideTilde (trimSearchToken member) with
      | none =>
          have cut' : CutAt (trimSearchToken member) cut.1 cut.2 := .inl ⟨narrow, wide⟩
          rw [parseSearchToken_sides cut', parseSearchMember_sides cut']
      | some other =>
          obtain ⟨first, found, -⟩ := stringFind_of_cut narrow' narrow
          obtain ⟨second, found', -⟩ := stringFind_of_cut wide' wide
          simp only [parseSearchToken, parseSearchMember, narrow, wide, found, found']
          split <;> rfl

end

/-! ### The loop -/

theorem mapM_eq_some {α β : Type} {f : α → Option β} {list : List α} {values : List β} :
    list.mapM f = some values ↔ List.Forall₂ (fun a b => f a = some b) list values := by
  induction list generalizing values with
  | nil => simp [eq_comm]
  | cons first rest ih =>
      rw [List.mapM_cons, List.forall₂_cons_left_iff]
      constructor
      · intro mapped
        obtain ⟨value, here, tail⟩ := Option.bind_eq_some_iff.mp mapped
        obtain ⟨others, later, same⟩ := Option.bind_eq_some_iff.mp tail
        exact ⟨value, others, here, ih.mp later, (Option.some.inj same).symm⟩
      · rintro ⟨value, others, here, later, rfl⟩
        exact Option.bind_eq_some_iff.mpr
          ⟨value, here, Option.bind_eq_some_iff.mpr ⟨others, ih.mpr later, rfl⟩⟩

theorem splitOn_comma {text : CString} :
    text.splitOn 0x2C = (stringFind text [0x2C] 0).elim [text] fun i =>
      text.take i :: (text.drop (i + 1)).splitOn 0x2C := by
  have comma' : ([0x2C] : CString) ≠ [] := List.cons_ne_nil _ _
  cases found : stringFind text [0x2C] 0 with
  | none =>
      have absent : ¬[0x2C] <:+: text := by
        rw [← splitAtFirst_eq_none comma', splitAtFirst_eq comma', found]
        rfl
      rw [List.singleton_infix_iff] at absent
      exact List.splitOn_eq_singleton absent
  | some i =>
      have cut : splitAtFirst [0x2C] text = some (text.take i, text.drop (i + 1)) := by
        rw [splitAtFirst_eq comma', found]
        rfl
      obtain ⟨whole, absent⟩ := (splitAtFirst_eq_some comma' (unbordered_of_not_mem List.not_mem_nil)).mp cut
      rw [List.singleton_infix_iff] at absent
      conv_lhs => rw [whole]
      exact List.splitOn_append_cons_self_of_not_mem absent _

theorem parseSearchTokens_eq (expression : CString) (fuel start : Nat) (parsed : List JJSearchValue)
    (inside : start ≤ expression.length) (enough : expression.length < fuel + start) :
    parseSearchTokens t expression fuel start parsed =
      (((expression.drop start).splitOn 0x2C).mapM (parseSearchMember t)).map (parsed ++ ·) := by
  induction fuel generalizing start parsed with
  | zero => omega
  | succ fuel ih =>
      rw [parseSearchTokens, if_neg (not_lt.mpr inside), stringFind_drop inside, splitOn_comma]
      cases found : stringFind (expression.drop start) [0x2C] 0 with
      | none =>
          have whole : substring expression start (expression.length - start) =
              expression.drop start := by
            rw [substring, List.take_of_length_le (by rw [List.length_drop])]
          simp only [Option.map_none, Option.getD_none, whole, parseSearchToken_eq]
          rw [Option.elim_none, List.mapM_cons, List.mapM_nil]
          cases parseSearchMember t (expression.drop start) <;> rfl
      | some i =>
          have size := stringFind_le found
          rw [List.length_drop, List.length_singleton] at size
          have token : substring expression start (start + i - start) =
              (expression.drop start).take i := by
            rw [substring, Nat.add_sub_cancel_left]
          have next : (expression.drop start).drop (i + 1) = expression.drop (start + i + 1) := by
            rw [List.drop_drop, Nat.add_assoc]
          simp only [Option.map_some, Option.getD_some, token, parseSearchToken_eq]
          rw [Option.elim_some, List.mapM_cons, next]
          cases parseSearchMember t ((expression.drop start).take i) with
          | none => rfl
          | some value =>
              dsimp only
              rw [ih (start + i + 1) (parsed ++ [value]) (by omega) (by omega)]
              cases ((expression.drop (start + i + 1)).splitOn 0x2C).mapM (parseSearchMember t) with
              | none => rfl
              | some values =>
                  show some ((parsed ++ [value]) ++ values) = some (parsed ++ (value :: values))
                  rw [List.append_assoc]
                  rfl

theorem jjParseSearchExpressionInto_eq (text : CString) (previous : List JJSearchValue) :
    (jjParseSearchExpressionInto (some text) t.code).run previous =
      ((jjParseSearchExpression text t.code).isSome,
        (jjParseSearchExpression text t.code).getD []) := by
  have looped := parseSearchTokens_eq (t := t) text (text.length + 1) 0 [] (Nat.zero_le _)
    (Nat.lt_succ_self _)
  rw [List.drop_zero] at looped
  simp only [jjParseSearchExpressionInto, jjParseSearchExpression, SearchType.ofCode?_code, looped]
  cases parsed : (text.splitOn 0x2C).mapM (parseSearchMember t) with
  | none => rfl
  | some values =>
      have some' : values ≠ [] := by
        rintro rfl
        have length := (mapM_eq_some.mp parsed).length_eq
        exact absurd (List.length_eq_zero_iff.mp length) (List.splitOn_ne_nil _ _)
      simp [some']
      rfl

end

end H5GG.SearchExpression
