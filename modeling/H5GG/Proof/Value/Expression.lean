import H5GG.Proof.Value.Tokens

/-!
# The grammar and the meaning of search expressions
-/

namespace H5GG.SearchExpression

/-! ### The grammar -/

/-- The text without the white space around it. -/
structure Trimmed (text token : CString) : Prop where
  around : ∃ front back, text = front ++ (token ++ back) ∧ (∀ c ∈ front, isSpace c = true) ∧
    ∀ c ∈ back, isSpace c = true
  first : ∀ c ∈ token.head?, isSpace c = false
  last : ∀ c ∈ token.getLast?, isSpace c = false

/-- The text has neither spelling of the separator. -/
def Plain (text : CString) : Prop := ¬tilde <:+: text ∧ ¬wideTilde <:+: text

/-- The integer in the first bytes of a buffer. -/
def load (t : SearchType) (buffer : Bytes) : Int :=
  loadInteger (t.scalar = .signed) (buffer.take t.len)

/-- `JJParseValue` accepts the text, and stores `value`. -/
def Accepted (t : SearchType) (text : CString) (value : Int) : Prop :=
  ∃ stored, jjParseValueInto (List.replicate 8 0) 0 (some text) t.code = (true, stored) ∧
    load t stored = value

inductive SearchMember
  | single (value : Int)
  | range (lower upper : Int)

def SearchMember.holds (current : Int) : SearchMember → Prop
  | single value => current = value
  | range lower upper => lower ≤ current ∧ current ≤ upper

inductive Spells (t : SearchType) (text : CString) : SearchMember → Prop
  | single {token : CString} {value : Int} (trimmed : Trimmed text token) (some' : token ≠ [])
      (plain : Plain token) (accepted : Accepted t token value) : Spells t text (.single value)
  | range {token before separator after lower upper : CString} {low high : Int}
      (trimmed : Trimmed text token) (whole : token = before ++ (separator ++ after))
      (separates : separator = tilde ∨ separator = wideTilde) (plain : Plain before)
      (plain' : Plain after) (trimmedLower : Trimmed before lower) (someLower : lower ≠ [])
      (trimmedUpper : Trimmed after upper) (someUpper : upper ≠ []) (acceptedLower : Accepted t lower low)
      (acceptedUpper : Accepted t upper high) (ordered : low ≤ high) : Spells t text (.range low high)

/-- The members of a comma separated list. -/
def Grammar (t : SearchType) (text : CString) (members : List SearchMember) : Prop :=
  ∃ parts : List CString, parts ≠ [] ∧ (∀ part ∈ parts, 0x2C ∉ part) ∧
    text = [0x2C].intercalate parts ∧ List.Forall₂ (Spells t) parts members

/-- The expression is accepted where it is in the grammar, and matches what its members hold of. -/
def ParsesGrammar (t : SearchType) (text : CString) : Prop :=
  ∀ previous, let parsed := (jjParseSearchExpressionInto (some text) t.code).run previous
    (parsed.1 = true ↔ ∃ members, Grammar t text members) ∧
      (∀ members, Grammar t text members → ∀ current : Bytes, current.length = 8 →
        (jjSearchValueMatchesAny current parsed.2 t 0 = true ↔
          ∃ member ∈ members, member.holds (load t current))) ∧
      (parsed.1 = false → parsed.2 = [])

section
variable {text token : CString}

theorem dropWhile_all {space : CString} (all : ∀ c ∈ space, isSpace c = true) :
    space.dropWhile isSpace = [] := List.dropWhile_eq_nil_iff.mpr all

theorem dropWhile_head (text : CString) :
    ∀ c ∈ (text.dropWhile isSpace).head?, isSpace c = false := by
  intro c head
  have kept := List.head?_dropWhile_not isSpace text
  rw [Option.mem_def] at head
  rwa [head] at kept

theorem trimmed_iff : Trimmed text token ↔ trimSearchToken text = token := by
  constructor
  · rintro ⟨⟨front, back, rfl, spaces, spaces'⟩, first, last⟩
    have reversed : ∀ c ∈ back.reverse, isSpace c = true := fun c inside =>
      spaces' c (List.mem_reverse.mp inside)
    unfold trimSearchToken
    cases token with
    | nil =>
        have all : ∀ c ∈ front ++ ([] ++ back), isSpace c = true := by
          intro c inside
          exact (List.mem_append.mp inside).elim (spaces c) (spaces' c)
        rw [dropWhile_all all]
        rfl
    | cons c rest =>
        have first' : ∀ d ∈ (c :: rest ++ back).head?, isSpace d = false := first
        rw [dropWhile_space spaces first', List.reverse_append,
          dropWhile_space reversed (by rwa [List.head?_reverse]), List.reverse_reverse]
  · rintro rfl
    have front := List.takeWhile_append_dropWhile (p := isSpace) (l := text)
    have shown := dropWhile_head text
    unfold trimSearchToken
    revert front shown
    generalize text.dropWhile isSpace = body
    intro front shown
    have back := List.takeWhile_append_dropWhile (p := isSpace) (l := body.reverse)
    have shown' := dropWhile_head body.reverse
    have whole : body = (body.reverse.dropWhile isSpace).reverse ++
        (body.reverse.takeWhile isSpace).reverse := by
      rw [← List.reverse_append, back, List.reverse_reverse]
    refine ⟨⟨_, _, front.symm.trans (congrArg _ whole), fun c => List.mem_takeWhile_imp, ?_⟩, ?_, ?_⟩
    · intro c inside
      exact List.mem_takeWhile_imp (List.mem_reverse.mp inside)
    · intro c head
      refine shown c ?_
      rw [whole, List.head?_append]
      rw [Option.mem_def] at head ⊢
      rw [head]
      rfl
    · rwa [List.getLast?_reverse]

end

/-! ### The separators -/

section
variable {text token before separator after : CString}

theorem tilde_none : splitAtFirst tilde text = none ↔ ¬tilde <:+: text :=
  splitAtFirst_eq_none (List.cons_ne_nil _ _)

theorem wideTilde_none : splitAtFirst wideTilde text = none ↔ ¬wideTilde <:+: text :=
  splitAtFirst_eq_none (List.cons_ne_nil _ _)

theorem plain_iff : Plain text ↔
    ¬((splitAtFirst tilde text).isSome || (splitAtFirst wideTilde text).isSome) = true := by
  rw [Plain, ← tilde_none, ← wideTilde_none, Bool.or_eq_true, not_or,
    Option.not_isSome_iff_eq_none, Option.not_isSome_iff_eq_none]

theorem splitAtFirst_tilde :
    splitAtFirst tilde text = some (before, after) ↔
      text = before ++ (tilde ++ after) ∧ ¬tilde <:+: before :=
  splitAtFirst_eq_some (List.cons_ne_nil _ _) (unbordered_of_not_mem List.not_mem_nil)

theorem splitAtFirst_wideTilde :
    splitAtFirst wideTilde text = some (before, after) ↔
      text = before ++ (wideTilde ++ after) ∧ ¬wideTilde <:+: before :=
  splitAtFirst_eq_some (List.cons_ne_nil _ _) (unbordered_of_not_mem (by decide))

theorem infix_of_split {needle : CString} {cut : CString × CString} (some' : needle ≠ [])
    (found : splitAtFirst needle text = some cut) : needle <:+: text := by
  by_contra absent
  rw [(splitAtFirst_eq_none some').mpr absent] at found
  cases found

theorem wideTilde_around (inside : wideTilde <:+: before ++ (tilde ++ after)) :
    wideTilde <:+: before ∨ wideTilde <:+: after := infix_of_append_cons (by decide) inside

theorem tilde_around (inside : tilde <:+: before ++ (wideTilde ++ after)) :
    tilde <:+: before ∨ tilde <:+: after := by
  simp only [tilde, List.singleton_infix_iff, List.mem_append] at inside ⊢
  rcases inside with first | spelling | second
  · exact .inl first
  · exact absurd spelling (by decide)
  · exact .inr second

theorem first_separator (shown : ¬Plain text) : ∃ before separator after,
    text = before ++ (separator ++ after) ∧ (separator = tilde ∨ separator = wideTilde) ∧
      Plain before := by
  cases narrow : splitAtFirst tilde text with
  | none =>
      have absent := tilde_none.mp narrow
      cases wide : splitAtFirst wideTilde text with
      | none => exact absurd ⟨absent, wideTilde_none.mp wide⟩ shown
      | some cut =>
          obtain ⟨before, after⟩ := cut
          obtain ⟨whole, absent'⟩ := splitAtFirst_wideTilde.mp wide
          refine ⟨before, wideTilde, after, whole, .inr rfl, fun inside => absent ?_, absent'⟩
          exact inside.trans (whole ▸ (List.prefix_append before _).isInfix)
  | some cut =>
      obtain ⟨before, after⟩ := cut
      obtain ⟨whole, absent⟩ := splitAtFirst_tilde.mp narrow
      cases wide : splitAtFirst wideTilde before with
      | none =>
          exact ⟨before, tilde, after, whole, .inl rfl, absent, wideTilde_none.mp wide⟩
      | some cut =>
          obtain ⟨first, rest⟩ := cut
          obtain ⟨rfl, absent'⟩ := splitAtFirst_wideTilde.mp wide
          refine ⟨first, wideTilde, rest ++ (tilde ++ after), ?_, .inr rfl, fun inside => absent ?_,
            absent'⟩
          · rw [whole]
            simp only [List.append_assoc]
          · exact inside.trans (List.prefix_append first _).isInfix

variable {t : SearchType} {value : JJSearchValue}

theorem guarded_eq_some {β : Type} {p q : Prop} [Decidable p] [Decidable q] {x : Option β} {v : β} :
    (if p then none else if q then none else x) = some v ↔ ¬p ∧ ¬q ∧ x = some v := by
  by_cases p <;> by_cases q <;> simp [*]

theorem parseSearchMember_single (trimmed : trimSearchToken text = token) (some' : token ≠ [])
    (plain : Plain token) :
    parseSearchMember t text =
      (jjParseValue token t.code).map fun value => .ofBounds t.len value value := by
  obtain ⟨narrow, wide⟩ := plain
  rw [← tilde_none] at narrow
  rw [← wideTilde_none] at wide
  simp only [parseSearchMember, trimmed, some', if_false, narrow, wide]

theorem parseSides_eq_some : parseSides t before after = some value ↔ Plain after ∧
    (trimSearchToken before ≠ [] ∧ trimSearchToken after ≠ []) ∧
      parseBounds t (trimSearchToken before) (trimSearchToken after) = some value := by
  rw [parseSides, guarded_eq_some, ← plain_iff]
  exact and_congr Iff.rfl (and_congr (by simp) Iff.rfl)

theorem parseSearchMember_both {narrow wide : CString × CString}
    (found : splitAtFirst tilde (trimSearchToken text) = some narrow)
    (found' : splitAtFirst wideTilde (trimSearchToken text) = some wide) :
    parseSearchMember t text = none := by
  simp only [parseSearchMember, found, found']
  split <;> rfl

theorem parseSearchMember_range (trimmed : trimSearchToken text = token)
    (whole : token = before ++ (separator ++ after))
    (separates : separator = tilde ∨ separator = wideTilde) (plain : Plain before) :
    parseSearchMember t text = some value ↔ Plain after ∧
      (trimSearchToken before ≠ [] ∧ trimSearchToken after ≠ []) ∧
        parseBounds t (trimSearchToken before) (trimSearchToken after) = some value := by
  subst trimmed
  rcases separates with rfl | rfl
  · have narrow := splitAtFirst_tilde.mpr ⟨whole, plain.1⟩
    cases wide : splitAtFirst wideTilde (trimSearchToken text) with
    | none => rw [parseSearchMember_sides (.inl ⟨narrow, wide⟩), parseSides_eq_some]
    | some cut =>
        have shown : ¬Plain after := fun plain' =>
          (wideTilde_around (whole ▸ infix_of_split (List.cons_ne_nil _ _) wide)).elim plain.2 plain'.2
        rw [parseSearchMember_both narrow wide]
        simp only [shown, false_and, reduceCtorEq]
  · have wide := splitAtFirst_wideTilde.mpr ⟨whole, plain.2⟩
    cases narrow : splitAtFirst tilde (trimSearchToken text) with
    | none => rw [parseSearchMember_sides (.inr ⟨narrow, wide⟩), parseSides_eq_some]
    | some cut =>
        have shown : ¬Plain after := fun plain' =>
          (tilde_around (whole ▸ infix_of_split (List.cons_ne_nil _ _) narrow)).elim plain.1 plain'.1
        rw [parseSearchMember_both narrow wide]
        simp only [shown, false_and, reduceCtorEq]

end

/-! ### Values and members -/

section
variable {t : SearchType} {text : CString}

theorem accepted_iff {value : Int} : Accepted t text value ↔
    ∃ stored, jjParseValue text t.code = some stored ∧ load t stored = value := by
  unfold Accepted
  rw [parseInto_zeros]
  cases jjParseValue text t.code with
  | none => simp
  | some stored =>
      constructor
      · rintro ⟨_, ⟨⟩, same⟩
        exact ⟨stored, rfl, same⟩
      · rintro ⟨_, ⟨⟩, same⟩
        exact ⟨stored, rfl, same⟩

def Encodes (t : SearchType) (value : JJSearchValue) (member : SearchMember) : Prop :=
  ∀ current : Bytes, member.holds (load t current) ↔
    t.scalar.searchValueMatches (current.take t.len) (value.lower t.len) (value.upper t.len) 0 = true

theorem searchValueMatches_iff (integer : t.scalar = .signed ∨ t.scalar = .unsigned)
    (current : Bytes) (value : JJSearchValue) :
    t.scalar.searchValueMatches (current.take t.len) (value.lower t.len) (value.upper t.len) 0 =
      true ↔ load t value.bytes ≤ load t current ∧
        load t current ≤ load t (value.bytes.drop t.len) := by
  unfold load JJSearchValue.lower JJSearchValue.upper
  rcases integer with kind | kind <;>
    simp only [kind, Scalar.searchValueMatches, Bool.and_eq_true, decide_eq_true_eq]

theorem less_iff (integer : t.scalar = .signed ∨ t.scalar = .unsigned) (current target : Bytes) :
    jjValueMatchesFilter current target t .less = true ↔ load t current < load t target := by
  unfold load jjValueMatchesFilter
  rcases integer with kind | kind <;>
    simp only [kind, Scalar.compareValues, decide_eq_true_eq]

theorem ofBounds_loads {lower upper : Bytes} (first : (lower.take t.len).length = t.len)
    (second : (upper.take t.len).length = t.len) :
    load t (JJSearchValue.ofBounds t.len lower upper).bytes = load t lower ∧
      load t ((JJSearchValue.ofBounds t.len lower upper).bytes.drop t.len) = load t upper := by
  unfold load
  rw [ofBounds_bytes first second, packed_lower first, packed_upper first second]
  exact ⟨rfl, rfl⟩

theorem encodes_single (integer : t.scalar = .signed ∨ t.scalar = .unsigned) {stored : Bytes}
    (parsed : jjParseValue text t.code = some stored) :
    Encodes t (.ofBounds t.len stored stored) (.single (load t stored)) := by
  intro current
  obtain ⟨-, length⟩ := stored_shape parsed
  obtain ⟨lower, upper⟩ := ofBounds_loads length length
  rw [searchValueMatches_iff integer, lower, upper]
  show load t current = load t stored ↔ _
  omega

theorem parseBounds_eq_some (integer : t.scalar = .signed ∨ t.scalar = .unsigned)
    {lower upper : CString} {value : JJSearchValue} :
    parseBounds t lower upper = some value ↔ ∃ low high,
      jjParseValue lower t.code = some low ∧ jjParseValue upper t.code = some high ∧
        load t low ≤ load t high ∧ value = .ofBounds t.len low high := by
  unfold parseBounds
  rw [Option.bind_eq_some_iff]
  constructor
  · rintro ⟨low, first, rest⟩
    obtain ⟨high, second, packed⟩ := Option.bind_eq_some_iff.mp rest
    split at packed
    · cases packed
    · rename_i kept
      rw [less_iff integer, not_lt] at kept
      exact ⟨low, high, first, second, kept, (Option.some.inj packed).symm⟩
  · rintro ⟨low, high, first, second, ordered, rfl⟩
    refine ⟨low, first, Option.bind_eq_some_iff.mpr ⟨high, second, if_neg ?_⟩⟩
    rwa [less_iff integer, not_lt]

theorem parseSearchMember_of_spells (integer : t.scalar = .signed ∨ t.scalar = .unsigned)
    {member : SearchMember} (spelled : Spells t text member) :
    ∃ value, parseSearchMember t text = some value ∧ Encodes t value member := by
  cases spelled with
  | single trimmed some' plain accepted =>
      obtain ⟨stored, parsed, rfl⟩ := accepted_iff.mp accepted
      refine ⟨_, ?_, encodes_single integer parsed⟩
      rw [parseSearchMember_single (trimmed_iff.mp trimmed) some' plain, parsed]
      rfl
  | range trimmed whole separates plain plain' trimmedLower someLower trimmedUpper someUpper
      acceptedLower acceptedUpper ordered =>
      obtain ⟨low, first, rfl⟩ := accepted_iff.mp acceptedLower
      obtain ⟨high, second, rfl⟩ := accepted_iff.mp acceptedUpper
      refine ⟨.ofBounds t.len low high, ?_, fun current => ?_⟩
      · rw [parseSearchMember_range (trimmed_iff.mp trimmed) whole separates plain,
          trimmed_iff.mp trimmedLower, trimmed_iff.mp trimmedUpper, parseBounds_eq_some integer]
        exact ⟨plain', ⟨someLower, someUpper⟩, low, high, first, second, ordered, rfl⟩
      · obtain ⟨-, length⟩ := stored_shape first
        obtain ⟨-, length'⟩ := stored_shape second
        obtain ⟨lower, upper⟩ := ofBounds_loads length length'
        rw [searchValueMatches_iff integer, lower, upper]
        rfl

theorem spells_of_parseSearchMember (integer : t.scalar = .signed ∨ t.scalar = .unsigned)
    {value : JJSearchValue} (parsed : parseSearchMember t text = some value) :
    ∃ member, Spells t text member := by
  have trimmed := trimmed_iff.mpr (Eq.refl (trimSearchToken text))
  by_cases some' : trimSearchToken text = []
  · simp only [parseSearchMember, some', if_true, reduceCtorEq] at parsed
  by_cases plain : Plain (trimSearchToken text)
  · rw [parseSearchMember_single rfl some' plain] at parsed
    obtain ⟨stored, accepted, -⟩ := Option.map_eq_some_iff.mp parsed
    exact ⟨_, .single trimmed some' plain (accepted_iff.mpr ⟨stored, accepted, rfl⟩)⟩
  · obtain ⟨before, separator, after, whole, separates, plain⟩ := first_separator plain
    rw [parseSearchMember_range rfl whole separates plain, parseBounds_eq_some integer] at parsed
    obtain ⟨plain', ⟨someLower, someUpper⟩, low, high, first, second, ordered, -⟩ := parsed
    exact ⟨_, .range trimmed whole separates plain plain' (trimmed_iff.mpr rfl) someLower
      (trimmed_iff.mpr rfl) someUpper (accepted_iff.mpr ⟨low, first, rfl⟩)
      (accepted_iff.mpr ⟨high, second, rfl⟩) ordered⟩

theorem values_of_members (integer : t.scalar = .signed ∨ t.scalar = .unsigned)
    {parts : List CString} {members : List SearchMember}
    (spelled : List.Forall₂ (Spells t) parts members) :
    ∃ values, parts.mapM (parseSearchMember t) = some values ∧
      List.Forall₂ (Encodes t) values members := by
  induction spelled with
  | nil => exact ⟨[], rfl, .nil⟩
  | cons first rest ih =>
      obtain ⟨value, parsed, encodes⟩ := parseSearchMember_of_spells integer first
      obtain ⟨values, mapped, others⟩ := ih
      refine ⟨value :: values, ?_, .cons encodes others⟩
      rw [List.mapM_cons, parsed, mapped]
      rfl

theorem members_of_values (integer : t.scalar = .signed ∨ t.scalar = .unsigned)
    {parts : List CString} {values : List JJSearchValue}
    (parsed : List.Forall₂ (fun part value => parseSearchMember t part = some value) parts values) :
    ∃ members, List.Forall₂ (Spells t) parts members := by
  induction parsed with
  | nil => exact ⟨[], .nil⟩
  | cons first rest ih =>
      obtain ⟨member, spelled⟩ := spells_of_parseSearchMember integer first
      obtain ⟨members, others⟩ := ih
      exact ⟨member :: members, .cons spelled others⟩

theorem matchesAny_iff {values : List JJSearchValue} {members : List SearchMember}
    (encodes : List.Forall₂ (Encodes t) values members) (current : Bytes) :
    jjSearchValueMatchesAny current values t 0 = true ↔
      ∃ member ∈ members, member.holds (load t current) := by
  have positive : toleranceNegative 0 = false := by decide
  simp only [jjSearchValueMatchesAny, positive, Bool.not_false, Bool.true_and]
  induction encodes with
  | nil => simp
  | cons first rest ih =>
      rw [List.any_cons, Bool.or_eq_true, List.exists_mem_cons_iff]
      exact or_congr (first current).symm ih

theorem not_mem_of_mem_splitOn {part : CString} (inside : part ∈ text.splitOn 0x2C) :
    0x2C ∉ part := by
  induction text generalizing part with
  | nil =>
      obtain rfl : part = [] := by simpa using inside
      exact List.not_mem_nil
  | cons c rest ih =>
      rw [List.splitOn_cons_eq_if_modifyHead] at inside
      obtain ⟨first, others, split⟩ := List.exists_cons_of_ne_nil (List.splitOn_ne_nil 0x2C rest)
      rw [split] at ih inside
      by_cases comma : c = 0x2C
      · rw [if_pos (beq_iff_eq.mpr comma)] at inside
        rcases List.mem_cons.mp inside with rfl | later
        · exact List.not_mem_nil
        · exact ih later
      · rw [if_neg (by rwa [beq_iff_eq]), List.modifyHead_cons] at inside
        rcases List.mem_cons.mp inside with rfl | later
        · rw [List.mem_cons, not_or]
          exact ⟨Ne.symm comma, ih List.mem_cons_self⟩
        · exact ih (List.mem_cons_of_mem first later)

end

section
variable {t : SearchType} (integer : t.scalar = .signed ∨ t.scalar = .unsigned) (text : CString)
include integer

/-- Search expressions of an integer type have exactly the grammar and the meaning above. -/
theorem parseSearchExpression_exact : ParsesGrammar t text := by
  intro previous
  have unfolded : jjParseSearchExpression text t.code =
      (text.splitOn 0x2C).mapM (parseSearchMember t) := by
    simp only [jjParseSearchExpression, SearchType.ofCode?_code]
  rw [jjParseSearchExpressionInto_eq, unfolded]
  have parse (members : List SearchMember) (grammar : Grammar t text members) :
      ∃ values, (text.splitOn 0x2C).mapM (parseSearchMember t) = some values ∧
        List.Forall₂ (Encodes t) values members := by
    obtain ⟨parts, some', plain, rfl, spelled⟩ := grammar
    rw [List.splitOn_intercalate 0x2C plain some']
    exact values_of_members integer spelled
  refine ⟨⟨fun accepted => ?_, ?_⟩, fun members grammar current _ => ?_, ?_⟩
  · obtain ⟨values, parsed⟩ := Option.isSome_iff_exists.mp accepted
    obtain ⟨members, spelled⟩ := members_of_values integer (mapM_eq_some.mp parsed)
    exact ⟨members, text.splitOn 0x2C, List.splitOn_ne_nil _ _, fun _ => not_mem_of_mem_splitOn,
      (List.intercalate_splitOn 0x2C).symm, spelled⟩
  · rintro ⟨members, grammar⟩
    obtain ⟨values, parsed, -⟩ := parse members grammar
    rw [parsed]
    rfl
  · obtain ⟨values, parsed, encodes⟩ := parse members grammar
    rw [parsed]
    exact matchesAny_iff encodes current
  · intro refused
    rw [Option.isSome_eq_false_iff, Option.isNone_iff_eq_none] at refused
    rw [refused]
    rfl

end

/-- `"1~3, 5"`. -/
theorem parseSearchExpression_exact_list :
    ParsesGrammar .uByte [0x31, 0x7E, 0x33, 0x2C, 0x20, 0x35] :=
  parseSearchExpression_exact (.inr rfl) _

end H5GG.SearchExpression
