import H5GG.Freezer
import H5GG.Proof.Dump
import Mathlib.Data.List.Nodup
import Mathlib.Data.List.TakeWhile
import Mathlib.Data.Option.Basic

/-!
# The freezer's timer and entries
-/

namespace H5GG

/-! ## Spellings of an address -/

/-- The texts that name an address: decimal digits, or hexadecimal ones after `0x`. -/
inductive Spells (address : Nat) : CString → Prop
  | decimal (digits : List UInt8) (some' : digits ≠ []) (all : ∀ c ∈ digits, isDigit c = true)
      (value : digitsValue 10 digits = address) : Spells address digits
  | hexadecimal (digits : List UInt8) (some' : digits ≠ [])
      (all : ∀ c ∈ digits, isXDigit c = true) (value : digitsValue 16 digits = address) :
      Spells address (0x30 :: 0x78 :: digits)

theorem digitsValue_zero (base : Nat) (digits : List UInt8) :
    digitsValue base (0x30 :: digits) = digitsValue base digits := by
  simp [digitsValue, hexDigitValue]

theorem hexDigitValue_toLower (c : UInt8) : hexDigitValue (toLower c) = hexDigitValue c := by
  obtain ⟨⟨code⟩⟩ := c
  revert code
  decide +kernel

theorem digitsValue_toLower (base : Nat) (digits : List UInt8) :
    digitsValue base (digits.map toLower) = digitsValue base digits := by
  unfold digitsValue
  rw [List.foldl_map]
  simp only [hexDigitValue_toLower]

theorem plain_of_isXDigit (c : UInt8) : isXDigit c = true →
    isSpace c = false ∧ c ≠ 0x2D ∧ c ≠ 0x2B ∧ c ≠ 0x78 ∧ toLower c ≠ 0x78 := by
  obtain ⟨⟨code⟩⟩ := c
  revert code
  decide +kernel

theorem isXDigit_of_isDigit (c : UInt8) : isDigit c = true → isXDigit c = true := by
  obtain ⟨⟨code⟩⟩ := c
  revert code
  decide +kernel

theorem skipSign_plain {first : UInt8} {rest : CString} (space : isSpace first = false)
    (minus : first ≠ 0x2D) (plus : first ≠ 0x2B) :
    skipSign (first :: rest) = (false, first :: rest) := by
  simp only [skipSign, List.dropWhile_cons, space, Bool.false_eq_true, if_false]
  split
  next same => exact absurd (List.cons.inj same).1 minus
  next same => exact absurd (List.cons.inj same).1 plus
  next => rfl

theorem drop_takeWhile {accepts : UInt8 → Bool} {text : CString} :
    text.drop (text.takeWhile accepts).length = [] ↔ ∀ c ∈ text, accepts c = true := by
  rw [List.drop_eq_nil_iff, ← List.takeWhile_eq_self_iff]
  constructor
  · exact (List.takeWhile_prefix accepts).eq_of_length_le
  · exact fun whole => le_of_eq (congrArg List.length whole.symm)

/-- Where the digits are all that is left. -/
theorem digits_left {accepts : UInt8 → Bool} {body digits : CString} {negative found : Bool} :
    (if body.takeWhile accepts = [] then none
      else some (found, body.takeWhile accepts, body.drop (body.takeWhile accepts).length)) =
        some (negative, digits, []) ↔
      found = negative ∧ digits = body ∧ body ≠ [] ∧ ∀ c ∈ body, accepts c = true := by
  constructor
  · intro same
    split_ifs at same with none'
    simp only [Option.some.injEq, Prod.mk.injEq] at same
    obtain ⟨sign, rfl, left⟩ := same
    have all := drop_takeWhile.mp left
    have whole := List.takeWhile_eq_self_iff.mpr all
    exact ⟨sign, whole, fun empty => none' (by rw [empty]; rfl), all⟩
  · rintro ⟨rfl, rfl, some', all⟩
    have whole := List.takeWhile_eq_self_iff.mpr all
    rw [if_neg (by rwa [whole]), drop_takeWhile.mpr all, whole]

theorem digits_whole {accepts : UInt8 → Bool} {text digits : CString} (some' : text ≠ []) :
    (if text.takeWhile accepts = [] then none
      else some (false, text.takeWhile accepts, text.drop (text.takeWhile accepts).length)) =
        some (false, digits, []) ↔ digits = text ∧ ∀ c ∈ text, accepts c = true := by
  rw [digits_left]
  simp [some']

theorem subjectSequence_decimal {first : UInt8} {rest digits : CString}
    (sign : skipSign (first :: rest) = (false, first :: rest)) :
    subjectSequence (first :: rest) 10 = some (false, digits, []) ↔
      digits = first :: rest ∧ ∀ c ∈ first :: rest, isDigit c = true := by
  simp only [subjectSequence, sign]
  exact digits_whole (List.cons_ne_nil first rest)

theorem subjectSequence_hexadecimal {text digits : CString} :
    subjectSequence (0x30 :: 0x78 :: text) 16 = some (false, digits, []) ↔
      digits = text ∧ text ≠ [] ∧ ∀ c ∈ text, isXDigit c = true := by
  have sign : skipSign (0x30 :: 0x78 :: text) = (false, 0x30 :: 0x78 :: text) :=
    skipSign_plain rfl (by decide) (by decide)
  -- A `0x` that no digit follows is the digit 0 and an `x` that is left over.
  have bare : ¬∀ c ∈ (0x30 :: 0x78 :: text : CString), isXDigit c = true := fun all =>
    absurd (all 0x78 (by simp)) (by decide)
  simp only [subjectSequence, sign, if_true]
  cases text with
  | nil =>
      refine (digits_whole (List.cons_ne_nil _ _)).trans (iff_of_false (fun all => bare all.2) ?_)
      simp
  | cons c rest =>
      cases digit : isXDigit c with
      | true =>
          have lower : toLower 0x78 = 0x78 := by decide
          simp only [lower, digit, decide_true, Bool.and_self, if_true]
          refine (digits_whole (List.cons_ne_nil c rest)).trans ?_
          simp
      | false =>
          simp only [digit, Bool.and_false, Bool.false_eq_true, if_false]
          refine (digits_whole (List.cons_ne_nil _ _)).trans
            (iff_of_false (fun all => bare all.2) fun all => ?_)
          exact absurd (all.2.2 c (.head rest)) (by simp [digit])

/-- A text that `JJParseAddress` takes to the end. -/
theorem jjParseAddress_eq_some {first : UInt8} {rest : CString} {base address : Nat}
    (known : base = 10 ∨ base = 16)
    (space : isSpace first = false) (minus : first ≠ 0x2D) (plus : first ≠ 0x2B) :
    jjParseAddress (first :: rest) base = some address ↔
      ∃ digits, subjectSequence (first :: rest) base = some (false, digits, []) ∧
        digitsValue base digits = address ∧ address < 2 ^ 64 := by
  have sign : skipSign (first :: rest) = (false, first :: rest) := skipSign_plain space minus plus
  have admitted :
      ¬(((base ≠ 10 && base ≠ 16) || first = 0x2D || first = 0x2B || isSpace first) = true) := by
    simp only [space, minus, plus, decide_false, Bool.or_false]
    cases known with
    | inl decimal => simp [decimal]
    | inr hexadecimal => simp [hexadecimal]
  rw [jjParseAddress, if_neg admitted]
  cases subject : subjectSequence (first :: rest) base with
  | none =>
      have parsed : strtoull (first :: rest) base = ⟨0, first :: rest, false⟩ := by
        simp only [strtoull, subject]
      simp [parsed]
  | some found =>
      obtain ⟨negative, digits, after⟩ := found
      have unsigned : negative = false := by
        simp only [subjectSequence, sign] at subject
        split at subject <;> split_ifs at subject <;> (cases subject; rfl)
      subst unsigned
      by_cases large : 2 ^ 64 ≤ digitsValue base digits
      · have parsed : strtoull (first :: rest) base = ⟨2 ^ 64 - 1, after, true⟩ := by
          simp only [strtoull, subject, large, if_true]
        simp only [parsed, Bool.or_true, if_true]
        constructor
        · intro none'
          cases none'
        · rintro ⟨other, same, value, small⟩
          cases same
          omega
      · have parsed : strtoull (first :: rest) base = ⟨digitsValue base digits, after, false⟩ := by
          simp only [strtoull, subject, large, Bool.false_eq_true, if_false]
        simp only [parsed, Bool.or_false, decide_eq_true_eq]
        constructor
        · intro same
          split_ifs at same with left
          cases same
          exact ⟨digits, by rw [not_not.mp left], rfl, Nat.lt_of_not_le large⟩
        · rintro ⟨other, same, value, small⟩
          cases same
          simp [value]

theorem hasPrefix_0x {spelling : Option NSString} {text : CString}
    (utf8 : NSString.utf8String spelling = some text) :
    NSString.hasPrefix (.ofAscii "0x") spelling = true ↔ ∃ rest, text = 0x30 :: 0x78 :: rest := by
  obtain ⟨⟨raw⟩, rfl, encoded⟩ := Option.bind_eq_some_iff.mp utf8
  obtain ⟨raw, rfl, rfl⟩ := Option.map_eq_some_iff.mp encoded
  have prefix' : (NSString.ofAscii "0x").utf8 = some [0x30, 0x78] := by decide
  simp only [NSString.hasPrefix, Option.any_some, prefix']
  constructor
  · intro starts
    obtain ⟨rest, rfl⟩ := List.isPrefixOf_iff_prefix.mp starts
    exact ⟨rest.takeWhile (· ≠ 0), rfl⟩
  · rintro ⟨rest, starts⟩
    have longer := List.takeWhile_prefix (l := raw) (fun c : UInt8 => decide (c ≠ 0))
    rw [starts] at longer
    exact List.isPrefixOf_iff_prefix.mpr ((List.prefix_append [0x30, 0x78] rest).trans longer)

theorem jjParseAddress_decimal {text : CString} {address : Nat}
    (bare : ¬∃ rest, text = 0x30 :: 0x78 :: rest) :
    jjParseAddress text 10 = some address ↔ Spells address text ∧ address < 2 ^ 64 := by
  cases text with
  | nil =>
      refine iff_of_false (fun parsed => by cases parsed) ?_
      rintro ⟨⟨-, some', -, -⟩, -⟩
      exact some' rfl
  | cons first rest =>
      have digital : Spells address (first :: rest) →
          (∀ c ∈ first :: rest, isDigit c = true) ∧ digitsValue 10 (first :: rest) = address := by
        intro spells
        cases spells with
        | decimal _ _ all value => exact ⟨all, value⟩
        | hexadecimal digits => exact absurd ⟨digits, rfl⟩ bare
      by_cases plain : isSpace first = false ∧ first ≠ 0x2D ∧ first ≠ 0x2B
      · obtain ⟨space, minus, plus⟩ := plain
        rw [jjParseAddress_eq_some (.inl rfl) space minus plus]
        simp only [subjectSequence_decimal (skipSign_plain space minus plus)]
        constructor
        · rintro ⟨_, ⟨rfl, all⟩, value, small⟩
          exact ⟨.decimal _ (List.cons_ne_nil first rest) all value, small⟩
        · rintro ⟨spells, small⟩
          obtain ⟨all, value⟩ := digital spells
          exact ⟨_, ⟨rfl, all⟩, value, small⟩
      · refine iff_of_false (fun parsed => ?_) (fun spelled => ?_)
        · rw [jjParseAddress, if_pos] at parsed
          · cases parsed
          · simp only [ne_eq, not_true_eq_false, decide_false, Bool.false_and, Bool.false_or,
              Bool.or_eq_true, decide_eq_true_eq]
            by_contra none'
            simp only [not_or, Bool.not_eq_true] at none'
            exact plain ⟨none'.2, none'.1.1, none'.1.2⟩
        · have digit := isXDigit_of_isDigit first ((digital spelled.1).1 first (.head rest))
          obtain ⟨space, minus, plus, -⟩ := plain_of_isXDigit first digit
          exact plain ⟨space, minus, plus⟩

theorem jjParseAddress_hexadecimal {text : CString} {address : Nat} :
    jjParseAddress (0x30 :: 0x78 :: text) 16 = some address ↔
      Spells address (0x30 :: 0x78 :: text) ∧ address < 2 ^ 64 := by
  rw [jjParseAddress_eq_some (.inr rfl) rfl (by decide) (by decide)]
  simp only [subjectSequence_hexadecimal]
  constructor
  · rintro ⟨_, ⟨rfl, some', all⟩, value, small⟩
    exact ⟨.hexadecimal _ some' all value, small⟩
  · rintro ⟨spells, small⟩
    generalize spelled : (0x30 :: 0x78 :: text : CString) = whole at spells
    cases spells with
    | decimal _ _ all _ =>
        subst spelled
        exact absurd (all 0x78 (by simp)) (by decide)
    | hexadecimal digits some' all value =>
        cases spelled
        exact ⟨text, ⟨rfl, some', all⟩, value, small⟩

theorem parseAddress_eq_some {spelling : Option NSString} {address : Nat} :
    FreezerController.parseAddress spelling = some address ↔
      ∃ text, NSString.utf8String spelling = some text ∧ Spells address text ∧
        address < 2 ^ 64 := by
  rw [FreezerController.parseAddress, Option.bind_eq_some_iff]
  refine exists_congr fun text => and_congr_right fun utf8 => ?_
  by_cases hexadecimal : ∃ rest, text = 0x30 :: 0x78 :: rest
  · rw [if_pos ((hasPrefix_0x utf8).mpr hexadecimal)]
    obtain ⟨rest, rfl⟩ := hexadecimal
    exact jjParseAddress_hexadecimal
  · rw [if_neg (mt (hasPrefix_0x utf8).mp hexadecimal)]
    exact jjParseAddress_decimal hexadecimal

/-! ## Keys -/

theorem digitChar_inj {left right : Nat} (below : left < 16) (under : right < 16)
    (same : (Nat.digitChar left).toUpper = (Nat.digitChar right).toUpper) : left = right := by
  have all : ∀ i j : Fin 16,
      (Nat.digitChar i).toUpper = (Nat.digitChar j).toUpper → i = j := by decide
  exact congrArg Fin.val (all ⟨left, below⟩ ⟨right, under⟩ same)

theorem toDigits_inj (left : Nat) : ∀ right : Nat,
    (Nat.toDigits 16 left).map Char.toUpper = (Nat.toDigits 16 right).map Char.toUpper →
      left = right := by
  induction left using Nat.strong_induction_on with
  | _ left ih =>
      intro right same
      have lengths := congrArg List.length same
      rw [Nat.toDigits_eq_if (n := left) (by decide),
        Nat.toDigits_eq_if (n := right) (by decide)] at same lengths
      simp only [List.length_map] at lengths
      split_ifs at same lengths with small small' small'
      · simp only [List.map_cons, List.map_nil, List.cons.injEq, and_true] at same
        exact digitChar_inj small small' same
      · simp at lengths
      · simp at lengths
      · rw [List.map_append, List.map_append] at same
        have parts := List.append_inj' same rfl
        have head := ih (left / 16) (by omega) (right / 16) parts.1
        have last := digitChar_inj (Nat.mod_lt left (by decide)) (Nat.mod_lt right (by decide))
          (List.cons.inj parts.2).1
        omega

theorem hexAddress_inj {left right : Nat} (same : hexAddress left = hexAddress right) :
    left = right := by
  have digits := congrArg String.toList same
  simp only [hexAddress, String.toList_append, String.toList_ofList] at digits
  exact toDigits_inj left right (List.append_cancel_left digits)

namespace FrozenEntries

variable {entries : FrozenEntries} {key : String} {entry : FrozenEntry}

theorem mem_removeObject {it : String × FrozenEntry} :
    it ∈ entries.removeObject key ↔ it.1 ≠ key ∧ it ∈ entries := by
  rw [removeObject, List.mem_filter, decide_eq_true_eq, and_comm]

theorem mem_setObject {it : String × FrozenEntry} :
    it ∈ entries.setObject key entry ↔ it.1 ≠ key ∧ it ∈ entries ∨ it = (key, entry) := by
  rw [setObject, List.mem_append, mem_removeObject, List.mem_singleton]

theorem keys_removeObject (nodup : (entries.map Prod.fst).Nodup) :
    ((entries.removeObject key).map Prod.fst).Nodup :=
  nodup.sublist (List.filter_sublist.map Prod.fst)

theorem keys_setObject (nodup : (entries.map Prod.fst).Nodup) :
    ((entries.setObject key entry).map Prod.fst).Nodup := by
  rw [setObject, List.map_append]
  refine List.nodup_append.mpr ⟨keys_removeObject nodup, by simp, ?_⟩
  rintro other listed last same rfl
  obtain ⟨it, there, rfl⟩ := List.mem_map.mp listed
  have equal : it.1 = key := by simpa using same
  exact (mem_removeObject.mp there).1 equal

theorem lookup_isNone : (entries.lookup key).isNone = true ↔ ∀ it ∈ entries, it.1 ≠ key := by
  rw [Option.isNone_iff_eq_none, List.lookup_eq_none_iff]
  refine forall₂_congr fun it _ => ?_
  rw [bne_iff_ne, ne_comm]

end FrozenEntries

/-- The entry holds what its own texts parse to. -/
structure FrozenEntry.Parsed (entry : FrozenEntry) : Prop where
  address : entry.address = hexAddress entry.numericAddress
  valueType : entry.valueType = jjTypeFromName (NSString.utf8String (some entry.type))
  bytes : ∃ text parsed, NSString.utf8String (some entry.value) = some text ∧
    jjParseValue text entry.valueType = some parsed ∧
      entry.bytes = parsed.take (searchTypeLen entry.valueType)
  targetPID : 0 < entry.targetPID

namespace FreezerController

theorem entryFor_parsed {available : Bool} {targetPID : Int} {address value type : Option NSString}
    {entry : FrozenEntry}
    (made : entryFor available targetPID address value type = some entry) : entry.Parsed := by
  simp only [entryFor, Option.bind_eq_bind, Option.bind_eq_some_iff, Option.guard_eq_some',
    Option.pure_def, Option.some.injEq] at made
  obtain ⟨value', rfl, type', rfl, -, -, searchType, known, numericAddress, -, -, -, parsed, ⟨text,
    utf8, parses⟩, -, positive, rfl⟩ := made
  have code := SearchType.ofCode?_eq_some.mp known
  refine ⟨rfl, rfl, ⟨text, parsed, utf8, parses, ?_⟩, positive⟩
  rw [← code]
  rfl

theorem entryFor_address {available : Bool} {targetPID : Int} {address value type : Option NSString}
    {entry : FrozenEntry} (made : entryFor available targetPID address value type = some entry) :
    parseAddress address = some entry.numericAddress := by
  simp only [entryFor, Option.bind_eq_bind, Option.bind_eq_some_iff, Option.guard_eq_some',
    Option.pure_def, Option.some.injEq] at made
  obtain ⟨-, -, -, -, -, -, -, -, numericAddress, spelled, -, -, -, -, -, -, rfl⟩ := made
  exact spelled

structure Good (f : FreezerController) : Prop where
  keyed : ∀ it ∈ f.entries, it.1 = it.2.address
  parsed : ∀ it ∈ f.entries, it.2.Parsed
  nodup : (f.entries.map Prod.fst).Nodup
  timer : f.timer.isSome = true ↔ f.entries ≠ []
  running : ∀ timer, f.timer = some timer ↔ timer < f.started ∧ timer ∉ f.stopped
  once : f.stopped.Nodup
  known : ∀ timer ∈ f.stopped, timer < f.started

theorem start_good : ({} : FreezerController).Good := by
  constructor <;> simp

theorem Good.start {f : FreezerController} (good : f.Good) (idle : f.timer = none)
    {entries : FrozenEntries} (some' : entries ≠ []) (keyed : ∀ it ∈ entries, it.1 = it.2.address)
    (parsed : ∀ it ∈ entries, it.2.Parsed) (nodup : (entries.map Prod.fst).Nodup) :
    ({ f with entries, timer := some f.started, started := f.started + 1 } :
      FreezerController).Good where
  keyed := keyed
  parsed := parsed
  nodup := nodup
  timer := iff_of_true rfl some'
  running timer := by
    have rest := good.running timer
    rw [idle] at rest
    have fresh : f.started ∉ f.stopped := fun gone => Nat.lt_irrefl _ (good.known _ gone)
    grind
  once := good.once
  known timer gone := Nat.lt_succ_of_lt (good.known timer gone)

theorem Good.empty {f : FreezerController} (good : f.Good) (idle : f.timer = none) :
    f.entries = [] := by
  by_contra some'
  have held := good.timer.mpr some'
  rw [idle] at held
  cases held

theorem Good.stop {f : FreezerController} (good : f.Good) :
    ({ f with entries := [] } : FreezerController).stopTimer.Good := by
  obtain ⟨timer, entries, started, stopped⟩ := f
  cases timer with
  | none =>
      have empty : entries = [] := good.empty rfl
      subst empty
      exact good
  | some held =>
      have current : held < started ∧ held ∉ stopped := (good.running held).mp rfl
      have running : ∀ timer, some held = some timer ↔ timer < started ∧ timer ∉ stopped :=
        good.running
      have once : stopped.Nodup := good.once
      have known : ∀ timer ∈ stopped, timer < started := good.known
      exact {
        keyed := fun _ inside => (nomatch inside)
        parsed := fun _ inside => (nomatch inside)
        nodup := .nil
        timer := iff_of_false (by simp [stopTimer]) (by simp [stopTimer])
        running := by grind [stopTimer]
        once := by grind [stopTimer]
        known := by grind [stopTimer] }

@[simp] theorem stopTimer_entries (f : FreezerController) : f.stopTimer.entries = f.entries := by
  unfold stopTimer
  split <;> rfl

@[simp] theorem clear_entries (f : FreezerController) : f.clear.entries = [] :=
  stopTimer_entries _

theorem unfreezeAddress_entries {f : FreezerController} {address : Option NSString}
    {it : String × FrozenEntry} (inside : it ∈ (f.unfreezeAddress address).2.entries) :
    it ∈ f.entries := by
  unfold unfreezeAddress at inside
  split at inside
  · exact inside
  · dsimp only at inside
    split_ifs at inside
    · exact inside
    · rw [stopTimer_entries] at inside
      exact (FrozenEntries.mem_removeObject.mp inside).2
    · exact (FrozenEntries.mem_removeObject.mp inside).2

theorem Good.replace {f : FreezerController} (good : f.Good) {entries : FrozenEntries}
    (some' : entries ≠ [] ↔ f.entries ≠ []) (keyed : ∀ it ∈ entries, it.1 = it.2.address)
    (parsed : ∀ it ∈ entries, it.2.Parsed) (nodup : (entries.map Prod.fst).Nodup) :
    ({ f with entries } : FreezerController).Good :=
  { good with keyed, parsed, nodup, timer := good.timer.trans some'.symm }

theorem Good.key {f : FreezerController} (good : f.Good) {it : String × FrozenEntry}
    (inside : it ∈ f.entries) : it.1 = hexAddress it.2.numericAddress :=
  (good.keyed it inside).trans (good.parsed it inside).address

theorem freezeAddress_eq {f : FreezerController} (good : f.Good) (available : Bool)
    (targetPID : Int) (schedules : Bool) (address value type : Option NSString) :
    f.freezeAddress available targetPID schedules address value type = (false, f) ∨
      ∃ entry, entryFor available targetPID address value type = some entry ∧
        f.freezeAddress available targetPID schedules address value type =
          (true, { f with
            entries := f.entries.setObject entry.address entry
            timer := some (f.timer.getD f.started)
            started := if f.timer.isSome then f.started else f.started + 1 }) := by
  obtain ⟨timer, entries, started, stopped⟩ := f
  unfold freezeAddress
  cases made : entryFor available targetPID address value type with
  | none => exact .inl rfl
  | some entry =>
      cases timer with
      | some held => exact .inr ⟨entry, rfl, rfl⟩
      | none =>
          cases schedules with
          | true => exact .inr ⟨entry, rfl, rfl⟩
          | false =>
              -- There was nothing to replace, so the rollback takes the entry out again.
              left
              have empty : entries = [] := good.empty rfl
              subst empty
              simp [FrozenEntries.setObject, FrozenEntries.removeObject]

/-- What a freeze asks for: an address that is not 0, and a value of a known type. -/
structure Asks (address value type : Option NSString) (numericAddress : Nat) (type' : SearchType)
    (parsed : Bytes) : Prop where
  spelled : parseAddress address = some numericAddress
  nonzero : numericAddress ≠ 0
  known : ∃ text, type = some text ∧
    SearchType.ofCode? (jjTypeFromName (NSString.utf8String type)) = some type'
  given : ∃ text, NSString.utf8String value = some text ∧
    jjParseValue text (jjTypeFromName (NSString.utf8String type)) = some parsed

theorem freezeAddress_accepts (f : FreezerController) {targetPID : Int} (running : 0 < targetPID)
    {schedules : Bool} (timed : f.timer.isSome = true ∨ schedules = true)
    {address value type : Option NSString} {numericAddress : Nat} {type' : SearchType}
    {parsed : Bytes} (asks : Asks address value type numericAddress type' parsed) :
    (f.freezeAddress true targetPID schedules address value type).1 = true ∧
      ∃ entry, (hexAddress numericAddress, entry) ∈
          (f.freezeAddress true targetPID schedules address value type).2.entries ∧
        entry.numericAddress = numericAddress ∧ entry.bytes = parsed.take type'.len ∧
        entry.targetPID = targetPID := by
  obtain ⟨spelled, nonzero, ⟨typeText, rfl, known⟩, valueText, given, parses⟩ := asks
  obtain ⟨valueGiven, rfl⟩ : ∃ text, value = some text := by
    cases value with
    | none => cases given
    | some text => exact ⟨text, rfl⟩
  have addressed : address.isSome = true := by
    cases address with
    | none => cases spelled
    | some text => rfl
  have made : ∃ entry, entryFor true targetPID address (some valueGiven) (some typeText) =
      some entry ∧
      entry.address = hexAddress numericAddress ∧ entry.numericAddress = numericAddress ∧
      entry.bytes = parsed.take type'.len ∧ entry.targetPID = targetPID := by
    let entry : FrozenEntry :=
      { address := hexAddress numericAddress
        value := valueGiven
        type := typeText
        numericAddress
        valueType := jjTypeFromName (NSString.utf8String (some typeText))
        bytes := parsed.take type'.len
        targetPID }
    refine ⟨entry, ?_, rfl, rfl, rfl, rfl⟩
    simp [entryFor, known, spelled, given, parses, addressed, nonzero, running, entry]
  obtain ⟨entry, made, keyed, fields⟩ := made
  have listed : (hexAddress numericAddress, entry) ∈ f.entries.setObject entry.address entry := by
    rw [← keyed]
    exact FrozenEntries.mem_setObject.mpr (.inr rfl)
  simp only [freezeAddress, made]
  split_ifs with held scheduled
  · exact ⟨rfl, entry, listed, fields⟩
  · exact ⟨rfl, entry, listed, fields⟩
  · exact absurd timed (not_or.mpr ⟨held, scheduled⟩)

theorem freezeAddress_good {f : FreezerController} (good : f.Good) (available : Bool)
    (targetPID : Int) (schedules : Bool) (address value type : Option NSString) :
    (f.freezeAddress available targetPID schedules address value type).2.Good := by
  obtain same | ⟨entry, made, same⟩ :=
    freezeAddress_eq good available targetPID schedules address value type
  · rwa [same]
  · rw [same]
    have some' : f.entries.setObject entry.address entry ≠ [] := by
      simp [FrozenEntries.setObject]
    have keyed : ∀ it ∈ f.entries.setObject entry.address entry, it.1 = it.2.address := by
      intro it inside
      obtain ⟨-, old⟩ | rfl := FrozenEntries.mem_setObject.mp inside
      · exact good.keyed it old
      · rfl
    have parsed : ∀ it ∈ f.entries.setObject entry.address entry, it.2.Parsed := by
      intro it inside
      obtain ⟨-, old⟩ | rfl := FrozenEntries.mem_setObject.mp inside
      · exact good.parsed it old
      · exact entryFor_parsed made
    have nodup : ((f.entries.setObject entry.address entry).map Prod.fst).Nodup :=
      FrozenEntries.keys_setObject good.nodup
    cases timer : f.timer with
    | none => exact good.start timer some' keyed parsed nodup
    | some held =>
        have held' : f.entries ≠ [] := good.timer.mp (by rw [timer]; rfl)
        have replaced := good.replace (iff_of_true some' held') keyed parsed nodup
        rwa [timer] at replaced

theorem unfreezeAddress_good {f : FreezerController} (good : f.Good) (address : Option NSString) :
    (f.unfreezeAddress address).2.Good := by
  unfold unfreezeAddress
  cases parseAddress address with
  | none => exact good
  | some numericAddress =>
      dsimp only
      split_ifs with missing last
      · exact good
      · have empty : f.entries.removeObject (hexAddress numericAddress) = [] :=
          List.isEmpty_iff.mp last
        rw [empty]
        exact good.stop
      · have some' : f.entries ≠ [] := by
          intro empty
          simp [empty] at missing
        have rest : f.entries.removeObject (hexAddress numericAddress) ≠ [] := by
          simpa using last
        have inside : ∀ it ∈ f.entries.removeObject (hexAddress numericAddress), it ∈ f.entries :=
          fun it present => (FrozenEntries.mem_removeObject.mp present).2
        exact good.replace (iff_of_true rest some')
          (fun it present => good.keyed it (inside it present))
          (fun it present => good.parsed it (inside it present))
          (FrozenEntries.keys_removeObject good.nodup)

/-- A tick changes what an entry says about its writes, nothing that they are made of. -/
theorem tick_parsed {entry : FrozenEntry} (parsed : entry.Parsed) (available : Bool)
    (currentPID : Int) (writer : FrozenWrite → WriterAnswer) :
    (entry.tick available currentPID writer).2.Parsed := by
  unfold FrozenEntry.tick FrozenEntry.wrote
  split
  · exact ⟨parsed.1, parsed.2, parsed.3, parsed.4⟩
  · dsimp only
    split <;> exact ⟨parsed.1, parsed.2, parsed.3, parsed.4⟩

@[simp] theorem tick_address (entry : FrozenEntry) (available : Bool) (currentPID : Int)
    (writer : FrozenWrite → WriterAnswer) :
    (entry.tick available currentPID writer).2.address = entry.address ∧
      (entry.tick available currentPID writer).2.numericAddress = entry.numericAddress := by
  unfold FrozenEntry.tick FrozenEntry.wrote
  split
  · exact ⟨rfl, rfl⟩
  · dsimp only
    split <;> exact ⟨rfl, rfl⟩

theorem performTick_good {f : FreezerController} (good : f.Good) (available : Bool)
    (currentPID : Int) (writer : FrozenWrite → WriterAnswer) :
    (f.performTick available currentPID writer).2.Good := by
  refine good.replace ?_ ?_ ?_ ?_
  · simp
  · intro it inside
    obtain ⟨old, present, rfl⟩ := List.mem_map.mp inside
    rw [(tick_address old.2 available currentPID writer).1]
    exact good.keyed old present
  · intro it inside
    obtain ⟨old, present, rfl⟩ := List.mem_map.mp inside
    exact tick_parsed (good.parsed old present) available currentPID writer
  · rw [List.map_map]
    exact good.nodup

theorem step_good (event : FreezerEvent) (f : FreezerController) (good : f.Good) :
    (step event f).Good := by
  cases event with
  | freezeAddress available targetPID schedules address value type =>
      exact freezeAddress_good good available targetPID schedules address value type
  | unfreezeAddress address => exact unfreezeAddress_good good address
  | clear => exact good.stop
  | performTick available currentPID writer =>
      exact performTick_good good available currentPID writer

theorem run_good (events : List FreezerEvent) :
    (execute step events ({} : FreezerController)).Good :=
  execute_invariant Good step_good events start_good

/-- What holds of a controller between its calls. -/
structure Kept (f : FreezerController) : Prop where
  timer : f.timer.isSome = true ↔ f.entries ≠ []
  /-- A timer that has been started and not stopped is the one that is held. -/
  running : ∀ timer < f.started, timer ∉ f.stopped → f.timer = some timer
  once : f.stopped.Nodup
  addresses : (f.entries.map fun it => it.2.numericAddress).Nodup
  unfreeze : ∀ spelling address, parseAddress spelling = some address →
    (∃ it ∈ f.entries, it.2.numericAddress = address) →
      (f.unfreezeAddress spelling).1 = true ∧
        ∀ it, it ∈ (f.unfreezeAddress spelling).2.entries ↔
          it ∈ f.entries ∧ it.2.numericAddress ≠ address
  refused : ∀ available targetPID schedules address value type,
    (f.freezeAddress available targetPID schedules address value type).1 = false →
      (f.freezeAddress available targetPID schedules address value type).2 = f
  accepted : ∀ targetPID schedules address value type numericAddress type' parsed,
    0 < targetPID → f.timer.isSome = true ∨ schedules = true →
      Asks address value type numericAddress type' parsed →
        (f.freezeAddress true targetPID schedules address value type).1 = true ∧
          ∃ entry, (hexAddress numericAddress, entry) ∈
              (f.freezeAddress true targetPID schedules address value type).2.entries ∧
            entry.numericAddress = numericAddress ∧ entry.bytes = parsed.take type'.len ∧
            entry.targetPID = targetPID
  /-- A tick writes each entry of the current target once, with the bytes of its value. -/
  tick : ∀ available currentPID writer,
    ((f.performTick available currentPID writer).1.map (·.address)).Nodup ∧
      ∀ write, write ∈ (f.performTick available currentPID writer).1 ↔
        available = true ∧ ∃ it ∈ f.entries, it.2.targetPID = currentPID ∧
          write = ⟨it.2.numericAddress, it.2.bytes, it.2.valueType⟩
  parsed : ∀ it ∈ f.entries, it.2.Parsed

theorem Good.addresses {f : FreezerController} (good : f.Good) :
    (f.entries.map fun it => it.2.numericAddress).Nodup := by
  have keys : f.entries.map Prod.fst =
      (f.entries.map fun it => it.2.numericAddress).map hexAddress := by
    rw [List.map_map]
    exact List.map_congr_left fun it inside => good.key inside
  have apart : ((f.entries.map fun it => it.2.numericAddress).map hexAddress).Nodup :=
    keys ▸ good.nodup
  exact apart.of_map hexAddress

theorem Good.unfreeze {f : FreezerController} (good : f.Good) {spelling : Option NSString}
    {address : Nat} (spelled : parseAddress spelling = some address)
    (frozen : ∃ it ∈ f.entries, it.2.numericAddress = address) :
    (f.unfreezeAddress spelling).1 = true ∧
      ∀ it, it ∈ (f.unfreezeAddress spelling).2.entries ↔
        it ∈ f.entries ∧ it.2.numericAddress ≠ address := by
  have present : ¬(f.entries.lookup (hexAddress address)).isNone = true := by
    obtain ⟨it, inside, rfl⟩ := frozen
    exact fun missing => FrozenEntries.lookup_isNone.mp missing it inside (good.key inside)
  have listed : ∀ it, it ∈ f.entries.removeObject (hexAddress address) ↔
      it ∈ f.entries ∧ it.2.numericAddress ≠ address := by
    intro it
    rw [FrozenEntries.mem_removeObject, and_comm]
    refine and_congr_right fun inside => not_congr ?_
    rw [good.key inside]
    exact ⟨hexAddress_inj, congrArg hexAddress⟩
  simp only [unfreezeAddress, spelled, present]
  refine ⟨rfl, fun it => ?_⟩
  rw [← listed it]
  simp only [Bool.false_eq_true, if_false]
  split
  · rw [stopTimer_entries]
  · exact Iff.rfl

theorem performTick_writes (f : FreezerController) (available : Bool) (currentPID : Int)
    (writer : FrozenWrite → WriterAnswer) :
    (f.performTick available currentPID writer).1 =
      (f.entries.filter fun it => available && it.2.targetPID = currentPID).map (·.2.write) := by
  rw [performTick]
  dsimp only
  induction f.entries with
  | nil => rfl
  | cons it rest ih =>
      rw [List.filterMap_cons, List.filter_cons, ih, FrozenEntry.tick]
      cases available with
      | false => rfl
      | true => by_cases current : it.2.targetPID = currentPID <;> simp [current]

theorem Good.tick {f : FreezerController} (good : f.Good) (available : Bool) (currentPID : Int)
    (writer : FrozenWrite → WriterAnswer) :
    ((f.performTick available currentPID writer).1.map (·.address)).Nodup ∧
      ∀ write, write ∈ (f.performTick available currentPID writer).1 ↔
        available = true ∧ ∃ it ∈ f.entries, it.2.targetPID = currentPID ∧
          write = ⟨it.2.numericAddress, it.2.bytes, it.2.valueType⟩ := by
  rw [performTick_writes]
  constructor
  · rw [List.map_map]
    exact good.addresses.sublist (List.filter_sublist.map _)
  · intro write
    simp only [List.mem_map, List.mem_filter, Bool.and_eq_true, decide_eq_true_eq]
    constructor
    · rintro ⟨it, ⟨inside, here, current⟩, rfl⟩
      exact ⟨here, it, inside, current, rfl⟩
    · rintro ⟨here, it, inside, current, rfl⟩
      exact ⟨it, ⟨inside, here, current⟩, rfl⟩

theorem Good.kept {f : FreezerController} (good : f.Good) : f.Kept where
  timer := good.timer
  running timer begun going := (good.running timer).mpr ⟨begun, going⟩
  once := good.once
  addresses := good.addresses
  unfreeze _ _ := good.unfreeze
  refused available targetPID schedules address value type refused := by
    obtain same | ⟨entry, -, same⟩ :=
      freezeAddress_eq good available targetPID schedules address value type
    · rw [same]
    · rw [same] at refused
      cases refused
  accepted _ _ _ _ _ _ _ _ running timed asks := freezeAddress_accepts f running timed asks
  tick := good.tick
  parsed := good.parsed

/-- The timer runs while there is something to freeze, and an address is frozen once under
whatever spelling. -/
theorem freezer_kept :
    (∀ spelling address, parseAddress spelling = some address ↔
      ∃ text, NSString.utf8String spelling = some text ∧ Spells address text ∧ address < 2 ^ 64) ∧
    (∀ base digits, digitsValue base (0x30 :: digits) = digitsValue base digits ∧
      digitsValue base (digits.map toLower) = digitsValue base digits) ∧
    ∀ events, (execute step events ({} : FreezerController)).Kept :=
  ⟨fun _ _ => parseAddress_eq_some,
    fun base digits => ⟨digitsValue_zero base digits, digitsValue_toLower base digits⟩,
    fun events => (run_good events).kept⟩

end FreezerController

end H5GG
