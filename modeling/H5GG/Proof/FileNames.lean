import H5GG.FileNames

/-!
# Names of scripts

A normalized name is safe, has one of the two extensions and is its own normal form.
-/

namespace H5GG

structure SafeFileName (name : CString) : Prop where
  nonempty : name ≠ []
  short : name.length ≤ 255
  not_here : name ≠ [0x2E]
  not_parent : name ≠ [0x2E, 0x2E]
  plain : ∀ c ∈ name, 0x20 ≤ c ∧ c ≠ 0x7F ∧ c ≠ 0x2F ∧ c ≠ 0x5C ∧ c ≠ 0x3A

def HasExtension (name : CString) : Prop :=
  javaScript <:+ name.map toLower ∨ html <:+ name.map toLower

instance (name : CString) : Decidable (HasExtension name) := inferInstanceAs (Decidable (_ ∨ _))

/-- The name that a script asks for, whether or not it can be had. -/
def scriptName (given : CString) : CString :=
  if HasExtension given then given else given ++ javaScript

/-- What a call with the name returns, and the string as it stands after the call. -/
def normalizeCall (given before : CString) : Bool × CString :=
  (h5ggNormalizeScriptFileNameInto (some given)).run before

/-- What is known of a name that is written. -/
structure ScriptName (given normal : CString) : Prop where
  accepted : h5ggIsSafeFileName (some normal) = true
  safe : SafeFileName normal
  extension : HasExtension normal
  continues : given <+: normal
  fixed : ∀ before, normalizeCall normal before = (true, normal)

/-- Every call with the name, whatever the string holds before it. -/
structure Normalized (given : CString) : Prop where
  written : ∀ before normal,
    normalizeCall given before = (true, normal) → ScriptName given normal
  apart : ∀ other before before' normal,
    normalizeCall given before = (true, normal) → normalizeCall other before' = (true, normal) →
      other = given ∨ other = given ++ javaScript ∨ given = other ++ javaScript
  refused : 0x2E ∈ given ∧ ¬HasExtension given ∨ 255 < (scriptName given).length →
    ∀ before, normalizeCall given before = (false, [])

section
variable {given normal name : CString}

theorem h5ggIsSafeFileName_iff : h5ggIsSafeFileName (some name) = true ↔ SafeFileName name := by
  simp only [h5ggIsSafeFileName, Bool.and_eq_true, Bool.not_eq_true', Bool.or_eq_false_iff,
    decide_eq_false_iff_not, List.all_eq_true, not_lt, UInt8.not_lt]
  constructor
  · rintro ⟨⟨⟨⟨nonempty, short⟩, not_here⟩, not_parent⟩, allowed⟩
    refine ⟨nonempty, short, not_here, not_parent, ?_⟩
    intro c member
    obtain ⟨⟨⟨⟨printed, deleted⟩, slash⟩, backslash⟩, colon⟩ := allowed c member
    exact ⟨printed, deleted, slash, backslash, colon⟩
  · rintro ⟨nonempty, short, not_here, not_parent, plain⟩
    refine ⟨⟨⟨⟨nonempty, short⟩, not_here⟩, not_parent⟩, ?_⟩
    intro c member
    obtain ⟨printed, deleted, slash, backslash, colon⟩ := plain c member
    exact ⟨⟨⟨⟨printed, deleted⟩, slash⟩, backslash⟩, colon⟩

theorem toLower_dot {c : UInt8} (dot : toLower c = 0x2E) : c = 0x2E := by
  unfold toLower at dot
  split_ifs at dot with upper
  · have shifted := congrArg UInt8.toNat dot
    simp only [Bool.and_eq_true, decide_eq_true_eq, UInt8.le_iff_toNat_le] at upper
    rw [UInt8.toNat_add] at shifted
    change _ = 46 at shifted
    have low : 65 ≤ c.toNat := upper.1
    have high : c.toNat ≤ 90 := upper.2
    have narrow : (0x20 : UInt8).toNat = 32 := rfl
    omega
  · exact dot

theorem dot_of_suffix {text back : CString} (suffix : 0x2E :: back <:+ text.map toLower) :
    ∃ front rest, text = front ++ 0x2E :: rest ∧ rest.length = back.length := by
  obtain ⟨before, split⟩ := suffix
  obtain ⟨front, rest, rfl, -, lower⟩ := List.map_eq_append_iff.mp split.symm
  obtain ⟨dot, rest, rfl, isDot, same⟩ := List.map_eq_cons_iff.mp lower
  refine ⟨front, rest, ?_, ?_⟩
  · rw [toLower_dot isDot]
  · rw [← same, List.length_map]

theorem HasExtension.dot (extension : HasExtension name) :
    ∃ front rest, name = front ++ 0x2E :: rest ∧ rest.length < 5 := by
  cases extension with
  | inl script =>
      obtain ⟨front, rest, same, length⟩ := dot_of_suffix script
      exact ⟨front, rest, same, by rw [length]; decide⟩
  | inr page =>
      obtain ⟨front, rest, same, length⟩ := dot_of_suffix page
      exact ⟨front, rest, same, by rw [length]; decide⟩

theorem scriptName_extension (extension : HasExtension name) : scriptName name = name :=
  if_pos extension

theorem scriptName_plain (plain : ¬HasExtension name) : scriptName name = name ++ javaScript :=
  if_neg plain

theorem hasExtension_scriptName (name : CString) : HasExtension (scriptName name) := by
  by_cases extension : HasExtension name
  · rw [scriptName_extension extension]
    exact extension
  · rw [scriptName_plain extension]
    left
    rw [List.map_append]
    exact List.suffix_append _ _

theorem length_append_javaScript (text : CString) :
    (text ++ javaScript).length = text.length + 3 := by
  rw [List.length_append]
  rfl

theorem SafeFileName.append (safe : SafeFileName name) (room : (name ++ javaScript).length ≤ 255) :
    SafeFileName (name ++ javaScript) where
  nonempty := List.append_ne_nil_of_right_ne_nil _ (by decide)
  short := room
  not_here same := by
    have long := length_append_javaScript name
    rw [same] at long
    exact absurd long.symm (Nat.succ_ne_succ_iff.mpr (by simp))
  not_parent same := by
    have long := length_append_javaScript name
    rw [same] at long
    exact absurd long.symm (Nat.succ_ne_succ_iff.mpr (by simp))
  plain c member := by
    cases List.mem_append.mp member with
    | inl member => exact safe.plain c member
    | inr member =>
        simp only [javaScript, List.mem_cons, List.not_mem_nil, or_false] at member
        rcases member with rfl | rfl | rfl
        all_goals decide

theorem SafeFileName.scriptName (safe : SafeFileName name) (room : (scriptName name).length ≤ 255) :
    SafeFileName (scriptName name) := by
  by_cases extension : HasExtension name
  · rw [scriptName_extension extension]
    exact safe
  · rw [scriptName_plain extension] at room ⊢
    exact safe.append room

theorem normalize_extension (safe : SafeFileName name) (extension : HasExtension name) :
    h5ggNormalizeScriptFileName (some name) = some name := by
  simp only [h5ggNormalizeScriptFileName, h5ggIsSafeFileName_iff.mpr safe, Bool.true_eq_false,
    if_false, List.isSuffixOf_iff_suffix]
  split_ifs with script page
  · rfl
  · rfl
  · exact absurd extension (not_or.mpr ⟨script, page⟩)
  · exact absurd extension (not_or.mpr ⟨script, page⟩)

theorem normalize_plain (safe : SafeFileName name) (plain : ¬HasExtension name) :
    h5ggNormalizeScriptFileName (some name) =
      if 0x2E ∈ name ∨ 252 < name.length then none else some (name ++ javaScript) := by
  obtain ⟨script, page⟩ := not_or.mp plain
  simp only [h5ggNormalizeScriptFileName, h5ggIsSafeFileName_iff.mpr safe, Bool.true_eq_false,
    if_false, List.isSuffixOf_iff_suffix, script, page]

theorem normalize_refused (unsafe' : ¬SafeFileName name) :
    h5ggNormalizeScriptFileName (some name) = none := by
  rw [← h5ggIsSafeFileName_iff, Bool.not_eq_true] at unsafe'
  simp only [h5ggNormalizeScriptFileName, unsafe', if_true]

/-- A name that can be had is safe, has no dot but that of its extension and leaves room for one. -/
theorem normalize_eq_some : h5ggNormalizeScriptFileName (some given) = some normal ↔
    SafeFileName given ∧ (0x2E ∈ given → HasExtension given) ∧ (scriptName given).length ≤ 255 ∧
      normal = scriptName given := by
  by_cases safe : SafeFileName given
  · by_cases extension : HasExtension given
    · rw [normalize_extension safe extension, scriptName_extension extension]
      simp [safe, extension, safe.short, eq_comm]
    · have room : given.length + 3 ≤ 255 ↔ ¬252 < given.length := by omega
      rw [normalize_plain safe extension, scriptName_plain extension, length_append_javaScript,
        room]
      split_ifs with refused
      · simp only [false_iff]
        rintro ⟨-, free, room, -⟩
        exact refused.elim (fun dot => extension (free dot)) room
      · obtain ⟨free, room⟩ := not_or.mp refused
        simp [safe, free, room, eq_comm]
  · simp [normalize_refused safe, safe]

/-! ### The string that is written -/

theorem endsWith_iff (extension text : CString) :
    extension.length ≤ text.length ∧ text.drop (text.length - extension.length) = extension ↔
      extension <:+ text := by
  rw [List.suffix_iff_eq_drop, Eq.comm (b := text.drop _)]
  refine and_iff_right_of_imp fun same => ?_
  have lengths := congrArg List.length same
  rw [List.length_drop] at lengths
  omega

theorem run_ite {condition : Prop} [Decidable condition] (yes no : StateM CString Bool)
    (before : CString) : (if condition then yes else no).run before =
      if condition then yes.run before else no.run before :=
  apply_ite (fun program : StateM CString Bool => program.run before) condition yes no

theorem normalizeInto_eq (name : Option CString) (before : CString) :
    (h5ggNormalizeScriptFileNameInto name).run before =
      ((h5ggNormalizeScriptFileName name).isSome, (h5ggNormalizeScriptFileName name).getD []) := by
  cases name with
  | none => rfl
  | some name =>
      have script := endsWith_iff javaScript (name.map toLower)
      have page := endsWith_iff html (name.map toLower)
      change 3 ≤ _ ∧ (name.map toLower).drop (_ - 3) = _ ↔ _ at script
      change 5 ≤ _ ∧ (name.map toLower).drop (_ - 5) = _ ↔ _ at page
      simp only [h5ggNormalizeScriptFileNameInto, StateT.run_bind, StateT.run_set, StateT.run_get,
        pure_bind, run_ite, Option.getD_some, Bool.and_eq_true, decide_eq_true_eq, script, page,
        h5ggNormalizeScriptFileName, List.isSuffixOf_iff_suffix]
      split_ifs
      all_goals rfl

theorem normalizeCall_eq (given before : CString) :
    normalizeCall given before = ((h5ggNormalizeScriptFileName (some given)).isSome,
      (h5ggNormalizeScriptFileName (some given)).getD []) :=
  normalizeInto_eq (some given) before

theorem normalizeCall_iff {before : CString} : normalizeCall given before = (true, normal) ↔
    h5ggNormalizeScriptFileName (some given) = some normal := by
  rw [normalizeCall_eq]
  cases h5ggNormalizeScriptFileName (some given) with
  | none => simp
  | some written => simp

theorem normalizeCall_refused {before : CString}
    (refused : ∀ normal, h5ggNormalizeScriptFileName (some given) ≠ some normal) :
    normalizeCall given before = (false, []) := by
  simp only [normalizeCall_eq, Option.eq_none_iff_forall_ne_some.mpr refused, Option.isSome_none,
    Option.getD_none]

theorem prefix_scriptName (name : CString) : name <+: scriptName name := by
  by_cases extension : HasExtension name
  · exact (scriptName_extension extension).symm ▸ List.prefix_refl name
  · rw [scriptName_plain extension]
    exact List.prefix_append _ _

theorem scriptName_apart {other : CString} (same : scriptName given = scriptName other) :
    other = given ∨ other = given ++ javaScript ∨ given = other ++ javaScript := by
  by_cases extension : HasExtension given
  · rw [scriptName_extension extension] at same
    by_cases otherExtension : HasExtension other
    · rw [scriptName_extension otherExtension] at same
      exact .inl same.symm
    · rw [scriptName_plain otherExtension] at same
      exact .inr (.inr same)
  · rw [scriptName_plain extension] at same
    by_cases otherExtension : HasExtension other
    · rw [scriptName_extension otherExtension] at same
      exact .inr (.inl same.symm)
    · rw [scriptName_plain otherExtension] at same
      exact .inl (List.append_cancel_right same).symm

theorem ScriptName.of_normalize (written : h5ggNormalizeScriptFileName (some given) = some normal) :
    ScriptName given normal := by
  obtain ⟨safe, -, room, rfl⟩ := normalize_eq_some.mp written
  have safe := safe.scriptName room
  have extension := hasExtension_scriptName given
  exact ⟨h5ggIsSafeFileName_iff.mpr safe, safe, extension, prefix_scriptName given,
    fun before => normalizeCall_iff.mpr (normalize_extension safe extension)⟩

end

theorem scriptNames_normalized (given : CString) : Normalized given where
  written before normal written := .of_normalize (normalizeCall_iff.mp written)
  apart other before before' normal written otherWritten := by
    obtain ⟨-, -, -, same⟩ := normalize_eq_some.mp (normalizeCall_iff.mp written)
    obtain ⟨-, -, -, otherSame⟩ := normalize_eq_some.mp (normalizeCall_iff.mp otherWritten)
    exact scriptName_apart (same.symm.trans otherSame)
  refused refused before := by
    refine normalizeCall_refused fun normal written => ?_
    obtain ⟨-, extension, room, -⟩ := normalize_eq_some.mp written
    cases refused with
    | inl dotted => exact dotted.2 (extension dotted.1)
    | inr long => exact absurd room (Nat.not_le.mpr long)

theorem menu_normalized :
    normalizeCall "menu".toUTF8.toList [] = (true, "menu.js".toUTF8.toList) ∧
      ScriptName "menu".toUTF8.toList "menu.js".toUTF8.toList :=
  have written : normalizeCall "menu".toUTF8.toList [] = (true, "menu.js".toUTF8.toList) := by
    decide +kernel
  ⟨written, (scriptNames_normalized _).written [] _ written⟩

end H5GG
