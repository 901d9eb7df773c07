import H5GG.Dylib.Embedded
import H5GG.Proof.Dylib.Template
import H5GG.TextEncoding

/-!
# What becomes of a menu that the builder accepts
-/

namespace H5GG

/-- `DylibBuilder::build` goes on with the menu. -/
structure MenuAccepted (placeholder menu : Bytes) : Prop where
  nonempty : menu ≠ []
  valid : h5ggIsValidUTF8 .reject menu = true
  short : menu.length < placeholder.length

/-! ### Text without NUL -/

theorem continuation_nonzero {codePoint result : UInt32} {bytes : List UInt8}
    (continued : continuation codePoint bytes = some result) : 0 ∉ bytes := by
  induction bytes generalizing codePoint with
  | nil => exact List.not_mem_nil
  | cons byte rest ih =>
      rw [continuation, List.foldlM_cons] at continued
      split_ifs at continued with marked
      · intro inside
        cases List.mem_cons.mp inside with
        | inl zero =>
            subst zero
            exact absurd marked (by decide)
        | inr later => exact ih continued later
      · cases continued

theorem validUTF8_reject {text : Bytes} (valid : h5ggIsValidUTF8 .reject text = true) :
    0 ∉ text ∧ h5ggIsValidUTF8 .allow text = true := by
  induction text using h5ggIsValidUTF8.induct .reject with
  | case1 => exact ⟨List.not_mem_nil, by rw [h5ggIsValidUTF8]⟩
  | case2 first rest ascii nul =>
      rw [h5ggIsValidUTF8, if_pos ascii, if_pos nul] at valid
      cases valid
  | case3 first rest ascii not_nul ih =>
      rw [h5ggIsValidUTF8, if_pos ascii, if_neg not_nul] at valid
      obtain ⟨none_later, valid⟩ := ih valid
      refine ⟨fun inside => ?_, ?_⟩
      · cases List.mem_cons.mp inside with
        | inl zero => exact not_nul ⟨zero.symm, rfl⟩
        | inr later => exact none_later later
      · rw [h5ggIsValidUTF8, if_pos ascii, if_neg (fun nul => nomatch nul.2)]
        exact valid
  | case4 first rest high lead =>
      rw [h5ggIsValidUTF8, if_neg high, lead] at valid
      cases valid
  | case5 first rest high count codePoint minimum lead short =>
      rw [h5ggIsValidUTF8, if_neg high, lead] at valid
      simp only [if_pos short] at valid
      cases valid
  | case6 first rest high count codePoint minimum lead long broken =>
      rw [h5ggIsValidUTF8, if_neg high, lead] at valid
      simp only [if_neg long, broken] at valid
      cases valid
  | case7 first rest high count codePoint minimum lead long point continued forbidden =>
      rw [h5ggIsValidUTF8, if_neg high, lead] at valid
      simp only [if_neg long, continued, if_pos forbidden] at valid
      cases valid
  | case8 first rest high count codePoint minimum lead long point continued allowed ih =>
      rw [h5ggIsValidUTF8, if_neg high, lead] at valid
      simp only [if_neg long, continued, if_neg allowed] at valid
      obtain ⟨none_later, valid⟩ := ih valid
      refine ⟨fun inside => ?_, ?_⟩
      · cases List.mem_cons.mp inside with
        | inl zero =>
            subst zero
            exact high (by decide)
        | inr later =>
            rw [← List.take_append_drop count rest] at later
            cases List.mem_append.mp later with
            | inl taken => exact continuation_nonzero continued taken
            | inr dropped => exact none_later dropped
      · rw [h5ggIsValidUTF8, if_neg high, lead]
        simp only [if_neg long, continued, if_neg allowed]
        exact valid

theorem takeWhile_padded {menu placeholder : Bytes} (no_nul : 0 ∉ menu) :
    (padded placeholder menu).takeWhile (· ≠ 0) = menu := by
  have all : ∀ byte ∈ menu, (byte ≠ 0 : Bool) = true := by
    intro byte inside
    simp only [decide_eq_true_eq]
    exact fun zero => no_nul (zero ▸ inside)
  rw [padded, List.takeWhile_append_of_pos all]
  cases placeholder.length - menu.length with
  | zero => simp
  | succ count => simp [List.replicate_succ]

/-- The zeros behind the menu do not make it begin with the marker. -/
theorem menuStub_prefix_padded {menu placeholder : Bytes} :
    menuStub <+: padded placeholder menu ↔ menuStub <+: menu := by
  constructor
  · intro start
    cases List.prefix_or_prefix_of_prefix start (List.prefix_append menu _) with
    | inl inside => exact inside
    | inr shorter =>
        obtain ⟨rest, split⟩ := shorter
        rw [padded, ← split, List.prefix_append_right_inj] at start
        cases rest with
        | nil =>
            rw [List.append_nil] at split
            rw [split]
        | cons byte rest =>
            have zero : byte = 0 :=
              List.eq_of_mem_replicate (start.subset List.mem_cons_self)
            have inside : 0 ∈ menuStub := by
              rw [← split, zero]
              simp
            exact absurd inside (by decide)
  · exact fun start => start.trans (List.prefix_append _ _)

theorem embeddedMenu_padded (decode : Bytes → Option NSString) {placeholder menu : Bytes}
    (accepted : MenuAccepted placeholder menu) :
    h5ggEmbeddedCustomMenu decode (padded placeholder menu) =
      if menuStub <+: menu then none else decode menu := by
  obtain ⟨no_nul, -⟩ := validUTF8_reject accepted.valid
  have text : (padded placeholder menu).take (strnlen (padded placeholder menu)) = menu := by
    rw [strnlen, takeWhile_padded no_nul, padded, List.take_left]
  simp only [h5ggEmbeddedCustomMenu, h5ggDataHasPrefix, List.isPrefixOf_iff_prefix,
    menuStub_prefix_padded, text]

/-- The library finds its menu again unless the menu itself begins with the marker. -/
theorem embeddedMenu_survives_iff {decode : Bytes → Option NSString}
    (decodes : ∀ text, h5ggIsValidUTF8 .allow text = true → decode text ≠ none)
    {binary placeholder menu : Bytes} (accepted : MenuAccepted placeholder menu)
    (some_found : (h5ggReplaceAllTemplates binary placeholder menu).2 ≠ 0) :
    ∃ pieces embedded, Cut placeholder binary pieces ∧
      (h5ggReplaceAllTemplates binary placeholder menu).1 = List.intercalate embedded pieces ∧
      embedded.length = placeholder.length ∧
      (h5ggEmbeddedCustomMenu decode embedded = decode menu ∧
          h5ggEmbeddedCustomMenu decode embedded ≠ none ↔ ¬menuStub <+: menu) := by
  obtain ⟨short, pieces, cut, replaced, -⟩ := replaceAll_cut some_found
  refine ⟨pieces, _, cut, replaced, ?_, ?_⟩
  · rw [padded, List.length_append, List.length_replicate]
    omega
  · have present := decodes menu (validUTF8_reject accepted.valid).2
    rw [embeddedMenu_padded decode accepted]
    by_cases lost : menuStub <+: menu
    · simp [lost]
    · simp [lost, present]

def NSString.ofValidUTF8 (text : Bytes) : Option NSString :=
  if h5ggIsValidUTF8 .allow text then some ⟨some text⟩ else none

theorem embeddedMenu_survives_paragraph :
    ∃ pieces embedded, Cut (menuStub ++ [0x0A]) (menuStub ++ [0x0A]) pieces ∧
      (h5ggReplaceAllTemplates (menuStub ++ [0x0A]) (menuStub ++ [0x0A]) [0x3C, 0x70, 0x3E]).1 =
        List.intercalate embedded pieces ∧
      embedded.length = (menuStub ++ [0x0A]).length ∧
      (h5ggEmbeddedCustomMenu NSString.ofValidUTF8 embedded =
            NSString.ofValidUTF8 [0x3C, 0x70, 0x3E] ∧
          h5ggEmbeddedCustomMenu NSString.ofValidUTF8 embedded ≠ none ↔
        ¬menuStub <+: [0x3C, 0x70, 0x3E]) := by
  refine embeddedMenu_survives_iff (fun text valid => ?_) ⟨by decide, ?_, by decide⟩ ?_
  · simp [NSString.ofValidUTF8, valid]
  · simp [h5ggIsValidUTF8]
  · simp [h5ggReplaceAllTemplates, replaceFrom, search, menuStub]

/-- The marker itself is a menu that the builder packs and the library does not find. -/
theorem menuStub_lost :
    MenuAccepted (menuStub ++ [0x0A]) menuStub ∧
      menuStub <+: menuStub ++ [0x0A] ∧
      (h5ggReplaceAllTemplates (menuStub ++ [0x0A]) (menuStub ++ [0x0A]) menuStub).2 = 1 ∧
      ∀ decode, h5ggEmbeddedCustomMenu decode
        (h5ggReplaceAllTemplates (menuStub ++ [0x0A]) (menuStub ++ [0x0A]) menuStub).1 = none := by
  have packed : h5ggReplaceAllTemplates (menuStub ++ [0x0A]) (menuStub ++ [0x0A]) menuStub =
      (menuStub ++ [0x00], 1) := by
    simp [h5ggReplaceAllTemplates, replaceFrom, search, padded, menuStub]
  refine ⟨⟨by decide, by simp [menuStub, h5ggIsValidUTF8], by decide⟩, List.prefix_append _ _,
    by rw [packed], fun decode => ?_⟩
  rw [packed]
  rfl

end H5GG
