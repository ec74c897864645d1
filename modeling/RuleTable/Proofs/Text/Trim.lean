import Mathlib.Data.List.Basic
import Mathlib.Data.List.TakeWhile
import Mathlib.Tactic.ByContra
import RuleTable.Text.Blank

/-!
# The ends of a text

A character that is no blank is **ink**. Trimming a text makes it start and end with ink unless
nothing is left of it, and it leaves alone what starts and ends with ink already. What is put
together from texts has its start from the first and its end from the last.
-/

set_option autoImplicit false

namespace RuleTable.Text

/-- **A text starts with ink**: it has a first character and that is no blank. -/
def StartsInk (text : Text) : Prop := ∃ c rest, text = c :: rest ∧ isBlank c = false

/-- **A text ends with ink**: it has a last character and that is no blank. -/
def EndsInk (text : Text) : Prop := ∃ front c, text = front ++ [c] ∧ isBlank c = false

theorem StartsInk.ne_nil {text : Text} (h : StartsInk text) : text ≠ [] := by
  obtain ⟨c, rest, rfl, -⟩ := h
  exact List.cons_ne_nil c rest

theorem EndsInk.ne_nil {text : Text} (h : EndsInk text) : text ≠ [] := by
  obtain ⟨front, c, rfl, -⟩ := h
  exact List.concat_ne_nil c front

theorem startsBlank_iff {text : Text} :
    startsBlank text = true ↔ ∃ c rest, text = c :: rest ∧ isAsciiBlank c = true := by
  cases text <;> simp [startsBlank]

/-- Ink is no ASCII blank. -/
theorem isAsciiBlank_of_isBlank {c : Char} (h : isBlank c = false) : isAsciiBlank c = false := by
  rw [← Bool.not_eq_true] at h ⊢
  exact fun hc => h (isBlank_of_isAsciiBlank hc)

/-- A blank does not have a property that none of the blanks has. -/
theorem eq_false_of_isBlank {p : Char → Bool} {c : Char}
    (hp : ∀ code ∈ blankCodes, p (Char.ofNat code) = false) (h : isBlank c = true) :
    p c = false := by
  have hmem : c.toNat ∈ blankCodes := by simpa [isBlank] using h
  have hc := hp _ hmem
  rwa [Char.ofNat_toNat] at hc

/-- A character is no blank if it has a property that no blank has. -/
theorem isBlank_eq_false {p : Char → Bool} {c : Char}
    (hp : ∀ code ∈ blankCodes, p (Char.ofNat code) = false) (h : p c = true) :
    isBlank c = false := by
  by_contra hb
  have hc := eq_false_of_isBlank hp (by simpa using hb)
  exact absurd (h.symm.trans hc) (by decide)

theorem ne_of_isBlank {c d : Char} (h : isBlank c = true) (hd : isBlank d = false) : c ≠ d := by
  rintro rfl
  rw [h] at hd
  cases hd

theorem isBlank_of_isAlpha {c : Char} (h : c.isAlpha = true) : isBlank c = false :=
  isBlank_eq_false (p := Char.isAlpha) (by decide) h

/-- No blank is a letter. -/
theorem isAlpha_of_isBlank {c : Char} (h : isBlank c = true) : c.isAlpha = false :=
  eq_false_of_isBlank (p := Char.isAlpha) (by decide) h

/-! ## Putting texts together -/

/-- The start of a text is the start of what it begins. -/
theorem StartsInk.append {text : Text} (h : StartsInk text) (after : Text) :
    StartsInk (text ++ after) := by
  obtain ⟨c, rest, rfl, hc⟩ := h
  exact ⟨c, rest ++ after, rfl, hc⟩

/-- The end of a text is the end of what it completes. -/
theorem EndsInk.append {text : Text} (h : EndsInk text) (before : Text) :
    EndsInk (before ++ text) := by
  obtain ⟨front, c, rfl, hc⟩ := h
  exact ⟨before ++ front, c, by rw [List.append_assoc], hc⟩

/-- **What is left of the end of a text ends as the text does**, if anything is left. -/
theorem EndsInk.of_suffix {text after : Text} (h : EndsInk text) (hs : after <:+ text)
    (hne : after ≠ []) : EndsInk after := by
  obtain ⟨front, c, rfl, hc⟩ := h
  obtain ⟨before, hb⟩ := hs
  obtain ⟨front', c', rfl⟩ : ∃ front' c', after = front' ++ [c'] :=
    ⟨after.dropLast, after.getLast hne, (List.dropLast_concat_getLast hne).symm⟩
  -- Both texts have the same last character.
  rw [← List.append_assoc] at hb
  obtain ⟨-, hc'⟩ := List.append_inj' hb rfl
  obtain rfl : c' = c := List.singleton_inj.mp hc'
  exact ⟨front', c', rfl, hc⟩

/-! ## Trimming -/

/-- Trimming the start leaves a text that starts with ink, or nothing. -/
theorem startsInk_trimStart {text : Text} (h : trimStart text ≠ []) :
    StartsInk (trimStart text) := by
  induction text with
  | nil => exact absurd rfl h
  | cons c text ih =>
      by_cases hc : isBlank c = true
      · have ht : trimStart (c :: text) = trimStart text := by
          rw [trimStart, List.dropWhile_cons_of_pos hc, trimStart]
        rw [ht] at h ⊢
        exact ih h
      · have ht : trimStart (c :: text) = c :: text := by
          rw [trimStart, List.dropWhile_cons_of_neg hc]
        rw [ht]
        exact ⟨c, text, rfl, by simpa using hc⟩

/-- Trimming the end is trimming the start of the reversed text. -/
theorem trimEnd_eq (text : Text) : trimEnd text = (trimStart text.reverse).reverse := rfl

/-- Trimming the end leaves a text that ends with ink, or nothing. -/
theorem endsInk_trimEnd {text : Text} (h : trimEnd text ≠ []) : EndsInk (trimEnd text) := by
  rw [trimEnd_eq] at h ⊢
  obtain ⟨c, rest, hr, hc⟩ := startsInk_trimStart (by simpa using h)
  exact ⟨rest.reverse, c, by rw [hr, List.reverse_cons], hc⟩

/-- A text keeps its end when blanks at its start are taken away. -/
theorem EndsInk.trimStart {text : Text} (h : EndsInk text) : EndsInk (trimStart text) := by
  refine h.of_suffix (List.dropWhile_suffix _) fun hnil => ?_
  obtain ⟨front, c, rfl, hc⟩ := h
  have hall := List.dropWhile_eq_nil_iff.mp hnil c (by simp)
  exact absurd (hc.symm.trans hall) (by decide)

/-- A text keeps its start when blanks at its end are taken away. -/
theorem StartsInk.trimEnd {text : Text} (h : StartsInk text) : StartsInk (trimEnd text) := by
  obtain ⟨c, rest, rfl, hc⟩ := h
  have hend : EndsInk (Text.trimStart (c :: rest).reverse) :=
    EndsInk.trimStart ⟨rest.reverse, c, List.reverse_cons, hc⟩
  obtain ⟨front, d, hd, hdb⟩ := hend
  exact ⟨d, front.reverse, by rw [trimEnd_eq, hd, List.reverse_append]; rfl, hdb⟩

/-- What is left after trimming the end is the start of the text. -/
theorem trimEnd_startsText (text : Text) : trimEnd text <+: text := by
  have hsuffix : trimStart text.reverse <:+ text.reverse := List.dropWhile_suffix _
  rwa [← List.reverse_prefix, List.reverse_reverse, ← trimEnd_eq] at hsuffix

/-- No ink is trimmed. -/
theorem mem_trimEnd {text : Text} {c : Char} (h : c ∈ text) (hc : isBlank c = false) :
    c ∈ trimEnd text := by
  rw [← List.mem_reverse, ← List.takeWhile_append_dropWhile (p := isBlank) (l := text.reverse),
    List.mem_append] at h
  rcases h with h | h
  · rw [List.mem_takeWhile_imp h] at hc
    cases hc
  · rwa [trimEnd, List.mem_reverse]

/-- Trimming the end takes the blanks behind ink. -/
theorem trimEnd_append_of_endsInk {text blanks : Text} (h : EndsInk text)
    (hb : ∀ c ∈ blanks, isBlank c = true) : trimEnd (text ++ blanks) = text := by
  obtain ⟨front, c, rfl, hc⟩ := h
  have hblanks : ∀ d ∈ blanks.reverse, isBlank d = true := fun d hd => hb d (by simpa using hd)
  have hstart : trimStart (blanks.reverse ++ c :: front.reverse) = c :: front.reverse := by
    rw [trimStart, List.dropWhile_append_of_pos hblanks, List.dropWhile_cons_of_neg (by simp [hc])]
  rw [trimEnd_eq, List.reverse_append, List.reverse_append, List.reverse_singleton,
    List.singleton_append, hstart, List.reverse_cons, List.reverse_reverse]

/-- **A trimmed text ends with ink**, if anything is left of it. -/
theorem endsInk_trim {text : Text} (h : trim text ≠ []) : EndsInk (trim text) :=
  endsInk_trimEnd h

/-- **A trimmed text starts with ink**, if anything is left of it. -/
theorem startsInk_trim {text : Text} (h : trim text ≠ []) : StartsInk (trim text) := by
  refine (startsInk_trimStart fun hnil => h ?_).trimEnd
  rw [trim, hnil]
  rfl

/-- A text that is trimmed and not empty ends with ink. -/
theorem endsInk_of_trim_eq {text : Text} (htrim : trim text = text) (hne : text ≠ []) :
    EndsInk text := by
  rw [← htrim] at hne ⊢
  exact endsInk_trim hne

/-- **A text that starts and ends with ink is trimmed.** -/
theorem trim_eq_self {text : Text} (hs : StartsInk text) (he : EndsInk text) :
    trim text = text := by
  have hend : trimEnd (text ++ []) = text := trimEnd_append_of_endsInk he (by simp)
  rw [List.append_nil] at hend
  obtain ⟨c, rest, rfl, hc⟩ := hs
  have hstart : trimStart (c :: rest) = c :: rest :=
    List.dropWhile_cons_of_neg (by simp [hc])
  rw [trim, hstart, hend]

/-- Ink is not skipped. -/
theorem skipBlanks_eq_self {text : Text} (h : StartsInk text) : skipBlanks text = text := by
  obtain ⟨c, rest, rfl, hc⟩ := h
  exact List.dropWhile_cons_of_neg (by simp [isAsciiBlank_of_isBlank hc])

/-- A text is what is left after trimming its end, and blanks. -/
theorem exists_blanks_of_trimEnd (text : Text) :
    ∃ after, text = trimEnd text ++ after ∧ ∀ c ∈ after, isBlank c = true := by
  refine ⟨(text.reverse.takeWhile isBlank).reverse, ?_,
    fun c hc => List.mem_takeWhile_imp (List.mem_reverse.mp hc)⟩
  rw [trimEnd, ← List.reverse_append, List.takeWhile_append_dropWhile, List.reverse_reverse]

/-- **A text is what is left after trimming**, with blanks on both sides. -/
theorem exists_blanks_of_trim (text : Text) :
    ∃ before after, text = before ++ trim text ++ after ∧ (∀ c ∈ before, isBlank c = true) ∧
      ∀ c ∈ after, isBlank c = true := by
  obtain ⟨after, hend, hafter⟩ := exists_blanks_of_trimEnd (trimStart text)
  refine ⟨text.takeWhile isBlank, after, ?_, fun c hc => List.mem_takeWhile_imp hc, hafter⟩
  rw [List.append_assoc, trim, ← hend, trimStart, List.takeWhile_append_dropWhile]

/-- **What ends with ink is not trimmed**, wherever the text goes on to. -/
theorem EndsInk.startsText_trimEnd {front text : Text} (h : EndsInk front) (hfront : front <+: text) :
    front <+: trimEnd text := by
  obtain ⟨most, c, rfl, hc⟩ := h
  obtain ⟨rest, rfl⟩ := hfront
  obtain ⟨after, hafter, hblanks⟩ := exists_blanks_of_trimEnd (most ++ [c] ++ rest)
  generalize trimEnd (most ++ [c] ++ rest) = left at hafter ⊢
  rcases List.append_eq_append_iff.mp hafter with ⟨m, rfl, -⟩ | ⟨m, hm, rfl⟩
  · exact List.prefix_append _ m
  · -- The last character would be one of the blanks.
    rcases List.eq_nil_or_concat' m with rfl | ⟨m, d, rfl⟩
    · exact ⟨[], by rw [List.append_nil, hm, List.append_nil]⟩
    · rw [← List.append_assoc] at hm
      obtain ⟨-, hlast⟩ := List.append_inj' hm rfl
      obtain rfl : c = d := List.singleton_inj.mp hlast
      rw [hblanks c (by simp)] at hc
      cases hc

theorem startsInk_of_forall {text : Text} (hne : text ≠ []) (h : ∀ c ∈ text, isBlank c = false) :
    StartsInk text := by
  obtain ⟨c, rest, rfl⟩ := List.exists_cons_of_ne_nil hne
  exact ⟨c, rest, rfl, h c List.mem_cons_self⟩

theorem endsInk_of_forall {text : Text} (hne : text ≠ []) (h : ∀ c ∈ text, isBlank c = false) :
    EndsInk text :=
  ⟨text.dropLast, text.getLast hne, (List.dropLast_concat_getLast hne).symm,
    h _ (List.getLast_mem hne)⟩

/-- **A text without blanks is trimmed.** -/
theorem trim_eq_self_of_forall {text : Text} (h : ∀ c ∈ text, isBlank c = false) :
    trim text = text := by
  by_cases hne : text = []
  · rw [hne]
    rfl
  · exact trim_eq_self (startsInk_of_forall hne h) (endsInk_of_forall hne h)

/-- A blank behind a text is trimmed. -/
theorem trim_append_blank (text : Text) {c : Char} (hc : isBlank c = true) :
    trim (text ++ [c]) = trim text := by
  have hend : ∀ front : Text, trimEnd (front ++ [c]) = trimEnd front := by
    intro front
    rw [trimEnd_eq, trimEnd_eq, List.reverse_append, List.reverse_singleton, List.singleton_append,
      trimStart, List.dropWhile_cons_of_pos hc, trimStart]
  by_cases hall : ∀ d ∈ text, isBlank d = true
  · -- Nothing is left of either text.
    have hall' : ∀ d ∈ text ++ [c], isBlank d = true := by
      intro d hd
      rcases List.mem_append.mp hd with hd | hd
      · exact hall d hd
      · rwa [List.mem_singleton.mp hd]
    rw [trim, trim, trimStart, trimStart, List.dropWhile_eq_nil_iff.mpr hall,
      List.dropWhile_eq_nil_iff.mpr hall']
  · have hstart : trimStart (text ++ [c]) = trimStart text ++ [c] := by
      have hne : text.dropWhile isBlank ≠ [] := fun hnil => hall (List.dropWhile_eq_nil_iff.mp hnil)
      rw [trimStart, List.dropWhile_append, if_neg (by simpa using hne), trimStart]
    rw [trim, hstart, hend, trim]

/-- **Blanks around a text are trimmed.** -/
theorem trim_blanks_append {before after : Text} (text : Text)
    (hbefore : ∀ c ∈ before, isBlank c = true) (hafter : ∀ c ∈ after, isBlank c = true) :
    trim (before ++ text ++ after) = trim text := by
  induction after generalizing text with
  | nil =>
      rw [List.append_nil, trim, trimStart, List.dropWhile_append_of_pos hbefore, ← trimStart, trim]
  | cons c after ih =>
      -- The first blank behind the text counts to the text.
      have htext : before ++ text ++ c :: after = before ++ (text ++ [c]) ++ after := by simp
      rw [htext, ih _ fun d hd => hafter d (List.mem_cons_of_mem c hd)]
      exact trim_append_blank text (hafter c List.mem_cons_self)

/-- Where a text has ink, only the blanks before that are trimmed at the start. -/
theorem trimStart_append_of_mem {front : Text} {c : Char} (hmem : c ∈ front)
    (hc : isBlank c = false) (text : Text) : trimStart (front ++ text) = trimStart front ++ text := by
  have hne : ¬ (front.dropWhile isBlank).isEmpty = true := by
    intro hempty
    have hall := List.dropWhile_eq_nil_iff.mp (List.isEmpty_iff.mp hempty) c hmem
    exact absurd (hc.symm.trans hall) (by decide)
  rw [trimStart, List.dropWhile_append, if_neg hne, trimStart]

theorem trimEnd_append_of_mem {back : Text} {c : Char} (hmem : c ∈ back)
    (hc : isBlank c = false) (text : Text) : trimEnd (text ++ back) = text ++ trimEnd back := by
  rw [trimEnd_eq, List.reverse_append, trimStart_append_of_mem (List.mem_reverse.mpr hmem) hc,
    List.reverse_append, List.reverse_reverse, trimEnd_eq]

/-- **What stands between ink is not trimmed.** -/
theorem trim_append_append {front back : Text} {c d : Char} (hmem : c ∈ front)
    (hc : isBlank c = false) (hmem' : d ∈ back) (hd : isBlank d = false) (text : Text) :
    trim (front ++ text ++ back) = trimStart front ++ text ++ trimEnd back := by
  rw [List.append_assoc, trim, trimStart_append_of_mem hmem hc, ← List.append_assoc,
    trimEnd_append_of_mem hmem' hd]

/-- Nothing more is left to trim of a trimmed text. -/
theorem trim_trim (text : Text) : trim (trim text) = trim text := by
  by_cases h : trim text = []
  · rw [h]
    rfl
  · exact trim_eq_self (startsInk_trim h) (endsInk_trim h)

end RuleTable.Text
