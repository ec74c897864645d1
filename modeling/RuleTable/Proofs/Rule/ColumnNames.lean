import Mathlib.Data.List.SplitBy
import RuleTable.Proofs.Text.LetterCase
import RuleTable.Rule.ColumnName

/-!
# From a variable to its column

The column name of a variable is made in one pass over the trimmed text. Four steps describe it, one
after the other: the text is trimmed, every character is put into lower case, every maximal run of
blanks becomes one `_`, and what a column name cannot hold is dropped. **`columnSteps`** takes these
steps on whole texts, and the pass gives just that.

The pass asks for blanks before it puts a character into lower case, the steps ask for them
afterwards. Both see the same runs, since the lower-case form of a blank is the blank, and that of
ink is ink and is not empty. Dropping comes last in the steps, so a character that is dropped ends a
run of blanks, as it does in the pass.

Variables that are **respelled**, with letters in another case or with other blanks around and
between the words, keep their columns.
-/

set_option autoImplicit false

namespace RuleTable

open Text

/-! ## Lower case and blanks -/

/-- A blank is its own lower-case form. -/
theorem lowerCase_of_isBlank {c : Char} (h : isBlank c = true) : lowerCase c = [c] := by
  have hall : ∀ code ∈ blankCodes, lowerCase (Char.ofNat code) = [Char.ofNat code] := by
    decide +kernel
  have hmem : c.toNat ∈ blankCodes := by simpa [isBlank] using h
  have hc := hall _ hmem
  rwa [Char.ofNat_toNat] at hc

theorem lowerCase_ne_nil (c : Char) : lowerCase c ≠ [] := by
  rw [lowerCase]
  split
  · exact List.cons_ne_nil _ _
  · split
    · exact List.cons_ne_nil _ _
    · split <;> exact List.cons_ne_nil _ _

/-- A code point that is not listed gives no blank, even if no character has it. -/
theorem isBlank_ofNat {code : Nat} (h : code ∉ blankCodes) : isBlank (Char.ofNat code) = false := by
  rw [isBlank, List.contains_eq_mem, decide_eq_false_iff_not]
  by_cases hcode : code.isValidChar
  · rw [Char.ofNat, dif_pos hcode]
    exact h
  · rw [Char.ofNat, dif_neg hcode]
    decide

/-- No run of capitals has a blank among its forms. -/
theorem form_notMem_blankCodes {run : CapitalRun} {code form : Nat} (hrun : run ∈ capitalRuns)
    (h : run.form? code = some form) : form ∉ blankCodes := by
  have hall : ∀ run ∈ capitalRuns, ∀ blank ∈ blankCodes,
      blank < run.form ∨ run.form + (run.last - run.first) < blank := by
    decide +kernel
  rw [CapitalRun.form?] at h
  split at h
  · obtain rfl := Option.some.inj h
    intro hmem
    rcases hall run hrun _ hmem with hlt | hlt <;> omega
  · cases h

/-- **The lower-case form of ink is ink.** -/
theorem isBlank_of_mem_lowerCase {c d : Char} (hc : isBlank c = false) (hd : d ∈ lowerCase c) :
    isBlank d = false := by
  rw [lowerCase] at hd
  split at hd
  · rw [List.mem_singleton.mp hd, blind_isBlank c, hc]
  · split at hd
    · have hall : ∀ d ∈ ['i', '\u0307'], isBlank d = false := by decide
      exact hall d hd
    · split at hd
      · next form hform =>
          obtain ⟨run, hrun, hform⟩ := List.exists_of_findSome?_eq_some hform
          rw [List.mem_singleton.mp hd]
          exact isBlank_ofNat (form_notMem_blankCodes hrun hform)
      · rwa [List.mem_singleton.mp hd]

/-! ## The four steps -/

/-- Every character in lower case. -/
def lowered (text : Text) : Text := text.flatMap lowerCase

/-- The maximal runs of blanks and of ink that a text consists of. -/
def blankRuns (text : Text) : List Text := text.splitBy fun c d => isBlank c == isBlank d

/-- Every maximal run of blanks as one `_`. -/
def underscored (text : Text) : Text :=
  (blankRuns text).flatMap fun run => if run.all isBlank then ['_'] else run

/-- **The four steps** from a variable to the characters of its column name. -/
def columnSteps (written : Text) : Text :=
  (underscored (lowered (trim written))).filter isColumnChar

/-- A run comes off a text where the next character is of the other kind. -/
theorem blankRuns_append {run rest : Text} {b : Bool} (hne : run ≠ [])
    (hrun : ∀ c ∈ run, isBlank c = b) (hrest : ∀ c ∈ rest.head?, isBlank c = !b) :
    blankRuns (run ++ rest) = run :: blankRuns rest := by
  have hchain : run.IsChain fun c d => (isBlank c == isBlank d) = true := by
    refine (List.pairwise_of_forall_mem_list fun c hc d hd => ?_).isChain
    rw [hrun c hc, hrun d hd, beq_self_eq_true]
  have hsplit : ∀ c ∈ run.getLast?, ∀ d ∈ rest.head?, (isBlank c == isBlank d) = false := by
    intro c hc d hd
    rw [hrun c (List.mem_of_getLast? hc), hrest d hd]
    cases b <;> rfl
  rw [blankRuns, List.splitBy_append hsplit, List.splitBy_of_isChain hne hchain]
  rfl

/-- The blanks that a text starts with become one `_`. -/
theorem underscored_cons_of_isBlank {c : Char} (hc : isBlank c = true) (text : Text) :
    underscored (c :: text) = '_' :: underscored (text.dropWhile isBlank) := by
  have hrun : ∀ d ∈ c :: text.takeWhile isBlank, isBlank d = true := by
    intro d hd
    rcases List.mem_cons.mp hd with rfl | hd
    · exact hc
    · exact List.mem_takeWhile_imp hd
  have htext : c :: text = (c :: text.takeWhile isBlank) ++ text.dropWhile isBlank := by
    rw [List.cons_append, List.takeWhile_append_dropWhile]
  rw [htext, underscored, blankRuns_append (List.cons_ne_nil _ _) hrun (stops_dropWhile text),
    List.flatMap_cons, if_pos (List.all_eq_true.mpr hrun)]
  rfl

/-- A run of ink stays as it is. -/
theorem underscored_append_of_stops {ink rest : Text} (hink : ∀ c ∈ ink, isBlank c = false)
    (hrest : ∀ c ∈ rest.head?, isBlank c = true) :
    underscored (ink ++ rest) = ink ++ underscored rest := by
  by_cases hne : ink = []
  · rw [hne, List.nil_append, List.nil_append]
  · obtain ⟨c, text, rfl⟩ := List.exists_cons_of_ne_nil hne
    rw [underscored, blankRuns_append hne hink hrest, List.flatMap_cons, if_neg]
    · rfl
    · intro hall
      have hc := List.all_eq_true.mp hall c List.mem_cons_self
      exact absurd (hc.symm.trans (hink c List.mem_cons_self)) (by decide)

theorem underscored_cons_of_ink {c : Char} (hc : isBlank c = false) (text : Text) :
    underscored (c :: text) = c :: underscored text := by
  have hrun : ∀ d ∈ text.takeWhile (! isBlank ·), isBlank d = false := by
    intro d hd
    simpa using List.mem_takeWhile_imp hd
  have hstops : ∀ d ∈ (text.dropWhile (! isBlank ·)).head?, isBlank d = true := by
    intro d hd
    simpa using stops_dropWhile text d hd
  have htext := List.takeWhile_append_dropWhile (p := (! isBlank ·)) (l := text)
  have hwhole : ∀ d ∈ c :: text.takeWhile (! isBlank ·), isBlank d = false := by
    intro d hd
    rcases List.mem_cons.mp hd with rfl | hd
    · exact hc
    · exact hrun d hd
  calc underscored (c :: text)
      = underscored ((c :: text.takeWhile (! isBlank ·)) ++ text.dropWhile (! isBlank ·)) := by
        rw [List.cons_append, htext]
    _ = c :: (text.takeWhile (! isBlank ·) ++ underscored (text.dropWhile (! isBlank ·))) :=
        underscored_append_of_stops hwhole hstops
    _ = c :: underscored text := by
        rw [← underscored_append_of_stops hrun hstops, htext]

theorem underscored_append_of_ink {ink : Text} (hink : ∀ c ∈ ink, isBlank c = false) (text : Text) :
    underscored (ink ++ text) = ink ++ underscored text := by
  induction ink with
  | nil => rfl
  | cons c ink ih =>
      rw [List.cons_append, underscored_cons_of_ink (hink c List.mem_cons_self),
        ih fun d hd => hink d (List.mem_cons_of_mem c hd), List.cons_append]

/-! ## One pass -/

/-- **The pass takes the steps**, and behind a blank it takes them from the next ink on. -/
theorem squeeze_eq (text : Text) :
    ColumnName.squeeze false text = (underscored (lowered text)).filter isColumnChar ∧
      ColumnName.squeeze true text
        = (underscored ((lowered text).dropWhile isBlank)).filter isColumnChar := by
  -- Both states of the pass at once, since a run of blanks starts and ends on the way.
  induction text with
  | nil => exact ⟨rfl, rfl⟩
  | cons c text ih =>
      obtain ⟨ihInk, ihBlank⟩ := ih
      have hlowered : lowered (c :: text) = lowerCase c ++ lowered text := List.flatMap_cons
      by_cases hc : isBlank c = true
      · have hkept : isColumnChar '_' = true := by decide
        rw [hlowered, lowerCase_of_isBlank hc, List.singleton_append, ColumnName.squeeze,
          ColumnName.squeeze, if_pos hc, if_pos hc, if_neg (by decide), if_pos rfl,
          underscored_cons_of_isBlank hc, List.filter_cons_of_pos hkept,
          List.dropWhile_cons_of_pos hc]
        exact ⟨congrArg ('_' :: ·) ihBlank, ihBlank⟩
      · have hink : ∀ d ∈ lowerCase c, isBlank d = false := fun d =>
          isBlank_of_mem_lowerCase (by simpa using hc)
        have hdrop : (lowerCase c ++ lowered text).dropWhile isBlank = lowerCase c ++ lowered text := by
          obtain ⟨d, form, hform⟩ := List.exists_cons_of_ne_nil (lowerCase_ne_nil c)
          have hd : isBlank d = false := hink d (by rw [hform]; exact List.mem_cons_self)
          rw [hform, List.cons_append, List.dropWhile_cons_of_neg (by simp [hd])]
        rw [hlowered, hdrop, underscored_append_of_ink hink, List.filter_append, ← ihInk,
          ColumnName.squeeze, ColumnName.squeeze, if_neg hc, if_neg hc]
        exact ⟨rfl, rfl⟩

/-! ## What a column name holds -/

/-- The characters of column names. -/
theorem isColumnChar_iff {c : Char} :
    isColumnChar c = true ↔ ('a' ≤ c ∧ c ≤ 'z') ∨ ('0' ≤ c ∧ c ≤ '9') ∨ c = '_' := by
  have hlower : c.isLower = true ↔ 'a' ≤ c ∧ c ≤ 'z' := by
    show (decide ('a'.val ≤ c.val) && decide (c.val ≤ 'z'.val)) = true ↔ _
    rw [Bool.and_eq_true, decide_eq_true_eq, decide_eq_true_eq]
    exact Iff.rfl
  have hdigit : c.isDigit = true ↔ '0' ≤ c ∧ c ≤ '9' := by
    show (decide ('0'.val ≤ c.val) && decide (c.val ≤ '9'.val)) = true ↔ _
    rw [Bool.and_eq_true, decide_eq_true_eq, decide_eq_true_eq]
    exact Iff.rfl
  rw [isColumnChar, Bool.or_eq_true, Bool.or_eq_true, beq_iff_eq, or_assoc, hlower, hdigit]

/-- A column character is no blank. -/
theorem isBlank_eq_false_of_isColumnChar {c : Char} (h : isColumnChar c = true) : isBlank c = false :=
  isBlank_eq_false (by decide) h

/-- A column name has no blanks to trim. -/
theorem trim_chars (column : ColumnName) : trim column.chars = column.chars :=
  trim_eq_self_of_forall fun c hc => isBlank_eq_false_of_isColumnChar (column.plain c hc)

/-- A column character is its own lower-case form. -/
theorem lowerCase_of_isColumnChar {c : Char} (h : isColumnChar c = true) : lowerCase c = [c] := by
  have hcode : c.toNat < 0x80 ∧ ¬ (65 ≤ c.toNat ∧ c.toNat ≤ 90) := by
    rcases isColumnChar_iff.mp h with ⟨hlow, hhigh⟩ | ⟨hlow, hhigh⟩ | rfl
    · have hle : 97 ≤ c.toNat := hlow
      have hge : c.toNat ≤ 122 := hhigh
      omega
    · have hle : 48 ≤ c.toNat := hlow
      have hge : c.toNat ≤ 57 := hhigh
      omega
    · decide
  have hlower : c.toLower = c := Char.toNat_inj.mp (by rw [toNat_toLower, if_neg hcode.2])
  rw [lowerCase, if_pos hcode.1, hlower]

/-- Column characters go through the pass as they are. -/
theorem squeeze_eq_self {text : Text} (h : ∀ c ∈ text, isColumnChar c = true) (inBlank : Bool) :
    ColumnName.squeeze inBlank text = text := by
  induction text generalizing inBlank with
  | nil => rfl
  | cons c text ih =>
      have hc := h c List.mem_cons_self
      have hink : isBlank c = false := isBlank_eq_false_of_isColumnChar hc
      rw [ColumnName.squeeze, if_neg (by simp [hink]), lowerCase_of_isColumnChar hc,
        List.filter_cons_of_pos hc, List.filter_nil, List.singleton_append,
        ih (fun d hd => h d (List.mem_cons_of_mem c hd)) false]

/-- **A column name is the column name of itself.** -/
theorem ofText_chars (column : ColumnName) : ColumnName.ofText column.chars = column := by
  have hchars : (ColumnName.ofText column.chars).chars = column.chars := by
    show ColumnName.squeeze false (trim column.chars) = column.chars
    rw [trim_chars, squeeze_eq_self column.plain]
  cases column
  exact ColumnName.mk.injEq .. ▸ hchars

/-! ## Respelling -/

/-- **A variable is respelled** in letters of another case, with blanks around it, or with other
blanks where it has blanks, and in any of this time and again. -/
inductive Respelled : Text → Text → Prop
  | letters {a b : Text} (h : sameLetters a b = true) : Respelled a b
  | around {before after : Text} (text : Text) (hbefore : ∀ c ∈ before, isBlank c = true)
      (hafter : ∀ c ∈ after, isBlank c = true) : Respelled (before ++ text ++ after) text
  | within {gap gap' : Text} (front back : Text) (hne : gap ≠ []) (hne' : gap' ≠ [])
      (hgap : ∀ c ∈ gap, isBlank c = true) (hgap' : ∀ c ∈ gap', isBlank c = true) :
      Respelled (front ++ gap ++ back) (front ++ gap' ++ back)
  | symm {a b : Text} (h : Respelled a b) : Respelled b a
  | trans {a b c : Text} (h : Respelled a b) (h' : Respelled b c) : Respelled a c

/-- The pass leaves one `_` of the blanks it comes to, or none inside a run of blanks. -/
theorem squeeze_blanks_append {gap : Text} (hne : gap ≠ []) (hgap : ∀ c ∈ gap, isBlank c = true)
    (inBlank : Bool) (back : Text) :
    ColumnName.squeeze inBlank (gap ++ back)
      = (if inBlank then [] else ['_']) ++ ColumnName.squeeze true back := by
  induction gap generalizing inBlank with
  | nil => exact absurd rfl hne
  | cons c gap ih =>
      rw [List.cons_append, ColumnName.squeeze, if_pos (hgap c List.mem_cons_self)]
      by_cases hnil : gap = []
      · rw [hnil, List.nil_append]
        cases inBlank <;> rfl
      · rw [ih hnil (fun d hd => hgap d (List.mem_cons_of_mem c hd)) true]
        cases inBlank <;> rfl

/-- What the pass makes of the end of a text does not depend on what stands before it. -/
theorem squeeze_append_congr {back back' : Text}
    (h : ∀ inBlank, ColumnName.squeeze inBlank back = ColumnName.squeeze inBlank back')
    (front : Text) (inBlank : Bool) :
    ColumnName.squeeze inBlank (front ++ back) = ColumnName.squeeze inBlank (front ++ back') := by
  induction front generalizing inBlank with
  | nil => exact h inBlank
  | cons c front ih =>
      rw [List.cons_append, List.cons_append, ColumnName.squeeze, ColumnName.squeeze, ih true,
        ih false]

/-- Other blanks between ink are passed over alike. -/
theorem squeeze_within {gap gap' : Text} (front back : Text) (hne : gap ≠ []) (hne' : gap' ≠ [])
    (hgap : ∀ c ∈ gap, isBlank c = true) (hgap' : ∀ c ∈ gap', isBlank c = true) :
    ColumnName.squeeze false (trim (front ++ gap ++ back))
      = ColumnName.squeeze false (trim (front ++ gap' ++ back)) := by
  have hblanks : ∀ {a b : Text}, (∀ c ∈ a, isBlank c = true) → (∀ c ∈ b, isBlank c = true) →
      ∀ c ∈ a ++ b, isBlank c = true := by
    intro a b ha hb c hc
    exact (List.mem_append.mp hc).elim (ha c) (hb c)
  by_cases hfront : ∀ c ∈ front, isBlank c = true
  · -- All of the blanks before the end are trimmed.
    have htrim : ∀ gap : Text, (∀ c ∈ gap, isBlank c = true) →
        trim (front ++ gap ++ back) = trim back := by
      intro gap hgap
      have h := trim_blanks_append back (hblanks hfront hgap) (List.forall_mem_nil _)
      rwa [List.append_nil] at h
    rw [htrim gap hgap, htrim gap' hgap']
  · by_cases hback : ∀ c ∈ back, isBlank c = true
    · -- All of the blanks behind the start are trimmed.
      have htrim : ∀ gap : Text, (∀ c ∈ gap, isBlank c = true) →
          trim (front ++ gap ++ back) = trim front := by
        intro gap hgap
        have h := trim_blanks_append front (List.forall_mem_nil _) (hblanks hgap hback)
        rwa [List.nil_append, ← List.append_assoc] at h
      rw [htrim gap hgap, htrim gap' hgap']
    · simp only [not_forall, Bool.not_eq_true] at hfront hback
      obtain ⟨c, hc, hcInk⟩ := hfront
      obtain ⟨d, hd, hdInk⟩ := hback
      rw [trim_append_append hc hcInk hd hdInk, trim_append_append hc hcInk hd hdInk,
        List.append_assoc, List.append_assoc]
      refine squeeze_append_congr (fun inBlank => ?_) _ _
      rw [squeeze_blanks_append hne hgap, squeeze_blanks_append hne' hgap']

/-- **Respelling a variable does not change its column.** -/
theorem Respelled.ofText_eq {a b : Text} (h : Respelled a b) :
    ColumnName.ofText a = ColumnName.ofText b := by
  induction h with
  | @letters a b h =>
      have hfolded : folded a = folded b := sameLetters_iff.mp h
      rw [← ofText_folded a, hfolded, ofText_folded]
  | around text hbefore hafter =>
      simp only [ColumnName.ofText, trim_blanks_append text hbefore hafter]
  | within front back hne hne' hgap hgap' =>
      simp only [ColumnName.ofText, squeeze_within front back hne hne' hgap hgap']
  | symm _ ih => exact ih.symm
  | trans _ _ ih ih' => exact ih.trans ih'

/-! ## Column names -/

/-- **The one pass over a variable comes to the four steps.** What it gives is made of small letters,
digits and `_`, does not change when it is taken again, and is the same however the variable is
spelled. -/
theorem ofText_steps_and_respelled :
    (∀ written, (ColumnName.ofText written).chars = columnSteps written) ∧
      (∀ written, ∀ c ∈ (ColumnName.ofText written).chars,
        ('a' ≤ c ∧ c ≤ 'z') ∨ ('0' ≤ c ∧ c ≤ '9') ∨ c = '_') ∧
      (∀ written, ColumnName.ofText (ColumnName.ofText written).chars = ColumnName.ofText written) ∧
      ∀ a b, Respelled a b → ColumnName.ofText a = ColumnName.ofText b := by
  refine ⟨fun written => ?_, fun written c hc => ?_, fun written => ?_, fun a b h => ?_⟩
  · exact (squeeze_eq (trim written)).1
  · exact isColumnChar_iff.mp ((ColumnName.ofText written).plain c hc)
  · exact ofText_chars _
  · exact h.ofText_eq

/-- Letters in another case, blanks at both ends and a tabulator for three spaces. -/
theorem ofText_totalAmount :
    'm' ∈ (ColumnName.ofText " Total   Amount ".toList).chars ∧
      (('a' ≤ 'm' ∧ 'm' ≤ 'z') ∨ ('0' ≤ 'm' ∧ 'm' ≤ '9') ∨ 'm' = '_') ∧
      Respelled " Total   Amount ".toList "total\tamount".toList ∧
      ColumnName.ofText " Total   Amount ".toList = ColumnName.ofText "total\tamount".toList := by
  have hmem : 'm' ∈ (ColumnName.ofText " Total   Amount ".toList).chars := by decide
  have haround : Respelled (" ".toList ++ "Total   Amount".toList ++ " ".toList)
      "Total   Amount".toList := .around _ (by decide) (by decide)
  have hletters : Respelled "Total   Amount".toList "total   amount".toList :=
    .letters (by decide)
  have hwithin : Respelled ("total".toList ++ "   ".toList ++ "amount".toList)
      ("total".toList ++ "\t".toList ++ "amount".toList) :=
    .within _ _ (by decide) (by decide) (by decide) (by decide)
  have h : Respelled " Total   Amount ".toList "total\tamount".toList :=
    haround.trans (hletters.trans hwithin)
  exact ⟨hmem, ofText_steps_and_respelled.2.1 _ _ hmem, h,
    ofText_steps_and_respelled.2.2.2 _ _ h⟩

/-- A character that is dropped ends a run of blanks. -/
example : (ColumnName.ofText "order - count (7d)".toList).chars = "order__count_7d".toList := by
  decide

end RuleTable
