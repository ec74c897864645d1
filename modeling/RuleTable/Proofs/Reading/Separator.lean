import RuleTable.Proofs.Reading.Halves
import RuleTable.Proofs.Reading.Passage

/-!
# Two ways to count parentheses

The separator of a rule is the first comma at depth zero, and the depth goes down at every closing
parenthesis. The scanner of the conditions keeps a depth of its own, in its place, which a closing
parenthesis that closes nothing leaves alone. **The two agree up to the first such parenthesis** and
never again behind it: from there on the depth of the separator lies below that of the scanner.
-/

set_option autoImplicit false

namespace RuleTable

open Text

/-! ## The depth of the scanner -/

/-- How many parentheses are open at a place. -/
def Place.depth : Place → Nat
  | parens outer => outer + 1
  | _ => 0

/-- How many parentheses are open after a character, where one that closes nothing changes
nothing. -/
def openAfter (count : Nat) (c : Char) : Nat :=
  if c = '(' then count + 1 else if c = ')' then count - 1 else count

theorem depth_next (place : Place) (opens : Bool) (c : Char) :
    (place.next opens c).depth = openAfter place.depth c := by
  by_cases hopen : c = '('
  · simp only [Place.next, openAfter, if_pos hopen]
    cases place <;> rfl
  by_cases hclose : c = ')'
  · simp only [Place.next, openAfter, if_neg hopen, if_pos hclose]
    cases place with
    | top => rfl
    | range => rfl
    | parens outer => cases outer <;> rfl
  · simp only [Place.next, openAfter, if_neg hopen, if_neg hclose]
    cases place with
    | top => cases opens <;> rfl
    | range => rfl
    | parens outer => rfl

theorem foldl_openAfter_of_forall {text : Text} (count : Nat)
    (h : ∀ c ∈ text, c ≠ '(' ∧ c ≠ ')') : text.foldl openAfter count = count := by
  induction text with
  | nil => rfl
  | cons c text ih =>
      obtain ⟨hopen, hclose⟩ := h c List.mem_cons_self
      rw [List.foldl_cons, openAfter, if_neg hopen, if_neg hclose,
        ih fun d hd => h d (List.mem_cons_of_mem c hd)]

/-- A conjunction holds no parentheses. -/
theorem ne_parens_of_startsConjunction {c : Char} {text : Text}
    (h : startsConjunction (c :: text) = true) : ∀ d ∈ c :: text.take 4, d ≠ '(' ∧ d ≠ ')' := by
  intro d hd
  rcases (isConjunction_of_startsConjunction h).of_mem hd with hd | hd
  · exact ⟨ne_of_isBlank (isBlank_of_isAsciiBlank hd) (by decide),
      ne_of_isBlank (isBlank_of_isAsciiBlank hd) (by decide)⟩
  · constructor
    · rintro rfl
      cases hd
    · rintro rfl
      cases hd

/-- A passage that goes on from a character has passed it. -/
theorem exists_cons_of_append_eq {text rest all : Text} {c : Char} (hall : text ++ rest = c :: all)
    (hlength : rest.length ≤ all.length) : ∃ m, text = c :: m ∧ m ++ rest = all := by
  cases text with
  | nil =>
      rw [List.nil_append] at hall
      rw [hall, List.length_cons] at hlength
      omega
  | cons d m =>
      rw [List.cons_append] at hall
      obtain ⟨rfl, rfl⟩ := List.cons.inj hall
      exact ⟨m, rfl, rfl⟩

/-- A passage that goes on from behind a conjunction has passed all of it. -/
theorem exists_take_of_append_eq {text rest all : Text} {c : Char} (hall : text ++ rest = c :: all)
    (hand : startsConjunction (c :: all) = true) (hlength : rest.length ≤ (all.drop 4).length) :
    ∃ m, text = c :: all.take 4 ++ m ∧ m ++ rest = all.drop 4 := by
  have hfour := length_of_startsConjunction hand
  rw [List.length_drop] at hlength
  obtain ⟨m, rfl, rfl⟩ := exists_cons_of_append_eq hall (by omega)
  have hinside : 4 ≤ m.length := by
    rw [List.length_append] at hlength hfour
    omega
  refine ⟨m.drop 4, ?_, (List.drop_append_of_le_length hinside).symm⟩
  rw [List.take_append_of_le_length hinside, List.cons_append, List.take_append_drop]

/-- **On its passage the scanner counts the open parentheses** of what it passes. -/
theorem Scans.depth_eq {reader reader' : Reader} {text rest : Text} {pieces : List Text}
    (h : Scans reader (text ++ rest) pieces reader' rest) :
    reader'.place.depth = text.foldl openAfter reader.place.depth := by
  generalize hall : text ++ rest = all at h
  induction h generalizing text with
  | nil reader all =>
      obtain rfl : text = [] := List.append_left_eq_self.mp hall
      rfl
  | @character place next before all _ c _ _ hscan h ih =>
      obtain ⟨m, rfl, hm⟩ := exists_cons_of_append_eq hall h.suffix.length_le
      obtain ⟨rfl, -⟩ := scan_eq_character_iff.mp hscan
      rw [ih hm, depth_next, List.foldl_cons]
  | @rangeAnd place next before all _ c _ _ hscan h ih =>
      obtain ⟨rfl, hand, rfl⟩ := scan_eq_rangeAnd_iff.mp hscan
      obtain ⟨m, rfl, hm⟩ := exists_take_of_append_eq hall hand h.suffix.length_le
      rw [ih hm, List.foldl_append, foldl_openAfter_of_forall _ (ne_parens_of_startsConjunction hand)]
      split_ifs <;> rfl
  | @conjunction place before all _ c _ _ hscan h ih =>
      obtain ⟨rfl, hand⟩ := scan_eq_conjunction_iff.mp hscan
      obtain ⟨m, rfl, hm⟩ := exists_take_of_append_eq hall hand h.suffix.length_le
      rw [ih hm, List.foldl_append, foldl_openAfter_of_forall _ (ne_parens_of_startsConjunction hand)]
      rfl

/-! ## Outside parentheses -/

/-- **The scanner is outside parentheses** when it comes from `before` to `after`. -/
def Outside (before after : Text) : Prop :=
  ∃ pieces reader, Scans .start (before ++ after) pieces reader after ∧
    ∀ outer, reader.place ≠ .parens outer

theorem depth_eq_zero_iff (place : Place) : place.depth = 0 ↔ ∀ outer, place ≠ .parens outer := by
  cases place <;> simp [Place.depth]

/-- **Outside parentheses** as many are closed as are open, where nothing else is counted. -/
theorem outside_iff {before after : Text}
    (hafter : Stops (fun c => isAsciiBlank c || c.isAlpha) after) :
    Outside before after ↔ before.foldl openAfter 0 = 0 := by
  constructor
  · rintro ⟨pieces, reader, hscans, hplace⟩
    have hzero := (depth_eq_zero_iff reader.place).mpr hplace
    rw [hscans.depth_eq] at hzero
    exact hzero
  · intro hcount
    obtain ⟨pieces, reader, hscans⟩ := exists_scans .start before hafter
    refine ⟨pieces, reader, hscans, (depth_eq_zero_iff reader.place).mp ?_⟩
    rw [hscans.depth_eq]
    exact hcount

theorem outside_comma_iff {before after : Text} :
    Outside before (',' :: after) ↔ before.foldl openAfter 0 = 0 :=
  outside_iff (stops_cons.mpr (by decide))

theorem outside_close_iff {before after : Text} :
    Outside before (')' :: after) ↔ before.foldl openAfter 0 = 0 :=
  outside_iff (stops_cons.mpr (by decide))

/-- **The first comma outside parentheses** stands between `before` and `after`. -/
def IsSeparator (text before after : Text) : Prop :=
  text = before ++ ',' :: after ∧ Outside before (',' :: after) ∧
    ∀ front back, before = front ++ ',' :: back → ¬ Outside front (',' :: (back ++ ',' :: after))

/-- **A closing parenthesis of a text closes nothing**, with `after` behind the text. -/
def HasStray (text after : Text) : Prop :=
  ∃ front back, text = front ++ ')' :: back ∧ Outside front (')' :: (back ++ after))

/-! ## The depth of the separator -/

/-- **The separator** is the first comma up to which as many parentheses were opened as closed. -/
theorem cutAtComma?_eq_some_iff {depth : Int} {text before after : Text} :
    cutAtComma? depth text = some (before, after)
      ↔ text = before ++ ',' :: after ∧ before.foldl depthAfter depth = 0 ∧
        ∀ front back, before = front ++ ',' :: back → front.foldl depthAfter depth ≠ 0 := by
  induction text generalizing depth before with
  | nil => simp [cutAtComma?]
  | cons c text ih =>
      rw [cutAtComma?]
      by_cases hsep : c = ',' ∧ depth = 0
      · rw [if_pos hsep]
        obtain ⟨rfl, rfl⟩ := hsep
        constructor
        · intro h
          obtain ⟨rfl, rfl⟩ := Prod.mk.inj (Option.some.inj h)
          exact ⟨rfl, rfl, fun front back h => by simp at h⟩
        · rintro ⟨htext, -, hfirst⟩
          cases before with
          | nil =>
              obtain ⟨-, rfl⟩ := List.cons.inj htext
              rfl
          | cons d before =>
              obtain ⟨rfl, -⟩ := List.cons.inj htext
              exact absurd rfl (hfirst [] before rfl)
      · rw [if_neg hsep, Option.map_eq_some_iff]
        constructor
        · rintro ⟨⟨before', after'⟩, hcut, heq⟩
          obtain ⟨rfl, rfl⟩ := Prod.mk.inj heq
          obtain ⟨rfl, hzero, hfirst⟩ := ih.mp hcut
          refine ⟨rfl, hzero, fun front back hfront => ?_⟩
          cases front with
          | nil =>
              obtain ⟨rfl, -⟩ := List.cons.inj hfront
              exact fun hdepth => hsep ⟨rfl, hdepth⟩
          | cons d front =>
              obtain ⟨rfl, rfl⟩ := List.cons.inj hfront
              exact hfirst front back rfl
        · rintro ⟨htext, hzero, hfirst⟩
          cases before with
          | nil =>
              obtain ⟨rfl, -⟩ := List.cons.inj htext
              exact absurd ⟨rfl, hzero⟩ hsep
          | cons d before =>
              obtain ⟨rfl, rfl⟩ := List.cons.inj htext
              refine ⟨(before, after), ih.mpr ⟨rfl, hzero, fun front back hfront => ?_⟩, rfl⟩
              exact hfirst (c :: front) back (by rw [hfront, List.cons_append])

/-- **Without stray parentheses** both count the same. -/
theorem foldl_depthAfter_eq {text : Text} {count : Nat}
    (h : ∀ front back, text = front ++ ')' :: back → front.foldl openAfter count ≠ 0) :
    text.foldl depthAfter (count : Int) = (text.foldl openAfter count : Nat) := by
  induction text generalizing count with
  | nil => rfl
  | cons c text ih =>
      have hstep : depthAfter count c = (openAfter count c : Nat) := by
        unfold depthAfter openAfter
        split_ifs with hopen hclose
        · rfl
        · have hcount : count ≠ 0 := h [] text (by rw [hclose, List.nil_append])
          omega
        · rfl
      rw [List.foldl_cons, List.foldl_cons, hstep]
      exact ih fun front back hback => h (c :: front) back (by rw [hback, List.cons_append])

/-- The depth of the separator never comes nearer to that of the scanner from below. -/
theorem foldl_depthAfter_add_le {text : Text} {depth gap : Int} {count : Nat}
    (h : depth + gap ≤ count) :
    text.foldl depthAfter depth + gap ≤ (text.foldl openAfter count : Nat) := by
  induction text generalizing depth count with
  | nil => exact h
  | cons c text ih =>
      refine ih ?_
      unfold depthAfter openAfter
      split_ifs <;> omega

/-- **Behind a stray parenthesis** the depth of the separator lies below that of the scanner. -/
theorem foldl_depthAfter_lt_of_hasStray {text after : Text} (h : HasStray text after) :
    text.foldl depthAfter 0 < (text.foldl openAfter 0 : Nat) := by
  obtain ⟨front, back, rfl, hstray⟩ := h
  rw [outside_close_iff] at hstray
  have hfront : front.foldl depthAfter 0 + 0 ≤ (front.foldl openAfter 0 : Nat) :=
    foldl_depthAfter_add_le (by decide)
  -- At the parenthesis only the separator goes down, and it stays one below from there on.
  have hstep : depthAfter (front.foldl depthAfter 0) ')' + 1 ≤ ((0 : Nat) : Int) := by
    rw [hstray] at hfront
    show front.foldl depthAfter 0 - 1 + 1 ≤ ((0 : Nat) : Int)
    omega
  have hback : back.foldl depthAfter (depthAfter (front.foldl depthAfter 0) ')') + 1
      ≤ (back.foldl openAfter 0 : Nat) := foldl_depthAfter_add_le hstep
  rw [List.foldl_append, List.foldl_append, List.foldl_cons, List.foldl_cons, hstray]
  exact hback

/-! ## Where the two agree -/

/-- **Up to a comma with no stray parenthesis before it** the separator and the first comma outside
parentheses are the same. -/
theorem halves?_eq_some_iff_of_not_hasStray {text before after : Text}
    (h : ¬ HasStray before (',' :: after)) :
    halves? text = some (before, after) ↔ IsSeparator text before after := by
  have hcount : ∀ front back, before = front ++ back →
      front.foldl depthAfter 0 = (front.foldl openAfter 0 : Nat) := by
    rintro front back rfl
    refine foldl_depthAfter_eq fun front' back' heq hstray => h ⟨front', back' ++ back, ?_, ?_⟩
    · rw [heq, List.append_assoc, List.cons_append]
    · exact outside_close_iff.mpr hstray
  rw [halves?, cutAtComma?_eq_some_iff, IsSeparator, outside_comma_iff,
    hcount before [] (List.append_nil before).symm]
  refine and_congr_right fun _ => and_congr (by omega) (forall_congr' fun front =>
    forall_congr' fun back => imp_congr_right fun heq => ?_)
  rw [outside_comma_iff, hcount front (',' :: back) heq]
  omega

/-- **The separator is the first comma outside parentheses, and there is none if there is no such
comma**, for exactly the texts in which no parenthesis is stray before either of the two. -/
theorem separator_agrees_iff (text : Text) :
    (∀ before after, halves? text = some (before, after) ↔ IsSeparator text before after)
      ↔ ∀ before after, halves? text = some (before, after) ∨ IsSeparator text before after →
        ¬ HasStray before (',' :: after) := by
  constructor
  · intro hagree before after hcomma hstray
    have hhalves : halves? text = some (before, after) := hcomma.elim id (hagree before after).mpr
    obtain ⟨-, houtside, -⟩ := (hagree before after).mp hhalves
    obtain ⟨-, hzero, -⟩ := cutAtComma?_eq_some_iff.mp hhalves
    -- The comma lies at depth zero for both, and behind a stray parenthesis it cannot.
    have hbelow := foldl_depthAfter_lt_of_hasStray hstray
    rw [hzero, outside_comma_iff.mp houtside] at hbelow
    cases hbelow
  · intro hstray before after
    constructor
    · intro h
      exact (halves?_eq_some_iff_of_not_hasStray (hstray before after (Or.inl h))).mp h
    · intro h
      exact (halves?_eq_some_iff_of_not_hasStray (hstray before after (Or.inr h))).mpr h

/-- **A stray parenthesis parts the two**: behind one, a comma outside parentheses is overlooked, and
a comma inside the next pair is taken. -/
theorem halves?_of_stray :
    (IsSeparator " a is b), y is 1".toList " a is b)".toList " y is 1".toList ∧
        halves? " a is b), y is 1".toList = none) ∧
      ¬ Outside " a) is (1".toList ", 2), y is 1".toList ∧
        halves? " a) is (1, 2), y is 1".toList = some (" a) is (1".toList, " 2), y is 1".toList) := by
  have hcomma : ',' ∉ " a is b)".toList := by decide
  refine ⟨⟨⟨rfl, outside_comma_iff.mpr (by decide), fun front back heq => ?_⟩, by decide⟩, ?_,
    by decide⟩
  · exact absurd (by rw [heq]; simp) hcomma
  · exact fun houtside => absurd (outside_comma_iff.mp houtside) (by decide)

end RuleTable
