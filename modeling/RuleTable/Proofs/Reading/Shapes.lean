import RuleTable.Proofs.Reading.Cuts
import RuleTable.Proofs.Reading.Operands

/-!
# The grammar of conditions

A clause has a shape if it can be taken apart in the way of that shape, and it may have several shapes,
and one shape in several ways. **`Decomposes`** says how a clause can be taken apart, and **`IsChosen`**
which of the ways counts: the one with the longest variable of the first shape there is any of. The
reader, which tries the keywords of each shape from the right and stops at the first that fits, finds
exactly that one.
-/

set_option autoImplicit false

namespace RuleTable

open Text

/-! ## Ways to take a clause apart -/

/-- **A clause splits at a keyword** that stands between ASCII blanks, in any case: a variable on the
left, without the blanks it ends with, and the text on the right, without the blanks it starts
with. -/
def Splits (keyword clause left right : Text) : Prop :=
  ∃ front w back, clause = front ++ w ++ back ∧ sameLetters w keyword = true ∧
    (∃ most b, front = most ++ [b] ∧ isAsciiBlank b = true) ∧
    (∃ b more, back = b :: more ∧ isAsciiBlank b = true) ∧
    left = trimEnd front ∧ right = trimStart back ∧ isVariable left = true

/-- **The shapes of conditions.** -/
inductive Shape
  | range
  | list
  | containment
  | equality
  | comparison
deriving DecidableEq

/-- The place of a shape in the order in which shapes are preferred. -/
def Shape.rank : Shape → Nat
  | range => 0
  | list => 1
  | containment => 2
  | equality => 3
  | comparison => 4

/-- **A clause can be taken apart in the way of a shape**, with the variable on its left and the
condition it comes to. -/
inductive Decomposes (clause : Text) : Shape → Text → Condition → Prop
  /-- Two bounds with the word `and` between them. -/
  | range {left low gap w gap' high : Text}
      (hsplits : Splits "between".toList clause left (low ++ (gap ++ (w ++ (gap' ++ high)))))
      (hlow : IsBound low) (hgap : IsGap gap) (hword : sameLetters w "and".toList = true)
      (hgap' : IsGap gap') (hhigh : IsBound high) :
      Decomposes clause .range left (.on left .isIn (['['] ++ low ++ "..".toList ++ high ++ [']']))
  /-- Items in parentheses, with commas between them. -/
  | list {left items : Text} {pieces : List Text}
      (hsplits : Splits "in".toList clause left ('(' :: (items ++ [')'])))
      (hne : items ≠ []) (hclose : ')' ∉ items) (hitems : items = join [','] pieces)
      (hpieces : ∀ piece ∈ pieces, ',' ∉ piece) :
      Decomposes clause .list left
        (.on left .isIn (['['] ++ join ", ".toList (pieces.map fun piece =>
          ['"'] ++ trim piece ++ ['"']) ++ [']']))
  /-- A text without the word `any` it may start with. -/
  | containment {left right value : Text} (hsplits : Splits "contains".toList clause left right)
      (hvalue : IsContained right value) :
      Decomposes clause .containment left (.on left .contains value)
  /-- Any text. -/
  | equality {left right : Text} (hsplits : Splits "is".toList clause left right) :
      Decomposes clause .equality left (.on left .equals right)
  /-- A comparison sign, at the first character of one, and a text behind it. -/
  | comparison {front text gap value : Text} {operator : Operator} (hclause : clause = front ++ text)
      (hfront : ∀ c ∈ front, isComparisonChar c = false)
      (hvariable : isVariable (trimEnd front) = true) (hsign : StartsSign text operator (gap ++ value))
      (hgap : ∀ c ∈ gap, isAsciiBlank c = true) (hstops : Stops isAsciiBlank value)
      (hne : value ≠ []) :
      Decomposes clause .comparison (trimEnd front) (.on (trimEnd front) operator value)

/-- **The way of a shape that counts** is the one with the longest variable. -/
structure IsLongest (clause : Text) (shape : Shape) (left : Text) (condition : Condition) :
    Prop where
  decomposes : Decomposes clause shape left condition
  longest : ∀ other condition', Decomposes clause shape other condition' → other.length ≤ left.length

/-- **The condition of a clause that is chosen**: it is that of the first shape the clause has. -/
structure IsChosen (clause : Text) (shape : Shape) (condition : Condition) : Prop where
  isLongest : ∃ left, IsLongest clause shape left condition
  isFirst : ∀ earlier : Shape, earlier.rank < shape.rank →
    ∀ left condition', ¬ Decomposes clause earlier left condition'

/-! ## Splits and cuts -/

variable {clause : Text}

theorem splits_iff {keyword left right : Text} :
    Splits keyword clause left right
      ↔ ∃ cut, IsCut keyword clause cut ∧ cut.left = left ∧ isVariable left = true ∧
        cut.right = right := by
  constructor
  · rintro ⟨front, w, back, rfl, hsame, ⟨most, b, rfl, hb⟩, ⟨b', more, rfl, hb'⟩, rfl, rfl, hv⟩
    refine ⟨⟨(most ++ [b]).reverse, b' :: more⟩, ⟨w, by simp, hsame, ?_, ?_⟩, ?_, hv, rfl⟩
    · exact startsBlank_iff.mpr ⟨b, most.reverse, by simp, hb⟩
    · exact startsBlank_iff.mpr ⟨b', more, rfl, hb'⟩
    · rw [Cut.left, List.reverse_reverse]
  · rintro ⟨cut, ⟨w, rfl, hsame, hbefore, hafter⟩, rfl, hv, rfl⟩
    obtain ⟨b, most, hmost, hb⟩ := startsBlank_iff.mp hbefore
    obtain ⟨b', more, hmore, hb'⟩ := startsBlank_iff.mp hafter
    exact ⟨cut.before.reverse, w, cut.after, rfl, hsame, ⟨most.reverse, b, by simp [hmost], hb⟩,
      ⟨b', more, hmore, hb'⟩, rfl, rfl, hv⟩

theorem Splits.isVariable {keyword left right : Text} (h : Splits keyword clause left right) :
    RuleTable.isVariable left = true := by
  obtain ⟨-, -, -, -, -, -, -, -, -, hvariable⟩ := h
  exact hvariable

/-- **The right side of a trimmed clause** ends with ink. -/
theorem Splits.endsInk {keyword left right : Text} (h : Splits keyword clause left right)
    (htrim : trim clause = clause) : EndsInk right := by
  obtain ⟨front, w, back, rfl, -, -, ⟨b, more, hback, -⟩, -, rfl, -⟩ := h
  have hne : back ≠ [] := by
    rw [hback]
    exact List.cons_ne_nil b more
  have hink : EndsInk (front ++ w ++ back) :=
    endsInk_of_trim_eq htrim (List.append_ne_nil_of_right_ne_nil _ hne)
  exact (hink.of_suffix (List.suffix_append _ _) hne).trimStart

/-- The left side is no longer than the clause. -/
theorem Decomposes.length_le {shape : Shape} {left : Text} {condition : Condition}
    (h : Decomposes clause shape left condition) : left.length ≤ clause.length := by
  have hsplits : ∀ {keyword right : Text}, Splits keyword clause left right →
      left.length ≤ clause.length := by
    rintro keyword right ⟨front, w, back, rfl, -, -, -, rfl, -, -⟩
    have hle := (trimEnd_startsText front).length_le
    simp only [List.length_append]
    omega
  cases h with
  | range h => exact hsplits h
  | list h => exact hsplits h
  | containment h => exact hsplits h
  | equality h => exact hsplits h
  | @comparison front text _ _ _ hclause =>
      have hle := (trimEnd_startsText front).length_le
      rw [hclause, List.length_append]
      omega

/-- **Where there is a way, there is a longest one.** -/
theorem Decomposes.exists_isLongest {shape : Shape} {left : Text} {condition : Condition}
    (h : Decomposes clause shape left condition) :
    ∃ left condition, IsLongest clause shape left condition := by
  -- The longer the variable, the less of the clause is left.
  induction hrest : clause.length - left.length using Nat.strong_induction_on
    generalizing left condition with
  | _ n ih =>
      by_cases hlongest : ∀ other condition', Decomposes clause shape other condition' →
          other.length ≤ left.length
      · exact ⟨left, condition, h, hlongest⟩
      · obtain ⟨other, condition', hother, hlt⟩ : ∃ other condition',
            Decomposes clause shape other condition' ∧ left.length < other.length := by
          simpa using hlongest
        have hle := hother.length_le
        exact ih (clause.length - other.length) (by omega) hother rfl

/-! ## The readers of the shapes -/

/-- The reader of a shape. -/
def Shape.read? : Shape → Text → Option Condition
  | range => readRange?
  | list => readList?
  | containment => readContainment?
  | equality => fun clause => (readEquality? clause).map fun read => .on read.1 .equals read.2
  | comparison => readComparison?

/-- **What is read at a keyword is the way of a shape that counts**, if the ways of the shape are the
splits at the keyword with an operand that is read. -/
theorem map_readCut?_eq_some_iff {α : Type} {keyword : Text} (hk : IsKeyword keyword)
    {operand? : Text → Option α} {make : Text × α → Condition} {shape : Shape}
    (hshape : ∀ left condition, Decomposes clause shape left condition
      ↔ ∃ right operand, Splits keyword clause left right ∧ operand? right = some operand ∧
        condition = make (left, operand)) (condition : Condition) :
    (readCut? keyword operand? clause).map make = some condition
      ↔ ∃ left, IsLongest clause shape left condition := by
  rw [Option.map_eq_some_iff]
  constructor
  · rintro ⟨⟨left, operand⟩, hread, rfl⟩
    obtain ⟨cut, hcut, rfl, hv, ho, hlongest⟩ :=
      (readCut?_eq_some_iff_of_isKeyword hk).mp hread
    have hsplits := splits_iff.mpr ⟨cut, hcut, rfl, hv, rfl⟩
    refine ⟨cut.left, (hshape _ _).mpr ⟨_, operand, hsplits, ho, rfl⟩, fun other condition' h => ?_⟩
    obtain ⟨right, operand', hsplits', ho', -⟩ := (hshape _ _).mp h
    obtain ⟨cut', hcut', rfl, hv', rfl⟩ := splits_iff.mp hsplits'
    exact hlongest cut' hcut' hv' (Option.isSome_of_eq_some ho')
  · rintro ⟨left, hway, hlongest⟩
    obtain ⟨right, operand, hsplits, ho, rfl⟩ := (hshape _ _).mp hway
    obtain ⟨cut, hcut, rfl, hv, rfl⟩ := splits_iff.mp hsplits
    refine ⟨(cut.left, operand),
      (readCut?_eq_some_iff_of_isKeyword hk).mpr ⟨cut, hcut, rfl, hv, ho, ?_⟩, rfl⟩
    intro other hother hv' hsome
    obtain ⟨operand', ho'⟩ := Option.isSome_iff_exists.mp hsome
    have hsplits' := splits_iff.mpr ⟨other, hother, rfl, hv', rfl⟩
    exact hlongest other.left _ ((hshape _ _).mpr ⟨_, operand', hsplits', ho', rfl⟩)

section Ways

variable {left : Text} {condition : Condition}

theorem decomposes_range_iff :
    Decomposes clause .range left condition
      ↔ ∃ right bounds, Splits "between".toList clause left right ∧
        rangeBounds? right = some bounds ∧
        condition = .on left .isIn (['['] ++ bounds.1 ++ "..".toList ++ bounds.2 ++ [']']) := by
  constructor
  · intro h
    cases h with
    | range hsplits hlow hgap hword hgap' hhigh =>
        exact ⟨_, (_, _), hsplits,
          rangeBounds?_eq_some_iff.mpr ⟨_, _, _, rfl, hlow, hgap, hword, hgap', hhigh⟩, rfl⟩
  · rintro ⟨right, ⟨low, high⟩, hsplits, hbounds, rfl⟩
    obtain ⟨gap, w, gap', rfl, hlow, hgap, hword, hgap', hhigh⟩ :=
      rangeBounds?_eq_some_iff.mp hbounds
    exact .range hsplits hlow hgap hword hgap' hhigh

theorem decomposes_list_iff :
    Decomposes clause .list left condition
      ↔ ∃ right items, Splits "in".toList clause left right ∧ listItems? right = some items ∧
        condition = .on left .isIn (quotedList items) := by
  constructor
  · intro h
    cases h with
    | @list _ items pieces hsplits hne hclose hitems hpieces =>
        have hsome : pieces ≠ [] := by
          rintro rfl
          exact hne hitems
        have hsplit : splitOn ',' items = pieces := splitOn_eq_iff.mpr ⟨hsome, hitems.symm, hpieces⟩
        refine ⟨_, items, hsplits, listItems?_eq_some_iff.mpr ⟨rfl, hne, hclose⟩, ?_⟩
        rw [quotedList, hsplit]
  · rintro ⟨right, items, hsplits, hlist, rfl⟩
    obtain ⟨rfl, hne, hclose⟩ := listItems?_eq_some_iff.mp hlist
    obtain ⟨-, hitems, hpieces⟩ := splitOn_eq_iff.mp (Eq.refl (splitOn ',' items))
    exact .list hsplits hne hclose hitems.symm hpieces

/-- What a column is to contain ends as the text does, whether the word `any` stands before it or
not. -/
theorem IsContained.endsInk {right value : Text} (h : IsContained right value)
    (hright : EndsInk right) : EndsInk value := by
  rcases h with ⟨w, gap, rfl, -, hgap, -⟩ | ⟨-, rfl⟩
  · refine hright.of_suffix ((List.suffix_append gap value).trans (List.suffix_append w _)) ?_
    rintro rfl
    -- Otherwise the text would end with the last blank of the gap.
    obtain ⟨most, c, hmost, hc⟩ := hright
    rw [List.append_nil] at hmost
    have hend := congrArg List.getLast? hmost
    rw [List.getLast?_append_of_ne_nil w hgap.1, List.getLast?_concat] at hend
    have hblank := isBlank_of_isAsciiBlank (hgap.2 c (List.mem_of_getLast? hend))
    rw [hc] at hblank
    cases hblank
  · exact hright

theorem decomposes_containment_iff (htrim : trim clause = clause) :
    Decomposes clause .containment left condition
      ↔ ∃ right value, Splits "contains".toList clause left right ∧ contained? right = some value ∧
        condition = .on left .contains value := by
  constructor
  · intro h
    cases h with
    | containment hsplits hvalue =>
        have hne := (hvalue.endsInk (hsplits.endsInk htrim)).ne_nil
        exact ⟨_, _, hsplits, contained?_eq_some_iff.mpr ⟨hvalue, hne⟩, rfl⟩
  · rintro ⟨right, value, hsplits, hcontained, rfl⟩
    exact .containment hsplits (contained?_eq_some_iff.mp hcontained).1

theorem decomposes_equality_iff (htrim : trim clause = clause) :
    Decomposes clause .equality left condition
      ↔ ∃ right value, Splits "is".toList clause left right ∧ someText? right = some value ∧
        condition = .on left .equals value := by
  constructor
  · intro h
    cases h with
    | @equality _ right hsplits =>
        have hne := (hsplits.endsInk htrim).ne_nil
        exact ⟨_, _, hsplits, someText?_eq_some_iff.mpr ⟨rfl, hne⟩, rfl⟩
  · rintro ⟨right, value, hsplits, hsome, rfl⟩
    obtain ⟨rfl, -⟩ := someText?_eq_some_iff.mp hsome
    exact .equality hsplits

/-- A comparison is read at the first character of a sign. -/
theorem readComparison?_eq_some_iff :
    readComparison? clause = some condition ↔ ∃ left, Decomposes clause .comparison left condition := by
  constructor
  · intro h
    simp only [readComparison?] at h
    split at h
    · next operator text hsign =>
        rw [Option.ite_none_right_eq_some, Option.map_eq_some_iff] at h
        obtain ⟨hvariable, value, hvalue, rfl⟩ := h
        obtain ⟨rfl, hne⟩ := someText?_eq_some_iff.mp hvalue
        have htext : text = text.takeWhile isAsciiBlank ++ skipBlanks text :=
          List.takeWhile_append_dropWhile.symm
        have hsign' := comparisonSign?_eq_some_iff.mp hsign
        rw [htext] at hsign'
        refine ⟨_, .comparison List.takeWhile_append_dropWhile.symm (fun c hc => ?_) hvariable hsign'
          (fun _ => List.mem_takeWhile_imp) (stops_dropWhile text) hne⟩
        simpa using List.mem_takeWhile_imp hc
    · cases h
  · rintro ⟨left, h⟩
    cases h with
    | @comparison front text gap value operator hclause hfront hvariable hsign hgap hstops hne =>
        have hfront' : ∀ c ∈ front, (! isComparisonChar c) = true := fun c hc => by
          rw [hfront c hc, Bool.not_false]
        have hskip : skipBlanks (gap ++ value) = value := dropWhile_append_of_stops hgap hstops
        simp only [readComparison?, hclause, takeWhile_append_of_stops hfront' hsign.stops,
          dropWhile_append_of_stops hfront' hsign.stops, comparisonSign?_eq_some_iff.mpr hsign]
        rw [if_pos hvariable, hskip, someText?_eq_some_iff.mpr ⟨rfl, hne⟩, Option.map_some]

end Ways

/-! ## The chosen shape -/

section Choice

variable {shape : Shape} {condition : Condition}

/-- A comparison can be taken apart in one way only. -/
theorem Decomposes.left_of_comparison {left : Text}
    (h : Decomposes clause .comparison left condition) :
    left = trimEnd (clause.takeWhile (! isComparisonChar ·)) := by
  cases h with
  | @comparison front text gap value operator hclause hfront _ hsign =>
      have hfront' : ∀ c ∈ front, (! isComparisonChar c) = true := fun c hc => by
        rw [hfront c hc, Bool.not_false]
      rw [hclause, takeWhile_append_of_stops hfront' hsign.stops]

/-- **The reader of a shape finds the way of the shape that counts.** -/
theorem read?_eq_some_iff (htrim : trim clause = clause) :
    shape.read? clause = some condition ↔ ∃ left, IsLongest clause shape left condition := by
  cases shape with
  | range =>
      exact map_readCut?_eq_some_iff (by decide) (fun _ _ => decomposes_range_iff) condition
  | list => exact map_readCut?_eq_some_iff (by decide) (fun _ _ => decomposes_list_iff) condition
  | containment =>
      exact map_readCut?_eq_some_iff (by decide) (fun _ _ => decomposes_containment_iff htrim)
        condition
  | equality =>
      exact map_readCut?_eq_some_iff (by decide) (fun _ _ => decomposes_equality_iff htrim) condition
  | comparison =>
      refine readComparison?_eq_some_iff.trans (exists_congr fun left => ⟨fun h => ⟨h, ?_⟩,
        IsLongest.decomposes⟩)
      intro other condition' hother
      rw [hother.left_of_comparison, h.left_of_comparison]

/-- The reader of a shape finds nothing in a clause that does not have the shape. -/
theorem read?_eq_none_iff (htrim : trim clause = clause) :
    shape.read? clause = none ↔ ∀ left condition, ¬ Decomposes clause shape left condition := by
  constructor
  · intro hnone left condition h
    obtain ⟨left, condition, hlongest⟩ := h.exists_isLongest
    rw [(read?_eq_some_iff htrim).mpr ⟨left, hlongest⟩] at hnone
    cases hnone
  · intro h
    rw [Option.eq_none_iff_forall_ne_some]
    intro condition hsome
    obtain ⟨left, hlongest⟩ := (read?_eq_some_iff htrim).mp hsome
    exact h left condition hlongest.decomposes

/-- What the shapes read, the first one first. -/
def readShapes? (clause : Text) : Option Condition :=
  (Shape.range.read? clause).or ((Shape.list.read? clause).or ((Shape.containment.read? clause).or
    ((Shape.equality.read? clause).or (Shape.comparison.read? clause))))

theorem readCondition_eq (clause : Text) :
    readCondition clause = match readShapes? clause with
      | some condition => .ok condition
      | none => .error (.unreadable .condition clause) := by
  simp only [readCondition, readShapes?, Option.orElse_eq_orElse, Option.orElse_eq_or]
  rfl

/-- **The first shape that reads a clause** is the one before which no shape does. -/
theorem readShapes?_eq_some_iff :
    readShapes? clause = some condition
      ↔ ∃ shape : Shape, shape.read? clause = some condition ∧
        ∀ earlier : Shape, earlier.rank < shape.rank → earlier.read? clause = none := by
  simp only [readShapes?, Option.or_eq_some_iff]
  constructor
  · rintro (h | ⟨hrange, h | ⟨hlist, h | ⟨hcontainment, h | ⟨hequality, h⟩⟩⟩⟩)
    · exact ⟨.range, h, fun _ hlt => absurd hlt (Nat.not_lt_zero _)⟩
    · refine ⟨.list, h, fun earlier hlt => ?_⟩
      cases earlier with
      | range => exact hrange
      | _ => exact absurd hlt (by decide)
    · refine ⟨.containment, h, fun earlier hlt => ?_⟩
      cases earlier with
      | range => exact hrange
      | list => exact hlist
      | _ => exact absurd hlt (by decide)
    · refine ⟨.equality, h, fun earlier hlt => ?_⟩
      cases earlier with
      | range => exact hrange
      | list => exact hlist
      | containment => exact hcontainment
      | _ => exact absurd hlt (by decide)
    · refine ⟨.comparison, h, fun earlier hlt => ?_⟩
      cases earlier with
      | range => exact hrange
      | list => exact hlist
      | containment => exact hcontainment
      | equality => exact hequality
      | comparison => exact absurd hlt (by decide)
  · rintro ⟨shape, h, hearlier⟩
    cases shape with
    | range => exact Or.inl h
    | list => exact Or.inr ⟨hearlier .range (by decide), Or.inl h⟩
    | containment =>
        exact Or.inr ⟨hearlier .range (by decide), Or.inr ⟨hearlier .list (by decide), Or.inl h⟩⟩
    | equality =>
        exact Or.inr ⟨hearlier .range (by decide), Or.inr ⟨hearlier .list (by decide),
          Or.inr ⟨hearlier .containment (by decide), Or.inl h⟩⟩⟩
    | comparison =>
        exact Or.inr ⟨hearlier .range (by decide), Or.inr ⟨hearlier .list (by decide),
          Or.inr ⟨hearlier .containment (by decide), Or.inr ⟨hearlier .equality (by decide), h⟩⟩⟩⟩

theorem readShapes?_eq_none_iff :
    readShapes? clause = none ↔ ∀ shape : Shape, shape.read? clause = none := by
  simp only [readShapes?, Option.or_eq_none_iff]
  constructor
  · rintro ⟨hrange, hlist, hcontainment, hequality, hcomparison⟩ shape
    cases shape with
    | range => exact hrange
    | list => exact hlist
    | containment => exact hcontainment
    | equality => exact hequality
    | comparison => exact hcomparison
  · intro h
    exact ⟨h .range, h .list, h .containment, h .equality, h .comparison⟩

/-- A condition that is read is read by one of the shapes. -/
theorem exists_read?_of_readCondition (h : readCondition clause = .ok condition) :
    ∃ shape : Shape, shape.read? clause = some condition := by
  rw [readCondition_eq] at h
  cases hread : readShapes? clause with
  | none =>
      rw [hread] at h
      cases h
  | some read =>
      rw [hread] at h
      obtain rfl := Except.ok.inj h
      obtain ⟨shape, hshape, -⟩ := readShapes?_eq_some_iff.mp hread
      exact ⟨shape, hshape⟩

/-- **The grammar of conditions.** A clause is read as the condition that is chosen, and there is an
error exactly if the clause has no shape at all. -/
theorem readCondition_iff (htrim : trim clause = clause) :
    (∀ condition, readCondition clause = .ok condition ↔ ∃ shape, IsChosen clause shape condition) ∧
      ∀ error, readCondition clause = .error error
        ↔ error = .unreadable .condition clause ∧
          ∀ shape left condition, ¬ Decomposes clause shape left condition := by
  have hchosen : ∀ condition, readShapes? clause = some condition
      ↔ ∃ shape, IsChosen clause shape condition := by
    intro condition
    rw [readShapes?_eq_some_iff]
    refine exists_congr fun shape => ⟨fun h => ?_, fun h => ?_⟩
    · exact ⟨(read?_eq_some_iff htrim).mp h.1,
        fun earlier hlt => (read?_eq_none_iff htrim).mp (h.2 earlier hlt)⟩
    · exact ⟨(read?_eq_some_iff htrim).mpr h.isLongest,
        fun earlier hlt => (read?_eq_none_iff htrim).mpr (h.isFirst earlier hlt)⟩
  have hnone : readShapes? clause = none
      ↔ ∀ shape left condition, ¬ Decomposes clause shape left condition := by
    rw [readShapes?_eq_none_iff]
    exact forall_congr' fun shape => read?_eq_none_iff htrim
  constructor
  · intro condition
    rw [readCondition_eq, ← hchosen]
    cases readShapes? clause <;> simp
  · intro error
    rw [readCondition_eq, ← hnone]
    cases readShapes? clause <;> simp [eq_comm]

/-- A clause that splits in two ways, of which the one with the longer variable counts. -/
theorem isChosen_kind :
    trim "kind is it is so".toList = "kind is it is so".toList ∧
      ∃ shape, IsChosen "kind is it is so".toList shape
        (.on "kind is it".toList .equals "so".toList) := by
  have htrim : trim "kind is it is so".toList = "kind is it is so".toList := by decide
  exact ⟨htrim, ((readCondition_iff htrim).1 _).mp (by decide)⟩

end Choice

end RuleTable
