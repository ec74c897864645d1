import Mathlib.Data.List.Forall2
import Mathlib.Data.Nat.Digits.Defs
import RuleTable.Proofs.Text.Runs
import RuleTable.Proofs.Xml.Escaping

/-!
# What references denote

A reference denotes a character by a name or by the digits of its code point. **`Denotes`** says
this of what stands between `&` and `;`, and a text with references is a list of **symbols**, each
a character as it stands or a reference. Decoding accepts a text exactly when there are symbols
that write it. There is only one list of them, and the decoded text is what they denote.
-/

set_option autoImplicit false

namespace RuleTable

open Text

/-! ## Numbers -/

/-- **Digits write a number in a base**: there is at least one, and their values are the digits of
the number, the first one standing highest. -/
def WritesNumber (base : Nat) (digit? : Char → Option Nat) (digits : Text) (number : Nat) : Prop :=
  digits ≠ [] ∧ ∃ values, List.Forall₂ (fun c value => digit? c = some value) digits values ∧
    Nat.ofDigits base values.reverse = number

variable {base : Nat} {digit? : Char → Option Nat}

/-- The digits that were read stand in front of all further ones. -/
theorem numberFrom?_eq_some_iff {number : Nat} {digits : Text} : ∀ {before : List Nat},
    numberFrom? base digit? (Nat.ofDigits base before.reverse) digits = some number ↔
      ∃ values, List.Forall₂ (fun c value => digit? c = some value) digits values ∧
        Nat.ofDigits base (before ++ values).reverse = number := by
  induction digits with
  | nil =>
      intro before
      simp [numberFrom?]
  | cons c digits ih =>
      intro before
      have hstep : ∀ value, Nat.ofDigits base before.reverse * base + value
          = Nat.ofDigits base (before ++ [value]).reverse := by
        intro value
        rw [List.reverse_append, List.reverse_singleton, List.singleton_append, Nat.ofDigits_cons,
          Nat.mul_comm, Nat.add_comm]
      rw [numberFrom?]
      cases hc : digit? c with
      | none =>
          simp only [reduceCtorEq, false_iff, not_exists, not_and]
          rintro values (_ | ⟨hvalue, -⟩)
          simp [hc] at hvalue
      | some value =>
          simp only [hstep, ih]
          constructor
          · rintro ⟨values, hall, hnumber⟩
            refine ⟨value :: values, .cons hc hall, ?_⟩
            rwa [List.append_assoc, List.singleton_append] at hnumber
          · rintro ⟨_, _ | ⟨hvalue, hall⟩, hnumber⟩
            obtain rfl := Option.some.inj (hc.symm.trans hvalue)
            refine ⟨_, hall, ?_⟩
            rwa [List.append_assoc, List.singleton_append]

/-- **A number is read exactly from the digits that write it.** -/
theorem number?_eq_some_iff {digits : Text} {number : Nat} :
    number? base digit? digits = some number ↔ WritesNumber base digit? digits number := by
  have h := @numberFrom?_eq_some_iff base digit? number digits []
  cases digits with
  | nil => simp [number?, WritesNumber]
  | cons c digits =>
      rw [WritesNumber, and_iff_right (List.cons_ne_nil c digits)]
      exact h

/-- Further digits make no number smaller. -/
theorem le_of_numberFrom? (hbase : 0 < base) {digits : Text} {value number : Nat}
    (h : numberFrom? base digit? value digits = some number) : value ≤ number := by
  induction digits generalizing value with
  | nil => exact Nat.le_of_eq (Option.some.inj h)
  | cons c digits ih =>
      rw [numberFrom?] at h
      split at h
      · have hvalue : value ≤ value * base := Nat.le_mul_of_pos_right value hbase
        exact hvalue.trans ((Nat.le_add_right _ _).trans (ih h))
      · cases h

/-! ## Words of 32 bits -/

theorem wordOf?_eq_some_iff {number : Nat} {word : UInt32} :
    wordOf? number = some word ↔ word.toNat = number := by
  rw [wordOf?]
  constructor
  · intro h
    split at h
    · next hfits => rw [← Option.some.inj h, UInt32.toNat_ofNat_of_lt' hfits]
    · cases h
  · rintro rfl
    rw [if_pos word.toNat_lt_size, UInt32.ofNat_toNat]

/-- A product that leaves 32 bits takes the sum along. -/
theorem pushDigit?_eq_some_iff {word next : UInt32} {digit : Nat} :
    pushDigit? base word digit = some next ↔ next.toNat = word.toNat * base + digit := by
  rw [pushDigit?, Option.bind_eq_some_iff]
  constructor
  · rintro ⟨product, hproduct, hnext⟩
    rw [wordOf?_eq_some_iff.mp hnext, wordOf?_eq_some_iff.mp hproduct]
  · intro h
    have hlt : word.toNat * base < UInt32.size :=
      Nat.lt_of_le_of_lt (Nat.le_add_right _ digit) (h ▸ next.toNat_lt_size)
    refine ⟨UInt32.ofNat (word.toNat * base), if_pos hlt, ?_⟩
    rw [wordOf?_eq_some_iff, h, UInt32.toNat_ofNat_of_lt' hlt]

/-- **A word is read exactly where its number is**: a step that leaves 32 bits cannot lead back. -/
theorem wordFrom?_eq_some_iff (hbase : 0 < base) {digits : Text} {word result : UInt32} :
    wordFrom? base digit? word digits = some result ↔
      numberFrom? base digit? word.toNat digits = some result.toNat := by
  induction digits generalizing word with
  | nil => simp [wordFrom?, numberFrom?, UInt32.toNat_inj]
  | cons c digits ih =>
      rw [wordFrom?, numberFrom?]
      cases digit? c with
      | none => simp
      | some digit =>
          simp only [Option.bind_some]
          cases hnext : pushDigit? base word digit with
          | some next => rw [← pushDigit?_eq_some_iff.mp hnext, ← ih]
          | none =>
              constructor
              · intro h
                cases h
              · intro h
                have hlt := Nat.lt_of_le_of_lt (le_of_numberFrom? hbase h) result.toNat_lt_size
                have hsome := pushDigit?_eq_some_iff.mpr (UInt32.toNat_ofNat_of_lt' hlt)
                cases hnext.symm.trans hsome

/-- **A word is read exactly from the digits that write its number.** -/
theorem word?_eq_some_iff (hbase : 0 < base) {digits : Text} {word : UInt32} :
    word? base digit? digits = some word ↔ WritesNumber base digit? digits word.toNat := by
  rw [← number?_eq_some_iff, word?, number?]
  split
  · simp
  · exact wordFrom?_eq_some_iff hbase

/-! ## Codes -/

theorem WritesNumber.isSome_of_mem {digits : Text} {number : Nat} {c : Char}
    (h : WritesNumber base digit? digits number) (hc : c ∈ digits) : (digit? c).isSome := by
  obtain ⟨-, values, hall, -⟩ := h
  induction hall with
  | nil => cases hc
  | cons hvalue _ ih =>
      rcases List.mem_cons.mp hc with rfl | hc
      · rw [hvalue]
        rfl
      · exact ih hc

/-- A plus sign may stand before the digits of a code. -/
def IsSign (sign : Text) : Prop := sign = [] ∨ sign = ['+']

theorem eq_or_isSome_of_mem {sign digits : Text} {number : Nat} {c : Char} (hs : IsSign sign)
    (hd : WritesNumber base digit? digits number) (hc : c ∈ sign ++ digits) :
    c = '+' ∨ (digit? c).isSome := by
  rcases hs with rfl | rfl
  · exact .inr (hd.isSome_of_mem hc)
  · rcases List.mem_cons.mp hc with rfl | hc
    · exact .inl rfl
    · exact .inr (hd.isSome_of_mem hc)

/-- A mark that is neither a plus sign nor a digit stands in no code. -/
theorem notMem_code {mark : Char} {sign digits : Text} {number : Nat}
    (hmark : mark ≠ '+' ∧ digit? mark = none) (hs : IsSign sign)
    (hd : WritesNumber base digit? digits number) : mark ∉ sign ++ digits := by
  intro hmem
  rcases eq_or_isSome_of_mem hs hd hmem with h | h
  · exact hmark.1 h
  · rw [hmark.2] at h
    cases h

theorem codeWord?_eq_some_iff {text : Text} {word : UInt32} (hbase : 0 < base)
    (hplus : digit? '+' = none) :
    codeWord? base digit? text = some word ↔
      ∃ sign digits, IsSign sign ∧ sign ++ digits = text ∧
        WritesNumber base digit? digits word.toNat := by
  rw [codeWord?.eq_def]
  split
  · next digits =>
      rw [word?_eq_some_iff hbase]
      constructor
      · intro h
        exact ⟨['+'], digits, .inr rfl, rfl, h⟩
      · rintro ⟨sign, digits', rfl | rfl, ht, h⟩
        · -- Without a sign the plus would have to be a digit.
          obtain rfl : digits' = '+' :: digits := ht
          have hsome := h.isSome_of_mem List.mem_cons_self
          simp [hplus] at hsome
        · obtain rfl : digits' = digits := (List.cons.inj ht).2
          exact h
  · next hne =>
      rw [word?_eq_some_iff hbase]
      constructor
      · intro h
        exact ⟨[], text, .inl rfl, rfl, h⟩
      · rintro ⟨sign, digits, rfl | rfl, rfl, h⟩
        · exact h
        · exact absurd rfl (hne digits)

/-- A word is the code point of a character or of none. -/
theorem charOfCode?_eq_some_iff {code : UInt32} {c : Char} :
    charOfCode? code = some c ↔ c.val = code := by
  rw [charOfCode?]
  constructor
  · intro h
    split at h
    · rw [← Option.some.inj h]
    · cases h
  · rintro rfl
    exact dif_pos c.valid

/-! ## References -/

/-- The references by name, and their characters. -/
def namedReferences : List (Text × Char) :=
  [("amp".toList, '&'), ("lt".toList, '<'), ("gt".toList, '>'), ("quot".toList, '"'),
    ("apos".toList, '\'')]

/-- **What stands between `&` and `;` denotes a character**: by its name, or by its code point in
decimal or in hexadecimal. -/
inductive Denotes : Text → Char → Prop
  | named {body : Text} {c : Char} (h : (body, c) ∈ namedReferences) : Denotes body c
  | decimal {sign digits : Text} {c : Char} (hs : IsSign sign)
      (hd : WritesNumber 10 decimalDigit? digits c.toNat) : Denotes ('#' :: (sign ++ digits)) c
  | hexadecimal {x : Char} {sign digits : Text} {c : Char} (hx : x = 'x' ∨ x = 'X')
      (hs : IsSign sign) (hd : WritesNumber 16 hexDigit? digits c.toNat) :
      Denotes ('#' :: x :: (sign ++ digits)) c

/-- The character of a code that is written out. -/
theorem bind_charOfCode?_eq_some_iff {text : Text} {c : Char} (hbase : 0 < base)
    (hplus : digit? '+' = none) :
    (codeWord? base digit? text).bind charOfCode? = some c ↔
      ∃ sign digits, IsSign sign ∧ sign ++ digits = text ∧
        WritesNumber base digit? digits c.toNat := by
  rw [Option.bind_eq_some_iff]
  constructor
  · rintro ⟨code, hcode, hc⟩
    obtain rfl := charOfCode?_eq_some_iff.mp hc
    exact (codeWord?_eq_some_iff hbase hplus).mp hcode
  · intro h
    exact ⟨c.val, (codeWord?_eq_some_iff hbase hplus).mpr h, charOfCode?_eq_some_iff.mpr rfl⟩

theorem referenced?_of_named {body : Text} {c : Char} (h : (body, c) ∈ namedReferences) :
    referenced? body = some c := by
  simp only [namedReferences, List.mem_cons, List.not_mem_nil, or_false, Prod.mk.injEq] at h
  rcases h with ⟨rfl, rfl⟩ | ⟨rfl, rfl⟩ | ⟨rfl, rfl⟩ | ⟨rfl, rfl⟩ | ⟨rfl, rfl⟩ <;> decide

/-- A number sign starts no name. -/
theorem referenced?_code (code : Text) :
    referenced? ('#' :: code)
      = match code with
        | 'x' :: digits => (codeWord? 16 hexDigit? digits).bind charOfCode?
        | 'X' :: digits => (codeWord? 16 hexDigit? digits).bind charOfCode?
        | digits => (codeWord? 10 decimalDigit? digits).bind charOfCode? := by
  have hne : ∀ {name : Text}, name.head? ≠ some '#' → '#' :: code ≠ name :=
    fun hn h => hn (h ▸ rfl)
  unfold referenced?
  rw [if_neg (hne (by decide)), if_neg (hne (by decide)), if_neg (hne (by decide)),
    if_neg (hne (by decide)), if_neg (hne (by decide))]
  split
  · next h =>
      obtain rfl := (List.cons.inj h).2
      rfl
  · next h =>
      obtain rfl := (List.cons.inj h).2
      rfl
  · next hx hX h =>
      obtain rfl := (List.cons.inj h).2
      split
      · next digits => exact (hx digits rfl).elim
      · next digits => exact (hX digits rfl).elim
      · rfl
  · next h => exact (h code rfl).elim

/-- **A reference is resolved exactly to what it denotes.** -/
theorem referenced?_eq_some_iff {body : Text} {c : Char} :
    referenced? body = some c ↔ Denotes body c := by
  constructor
  · intro h
    unfold referenced? at h
    split_ifs at h with hamp hlt hgt hquot hapos
    · exact .named (by simp [namedReferences, hamp, ← Option.some.inj h])
    · exact .named (by simp [namedReferences, hlt, ← Option.some.inj h])
    · exact .named (by simp [namedReferences, hgt, ← Option.some.inj h])
    · exact .named (by simp [namedReferences, hquot, ← Option.some.inj h])
    · exact .named (by simp [namedReferences, hapos, ← Option.some.inj h])
    · split at h
      · obtain ⟨sign, digits, hs, rfl, hd⟩ := (bind_charOfCode?_eq_some_iff (by decide) (by decide)).mp h
        exact .hexadecimal (.inl rfl) hs hd
      · obtain ⟨sign, digits, hs, rfl, hd⟩ := (bind_charOfCode?_eq_some_iff (by decide) (by decide)).mp h
        exact .hexadecimal (.inr rfl) hs hd
      · obtain ⟨sign, digits, hs, rfl, hd⟩ := (bind_charOfCode?_eq_some_iff (by decide) (by decide)).mp h
        exact .decimal hs hd
      · cases h
  · rintro (h | ⟨hs, hd⟩ | ⟨rfl | rfl, hs, hd⟩)
    · exact referenced?_of_named h
    · rw [referenced?_code]
      -- The letters that announce hexadecimal digits are neither a sign nor a decimal digit.
      split
      · next hcode => exact absurd (eq_or_isSome_of_mem hs hd (hcode ▸ List.mem_cons_self)) (by decide)
      · next hcode => exact absurd (eq_or_isSome_of_mem hs hd (hcode ▸ List.mem_cons_self)) (by decide)
      · exact (bind_charOfCode?_eq_some_iff (by decide) (by decide)).mpr ⟨_, _, hs, rfl, hd⟩
    · rw [referenced?_code]
      exact (bind_charOfCode?_eq_some_iff (by decide) (by decide)).mpr ⟨_, _, hs, rfl, hd⟩
    · rw [referenced?_code]
      exact (bind_charOfCode?_eq_some_iff (by decide) (by decide)).mpr ⟨_, _, hs, rfl, hd⟩

/-- No reference reaches over the semicolon that closes it. -/
theorem Denotes.not_mem {body : Text} {c : Char} (h : Denotes body c) : ';' ∉ body := by
  cases h with
  | named h =>
      have hnames : ∀ named ∈ namedReferences, ';' ∉ named.1 := by decide
      exact hnames _ h
  | decimal hs hd =>
      exact List.not_mem_cons_of_ne_of_not_mem (by decide) (notMem_code (by decide) hs hd)
  | hexadecimal hx hs hd =>
      have hcode : ';' ∉ _ := notMem_code (by decide) hs hd
      rcases hx with rfl | rfl <;> simpa using hcode

/-! ## Symbols -/

/-- **A symbol**: a character as it stands, or a reference. -/
inductive Symbol
  | plain (c : Char) (h : c ≠ '&')
  | reference (body : Text) (c : Char) (h : Denotes body c)

namespace Symbol

/-- How a symbol is written. -/
def written : Symbol → Text
  | plain c _ => [c]
  | reference body _ _ => '&' :: (body ++ [';'])

/-- The character that a symbol stands for. -/
def denoted : Symbol → Char
  | plain c _ => c
  | reference _ c _ => c

/-- How symbols are written, one after the other. -/
def writtenAll (symbols : List Symbol) : Text := symbols.flatMap written

/-- A text falls in one way into a symbol and what follows it. -/
theorem append_inj {s s' : Symbol} {rest later : Text}
    (h : s.written ++ rest = s'.written ++ later) : s = s' ∧ rest = later := by
  cases s with
  | plain c hc =>
      cases s' with
      | plain c' hc' =>
          obtain ⟨rfl, rfl⟩ := List.cons.inj h
          exact ⟨rfl, rfl⟩
      | reference body c' h' => exact absurd (List.cons.inj h).1 hc
  | reference body c hb =>
      cases s' with
      | plain c' hc' => exact absurd (List.cons.inj h).1.symm hc'
      | reference body' c' hb' =>
          -- Both bodies reach up to the first semicolon.
          have hrun : ∀ {body : Text} {c : Char}, Denotes body c →
              ∀ d ∈ body, (d != ';') = true := by
            intro body c hb d hd
            simpa using ne_of_mem_of_not_mem hd hb.not_mem
          have htail : body ++ [';'] ++ rest = body' ++ [';'] ++ later := (List.cons.inj h).2
          rw [List.append_assoc, List.append_assoc] at htail
          obtain ⟨hbody, hrest⟩ := Run.append_inj (r := ⟨body, hrun hb⟩)
            (s := ⟨body', hrun hb'⟩) (by simp) (by simp) htail
          obtain rfl : body = body' := congrArg Run.text hbody
          obtain rfl : c = c' := Option.some.inj <|
            (referenced?_eq_some_iff.mpr hb).symm.trans (referenced?_eq_some_iff.mpr hb')
          exact ⟨rfl, (List.cons.inj hrest).2⟩

/-- **A text is written by one list of symbols at most.** -/
theorem writtenAll_injective : Function.Injective writtenAll := by
  intro symbols
  induction symbols with
  | nil =>
      intro others h
      cases others with
      | nil => rfl
      | cons s others => cases s <;> simp [writtenAll, written] at h
  | cons s symbols ih =>
      intro others h
      cases others with
      | nil => cases s <;> simp [writtenAll, written] at h
      | cons s' others =>
          obtain ⟨rfl, hrest⟩ := append_inj h
          rw [ih hrest]

/-! ## Decoding -/

theorem decodeFrom_body {body : Text} (rest : Text) (hb : ';' ∉ body) : ∀ {opened : Text},
    decodeFrom (some opened) (body ++ ';' :: rest)
      = match referenced? (opened.reverse ++ body) with
        | some c => (decode rest).map (c :: ·)
        | none => none := by
  induction body with
  | nil =>
      intro opened
      rw [List.nil_append, decodeFrom, if_pos rfl, List.append_nil]
      rfl
  | cons c body ih =>
      intro opened
      simp only [List.mem_cons, not_or] at hb
      rw [List.cons_append, decodeFrom, if_neg (Ne.symm hb.1), ih hb.2, List.reverse_cons,
        List.append_assoc, List.singleton_append]

/-- A symbol in front of a text adds its character. -/
theorem decode_written_append (s : Symbol) (rest : Text) :
    decode (s.written ++ rest) = (decode rest).map (s.denoted :: ·) := by
  cases s with
  | plain c hc =>
      show decodeFrom none (c :: rest) = _
      rw [decodeFrom, if_neg hc]
      rfl
  | reference body c hb =>
      show decodeFrom none ('&' :: (body ++ [';'] ++ rest)) = _
      rw [decodeFrom, if_pos rfl, List.append_assoc, List.singleton_append,
        decodeFrom_body rest hb.not_mem]
      simp only [List.reverse_nil, List.nil_append, referenced?_eq_some_iff.mpr hb]
      rfl

/-- **Symbols decode to what they denote.** -/
theorem decode_writtenAll (symbols : List Symbol) :
    decode (writtenAll symbols) = some (symbols.map denoted) := by
  induction symbols with
  | nil => rfl
  | cons s symbols ih =>
      show decode (s.written ++ writtenAll symbols) = _
      rw [decode_written_append, ih]
      rfl

/-- What decodes consists of symbols; if a reference is open, after what closes it. -/
theorem exists_of_decodeFrom {raw text : Text} :
    (decodeFrom none raw = some text →
      ∃ symbols, writtenAll symbols = raw ∧ symbols.map denoted = text) ∧
    ∀ {opened : Text}, decodeFrom (some opened) raw = some text →
      ∃ body c symbols, Denotes (opened.reverse ++ body) c ∧
        body ++ ';' :: writtenAll symbols = raw ∧ c :: symbols.map denoted = text := by
  -- Both states at once, since a reference opens and closes on the way.
  induction raw generalizing text with
  | nil =>
      constructor
      · intro h
        exact ⟨[], rfl, Option.some.inj h⟩
      · intro opened h
        cases h
  | cons c raw ih =>
      constructor
      · intro h
        rw [decodeFrom] at h
        split at h
        · next hc =>
            obtain ⟨body, d, symbols, hd, rfl, rfl⟩ := ih.2 h
            refine ⟨reference body d hd :: symbols, ?_, rfl⟩
            simp [writtenAll, written, hc]
        · next hc =>
            obtain ⟨later, hlater, rfl⟩ := Option.map_eq_some_iff.mp h
            obtain ⟨symbols, rfl, rfl⟩ := ih.1 hlater
            exact ⟨plain c hc :: symbols, rfl, rfl⟩
      · intro opened h
        rw [decodeFrom] at h
        split at h
        · next hc =>
            split at h
            · next d hd =>
                obtain ⟨later, hlater, rfl⟩ := Option.map_eq_some_iff.mp h
                obtain ⟨symbols, rfl, rfl⟩ := ih.1 hlater
                refine ⟨[], d, symbols, ?_, by rw [hc]; rfl, rfl⟩
                rw [List.append_nil]
                exact referenced?_eq_some_iff.mp hd
            · cases h
        · obtain ⟨body, d, symbols, hd, rfl, rfl⟩ := ih.2 h
          refine ⟨c :: body, d, symbols, ?_, rfl, rfl⟩
          rwa [List.reverse_cons, List.append_assoc, List.singleton_append] at hd

/-- **A text is decoded exactly when symbols write it**, and to what they denote. -/
theorem decode_eq_some_iff {raw text : Text} :
    decode raw = some text ↔ ∃ symbols, writtenAll symbols = raw ∧ symbols.map denoted = text := by
  constructor
  · exact exists_of_decodeFrom.1
  · rintro ⟨symbols, rfl, rfl⟩
    exact decode_writtenAll symbols

end Symbol

end RuleTable
