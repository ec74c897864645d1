import Mathlib.Data.List.Forall2
import Mathlib.Data.Nat.Digits.Defs
import RuleTable.Proofs.Xml.References

/-!
# Which references are accepted

A reference gives a code point by the number that its digits write, and the number can be of any
size. **`RefersTo`** relates what stands between `&` and `;` to that number as it is, whether a
character has it or not. The digits are those of fixed rows, each at the place of its value, and
the number is their sum by place, so the relation knows nothing of 32 bits.

Decoding gives the character whose code point is the number. A number that is no code point makes
every text that holds the reference undecodable: nothing before it or behind it can take the
reference apart, since no reference reaches over an `&`.
-/

set_option autoImplicit false

namespace RuleTable

open Text

/-! ## Digits -/

/-- The decimal digits, each at the place of its value. -/
def decimalRows : List Text := ["0123456789".toList]

/-- The hexadecimal digits in lower and in upper case, each at the place of its value. -/
def hexRows : List Text := ["0123456789abcdef".toList, "0123456789ABCDEF".toList]

/-- **A digit has a value** if it stands at that place of a row. -/
def IsDigit (rows : List Text) (c : Char) (value : Nat) : Prop := ∃ row ∈ rows, row[value]? = some c

instance (rows : List Text) (c : Char) (value : Nat) : Decidable (IsDigit rows c value) :=
  inferInstanceAs (Decidable (∃ row ∈ rows, row[value]? = some c))

/-- **Digits write a number**: there is at least one, and the number is the sum of their values by
place, the first one standing highest. -/
def Writes (base : Nat) (rows : List Text) (digits : Text) (number : Nat) : Prop :=
  digits ≠ [] ∧ ∃ values, List.Forall₂ (IsDigit rows) digits values ∧
    Nat.ofDigits base values.reverse = number

/-- A reader of ASCII digits has the values of some rows if it reads every place of them as its
value and reads no other character. -/
theorem eq_some_iff_isDigit {rows : List Text} {digit? : Char → Option Nat}
    (hrows : ∀ row ∈ rows, ∀ value < row.length, row[value]?.bind digit? = some value)
    (hread : ∀ code < 128, ∀ value ∈ digit? (Char.ofNat code), IsDigit rows (Char.ofNat code) value)
    (hascii : ∀ c value, digit? c = some value → c.toNat < 128) {c : Char} {value : Nat} :
    digit? c = some value ↔ IsDigit rows c value := by
  constructor
  · intro h
    have hdigit := hread c.toNat (hascii c value h)
    rw [Char.ofNat_toNat] at hdigit
    exact hdigit value h
  · rintro ⟨row, hrow, hc⟩
    obtain ⟨hvalue, -⟩ := List.getElem?_eq_some_iff.mp hc
    have h := hrows row hrow value hvalue
    rwa [hc] at h

theorem toNat_lt_of_isDigit {c : Char} (h : c.isDigit = true) : c.toNat < 128 := by
  rw [Char.isDigit, Bool.and_eq_true, decide_eq_true_eq, decide_eq_true_eq] at h
  have hle : c.toNat ≤ 57 := h.2
  omega

theorem decimalDigit?_eq_some_iff {c : Char} {value : Nat} :
    decimalDigit? c = some value ↔ IsDigit decimalRows c value := by
  refine eq_some_iff_isDigit (by decide) (by decide) (fun c value h => ?_)
  rw [decimalDigit?] at h
  split at h
  · next hc => exact toNat_lt_of_isDigit hc
  · cases h

theorem hexDigit?_eq_some_iff {c : Char} {value : Nat} :
    hexDigit? c = some value ↔ IsDigit hexRows c value := by
  refine eq_some_iff_isDigit (by decide) (by decide) (fun c value h => ?_)
  rw [hexDigit?] at h
  split_ifs at h with hdigit hlower hupper
  · exact toNat_lt_of_isDigit hdigit
  · exact Nat.lt_of_le_of_lt hlower.2 (by decide)
  · exact Nat.lt_of_le_of_lt hupper.2 (by decide)

/-- Digits are read as the rows have them. -/
theorem writesNumber_iff {base : Nat} {digit? : Char → Option Nat} {rows : List Text}
    (h : ∀ {c : Char} {value : Nat}, digit? c = some value ↔ IsDigit rows c value) {digits : Text}
    {number : Nat} : WritesNumber base digit? digits number ↔ Writes base rows digits number := by
  simp only [WritesNumber, Writes, h]

/-! ## What stands between `&` and `;` -/

/-- **A reference to a code point**: a name, which has the code point of its character, or `#` and
decimal digits, or `#x` and hexadecimal ones. Digits may have a plus sign before them and may write
any number. -/
inductive RefersTo : Text → Nat → Prop
  | named {body : Text} {c : Char} (h : (body, c) ∈ namedReferences) : RefersTo body c.toNat
  | decimal {sign digits : Text} {code : Nat} (hs : IsSign sign)
      (hd : Writes 10 decimalRows digits code) : RefersTo ('#' :: (sign ++ digits)) code
  | hexadecimal {x : Char} {sign digits : Text} {code : Nat} (hx : x = 'x' ∨ x = 'X')
      (hs : IsSign sign) (hd : Writes 16 hexRows digits code) :
      RefersTo ('#' :: x :: (sign ++ digits)) code

/-- **A character is denoted by the references to its code point.** -/
theorem denotes_iff {body : Text} {c : Char} : Denotes body c ↔ RefersTo body c.toNat := by
  constructor
  · rintro (h | ⟨hs, hd⟩ | ⟨hx, hs, hd⟩)
    · exact .named h
    · exact .decimal hs ((writesNumber_iff decimalDigit?_eq_some_iff).mp hd)
    · exact .hexadecimal hx hs ((writesNumber_iff hexDigit?_eq_some_iff).mp hd)
  · generalize hcode : c.toNat = code
    rintro (h | ⟨hs, hd⟩ | ⟨hx, hs, hd⟩)
    · rw [Char.toNat_inj.mp hcode]
      exact .named h
    · subst hcode
      exact .decimal hs ((writesNumber_iff decimalDigit?_eq_some_iff).mpr hd)
    · subst hcode
      exact .hexadecimal hx hs ((writesNumber_iff hexDigit?_eq_some_iff).mpr hd)

/-- A number is written in one way at most by what follows a sign. -/
theorem Writes.unique {base : Nat} {rows : List Text} {digit? : Char → Option Nat}
    (hdigit : ∀ {c : Char} {value : Nat}, digit? c = some value ↔ IsDigit rows c value)
    (hplus : digit? '+' = none) {sign sign' digits digits' : Text} {number number' : Nat}
    (hs : IsSign sign) (hs' : IsSign sign') (h : Writes base rows digits number)
    (h' : Writes base rows digits' number') (heq : sign ++ digits = sign' ++ digits') :
    number = number' := by
  rw [← writesNumber_iff hdigit] at h h'
  -- A plus sign is no digit, so both texts have it or neither.
  have hne : ∀ {digits : Text} {number : Nat}, WritesNumber base digit? digits number →
      '+' ∉ digits := by
    intro digits number h hmem
    have hsome := h.isSome_of_mem hmem
    rw [hplus] at hsome
    cases hsome
  obtain rfl : digits = digits' := by
    rcases hs with rfl | rfl <;> rcases hs' with rfl | rfl
    · exact heq
    · obtain rfl : digits = '+' :: digits' := heq
      exact absurd List.mem_cons_self (hne h)
    · obtain rfl : '+' :: digits = digits' := heq
      exact absurd List.mem_cons_self (hne h')
    · exact (List.cons.inj heq).2
  exact Option.some.inj ((number?_eq_some_iff.mpr h).symm.trans (number?_eq_some_iff.mpr h'))

/-- A number sign starts no name. -/
theorem notMem_namedReferences (code : Text) (c : Char) : ('#' :: code, c) ∉ namedReferences := by
  simp [namedReferences]

/-- Decimal digits do not start as hexadecimal ones are announced. -/
theorem Writes.append_ne_cons {x : Char} {sign digits rest : Text} {number : Nat}
    (hx : x = 'x' ∨ x = 'X') (hs : IsSign sign) (h : Writes 10 decimalRows digits number) :
    sign ++ digits ≠ x :: rest := by
  intro heq
  rw [← writesNumber_iff decimalDigit?_eq_some_iff] at h
  have hmem : x ∈ sign ++ digits := heq ▸ List.mem_cons_self
  rcases hx with rfl | rfl <;> exact notMem_code (by decide) hs h hmem

/-- **A reference has one code point.** -/
theorem RefersTo.unique {body : Text} {code code' : Nat} (h : RefersTo body code)
    (h' : RefersTo body code') : code = code' := by
  cases h with
  | named h =>
      cases h' with
      | named h' =>
          rw [Option.some.inj ((referenced?_of_named h).symm.trans (referenced?_of_named h'))]
      | decimal => exact absurd h (notMem_namedReferences _ _)
      | hexadecimal => exact absurd h (notMem_namedReferences _ _)
  | @decimal sign digits code hs hd =>
      generalize hbody : '#' :: (sign ++ digits) = body at h'
      cases h' with
      | named h' => exact absurd (hbody ▸ h') (notMem_namedReferences _ _)
      | decimal hs' hd' =>
          exact hd.unique decimalDigit?_eq_some_iff (by decide) hs hs' hd' (List.cons.inj hbody).2
      | hexadecimal hx hs' hd' =>
          exact absurd (List.cons.inj hbody).2 (hd.append_ne_cons hx hs)
  | @hexadecimal x sign digits code hx hs hd =>
      generalize hbody : '#' :: x :: (sign ++ digits) = body at h'
      cases h' with
      | named h' => exact absurd (hbody ▸ h') (notMem_namedReferences _ _)
      | decimal hs' hd' =>
          exact absurd (List.cons.inj hbody).2.symm (hd'.append_ne_cons hx hs')
      | hexadecimal hx' hs' hd' =>
          exact hd.unique hexDigit?_eq_some_iff (by decide) hs hs' hd'
            (List.cons.inj (List.cons.inj hbody).2).2

/-- Neither the mark that opens a reference nor the one that closes it stands inside. -/
theorem RefersTo.notMem {body : Text} {code : Nat} {mark : Char} (hmark : mark = ';' ∨ mark = '&')
    (h : RefersTo body code) : mark ∉ body := by
  cases h with
  | named h =>
      have hnames : ∀ named ∈ namedReferences, ';' ∉ named.1 ∧ '&' ∉ named.1 := by decide
      rcases hmark with rfl | rfl
      · exact (hnames _ h).1
      · exact (hnames _ h).2
  | decimal hs hd =>
      rw [← writesNumber_iff decimalDigit?_eq_some_iff] at hd
      rcases hmark with rfl | rfl <;>
        exact List.not_mem_cons_of_ne_of_not_mem (by decide) (notMem_code (by decide) hs hd)
  | hexadecimal hx hs hd =>
      rw [← writesNumber_iff hexDigit?_eq_some_iff] at hd
      have hplain : mark ≠ '+' ∧ hexDigit? mark = none := by rcases hmark with rfl | rfl <;> decide
      have hcode := notMem_code hplain hs hd
      rcases hmark with rfl | rfl <;> rcases hx with rfl | rfl <;> simpa using hcode

/-- **A reference to no code point denotes nothing**: its number wraps round to no other one. -/
theorem RefersTo.not_denotes {body : Text} {code : Nat} (h : RefersTo body code)
    (hcode : ¬ code.isValidChar) (c : Char) : ¬ Denotes body c := by
  intro hc
  rw [h.unique (denotes_iff.mp hc)] at hcode
  exact hcode c.valid

/-! ## Texts with references -/

/-- **A text resolves to another**: characters other than `&` stay as they are, and each reference
is replaced by the character of its code point. -/
inductive Resolves : Text → Text → Prop
  | nil : Resolves [] []
  | plain {c : Char} {raw text : Text} (hc : c ≠ '&') (h : Resolves raw text) :
      Resolves (c :: raw) (c :: text)
  | reference {body raw text : Text} {c : Char} (hb : ';' ∉ body) (hr : RefersTo body c.toNat)
      (h : Resolves raw text) : Resolves ('&' :: (body ++ ';' :: raw)) (c :: text)

/-- A resolution goes through the symbols that write the text. -/
theorem resolves_iff {raw text : Text} :
    Resolves raw text ↔
      ∃ symbols, Symbol.writtenAll symbols = raw ∧ symbols.map Symbol.denoted = text := by
  constructor
  · intro h
    induction h with
    | nil => exact ⟨[], rfl, rfl⟩
    | @plain c raw text hc _ ih =>
        obtain ⟨symbols, rfl, rfl⟩ := ih
        exact ⟨.plain c hc :: symbols, rfl, rfl⟩
    | @reference body raw text c _ hr _ ih =>
        obtain ⟨symbols, rfl, rfl⟩ := ih
        refine ⟨.reference body c (denotes_iff.mpr hr) :: symbols, ?_, rfl⟩
        simp [Symbol.writtenAll, Symbol.written]
  · rintro ⟨symbols, rfl, rfl⟩
    induction symbols with
    | nil => exact .nil
    | cons s symbols ih =>
        cases s with
        | plain c hc => exact .plain hc ih
        | reference body c hd =>
            have h := Resolves.reference hd.not_mem (denotes_iff.mp hd) ih
            simpa [Symbol.writtenAll, Symbol.written, Symbol.denoted] using h

/-- **At an `&` symbols fall into those before it and those from it on.** -/
theorem Symbol.exists_append {symbols : List Symbol} {before after : Text}
    (h : Symbol.writtenAll symbols = before ++ '&' :: after) :
    ∃ front back, Symbol.writtenAll front = before ∧ Symbol.writtenAll back = '&' :: after := by
  induction symbols generalizing before with
  | nil => simp [Symbol.writtenAll] at h
  | cons s symbols ih =>
      cases before with
      | nil => exact ⟨[], s :: symbols, rfl, h⟩
      | cons b before =>
          cases s with
          | plain c hc =>
              obtain ⟨rfl, hrest⟩ := List.cons.inj h
              obtain ⟨front, back, rfl, hback⟩ := ih hrest
              exact ⟨.plain c hc :: front, back, rfl, hback⟩
          | reference body c hd =>
              obtain ⟨rfl, hrest⟩ := List.cons.inj h
              -- The `&` stands behind the whole reference.
              have hbody : ∀ d ∈ body ++ [';'], (d != '&') = true := by
                intro d hmem
                have hne := (denotes_iff.mp hd).notMem (.inr rfl)
                rcases List.mem_append.mp hmem with hmem | hmem
                · simpa using ne_of_mem_of_not_mem hmem hne
                · rw [List.mem_singleton.mp hmem]
                  decide
              obtain ⟨m, rfl, hm⟩ := exists_of_append_eq (p := (· != '&')) (by simp) hbody hrest.symm
              obtain ⟨front, back, rfl, hback⟩ := ih hm
              exact ⟨.reference body c hd :: front, back, rfl, hback⟩

/-- **A reference to no code point is refused** wherever it stands. -/
theorem RefersTo.decode_eq_none {body : Text} {code : Nat} (h : RefersTo body code)
    (hcode : ¬ code.isValidChar) (before after : Text) :
    decode (before ++ '&' :: (body ++ ';' :: after)) = none := by
  rw [Option.eq_none_iff_forall_ne_some]
  intro text htext
  obtain ⟨symbols, hsymbols, -⟩ := Symbol.decode_eq_some_iff.mp htext
  obtain ⟨-, back, -, hback⟩ := Symbol.exists_append hsymbols
  have hrest : decode ('&' :: (body ++ ';' :: after)) = some (back.map Symbol.denoted) := by
    rw [← hback, Symbol.decode_writtenAll]
  rw [decode, decodeFrom, if_pos rfl, Symbol.decodeFrom_body after (h.notMem (.inl rfl))] at hrest
  -- Nothing is denoted by the body, so nothing is read.
  cases hc : referenced? body with
  | none => simp [hc] at hrest
  | some c => exact h.not_denotes hcode c (referenced?_eq_some_iff.mp hc)

/-! ## Decoding -/

/-- **Decoding is resolving**, and no number that is not a code point is taken for one. -/
theorem decode_resolves_and_refuses :
    (∀ raw text, decode raw = some text ↔ Resolves raw text) ∧
      ∀ body code, RefersTo body code → ¬ code.isValidChar →
        ∀ before after, decode (before ++ '&' :: (body ++ ';' :: after)) = none := by
  constructor
  · intro raw text
    rw [Symbol.decode_eq_some_iff, resolves_iff]
  · intro body code h hcode before after
    exact h.decode_eq_none hcode before after

/-- Beyond 32 bits: of this number the lower 32 bits are those of the letter A. -/
theorem decode_wrappedLetter :
    RefersTo "#4294967361".toList 4294967361 ∧ ¬ Nat.isValidChar 4294967361 ∧
      decode ("x".toList ++ '&' :: ("#4294967361".toList ++ ';' :: "y".toList)) = none := by
  have hwrites : Writes 10 decimalRows "4294967361".toList 4294967361 :=
    ⟨by decide, [4, 2, 9, 4, 9, 6, 7, 3, 6, 1], by decide, by decide⟩
  have hrefers : RefersTo "#4294967361".toList 4294967361 :=
    @RefersTo.decimal [] _ _ (.inl rfl) hwrites
  have hcode : ¬ Nat.isValidChar 4294967361 := by decide
  exact ⟨hrefers, hcode, decode_resolves_and_refuses.2 _ _ hrefers hcode _ _⟩

example : decode "&#x+000000000000000041;".toList = some "A".toList := by decide

end RuleTable
