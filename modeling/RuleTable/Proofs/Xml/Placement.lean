import RuleTable.Proofs.Xml.References
import RuleTable.Proofs.Xml.Written

/-!
# Where an escaped text can stand

A text is **inert** in markup if markup finds nothing of its own in it: no bracket, no quote, and
no `&` but those of references by name. An inert text that stands between two quotes is one value,
and one that stands between two tags is one run of character data, whatever follows. The text that
is read there is the one that the inert text decodes to. Escaping makes every text inert, and it
does so character by character.
-/

set_option autoImplicit false

namespace RuleTable

open Text Markup Xml

/-! ## Inert texts -/

/-- **A text stands for another and is inert.** It decodes to the other, holds no bracket and no
quote, and each `&` in it starts a reference by name. -/
structure IsInert (written text : Text) : Prop where
  decodes : decode written = some text
  holdsNone : ∀ mark ∈ ['<', '>', '"', '\''], mark ∉ written
  startsReference : ∀ before after, written = before ++ '&' :: after →
    ∃ named ∈ namedReferences, named.1 ++ [';'] <+: after

/-- A reserved character is written as its reference by name. -/
theorem exists_nameReference_eq {c : Char} (h : isReserved c = true) :
    ∃ named ∈ namedReferences, '&' ∉ named.1 ∧ nameReference c = '&' :: (named.1 ++ [';']) := by
  rcases isReserved_iff.mp h with rfl | rfl | rfl | rfl | rfl <;> decide

/-- The `&` in a character that is written is the first of a reference by name. -/
theorem startsReference_escapeChar {c : Char} {before after : Text}
    (h : escapeChar c = before ++ '&' :: after) :
    before = [] ∧ ∃ named ∈ namedReferences, after = named.1 ++ [';'] := by
  rw [escapeChar] at h
  split at h
  · next hc =>
      obtain ⟨named, hnamed, hamp, heq⟩ := exists_nameReference_eq hc
      rw [heq] at h
      cases before with
      | nil => exact ⟨rfl, named, hnamed, (List.cons.inj h).2.symm⟩
      | cons b before =>
          have hmem : '&' ∈ named.1 ++ [';'] := by
            rw [(List.cons.inj h).2]
            simp
          exact absurd hmem (by simpa using hamp)
  · next hc =>
      have hmem : '&' ∈ [c] := by
        rw [h]
        simp
      exact absurd (isReserved_iff.mpr (.inl (List.mem_singleton.mp hmem).symm)) hc

theorem startsReference_writeEscaped {text before after : Text}
    (h : writeEscaped text = before ++ '&' :: after) :
    ∃ named ∈ namedReferences, named.1 ++ [';'] <+: after := by
  induction text generalizing before with
  | nil => simp [writeEscaped, writeEscapedFrom] at h
  | cons c text ih =>
      rw [writeEscaped_cons, List.append_eq_append_iff] at h
      rcases h with ⟨m, rfl, hm⟩ | ⟨m, hc, hm⟩
      · exact ih hm
      · cases m with
        | nil =>
            have hrest : writeEscaped text = [] ++ '&' :: after := hm.symm
            exact ih hrest
        | cons d m =>
            obtain ⟨rfl, rfl⟩ := List.cons.inj hm
            obtain ⟨-, named, hnamed, rfl⟩ := startsReference_escapeChar hc
            exact ⟨named, hnamed, List.prefix_append _ _⟩

/-- **What is written for markup is inert.** -/
theorem isInert_writeEscaped (text : Text) : IsInert (writeEscaped text) text where
  decodes := decode_writeEscaped text
  holdsNone := by
    intro mark hmark hmem
    obtain ⟨hlt, hgt, hdouble, hsingle⟩ := ne_of_mem_writeEscaped hmem
    simp only [List.mem_cons, List.not_mem_nil, or_false] at hmark
    rcases hmark with rfl | rfl | rfl | rfl
    · exact hlt rfl
    · exact hgt rfl
    · exact hdouble rfl
    · exact hsingle rfl
  startsReference _ _ := startsReference_writeEscaped

/-! ## Between quotes and between tags -/

/-- **A text is one value** if between two quotes it is read as a value, up to the second one. -/
def IsOneValue (written value : Text) : Prop :=
  ∀ quote, quote = '"' ∨ quote = '\'' → ∀ rest,
    readValue (quote :: (written ++ quote :: rest)) = .ok (value, rest)

/-- **A text is one run** if it is read as one piece of character data up to the next tag, and if
an element with nothing else between its tags has this data and no children. The empty text is no
piece, but it is the data of an element all the same. -/
structure IsOneRun (written data : Text) : Prop where
  piece : written ≠ [] → ∀ rest,
    contentOf (written ++ '<' :: rest) = (contentOf ('<' :: rest)).map (consPiece (.data data))
  element : ∀ name texts attributes rest, IsName name → Fields texts attributes →
    readElement name (texts.flatten ++ '>' :: (written ++ (endTag name ++ rest)))
      = .ok (.mk name attributes data [], rest)

namespace IsInert

variable {written text : Text}

theorem isOneValue (h : IsInert written text) : IsOneValue written text := by
  intro quote hquote rest
  refine readValue_append hquote (fun c hc => ⟨?_, ?_⟩) h.decodes rest
  · rcases hquote with rfl | rfl
    · exact ne_of_mem_of_not_mem hc (h.holdsNone _ (by decide))
    · exact ne_of_mem_of_not_mem hc (h.holdsNone _ (by decide))
  · exact ne_of_mem_of_not_mem hc (h.holdsNone _ (by decide))

theorem isOneRun (h : IsInert written text) : IsOneRun written text where
  piece hne rest := by
    have hall : ∀ d ∈ written, (d != '<') = true := by
      intro d hd
      simpa using ne_of_mem_of_not_mem hd (h.holdsNone '<' (by decide))
    have hstops : Stops (· != '<') ('<' :: rest) := by simp
    obtain ⟨c, inner, rfl⟩ := List.exists_cons_of_ne_nil hne
    have hc : c ≠ '<' := by simpa using hall c List.mem_cons_self
    have hinner : ∀ d ∈ inner, (d != '<') = true := fun d hd => hall d (List.mem_cons_of_mem c hd)
    have hrun : (c :: (inner ++ '<' :: rest)).takeWhile (· != '<') = c :: inner :=
      takeWhile_append_of_stops hall hstops
    rw [List.cons_append, contentOf_data _ hc, hrun, h.decodes,
      dropWhile_append_of_stops hinner hstops]
  element name texts attributes rest hn hf := by
    have hlt : '<' ∉ written := h.holdsNone _ (by decide)
    have hcontent : IsContent written text [] := by
      intro following later rest' more hr
      exact hr.data hlt h.decodes
    exact IsContent.readElement_eq rest hn hf hcontent

end IsInert

/-! ## Escaping -/

/-- **Escaping makes every text inert**, goes through a text piece by piece, and comes to the same
whether or not there is anything to write by a reference. So an escaped text is one value between
quotes, and one run between tags. -/
theorem escape_isInert_and_append :
    (∀ text, IsInert (escape text) text) ∧
      (∀ a b, escape (a ++ b) = escape a ++ escape b) ∧
      (∀ text, escape text = writeEscaped text) ∧
      ∀ text, IsOneValue (escape text) text ∧ IsOneRun (escape text) text := by
  refine ⟨fun text => ?_, fun a b => ?_, escape_eq, fun text => ?_⟩
  · rw [escape_eq]
    exact isInert_writeEscaped text
  · rw [escape_eq, escape_eq, escape_eq, writeEscaped_append]
  · rw [escape_eq]
    exact ⟨(isInert_writeEscaped text).isOneValue, (isInert_writeEscaped text).isOneRun⟩

example : escape "&amp; < 5".toList = "&amp;amp; &lt; 5".toList := by decide

end RuleTable
