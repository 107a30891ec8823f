import CelTyping.Document.Json.Meaning
import CelTyping.Document.Json.Writing
import Mathlib.Data.List.Basic
import Mathlib.Data.Nat.Digits.Defs

/-!
# Documents read back from JSON

A document that is written as JSON and read again is the same document, as long as its numbers are
integers of 64 bits and it is not nested too deep.  Integers keep their digits, and every character
of a text is written so that it reads back.  What fails is depth: a text in which lists and fields
are nested more than 127 deep is refused, although it is written without complaint.

Reading goes in two steps, and so does the proof.

* `readTerm_compact`: what is written is read as one term (`termOf`), up to what follows it.
* `toDocument?_termOf`: this term stands for the document, if the document is not nested too deep,
  and for nothing otherwise.
* `parse_compact` is both together.
-/

namespace CelTyping

/-! ## Documents -/

namespace Document

/-- A document whose numbers are integers of 64 bits, signed or unsigned. -/
inductive Integral : Document → Prop
  | null : Integral .null
  | bool (value : Bool) : Integral (.bool value)
  | int {value : Int} : -2 ^ 63 ≤ value → value < 2 ^ 64 → Integral (.int value)
  | text (value : String) : Integral (.text value)
  | list {items : List Document} : (∀ d ∈ items, Integral d) → Integral (.list items)
  | fields {entries : List (String × Document)} :
    (∀ e ∈ entries, Integral e.2) → Integral (.fields entries)

attribute [simp] Integral.null Integral.bool Integral.text

mutual

/-- How deep lists and fields are nested in a document. -/
def nesting : Document → Nat
  | .list items => nestings items + 1
  | .fields entries => fieldNestings entries + 1
  | _ => 0

/-- How deep lists and fields are nested in the items of a list. -/
def nestings : List Document → Nat
  | [] => 0
  | d :: rest => max d.nesting (nestings rest)

/-- How deep lists and fields are nested in fields. -/
def fieldNestings : List (String × Document) → Nat
  | [] => 0
  | (_, d) :: rest => max d.nesting (fieldNestings rest)

end

theorem nestings_le_iff {items : List Document} {n : Nat} :
    nestings items ≤ n ↔ ∀ d ∈ items, d.nesting ≤ n := by
  induction items with
  | nil => simp [nestings]
  | cons d rest ih => rw [nestings, Nat.max_le, ih, List.forall_mem_cons]

theorem fieldNestings_le_iff {entries : List (String × Document)} {n : Nat} :
    fieldNestings entries ≤ n ↔ ∀ e ∈ entries, e.2.nesting ≤ n := by
  induction entries with
  | nil => simp [fieldNestings]
  | cons e rest ih =>
    obtain ⟨name, d⟩ := e
    rw [fieldNestings, Nat.max_le, ih, List.forall_mem_cons]

end Document

namespace Json

open Text (isDigit digitValue hexValue?)

/-! ## Digits -/

theorem isDigit_of_mem_toDigits {n : Nat} {c : Char} (h : c ∈ Nat.toDigits 10 n) :
    isDigit c = true := by
  have hdigit := Nat.isDigit_of_mem_toDigits (by decide) (by decide) h
  simpa [isDigit, Char.isDigit, Char.le_def] using hdigit

/-- Only zero is written with a zero in front. -/
theorem eq_nil_of_toDigits {n : Nat} {cs : List Char} (h : Nat.toDigits 10 n = '0' :: cs) :
    cs = [] := by
  induction n using Nat.strong_induction_on generalizing cs with
  | _ n ih =>
    rw [Nat.toDigits_eq_if (by decide)] at h
    split at h
    · exact (List.cons.inj h).2.symm
    · next hle =>
      have hlt : n / 10 < n := by omega
      cases hfront : Nat.toDigits 10 (n / 10) with
      | nil => exact absurd hfront Nat.toDigits_ne_nil
      | cons c front =>
        rw [hfront, List.cons_append] at h
        obtain ⟨rfl, -⟩ := List.cons.inj h
        obtain rfl := ih _ hlt hfront
        have hvalue := @Nat.ofDigitChars_ten_toDigits (n / 10)
        rw [hfront] at hvalue
        have hzero : Nat.ofDigitChars 10 ['0'] 0 = 0 := by decide
        omega

/-- A text that does not go on with a digit, a point or an exponent: it is at its end, or there is a
comma or a closing bracket. -/
def Ends (cs : List Char) : Prop := ∀ c ∈ cs.head?, c = ',' ∨ c = ']' ∨ c = '\x7d'

theorem readDigits_append {digits rest : List Char} (hne : digits ≠ [])
    (hdigits : ∀ c ∈ digits, isDigit c = true) (hrest : Ends rest) :
    readDigits (digits ++ rest) = some (digits, rest) := by
  have hstop : rest.takeWhile isDigit = [] ∧ rest.dropWhile isDigit = rest := by
    cases rest with
    | nil => exact ⟨rfl, rfl⟩
    | cons c rest =>
      have hc : isDigit c = false := by
        rcases hrest c rfl with rfl | rfl | rfl <;> decide
      exact ⟨List.takeWhile_cons_of_neg (by simp [hc]), List.dropWhile_cons_of_neg (by simp [hc])⟩
  unfold readDigits
  rw [List.takeWhile_append_of_pos hdigits, List.dropWhile_append_of_pos hdigits, hstop.1, hstop.2,
    List.append_nil, if_neg (by simpa using hne)]

theorem readWhole_toDigits (n : Nat) {rest : List Char} (hrest : Ends rest) :
    readWhole (Nat.toDigits 10 n ++ rest) = some (Nat.toDigits 10 n, rest) := by
  have hread := readDigits_append Nat.toDigits_ne_nil
    (fun c hc => isDigit_of_mem_toDigits (n := n) hc) hrest
  unfold readWhole
  rw [hread]
  split
  · next hzero =>
    have heq := congrArg Prod.fst (Option.some.inj hzero)
    exact absurd (eq_nil_of_toDigits heq) (by simp)
  · rfl

theorem readFraction_of_ends {rest : List Char} (hrest : Ends rest) :
    readFraction rest = some ([], rest) := by
  unfold readFraction
  split
  · next tail =>
    have hpoint := hrest '.' rfl
    simp at hpoint
  · rfl

theorem readExponent_of_ends {rest : List Char} (hrest : Ends rest) :
    readExponent rest = some (none, rest) := by
  cases rest with
  | nil => rfl
  | cons c rest =>
    have hc : (c == 'e' || c == 'E') = false := by
      rcases hrest c rfl with rfl | rfl | rfl <;> decide
    simp [readExponent, hc]

/-- The numeral that an integer is written as. -/
def numeralOf (i : Int) : Numeral := ⟨decide (i < 0), Nat.toDigits 10 i.natAbs, [], none⟩

theorem toList_toString_nat (n : Nat) : (toString n).toList = Nat.toDigits 10 n := by
  rw [Nat.toString_eq_ofList_toDigits, String.toList_ofList]

theorem toList_toString (i : Int) :
    (toString i).toList = (if i < 0 then ['-'] else []) ++ Nat.toDigits 10 i.natAbs := by
  cases i with
  | ofNat n => exact toList_toString_nat n
  | negSucc n =>
    have hsucc := toList_toString_nat (n + 1)
    show ("-" ++ toString (n + 1)).toList = _
    rw [String.toList_append, hsucc, if_pos (Int.negSucc_lt_zero n)]
    simp

theorem readNumeral_toString (i : Int) {rest : List Char} (hrest : Ends rest) :
    readNumeral ((toString i).toList ++ rest) = some (numeralOf i, rest) := by
  have hwhole := readWhole_toDigits i.natAbs hrest
  have hfraction := readFraction_of_ends hrest
  have hexponent := readExponent_of_ends hrest
  rw [toList_toString, numeralOf]
  unfold readNumeral
  by_cases hneg : i < 0
  · simp [hneg, hwhole, hfraction, hexponent]
  · have hhead : ∀ tail, Nat.toDigits 10 i.natAbs ++ rest ≠ '-' :: tail := by
      intro tail htail
      cases hdigits : Nat.toDigits 10 i.natAbs with
      | nil => exact Nat.toDigits_ne_nil hdigits
      | cons c front =>
        rw [hdigits] at htail
        obtain ⟨rfl, -⟩ := List.cons.inj htail
        have hdigit := isDigit_of_mem_toDigits (hdigits ▸ List.mem_cons_self)
        exact absurd hdigit (by decide)
    simp [hneg, hwhole, hfraction, hexponent]

/-! ## Numbers -/

theorem le_ofDigitChars (m : Nat) (cs : List Char) : m ≤ Nat.ofDigitChars 10 cs m := by
  induction cs generalizing m with
  | nil => exact Nat.le_refl m
  | cons c rest ih =>
    have hrest := ih (10 * m + (c.toNat - '0'.toNat))
    show m ≤ Nat.ofDigitChars 10 rest (10 * m + (c.toNat - '0'.toNat))
    omega

/-- Digits of a number of at most 64 bits are all taken into account. -/
theorem accumulate_eq {m : Nat} {cs : List Char} (h : Nat.ofDigitChars 10 cs m ≤ greatestWord) :
    accumulate m cs = (Nat.ofDigitChars 10 cs m, []) := by
  induction cs generalizing m with
  | nil => rfl
  | cons c rest ih =>
    have hstep : Nat.ofDigitChars 10 (c :: rest) m =
        Nat.ofDigitChars 10 rest (m * 10 + digitValue c) := by
      rw [Nat.mul_comm]
      rfl
    rw [hstep] at h ⊢
    have hle := le_ofDigitChars (m * 10 + digitValue c) rest
    rw [accumulate, if_pos (Nat.le_trans hle h)]
    exact ih h

/-- **Integers of 64 bits read back.** -/
theorem toDocument?_numeralOf {i : Int} (hleast : -2 ^ 63 ≤ i) (hgreatest : i < 2 ^ 64) :
    (numeralOf i).toDocument? = some (.int i) := by
  have hvalue := @Nat.ofDigitChars_ten_toDigits i.natAbs
  have hword : greatestWord = 2 ^ 64 - 1 := rfl
  have hfits : Nat.ofDigitChars 10 (Nat.toDigits 10 i.natAbs) 0 ≤ greatestWord := by omega
  have hall : accumulate 0 (Nat.toDigits 10 i.natAbs) = (i.natAbs, []) := by
    rw [accumulate_eq hfits, hvalue]
  unfold Numeral.toDocument? numeralOf
  rw [hall]
  show some (integer (decide (i < 0)) i.natAbs) = _
  unfold integer
  by_cases hneg : i < 0
  · have hpow : Nat.pow 2 63 = 2 ^ 63 := rfl
    have hsmall : ¬ (i.natAbs = 0 ∨ Nat.pow 2 63 < i.natAbs) := by omega
    have habs : -(i.natAbs : Int) = i := by omega
    rw [decide_eq_true hneg, if_neg (by decide), if_neg hsmall, habs]
  · have habs : (i.natAbs : Int) = i := by omega
    rw [decide_eq_false hneg, if_pos (by decide), habs]

/-! ## Texts -/

/-- The characters that are written as a backslash and another character. -/
def escapedChars : List Char := ['\x22', '\\', '\x08', '\x0c', '\n', '\r', '\t']

/-- The piece that a character is written as. -/
def pieceOf (c : Char) : Piece :=
  if c ∈ escapedChars then .escaped c else if c.toNat < 32 then .unit c.toNat else .plain c

theorem escape_of_notMem {c : Char} (h : c ∉ escapedChars) :
    escape c = if c.toNat < 32 then
      ['\\', 'u', '0', '0', Nat.digitChar (c.toNat / 16), Nat.digitChar (c.toNat % 16)]
    else [c] := by
  simp only [escapedChars, List.mem_cons, List.not_mem_nil, or_false, not_or] at h
  simp [escape, h]

/-- The numbers of control characters are read from the digits they are written with. -/
theorem unit?_digitChar : ∀ n < 32,
    unit? '0' '0' (Nat.digitChar (n / 16)) (Nat.digitChar (n % 16)) = some n := by
  decide

/-- **Every character reads back** as the piece that it is written as. -/
theorem readPieces_escape (c : Char) (rest : List Char) :
    readPieces (escape c ++ rest) = before (pieceOf c) (readPieces rest) := by
  by_cases hmem : c ∈ escapedChars
  · rw [pieceOf, if_pos hmem]
    simp only [escapedChars, List.mem_cons, List.not_mem_nil, or_false] at hmem
    rcases hmem with rfl | rfl | rfl | rfl | rfl | rfl | rfl <;> rfl
  · rw [pieceOf, if_neg hmem, escape_of_notMem hmem]
    by_cases hcontrol : c.toNat < 32
    · rw [if_pos hcontrol, if_pos hcontrol]
      show readPieces ('\\' :: 'u' :: '0' :: '0' :: _ :: _ :: rest) = _
      rw [readPieces, unit?_digitChar _ hcontrol]
    · have hquote : c ≠ '\x22' := fun h => hmem (by rw [h]; decide)
      have hslash : c ≠ '\\' := fun h => hmem (by rw [h]; decide)
      rw [if_neg hcontrol, if_neg hcontrol]
      show readPieces (c :: rest) = _
      simp [readPieces, hslash, hcontrol]

theorem readPieces_quoted (cs rest : List Char) :
    readPieces (cs.flatMap escape ++ '\x22' :: rest) = some (cs.map pieceOf, rest) := by
  induction cs with
  | nil => rfl
  | cons c cs ih =>
    rw [List.flatMap_cons, List.append_assoc, readPieces_escape, ih]
    rfl

/-- **Every text is spelled by its pieces.** -/
theorem spell_pieceOf (cs : List Char) : spell none (cs.map pieceOf) = some cs := by
  induction cs with
  | nil => rfl
  | cons c rest ih =>
    rw [List.map_cons, pieceOf]
    split
    · rw [spell, ih]
      rfl
    · split
      · next hcontrol =>
        have hhigh : isHighSurrogate c.toNat = false := by
          simp only [isHighSurrogate, Bool.and_eq_false_imp, decide_eq_true_eq]
          omega
        have hlow : isLowSurrogate c.toNat = false := by
          simp only [isLowSurrogate, Bool.and_eq_false_imp, decide_eq_true_eq]
          omega
        rw [spell, hhigh, hlow, ih, Char.ofNat_toNat]
        rfl
      · rw [spell, ih]
        rfl

theorem textOf?_pieceOf (s : String) : textOf? (s.toList.map pieceOf) = some s := by
  rw [textOf?, spell_pieceOf, Option.map_some, String.ofList_toList]

theorem toList_quote (s : String) :
    (quote s).toList = '\x22' :: (s.toList.flatMap escape ++ ['\x22']) := by
  rw [quote, String.toList_ofList]
  rfl

/-! ## Terms -/

mutual

/-- The term that a document is written as; numbers that are no integers are left out. -/
def termOf : Document → Term
  | .null => .null
  | .bool value => .bool value
  | .int value => .number (numeralOf value)
  | .double _ => .null
  | .text value => .text (value.toList.map pieceOf)
  | .list items => .list (termsOf items)
  | .fields entries => .fields (fieldTermsOf entries)

/-- The terms that the items of a list are written as. -/
def termsOf : List Document → List Term
  | [] => []
  | d :: rest => termOf d :: termsOf rest

/-- The terms that fields are written as. -/
def fieldTermsOf : List (String × Document) → List (List Piece × Term)
  | [] => []
  | (name, d) :: rest => (name.toList.map pieceOf, termOf d) :: fieldTermsOf rest

end

/-! ## What terms stand for -/

theorem itemsToDocuments?_termsOf {items : List Document} {depth : Nat}
    (h : ∀ d ∈ items, (termOf d).toDocument? depth =
      if d.nesting ≤ depth then some d else none) :
    Term.itemsToDocuments? depth (termsOf items) =
      if Document.nestings items ≤ depth then some items else none := by
  induction items with
  | nil => simp [termsOf, Term.itemsToDocuments?, Document.nestings]
  | cons d rest ih =>
    obtain ⟨hd, hrest⟩ := List.forall_mem_cons.mp h
    rw [termsOf, Term.itemsToDocuments?, hd, ih hrest, Document.nestings]
    by_cases hdepth : d.nesting ≤ depth
    · by_cases hdepths : Document.nestings rest ≤ depth
      · simp [hdepth, hdepths]
      · simp [hdepth, hdepths]
    · simp [hdepth]

theorem entriesToDocuments?_fieldTermsOf {entries : List (String × Document)} {depth : Nat}
    (h : ∀ e ∈ entries, (termOf e.2).toDocument? depth =
      if e.2.nesting ≤ depth then some e.2 else none) :
    Term.entriesToDocuments? depth (fieldTermsOf entries) =
      if Document.fieldNestings entries ≤ depth then some entries else none := by
  induction entries with
  | nil => simp [fieldTermsOf, Term.entriesToDocuments?, Document.fieldNestings]
  | cons e rest ih =>
    obtain ⟨name, d⟩ := e
    obtain ⟨hd, hrest⟩ := List.forall_mem_cons.mp h
    rw [fieldTermsOf, Term.entriesToDocuments?, textOf?_pieceOf, hd, ih hrest,
      Document.fieldNestings]
    by_cases hdepth : d.nesting ≤ depth
    · by_cases hdepths : Document.fieldNestings rest ≤ depth
      · simp [hdepth, hdepths]
      · simp [hdepth, hdepths]
    · simp [hdepth]

/-- **The term that a document is written as stands for it**, if it is not nested too deep. -/
theorem toDocument?_termOf {d : Document} (hd : d.Integral) (depth : Nat) :
    (termOf d).toDocument? depth = if d.nesting ≤ depth then some d else none := by
  induction hd generalizing depth with
  | null => rfl
  | bool value => rfl
  | int hleast hgreatest =>
    rw [termOf, Term.toDocument?, toDocument?_numeralOf hleast hgreatest]
    rfl
  | text value =>
    rw [termOf, Term.toDocument?, textOf?_pieceOf]
    rfl
  | list _ ih =>
    rw [termOf, Document.nesting]
    cases depth with
    | zero =>
      rw [Term.toDocument?]
      rfl
    | succ depth =>
      rw [Term.toDocument?, itemsToDocuments?_termsOf fun d hd => ih d hd depth]
      simp only [Nat.add_le_add_iff_right]
      split <;> rfl
  | fields _ ih =>
    rw [termOf, Document.nesting]
    cases depth with
    | zero =>
      rw [Term.toDocument?]
      rfl
    | succ depth =>
      rw [Term.toDocument?, entriesToDocuments?_fieldTermsOf fun e he => ih e he depth]
      simp only [Nat.add_le_add_iff_right]
      split <;> rfl

/-! ## Reading what is written -/

/-- A text that begins with something other than white space and a closing bracket. -/
def Opens (cs : List Char) : Prop :=
  ∃ c tail, cs = c :: tail ∧ isSpace c = false ∧ c ≠ ']' ∧ c ≠ '\x7d'

theorem skip_cons {c : Char} (h : isSpace c = false) (rest : List Char) :
    skip (c :: rest) = c :: rest :=
  List.dropWhile_cons_of_neg (by simp [h])

theorem Opens.skip {cs : List Char} (h : Opens cs) (rest : List Char) :
    skip (cs ++ rest) = cs ++ rest := by
  obtain ⟨c, tail, rfl, hspace, -⟩ := h
  exact skip_cons hspace _

theorem Opens.append {cs : List Char} (h : Opens cs) (rest : List Char) : Opens (cs ++ rest) := by
  obtain ⟨c, tail, rfl, hc⟩ := h
  exact ⟨c, tail ++ rest, rfl, hc⟩

theorem opens_intercalate {texts : List (List Char)} (hne : texts ≠ [])
    (h : ∀ text ∈ texts, Opens text) : Opens ([','].intercalate texts) := by
  cases texts with
  | nil => exact absurd rfl hne
  | cons text rest =>
    have htext := h text List.mem_cons_self
    cases rest with
    | nil =>
      rw [List.intercalate_singleton]
      exact htext
    | cons text' rest =>
      rw [List.intercalate_cons_cons, List.append_assoc]
      exact htext.append _

theorem compactItems_eq (items : List Document) : compactItems items = items.map compact := by
  induction items with
  | nil => rfl
  | cons d rest ih => rw [compactItems, ih, List.map_cons]

/-- A field as it is written. -/
def writtenField (e : String × Document) : List Char :=
  (quote e.1).toList ++ ':' :: (compact e.2).toList

theorem toList_compact_list (items : List Document) :
    (compact (.list items)).toList =
      '[' :: ([','].intercalate (items.map fun d => (compact d).toList) ++ [']']) := by
  rw [compact, compactItems_eq, String.toList_append, String.toList_append,
    String.toList_intercalate, List.map_map]
  rfl

theorem toList_compact_fields (entries : List (String × Document)) :
    (compact (.fields entries)).toList =
      '\x7b' :: ([','].intercalate (entries.map writtenField) ++ ['\x7d']) := by
  have hfields : (compactFields entries).map String.toList = entries.map writtenField := by
    induction entries with
    | nil => rfl
    | cons e rest ih =>
      obtain ⟨name, d⟩ := e
      rw [compactFields, List.map_cons, ih, List.map_cons, String.toList_append,
        String.toList_append, List.append_assoc]
      rfl
  rw [compact, String.toList_append, String.toList_append, String.toList_intercalate, hfields]
  rfl

/-- An integer begins with a minus or a digit. -/
theorem head_toString (i : Int) :
    ∃ c tail, (toString i).toList = c :: tail ∧ (c = '-' ∨ isDigit c = true) := by
  rw [toList_toString]
  by_cases hneg : i < 0
  · exact ⟨'-', _, by rw [if_pos hneg]; rfl, Or.inl rfl⟩
  · rw [if_neg hneg]
    cases hdigits : Nat.toDigits 10 i.natAbs with
    | nil => exact absurd hdigits Nat.toDigits_ne_nil
    | cons c tail =>
      exact ⟨c, tail, rfl, Or.inr (isDigit_of_mem_toDigits (hdigits ▸ List.mem_cons_self))⟩

/-- A character that begins an integer begins nothing else. -/
theorem ne_of_begins {c : Char} (h : c = '-' ∨ isDigit c = true) (other : Char)
    (hother : other ≠ '-' ∧ isDigit other = false) : c ≠ other := by
  rintro rfl
  rcases h with h | h
  · exact hother.1 h
  · rw [hother.2] at h
    cases h

theorem opens_compact {d : Document} (hd : d.Integral) : Opens (compact d).toList := by
  cases hd with
  | null => exact ⟨'n', _, rfl, rfl, by decide, by decide⟩
  | bool value =>
    cases value with
    | false => exact ⟨'f', _, rfl, rfl, by decide, by decide⟩
    | true => exact ⟨'t', _, rfl, rfl, by decide, by decide⟩
  | @int i _ _ =>
    obtain ⟨c, tail, heq, hbegins⟩ := head_toString i
    have hother := ne_of_begins hbegins
    have hspace : isSpace c = false := by
      simp [isSpace, hother ' ' (by decide), hother '\n' (by decide), hother '\t' (by decide),
        hother '\r' (by decide)]
    exact ⟨c, tail, heq, hspace, hother ']' (by decide), hother '\x7d' (by decide)⟩
  | text value => exact ⟨'\x22', _, toList_quote value, rfl, by decide, by decide⟩
  | list _ => exact ⟨'[', _, toList_compact_list _, rfl, by decide, by decide⟩
  | fields _ => exact ⟨'\x7b', _, toList_compact_fields _, rfl, by decide, by decide⟩

/-- Terms without parts are read the same however deep others may be nested. -/
theorem readTerm_scalar {c : Char} (hlist : c ≠ '[') (hfields : c ≠ '\x7b') (n : Nat)
    (rest : List Char) : readTerm n (c :: rest) = readScalar (c :: rest) := by
  cases n with
  | zero => rfl
  | succ n => simp [readTerm, hlist, hfields]

theorem readTerm_list {cs : List Char} (h : Opens cs) (n : Nat) :
    readTerm (n + 1) ('[' :: cs) =
      (readItems (readTerm n) (cs.length + 1) cs).map fun p => (.list p.1, p.2) := by
  obtain ⟨c, tail, rfl, hspace, hclosing, -⟩ := h
  have hskip := skip_cons hspace tail
  simp [readTerm, hskip, hclosing]

theorem readTerm_fields {cs : List Char} (h : Opens cs) (n : Nat) :
    readTerm (n + 1) ('\x7b' :: cs) =
      (readFields (readTerm n) (cs.length + 1) cs).map fun p => (.fields p.1, p.2) := by
  obtain ⟨c, tail, rfl, hspace, -, hclosing⟩ := h
  have hskip := skip_cons hspace tail
  simp [readTerm, hskip, hclosing]

theorem readTerm_int (i : Int) (n : Nat) {rest : List Char} (hrest : Ends rest) :
    readTerm n ((toString i).toList ++ rest) = some (.number (numeralOf i), rest) := by
  have hnumeral := readNumeral_toString i hrest
  obtain ⟨c, tail, heq, hbegins⟩ := head_toString i
  have hother := ne_of_begins hbegins
  rw [heq, List.cons_append] at hnumeral ⊢
  rw [readTerm_scalar (hother '[' (by decide)) (hother '\x7b' (by decide))]
  unfold readScalar
  split
  · next h => exact absurd (List.cons.inj h).1 (hother 'n' (by decide))
  · next h => exact absurd (List.cons.inj h).1 (hother 't' (by decide))
  · next h => exact absurd (List.cons.inj h).1 (hother 'f' (by decide))
  · next h => exact absurd (List.cons.inj h).1 (hother '\x22' (by decide))
  · rw [hnumeral]
    rfl

theorem readTerm_text (s : String) (n : Nat) (rest : List Char) :
    readTerm n ((quote s).toList ++ rest) = some (.text (s.toList.map pieceOf), rest) := by
  have hpieces := readPieces_quoted s.toList rest
  rw [toList_quote, List.cons_append, readTerm_scalar (by decide) (by decide), List.append_assoc,
    List.singleton_append, readScalar, hpieces]
  rfl

theorem ends_cons {c : Char} (h : c = ',' ∨ c = ']' ∨ c = '\x7d') (rest : List Char) :
    Ends (c :: rest) := by
  intro c' hc'
  rwa [← Option.some.inj hc']

/-- A term that is written somewhere is read back, up to what follows it. -/
def Reads (read : List Char → Option (Term × List Char)) (cs : List Char) (t : Term) : Prop :=
  Opens cs ∧ ∀ rest, Ends rest → read (cs ++ rest) = some (t, rest)

theorem readItems_written {read : List Char → Option (Term × List Char)} {items : List Document}
    (hne : items ≠ []) (hread : ∀ d ∈ items, Reads read (compact d).toList (termOf d)) {fuel : Nat}
    (hfuel : items.length ≤ fuel) (rest : List Char) :
    readItems read fuel ([','].intercalate (items.map fun d => (compact d).toList) ++ ']' :: rest) =
      some (termsOf items, rest) := by
  induction items generalizing fuel with
  | nil => exact absurd rfl hne
  | cons d items ih =>
    obtain ⟨⟨hopens, hd⟩, hitems⟩ := List.forall_mem_cons.mp hread
    cases fuel with
    | zero => exact absurd hfuel (by simp)
    | succ fuel =>
      cases items with
      | nil =>
        have hlast := hd (']' :: rest) (ends_cons (by decide) rest)
        rw [List.map_cons, List.map_nil, List.intercalate_singleton, readItems, hopens.skip, hlast]
        simp [skip_cons, isSpace, termsOf]
      | cons d' items =>
        have hmore := ih (by simp) hitems (Nat.le_of_succ_le_succ hfuel)
        rw [List.map_cons] at hmore
        have hfirst := hd (',' :: ([','].intercalate ((compact d').toList ::
          items.map fun d => (compact d).toList) ++ ']' :: rest)) (ends_cons (by decide) _)
        rw [List.map_cons, List.map_cons, List.intercalate_cons_cons, List.append_assoc,
          List.append_assoc, List.singleton_append, readItems, hopens.skip, hfirst]
        simp [skip_cons, isSpace, termsOf, hmore]

theorem writtenField_append (e : String × Document) (rest : List Char) :
    writtenField e ++ rest = '\x22' :: (e.1.toList.flatMap escape ++
      '\x22' :: ':' :: ((compact e.2).toList ++ rest)) := by
  rw [writtenField, toList_quote]
  simp

theorem readFields_written {read : List Char → Option (Term × List Char)}
    {entries : List (String × Document)} (hne : entries ≠ [])
    (hread : ∀ e ∈ entries, Reads read (compact e.2).toList (termOf e.2)) {fuel : Nat}
    (hfuel : entries.length ≤ fuel) (rest : List Char) :
    readFields read fuel ([','].intercalate (entries.map writtenField) ++ '\x7d' :: rest) =
      some (fieldTermsOf entries, rest) := by
  induction entries generalizing fuel with
  | nil => exact absurd rfl hne
  | cons e entries ih =>
    obtain ⟨⟨hopens, he⟩, hentries⟩ := List.forall_mem_cons.mp hread
    cases fuel with
    | zero => exact absurd hfuel (by simp)
    | succ fuel =>
      cases entries with
      | nil =>
        have hlast := he ('\x7d' :: rest) (ends_cons (by decide) rest)
        rw [List.map_cons, List.map_nil, List.intercalate_singleton, writtenField_append,
          readFields]
        simp [skip_cons, isSpace, expect, readPieces_quoted, hopens.skip, hlast, fieldTermsOf]
      | cons e' entries =>
        have hmore := ih (by simp) hentries (Nat.le_of_succ_le_succ hfuel)
        rw [List.map_cons] at hmore
        have hfirst := he (',' :: ([','].intercalate (writtenField e' ::
          entries.map writtenField) ++ '\x7d' :: rest)) (ends_cons (by decide) _)
        rw [List.map_cons, List.map_cons, List.intercalate_cons_cons, List.append_assoc,
          List.append_assoc, List.singleton_append, writtenField_append, readFields]
        simp [skip_cons, isSpace, expect, readPieces_quoted, hopens.skip, hfirst, fieldTermsOf,
          hmore]

/-- A list of texts has at least as many characters as there are commas between them. -/
theorem length_le_intercalate (texts : List (List Char)) :
    texts.length ≤ ([','].intercalate texts).length + 1 := by
  induction texts with
  | nil => exact Nat.zero_le _
  | cons text rest ih =>
    cases rest with
    | nil => simp
    | cons text' rest =>
      rw [List.intercalate_cons_cons, List.length_append, List.length_append, List.length_cons]
      rw [List.length_singleton]
      omega

theorem length_le_of_mem {texts : List (List Char)} {text : List Char} (h : text ∈ texts) :
    text.length ≤ ([','].intercalate texts).length := by
  induction texts with
  | nil => exact absurd h List.not_mem_nil
  | cons first rest ih =>
    cases rest with
    | nil =>
      obtain rfl := List.mem_singleton.mp h
      exact Nat.le_of_eq (congrArg List.length List.intercalate_singleton.symm)
    | cons second rest =>
      rw [List.intercalate_cons_cons, List.length_append, List.length_append]
      rcases List.mem_cons.mp h with rfl | h
      · omega
      · have hrest := ih h
        omega

theorem opens_writtenField (e : String × Document) : Opens (writtenField e) := by
  have hform := writtenField_append e []
  rw [List.append_nil] at hform
  exact ⟨'\x22', _, hform, rfl, by decide, by decide⟩

/-- **What is written is read back as one term**, up to what follows it, if reading goes deep
enough. -/
theorem reads_compact {d : Document} (hd : d.Integral) {n : Nat} (hn : d.nesting ≤ n) :
    Reads (readTerm n) (compact d).toList (termOf d) := by
  refine ⟨opens_compact hd, fun rest hrest => ?_⟩
  induction hd generalizing n rest with
  | null => exact readTerm_scalar (by decide) (by decide) n _
  | bool value =>
    cases value with
    | false => exact readTerm_scalar (by decide) (by decide) n _
    | true => exact readTerm_scalar (by decide) (by decide) n _
  | int _ _ => exact readTerm_int _ n hrest
  | text value => exact readTerm_text value n rest
  | @list items hitems ih =>
    obtain ⟨m, rfl⟩ : ∃ m, n = m + 1 := ⟨n - 1, by rw [Document.nesting] at hn; omega⟩
    have hdepth : ∀ d ∈ items, d.nesting ≤ m := by
      rw [Document.nesting] at hn
      exact Document.nestings_le_iff.mp (Nat.le_of_succ_le_succ hn)
    rw [toList_compact_list, List.cons_append, List.append_assoc, List.singleton_append]
    by_cases hne : items = []
    · subst hne
      rfl
    · have hopens : Opens ([','].intercalate (items.map fun d => (compact d).toList)) :=
        opens_intercalate (by simpa using hne)
          (List.forall_mem_map.mpr fun d hd => opens_compact (hitems d hd))
      have hread : ∀ d ∈ items, Reads (readTerm m) (compact d).toList (termOf d) :=
        fun d hd => ⟨opens_compact (hitems d hd), ih d hd (hdepth d hd)⟩
      have hfuel := length_le_intercalate (items.map fun d => (compact d).toList)
      rw [List.length_map] at hfuel
      rw [readTerm_list (hopens.append _), readItems_written hne hread
        (by rw [List.length_append]; omega) rest]
      rfl
  | @fields entries hentries ih =>
    obtain ⟨m, rfl⟩ : ∃ m, n = m + 1 := ⟨n - 1, by rw [Document.nesting] at hn; omega⟩
    have hdepth : ∀ e ∈ entries, e.2.nesting ≤ m := by
      rw [Document.nesting] at hn
      exact Document.fieldNestings_le_iff.mp (Nat.le_of_succ_le_succ hn)
    rw [toList_compact_fields, List.cons_append, List.append_assoc, List.singleton_append]
    by_cases hne : entries = []
    · subst hne
      rfl
    · have hopens : Opens ([','].intercalate (entries.map writtenField)) :=
        opens_intercalate (by simpa using hne)
          (List.forall_mem_map.mpr fun e _ => opens_writtenField e)
      have hread : ∀ e ∈ entries, Reads (readTerm m) (compact e.2).toList (termOf e.2) :=
        fun e he => ⟨opens_compact (hentries e he), ih e he (hdepth e he)⟩
      have hfuel := length_le_intercalate (entries.map writtenField)
      rw [List.length_map] at hfuel
      rw [readTerm_fields (hopens.append _), readFields_written hne hread
        (by rw [List.length_append]; omega) rest]
      rfl

/-- A text has at least as many characters as there are levels of nesting in it. -/
theorem nesting_le_length {d : Document} (hd : d.Integral) :
    d.nesting ≤ (compact d).toList.length := by
  induction hd with
  | null => exact Nat.zero_le _
  | bool value => exact Nat.zero_le _
  | int _ _ => exact Nat.zero_le _
  | text value => exact Nat.zero_le _
  | @list items _ ih =>
    have hitems : Document.nestings items ≤
        ([','].intercalate (items.map fun d => (compact d).toList)).length :=
      Document.nestings_le_iff.mpr fun d hd =>
        Nat.le_trans (ih d hd) (length_le_of_mem (List.mem_map_of_mem hd))
    rw [toList_compact_list, List.length_cons, List.length_append, Document.nesting]
    omega
  | @fields entries _ ih =>
    have hentries : Document.fieldNestings entries ≤
        ([','].intercalate (entries.map writtenField)).length := by
      refine Document.fieldNestings_le_iff.mpr fun e he => ?_
      have hfield := length_le_of_mem (List.mem_map_of_mem (f := writtenField) he)
      rw [writtenField, List.length_append, List.length_cons] at hfield
      have hvalue := ih e he
      omega
    rw [toList_compact_fields, List.length_cons, List.length_append, Document.nesting]
    omega

theorem parseTerm_compact {d : Document} (hd : d.Integral) :
    parseTerm (compact d) = some (termOf d) := by
  obtain ⟨hopens, hread⟩ := reads_compact hd (nesting_le_length hd)
  have hwhole := hread [] (fun c hc => nomatch hc)
  have hskip := hopens.skip []
  rw [List.append_nil] at hwhole hskip
  unfold parseTerm
  dsimp only
  rw [hskip, hwhole]
  rfl

/-- **Documents of integers read back from JSON**, if they are not nested too deep, and are refused
if they are. -/
theorem parse_compact {d : Document} (hd : d.Integral) :
    parse (compact d) = if d.nesting ≤ greatestDepth then some d else none := by
  unfold parse
  rw [parseTerm_compact hd]
  exact toDocument?_termOf hd greatestDepth

end Json
end CelTyping
