import CelTyping.Proofs.Ty.Grammar

/-!
# What the reader of types accepts, and where it stops

The rule by which types are spelled (`Spelled`) says what a text stands for, and leaves it to the
making of types (`build`) to refuse a list of two types or a map of one.  Here the texts that are
read are told without types.

    type    ::=  blank* name                        if nothing that belongs to a name follows
              |  blank* name blank* '(' params
    params  ::=  type blank* ')'  |  type blank* ',' params

A phrase is taken from the front of a text and leaves the rest of it (`Reads`), so a name can be
asked to go on as far as it can.  Every name is followed by as many parameters as it asks for
(`Asks`).

## Places

A cursor counts the bytes before it.  It stands in a text (`Cursor.In`) if what it counts are the
bytes of what was passed, whatever characters these were; the reader moves over one byte only where
it has seen a mark, which takes one byte.  So an error that names a character and a place names what
stands there (`Located`).

* `build_cases`: a type is made of a name and parameters if there are as many as the name asks for.
* `Reads.means`, `reads_of_spelled`: the two ways of telling what is read agree.
* `stays_readType`: the reader stays in the text, and its errors tell true places.
-/

namespace CelTyping

/-- A character starts at a byte of a text: as many bytes stand before it. -/
def Text.StartsAt (text : String) (offset : Nat) (ch : Char) : Prop :=
  ∃ before after, text = before ++ String.singleton ch ++ after ∧ before.utf8ByteSize = offset

theorem Text.StartsAt.lt {text : String} {offset : Nat} {ch : Char}
    (h : Text.StartsAt text offset ch) : offset < text.utf8ByteSize := by
  obtain ⟨before, after, rfl, rfl⟩ := h
  rw [String.utf8ByteSize_append, String.utf8ByteSize_append, String.utf8ByteSize_singleton]
  have hpos := ch.utf8Size_pos
  omega

namespace Ty
namespace Parsing

/-! ## Numbers of parameters -/

/-- A name asks for a number of parameters: some names for a fixed one, all others for any. -/
structure Asks (name : String) (count : Nat) : Prop where
  /-- Lists, optional types and wrappers are of one type. -/
  one : name ∈ ["list", "optional", "optional_type", "wrapper"] → count = 1
  /-- Maps are of two types. -/
  two : name = "map" → count = 2
  /-- The type of a type may leave out which. -/
  atMostOne : name = "type" → count ≤ 1

theorem asks_iff {name : String} {count : Nat} : Asks name count ↔
    (name ∈ ["list", "optional", "optional_type", "wrapper"] → count = 1) ∧
      (name = "map" → count = 2) ∧ (name = "type" → count ≤ 1) :=
  ⟨fun h => ⟨h.one, h.two, h.atMostOne⟩, fun h => ⟨h.1, h.2.1, h.2.2⟩⟩

instance (name : String) (count : Nat) : Decidable (Asks name count) :=
  decidable_of_iff _ asks_iff.symm

/-- **A type can be made of a name and as many parameters as the name asks for**; any other number
of them is an error. -/
theorem build_cases (typeParams : List String) (name : String) (params : List Ty) :
    (Asks name params.length ∧ ∃ t, build typeParams name params = .ok t) ∨
      ¬ Asks name params.length ∧ ∃ expected,
        build typeParams name params = .error (.parameterCount name expected params.length) := by
  rw [asks_iff]
  unfold build
  split
  · next hname =>
    subst hname
    rcases params with _ | ⟨p, _ | ⟨q, ps⟩⟩ <;> simp
  split
  · next hname =>
    subst hname
    rcases params with _ | ⟨p, _ | ⟨q, _ | ⟨r, ps⟩⟩⟩ <;> simp
  split
  · next hname =>
    subst hname
    rcases params with _ | ⟨p, _ | ⟨q, ps⟩⟩ <;> simp
  split
  · next hname =>
    rcases hname with rfl | rfl <;> rcases params with _ | ⟨p, _ | ⟨q, ps⟩⟩ <;> simp
  split
  · next hname =>
    subst hname
    rcases params with _ | ⟨p, _ | ⟨q, ps⟩⟩ <;> simp
  -- any other name takes whatever it is given
  next hlist hmap htype hoptional hwrapper =>
  have hfree : name ∉ ["list", "optional", "optional_type", "wrapper"] := by
    simp only [List.mem_cons, List.not_mem_nil, or_false]
    tauto
  refine Or.inl ⟨⟨fun h => absurd h hfree, fun h => absurd h hmap, fun h => absurd h htype⟩, ?_⟩
  split
  · split
    · exact ⟨_, rfl⟩
    · exact ⟨_, rfl⟩
  · exact ⟨_, rfl⟩

theorem build_eq_ok_iff {typeParams : List String} {name : String} {params : List Ty} :
    (∃ t, build typeParams name params = .ok t) ↔ Asks name params.length := by
  rcases build_cases typeParams name params with ⟨hasks, hok⟩ | ⟨hasks, expected, herror⟩
  · exact iff_of_true hok hasks
  · refine iff_of_false ?_ hasks
    rintro ⟨t, ht⟩
    rw [herror] at ht
    cases ht

/-! ## The texts that are read -/

/-- No name goes on in a text. -/
def Stops (cs : List Char) : Prop := ∀ ch ∈ cs.head?, isNameChar ch = false

/-- What may stand at the front of a text. -/
inductive Phrase where
  /-- A type. -/
  | type
  /-- So many parameters, with the closing parenthesis. -/
  | params (count : Nat)

/-- A phrase can be taken from the front of a text and leaves the rest. -/
inductive Reads : Phrase → List Char → List Char → Prop where
  /-- A name alone, which is as long as it can be. -/
  | bare {blanks name rest : List Char} (hblanks : Blanks blanks) (hname : IsName name)
      (hstops : Stops rest) (hasks : Asks (String.ofList name) 0) :
      Reads .type (blanks ++ (name ++ rest)) rest
  /-- A name with parameters. -/
  | applied {blanks name gap cs rest : List Char} {count : Nat} (hblanks : Blanks blanks)
      (hname : IsName name) (hgap : Blanks gap) (hparams : Reads (.params count) cs rest)
      (hasks : Asks (String.ofList name) count) :
      Reads .type (blanks ++ (name ++ (gap ++ '(' :: cs))) rest
  /-- The last parameter. -/
  | last {cs gap rest : List Char} (htype : Reads .type cs (gap ++ ')' :: rest))
      (hgap : Blanks gap) : Reads (.params 1) cs rest
  /-- A parameter before others. -/
  | more {cs gap cs' rest : List Char} {count : Nat} (htype : Reads .type cs (gap ++ ',' :: cs'))
      (hgap : Blanks gap) (hparams : Reads (.params count) cs' rest) :
      Reads (.params (count + 1)) cs rest

/-- What is taken from a text for a phrase stands for types. -/
def Phrase.Means (typeParams : List String) (cs rest : List Char) : Phrase → Prop
  | .type => ∃ written t, Spelled typeParams written t ∧ cs = written ++ rest
  | .params count => ∃ first more, (∀ a ∈ first :: more, Spelled typeParams a.written a.type) ∧
      (∀ a ∈ first :: more, Blanks a.blanks) ∧ (first :: more).length = count ∧
      cs = first.written ++ (first.blanks ++ (further more ++ rest))

theorem Reads.means {phrase : Phrase} {cs rest : List Char} (h : Reads phrase cs rest)
    (typeParams : List String) : phrase.Means typeParams cs rest := by
  induction h with
  | bare hblanks hname hstops hasks =>
    obtain ⟨t, ht⟩ : ∃ t, build typeParams _ [] = .ok t := build_eq_ok_iff.mpr hasks
    exact ⟨_, t, .bare hblanks hname ht, by rw [List.append_assoc]⟩
  | applied hblanks hname hgap _ hasks ih =>
    obtain ⟨first, more, hwritten, hafter, hcount, rfl⟩ := ih
    rw [← hcount, ← List.length_map (f := Argument.type)] at hasks
    obtain ⟨t, ht⟩ := build_eq_ok_iff.mpr hasks
    exact ⟨_, t, .applied hblanks hname hgap hwritten hafter ht, by simp⟩
  | @last cs gap rest _ hgap ih =>
    obtain ⟨written, t, hwritten, rfl⟩ := ih
    exact ⟨⟨t, written, gap⟩, [], List.forall_mem_singleton.mpr hwritten,
      List.forall_mem_singleton.mpr hgap, rfl, rfl⟩
  | @more cs gap cs' rest count _ hgap _ ih ihmore =>
    obtain ⟨written, t, hwritten, rfl⟩ := ih
    obtain ⟨first, more, hargs, hafter, rfl, rfl⟩ := ihmore
    exact ⟨⟨t, written, gap⟩, first :: more, List.forall_mem_cons.mpr ⟨hwritten, hargs⟩,
      List.forall_mem_cons.mpr ⟨hgap, hafter⟩, rfl, by simp [further]⟩

/-- Parameters can be taken one after another. -/
theorem reads_params {first : Argument} {more : List Argument}
    (hreads : ∀ a ∈ first :: more, ∀ rest, Stops rest → Reads .type (a.written ++ rest) rest)
    (hafter : ∀ a ∈ first :: more, Blanks a.blanks) (rest : List Char) :
    Reads (.params (first :: more).length)
      (first.written ++ (first.blanks ++ (further more ++ rest))) rest := by
  induction more generalizing first with
  | nil =>
    obtain ⟨hfirst, -⟩ := List.forall_mem_cons.mp hreads
    obtain ⟨hblanks, -⟩ := List.forall_mem_cons.mp hafter
    exact .last (hfirst _ fun _ => (ends_further hblanks [] rest).isNameChar) hblanks
  | cons second more ih =>
    -- a parameter is followed by white space or a mark, where its name cannot go on
    obtain ⟨hfirst, hmore⟩ := List.forall_mem_cons.mp hreads
    obtain ⟨hblanks, hothers⟩ := List.forall_mem_cons.mp hafter
    have hrest := ih hmore hothers
    have hread := hfirst _ fun _ => (ends_further hblanks (second :: more) rest).isNameChar
    rw [further, List.cons_append, List.append_assoc, List.append_assoc] at hread ⊢
    exact .more hread hblanks hrest

theorem reads_of_spelled {typeParams : List String} {written : List Char} {t : Ty}
    (h : Spelled typeParams written t) {rest : List Char} (hrest : Stops rest) :
    Reads .type (written ++ rest) rest := by
  induction h generalizing rest with
  | bare hblanks hname ht =>
    rw [List.append_assoc]
    exact .bare hblanks hname hrest (build_eq_ok_iff.mp ⟨_, ht⟩)
  | applied hblanks hname hgap hwritten hafter ht ih =>
    have hasks := build_eq_ok_iff.mp ⟨_, ht⟩
    rw [List.length_map] at hasks
    have hparams := reads_params (fun a ha _ => ih a ha) hafter rest
    simpa using Reads.applied hblanks hname hgap hparams hasks

/-- **A text is read as some type exactly when a type can be taken from it and white space is
left.** -/
theorem exists_parse_eq_ok_iff {text : String} {typeParams : List String} :
    (∃ t, parse text typeParams = .ok t) ↔
      ∃ blanks, Reads .type text.toList blanks ∧ Blanks blanks := by
  constructor
  · rintro ⟨t, h⟩
    obtain ⟨written, blanks, hwritten, hblanks, htext⟩ := parse_eq_ok_iff.mp h
    rw [htext]
    exact ⟨blanks, reads_of_spelled hwritten fun _ => (ends_of_blanks hblanks).isNameChar, hblanks⟩
  · rintro ⟨blanks, hreads, hblanks⟩
    obtain ⟨written, t, hwritten, htext⟩ := hreads.means typeParams
    exact ⟨t, parse_eq_ok_iff.mpr ⟨written, blanks, hwritten, hblanks, htext⟩⟩

/-! ## The cursor in a text -/

/-- A cursor stands in a text: the text is what was passed and what is left, and the offset is the
number of bytes passed. -/
def Cursor.In (text : String) (c : Cursor) : Prop :=
  ∃ passed : String, text.toList = passed.toList ++ c.rest ∧ passed.utf8ByteSize = c.offset

variable {text : String}

theorem in_start (text : String) : Cursor.In text ⟨0, text.toList⟩ := ⟨"", by simp, by simp⟩

theorem Cursor.In.startsAt {c : Cursor} (h : c.In text) {ch : Char} {rest : List Char}
    (hrest : c.rest = ch :: rest) : Text.StartsAt text c.offset ch := by
  obtain ⟨passed, htext, hsize⟩ := h
  refine ⟨passed, String.ofList rest, ?_, hsize⟩
  rw [← String.toList_inj, htext, hrest]
  simp

/-- Moving over a character adds its bytes. -/
theorem in_cons {offset : Nat} {ch : Char} {rest : List Char}
    (h : Cursor.In text ⟨offset, ch :: rest⟩) : Cursor.In text ⟨offset + ch.utf8Size, rest⟩ := by
  obtain ⟨passed, htext, hsize⟩ := h
  refine ⟨passed ++ String.singleton ch, ?_, ?_⟩
  · rw [htext]
    simp
  · rw [String.utf8ByteSize_append, String.utf8ByteSize_singleton, hsize]

theorem in_skipFrom (p : Char → Bool) {offset : Nat} {cs : List Char}
    (h : Cursor.In text ⟨offset, cs⟩) : (skipFrom p offset cs).In text := by
  induction cs generalizing offset with
  | nil => exact h
  | cons ch cs ih =>
    rw [skipFrom]
    split
    · exact ih (in_cons h)
    · exact h

theorem Cursor.In.skip {c : Cursor} (h : c.In text) (p : Char → Bool) : (c.skip p).In text :=
  in_skipFrom p h

/-- A mark takes one byte. -/
theorem Cursor.In.step {c : Cursor} (h : c.In text) {ch : Char} {rest : List Char}
    (hrest : c.rest = ch :: rest) (hsize : ch.utf8Size = 1) : c.step.In text := by
  obtain ⟨offset, cs⟩ := c
  obtain rfl : cs = ch :: rest := hrest
  have hin := in_cons h
  rwa [hsize] at hin

/-! ## Errors -/

/-- An error that names a place tells what stands there: the character it names, or something that
is no white space. -/
def Located (text : String) : SyntaxError → Prop
  | .unexpectedChar ch offset => Text.StartsAt text offset ch
  | .trailingInput offset => ∃ ch, Text.StartsAt text offset ch ∧ Text.isBlank ch = false
  | .unexpectedEnd _ => True
  | .parameterCount _ _ _ => True

/-- An outcome of reading from a text: the cursor stands in the text, or the error is located. -/
structure Stays {α : Type} (text : String) (r : Except SyntaxError (α × Cursor)) : Prop where
  /-- The cursor after reading stands in the text. -/
  cursor : ∀ a c, r = .ok (a, c) → c.In text
  /-- The error tells a true place. -/
  error : ∀ e, r = .error e → Located text e

section

variable {α β : Type}

theorem stays_ok {c : Cursor} (a : α) (hc : c.In text) :
    Stays text (.ok (a, c) : Except SyntaxError (α × Cursor)) where
  cursor _ _ h := by
    obtain ⟨-, rfl⟩ := Prod.mk.inj (Except.ok.inj h)
    exact hc
  error _ h := nomatch h

theorem stays_error {e : SyntaxError} (he : Located text e) :
    Stays text (.error e : Except SyntaxError (α × Cursor)) where
  cursor _ _ h := nomatch h
  error _ h := by
    obtain rfl := Except.error.inj h
    exact he

/-- Reading goes on from where the cursor stands. -/
theorem Stays.bind {r : Except SyntaxError (α × Cursor)}
    {f : α × Cursor → Except SyntaxError (β × Cursor)} (hr : Stays text r)
    (hf : ∀ a c, c.In text → Stays text (f (a, c))) : Stays text (r >>= f) := by
  cases r with
  | error e => exact stays_error (hr.error e rfl)
  | ok x => exact hf x.1 x.2 (hr.cursor x.1 x.2 rfl)

end

theorem stays_readName {c : Cursor} (h : c.In text) : Stays text (readName c) := by
  have hstart := h.skip Text.isBlank
  unfold readName
  dsimp only
  split
  · split
    · next hrest => exact stays_error (hstart.startsAt hrest)
    · exact stays_error trivial
  · exact stays_ok _ (hstart.skip isNameChar)

section

variable {read : Cursor → Except SyntaxError (Ty × Cursor)}

theorem stays_readMore (hread : ∀ c, c.In text → Stays text (read c)) {fuel : Nat} {c : Cursor}
    (h : c.In text) : Stays text (readMore read fuel c) := by
  induction fuel generalizing c with
  | zero => exact stays_error trivial
  | succ fuel ih =>
    have hnext := h.skip Text.isBlank
    rw [readMore]
    dsimp only
    split
    · exact stays_error trivial
    next ch tail hrest =>
    split
    · next hclose => exact stays_ok _ (hnext.step hrest (hclose ▸ by decide))
    split
    · next hcomma =>
      refine (hread _ (hnext.step hrest (hcomma ▸ by decide))).bind fun t c₁ h₁ => ?_
      exact (ih h₁).bind fun ts c₂ h₂ => stays_ok _ h₂
    · exact stays_error (hnext.startsAt hrest)

theorem stays_readParams (hread : ∀ c, c.In text → Stays text (read c)) {c : Cursor}
    (h : c.In text) : Stays text (readParams read c) := by
  have hnext := h.skip Text.isBlank
  unfold readParams
  dsimp only
  split
  · next hopen =>
    obtain ⟨tail, hrest⟩ := List.head?_eq_some_iff.mp hopen
    refine (hread _ (hnext.step hrest (by decide))).bind fun t c₁ h₁ => ?_
    exact (stays_readMore hread h₁).bind fun ts c₂ h₂ => stays_ok _ h₂
  · exact stays_ok _ hnext

end

theorem located_of_build {typeParams : List String} {name : String} {params : List Ty}
    {e : SyntaxError} (h : build typeParams name params = .error e) : Located text e := by
  rcases build_cases typeParams name params with ⟨-, t, hok⟩ | ⟨-, expected, herror⟩
  · rw [hok] at h
    cases h
  · rw [herror] at h
    obtain rfl := Except.error.inj h
    trivial

/-- **The reader stays in the text**, and its errors tell true places. -/
theorem stays_readType (typeParams : List String) (fuel : Nat) {c : Cursor} (h : c.In text) :
    Stays text (readType typeParams fuel c) := by
  induction fuel generalizing c with
  | zero => exact stays_error trivial
  | succ fuel ih =>
    rw [readType]
    refine (stays_readName h).bind fun name c₁ h₁ => ?_
    refine (stays_readParams (fun _ => ih) h₁).bind fun params c₂ h₂ => ?_
    dsimp only
    cases hbuild : build typeParams name params with
    | error e => exact stays_error (located_of_build hbuild)
    | ok t => exact stays_ok t h₂

end Parsing

open Parsing

theorem located_of_parse {text : String} {typeParams : List String} {e : SyntaxError}
    (h : parse text typeParams = .error e) : Located text e := by
  have hstays := stays_readType typeParams (text.toList.length + 1) (in_start text)
  unfold parse at h
  dsimp only at h
  cases hread : readType typeParams (text.toList.length + 1) ⟨0, text.toList⟩ with
  | error e' =>
    rw [hread] at h hstays
    obtain rfl := Except.error.inj h
    exact hstays.error e' rfl
  | ok x =>
    obtain ⟨t, c⟩ := x
    rw [hread] at h hstays
    have hc := (hstays.cursor t c rfl).skip Text.isBlank
    dsimp only [bind, Except.bind] at h
    split at h
    · cases h
    · -- what is left after skipping white space starts with something else
      next hne =>
      obtain rfl := Except.error.inj h
      obtain ⟨ch, tail, hrest⟩ := List.exists_cons_of_ne_nil hne
      have hblank := List.head?_dropWhile_not Text.isBlank c.rest
      rw [← rest_skip, hrest] at hblank
      exact ⟨ch, hc.startsAt hrest, hblank⟩

/-- **The texts that are read as types are those of the grammar, and errors tell true places**: an
unexpected character stands where the error says, and so does something other than white space
after a type. -/
theorem parse_grammar_and_places (text : String) (typeParams : List String) :
    ((∃ t, parse text typeParams = .ok t) ↔
      ∃ blanks, Reads .type text.toList blanks ∧ Blanks blanks) ∧
    (∀ ch offset, parse text typeParams = .error (.unexpectedChar ch offset) →
      Text.StartsAt text offset ch) ∧
    (∀ offset, parse text typeParams = .error (.trailingInput offset) →
      offset < text.utf8ByteSize ∧
        ∃ ch, Text.StartsAt text offset ch ∧ Text.isBlank ch = false) := by
  refine ⟨exists_parse_eq_ok_iff, fun ch offset h => located_of_parse h, fun offset h => ?_⟩
  obtain ⟨ch, hch, hblank⟩ := located_of_parse h
  exact ⟨hch.lt, ch, hch, hblank⟩

/-- Characters of several bytes count as such. -/
example : parse " größe ( maß ) ¡" [] = .error (.trailingInput 18) ∧
    parse "map(größe, ¡)" [] = .error (.unexpectedChar '¡' 13) :=
  ⟨rfl, rfl⟩

end Ty
end CelTyping
