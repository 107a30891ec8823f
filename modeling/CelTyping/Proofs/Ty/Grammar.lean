import CelTyping.Proofs.Sequences
import CelTyping.Ty.Parsing
import Mathlib.Data.List.DropRight

/-!
# The grammar of written types

The reader of types walks over a text with a cursor.  Here its language is given a second time, as
a relation between texts and types that knows of no cursor, no bound and no order of reading.

    type   ::=  blank* name (blank* '(' type (blank* ',' type)* blank* ')')?

`Spelled typeParams text t` says that a text is spelled by this rule and stands for the type `t`.
It does not include the white space after a type, which belongs to what follows.

* `spelled_of_readType`: what the reader takes from a text is spelled by the rule.
* `readType_of_spelled`: the reader takes a text that is spelled by the rule, if what follows cannot
  be part of it.
* `parse_eq_ok_iff`: a text is read as a type exactly when it is spelled by the rule, up to white
  space at its end.

That the two agree rests on three classes of characters being apart: white space, the characters of
names, and the three marks `(`, `,` and `)`.
-/

namespace CelTyping

/-! ## Characters -/

namespace Text

/-- The code points of the set with the given boundaries. -/
def codePoints : List Nat → List Nat
  | a :: b :: rest => List.range' a (b - a) ++ codePoints rest
  | _ => []

theorem mem_codePoints {n : Nat} : ∀ {bs : List Nat}, bs.length % 2 = 0 →
    withinBoundaries bs n = true → n ∈ codePoints bs
  | [], _, h => absurd h (by simp [withinBoundaries])
  | [_], hlength, _ => absurd hlength (by simp)
  | a :: b :: rest, hlength, h => by
    rw [codePoints, List.mem_append, List.mem_range'_1]
    rw [withinBoundaries, withinBoundaries] at h
    split at h
    · exact absurd h Bool.false_ne_true
    · split at h
      · exact Or.inl (by omega)
      · rw [Bool.not_not] at h
        exact Or.inr (mem_codePoints (by simp only [List.length_cons] at hlength; omega) h)

end Text

namespace Ty
namespace Parsing

/-- White space is no part of a name. -/
theorem isNameChar_of_isBlank {ch : Char} (h : Text.isBlank ch = true) :
    isNameChar ch = false := by
  have hall : ∀ n ∈ Text.codePoints Text.blankBoundaries, isNameChar (Char.ofNat n) = false := by
    decide +kernel
  have hmem := Text.mem_codePoints (by decide) h
  rw [← Char.ofNat_toNat ch]
  exact hall ch.toNat hmem

theorem isBlank_of_isNameChar {ch : Char} (h : isNameChar ch = true) :
    Text.isBlank ch = false := by
  cases hblank : Text.isBlank ch with
  | false => rfl
  | true => exact absurd h (by simp [isNameChar_of_isBlank hblank])

/-- A list of white space. -/
def Blanks (cs : List Char) : Prop := ∀ ch ∈ cs, Text.isBlank ch = true

/-- A list of characters that make up a name. -/
def IsName (cs : List Char) : Prop := cs ≠ [] ∧ ∀ ch ∈ cs, isNameChar ch = true

instance (cs : List Char) : Decidable (Blanks cs) :=
  decidable_of_iff (cs.all Text.isBlank = true) List.all_eq_true

instance (cs : List Char) : Decidable (IsName cs) :=
  decidable_of_iff (cs ≠ [] ∧ cs.all isNameChar = true) (and_congr_right' List.all_eq_true)

theorem blanks_nil : Blanks [] := fun _ h => absurd h List.not_mem_nil

theorem Blanks.append {as bs : List Char} (ha : Blanks as) (hb : Blanks bs) : Blanks (as ++ bs) :=
  fun ch h => (List.mem_append.mp h).elim (ha ch) (hb ch)

/-! ## The rule -/

/-- A parameter as it is written, and the white space after it. -/
structure Argument where
  /-- The type. -/
  type : Ty
  /-- The text that stands for it. -/
  written : List Char
  /-- The white space between this text and the next mark. -/
  blanks : List Char

/-- What follows the first parameter: the others, each after a comma, and the closing
parenthesis. -/
def further : List Argument → List Char
  | [] => [')']
  | a :: rest => ',' :: (a.written ++ (a.blanks ++ further rest))

/-- A text is spelled as a type and stands for it. -/
inductive Spelled (typeParams : List String) : List Char → Ty → Prop where
  /-- A name alone. -/
  | bare {blanks name : List Char} {t : Ty} (hblanks : Blanks blanks) (hname : IsName name)
      (ht : build typeParams (String.ofList name) [] = .ok t) :
      Spelled typeParams (blanks ++ name) t
  /-- A name with parameters. -/
  | applied {blanks name gap : List Char} {first : Argument} {rest : List Argument} {t : Ty}
      (hblanks : Blanks blanks) (hname : IsName name) (hgap : Blanks gap)
      (hwritten : ∀ a ∈ first :: rest, Spelled typeParams a.written a.type)
      (hafter : ∀ a ∈ first :: rest, Blanks a.blanks)
      (ht : build typeParams (String.ofList name) ((first :: rest).map Argument.type) = .ok t) :
      Spelled typeParams
        (blanks ++ (name ++ (gap ++ '(' :: (first.written ++ (first.blanks ++ further rest))))) t

/-- White space in front of a type belongs to it. -/
theorem Spelled.blanks_append {typeParams : List String} {bs cs : List Char} {t : Ty}
    (h : Spelled typeParams cs t) (hbs : Blanks bs) : Spelled typeParams (bs ++ cs) t := by
  cases h with
  | bare hblanks hname ht =>
    rw [← List.append_assoc]
    exact .bare (hbs.append hblanks) hname ht
  | applied hblanks hname hgap hwritten hafter ht =>
    rw [← List.append_assoc]
    exact .applied (hbs.append hblanks) hname hgap hwritten hafter ht

/-! ## Moving the cursor -/

theorem rest_skipFrom (p : Char → Bool) (offset : Nat) (cs : List Char) :
    (skipFrom p offset cs).rest = cs.dropWhile p := by
  induction cs generalizing offset with
  | nil => rfl
  | cons ch cs ih =>
    rw [skipFrom, List.dropWhile_cons]
    split
    · exact ih _
    · rfl

theorem rest_skip (p : Char → Bool) (c : Cursor) :
    (c.skip p).rest = c.rest.dropWhile p :=
  rest_skipFrom p c.offset c.rest

theorem rest_step (c : Cursor) : c.step.rest = c.rest.tail := rfl

theorem blanks_takeWhile (cs : List Char) : Blanks (cs.takeWhile Text.isBlank) :=
  fun _ => List.mem_takeWhile_imp

/-- White space in front makes no difference after skipping it. -/
theorem Blanks.dropWhile_append {bs : List Char} (h : Blanks bs) (cs : List Char) :
    (bs ++ cs).dropWhile Text.isBlank = cs.dropWhile Text.isBlank :=
  List.dropWhile_append_of_pos h

/-! ## Reading -/

theorem name_of_readName {c c' : Cursor} {name : String} (h : readName c = .ok (name, c')) :
    ∃ blanks cs, Blanks blanks ∧ IsName cs ∧ name = String.ofList cs ∧
      c.rest = blanks ++ (cs ++ c'.rest) := by
  unfold readName at h
  dsimp only at h
  split at h
  · split at h <;> exact absurd h (by simp)
  · next cs hne =>
    obtain ⟨rfl, rfl⟩ := Prod.mk.inj (Except.ok.inj h)
    refine ⟨c.rest.takeWhile Text.isBlank, _, blanks_takeWhile _,
      ⟨hne, fun ch => List.mem_takeWhile_imp⟩, rfl, ?_⟩
    rw [rest_skip isNameChar, List.takeWhile_append_dropWhile, rest_skip,
      List.takeWhile_append_dropWhile]

section

variable {typeParams : List String} {read : Cursor → Except SyntaxError (Ty × Cursor)}

/-- The reader of a type takes what is spelled as one, and perhaps white space after it. -/
def Sound (typeParams : List String) (read : Cursor → Except SyntaxError (Ty × Cursor)) : Prop :=
  ∀ {c c' : Cursor} {t : Ty}, read c = .ok (t, c') → ∃ written blanks,
    Spelled typeParams written t ∧ Blanks blanks ∧ c.rest = written ++ (blanks ++ c'.rest)

theorem further_of_readMore (hread : Sound typeParams read) {fuel : Nat} {c c' : Cursor}
    {ts : List Ty} (h : readMore read fuel c = .ok (ts, c')) :
    ∃ blanks args, Blanks blanks ∧ (∀ a ∈ args, Spelled typeParams a.written a.type) ∧
      (∀ a ∈ args, Blanks a.blanks) ∧ ts = args.map Argument.type ∧
      c.rest = blanks ++ (further args ++ c'.rest) := by
  induction fuel generalizing c ts with
  | zero => exact absurd h (by simp [readMore])
  | succ fuel ih =>
    rw [readMore] at h
    dsimp only at h
    split at h
    · exact absurd h (by simp)
    next ch tail hrest =>
    have hsplit : c.rest = c.rest.takeWhile Text.isBlank ++ ch :: tail := by
      rw [← hrest, rest_skip, List.takeWhile_append_dropWhile]
    split at h
    · next hclose =>
      obtain ⟨rfl, rfl⟩ := Prod.mk.inj (Except.ok.inj h)
      refine ⟨_, [], blanks_takeWhile c.rest, by simp, by simp, rfl, ?_⟩
      rw [rest_step, hrest, List.tail_cons, further, ← hclose]
      exact hsplit
    · split at h
      · next hcomma =>
        obtain ⟨⟨t, c₁⟩, hfirst, h⟩ := bind_eq_ok_iff.mp h
        obtain ⟨⟨more, c₂⟩, hmore, h⟩ := bind_eq_ok_iff.mp h
        obtain ⟨rfl, rfl⟩ := Prod.mk.inj (Except.ok.inj h)
        obtain ⟨written, after, hwritten, hafter, hrest₁⟩ := hread hfirst
        obtain ⟨before, args, hbefore, hargs, hblanks, rfl, hrest₂⟩ := ih hmore
        -- the white space on both sides of the place where the first reader stopped
        refine ⟨_, ⟨t, written, after ++ before⟩ :: args, blanks_takeWhile c.rest,
          List.forall_mem_cons.mpr ⟨hwritten, hargs⟩,
          List.forall_mem_cons.mpr ⟨hafter.append hbefore, hblanks⟩, rfl, ?_⟩
        rw [rest_step, hrest, List.tail_cons] at hrest₁
        rw [hcomma, hrest₁, hrest₂] at hsplit
        simpa [further] using hsplit
      · exact absurd h (by simp)

theorem spelled_of_readParams (hread : Sound typeParams read) {c c' : Cursor}
    {ts : List Ty} (h : readParams read c = .ok (ts, c')) {blanks name : List Char}
    (hblanks : Blanks blanks) (hname : IsName name) {t : Ty}
    (ht : build typeParams (String.ofList name) ts = .ok t) :
    ∃ written after, Spelled typeParams written t ∧ Blanks after ∧
      blanks ++ (name ++ c.rest) = written ++ (after ++ c'.rest) := by
  unfold readParams at h
  dsimp only at h
  split at h
  · next hopen =>
    obtain ⟨⟨first, c₁⟩, hfirst, h⟩ := bind_eq_ok_iff.mp h
    obtain ⟨⟨more, c₂⟩, hmore, h⟩ := bind_eq_ok_iff.mp h
    obtain ⟨rfl, rfl⟩ := Prod.mk.inj (Except.ok.inj h)
    obtain ⟨written, after, hwritten, hafter, hrest₁⟩ := hread hfirst
    obtain ⟨before, args, hbefore, hargs, hblanks', rfl, hrest₂⟩ := further_of_readMore hread hmore
    obtain ⟨tail, htail⟩ := List.head?_eq_some_iff.mp hopen
    have hspelled := @Spelled.applied typeParams blanks name _
      ⟨first, written, after ++ before⟩ args t hblanks hname (blanks_takeWhile c.rest)
      (List.forall_mem_cons.mpr ⟨hwritten, hargs⟩)
      (List.forall_mem_cons.mpr ⟨hafter.append hbefore, hblanks'⟩) ht
    refine ⟨_, [], hspelled, blanks_nil, ?_⟩
    rw [rest_step, htail, List.tail_cons] at hrest₁
    have hsplit : c.rest = c.rest.takeWhile Text.isBlank ++ '(' :: tail := by
      rw [← htail, rest_skip, List.takeWhile_append_dropWhile]
    rw [hrest₁, hrest₂] at hsplit
    simpa using hsplit
  · obtain ⟨rfl, rfl⟩ := Prod.mk.inj (Except.ok.inj h)
    refine ⟨_, c.rest.takeWhile Text.isBlank, .bare hblanks hname ht, blanks_takeWhile _, ?_⟩
    rw [rest_skip, List.takeWhile_append_dropWhile, List.append_assoc]

/-- **What the reader takes is spelled by the rule.** -/
theorem spelled_of_readType (fuel : Nat) : Sound typeParams (readType typeParams fuel) := by
  induction fuel with
  | zero => exact fun h => absurd h (by simp [readType])
  | succ fuel ih =>
    intro c c' t h
    rw [readType] at h
    obtain ⟨⟨name, c₁⟩, hname, h⟩ := bind_eq_ok_iff.mp h
    obtain ⟨⟨params, c₂⟩, hparams, h⟩ := bind_eq_ok_iff.mp h
    obtain ⟨t', hbuild, h⟩ := bind_eq_ok_iff.mp h
    obtain ⟨rfl, rfl⟩ := Prod.mk.inj (Except.ok.inj h)
    obtain ⟨blanks, cs, hblanks, hcs, rfl, hrest⟩ := name_of_readName hname
    rw [hrest]
    exact spelled_of_readParams ih hparams hblanks hcs hbuild

end

/-! ## What follows a type -/

/-- After white space a text has ended or goes on with a mark that closes a parameter. -/
def Ends (cs : List Char) : Prop :=
  ∀ ch ∈ (cs.dropWhile Text.isBlank).head?, ch = ',' ∨ ch = ')'

theorem ends_of_blanks {bs : List Char} (h : Blanks bs) : Ends bs := by
  have hnil : bs.dropWhile Text.isBlank = [] := List.dropWhile_eq_nil_iff.mpr h
  simp [Ends, hnil]

/-- The parameters that are left start with a mark. -/
theorem dropWhile_further (args : List Argument) (cs : List Char) :
    (further args ++ cs).dropWhile Text.isBlank = further args ++ cs := by
  cases args <;> rfl

theorem ends_further {bs : List Char} (h : Blanks bs) (args : List Argument) (cs : List Char) :
    Ends (bs ++ (further args ++ cs)) := by
  unfold Ends
  rw [h.dropWhile_append, dropWhile_further]
  cases args <;> simp [further]

theorem Ends.isNameChar {cs : List Char} (h : Ends cs) {ch : Char} (hch : ch ∈ cs.head?) :
    isNameChar ch = false := by
  obtain ⟨tail, rfl⟩ := List.head?_eq_some_iff.mp hch
  cases hblank : Text.isBlank ch with
  | true => exact isNameChar_of_isBlank hblank
  | false =>
    rcases h ch (by simp [hblank]) with rfl | rfl
    · decide
    · decide

theorem Ends.head?_ne {cs : List Char} (h : Ends cs) :
    (cs.dropWhile Text.isBlank).head? ≠ some '(' := by
  intro hopen
  exact absurd (h '(' hopen) (by decide)

/-- No name goes on at an opening parenthesis or at white space before it. -/
theorem isNameChar_of_gap {gap cs : List Char} (hgap : Blanks gap) {ch : Char}
    (hch : ch ∈ (gap ++ '(' :: cs).head?) : isNameChar ch = false := by
  cases gap with
  | nil =>
    obtain rfl : '(' = ch := Option.some.inj hch
    decide
  | cons b gap =>
    obtain rfl : b = ch := Option.some.inj hch
    exact isNameChar_of_isBlank (hgap b List.mem_cons_self)

/-- Every parameter that is left takes a character. -/
theorem length_lt_length_further (args : List Argument) : args.length < (further args).length := by
  induction args with
  | nil => simp [further]
  | cons a rest ih =>
    simp only [further, List.length_cons, List.length_append]
    omega

theorem length_written_lt {args : List Argument} {a : Argument} (ha : a ∈ args) :
    a.written.length < (further args).length := by
  induction args with
  | nil => exact absurd ha List.not_mem_nil
  | cons b rest ih =>
    simp only [further, List.length_cons, List.length_append]
    rcases List.mem_cons.mp ha with rfl | ha
    · omega
    · have hrest := ih ha
      omega

/-! ## Reading what is spelled -/

theorem readName_of_name {blanks name cs : List Char} (hblanks : Blanks blanks)
    (hname : IsName name) (hcs : ∀ ch ∈ cs.head?, isNameChar ch = false) {c : Cursor}
    (hc : c.rest = blanks ++ (name ++ cs)) :
    ∃ c', readName c = .ok (String.ofList name, c') ∧ c'.rest = cs := by
  have hstart : (c.skip Text.isBlank).rest = name ++ cs := by
    rw [rest_skip, hc, hblanks.dropWhile_append]
    obtain ⟨ch, tail, rfl⟩ := List.exists_cons_of_ne_nil hname.1
    simp [isBlank_of_isNameChar (hname.2 ch List.mem_cons_self)]
  have hstop : cs.takeWhile isNameChar = [] ∧ cs.dropWhile isNameChar = cs := by
    cases cs with
    | nil => exact ⟨rfl, rfl⟩
    | cons ch tail => simp [hcs ch rfl]
  have htake : (name ++ cs).takeWhile isNameChar = name := by
    rw [List.takeWhile_append_of_pos hname.2, hstop.1, List.append_nil]
  refine ⟨(c.skip Text.isBlank).skip isNameChar, ?_, ?_⟩
  · unfold readName
    dsimp only
    rw [hstart, htake]
    split
    · exact absurd rfl hname.1
    · rfl
  · rw [rest_skip, hstart, List.dropWhile_append_of_pos hname.2, hstop.2]

section

variable {typeParams : List String} {read : Cursor → Except SyntaxError (Ty × Cursor)}

/-- The reader of a type takes a text for a type wherever it stands, up to white space after it. -/
def Takes (read : Cursor → Except SyntaxError (Ty × Cursor)) (written : List Char) (t : Ty) :
    Prop :=
  ∀ (c : Cursor) (cs : List Char), c.rest = written ++ cs → Ends cs →
    ∃ c', read c = .ok (t, c') ∧ c'.rest.dropWhile Text.isBlank = cs.dropWhile Text.isBlank

theorem readMore_of_further {args : List Argument}
    (htakes : ∀ a ∈ args, Takes read a.written a.type) (hblanks : ∀ a ∈ args, Blanks a.blanks)
    {fuel : Nat} (hfuel : args.length < fuel) {c : Cursor} {cs : List Char}
    (hc : c.rest.dropWhile Text.isBlank = further args ++ cs) :
    ∃ c', readMore read fuel c = .ok (args.map Argument.type, c') ∧ c'.rest = cs := by
  rw [← rest_skip] at hc
  induction args generalizing fuel c with
  | nil =>
    obtain ⟨fuel, rfl⟩ := Nat.exists_eq_add_one_of_ne_zero (Nat.ne_of_gt hfuel)
    rw [further, List.singleton_append] at hc
    refine ⟨(c.skip Text.isBlank).step, ?_, by rw [rest_step, hc, List.tail_cons]⟩
    rw [readMore]
    simp only [hc, ↓reduceIte, List.map_nil]
  | cons a rest ih =>
    obtain ⟨fuel, rfl⟩ := Nat.exists_eq_add_one_of_ne_zero (Nat.ne_of_gt (Nat.zero_lt_of_lt hfuel))
    obtain ⟨ha, hrest⟩ := List.forall_mem_cons.mp htakes
    obtain ⟨hafter, hblanks⟩ := List.forall_mem_cons.mp hblanks
    rw [further, List.cons_append, List.append_assoc, List.append_assoc] at hc
    obtain ⟨c₁, hread, hc₁⟩ := ha (c.skip Text.isBlank).step _ (by rw [rest_step, hc]; rfl)
      (ends_further hafter rest cs)
    rw [hafter.dropWhile_append, dropWhile_further, ← rest_skip] at hc₁
    obtain ⟨c₂, hmore, hc₂⟩ := ih hrest hblanks (Nat.lt_of_succ_lt_succ hfuel) hc₁
    refine ⟨c₂, ?_, hc₂⟩
    rw [readMore]
    simp [hc, hread, hmore, bind, Except.bind, pure, Except.pure]

theorem readParams_of_spelled {first : Argument} {rest : List Argument}
    (htakes : ∀ a ∈ first :: rest, Takes read a.written a.type)
    (hafter : ∀ a ∈ first :: rest, Blanks a.blanks) {gap : List Char} (hgap : Blanks gap)
    {c : Cursor} {cs : List Char}
    (hc : c.rest = gap ++ '(' :: (first.written ++ (first.blanks ++ (further rest ++ cs)))) :
    ∃ c', readParams read c = .ok ((first :: rest).map Argument.type, c') ∧ c'.rest = cs := by
  obtain ⟨hfirst, hrest⟩ := List.forall_mem_cons.mp htakes
  obtain ⟨hblanks, hothers⟩ := List.forall_mem_cons.mp hafter
  have hopen : (c.skip Text.isBlank).rest =
      '(' :: (first.written ++ (first.blanks ++ (further rest ++ cs))) := by
    rw [rest_skip, hc, hgap.dropWhile_append]
    rfl
  obtain ⟨c₁, hread, hc₁⟩ := hfirst (c.skip Text.isBlank).step _ (by rw [rest_step, hopen]; rfl)
    (ends_further hblanks rest cs)
  rw [hblanks.dropWhile_append, dropWhile_further] at hc₁
  -- the bound is the number of characters left, of which every parameter takes one
  have hfuel : rest.length < c₁.rest.length + 1 := by
    have hlength := length_lt_length_further rest
    have hdrop := (List.dropWhile_suffix (p := Text.isBlank) (l := c₁.rest)).length_le
    rw [hc₁, List.length_append] at hdrop
    omega
  obtain ⟨c₂, hmore, hc₂⟩ := readMore_of_further hrest hothers hfuel hc₁
  refine ⟨c₂, ?_, hc₂⟩
  unfold readParams
  simp [hopen, hread, hmore, bind, Except.bind, pure, Except.pure]

theorem readParams_of_ends {c : Cursor} (h : Ends c.rest) :
    readParams read c = .ok ([], c.skip Text.isBlank) := by
  unfold readParams
  dsimp only
  rw [if_neg (by rw [rest_skip]; exact h.head?_ne)]

/-- **The reader takes what is spelled by the rule**, given as much fuel as there are characters. -/
theorem readType_of_spelled {written : List Char} {t : Ty} (h : Spelled typeParams written t)
    {fuel : Nat} (hfuel : written.length < fuel) : Takes (readType typeParams fuel) written t := by
  induction h generalizing fuel with
  | bare hblanks hname ht =>
    -- looking for an opening parenthesis, the reader takes the white space after the name
    intro c cs hc hends
    obtain ⟨fuel, rfl⟩ := Nat.exists_eq_add_one_of_ne_zero (Nat.ne_of_gt (Nat.zero_lt_of_lt hfuel))
    rw [List.append_assoc] at hc
    obtain ⟨c₁, hread, rfl⟩ := readName_of_name hblanks hname (fun _ => hends.isNameChar) hc
    refine ⟨c₁.skip Text.isBlank, ?_, by rw [rest_skip, List.dropWhile_idempotent]⟩
    rw [readType]
    simp [hread, readParams_of_ends hends, ht, bind, Except.bind, pure, Except.pure]
  | @applied blanks name gap first rest t hblanks hname hgap hwritten hafter ht ih =>
    intro c cs hc hends
    obtain ⟨fuel, rfl⟩ := Nat.exists_eq_add_one_of_ne_zero (Nat.ne_of_gt (Nat.zero_lt_of_lt hfuel))
    have htakes : ∀ a ∈ first :: rest, Takes (readType typeParams fuel) a.written a.type := by
      intro a ha
      refine ih a ha ?_
      simp only [List.length_append, List.length_cons] at hfuel
      rcases List.mem_cons.mp ha with rfl | ha
      · omega
      · have hlength := length_written_lt ha
        omega
    simp only [List.append_assoc, List.cons_append] at hc
    obtain ⟨c₁, hread, hc₁⟩ := readName_of_name hblanks hname (fun _ => isNameChar_of_gap hgap) hc
    obtain ⟨c₂, hparams, rfl⟩ := readParams_of_spelled htakes hafter hgap hc₁
    refine ⟨c₂, ?_, rfl⟩
    rw [readType]
    simp only [hread, hparams, ht, bind, Except.bind, pure, Except.pure]

end

end Parsing

open Parsing

/-- **A text is read as a type exactly when it is spelled as one**, up to white space at its end. -/
theorem parse_eq_ok_iff {text : String} {typeParams : List String} {t : Ty} :
    parse text typeParams = .ok t ↔ ∃ written blanks,
      Spelled typeParams written t ∧ Blanks blanks ∧ text.toList = written ++ blanks := by
  unfold parse
  dsimp only
  constructor
  · intro h
    obtain ⟨⟨t', c⟩, hread, h⟩ := bind_eq_ok_iff.mp h
    obtain ⟨written, blanks, hwritten, hblanks, htext⟩ := spelled_of_readType _ hread
    dsimp only at h
    split at h
    · next hrest =>
      rw [rest_skip, List.dropWhile_eq_nil_iff] at hrest
      obtain rfl : t' = t := Except.ok.inj h
      exact ⟨written, blanks ++ c.rest, hwritten, hblanks.append hrest, htext⟩
    · exact absurd h (by simp)
  · rintro ⟨written, blanks, hwritten, hblanks, htext⟩
    have hfuel : written.length < text.toList.length + 1 := by
      rw [htext, List.length_append]
      omega
    obtain ⟨c, hread, hc⟩ := readType_of_spelled hwritten hfuel ⟨0, text.toList⟩ blanks htext
      (ends_of_blanks hblanks)
    rw [List.dropWhile_eq_nil_iff.mpr hblanks, ← rest_skip] at hc
    simp [hread, hc, bind, Except.bind, pure, Except.pure]

end Ty
end CelTyping
