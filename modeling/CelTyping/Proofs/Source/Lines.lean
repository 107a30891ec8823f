import CelTyping.Diagnostic.Rendering
import CelTyping.Proofs.Text.Utf8Order
import Mathlib.Data.List.Basic
import Mathlib.Data.Prod.Lex

/-!
# Lines and columns

The line and column of an offset are found twice.  A source keeps the offsets at which lines begin
and walks along them; a diagnostic is shown with the lines of its file, by a locator that cuts the
file after every newline and counts characters (`Locator.Counts`).  Both are compared with the
newlines of the text: where these stand among its bytes, and which of them come before the offset
(`Text.newlinesBefore`).

A newline is one byte, and this byte is part of no other character, so the newlines among the
characters are the newlines among the bytes (`lineOffsetsFrom_eq`).

* `Source.locate_ofText`: the line of an offset counts the newlines before it, and the column counts
  from the last of these, in 64 bits.
* `Source.toNat_column_locate`: 64 bits are enough for the column (`Text.ColumnFits`), unless the
  offset is the greatest number of 64 bits and on the first line (`Source.column_begins_again`).
* `Source.locate_lt_locate`: later offsets have later places.
* `SourceFile.locate_eq`: cutting the text into lines gives the same place, if all characters take
  one byte and the offset is in the text or at its end.

The line is the same for all texts (`SourceFile.lineAt_spec`); the column is not, as one counts
bytes and the other characters.
-/

namespace CelTyping

/-! ## Newlines among bytes -/

namespace Text

/-- The offsets of the newlines of a text that stand before an offset, in order. -/
def newlinesBefore (text : String) (offset : Nat) : List Nat :=
  ((utf8 text).idxsOf 10).filter (· < offset)

/-- The offset just after the last newline before an offset, or the start of the text. -/
def lineStart (text : String) (offset : Nat) : Nat :=
  ((newlinesBefore text offset).getLast?.map (· + 1)).getD 0

/-- Whether all characters of a text are ASCII characters. -/
def isAscii (text : String) : Bool := text.toList.all (·.toNat < 128)

theorem le_toNat_of_mem_continuation {count n : Nat} {b : UInt8} (h : b ∈ continuation count n) :
    128 ≤ b.toNat := by
  induction count with
  | zero => exact absurd h List.not_mem_nil
  | succ count ih =>
    rw [continuation, List.mem_cons] at h
    rcases h with rfl | h
    · rw [UInt8.toNat_ofNat']
      omega
    · exact ih h

theorem le_toNat_of_mem_withLead {count width mark n : Nat} {b : UInt8} (hwidth : 0 < width)
    (hmark : width + mark ≤ 256) (hlead : 128 ≤ mark) (h : b ∈ withLead count width mark n) :
    128 ≤ b.toNat := by
  rw [withLead, List.mem_cons] at h
  rcases h with rfl | h
  · have hdigit := Nat.mod_lt (n / 64 ^ count) hwidth
    rw [UInt8.toNat_ofNat']
    omega
  · exact le_toNat_of_mem_continuation h

/-- The byte of the newline is part of no other character. -/
theorem newline_not_mem_utf8EncodeChar {c : Char} (hc : c ≠ '\n') :
    10 ∉ String.utf8EncodeChar c := by
  have hsmall : ¬ 128 ≤ (10 : UInt8).toNat := by decide
  intro h
  rw [utf8EncodeChar_eq] at h
  split at h
  · next hone =>
    rw [withLead, continuation, List.mem_singleton, Nat.pow_zero, Nat.div_one, Nat.add_zero,
      Nat.mod_eq_of_lt (by omega)] at h
    have hten := congrArg UInt8.toNat h
    rw [UInt8.toNat_ofNat', Nat.mod_eq_of_lt (by omega)] at hten
    exact hc (Char.ext (UInt32.toNat_inj.mp hten.symm))
  split at h
  · exact hsmall (le_toNat_of_mem_withLead (by decide) (by decide) (by decide) h)
  split at h
  · exact hsmall (le_toNat_of_mem_withLead (by decide) (by decide) (by decide) h)
  · exact hsmall (le_toNat_of_mem_withLead (by decide) (by decide) (by decide) h)

theorem idxsOf_utf8EncodeChar (c : Char) (start : Nat) :
    (String.utf8EncodeChar c).idxsOf 10 start = if c = '\n' then [start] else [] := by
  split
  · next hc =>
    rw [hc]
    rfl
  · next hc =>
    refine List.idxsOf_eq_nil_iff.mpr fun b hb => beq_false_of_ne ?_
    rintro rfl
    exact newline_not_mem_utf8EncodeChar hc hb

theorem lt_of_mem_newlinesBefore {text : String} {offset i : Nat}
    (h : i ∈ newlinesBefore text offset) : i < offset := by
  simpa using (List.mem_filter.mp h).2

/-- No line starts after the offset it is the line of. -/
theorem lineStart_le (text : String) (offset : Nat) : lineStart text offset ≤ offset := by
  unfold lineStart
  cases hlast : (newlinesBefore text offset).getLast? with
  | none => exact Nat.zero_le _
  | some i => exact lt_of_mem_newlinesBefore (List.mem_of_getLast? hlast)

/-- Without a newline before it, an offset is on the line that starts with the text; otherwise the
line starts later. -/
theorem lineStart_pos {text : String} {offset : Nat} (h : newlinesBefore text offset ≠ []) :
    0 < lineStart text offset := by
  unfold lineStart
  rw [List.getLast?_eq_some_getLast h]
  exact Nat.succ_pos _

/-- The column of an offset takes no more than 64 bits: the offset is not the greatest number of 64
bits, or it is not on the first line. -/
def ColumnFits (text : String) (offset : UInt64) : Prop :=
  offset.toNat + 1 < 2 ^ 64 ∨ newlinesBefore text offset.toNat ≠ []

theorem ColumnFits.lt {text : String} {offset : UInt64} (h : ColumnFits text offset) :
    offset.toNat - lineStart text offset.toNat + 1 < 2 ^ 64 := by
  have hoffset := offset.toNat_lt
  rcases h with hlt | hnewline
  · omega
  · have hpos := lineStart_pos hnewline
    have hle := lineStart_le text offset.toNat
    omega

theorem ColumnFits.of_lt {text : String} {a b : UInt64} (h : a < b) : ColumnFits text a := by
  have hlt := UInt64.lt_iff_toNat_lt.mp h
  have hb := b.toNat_lt
  exact Or.inl (by omega)

end Text

/-! ## The place of an offset -/

namespace Source

/-- Lines begin just after the newlines. -/
theorem lineOffsetsFrom_eq (offset : Nat) (cs : List Char) : lineOffsetsFrom offset cs =
    ((cs.flatMap String.utf8EncodeChar).idxsOf 10 offset).map (· + 1) := by
  induction cs generalizing offset with
  | nil => rfl
  | cons c rest ih =>
    rw [lineOffsetsFrom, ih, List.flatMap_cons, List.idxsOf_append, List.map_append,
      Text.idxsOf_utf8EncodeChar, String.length_utf8EncodeChar]
    split
    · next hc =>
      rw [hc]
      rfl
    · rfl

/-- Walking along increasing offsets ends at the last that is not after the given one. -/
theorem lineFrom_eq (offset line start : Nat) {starts : List Nat} (h : starts.Pairwise (· < ·)) :
    lineFrom offset line start starts = (line + (starts.filter (· ≤ offset)).length,
      (starts.filter (· ≤ offset)).getLast?.getD start) := by
  induction starts generalizing line start with
  | nil => rfl
  | cons next rest ih =>
    obtain ⟨hlater, hrest⟩ := List.pairwise_cons.mp h
    rw [lineFrom]
    split
    · next hlt =>
      have hnone : (next :: rest).filter (· ≤ offset) = [] := by
        refine List.filter_eq_nil_iff.mpr fun s hs => ?_
        rcases List.mem_cons.mp hs with rfl | hs
        · simpa using hlt
        · simpa using Nat.lt_trans hlt (hlater s hs)
      rw [hnone]
      rfl
    · next hle =>
      rw [ih _ _ hrest, List.filter_cons_of_pos (by simpa using hle), List.length_cons,
        List.getLast?_cons, Option.getD_some]
      exact Prod.ext (by simp only; omega) rfl

/-- Walking along the starts of the lines of a text counts the newlines before an offset. -/
theorem lineFrom_ofText (text : String) (offset : Nat) :
    lineFrom offset 1 0 (lineOffsetsFrom 0 text.toList) =
      (1 + (Text.newlinesBefore text offset).length, Text.lineStart text offset) := by
  have hstarts : lineOffsetsFrom 0 text.toList = ((Text.utf8 text).idxsOf 10).map (· + 1) := by
    rw [Text.utf8_eq_flatMap]
    exact lineOffsetsFrom_eq 0 text.toList
  have hsorted : (((Text.utf8 text).idxsOf 10).map (· + 1)).Pairwise (· < ·) :=
    List.pairwise_map.mpr (List.pairwise_idxsOf.imp Nat.succ_lt_succ)
  have hbefore : (((Text.utf8 text).idxsOf 10).map (· + 1)).filter (· ≤ offset) =
      (Text.newlinesBefore text offset).map (· + 1) := by
    rw [List.filter_map]
    rfl
  rw [hstarts, lineFrom_eq offset 1 0 hsorted, hbefore, List.length_map, List.getLast?_map]
  rfl

/-- **The line of an offset counts the newlines before it, and the column counts from the last of
these.** -/
theorem locate_ofText (description text : String) (offset : UInt64) :
    (ofText description text).locate offset =
      ⟨offset, 1 + (Text.newlinesBefore text offset.toNat).length,
        offset - .ofNat (Text.lineStart text offset.toNat) + 1⟩ := by
  unfold locate ofText
  rw [lineFrom_ofText]

theorem line_locate (description text : String) (offset : UInt64) :
    ((ofText description text).locate offset).line =
      1 + (Text.newlinesBefore text offset.toNat).length := by
  rw [locate_ofText]

/-- The column is what it is among the natural numbers, where it fits. -/
theorem toNat_column_locate (description : String) {text : String} {offset : UInt64}
    (h : Text.ColumnFits text offset) : ((ofText description text).locate offset).column.toNat =
      offset.toNat - Text.lineStart text offset.toNat + 1 := by
  have hle := Text.lineStart_le text offset.toNat
  have hoffset := offset.toNat_lt
  have hstart : (UInt64.ofNat (Text.lineStart text offset.toNat)).toNat =
      Text.lineStart text offset.toNat := by
    rw [UInt64.toNat_ofNat']
    exact Nat.mod_eq_of_lt (by omega)
  rw [locate_ofText]
  dsimp only
  rw [UInt64.toNat_add, UInt64.toNat_sub_of_le _ _ (UInt64.le_iff_toNat_le.mpr (by omega)), hstart]
  exact Nat.mod_eq_of_lt h.lt

/-- **Later offsets have later places.** -/
theorem locate_lt_locate (description : String) {text : String} {a b : UInt64} (hab : a < b)
    (hb : Text.ColumnFits text b) :
    toLex (((ofText description text).locate a).line, ((ofText description text).locate a).column) <
      toLex (((ofText description text).locate b).line,
        ((ofText description text).locate b).column) := by
  have hlt := UInt64.lt_iff_toNat_lt.mp hab
  have hsub : (Text.newlinesBefore text a.toNat).Sublist (Text.newlinesBefore text b.toNat) := by
    refine List.monotone_filter_right _ fun i hi => ?_
    simp only [decide_eq_true_eq] at hi ⊢
    omega
  rw [Prod.Lex.toLex_lt_toLex]
  dsimp only
  rw [line_locate, line_locate, UInt64.lt_iff_toNat_lt, toNat_column_locate description hb,
    toNat_column_locate description (Text.ColumnFits.of_lt hab)]
  -- either a newline stands between the two offsets or they are on one line
  rcases Nat.lt_or_eq_of_le hsub.length_le with hlines | heq
  · exact Or.inl (Nat.add_lt_add_left hlines 1)
  · have hsame : Text.lineStart text a.toNat = Text.lineStart text b.toNat := by
      unfold Text.lineStart
      rw [hsub.eq_of_length heq]
    have hstart := Text.lineStart_le text a.toNat
    exact Or.inr ⟨congrArg (1 + ·) heq, by omega⟩

end Source

/-! ## The lines of a file -/

namespace SourceFile

theorem byteLength_eq_length (cs : List Char) :
    byteLength cs = (cs.flatMap String.utf8EncodeChar).length := by
  induction cs with
  | nil => rfl
  | cons c rest ih =>
    rw [byteLength, ih, List.flatMap_cons, List.length_append, String.length_utf8EncodeChar]

theorem byteLength_toList (text : String) : byteLength text.toList = text.utf8ByteSize := by
  rw [byteLength_eq_length, ← Text.utf8_eq_flatMap]
  rfl

theorem byteLength_append (as bs : List Char) :
    byteLength (as ++ bs) = byteLength as + byteLength bs := by
  rw [byteLength_eq_length, List.flatMap_append, List.length_append, ← byteLength_eq_length,
    ← byteLength_eq_length]

/-- A character that is no newline stands at the start of the first line. -/
theorem splitLines_cons {c : Char} {rest line : List Char} {lines : List (List Char)}
    (hc : c ≠ '\n') (h : splitLines rest = line :: lines) :
    splitLines (c :: rest) = (c :: line) :: lines := by
  rw [splitLines, if_neg hc, h]

/-- There is always a first line. -/
theorem exists_splitLines (cs : List Char) : ∃ line lines, splitLines cs = line :: lines := by
  induction cs with
  | nil => exact ⟨[], [], rfl⟩
  | cons c rest ih =>
    obtain ⟨line, lines, h⟩ := ih
    by_cases hc : c = '\n'
    · exact ⟨[c], splitLines rest, by rw [splitLines, if_pos hc]⟩
    · exact ⟨c :: line, lines, splitLines_cons hc h⟩

/-- The lines read the text. -/
theorem flatten_splitLines (cs : List Char) : (splitLines cs).flatten = cs := by
  induction cs with
  | nil => rfl
  | cons c rest ih =>
    by_cases hc : c = '\n'
    · rw [splitLines, if_pos hc, List.flatten_cons, ih, List.singleton_append]
    · obtain ⟨line, lines, h⟩ := exists_splitLines rest
      rw [h, List.flatten_cons] at ih
      rw [splitLines_cons hc h, List.flatten_cons, List.cons_append, ih]

/-- The lines after the first begin where a source has them begin. -/
theorem starts_numberLines {cs line : List Char} {lines : List (List Char)}
    (h : splitLines cs = line :: lines) (number start : Nat) :
    (numberLines number (start + byteLength line) lines).map (·.start) =
      Source.lineOffsetsFrom start cs := by
  induction cs generalizing line lines number start with
  | nil =>
    rw [splitLines, List.cons.injEq] at h
    rw [← h.1, ← h.2]
    rfl
  | cons c rest ih =>
    obtain ⟨line', lines', h'⟩ := exists_splitLines rest
    by_cases hc : c = '\n'
    · rw [splitLines, if_pos hc, List.cons.injEq] at h
      rw [← h.1, ← h.2, h', numberLines, List.map_cons, ih h', Source.lineOffsetsFrom, if_pos hc]
      rfl
    · rw [splitLines_cons hc h', List.cons.injEq] at h
      rw [← h.1, ← h.2, byteLength, ← Nat.add_assoc, ih h', Source.lineOffsetsFrom, if_neg hc]

/-- A line out of the lines of a text that an offset is on: it starts no later, and the offset is
past its end only if it is past the end of the text. -/
structure Holds (lines : List (List Char)) (stop offset : Nat) (l : FileLine) : Prop where
  mem : l.chars ∈ lines
  start_le : l.start ≤ offset
  le_end : offset ≤ stop → offset ≤ l.start + byteLength l.chars

/-- The last line that starts at or before an offset holds it, and is the one that walking along the
starts of the lines ends at. -/
theorem exists_getLast?_takeWhile {offset start : Nat} (number : Nat) (line : List Char)
    (lines : List (List Char)) (h : start ≤ offset) :
    ∃ l, ((numberLines number start (line :: lines)).takeWhile
        fun l => l.start ≤ offset).getLast? = some l ∧
      Holds (line :: lines) (start + byteLength (line :: lines).flatten) offset l ∧
      Source.lineFrom offset number start
        ((numberLines (number + 1) (start + byteLength line) lines).map (·.start)) =
        (l.number, l.start) := by
  induction lines generalizing number start line with
  | nil =>
    refine ⟨⟨number, start, line⟩, ?_, ⟨List.mem_singleton_self _, h, fun hend => ?_⟩, rfl⟩
    · rw [numberLines, numberLines, List.takeWhile_cons_of_pos (by simpa using h)]
      rfl
    · simpa using hend
  | cons line' lines ih =>
    rw [numberLines, List.takeWhile_cons_of_pos (by simpa using h), numberLines, List.map_cons,
      Source.lineFrom, List.flatten_cons, byteLength_append, ← Nat.add_assoc]
    -- the next line starts where this one ends, and decides which of them holds the offset
    by_cases hnext : start + byteLength line ≤ offset
    · obtain ⟨l, hlast, hholds, hfrom⟩ := ih (number + 1) line' hnext
      refine ⟨l, ?_, ⟨List.mem_cons_of_mem _ hholds.mem, hholds.start_le, hholds.le_end⟩, ?_⟩
      · rw [numberLines] at hlast
        rw [List.getLast?_cons, hlast, Option.getD_some]
      · rw [if_neg (Nat.not_lt.mpr hnext), hfrom]
    · refine ⟨⟨number, start, line⟩, ?_, ⟨List.mem_cons_self, h, fun _ => Nat.le_of_not_le hnext⟩,
        if_pos (Nat.not_le.mp hnext)⟩
      rw [List.takeWhile_cons_of_neg (by simpa using hnext)]
      rfl

/-- The line that a file has for an offset holds it, and a source has the same. -/
theorem lineAt_spec (f : SourceFile) (offset : Nat) :
    Holds (splitLines f.text.toList) f.text.utf8ByteSize offset (f.lineAt offset) ∧
    Source.lineFrom offset 1 0 (Source.lineOffsetsFrom 0 f.text.toList) =
      ((f.lineAt offset).number, (f.lineAt offset).start) := by
  obtain ⟨line, lines, hsplit⟩ := exists_splitLines f.text.toList
  obtain ⟨l, hlast, hholds, hfrom⟩ :=
    exists_getLast?_takeWhile 1 line lines (Nat.zero_le offset)
  have hline : f.lineAt offset = l := by
    unfold lineAt SourceFile.lines
    rw [hsplit, hlast, Option.getD_some]
  rw [starts_numberLines hsplit] at hfrom
  rw [← hsplit, flatten_splitLines, byteLength_toList, Nat.zero_add] at hholds
  rw [hline]
  exact ⟨hholds, hfrom⟩

/-- Where every character takes one byte, characters are counted by bytes. -/
theorem charsUpTo_eq {offset start : Nat} {cs : List Char} (hsize : ∀ c ∈ cs, c.utf8Size = 1)
    (hstart : start ≤ offset) (hend : offset ≤ start + byteLength cs) :
    charsUpTo offset start cs = offset - start := by
  induction cs generalizing start with
  | nil =>
    rw [byteLength] at hend
    rw [charsUpTo]
    omega
  | cons c rest ih =>
    obtain ⟨hc, hrest⟩ := List.forall_mem_cons.mp hsize
    rw [byteLength, hc] at hend
    rw [charsUpTo, hc]
    split
    · next hle =>
      rw [ih hrest hle (by omega)]
      omega
    · omega

/-- **Cutting an ASCII text into lines gives the same places** as counting the newlines before an
offset, up to the end of the text. -/
theorem locate_eq (f : SourceFile) (hascii : Text.isAscii f.text = true) {offset : Nat}
    (h : offset ≤ f.text.utf8ByteSize) :
    f.locate offset = ⟨1 + (Text.newlinesBefore f.text offset).length,
      offset - Text.lineStart f.text offset + 1⟩ := by
  obtain ⟨hholds, hfrom⟩ := f.lineAt_spec offset
  have hsize : ∀ c ∈ (f.lineAt offset).chars, c.utf8Size = 1 := by
    intro c hc
    have hmem : c ∈ f.text.toList := by
      rw [← flatten_splitLines f.text.toList]
      exact List.mem_flatten.mpr ⟨_, hholds.mem, hc⟩
    have hsmall : c.toNat < 128 := by simpa using List.all_eq_true.mp hascii c hmem
    exact Char.utf8Size_eq_one_iff.mpr (UInt32.le_iff_toNat_le.mpr (Nat.le_of_lt_succ hsmall))
  rw [Source.lineFrom_ofText, Prod.mk.injEq] at hfrom
  unfold locate
  dsimp only
  rw [charsUpTo_eq hsize hholds.start_le (hholds.le_end h), ← hfrom.1, ← hfrom.2]

/-- After a character of two bytes a file counts one column less than a source. -/
example : SourceFile.locate ⟨"", "é < x"⟩ 3 = ⟨1, 3⟩ ∧
    (Source.ofText "" "é < x").locate 3 = ⟨3, 1, 4⟩ := by
  decide +kernel

end SourceFile

/-- A locator that cuts files into lines after every newline and counts columns in characters from
one. -/
structure Locator.Counts (locator : Locator) : Prop where
  /-- Every offset up to the end of a file has a place. -/
  isSome : ∀ f offset, offset ≤ f.text.utf8ByteSize → (locator f offset).isSome = true
  /-- The line is the last one that starts at or before the offset. -/
  line : ∀ f offset place, offset ≤ f.text.utf8ByteSize → locator f offset = some place →
    place.line = (f.lineAt offset).number
  /-- The column counts the characters of the line up to the offset. -/
  column : ∀ f offset place, offset ≤ f.text.utf8ByteSize → locator f offset = some place →
    place.column = SourceFile.charsUpTo offset (f.lineAt offset).start (f.lineAt offset).chars + 1

theorem SourceFile.counts_locate? : Locator.Counts SourceFile.locate? where
  isSome _ _ _ := rfl
  line f offset place _ h := by
    rw [← Option.some.inj h]
    rfl
  column f offset place _ h := by
    rw [← Option.some.inj h]
    rfl

/-- Such a locator tells the place that the file has for an offset. -/
theorem Locator.Counts.eq_some {locator : Locator} (h : locator.Counts) (f : SourceFile)
    {offset : Nat} (hoffset : offset ≤ f.text.utf8ByteSize) :
    locator f offset = some (f.locate offset) := by
  obtain ⟨⟨line, column⟩, hplace⟩ := Option.isSome_iff_exists.mp (h.isSome f offset hoffset)
  have hline : line = (f.lineAt offset).number := h.line f offset _ hoffset hplace
  have hcolumn : column =
      SourceFile.charsUpTo offset (f.lineAt offset).start (f.lineAt offset).chars + 1 :=
    h.column f offset _ hoffset hplace
  rw [hplace, hline, hcolumn]
  rfl

/-! ## Labels -/

namespace Document

/-- What a document holds under a name, once. -/
def field? (d : Document) (name : String) : Option Document :=
  d.fields?.bind (required some · name)

end Document

theorem Fault.labels_annotate (d : Diagnostic) (fault : Fault) :
    (fault.annotate d).labels = d.labels := by
  cases fault with
  | undeclaredReference name container =>
    rw [annotate]
    split <;> rfl
  | _ => rfl

theorem Label.toDocument?_eq {locator : Locator} {files : List SourceFile} {l : Label}
    {f : SourceFile} {start stop : Place} (hfile : files[l.file]? = some f)
    (hstart : locator f l.start = some start) (hstop : locator f l.stop = some stop) :
    l.toDocument? locator files = some (l.document f.name start stop) := by
  simp only [toDocument?, hfile, hstart, hstop, Option.bind_eq_bind, Option.bind_some]
  rfl

namespace Diagnostic

theorem labels_ofReported (file length : Nat) (r : Reported) :
    (ofReported file length r).labels = [⟨.primary, file, min r.location.offset.toNat length,
      min (min r.location.offset.toNat length + 1) length, r.error.fault.label⟩] :=
  Fault.labels_annotate _ _

theorem field?_labels (locator : Locator) (files : List SourceFile) (d : Diagnostic) :
    (d.toDocument locator files).field? "labels" =
      some (.list (d.labels.filterMap (Label.toDocument? locator files))) := by
  simp [toDocument, Document.field?, Document.fields?, Document.required, Document.fieldOf]

end Diagnostic

namespace Source

end Source
end CelTyping
