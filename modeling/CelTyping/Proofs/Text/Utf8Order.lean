import Mathlib.Algebra.Group.Nat.Defs
import Mathlib.Tactic.SplitIfs

/-!
# The order of texts and the order of their bytes

Texts are compared character by character.  Written out as bytes they are compared byte by byte, and
the two orders agree: the encoding of characters keeps the order, and no encoding of a character is
the beginning of another.

A character of more than one byte is written with a lead byte and continuation bytes.  The
continuation bytes are the digits of its number to the base 64, the highest first, and the lead byte
has the digits that are left and a mark for how many bytes follow; more bytes make a larger lead
byte.

* `continuation_lt`: of two numbers that agree in what is left, the smaller has the smaller
  continuation bytes.
* `utf8EncodeChar_append_lt`: the bytes of a smaller character come first, whatever follows.
* `utf8_lt`: the bytes of a smaller text come first.
-/

namespace CelTyping
namespace Text

/-- The bytes of a text. -/
def utf8 (s : String) : List UInt8 := s.toUTF8.data.toList

theorem utf8_eq_flatMap (s : String) : utf8 s = s.toList.flatMap String.utf8EncodeChar := by
  have hbytes : s.toUTF8 = s.toList.utf8Encode := by
    rw [← String.toByteArray_ofList, String.ofList_toList, String.toUTF8]
  rw [utf8, hbytes, List.utf8Encode, List.data_toByteArray]

/-! ## Lead bytes and continuation bytes -/

theorem ofNat_cons_lt {x y : Nat} (hy : y < 256) {as bs : List UInt8}
    (h : x < y ∨ x = y ∧ as < bs) : UInt8.ofNat x :: as < UInt8.ofNat y :: bs := by
  rw [List.cons_lt_cons_iff]
  rcases h with h | ⟨rfl, h⟩
  · left
    rw [UInt8.lt_iff_toNat_lt, UInt8.toNat_ofNat', UInt8.toNat_ofNat']
    omega
  · exact Or.inr ⟨rfl, h⟩

/-- The last digits of a number to the base 64, marked as continuation bytes. -/
def continuation : (count : Nat) → Nat → List UInt8
  | 0, _ => []
  | count + 1, n => UInt8.ofNat (n / 64 ^ count % 64 + 128) :: continuation count n

/-- The bytes of a number with a lead byte: the digits left for it, above a mark. -/
def withLead (count width mark n : Nat) : List UInt8 :=
  UInt8.ofNat (n / 64 ^ count % width + mark) :: continuation count n

theorem continuation_lt {count v w : Nat} (h : v < w) (hleft : v / 64 ^ count = w / 64 ^ count)
    (as bs : List UInt8) : continuation count v ++ as < continuation count w ++ bs := by
  induction count with
  | zero =>
    rw [Nat.pow_zero, Nat.div_one, Nat.div_one] at hleft
    exact absurd hleft (Nat.ne_of_lt h)
  | succ count ih =>
    have hle : v / 64 ^ count ≤ w / 64 ^ count := Nat.div_le_div_right (Nat.le_of_lt h)
    rw [Nat.pow_succ, ← Nat.div_div_eq_div_mul, ← Nat.div_div_eq_div_mul] at hleft
    refine ofNat_cons_lt (by omega) ?_
    rcases Nat.lt_or_eq_of_le hle with hlt | heq
    · exact Or.inl (by omega)
    · exact Or.inr ⟨by rw [heq], ih heq⟩

theorem withLead_lt {count width mark v w : Nat} (h : v < w) (hw : w / 64 ^ count < width)
    (hmark : width + mark ≤ 256) (as bs : List UInt8) :
    withLead count width mark v ++ as < withLead count width mark w ++ bs := by
  have hle : v / 64 ^ count ≤ w / 64 ^ count := Nat.div_le_div_right (Nat.le_of_lt h)
  have hv := Nat.mod_eq_of_lt (Nat.lt_of_le_of_lt hle hw)
  rw [withLead, withLead, hv, Nat.mod_eq_of_lt hw]
  refine ofNat_cons_lt (by omega) ?_
  rcases Nat.lt_or_eq_of_le hle with hlt | heq
  · exact Or.inl (by omega)
  · exact Or.inr ⟨by rw [heq], continuation_lt h heq as bs⟩

/-- A higher mark makes a larger lead byte. -/
theorem withLead_lt_of_mark {count width mark count' width' mark' : Nat} (hwidth : 0 < width)
    (hwidth' : 0 < width') (hmark : width + mark ≤ mark') (hmark' : width' + mark' ≤ 256)
    (v w : Nat) (as bs : List UInt8) :
    withLead count width mark v ++ as < withLead count' width' mark' w ++ bs := by
  have hv := Nat.mod_lt (v / 64 ^ count) hwidth
  have hw := Nat.mod_lt (w / 64 ^ count') hwidth'
  exact ofNat_cons_lt (by omega) (Or.inl (by omega))

/-! ## Characters -/

theorem utf8EncodeChar_eq (c : Char) : String.utf8EncodeChar c =
    if c.val.toNat ≤ 127 then withLead 0 128 0 c.val.toNat
    else if c.val.toNat ≤ 2047 then withLead 1 32 192 c.val.toNat
    else if c.val.toNat ≤ 65535 then withLead 2 16 224 c.val.toNat
    else withLead 3 8 240 c.val.toNat := by
  unfold String.utf8EncodeChar withLead
  dsimp only
  split
  · rw [Nat.pow_zero, Nat.div_one, Nat.mod_eq_of_lt (by omega)]
    rfl
  · simp [continuation]

/-- **The bytes of a smaller character come first**, whatever follows them. -/
theorem utf8EncodeChar_append_lt {c d : Char} (h : c < d) (as bs : List UInt8) :
    String.utf8EncodeChar c ++ as < String.utf8EncodeChar d ++ bs := by
  have hlt : c.val.toNat < d.val.toNat := h
  have hbound : d.val.toNat < 1114112 := by
    have hvalid : d.val.toNat.isValidChar := d.valid
    unfold Nat.isValidChar at hvalid
    omega
  rw [utf8EncodeChar_eq, utf8EncodeChar_eq]
  generalize c.val.toNat = v at hlt ⊢
  generalize d.val.toNat = w at hlt hbound ⊢
  -- for every number of bytes, first that both characters have it and then that the first has
  by_cases hw : w ≤ 127
  · rw [if_pos (show v ≤ 127 by omega), if_pos hw]
    exact withLead_lt hlt (by omega) (by decide) as bs
  rw [if_neg hw]
  by_cases hv : v ≤ 127
  · rw [if_pos hv]
    split_ifs <;>
      exact withLead_lt_of_mark (by decide) (by decide) (by decide) (by decide) v w as bs
  rw [if_neg hv]
  by_cases hw : w ≤ 2047
  · rw [if_pos (show v ≤ 2047 by omega), if_pos hw]
    exact withLead_lt hlt (by omega) (by decide) as bs
  rw [if_neg hw]
  by_cases hv : v ≤ 2047
  · rw [if_pos hv]
    split_ifs <;>
      exact withLead_lt_of_mark (by decide) (by decide) (by decide) (by decide) v w as bs
  rw [if_neg hv]
  by_cases hw : w ≤ 65535
  · rw [if_pos (show v ≤ 65535 by omega), if_pos hw]
    exact withLead_lt hlt (by omega) (by decide) as bs
  rw [if_neg hw]
  by_cases hv : v ≤ 65535
  · rw [if_pos hv]
    exact withLead_lt_of_mark (by decide) (by decide) (by decide) (by decide) v w as bs
  · rw [if_neg hv]
    exact withLead_lt hlt (by omega) (by decide) as bs

/-! ## Texts -/

theorem flatMap_utf8EncodeChar_lt : ∀ {cs ds : List Char}, cs < ds →
    cs.flatMap String.utf8EncodeChar < ds.flatMap String.utf8EncodeChar
  | _, [], h => absurd h (List.not_lt_nil _)
  | [], d :: ds, _ => by
    obtain ⟨b, bs, hbytes⟩ : ∃ b bs, String.utf8EncodeChar d = b :: bs :=
      List.exists_cons_of_length_pos (by rw [String.length_utf8EncodeChar]; exact d.utf8Size_pos)
    rw [List.flatMap_nil, List.flatMap_cons, hbytes]
    exact List.nil_lt_cons _ _
  | c :: cs, d :: ds, h => by
    rw [List.flatMap_cons, List.flatMap_cons]
    rcases List.cons_lt_cons_iff.mp h with hhead | ⟨rfl, htail⟩
    · exact utf8EncodeChar_append_lt hhead _ _
    · exact List.append_left_lt (flatMap_utf8EncodeChar_lt htail)

/-- **The bytes of a smaller text come first.** -/
theorem utf8_lt {s t : String} (h : s < t) : utf8 s < utf8 t := by
  rw [utf8_eq_flatMap, utf8_eq_flatMap]
  exact flatMap_utf8EncodeChar_lt (String.lt_iff.mp h)

end Text
end CelTyping
