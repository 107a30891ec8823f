import CelTyping.Proofs.Ty.Acceptance
import CelTyping.Proofs.Unification.Ground
import CelTyping.Proofs.Unification.Reach

/-!
# Going together is symmetric

Unification asks the type on the right whether it accepts the one on the left, and branches on the
kind of the one on the left.  Types with custom rules of acceptance may go together one way only.

Among the other types the two ways agree, as long as only kinds that carry parameters have some
(`Ty.WellFormed`).  Two types that are of different shape and neither dynamic, erroneous nor null go
together if they are of one kind that carries parameters, and this does not depend on the order
(`fits_comm`).  For all other kinds the rule of acceptance asks for the same name, and then nothing
is left in which the two could differ.

* `WellFormed.goesWith_comm`: types go together both ways or not at all.
* `Mapping.unify_reflexive_symmetric`: so unification of types without type parameters is a
  reflexive and symmetric relation, whatever the mapping.
-/

namespace CelTyping
namespace Ty

theorem isExact_comm (a b : Ty) : a.isExact b = b.isExact a :=
  Bool.eq_iff_iff.mpr (by rw [isExact_iff, isExact_iff, eq_comm])

/-- Without parameters, the kind and the name are all there is to a type. -/
theorem WellFormed.isExact_of_eq {a b : Ty} (ha : a.WellFormed) (hb : b.WellFormed)
    (hplain : a.kind.isParameterized = false) (hkind : a.kind = b.kind) (hname : a.name = b.name) :
    a.isExact b = true := by
  rw [isExact_iff, shape_eq, shape_eq, ha.params_nil hplain, hb.params_nil (hkind ▸ hplain), hkind,
    hname]

/-- What is no wildcard and no type parameter accepts only types of its own kind and name, `null`
aside. -/
theorem kind_of_accepts {a b : Ty} (ho : b.acceptance.isOrdinary = true) (hb : b.isParam = false)
    (hwild : b.isWildcard = false) (hnull : a.kind ≠ .null) (h : b.accepts a = true) :
    b.kind = a.kind ∧ b.name = a.name := by
  have hdyn : b.kind.isDyn = false := by
    rw [Bool.eq_false_iff]
    intro hdyn
    rw [isWildcard_of_isDyn hb hdyn] at hwild
    exact Bool.false_ne_true hwild.symm
  rw [accepts_eq ho, hdyn, beq_false_of_ne hnull, Bool.and_false, Bool.false_or, Bool.false_or,
    Bool.and_eq_true, Bool.and_eq_true, beq_iff_eq, beq_iff_eq] at h
  exact h.1

/-- The type of `null` goes with what admits it, on either side; it admits itself. -/
theorem fits_of_null {a b : Ty} (hwild : a.isWildcard = false ∧ b.isWildcard = false)
    (ha : a.kind = .null) (paramsFit : Bool) :
    a.fits b paramsFit = b.admitsNull ∧ b.fits a paramsFit = b.admitsNull := by
  constructor
  · rw [fits, hwild.1, hwild.2, Bool.or_self, if_neg Bool.false_ne_true, if_pos ha]
  · rw [fits, hwild.1, hwild.2, Bool.or_self, if_neg Bool.false_ne_true, if_pos ha]
    split
    · next hb => rw [admitsNull, admitsNull, ha, hb]
    · rfl

/-- What is asked of two types of different shape, neither dynamic, erroneous nor null. -/
theorem fits_eq_of_not_isExact {a b : Ty} (ha : a.WellFormed) (hb : b.WellFormed)
    (ho : b.acceptance.isOrdinary = true) (hparam : b.isParam = false)
    (hexact : a.isExact b = false) (hwild : a.isWildcard = false ∧ b.isWildcard = false)
    (hnull : a.kind ≠ .null ∧ b.kind ≠ .null) (paramsFit : Bool) :
    a.fits b paramsFit = (a.kind == b.kind && (a.kind == .type ||
      (a.kind.isParameterized && a.name == b.name && paramsFit))) := by
  have hrefuses : a.kind.isParameterized = false → b.accepts a = false := by
    intro hplain
    rw [Bool.eq_false_iff]
    intro haccepts
    obtain ⟨hkind, hname⟩ := kind_of_accepts ho hparam hwild.2 hnull.1 haccepts
    rw [ha.isExact_of_eq hb hplain hkind.symm hname.symm] at hexact
    exact Bool.false_ne_true hexact.symm
  rw [fits, hwild.1, hwild.2, Bool.or_self, if_neg Bool.false_ne_true, if_neg hnull.1,
    if_neg hnull.2]
  cases hk : a.kind with
  | list | map | abstract =>
    rw [Bool.decide_and]
    simp [Kind.isParameterized, beq_eq_decide, Bool.and_assoc]
  | type => simp [BEq.comm]
  | bool | bytes | double | int | string | uint | duration | timestamp | struct =>
    have hfalse : b.accepts a = false := hrefuses (by rw [hk]; rfl)
    simp [hfalse, Kind.isParameterized]
  | _ => simp [Kind.isParameterized]

/-- Types of different shape go together whichever of them comes first. -/
theorem fits_comm {a b : Ty} (ha : a.WellFormed) (hb : b.WellFormed)
    (hao : a.acceptance.isOrdinary = true) (hbo : b.acceptance.isOrdinary = true)
    (hap : a.isParam = false) (hbp : b.isParam = false) (hexact : a.isExact b = false)
    (paramsFit : Bool) : a.fits b paramsFit = b.fits a paramsFit := by
  by_cases hwild : (a.isWildcard || b.isWildcard) = true
  · rw [fits, fits, Bool.or_comm b.isWildcard, if_pos hwild, if_pos hwild]
  have hplain : a.isWildcard = false ∧ b.isWildcard = false := by
    rwa [Bool.not_eq_true, Bool.or_eq_false_iff] at hwild
  by_cases ha0 : a.kind = .null
  · obtain ⟨hleft, hright⟩ := fits_of_null hplain ha0 paramsFit
    rw [hleft, hright]
  by_cases hb0 : b.kind = .null
  · obtain ⟨hleft, hright⟩ := fits_of_null hplain.symm hb0 paramsFit
    rw [hleft, hright]
  rw [fits_eq_of_not_isExact ha hb hbo hbp hexact hplain ⟨ha0, hb0⟩,
    fits_eq_of_not_isExact hb ha hao hap (isExact_comm a b ▸ hexact) hplain.symm ⟨hb0, ha0⟩]
  by_cases hkind : a.kind = b.kind
  · rw [hkind, BEq.comm (a := a.name)]
  · rw [beq_false_of_ne hkind, beq_false_of_ne (Ne.symm hkind), Bool.false_and, Bool.false_and]

theorem allGoWith_comm : ∀ {as bs : List Ty},
    (∀ a ∈ as, ∀ b ∈ bs, a.goesWith b = b.goesWith a) → allGoWith as bs = allGoWith bs as
  | [], [], _ => rfl
  | [], _ :: _, _ => rfl
  | _ :: _, [], _ => rfl
  | a :: as, b :: bs, h => by
    rw [allGoWith, allGoWith, h a List.mem_cons_self b List.mem_cons_self,
      allGoWith_comm fun c hc d hd => h c (List.mem_cons_of_mem a hc) d (List.mem_cons_of_mem b hd)]

/-- **Types without type parameters and without custom rules go together both ways or not at
all.** -/
theorem WellFormed.goesWith_comm {a b : Ty} (ha : a.WellFormed) (hb : b.WellFormed)
    (hao : a.Ordinary) (hbo : b.Ordinary) (hag : a.Ground) (hbg : b.Ground) :
    a.goesWith b = b.goesWith a := by
  induction a using Ty.induct generalizing b with
  | node a ih =>
    have hparams : allGoWith a.params b.params = allGoWith b.params a.params :=
      allGoWith_comm fun p hp q hq => ih p hp (ha.of_mem_params hp) (hb.of_mem_params hq)
        (hao.of_mem_params hp) (hbo.of_mem_params hq) (hag.of_mem_params hp) (hbg.of_mem_params hq)
    rw [goesWith_eq, goesWith_eq, isExact_comm b a]
    cases hexact : a.isExact b with
    | true => rw [Bool.true_or, Bool.true_or]
    | false =>
      rw [Bool.false_or, Bool.false_or, hparams,
        fits_comm ha hb (ordinary_iff.mp hao).1 (ordinary_iff.mp hbo).1 hag.isParam hbg.isParam
          hexact]

/-- Parameters of a type that should have none are compared by acceptance, one way only. -/
example : ((message "Item").withParams [int]).goesWith ((message "Item").withParams [dyn]) = true ∧
    ((message "Item").withParams [dyn]).goesWith ((message "Item").withParams [int]) = false := by
  decide +kernel

end Ty

namespace Mapping

/-- Whether types without type parameters unify does not depend on the mapping. -/
theorem isSome_unify_ground {a b : Ty} (ha : a.Ground) (hb : b.Ground) (m : Mapping) :
    (m.unify a b).isSome = a.goesWith b := by
  rw [unify_ground ha hb]
  cases a.goesWith b <;> rfl

/-- **Unification of types without type parameters is a reflexive and symmetric relation that needs
no mapping**: it does not matter which type comes first or what is bound, nothing gets bound, and a
type unifies with itself. -/
theorem unify_reflexive_symmetric {a b : Ty} (ha : a.WellFormed) (hb : b.WellFormed)
    (hag : a.Ground) (hbg : b.Ground) (hao : a.Ordinary) (hbo : b.Ordinary) (m : Mapping) :
    ((m.unify a b).isSome ↔ (m.unify b a).isSome) ∧
    ((m.unify a b).isSome ↔ (empty.unify a b).isSome) ∧
    (∀ m', m.unify a b = some m' → m' = m) ∧ (m.unify a a).isSome := by
  refine ⟨?_, ?_, fun m' h => ?_, ?_⟩
  · rw [isSome_unify_ground hag hbg, isSome_unify_ground hbg hag,
      ha.goesWith_comm hb hao hbo hag hbg]
  · rw [isSome_unify_ground hag hbg, isSome_unify_ground hag hbg]
  · rw [unify_ground hag hbg] at h
    split at h
    · exact (Option.some.inj h).symm
    · cases h
  · rw [isSome_unify_ground hag hag]
    exact Ty.goesWith_of_isExact (Ty.isExact_iff.mpr rfl)

/-- A mapping in which a parameter is bound to lists of itself. -/
def looped : Mapping := empty.add (.param "T") (.list (.param "T"))

/-- Lists of wrapped integers and lists of `null` unify both ways, even under a mapping that is
cyclic. -/
theorem unify_reflexive_symmetric_wrapped :
    (Ty.list (.nullable .int)).Ordinary ∧ (Ty.list .null).Ordinary ∧
    looped.unify (.list (.nullable .int)) (.list .null) = some looped ∧
    looped.unify (.list .null) (.list (.nullable .int)) = some looped := by
  have hwrapped : (Ty.list (.nullable .int)).Ordinary := by decide
  have hnull : (Ty.list .null).Ordinary := by decide
  obtain ⟨hcomm, hempty, hsame, -⟩ := unify_reflexive_symmetric (a := .list (.nullable .int))
    (b := .list .null) (by decide) (by decide) (by decide) (by decide) hwrapped hnull looped
  obtain ⟨-, -, hsame', -⟩ := unify_reflexive_symmetric (a := .list .null)
    (b := .list (.nullable .int)) (by decide) (by decide) (by decide) (by decide) hnull hwrapped
    looped
  have hleft := hempty.mpr (by decide +kernel)
  obtain ⟨m, hm⟩ := Option.isSome_iff_exists.mp hleft
  obtain ⟨m', hm'⟩ := Option.isSome_iff_exists.mp (hcomm.mp hleft)
  exact ⟨hwrapped, hnull, by rw [hm, hsame m hm], by rw [hm', hsame' m' hm']⟩

end Mapping
end CelTyping
