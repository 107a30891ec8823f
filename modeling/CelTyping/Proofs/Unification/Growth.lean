import CelTyping.Proofs.Unification.Resolve
import CelTyping.Unification.Unify

/-!
# How unification changes a mapping

Unification changes the mapping in one way only: it binds a parameter to a type that, under the
mapping of that moment, does not reach the parameter.  The parameter may have been bound before,
in which case the new binding takes the place of the old one.  `Grows U m m'` says that `m'` comes
from `m` by such bindings, of parameters and to types in a family `U`, and `unifyWithin_confined`
says that whatever unification answers, with whatever bound on the depth, the mapping it leaves has
grown in this way, in every family that it does not leave on its way down (`Closed`).  Every fact
about mappings that such a binding keeps is then kept by unification; that no cycle appears is the
first of them (`Grows.acyclic`).

The first half of the module says once what the functions of unification can do: `BindStep` has
one constructor for every way in which a type can be made to stand for a parameter, and
`UnifyStep` one for every way in which two types can be compared.
-/

namespace CelTyping

theorem Ty.mostGeneral_eq_or (a b : Ty) : a.mostGeneral b = a ∨ a.mostGeneral b = b := by
  unfold Ty.mostGeneral
  split
  · exact Or.inl rfl
  · exact Or.inr rfl

namespace Mapping

variable {unify : Mapping → Ty → Ty → Option (Bool × Mapping)}

/-! ## The ways to bind a parameter -/

/-- What can become of the attempt to let a type stand for a parameter. -/
inductive BindStep (unify : Mapping → Ty → Ty → Option (Bool × Mapping)) (m : Mapping)
    (t p : Ty) : Binding → Mapping → Prop
  /-- The type is the parameter. -/
  | same : t.isExact p = true → BindStep unify m t p .agrees m
  /-- The parameter is bound to the type already. -/
  | known {b : Ty} : m.find? p = some b → t.isExact b = true → BindStep unify m t p .agrees m
  /-- The parameter is bound to a type that unifies, and is bound anew to the more general one. -/
  | rebound {b : Ty} {m₁ : Mapping} : m.find? p = some b → unify m t b = some (true, m₁) →
      m₁.isAbsent? p (t.mostGeneral b) = some true →
      BindStep unify m t p .agrees (m₁.add p (t.mostGeneral b))
  /-- The parameter is bound to a type that unifies, and occurs in the more general one. -/
  | kept {b : Ty} {m₁ : Mapping} : m.find? p = some b → unify m t b = some (true, m₁) →
      m₁.isAbsent? p (t.mostGeneral b) = some false → BindStep unify m t p .agrees m₁
  /-- The parameter is bound to a type that does not unify. -/
  | clash {b : Ty} {m₁ : Mapping} : m.find? p = some b → unify m t b = some (false, m₁) →
      BindStep unify m t p .clashes m₁
  /-- The parameter is unbound and is bound to the type. -/
  | fresh : m.find? p = none → m.isAbsent? p t = some true →
      BindStep unify m t p .agrees (m.add p t)
  /-- The parameter is unbound and occurs in the type. -/
  | occurs : t.isExact p = false → m.find? p = none → m.isAbsent? p t = some false →
      BindStep unify m t p .occurs m

theorem bind_step {m m' : Mapping} {t p : Ty} {o : Binding}
    (h : m.bind unify t p = some (o, m')) : BindStep unify m t p o m' := by
  unfold bind at h
  cases hex : t.isExact p with
  | true =>
    rw [hex, if_pos rfl] at h
    cases h
    exact .same hex
  | false =>
    rw [hex, if_neg (by simp)] at h
    cases hb : m.find? p with
    | none =>
      rw [hb] at h
      obtain ⟨free, hfree, h⟩ := Option.bind_eq_some_iff.mp h
      cases free with
      | true => cases h; exact .fresh hb hfree
      | false => cases h; exact .occurs hex hb hfree
    | some b =>
      rw [hb] at h
      simp only at h
      split at h
      · cases h
        exact .known hb ‹_›
      · obtain ⟨⟨unified, m₁⟩, hu, h⟩ := Option.bind_eq_some_iff.mp h
        cases unified with
        | false => cases h; exact .clash hb hu
        | true =>
          obtain ⟨free, hfree, h⟩ := Option.bind_eq_some_iff.mp h
          cases free with
          | true => cases h; exact .rebound hb hu hfree
          | false => cases h; exact .kept hb hu hfree

/-! ## The ways to unify two types -/

/-- What can become of the attempt to unify two types. -/
inductive UnifyStep (unify : Mapping → Ty → Ty → Option (Bool × Mapping)) (m : Mapping)
    (a b : Ty) : Bool → Mapping → Prop
  /-- The types are exactly equal. -/
  | exact : a.isExact b = true → UnifyStep unify m a b true m
  /-- The right side is a parameter, which settles the matter. -/
  | right {o : Binding} {m₁ : Mapping} : a.isExact b = false → b.isParam = true →
      BindStep unify m a b o m₁ → o ≠ .occurs → UnifyStep unify m a b (o == .agrees) m₁
  /-- The left side is a parameter, and the right side is none or occurs in the left. -/
  | left {o : Binding} {m₁ : Mapping} : a.isExact b = false → a.isParam = true →
      (b.isParam = true → BindStep unify m a b .occurs m) → BindStep unify m b a o m₁ →
      UnifyStep unify m a b (o == .agrees) m₁
  /-- The left side is no parameter, and the right side is none or occurs in the left. -/
  | concrete {r : Bool} {m₁ : Mapping} : a.isExact b = false → a.isParam = false →
      (b.isParam = true → BindStep unify m a b .occurs m) →
      m.unifyConcrete unify a b = some (r, m₁) → UnifyStep unify m a b r m₁

theorem unifyLeft_step {m m' : Mapping} {a b : Ty} {r : Bool} (hex : a.isExact b = false)
    (hocc : b.isParam = true → BindStep unify m a b .occurs m)
    (h : m.unifyLeft unify a b = some (r, m')) : UnifyStep unify m a b r m' := by
  unfold unifyLeft at h
  cases ha : a.isParam with
  | true =>
    rw [ha, if_pos rfl] at h
    obtain ⟨⟨o, m₁⟩, hbind, h⟩ := Option.bind_eq_some_iff.mp h
    cases h
    exact .left hex ha hocc (bind_step hbind)
  | false =>
    rw [ha, if_neg (by simp)] at h
    exact .concrete hex ha hocc h

theorem unifyWithin_step {d : Nat} {m m' : Mapping} {a b : Ty} {r : Bool}
    (h : unifyWithin (d + 1) m a b = some (r, m')) : UnifyStep (unifyWithin d) m a b r m' := by
  rw [unifyWithin] at h
  cases hex : a.isExact b with
  | true =>
    rw [hex, if_pos rfl] at h
    cases h
    exact .exact hex
  | false =>
    rw [hex, if_neg (by simp)] at h
    cases hb : b.isParam with
    | false =>
      rw [hb, if_neg (by simp)] at h
      exact unifyLeft_step hex (fun h' => absurd h' (by simp [hb])) h
    | true =>
      rw [hb, if_pos rfl] at h
      obtain ⟨⟨o, m₁⟩, hbind, h⟩ := Option.bind_eq_some_iff.mp h
      have hstep := bind_step hbind
      cases o with
      | agrees => cases h; exact .right hex hb hstep (by simp)
      | clashes => cases h; exact .right hex hb hstep (by simp)
      | occurs =>
        have hm : m₁ = m := by
          cases hstep
          rfl
        rw [hm] at h hstep
        exact unifyLeft_step hex (fun _ => hstep) h

/-- Two types that are not bound are compared as they stand, or parameter by parameter, which is
done only if both are of the same kind and it is one that carries parameters. -/
theorem unifyConcrete_cases {m m' : Mapping} {a b : Ty} {r : Bool}
    (h : m.unifyConcrete unify a b = some (r, m')) :
    m' = m ∨ (a.kind.isParameterized = true ∧ b.kind.isParameterized = true ∧
      m.unifyLists unify a.params b.params = some (r, m')) := by
  unfold unifyConcrete at h
  split at h
  · cases h
    exact Or.inl rfl
  · split at h
    · cases h
      exact Or.inl rfl
    · split at h
      · cases h
        exact Or.inl rfl
      · -- only lists, maps and abstract types look at their parameters
        split at h
        all_goals try (cases h; exact Or.inl rfl)
        all_goals
          next hkind =>
          split at h
          · next hroot =>
            have hparam : a.kind.isParameterized = true := by rw [hkind]; rfl
            exact Or.inr ⟨hparam, hroot.1 ▸ hparam, h⟩
          · cases h
            exact Or.inl rfl

theorem onSuccess_eq_some {r : Option (Bool × Mapping)} {m : Mapping} (h : onSuccess r = some m) :
    r = some (true, m) := by
  unfold onSuccess at h
  split at h
  · rw [Option.some.inj h]
  · exact absurd h (by simp)

/-! ## Steps down

Unification goes down from a type to its parameters, and from a type parameter to what it is bound
to.  A family of types that no such step leaves is all that a unification of its types comes to
see. -/

/-- One step down from a type. -/
inductive Down (m : Mapping) : Ty → Ty → Prop
  /-- From a type of a kind that carries parameters to one of its parameters. -/
  | param {t c : Ty} : t.kind.isParameterized = true → c ∈ t.params → Down m t c
  /-- From a type parameter to what it is bound to. -/
  | bound {t b : Ty} : t.isParam = true → m.find? t = some b → Down m t b

/-- Steps down do not leave a family. -/
def Closed (U : Ty → Prop) (m : Mapping) : Prop := ∀ t c, U t → m.Down t c → U c

/-- A step down is one of the old mapping, or it goes to the type that was bound. -/
theorem Down.of_add {m : Mapping} {p t u c : Ty} (h : (m.add p t).Down u c) :
    (u.isParam = true ∧ u.key = p.key ∧ c = t) ∨ m.Down u c := by
  cases h with
  | param hkind hc => exact Or.inr (.param hkind hc)
  | bound hpar hb =>
    rw [find?_add] at hb
    split at hb
    · next hkey => exact Or.inl ⟨hpar, hkey, (Option.some.inj hb).symm⟩
    · exact Or.inr (.bound hpar hb)

/-! ## Growth -/

/-- All bound types belong to a family. -/
def Within (U : Ty → Prop) (m : Mapping) : Prop := ∀ p t, m.bindings.find? p = some t → U t

theorem within_empty {U : Ty → Prop} : empty.Within U :=
  fun _ _ ht => absurd ht (by simp [empty])

theorem Within.closed {U : Ty → Prop} (hU : ∀ t, U t → ∀ c ∈ t.params, U c) {m : Mapping}
    (hm : m.Within U) : m.Closed U := by
  intro t c ht hdown
  cases hdown with
  | param _ hc => exact hU t ht c hc
  | bound _ hb => exact hm _ c hb

/-- One mapping comes from another by binding parameters to types that do not reach them. -/
inductive Grows (U : Ty → Prop) (m : Mapping) : Mapping → Prop
  /-- Nothing is bound. -/
  | refl : Grows U m m
  /-- One more parameter is bound. -/
  | bind {m₁ : Mapping} {p t : Ty} : Grows U m m₁ → U p → p.isParam = true → U t →
      m₁.isAbsent? p t = some true → Grows U m (m₁.add p t)

namespace Grows

variable {U : Ty → Prop} {m m₁ m₂ : Mapping}

theorem trans (h : Grows U m m₁) (h' : Grows U m₁ m₂) : Grows U m m₂ := by
  induction h' with
  | refl => exact h
  | bind _ hp hpar ht habs ih => exact .bind ih hp hpar ht habs

theorem within (h : Grows U m m₁) (hm : m.Within U) : m₁.Within U := by
  induction h with
  | refl => exact hm
  | bind _ _ _ ht _ ih =>
    intro q u hu
    rw [bindings_find?_add] at hu
    split at hu
    · exact Option.some.inj hu ▸ ht
    · exact ih q u hu

theorem closed (h : Grows U m m₁) (hm : m.Closed U) : m₁.Closed U := by
  induction h with
  | refl => exact hm
  | bind _ _ _ ht _ ih =>
    intro u c hu hdown
    rcases hdown.of_add with ⟨-, -, rfl⟩ | hold
    · exact ht
    · exact ih u c hu hold

/-- Only keys of parameters in the family become bound. -/
theorem exists_param (h : Grows U m m₁) {p : String} (hp : (m₁.bindings.find? p).isSome) :
    (m.bindings.find? p).isSome ∨ ∃ u, U u ∧ u.isParam = true ∧ u.key = p := by
  induction h with
  | refl => exact Or.inl hp
  | @bind _ q _ _ hq hpar _ _ ih =>
    rw [bindings_find?_add] at hp
    by_cases hpq : p = q.key
    · exact Or.inr ⟨q, hq, hpar, hpq.symm⟩
    · rw [if_neg hpq] at hp
      exact ih hp

theorem wellFormed (h : Grows U m m₁) (hU : ∀ t, U t → t.WellFormed) (hm : m.WellFormed) :
    m₁.WellFormed := by
  induction h with
  | refl => exact hm
  | bind _ _ _ ht _ ih => exact ih.add (hU _ ht)

/-- **Growing closes no cycle.** -/
theorem acyclic (h : Grows U m m₁) (hU : ∀ t, U t → t.WellFormed) (hwf : m.WellFormed)
    (hm : m.Acyclic) : m₁.Acyclic := by
  induction h with
  | refl => exact hm
  | @bind m₂ p t hgrows hp hpar ht habs ih =>
    have hwf₂ := hgrows.wellFormed hU hwf
    exact ih.add ((isAbsent?_spec hwf₂ (hU p hp) hpar (hU t ht) habs).mp rfl)

end Grows

/-! ## Unification grows the mapping -/

/-- A way to unify two types that leaves a grown mapping, whatever its answer. -/
def Growing (U : Ty → Prop) (unify : Mapping → Ty → Ty → Option (Bool × Mapping)) : Prop :=
  ∀ m a b r m', m.Within U → U a → U b → unify m a b = some (r, m') → Grows U m m'

/-- A way to unify two types of a family that leaves a grown mapping, whatever its answer, if only
steps down do not leave the family. -/
def Confined (U : Ty → Prop) (unify : Mapping → Ty → Ty → Option (Bool × Mapping)) : Prop :=
  ∀ m a b r m', m.Closed U → U a → U b → unify m a b = some (r, m') → Grows U m m'

theorem Confined.growing {U : Ty → Prop} (hU : ∀ t, U t → ∀ c ∈ t.params, U c)
    (h : Confined U unify) : Growing U unify :=
  fun m a b r m' hm => h m a b r m' (hm.closed hU)

section

variable {U : Ty → Prop} (hunify : Confined U unify)

include hunify

theorem BindStep.grows {m m' : Mapping} {t p : Ty} {o : Binding} (hm : m.Closed U) (ht : U t)
    (hp : U p) (hpar : p.isParam = true) (h : BindStep unify m t p o m') : Grows U m m' := by
  have hbound : ∀ {b : Ty}, m.find? p = some b → U b := fun hb => hm p _ hp (.bound hpar hb)
  have hgeneral : ∀ {b : Ty}, m.find? p = some b → U (t.mostGeneral b) := by
    intro b hb
    rcases Ty.mostGeneral_eq_or t b with heq | heq
    · rw [heq]
      exact ht
    · rw [heq]
      exact hbound hb
  cases h with
  | same _ => exact .refl
  | known _ _ => exact .refl
  | rebound hb hu habs =>
    exact .bind (hunify _ _ _ _ _ hm ht (hbound hb) hu) hp hpar (hgeneral hb) habs
  | kept hb hu _ => exact hunify _ _ _ _ _ hm ht (hbound hb) hu
  | clash hb hu => exact hunify _ _ _ _ _ hm ht (hbound hb) hu
  | fresh _ habs => exact .bind .refl hp hpar ht habs
  | occurs _ _ _ => exact .refl

theorem unifyPairs_grows {as : List Ty} :
    ∀ {m m' : Mapping} {bs : List Ty} {r : Bool}, m.Closed U → (∀ a ∈ as, U a) →
      (∀ b ∈ bs, U b) → unifyPairs unify m as bs = some (r, m') → Grows U m m' := by
  induction as with
  | nil =>
    intro m m' bs r _ _ _ h
    rw [unifyPairs] at h
    · cases h
      exact .refl
    · simp
  | cons a as ih =>
    intro m m' bs r hm ha hb h
    cases bs with
    | nil =>
      rw [unifyPairs] at h
      · cases h
        exact .refl
      · simp
    | cons b bs =>
      rw [unifyPairs] at h
      obtain ⟨⟨unified, m₁⟩, hu, h⟩ := Option.bind_eq_some_iff.mp h
      have hstep := hunify _ _ _ _ _ hm (ha a List.mem_cons_self) (hb b List.mem_cons_self) hu
      cases unified with
      | false => cases h; exact hstep
      | true =>
        exact hstep.trans (ih (hstep.closed hm) (fun x hx => ha x (List.mem_cons_of_mem a hx))
          (fun x hx => hb x (List.mem_cons_of_mem b hx)) h)

theorem unifyLists_grows {m m' : Mapping} {as bs : List Ty} {r : Bool} (hm : m.Closed U)
    (ha : ∀ a ∈ as, U a) (hb : ∀ b ∈ bs, U b) (h : m.unifyLists unify as bs = some (r, m')) :
    Grows U m m' := by
  unfold unifyLists at h
  split at h
  · exact unifyPairs_grows hunify hm ha hb h
  · cases h
    exact .refl

theorem UnifyStep.grows {m m' : Mapping} {a b : Ty} {r : Bool} (hm : m.Closed U) (ha : U a)
    (hb : U b) (h : UnifyStep unify m a b r m') : Grows U m m' := by
  cases h with
  | exact _ => exact .refl
  | right _ hpar hbind _ => exact hbind.grows hunify hm ha hb hpar
  | left _ hpar _ hbind => exact hbind.grows hunify hm hb ha hpar
  | concrete _ _ _ hcon =>
    rcases unifyConcrete_cases hcon with rfl | ⟨hka, hkb, hlists⟩
    · exact .refl
    · exact unifyLists_grows hunify hm (fun c hc => hm a c ha (.param hka hc))
        (fun c hc => hm b c hb (.param hkb hc)) hlists

end

/-- **Unification grows the mapping** within every family that steps down do not leave, whether it
succeeds or fails, with any bound on the depth. -/
theorem unifyWithin_confined (U : Ty → Prop) (d : Nat) : Confined U (unifyWithin d) := by
  induction d with
  | zero =>
    intro m a b r m' _ _ _ h
    exact absurd h (by simp [unifyWithin])
  | succ d ih =>
    intro m a b r m' hm ha hb h
    exact (unifyWithin_step h).grows ih hm ha hb

theorem unifyWithin_growing {U : Ty → Prop} (hU : ∀ t, U t → ∀ c ∈ t.params, U c) (d : Nat) :
    Growing U (unifyWithin d) :=
  (unifyWithin_confined U d).growing hU

end Mapping
end CelTyping
