import CelTyping.Proofs.Sequences
import CelTyping.Proofs.Unification.Ground
import CelTyping.Proofs.Unification.Termination
import Mathlib.Data.List.Forall2
import Mathlib.Data.Set.Function

/-!
# Unification under other names

Types without type parameters on the left are unified with types on the right that may have some.
What is bound on the way are the parameters of the types on the right, and they are bound to parts
of the types on the left.  The names of the parameters only tell them apart.  So two unifications
with the same types on the left run in lockstep if the types on the right are *copies* of each other
under other names for their parameters (`Ty.Copy`), and if the two mappings bind these parameters to
the same (`Mapping.Copy`), whatever they say about others.

The new names have to tell apart what the old ones do, so the renaming is injective, but only on the
set of parameters that can come into sight.  The names of types other than parameters are kept.
What a type accepts may depend on more than names: a rule of acceptance of its own sees the whole
type.  A copy is asked to accept what the type accepts, but only among types that have no parameters
in the way of unification (`Ty.Simple`), since unification never asks about others.

* `Copy.isExact_eq`, `Copy.accepts_eq`: comparisons with a type without type parameters give the
  same for copies.
* `unifyWithin_copy`: so does unification, step by step.
* `isSome_unifyAll_copy`: so does unification of lists from any two mappings without cycles, each
  with the bound on the depth that it supplies.
-/

namespace CelTyping

namespace Ty

/-! ## Copies of types -/

/-- A type without type parameters, of a kind that carries no parameters. -/
structure Simple (t : Ty) : Prop where
  /-- There are no type parameters. -/
  ground : t.Ground
  /-- The kind carries no parameters. -/
  kind : t.kind.isParameterized = false

theorem simple_null : Ty.null.Simple := ⟨by decide, rfl⟩

/-- One type is a copy of another under other names for its type parameters, all of which belong to
a set. -/
inductive Copy (ρ : String → String) (R : String → Prop) : Ty → Ty → Prop
  /-- A type parameter becomes the parameter of the new name. -/
  | param {t u : Ty} : t.isParam = true → u.isParam = true → t.params = [] → u.params = [] →
      R t.name → u.name = ρ t.name → Copy ρ R t u
  /-- Another type keeps kind and name, accepts the same simple types, and its parameters become
  copies. -/
  | node {t u : Ty} : t.isParam = false → u.kind = t.kind → u.name = t.name →
      (∀ given : Ty, given.Simple → u.accepts given = t.accepts given) →
      List.Forall₂ (Copy ρ R) t.params u.params → Copy ρ R t u

/-- A type without type parameters is a copy of itself, whatever the new names. -/
theorem Ground.copy {t : Ty} (h : t.Ground) (ρ : String → String) (R : String → Prop) :
    t.Copy ρ R t := by
  induction t using Ty.induct with
  | node t ih =>
    refine .node h.isParam rfl rfl (fun _ _ => rfl) ?_
    exact List.forall₂_same.mpr fun c hc => ih c hc (h.of_mem_params hc)

namespace Copy

variable {ρ : String → String} {R : String → Prop} {t u a b b' : Ty}

theorem kind (h : Copy ρ R t u) : u.kind = t.kind := by
  cases h with
  | param ht hu _ _ _ _ => rw [isParam_iff.mp ht, isParam_iff.mp hu]
  | node _ hkind _ _ _ => exact hkind

theorem isParam (h : Copy ρ R t u) : u.isParam = t.isParam := by
  unfold Ty.isParam
  rw [h.kind]

theorem isWildcard (h : Copy ρ R t u) : u.isWildcard = t.isWildcard := by
  unfold Ty.isWildcard
  rw [h.kind]

theorem params (h : Copy ρ R t u) : List.Forall₂ (Copy ρ R) t.params u.params := by
  cases h with
  | param _ _ ht hu _ _ =>
    rw [ht, hu]
    exact .nil
  | node _ _ _ _ hparams => exact hparams

theorem name_eq (h : Copy ρ R t u) (ht : t.isParam = false) : u.name = t.name := by
  cases h with
  | param hpar _ _ _ _ _ => exact absurd (ht.symm.trans hpar) Bool.false_ne_true
  | node _ _ hname _ _ => exact hname

/-- What is known of a type parameter, on either side. -/
theorem of_isParam (h : Copy ρ R t u) (ht : t.isParam = true) :
    R t.name ∧ u.name = ρ t.name ∧ t.params = [] ∧ u.params = [] := by
  cases h with
  | param _ _ hparams hparams' hname hname' => exact ⟨hname, hname', hparams, hparams'⟩
  | node hpar _ _ _ _ => exact absurd (hpar.symm.trans ht) Bool.false_ne_true

/-- Induction over copies: what passes from the pairs of parameters to a pair holds always. -/
theorem induct {P : Ty → Ty → Prop}
    (step : ∀ t u : Ty, Copy ρ R t u → List.Forall₂ P t.params u.params → P t u)
    (h : Copy ρ R t u) : P t u := by
  induction t using Ty.induct generalizing u with
  | node t ih =>
    exact step t u h (forall₂_imp_of_mem h.params fun c hc _ _ hcd => ih c hc hcd)

theorem plainParams (h : Copy ρ R t u) : t.PlainParams ∧ u.PlainParams := by
  refine h.induct (P := fun t u => t.PlainParams ∧ u.PlainParams) fun t u htu hparams => ?_
  obtain ⟨hleft, hright⟩ := (List.forall₂_and_left t.params u.params).mp hparams
  have hright : ∀ d ∈ u.params, d.PlainParams := by
    generalize t.params = cs at hright
    generalize u.params = ds at hright
    induction hright with
    | nil => simp
    | cons hd _ ih => exact List.forall_mem_cons.mpr ⟨hd, ih⟩
  refine ⟨forall_nodes_iff.mpr ⟨fun hpar => ?_, hleft⟩,
    forall_nodes_iff.mpr ⟨fun hpar => ?_, hright⟩⟩
  · exact (htu.of_isParam hpar).2.2.1
  · rw [htu.isParam] at hpar
    exact (htu.of_isParam hpar).2.2.2

theorem plainParams_of_mem {ts us : List Ty} (h : List.Forall₂ (Copy ρ R) ts us) :
    (∀ t ∈ ts, t.PlainParams) ∧ ∀ u ∈ us, u.PlainParams := by
  induction h with
  | nil => simp
  | cons htu _ ih =>
    exact ⟨List.forall_mem_cons.mpr ⟨htu.plainParams.1, ih.1⟩,
      List.forall_mem_cons.mpr ⟨htu.plainParams.2, ih.2⟩⟩

/-! ## Comparisons -/

theorem agreeAll_eq {as bs bs' : List Ty}
    (ih : ∀ a ∈ as, ∀ b b', Copy ρ R b b' → a.isExact b' = a.isExact b)
    (hbs : List.Forall₂ (Copy ρ R) bs bs') : agreeAll true as bs' = agreeAll true as bs := by
  induction as generalizing bs bs' with
  | nil => cases hbs <;> rfl
  | cons a as ihas =>
    obtain ⟨ha, has⟩ := List.forall_mem_cons.mp ih
    cases hbs with
    | nil => rfl
    | cons hb hbs =>
      have hhead := ha _ _ hb
      unfold isExact at hhead
      rw [agreeAll, agreeAll, hhead, ihas has hbs]

/-- A type without type parameters does not equal copies of one another differently. -/
theorem isExact_eq (ha : a.Ground) (hb : Copy ρ R b b') : a.isExact b' = a.isExact b := by
  induction a using Ty.induct generalizing b b' with
  | node a ih =>
    have hparams := agreeAll_eq (fun c hc d d' hd => ih c hc (ha.of_mem_params hc) hd) hb.params
    unfold isExact
    rw [agrees_eq, agrees_eq, hb.kind, hparams]
    by_cases hkind : a.kind = b.kind
    · have hpar : b.isParam = false := by
        rw [← ha.isParam]
        unfold Ty.isParam
        rw [hkind]
      rw [hb.name_eq hpar]
    · simp only [beq_false_of_ne hkind, Bool.false_and]

theorem accepts_eq (hb : Copy ρ R b b') (hbpar : b.isParam = false) (ha : a.Simple) :
    b'.accepts a = b.accepts a := by
  cases hb with
  | param hpar _ _ _ _ _ => exact absurd (hbpar.symm.trans hpar) Bool.false_ne_true
  | node _ _ _ haccepts _ => exact haccepts a ha

theorem admitsNull_eq (h : Copy ρ R t u) (hpar : t.isParam = false) :
    u.admitsNull = t.admitsNull := by
  have hnull : u.acceptsNull = t.acceptsNull := h.accepts_eq hpar simple_null
  unfold admitsNull
  rw [h.kind, hnull]

end Copy

end Ty

namespace Mapping

variable {ρ : String → String} {R : String → Prop} {m m' : Mapping}

/-! ## Copies of mappings -/

/-- One mapping binds the parameters of a set, under new names, to what another binds them to, and
these are types without type parameters. -/
structure Copy (ρ : String → String) (R : String → Prop) (m m' : Mapping) : Prop where
  /-- The parameters are bound to the same, or not at all. -/
  found : ∀ p, R p → m'.bindings.find? (ρ p) = m.bindings.find? p
  /-- What they are bound to has no type parameters. -/
  ground : ∀ p, R p → ∀ b, m.bindings.find? p = some b → b.Ground

theorem copy_empty (h : ∀ p, R p → m.bindings.find? (ρ p) = none) : Mapping.empty.Copy ρ R m :=
  ⟨h, fun _ _ _ hb => nomatch hb⟩

theorem Copy.find? (hm : m.Copy ρ R m') {p p' : Ty} (hp : p.Copy ρ R p') (hpar : p.isParam = true) :
    m'.find? p' = m.find? p ∧ ∀ b, m.find? p = some b → b.Ground := by
  obtain ⟨hR, hname, hnil, hnil'⟩ := hp.of_isParam hpar
  unfold Mapping.find?
  rw [Ty.key_of_params_nil hnil, Ty.key_of_params_nil hnil', hname]
  exact ⟨hm.found p.name hR, hm.ground p.name hR⟩

/-- Binding a parameter and its copy to the same. -/
theorem Copy.add (hρ : Set.InjOn ρ {p | R p}) (hm : m.Copy ρ R m') {p p' t : Ty}
    (hp : p.Copy ρ R p') (hpar : p.isParam = true) (ht : t.Ground) :
    (m.add p t).Copy ρ R (m'.add p' t) := by
  obtain ⟨hR, hname, hnil, hnil'⟩ := hp.of_isParam hpar
  refine ⟨fun q hq => ?_, fun q hq b hb => ?_⟩
  · rw [bindings_find?_add, bindings_find?_add, Ty.key_of_params_nil hnil,
      Ty.key_of_params_nil hnil', hname]
    by_cases hqp : q = p.name
    · rw [if_pos hqp, if_pos (congrArg ρ hqp)]
    · rw [if_neg hqp, if_neg fun h => hqp (hρ hq hR h)]
      exact hm.found q hq
  · rw [bindings_find?_add] at hb
    split at hb
    · obtain rfl := Option.some.inj hb
      exact ht
    · exact hm.ground q hq b hb

/-! ## Runs in lockstep -/

/-- Two runs give the same answer and leave copies, or both give nothing. -/
def Together {α : Type} (ρ : String → String) (R : String → Prop) :
    Option (α × Mapping) → Option (α × Mapping) → Prop :=
  Option.Rel fun x y => y.1 = x.1 ∧ x.2.Copy ρ R y.2

theorem together_some {α : Type} {x : α} (hm : m.Copy ρ R m') :
    Together ρ R (some (x, m)) (some (x, m')) :=
  .some ⟨rfl, hm⟩

theorem Together.bind {α β : Type} {x y : Option (α × Mapping)}
    {f g : α × Mapping → Option (β × Mapping)} (h : Together ρ R x y)
    (hfg : ∀ a m m', m.Copy ρ R m' → Together ρ R (f (a, m)) (g (a, m'))) :
    Together ρ R (x >>= f) (y >>= g) := by
  rcases h with @⟨⟨a, m⟩, ⟨b, m'⟩, hab, hm⟩ | _
  · obtain rfl : b = a := hab
    exact hfg b m m' hm
  · exact .none

/-- Two ways to unify types that run together on a type without type parameters and copies. -/
def Lockstep (ρ : String → String) (R : String → Prop)
    (unify unify' : Mapping → Ty → Ty → Option (Bool × Mapping)) : Prop :=
  ∀ m m' a b b', m.Copy ρ R m' → a.Ground → b.Copy ρ R b' →
    Together ρ R (unify m a b) (unify' m' a b')

section Lockstep

variable {unify unify' : Mapping → Ty → Ty → Option (Bool × Mapping)}
  (hunify : Lockstep ρ R unify unify')

include hunify

theorem unifyPairs_copy {as bs bs' : List Ty} (hm : m.Copy ρ R m') (has : ∀ a ∈ as, a.Ground)
    (hbs : List.Forall₂ (Ty.Copy ρ R) bs bs') :
    Together ρ R (unifyPairs unify m as bs) (unifyPairs unify' m' as bs') := by
  induction as generalizing m m' bs bs' with
  | nil => cases hbs <;> exact together_some hm
  | cons a as ih =>
    obtain ⟨ha, has⟩ := List.forall_mem_cons.mp has
    cases hbs with
    | nil => exact together_some hm
    | cons hb hbs =>
      rw [unifyPairs, unifyPairs]
      refine (hunify _ _ _ _ _ hm ha hb).bind fun unified m m' hm => ?_
      cases unified with
      | false => exact together_some hm
      | true => exact ih hm has hbs

theorem unifyLists_copy {as bs bs' : List Ty} (hm : m.Copy ρ R m') (has : ∀ a ∈ as, a.Ground)
    (hbs : List.Forall₂ (Ty.Copy ρ R) bs bs') :
    Together ρ R (m.unifyLists unify as bs) (m'.unifyLists unify' as bs') := by
  unfold unifyLists
  rw [hbs.length_eq]
  split
  · exact unifyPairs_copy hunify hm has hbs
  · exact together_some hm

theorem unifyConcrete_copy {a b b' : Ty} (hm : m.Copy ρ R m') (ha : a.Ground) (hb : b.Copy ρ R b')
    (hbpar : b.isParam = false) :
    Together ρ R (m.unifyConcrete unify a b) (m'.unifyConcrete unify' a b') := by
  have hlists := unifyLists_copy hunify hm (fun c hc => ha.of_mem_params hc) hb.params
  unfold unifyConcrete
  rw [hb.isWildcard, hb.kind, hb.admitsNull_eq hbpar, hb.name_eq hbpar]
  split
  · exact together_some hm
  split
  · exact together_some hm
  split
  · exact together_some hm
  have haccepts : a.kind.isParameterized = false → b'.accepts a = b.accepts a :=
    fun hk => hb.accepts_eq hbpar ⟨ha, hk⟩
  cases hk : a.kind with
  | list | map | abstract =>
    dsimp only
    split
    · exact hlists
    · exact together_some hm
  | type => exact together_some hm
  | bool | bytes | double | int | string | uint | duration | timestamp | struct =>
    dsimp only
    rw [haccepts (by rw [hk]; rfl)]
    exact together_some hm
  | _ => exact together_some hm

theorem bind_copy (hρ : Set.InjOn ρ {p | R p}) {t p p' : Ty} (hm : m.Copy ρ R m') (ht : t.Ground)
    (hp : p.Copy ρ R p') (hpar : p.isParam = true) :
    Together ρ R (m.bind unify t p) (m'.bind unify' t p') := by
  have hpar' := hp.isParam.trans hpar
  unfold bind
  rw [Ty.Copy.isExact_eq ht hp]
  split
  · exact together_some hm
  obtain ⟨hfound, hground⟩ := hm.find? hp hpar
  rw [hfound]
  cases hb : m.find? p with
  | none =>
    dsimp only
    rw [isAbsent?_ground hpar ht, isAbsent?_ground hpar' ht]
    exact together_some (hm.add hρ hp hpar ht)
  | some b =>
    have hbground := hground b hb
    dsimp only
    split
    · exact together_some hm
    refine (hunify _ _ _ _ _ hm ht (hbground.copy ρ R)).bind fun unified m m' hm => ?_
    cases unified with
    | false => exact together_some hm
    | true =>
      have hgeneral := ht.mostGeneral hbground
      simp only [if_true, isAbsent?_ground hpar hgeneral, isAbsent?_ground hpar' hgeneral]
      exact together_some (hm.add hρ hp hpar hgeneral)

end Lockstep

/-- A parameter does not occur in a type without type parameters. -/
theorem ne_occurs_of_bind {unify : Mapping → Ty → Ty → Option (Bool × Mapping)} {t p : Ty}
    (ht : t.Ground) (hpar : p.isParam = true) {o : Binding} {m₁ : Mapping}
    (h : m.bind unify t p = some (o, m₁)) : o ≠ .occurs := by
  rintro rfl
  cases bind_step h with
  | occurs _ _ habs =>
    rw [isAbsent?_ground hpar ht] at habs
    exact absurd habs (by simp)

/-- **Unification with copies runs in lockstep**, with any bound on the depth. -/
theorem unifyWithin_copy (hρ : Set.InjOn ρ {p | R p}) (d : Nat) :
    Lockstep ρ R (unifyWithin d) (unifyWithin d) := by
  induction d with
  | zero => exact fun _ _ _ _ _ _ _ _ => .none
  | succ d ih =>
    intro m m' a b b' hm ha hb
    rw [unifyWithin, unifyWithin, Ty.Copy.isExact_eq ha hb, hb.isParam]
    split
    · exact together_some hm
    cases hbpar : b.isParam with
    | false =>
      rw [if_neg Bool.false_ne_true, if_neg Bool.false_ne_true, unifyLeft, unifyLeft, ha.isParam,
        if_neg Bool.false_ne_true, if_neg Bool.false_ne_true]
      exact unifyConcrete_copy ih hm ha hb hbpar
    | true =>
      rw [if_pos rfl, if_pos rfl]
      have hbind := bind_copy ih hρ hm ha hb hbpar
      generalize hx : m.bind (unifyWithin d) a b = x at hbind ⊢
      generalize m'.bind (unifyWithin d) a b' = y at hbind ⊢
      rcases hbind with @⟨⟨outcome, m₁⟩, ⟨outcome', m₁'⟩, houtcome, hm₁⟩ | _
      · obtain rfl : outcome' = outcome := houtcome
        cases outcome' with
        | agrees => exact together_some hm₁
        | clashes => exact together_some hm₁
        | occurs => exact absurd rfl (ne_occurs_of_bind ha hbpar hx)
      · exact .none

theorem isSome_onSuccess (r : Bool × Mapping) : (onSuccess (some r)).isSome = r.1 := by
  obtain ⟨unified, m⟩ := r
  cases unified <;> rfl

/-- **Types without type parameters go together with copies when they go together with the types**,
under mappings that bind the parameters to the same, whatever else is bound and whatever the bounds
on the depth. -/
theorem isSome_unifyAll_copy (hρ : Set.InjOn ρ {p | R p}) (hm : m.Acyclic) (hm' : m'.Acyclic)
    (hplain : m.Within Ty.PlainParams) (hplain' : m'.Within Ty.PlainParams) (hcopy : m.Copy ρ R m')
    {as bs bs' : List Ty} (has : ∀ a ∈ as, a.Ground) (hbs : List.Forall₂ (Ty.Copy ρ R) bs bs') :
    (m'.unifyAll as bs').isSome = (m.unifyAll as bs).isSome := by
  have hasplain : ∀ a ∈ as, a.PlainParams := fun a ha u hu hpar =>
    absurd ((has a ha u hu).symm.trans hpar) Bool.false_ne_true
  obtain ⟨r, hr⟩ := Option.isSome_iff_exists.mp (isSome_unifyAll? hplain hm hasplain
    (Ty.Copy.plainParams_of_mem hbs).1)
  obtain ⟨r', hr'⟩ := Option.isSome_iff_exists.mp (isSome_unifyAll? hplain' hm' hasplain
    (Ty.Copy.plainParams_of_mem hbs).2)
  have hsame : r'.1 = r.1 := by
    -- the two bounds differ, so both answers are compared at a greater one
    obtain ⟨d, hd, hd'⟩ : ∃ d, m.unifyBound (Ty.sizes as + Ty.sizes bs) ≤ d ∧
        m'.unifyBound (Ty.sizes as + Ty.sizes bs') ≤ d :=
      ⟨max _ _, Nat.le_max_left _ _, Nat.le_max_right _ _⟩
    have htogether := unifyLists_copy (unifyWithin_copy hρ d) hcopy has hbs
    rw [unifyLists_mono (unifyWithin_mono hd) hr, unifyLists_mono (unifyWithin_mono hd') hr']
      at htogether
    cases htogether with
    | some h => exact h.1
  unfold unifyAll
  rw [hr, hr', isSome_onSuccess, isSome_onSuccess, hsame]

end Mapping
end CelTyping
