import CelTyping.Proofs.Unification.Generality
import CelTyping.Proofs.Unification.Termination

/-!
# Arguments fit the types that a generic call gives them

A call of a generic function unifies the types of the arguments with the formal types, from the
left.  A parameter that several formal types share is bound by the first argument and bound anew by
later ones, so an argument was compared with what the parameter stood for at the time, and not with
what it stands for in the end.  That the argument fits the formal type as the call resolves it is
not clear from this, since going together is not transitive.

For arguments without type parameters it does fit, for two reasons.

* Bindings only become more general (`Widens`), because a bound parameter is bound anew to the more
  general of two types.
* A type that goes together with another goes together with every more general one
  (`goesWith_of_isGeneral_right`).  This is the part of transitivity that is left.

What a step of unification establishes is therefore stated for all wider mappings at once
(`Establishes`), and it still holds of the one at the end.
-/

namespace CelTyping

open Relation

namespace Ty

theorem goesWith_of_allGoWith : ∀ {as bs : List Ty} {i : Nat} {a b : Ty},
    allGoWith as bs = true → as[i]? = some a → bs[i]? = some b → a.goesWith b = true
  | [], _, _, _, _, _, ha, _ => absurd ha (by simp)
  | _ :: _, [], _, _, _, _, _, hb => absurd hb (by simp)
  | _ :: _, _ :: _, 0, _, _, h, ha, hb => by
    rw [allGoWith, Bool.and_eq_true] at h
    cases ha
    cases hb
    exact h.1
  | _ :: _, _ :: _, i + 1, _, _, h, ha, hb => by
    rw [allGoWith, Bool.and_eq_true] at h
    exact goesWith_of_allGoWith h.2 ha hb

end Ty

namespace Mapping

/-! ## Mappings to types without type parameters -/

/-- A well-formed type with the structural rule throughout, in which the nodes with certain keys
are the type parameters. -/
structure Regular (P : String → Prop) (t : Ty) : Prop where
  wellFormed : t.WellFormed
  structural : t.Structural
  isParam_iff : ∀ u ∈ t.nodes, u.isParam = true ↔ P u.key

theorem Regular.of_mem_params {P : String → Prop} {t c : Ty} (h : Regular P t)
    (hc : c ∈ t.params) : Regular P c where
  wellFormed := h.wellFormed.of_mem_params hc
  structural := h.structural.of_mem_params hc
  isParam_iff u hu := h.isParam_iff u (Ty.mem_nodes_of_mem_params hc hu)

/-- A mapping that binds type parameters to regular types without type parameters. -/
structure Filled (P : String → Prop) (m : Mapping) : Prop where
  regular : ∀ p t, m.bindings.find? p = some t → Regular P t
  ground : ∀ p t, m.bindings.find? p = some t → t.Ground
  keyed : ∀ p, (m.bindings.find? p).isSome → P p

theorem filled_empty (P : String → Prop) : empty.Filled P where
  regular p t h := absurd h (by simp [empty])
  ground p t h := absurd h (by simp [empty])
  keyed p h := absurd h (by simp [empty])

namespace Filled

variable {P : String → Prop} {m : Mapping} (hm : m.Filled P)

include hm

theorem add {p t : Ty} (hp : Regular P p) (hpar : p.isParam = true) (ht : Regular P t)
    (hground : t.Ground) : (m.add p t).Filled P where
  regular q u hu := by
    rw [bindings_find?_add] at hu
    split at hu
    · exact Option.some.inj hu ▸ ht
    · exact hm.regular q u hu
  ground q u hu := by
    rw [bindings_find?_add] at hu
    split at hu
    · exact Option.some.inj hu ▸ hground
    · exact hm.ground q u hu
  keyed q hq := by
    rw [bindings_find?_add] at hq
    split at hq
    · next hkey =>
      rw [hkey]
      exact (hp.isParam_iff p (Ty.mem_nodes_self p)).mp hpar
    · exact hm.keyed q hq

theorem acyclic : m.Acyclic := by
  intro p hcycle
  obtain ⟨q, ⟨t, ht, u, hu, hpar, -⟩, -⟩ := TransGen.head'_iff.mp hcycle
  rw [hm.ground p t ht u hu] at hpar
  exact Bool.false_ne_true hpar

theorem skips {t : Ty} (ht : Regular P t) : m.Skips t := by
  intro u hu hpar
  cases hb : m.find? u with
  | none => rfl
  | some b =>
    have hP : P u.key := hm.keyed u.key (Option.isSome_iff_exists.mpr ⟨b, hb⟩)
    rw [(ht.isParam_iff u hu).mpr hP] at hpar
    exact Bool.noConfusion hpar

theorem apart : m.Apart := fun p t ht => hm.skips (hm.regular p t ht)

/-- Types without type parameters stay as they are. -/
theorem substitute_of_ground {t : Ty} (ht : Regular P t) (hground : t.Ground) :
    m.substitute true t = t := by
  induction t using Ty.induct with
  | node t ih =>
    have hparams : t.params.map (m.substitute true) = t.params.map id :=
      List.map_congr_left fun c hc => ih c hc (ht.of_mem_params hc) (hground.of_mem_params hc)
    rw [substitute_of_not_isParam hm.acyclic hm.apart (hm.skips ht) ht.wellFormed hground.isParam,
      hparams, List.map_id, Ty.withParams_self]

theorem substitute_of_bound {t b : Ty} (ht : Regular P t) (hb : m.find? t = some b) :
    m.substitute true t = b := by
  rw [Mapping.substitute_of_bound hm.acyclic hm.apart (hm.skips ht) hb]
  exact hm.substitute_of_ground (hm.regular _ b hb) (hm.ground _ b hb)

/-- Resolving a type leaves no type parameters. -/
theorem ground_substitute {t : Ty} (ht : Regular P t) : (m.substitute true t).Ground := by
  induction t using Ty.induct with
  | node t ih =>
    cases hpar : t.isParam with
    | true =>
      cases hb : m.find? t with
      | some b =>
        rw [hm.substitute_of_bound ht hb]
        exact hm.ground _ b hb
      | none =>
        rw [substitute_of_unbound hm.acyclic hm.apart (hm.skips ht) hpar hb, if_pos rfl]
        decide
    | false =>
      rw [substitute_of_not_isParam hm.acyclic hm.apart (hm.skips ht) ht.wellFormed hpar]
      refine Ty.forall_nodes_iff.mpr ⟨hpar, fun c hc => ?_⟩
      obtain ⟨p, hp, rfl⟩ := List.mem_map.mp hc
      exact ih p hp (ht.of_mem_params hp)

end Filled

/-! ## Wider mappings -/

/-- Whatever is bound stays bound, to a type that is as general or more. -/
def Widens (m m' : Mapping) : Prop :=
  ∀ p t, m.bindings.find? p = some t →
    ∃ t', m'.bindings.find? p = some t' ∧ t'.isGeneral t = true

namespace Widens

variable {P : String → Prop} {m m₁ m₂ : Mapping}

theorem refl (hm : m.Filled P) : m.Widens m := by
  intro p t ht
  have hwf := (hm.regular p t ht).wellFormed
  exact ⟨t, ht, Ty.isGeneral_of_shape_eq hwf hwf rfl⟩

theorem trans (hm : m.Filled P) (hm₁ : m₁.Filled P) (hm₂ : m₂.Filled P) (h : m.Widens m₁)
    (h' : m₁.Widens m₂) : m.Widens m₂ := by
  intro p t ht
  obtain ⟨t₁, ht₁, hgen⟩ := h p t ht
  obtain ⟨t₂, ht₂, hgen'⟩ := h' p t₁ ht₁
  exact ⟨t₂, ht₂, Ty.isGeneral_trans (hm₂.regular p t₂ ht₂).wellFormed
    (hm₁.regular p t₁ ht₁).wellFormed (hm.regular p t ht).wellFormed hgen' hgen⟩

/-- Binding a parameter anew to a type that is more general makes the mapping wider. -/
theorem add (hm : m.Filled P) {p t : Ty} (h : ∀ b, m.find? p = some b → t.isGeneral b = true) :
    m.Widens (m.add p t) := by
  intro q u hu
  rw [bindings_find?_add]
  split
  · next hkey =>
    rw [hkey] at hu
    exact ⟨t, rfl, h u hu⟩
  · exact refl hm q u hu

end Widens

/-! ## What unification establishes -/

/-- A step from one mapping to another widens it and makes something true for good: it holds of
every mapping that is wider still. -/
structure Establishes (P : String → Prop) (m : Mapping) (E : Mapping → Prop) (m₁ : Mapping) :
    Prop where
  filled : m₁.Filled P
  widens : m.Widens m₁
  lasting : ∀ m₂, m₂.Filled P → m₁.Widens m₂ → E m₂

namespace Establishes

variable {P : String → Prop} {m m₁ m₂ : Mapping} {E F : Mapping → Prop}

/-- Nothing needs to be bound for what holds anyway. -/
theorem of_forall (hm : m.Filled P) (h : ∀ m₂, m₂.Filled P → E m₂) : Establishes P m E m where
  filled := hm
  widens := .refl hm
  lasting m₂ hm₂ _ := h m₂ hm₂

theorem imp (h : Establishes P m E m₁) (hEF : ∀ m₂, m₂.Filled P → E m₂ → F m₂) :
    Establishes P m F m₁ where
  filled := h.filled
  widens := h.widens
  lasting m₂ hm₂ hw := hEF m₂ hm₂ (h.lasting m₂ hm₂ hw)

/-- What one step established, the next leaves established. -/
theorem and (hm : m.Filled P) (h : Establishes P m E m₁) (h' : Establishes P m₁ F m₂) :
    Establishes P m (fun m => E m ∧ F m) m₂ where
  filled := h'.filled
  widens := h.widens.trans hm h.filled h'.filled h'.widens
  lasting m₃ hm₃ hw :=
    ⟨h.lasting m₃ hm₃ (h'.widens.trans h.filled h'.filled hm₃ hw), h'.lasting m₃ hm₃ hw⟩

end Establishes

/-- A way to unify which, when it succeeds, establishes that an argument goes together with the
formal type as it resolves. -/
def Fits (P : String → Prop) (unify : Mapping → Ty → Ty → Option (Bool × Mapping)) : Prop :=
  ∀ m a f m₁, m.Filled P → Regular P a → a.Ground → Regular P f →
    unify m a f = some (true, m₁) →
    Establishes P m (fun m => a.goesWith (m.substitute true f) = true) m₁

/-- An argument that goes together with what a parameter stands for goes together with what the
parameter stands for under a wider mapping. -/
theorem Widens.goesWith_substitute {P : String → Prop} {m m₂ : Mapping} (hw : m.Widens m₂)
    (hm : m.Filled P) (hm₂ : m₂.Filled P) {a f t : Ty} (ha : Regular P a) (hf : Regular P f)
    (ht : m.find? f = some t) (hat : a.goesWith t = true) :
    a.goesWith (m₂.substitute true f) = true := by
  obtain ⟨t₂, ht₂, hgen⟩ := hw f.key t ht
  have hreg := hm.regular _ t ht
  have hreg₂ := hm₂.regular _ t₂ ht₂
  rw [hm₂.substitute_of_bound hf ht₂]
  exact Ty.goesWith_of_isGeneral_right ha.wellFormed hreg.wellFormed hreg₂.wellFormed
    hreg.structural hreg₂.structural (hm₂.ground _ t₂ ht₂) hat hgen

/-- Binding a parameter establishes that every argument which goes together with the bound type
goes together with what the parameter stands for. -/
theorem establishes_add {P : String → Prop} {m : Mapping} (hm : m.Filled P) {a f t : Ty}
    (ha : Regular P a) (hf : Regular P f) (hpar : f.isParam = true) (ht : Regular P t)
    (hground : t.Ground) (hat : a.goesWith t = true)
    (hgen : ∀ b, m.find? f = some b → t.isGeneral b = true) :
    Establishes P m (fun m => a.goesWith (m.substitute true f) = true) (m.add f t) where
  filled := hm.add hf hpar ht hground
  widens := .add hm hgen
  lasting m₂ hm₂ hw := by
    refine hw.goesWith_substitute (hm.add hf hpar ht hground) hm₂ ha hf (t := t) ?_ hat
    rw [find?_add, if_pos rfl]

/-- Where unification of types without type parameters has an answer, it is whether they go
together. -/
theorem unifyWithin_eq_of_ground {a b : Ty} (ha : a.Ground) (hb : b.Ground) {m m₁ : Mapping}
    {d : Nat} {r : Bool} (h : unifyWithin d m a b = some (r, m₁)) :
    r = a.goesWith b ∧ m₁ = m := by
  have hmono := unifyWithin_mono (Nat.le_max_left d a.size) m a b _ h
  rw [unifyWithin_ground ha hb m (Nat.le_max_right d a.size)] at hmono
  cases hmono
  exact ⟨rfl, rfl⟩

section

variable {P : String → Prop} {m m₁ : Mapping} (hm : m.Filled P) {a f : Ty} (ha : Regular P a)
  (hground : a.Ground) (hf : Regular P f)

include hm ha hground hf

/-- Letting an argument stand for a parameter of a formal type: the parameter never occurs in the
argument. -/
theorem BindStep.establishes (hpar : f.isParam = true) {d : Nat} {o : Binding}
    (h : BindStep (unifyWithin d) m a f o m₁) :
    o ≠ .occurs ∧ (o = .agrees →
      Establishes P m (fun m => a.goesWith (m.substitute true f) = true) m₁) := by
  have hself : a.goesWith a = true := Ty.goesWith_of_isExact (Ty.isExact_iff.mpr rfl)
  cases h with
  | same hexact =>
    have hapar := hground.isParam
    unfold Ty.isParam at hapar hpar
    rw [Ty.kind_eq_of_isExact hexact, hpar] at hapar
    exact Bool.noConfusion hapar
  | known hb hexact =>
    refine ⟨by simp, fun _ => ⟨hm, .refl hm, fun m₂ hm₂ hw => ?_⟩⟩
    exact hw.goesWith_substitute hm hm₂ ha hf hb (Ty.goesWith_of_isExact hexact)
  | @rebound b m₂ hb hu habs =>
    have hbreg := hm.regular _ b hb
    obtain ⟨hgoes, rfl⟩ := unifyWithin_eq_of_ground hground (hm.ground _ b hb) hu
    refine ⟨by simp, fun _ => ?_⟩
    unfold Ty.mostGeneral
    split
    · next hgen =>
      refine establishes_add hm ha hf hpar ha hground hself fun b' hb' => ?_
      rw [← Option.some.inj (hb.symm.trans hb')]
      exact hgen
    · refine establishes_add hm ha hf hpar hbreg (hm.ground _ b hb) hgoes.symm fun b' hb' => ?_
      rw [← Option.some.inj (hb.symm.trans hb')]
      exact Ty.isGeneral_of_shape_eq hbreg.wellFormed hbreg.wellFormed rfl
  | @kept b m₂ hb hu habs =>
    obtain ⟨-, rfl⟩ := unifyWithin_eq_of_ground hground (hm.ground _ b hb) hu
    rw [isAbsent?_ground hpar (hground.mostGeneral (hm.ground _ b hb))] at habs
    exact absurd habs (by simp)
  | clash hb hu => exact ⟨by simp, fun h => absurd h (by simp)⟩
  | fresh hb habs =>
    refine ⟨by simp, fun _ => establishes_add hm ha hf hpar ha hground hself fun b hb' => ?_⟩
    rw [hb] at hb'
    exact absurd hb' (by simp)
  | occurs _ _ habs =>
    rw [isAbsent?_ground hpar hground] at habs
    exact absurd habs (by simp)

end

section

variable {P : String → Prop} {unify : Mapping → Ty → Ty → Option (Bool × Mapping)}

theorem unifyPairs_establishes (hunify : Fits P unify) {as : List Ty} :
    ∀ {m m₁ : Mapping} {fs : List Ty}, m.Filled P → (∀ a ∈ as, Regular P a ∧ a.Ground) →
      (∀ f ∈ fs, Regular P f) → as.length = fs.length →
      unifyPairs unify m as fs = some (true, m₁) →
      Establishes P m (fun m => Ty.allGoWith as (fs.map (m.substitute true)) = true) m₁ := by
  induction as with
  | nil =>
    intro m m₁ fs hm _ _ hlength h
    obtain rfl := List.eq_nil_of_length_eq_zero hlength.symm
    rw [unifyPairs] at h
    · cases h
      exact .of_forall hm fun _ _ => rfl
    · simp
  | cons a as ih =>
    intro m m₁ fs hm ha hf hlength h
    cases fs with
    | nil => exact absurd hlength (by simp)
    | cons f fs =>
      rw [unifyPairs] at h
      obtain ⟨⟨unified, m₂⟩, hu, h⟩ := Option.bind_eq_some_iff.mp h
      obtain ⟨⟨hareg, haground⟩, has⟩ := List.forall_mem_cons.mp ha
      obtain ⟨hfreg, hfs⟩ := List.forall_mem_cons.mp hf
      cases unified with
      | false => exact absurd h (by simp)
      | true =>
        have hfirst := hunify m a f m₂ hm hareg haground hfreg hu
        have hrest := ih hfirst.filled has hfs (Nat.succ.inj hlength) h
        refine (hfirst.and hm hrest).imp fun m₃ _ hboth => ?_
        rw [List.map_cons, Ty.allGoWith, hboth.1, hboth.2, Bool.and_self]

theorem unifyLists_establishes (hunify : Fits P unify) {m m₁ : Mapping} {as fs : List Ty}
    (hm : m.Filled P) (ha : ∀ a ∈ as, Regular P a ∧ a.Ground) (hf : ∀ f ∈ fs, Regular P f)
    (h : m.unifyLists unify as fs = some (true, m₁)) :
    Establishes P m (fun m => Ty.allGoWith as (fs.map (m.substitute true)) = true) m₁ := by
  unfold unifyLists at h
  split at h
  · next hlength => exact unifyPairs_establishes hunify hm ha hf hlength h
  · exact absurd h (by simp)

end

/-- An argument that unifies with a formal type which is no parameter fits the type with any
parameters that it may come to have, or it does if the parameters go together, which have been
unified then. -/
theorem unifyConcrete_fits {unify : Mapping → Ty → Ty → Option (Bool × Mapping)}
    {m m₁ : Mapping} {a f : Ty} (hwf : f.WellFormed) (hstruct : f.acceptance = .structural)
    (hpar : f.isParam = false) (h : m.unifyConcrete unify a f = some (true, m₁)) :
    (m₁ = m ∧ ∀ ps r, (f.params = [] → ps = []) → a.fits (f.withParams ps) r = true) ∨
      (m.unifyLists unify a.params f.params = some (true, m₁) ∧
        ∀ ps, a.fits (f.withParams ps) true = true) := by
  -- giving a type other parameters does not change what its root decides
  have hadmits : ∀ ps, (f.withParams ps).admitsNull = f.admitsNull := fun ps =>
    Ty.admitsNull_congr hstruct hstruct rfl
  unfold unifyConcrete at h
  unfold Ty.fits
  split at h
  · next hwild =>
    cases h
    exact Or.inl ⟨rfl, fun ps r _ => if_pos hwild⟩
  next hwild =>
  have hwild' : ∀ ps, ¬ (a.isWildcard || (f.withParams ps).isWildcard) = true := fun _ => hwild
  split at h
  · next hnull =>
    obtain ⟨hf, rfl⟩ := Prod.mk.inj (Option.some.inj h)
    refine Or.inl ⟨rfl, fun ps r _ => ?_⟩
    rw [if_neg (hwild' ps), if_pos hnull, hadmits, hf]
  next hnull =>
  split at h
  · next hnull' =>
    obtain ⟨hf, rfl⟩ := Prod.mk.inj (Option.some.inj h)
    refine Or.inl ⟨rfl, fun ps r _ => ?_⟩
    rw [if_neg (hwild' ps), if_neg hnull, if_pos (show (f.withParams ps).kind = .null from hnull'),
      hf]
  next hnull' =>
  have hfits : ∀ ps r, (if a.isWildcard || (f.withParams ps).isWildcard then true
      else if a.kind = .null then (f.withParams ps).admitsNull
      else if (f.withParams ps).kind = .null then a.admitsNull else r) = r := by
    intro ps r
    rw [if_neg (hwild' ps), if_neg hnull, if_neg (show (f.withParams ps).kind ≠ .null from hnull')]
  have hdyn : f.isDyn = false := by
    by_contra hd
    exact hwild (by rw [Ty.isWildcard_of_isDyn hpar (Bool.not_eq_false _ ▸ hd), Bool.or_true])
  simp only [hfits]
  cases hk : a.kind with
  | list | map | abstract =>
    rw [hk] at h
    dsimp only at h
    split at h
    · next hroot => exact Or.inr ⟨h, fun ps => by rw [Bool.and_true]; exact decide_eq_true hroot⟩
    · exact absurd h (by simp)
  | type =>
    rw [hk] at h
    obtain ⟨hf, rfl⟩ := Prod.mk.inj (Option.some.inj h)
    exact Or.inl ⟨rfl, fun ps r _ => hf⟩
  | bool | bytes | double | int | string | uint | duration | timestamp | struct =>
    rw [hk] at h
    obtain ⟨hf, rfl⟩ := Prod.mk.inj (Option.some.inj h)
    refine Or.inl ⟨rfl, fun ps r hps => ?_⟩
    have hnil := (Ty.params_nil_of_accepts hwf hstruct hdyn (by rw [hk]; rfl) hf).2
    rw [hps hnil, ← hnil, Ty.withParams_self]
    exact hf
  | _ =>
    rw [hk] at h
    exact absurd h (by simp)

theorem UnifyStep.establishes {P : String → Prop} {d : Nat} (ih : Fits P (unifyWithin d))
    {m m₁ : Mapping} (hm : m.Filled P) {a f : Ty} (ha : Regular P a) (hground : a.Ground)
    (hf : Regular P f) {r : Bool} (h : UnifyStep (unifyWithin d) m a f r m₁) (hr : r = true) :
    Establishes P m (fun m => a.goesWith (m.substitute true f) = true) m₁ := by
  cases h with
  | exact hexact =>
    have hfground : f.Ground := hground.of_shape_eq (Ty.isExact_iff.mp hexact)
    refine .of_forall hm fun m₂ hm₂ => ?_
    rw [hm₂.substitute_of_ground hf hfground]
    exact Ty.goesWith_of_isExact hexact
  | right _ hpar hbind _ =>
    exact (hbind.establishes hm ha hground hf hpar).2 (beq_iff_eq.mp hr)
  | left _ hapar _ _ =>
    rw [hground.isParam] at hapar
    exact absurd hapar Bool.false_ne_true
  | concrete _ _ hocc hcon =>
    have hpar : f.isParam = false := Bool.eq_false_iff.mpr fun hpar =>
      ((hocc hpar).establishes hm ha hground hf hpar).1 rfl
    have hresolve : ∀ {m₂ : Mapping}, m₂.Filled P → m₂.substitute true f =
        f.withParams (f.params.map (m₂.substitute true)) := fun hm₂ =>
      substitute_of_not_isParam hm₂.acyclic hm₂.apart (hm₂.skips hf) hf.wellFormed hpar
    rw [hr] at hcon
    rcases unifyConcrete_fits hf.wellFormed hf.structural.acceptance hpar hcon with
      ⟨rfl, hfits⟩ | ⟨hlists, hfits⟩
    · refine .of_forall hm fun m₂ hm₂ => ?_
      rw [hresolve hm₂, Ty.goesWith_eq, hfits _ _ fun hnil => by rw [hnil, List.map_nil],
        Bool.or_true]
    · have hparams := unifyLists_establishes ih hm (fun c hc => ⟨ha.of_mem_params hc,
        hground.of_mem_params hc⟩) (fun c hc => hf.of_mem_params hc) hlists
      refine hparams.imp fun m₂ hm₂ hall => ?_
      rw [hresolve hm₂, Ty.goesWith_eq]
      show (_ || a.fits _ (Ty.allGoWith a.params (f.params.map (m₂.substitute true)))) = true
      rw [hall, hfits, Bool.or_true]

/-- **Unifying an argument with a formal type makes it fit for good.** -/
theorem unifyWithin_fits (P : String → Prop) (d : Nat) : Fits P (unifyWithin d) := by
  induction d with
  | zero =>
    intro m a f m₁ _ _ _ _ h
    exact absurd h (by simp [unifyWithin])
  | succ d ih =>
    intro m a f m₁ hm ha hground hf h
    exact (unifyWithin_step h).establishes ih hm ha hground hf rfl

/-! ## Generic calls -/

/-- **Arguments fit the types that a generic call gives them.**  The arguments have no type
parameters; they and the formal types are well-formed and have the structural rule of acceptance
throughout, and no type that occurs in them has the key of a parameter of a formal type without
being one.  If the arguments unify with the formal types, every formal type resolves, with the
parameters that are left becoming dynamic, to a type that its argument can be used for. -/
theorem unifyAll_fits_arguments {args formals : List Ty} (hground : ∀ a ∈ args, a.Ground)
    (hwf : ∀ t ∈ args ++ formals, t.WellFormed) (hstruct : ∀ t ∈ args ++ formals, t.Structural)
    (hkeys : ∀ t ∈ args ++ formals, ∀ u ∈ t.nodes, u.isParam = false →
      ∀ f ∈ formals, ¬ f.Mentions u.key)
    {m : Mapping} (h : empty.unifyAll args formals = some m) {i : Nat} {a f : Ty}
    (ha : args[i]? = some a) (hf : formals[i]? = some f) :
    ∃ r, m.substitute? true f = some r ∧ a.Assignable r := by
  let P : String → Prop := fun k => ∃ g ∈ formals, g.Mentions k
  have hargs : ∀ t ∈ args, Regular P t ∧ t.Ground := by
    intro t ht
    have hmem := List.mem_append_left formals ht
    refine ⟨⟨hwf t hmem, hstruct t hmem, fun u hu => ?_⟩, hground t ht⟩
    rw [hground t ht u hu]
    refine ⟨fun h => absurd h Bool.false_ne_true, fun ⟨g, hg, hmentions⟩ => ?_⟩
    exact absurd hmentions (hkeys t hmem u hu (hground t ht u hu) g hg)
  have hformals : ∀ t ∈ formals, Regular P t := by
    intro t ht
    have hmem := List.mem_append_right args ht
    refine ⟨hwf t hmem, hstruct t hmem, fun u hu => ⟨fun hpar => ?_, fun ⟨g, hg, hmentions⟩ => ?_⟩⟩
    · exact ⟨t, ht, u, hu, hpar, rfl⟩
    · by_contra hpar
      exact hkeys t hmem u hu (Bool.eq_false_iff.mpr hpar) g hg hmentions
  have hfits := unifyLists_establishes (unifyWithin_fits P _) (filled_empty P) hargs hformals
    (onSuccess_eq_some h)
  have hm := hfits.filled
  have hgoes : a.goesWith (m.substitute true f) = true := by
    refine Ty.goesWith_of_allGoWith (hfits.lasting m hm (.refl hm)) ha ?_
    rw [List.getElem?_map, hf, Option.map_some]
  have hfreg := hformals f (List.mem_of_getElem? hf)
  refine ⟨m.substitute true f, substitute?_eq_some
    (hm.acyclic.isSome_substitute? hm.apart true (hm.skips hfreg)), ?_⟩
  rw [Ty.assignable_iff (hground a (List.mem_of_getElem? ha)) (hm.ground_substitute hfreg)]
  exact hgoes

/-- The first argument binds `T` to `list(duration)`, and the second binds it anew to `list(dyn)`,
which the first still fits. -/
theorem unifyAll_fits_arguments_widened :
    ∃ m, empty.unifyAll [.list .duration, .list .dyn, .map .string (.list .duration)]
        [.param "T", .param "T", .map (.param "K") (.param "T")] = some m ∧
      (∃ r, m.substitute? true (.param "T") = some r ∧ (Ty.list .duration).Assignable r) ∧
      ∃ r, m.substitute? true (.map (.param "K") (.param "T")) = some r ∧
        (Ty.map .string (.list .duration)).Assignable r := by
  obtain ⟨m, hm⟩ := Option.isSome_iff_exists.mp
    (show (empty.unifyAll [.list .duration, .list .dyn, .map .string (.list .duration)]
      [.param "T", .param "T", .map (.param "K") (.param "T")]).isSome = true by decide)
  have hfits := @unifyAll_fits_arguments _ _ (by decide) (by decide) (by decide) (by decide) m hm
  exact ⟨m, hm, hfits (i := 0) rfl rfl, hfits (i := 2) rfl rfl⟩

end Mapping
end CelTyping
