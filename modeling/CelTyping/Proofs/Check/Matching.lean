import CelTyping.Proofs.Check.FreshVariables
import CelTyping.Proofs.Ty.Acceptance
import CelTyping.Proofs.Unification.Renaming

/-!
# Which calls an overload matches

An attempt to use an overload puts new type variables in place of its type parameters and unifies
under the mapping that the check has come to.  For arguments without type parameters neither has any
bearing on whether the attempt succeeds: it does if the types of the arguments go together with the
formal types as they are declared, under the mapping that binds nothing (`Overload.Matches`).  The
formal types with variables are copies of the declared ones, and the mapping has nothing to say
about variables that are new.

This needs one thing of the custom rules of acceptance that a signature may carry.  Such a rule is
given the type it belongs to, and it could go by the names of the type variables in it.  Equivalent
types, which differ in such names only, are to be interchangeable in a check, so a rule has to give
the same whatever the type parameters in its type are (`Ty.Impartial`).
-/

namespace CelTyping

/-! ## Rules that do not go by the names of type parameters -/

namespace View

mutual

/-- A view in which all type parameters look alike. -/
def anonymous : View → View
  | node kind name params traits manner =>
    if kind = .typeParam then node kind "" (anonymousAll params) .none .structural
    else node kind name (anonymousAll params) traits manner

/-- Views in which all type parameters look alike. -/
def anonymousAll : List View → List View
  | [] => []
  | v :: rest => v.anonymous :: anonymousAll rest

end

theorem anonymousAll_eq_map (vs : List View) : anonymousAll vs = vs.map anonymous := by
  induction vs with
  | nil => rfl
  | cons v rest ih => rw [anonymousAll, List.map_cons, ih]

theorem kind_anonymous (v : View) : v.anonymous.kind = v.kind := by
  obtain ⟨kind, name, params, traits, manner⟩ := v
  rw [anonymous]
  split <;> rfl

theorem name_anonymous {v : View} (h : v.kind ≠ .typeParam) : v.anonymous.name = v.name := by
  obtain ⟨kind, name, params, traits, manner⟩ := v
  rw [anonymous, if_neg (show kind ≠ .typeParam from h)]
  rfl

end View

namespace Ty

/-- What the custom rules in a type accept does not depend on the type parameters in it. -/
def Impartial (t : Ty) : Prop :=
  ∀ u ∈ t.nodes, u.isParam = false → ∀ rule, u.acceptance = .custom rule →
    ∀ own : View, own.anonymous = u.view.anonymous →
      ∀ given : View, rule own given = rule u.view given

theorem Impartial.of_mem_params {t c : Ty} (h : t.Impartial) (hc : c ∈ t.params) : c.Impartial :=
  fun u hu => h u (mem_nodes_of_mem_params hc hu)

theorem Ordinary.impartial {t : Ty} (h : t.Ordinary) : t.Impartial := by
  intro u hu _ rule hrule
  have hordinary := h u hu
  rw [hrule] at hordinary
  exact absurd hordinary (by simp [Acceptance.isOrdinary])

/-- A rule that goes by the kind and the name of the type it belongs to, and by the type that is
given, does not go by the names of type parameters. -/
theorem impartial_of_root {t : Ty} (h : ∀ u ∈ t.nodes, ∀ rule, u.acceptance = .custom rule →
    ∀ a b given : View, a.kind = b.kind → a.name = b.name → rule a given = rule b given) :
    t.Impartial := by
  intro u hu hpar rule hrule own hown given
  have hkind : own.kind = u.view.kind := by
    rw [← View.kind_anonymous, hown, View.kind_anonymous]
  have hne : u.view.kind ≠ .typeParam := by
    rw [view_eq]
    exact isParam_iff.not.mp (Bool.eq_false_iff.mp hpar)
  refine h u hu rule hrule _ _ _ hkind ?_
  rw [← View.name_anonymous (hkind ▸ hne), hown, View.name_anonymous hne]

/-! ## Copies with type variables -/

theorem Exposed.of_mem_params {t c : Ty} (h : t.Exposed) (hc : c ∈ t.params) : c.Exposed :=
  fun u hu => h u (mem_nodes_of_mem_params hc hu)

theorem agreeAll_iff_forall₂ {exact : Bool} : ∀ {as bs : List Ty},
    agreeAll exact as bs = true ↔ List.Forall₂ (fun a b => a.agrees exact b = true) as bs
  | [], [] => by simp [agreeAll]
  | [], _ :: _ => by simp [agreeAll]
  | _ :: _, [] => by simp [agreeAll]
  | a :: as, b :: bs => by
    rw [agreeAll, Bool.and_eq_true, List.forall₂_cons, agreeAll_iff_forall₂]

/-- A type with type variables in place of its type parameters looks like it but for these. -/
theorem anonymous_instantiate_var {t : Ty} (ht : t.Exposed) (number : String → Nat) :
    (t.instantiate fun p => .var (number p)).view.anonymous = t.view.anonymous := by
  induction t using Ty.induct with
  | node t ih =>
    cases hpar : t.isParam with
    | true =>
      rw [instantiate_of_isParam hpar, view_eq t, isParam_iff.mp hpar,
        ht.params_nil (mem_nodes_self t) hpar]
      rfl
    | false =>
      have hparams : View.anonymousAll (views (t.params.map (instantiate fun p => .var (number p))))
          = View.anonymousAll (views t.params) := by
        simp only [View.anonymousAll_eq_map, views_eq_map, List.map_map]
        exact List.map_congr_left fun c hc => ih c hc (ht.of_mem_params hc)
      rw [instantiate_of_not_isParam hpar, view_eq t, view_eq]
      show View.anonymous (.node t.kind t.name (views (t.params.map _)) t.traits
        t.acceptance.manner) = _
      rw [View.anonymous, View.anonymous, hparams]

/-- The same simple types are accepted when type variables stand for the type parameters. -/
theorem accepts_instantiate_var {t : Ty} (ht : t.Exposed) (himpartial : t.Impartial)
    (hpar : t.isParam = false) (number : String → Nat) {given : Ty} (hgiven : given.Simple) :
    (t.instantiate fun p => .var (number p)).accepts given = t.accepts given := by
  have hroot := instantiate_of_not_isParam (σ := fun p => .var (number p)) hpar
  cases hacc : t.acceptance with
  | custom rule =>
    have hacc' : (t.instantiate fun p => .var (number p)).acceptance = .custom rule := by
      rw [hroot]
      exact hacc
    rw [accepts_of_custom hacc, accepts_of_custom hacc']
    exact himpartial t (mem_nodes_self t) hpar rule hacc _ (anonymous_instantiate_var ht number)
      given.view
  | structural | nullable =>
    cases hkind : t.kind.isParameterized with
    | false =>
      -- nothing below is a type parameter
      have hground : ∀ u ∈ t.nodes, u.isParam = false := forall_nodes_iff.mpr
        ⟨hpar, fun c hc => (ht t (mem_nodes_self t) hkind c hc).2⟩
      rw [instantiate_eq_self hground]
    | true =>
      -- a simple type is of another kind
      have hne : t.kind ≠ given.kind := fun h => by
        rw [h, hgiven.kind] at hkind
        exact Bool.false_ne_true hkind
      have hordinary : t.acceptance.isOrdinary = true := by rw [hacc]; rfl
      have hordinary' : (t.withParams (t.params.map
          (instantiate fun p => .var (number p)))).acceptance.isOrdinary = true := hordinary
      rw [hroot, accepts_eq hordinary, accepts_eq hordinary']
      show (_ || _ || (t.kind == given.kind && _ && _)) = _
      rw [beq_false_of_ne hne]
      rfl

/-- A type with type variables in place of its type parameters is a copy of it. -/
theorem copy_instantiate_var {t : Ty} (ht : t.Exposed) (himpartial : t.Impartial)
    {R : String → Prop} (hR : ∀ u ∈ t.nodes, u.isParam = true → R u.name) (number : String → Nat) :
    t.Copy (fun p => varName (number p)) R (t.instantiate fun p => .var (number p)) := by
  induction t using Ty.induct with
  | node t ih =>
    cases hpar : t.isParam with
    | true =>
      rw [instantiate_of_isParam hpar]
      exact .param hpar rfl (ht.params_nil (mem_nodes_self t) hpar) rfl
        (hR t (mem_nodes_self t) hpar) rfl
    | false =>
      have hroot := instantiate_of_not_isParam (σ := fun p => .var (number p)) hpar
      refine .node hpar (by rw [hroot]; rfl) (by rw [hroot]; rfl)
        (fun given hgiven => accepts_instantiate_var ht himpartial hpar number hgiven) ?_
      rw [hroot]
      refine List.forall₂_map_right_iff.mpr (List.forall₂_same.mpr fun c hc => ?_)
      exact ih c hc (ht.of_mem_params hc) (himpartial.of_mem_params hc)
        fun u hu => hR u (mem_nodes_of_mem_params hc hu)

end Ty

namespace Overload

/-! ## Matching -/

/-- The types of arguments go together with the formal types of an overload, whatever its type
parameters may have to stand for. -/
def Matches (o : Overload) (args : List Ty) : Prop :=
  (Mapping.empty.unifyAll args o.args).isSome = true

instance (o : Overload) (args : List Ty) : Decidable (o.Matches args) :=
  inferInstanceAs (Decidable (_ = true))

/-- **An attempt to use an overload succeeds if the overload matches**: it depends neither on the
type variables that are used nor on what is bound, as long as the variables are not. -/
theorem isSome_unifyAll_instantiate {o : Overload} {next : Nat} (h : o.HygienicAt next)
    (himpartial : ∀ t ∈ o.args, t.Impartial) {m : Mapping} (hm : m.Acyclic)
    (hplain : m.Within Ty.PlainParams)
    (hfree : ∀ i < o.typeParams.length, m.bindings.find? (Ty.varName (next + i)) = none)
    {args : List Ty} (hargs : ∀ a ∈ args, a.Ground) :
    (m.unifyAll args (o.instantiate next).1).isSome = true ↔ o.Matches args := by
  have hinj : Set.InjOn (fun p => Ty.varName (o.number next p)) {p | p ∈ o.typeParams} :=
    fun _ hp _ _ hpq => eq_of_number_eq hp (Ty.varName_inj hpq)
  have hnone : ∀ p ∈ o.typeParams, m.bindings.find? (Ty.varName (o.number next p)) = none :=
    fun p hp => hfree _ (List.idxOf_lt_length_of_mem hp)
  have hformals : List.Forall₂ (Ty.Copy (fun p => Ty.varName (o.number next p)) (· ∈ o.typeParams))
      o.args (o.instantiate next).1 := by
    rw [instantiate_eq h]
    refine List.forall₂_map_right_iff.mpr (List.forall₂_same.mpr fun t ht => ?_)
    have htypes : t ∈ o.types := List.mem_append_left _ ht
    exact Ty.copy_instantiate_var (h.exposed t htypes) (himpartial t ht)
      (fun u hu hpar => mem_typeParams_of_exposed h.exposed htypes hu hpar) (o.number next)
  have hsame := Mapping.isSome_unifyAll_copy hinj Mapping.acyclic_empty hm Mapping.within_empty
    hplain (Mapping.copy_empty hnone) hargs hformals
  rw [hsame]
  rfl

end Overload

end CelTyping
