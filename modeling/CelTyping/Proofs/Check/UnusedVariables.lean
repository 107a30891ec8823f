import CelTyping.Proofs.Check.Acyclicity
import CelTyping.Proofs.Check.Matching
import CelTyping.Proofs.Unification.Frame

/-!
# The type variables to come

A check takes its type variables in the order of their numbers, and in every state the number of the
next one is known.  From that number on the variables are new: no type that the check has come
across so far has one of them in it, and none of them is bound (`sound_of_mem_states_overFirst`).

There is no one family of types to say this with for all of a check, since with every variable the
family grows.  Looking back from a state, though, all types so far are over the variables before its
number.  The policy `overFirst` asks for these, and speaks of the check up to this state only, which
it can tell by the numbers because they never go back (`sorted_states`).
-/

namespace CelTyping

namespace Ty

/-! ## Types over the first type variables -/

/-- The name of one of the first type variables. -/
def IsVarBelow (n : Nat) (p : String) : Prop := ∃ i < n, p = varName i

/-- A well-formed type whose type parameters are type variables, all of them among the first. -/
structure OverVarsBelow (n : Nat) (t : Ty) : Prop extends OverVars t where
  /-- The type variables are among the first. -/
  below : t.MentionsOnly (IsVarBelow n)

section

variable {R : String → Prop} {n : Nat} {t : Ty}

theorem mentionsOnly_of_params (hpar : t.isParam = false) (h : ∀ c ∈ t.params, c.MentionsOnly R) :
    t.MentionsOnly R := by
  intro p hp
  obtain ⟨c, hc, hcp⟩ := (mentions_iff_of_not_isParam hpar).mp hp
  exact h c hc p hcp

theorem mentionsOnly_instantiate {σ : String → Ty}
    (h : ∀ u ∈ t.nodes, u.isParam = true → (σ u.name).MentionsOnly R) :
    (t.instantiate σ).MentionsOnly R := by
  induction t using Ty.induct with
  | node t ih =>
    cases hpar : t.isParam with
    | true =>
      rw [instantiate_of_isParam hpar]
      exact h t (mem_nodes_self t) hpar
    | false =>
      rw [instantiate_of_not_isParam hpar]
      refine mentionsOnly_of_params hpar (List.forall_mem_map.mpr fun c hc => ?_)
      exact ih c hc fun u hu => h u (mem_nodes_of_mem_params hc hu)

theorem mentionsOnly_var {i : Nat} (hi : i < n) : (Ty.var i).MentionsOnly (IsVarBelow n) := by
  rintro p ⟨u, hu, -, rfl⟩
  rw [mem_nodes_var hu]
  exact ⟨i, hi, rfl⟩

theorem OverVarsBelow.mono {k : Nat} (h : t.OverVarsBelow n) (hnk : n ≤ k) : t.OverVarsBelow k where
  toOverVars := h.toOverVars
  below p hp := by
    obtain ⟨i, hi, rfl⟩ := h.below p hp
    exact ⟨i, Nat.lt_of_lt_of_le hi hnk, rfl⟩

theorem OverVarsBelow.of_mem_params {c : Ty} (h : t.OverVarsBelow n) (hc : c ∈ t.params) :
    c.OverVarsBelow n :=
  ⟨h.toOverVars.of_mem_params hc, fun p hp => h.below p (hp.of_mem_params hc)⟩

theorem OverVars.below_of_params (h : t.OverVars) (hpar : t.isParam = false)
    (hparams : ∀ c ∈ t.params, c.OverVarsBelow n) : t.OverVarsBelow n :=
  ⟨h, mentionsOnly_of_params hpar fun c hc => (hparams c hc).below⟩

theorem OverVars.below_of_ground (h : t.OverVars) (hground : t.Ground) : t.OverVarsBelow n where
  toOverVars := h
  below := by
    rintro p ⟨u, hu, hpar, -⟩
    rw [hground u hu] at hpar
    exact absurd hpar Bool.false_ne_true

end

theorem WellFormed.exposed {t : Ty} (h : t.WellFormed) : t.Exposed := by
  intro u hu hkind c hc
  rcases h u hu with hnil | hpar
  · rw [hnil] at hc
    exact absurd hc List.not_mem_nil
  · rw [hkind] at hpar
    exact absurd hpar Bool.false_ne_true

end Ty

namespace Overload.Clean

variable {o : Overload} (h : o.Clean)

include h

theorem hygienicAt (next : Nat) : o.HygienicAt next :=
  ⟨h.distinct.clearAt next, fun t ht => (h.declared t ht).wellFormed.exposed⟩

/-- The types of an overload, with new type variables, are over the variables up to these. -/
theorem supplies_below (next : Nat) :
    (∀ t ∈ (o.instantiate next).1, t.OverVarsBelow (o.instantiate next).2.2) ∧
      (o.instantiate next).2.1.OverVarsBelow (o.instantiate next).2.2 := by
  have hygienic := h.hygienicAt next
  have hbelow : ∀ t ∈ o.types, (t.instantiate fun p => .var (o.number next p)).MentionsOnly
      (Ty.IsVarBelow (next + o.typeParams.length)) := fun t ht =>
    Ty.mentionsOnly_instantiate fun u hu hpar => Ty.mentionsOnly_var
      (number_lt (mem_typeParams_of_exposed hygienic.exposed ht hu hpar))
  obtain ⟨hargs, hresult⟩ := forall_types_iff.mp hbelow
  have hover := supplies_of_clean h next
  rw [instantiate_eq hygienic] at hover ⊢
  exact ⟨fun t ht => ⟨hover.1 t ht, List.forall_mem_map.mpr hargs t ht⟩, ⟨hover.2, hresult⟩⟩

end Overload.Clean

/-! ## Mappings over the first type variables -/

namespace Mapping.Grows

variable {m : Mapping} {n : Nat} (h : Grows (Ty.OverVarsBelow n) .empty m)

include h

/-- The type variables to come are not bound. -/
theorem unbound {i : Nat} (hi : n ≤ i) : m.bindings.find? (Ty.varName i) = none := by
  by_contra hbound
  rcases h.exists_param (Option.isSome_iff_ne_none.mpr hbound) with hempty | ⟨u, hu, hpar, hkey⟩
  · exact absurd hempty (by simp [empty])
  · obtain ⟨j, hj, hname⟩ := hu.below u.key (Ty.mentions_key hpar)
    have hij : i = j := Ty.varName_inj (hkey.symm.trans hname)
    omega

theorem acyclic_of_below : m.Acyclic :=
  h.acyclic (fun _ ht => ht.wellFormed) wellFormed_empty acyclic_empty

theorem plainParams_of_below : m.Within Ty.PlainParams := fun p t ht =>
  (h.within within_empty p t ht).wellFormed.plainParams

end Mapping.Grows

/-! ## Checks -/

/-- Every type parameter that a check comes across is one of the first type variables, up to the
last of which the check is looked at. -/
def Policy.overFirst (env : Env) (store : Store) (n : Nat) : Policy where
  Admits := Ty.OverVarsBelow n
  scopes := env.scopes.chain
  fresh := store.groups.size
  Tolerant := True
  Early i := i ≤ n
  params := Ty.OverVarsBelow.of_mem_params
  withParams ht hk hps :=
    (ht.toOverVars.withParams hk fun c hc => (hps c hc).toOverVars).below_of_params
      (Ty.isParam_of_isParameterized hk) hps
  dyn := (Policy.overVars env store).dyn.below_of_ground (by decide)
  constant c := ((Policy.overVars env store).constant c).below_of_params (by cases c <;> rfl)
    fun _ hc => absurd hc (by cases c <;> exact List.not_mem_nil)
  list ht := ((Policy.overVars env store).list ht.toOverVars).below_of_params rfl
    (List.forall_mem_singleton.mpr ht)
  map hk hv := ((Policy.overVars env store).map hk.toOverVars hv.toOverVars).below_of_params rfl
    (List.forall_mem_cons.mpr ⟨hk, List.forall_mem_singleton.mpr hv⟩)
  optional ht := ((Policy.overVars env store).optional ht.toOverVars).below_of_params rfl
    (List.forall_mem_singleton.mpr ht)
  var i hi := ⟨Ty.overVars_var i, Ty.mentionsOnly_var hi⟩
  error _ := ((Policy.overVars env store).error trivial).below_of_ground (by decide)
  error_of_kind _ _ := ((Policy.overVars env store).error trivial).below_of_ground (by decide)

/-- **The type variables to come are new**: in every state of a check against clean declarations,
the types of the nodes and the bindings are over the variables with numbers before the next one. -/
theorem sound_of_mem_states_overFirst {env : Env} {store : Store}
    (h : env.Declares Ty.Closed Overload.Clean store) (e : Expr) {s : CheckState}
    (hs : s ∈ Tracing.states env store e) :
    (Policy.overFirst env store s.nextVar).Sound s := by
  have hU : ∀ t : Ty, t.Closed → (Policy.overFirst env store s.nextVar).Admits t :=
    fun _ ht => ht.overVars.below_of_ground ht.isParam
  have hS : ∀ o : Overload, o.Clean → (Policy.overFirst env store s.nextVar).Supplies o := by
    intro o ho next hearly
    obtain ⟨hargs, hresult⟩ := ho.supplies_below next
    exact ⟨fun t ht => (hargs t ht).mono hearly, hresult.mono hearly⟩
  have hsorted := (Policy.overVars env store).sorted_states (covers_overVars h) (stores_overVars h)
    e (fun _ => trivial) (Or.inl trivial)
  exact (Policy.overFirst env store s.nextVar).sound_of_early (Policy.covers_of_declares h hU rfl)
    (Policy.stores_of_declares h hU rfl hS rfl) e (fun hij hj => Nat.le_trans hij hj) hsorted
    (Or.inl trivial) s hs (Nat.le_refl _)

end CelTyping
