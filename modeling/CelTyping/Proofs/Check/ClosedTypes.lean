import CelTyping.Proofs.Check.Acyclicity
import CelTyping.Proofs.Unification.Ground

/-!
# The types in the results

While a check goes on, types are recorded as they are known at the time, and what the type variables
in them stand for is found out later, or never.  Only at the end are the recorded types resolved:
once, with the last mapping.

This module says what that gives.  `Mapping.Resolves m t r` is resolving without a bound on the
depth, as a relation with one rule for each case: a bound parameter is resolved like the type that
is bound to it, however long the chain; an unbound one becomes `dyn`; anything else is resolved in
its parameters.  Whatever a type resolves to by these rules has no type parameters left
(`Resolves.ground`), so it is enough that the bounded function follows the rules
(`Grows.resolves_substitute`).  It does so for the mappings of a check, because they close no cycle
and because they replace nothing but type variables.
-/

namespace CelTyping
namespace Mapping

/-- A type is resolved to another, unbound type parameters being dynamic. -/
inductive Resolves (m : Mapping) : Ty → Ty → Prop where
  /-- A bound type parameter is resolved like what it is bound to. -/
  | bound {t b r : Ty} (hpar : t.isParam = true) (hb : m.find? t = some b) (h : Resolves m b r) :
      Resolves m t r
  /-- An unbound type parameter becomes dynamic. -/
  | unbound {t : Ty} (hpar : t.isParam = true) (hb : m.find? t = none) : Resolves m t .dyn
  /-- Any other type is resolved in its parameters. -/
  | node {t : Ty} (f : Ty → Ty) (hpar : t.isParam = false)
      (h : ∀ c ∈ t.params, Resolves m c (f c)) : Resolves m t (t.withParams (t.params.map f))

/-- **What a type is resolved to has no type parameters.** -/
theorem Resolves.ground {m : Mapping} {t r : Ty} (h : m.Resolves t r) : r.Ground := by
  induction h with
  | bound _ _ _ ih => exact ih
  | unbound _ _ => decide
  | @node t f hpar _ ih =>
    refine Ty.forall_nodes_iff.mpr ⟨hpar, fun c hc => ?_⟩
    obtain ⟨p, hp, rfl⟩ := List.mem_map.mp hc
    exact ih p hp

theorem Settles.resolves_substitute {m : Mapping} (hm : m.Acyclic)
    (hgrows : Grows Ty.OverVars .empty m) {d : Nat} {t : Ty} (ht : t.OverVars)
    (h : m.Settles d t) : m.Resolves t (m.substitute true t) := by
  have hskips := hgrows.skips ht
  induction d generalizing t with
  | zero => exact absurd h (by simp [Settles])
  | succ d ih =>
    by_cases hpar : t.isParam = true
    · rw [settles_succ_of_isParam hpar] at h
      cases hb : m.find? t with
      | some b =>
        have hover : b.OverVars := hgrows.within (fun _ _ hn => absurd hn (by simp [empty])) _ b hb
        rw [substitute_of_bound hm hgrows.apart hskips hb]
        exact .bound hpar hb (ih hover (h b hb) (hgrows.skips hover))
      | none =>
        rw [substitute_of_unbound hm hgrows.apart hskips hpar hb, if_pos rfl]
        exact .unbound hpar hb
    · rw [Bool.not_eq_true] at hpar
      rw [settles_succ_of_not_isParam hpar] at h
      rw [substitute_of_not_isParam hm hgrows.apart hskips ht.wellFormed hpar]
      exact .node _ hpar fun c hc => ih (ht.of_mem_params hc) (h c hc) (hskips.of_mem_params hc)

/-- **Resolving follows the rules**, for a mapping that came about by binding type variables. -/
theorem Grows.resolves_substitute {m : Mapping} (h : Grows Ty.OverVars .empty m) {t : Ty}
    (ht : t.OverVars) : m.Resolves t (m.substitute true t) := by
  have hm : m.Acyclic := h.acyclic (fun _ hu => hu.wellFormed) wellFormed_empty acyclic_empty
  exact (hm.settles (Nat.le_refl _)).resolves_substitute hm h ht

end Mapping

/-- **The types in the results are closed.**  Against clean declarations every type in the results
of a check is without type parameters, and it is what the type that was recorded for the node is
resolved to by all that has been found out about the type variables. -/
theorem types_closed {env : Env} {store : Store}
    (hdecl : env.Declares Ty.Closed Overload.Clean store) (source : Source) (e : Expr) :
    ∀ id t, (check env store source e).1.types.find? id = some t →
      (∀ u ∈ t.nodes, u.kind ≠ .typeParam) ∧
      ∃ s, s = ((Checking.checkExpr env e : Checking Expr).run (.start store)).2 ∧
        ∃ recorded, s.types.find? id = some recorded ∧ s.mapping.Resolves recorded t := by
  intro id t ht
  rw [check_types] at ht
  obtain ⟨recorded, hrecorded, rfl⟩ := Option.map_eq_some_iff.mp ht
  have hsound := sound_of_mem_states hdecl e (Tracing.final_mem_states env store e)
  have hresolves := hsound.grown.resolves_substitute (hsound.types hrecorded)
  refine ⟨fun u hu hk => ?_, _, ?_, recorded, hrecorded, hresolves⟩
  · have hground := hresolves.ground u hu
    rw [Ty.isParam_iff.mpr hk] at hground
    exact absurd hground (by decide)
  · rw [Tracing.run_checkExpr]

/-- What an environment with one scope declares is clean if no name in it starts like that of a type
variable. -/
theorem Env.declares_clean {g : Group}
    (hidents : ∀ e ∈ g.idents.entries, e.2.ty.WellFormed ∧ ∀ u ∈ e.2.ty.nodes,
      u.name.toList.head? ≠ some '_' ∧ u.isParam = false)
    (hoverloads : ∀ e ∈ g.functions.entries, ∀ o ∈ e.2.overloads, ∀ t ∈ o.types, t.WellFormed ∧
      ∀ u ∈ t.nodes, u.name.toList.head? ≠ some '_' ∧
        (u.isParam = false → u.key ∉ o.typeParams)) :
    Env.ofFirst.Declares Ty.Closed Overload.Clean ⟨#[g]⟩ := by
  refine declares_ofFirst (fun e he => ?_) fun e he o ho => ?_
  · obtain ⟨hwf, hnodes⟩ := hidents e he
    exact ⟨Ty.declared_of hwf fun u hu => (hnodes u hu).1, fun u hu => (hnodes u hu).2⟩
  · have htypes := hoverloads e he o ho
    exact ⟨fun t ht => Ty.declared_of (htypes t ht).1 fun u hu => ((htypes t ht).2 u hu).1,
      fun t ht u hu => ((htypes t ht).2 u hu).2⟩

/-- In `[first([]), first([]), xs]` the type of the second `[]` is found out at the last element, by
way of the variable of the first; in `first([])` nothing is found out. -/
theorem types_closed_lists :
    Env.ofFirst.Declares Ty.Closed Overload.Clean ⟨#[listScope]⟩ ∧
    (∃ r : CheckResult, r = (check .ofFirst ⟨#[listScope]⟩ ⟨"", [], .empty⟩
        (.list 1 [.call 2 "first" none [.list 3 [] []], .call 4 "first" none [.list 5 [] []],
          .ident 6 "xs"] [])).1 ∧
      (r.types.find? 5).map Ty.display = some "list(list(int))" ∧
      ∀ id t, r.types.find? id = some t → ∀ u ∈ t.nodes, u.kind ≠ .typeParam) ∧
    ∃ r : CheckResult, r = (check .ofFirst ⟨#[listScope]⟩ ⟨"", [], .empty⟩
        (.call 1 "first" none [.list 2 [] []])).1 ∧
      (r.types.find? 2).map Ty.display = some "list(dyn)" ∧
      ∀ id t, r.types.find? id = some t → ∀ u ∈ t.nodes, u.kind ≠ .typeParam := by
  have hdecl : Env.ofFirst.Declares Ty.Closed Overload.Clean ⟨#[listScope]⟩ :=
    Env.declares_clean (by decide) (by decide)
  refine ⟨hdecl, ⟨_, rfl, by decide +kernel, fun id t ht => ?_⟩, _, rfl, by decide +kernel,
    fun id t ht => ?_⟩
  · exact (types_closed hdecl _ _ id t ht).1
  · exact (types_closed hdecl _ _ id t ht).1

end CelTyping
