import CelTyping.Proofs.Unification.Reach

/-!
# Resolving types

`substitute` follows the bindings of a mapping with a bound on the depth.  This module shows that
the bound never matters for a mapping without cycles, and gives the equations that one would
write down for a resolver without a bound: a bound parameter is resolved like the type it is
bound to, an unbound one stays, and any other type is resolved in its parameters.

Bindings are looked up by key, so a type that is no parameter is replaced when its key is bound.
A mapping is *apart* from a type when this does not happen in it (`Skips`), and *apart* when it is
apart from all types it binds (`Apart`).

* `substituteWithin_mono`: a greater depth gives the same answer.
* `Acyclic.isSome_substitute?`: an apart mapping without cycles resolves every type.
* `substitute_of_bound`, `substitute_of_unbound`, `substitute_of_not_isParam`: the equations.
* `substitute_mem`: resolving stays within any family of types that is closed under taking
  parameters and giving others.
-/

namespace CelTyping
namespace Mapping

/-- No type in a type is replaced that is not a parameter. -/
def Skips (m : Mapping) (t : Ty) : Prop :=
  ∀ u ∈ t.nodes, u.isParam = false → m.find? u = none

/-- No type in a bound type is replaced that is not a parameter. -/
def Apart (m : Mapping) : Prop := ∀ p t, m.bindings.find? p = some t → m.Skips t

theorem Skips.of_mem_params {m : Mapping} {t c : Ty} (h : m.Skips t) (hc : c ∈ t.params) :
    m.Skips c :=
  fun u hu => h u (Ty.mem_nodes_of_mem_params hc hu)

/-! ## Mapping over a list -/

theorem mapM_eq_some_iff {f : Ty → Option Ty} :
    ∀ {ts rs : List Ty}, ts.mapM f = some rs ↔ ts.map f = rs.map some
  | [], rs => by cases rs <;> simp
  | t :: rest, rs => by
    rw [List.mapM_cons, List.map_cons]
    constructor
    · intro h
      obtain ⟨u, hu, h⟩ := Option.bind_eq_some_iff.mp h
      obtain ⟨us, hus, h⟩ := Option.bind_eq_some_iff.mp h
      rw [← Option.some.inj h, hu, mapM_eq_some_iff.mp hus, List.map_cons]
    · intro h
      cases rs with
      | nil => exact absurd h (by simp)
      | cons u us =>
        rw [List.map_cons, List.cons.injEq] at h
        rw [h.1, mapM_eq_some_iff.mpr h.2]
        rfl

theorem exists_mapM_eq_some {f : Ty → Option Ty} {ts : List Ty} (h : ∀ t ∈ ts, (f t).isSome) :
    ∃ rs, ts.mapM f = some rs := by
  refine ⟨ts.map fun t => (f t).getD t, mapM_eq_some_iff.mpr ?_⟩
  rw [List.map_map]
  refine List.map_congr_left fun t ht => ?_
  obtain ⟨r, hr⟩ := Option.isSome_iff_exists.mp (h t ht)
  simp [hr]

theorem mapM_congr_of_some {f g : Ty → Option Ty} {ts rs : List Ty}
    (hfg : ∀ t ∈ ts, ∀ r, f t = some r → g t = some r) (h : ts.mapM f = some rs) :
    ts.mapM g = some rs := by
  rw [mapM_eq_some_iff] at h ⊢
  induction ts generalizing rs with
  | nil => exact h
  | cons t rest ih =>
    cases rs with
    | nil => exact absurd h (by simp)
    | cons r rs =>
      rw [List.map_cons, List.map_cons, List.cons.injEq] at h
      rw [List.map_cons, List.map_cons, hfg t List.mem_cons_self r h.1,
        ih (fun u hu => hfg u (List.mem_cons_of_mem t hu)) h.2]

theorem exists_of_mem_mapM {f : Ty → Option Ty} {ts rs : List Ty} (h : ts.mapM f = some rs) {r : Ty}
    (hr : r ∈ rs) : ∃ t ∈ ts, f t = some r :=
  List.mem_map.mp (mapM_eq_some_iff.mp h ▸ List.mem_map_of_mem hr)

/-! ## The bound on the depth -/

/-- A greater depth gives the same answer. -/
theorem substituteWithin_mono {m : Mapping} {toDyn : Bool} {d d' : Nat} {t r : Ty}
    (h : m.substituteWithin toDyn d t = some r) (hd : d ≤ d') :
    m.substituteWithin toDyn d' t = some r := by
  induction d generalizing d' t r with
  | zero => exact absurd h (by simp [substituteWithin])
  | succ d ih =>
    obtain ⟨d', rfl⟩ : ∃ k, d' = k + 1 := ⟨d' - 1, by omega⟩
    have hd' : d ≤ d' := by omega
    rw [substituteWithin] at h ⊢
    cases hb : m.find? t with
    | some b =>
      rw [hb] at h
      exact ih h hd'
    | none =>
      rw [hb] at h
      simp only at h ⊢
      split at h
      · rw [if_pos ‹_›]
        exact h
      · rw [if_neg ‹_›]
        split at h
        · rw [if_pos ‹_›]
          obtain ⟨rs, hrs, hr⟩ := Option.map_eq_some_iff.mp h
          rw [mapM_congr_of_some (fun c _ u hu => ih hu hd') hrs, Option.map_some, hr]
        · rw [if_neg ‹_›]
          exact h

/-- What any depth finds is what `substitute?` finds, if it finds anything. -/
theorem substitute?_eq_of_within {m : Mapping} {toDyn : Bool} {d : Nat} {t r : Ty}
    (hsome : (m.substitute? toDyn t).isSome) (h : m.substituteWithin toDyn d t = some r) :
    m.substitute? toDyn t = some r := by
  obtain ⟨s, hs⟩ := Option.isSome_iff_exists.mp hsome
  have hs' := substituteWithin_mono hs (Nat.le_max_right d (m.depthBound t))
  have hr' := substituteWithin_mono h (Nat.le_max_left d (m.depthBound t))
  rw [hs, ← Option.some.inj (hs'.symm.trans hr')]

theorem Settles.isSome_substituteWithin {m : Mapping} (hm : m.Apart) {toDyn : Bool} {d : Nat}
    {t : Ty} (ht : m.Skips t) (h : m.Settles d t) : (m.substituteWithin toDyn d t).isSome := by
  induction d generalizing t with
  | zero => exact absurd h (by simp [Settles])
  | succ d ih =>
    rw [substituteWithin]
    cases hb : m.find? t with
    | some b =>
      cases hpar : t.isParam with
      | true =>
        rw [settles_succ_of_isParam hpar] at h
        exact ih (hm _ b hb) (h b hb)
      | false =>
        rw [ht t (Ty.mem_nodes_self t) hpar] at hb
        exact absurd hb (by simp)
    | none =>
      simp only
      split
      · rfl
      · split
        · rename_i hkind
          have hpar : t.isParam = false :=
            Ty.isParam_of_isParameterized (Bool.and_eq_true_iff.mp hkind).1
          rw [settles_succ_of_not_isParam hpar] at h
          obtain ⟨rs, hrs⟩ := exists_mapM_eq_some (f := m.substituteWithin toDyn d)
            fun c hc => ih (ht.of_mem_params hc) (h c hc)
          rw [hrs]
          rfl
        · rfl

/-- **An apart mapping without cycles resolves every type that it is apart from.** -/
theorem Acyclic.isSome_substitute? {m : Mapping} (hm : m.Acyclic) (hapart : m.Apart)
    (toDyn : Bool) {t : Ty} (ht : m.Skips t) : (m.substitute? toDyn t).isSome :=
  (hm.settles (Nat.le_refl _)).isSome_substituteWithin hapart ht

/-- The same for every type: a replaced type is resolved like the type that is bound to it. -/
theorem Acyclic.isSome_substituteWithin {m : Mapping} (hm : m.Acyclic) (hapart : m.Apart)
    (toDyn : Bool) {d : Nat} (t : Ty) (hd : m.depthBound t ≤ d) :
    (m.substituteWithin toDyn d t).isSome := by
  induction t using Ty.induct generalizing d with
  | node t ih =>
    have hpos := t.size_pos
    unfold depthBound at hd
    obtain ⟨d, rfl⟩ : ∃ k, d = k + 1 := ⟨d - 1, by omega⟩
    rw [substituteWithin]
    cases hb : m.find? t with
    | some b =>
      have hlight := weight_without_add_size_le (m := m) hb
      have hsettles : m.Settles d b := by
        refine Settles.of_without (p := t.key) (hm.not_reaches hb)
          ((hm.without t.key).settles ?_)
        unfold depthBound
        omega
      exact hsettles.isSome_substituteWithin hapart (hapart _ b hb)
    | none =>
      simp only
      split
      · rfl
      · split
        · obtain ⟨rs, hrs⟩ := exists_mapM_eq_some (f := m.substituteWithin toDyn d)
            fun c hc => ih c hc (d := d) (by
              have hsize := Ty.size_lt_of_mem_params hc
              unfold depthBound
              omega)
          rw [hrs]
          rfl
        · rfl

/-! ## The equations of resolving -/

theorem substitute_eq_of_within {m : Mapping} {toDyn : Bool} {d : Nat} {t r : Ty}
    (hsome : (m.substitute? toDyn t).isSome) (h : m.substituteWithin toDyn d t = some r) :
    m.substitute toDyn t = r := by
  unfold substitute
  rw [substitute?_eq_of_within hsome h, Option.getD_some]

theorem substitute?_eq_some {m : Mapping} {toDyn : Bool} {t : Ty}
    (hsome : (m.substitute? toDyn t).isSome) :
    m.substitute? toDyn t = some (m.substitute toDyn t) := by
  obtain ⟨r, hr⟩ := Option.isSome_iff_exists.mp hsome
  unfold substitute
  rw [hr, Option.getD_some]

/-- A type in which nothing is bound stays as it is. -/
theorem substituteWithin_eq_self {m : Mapping} {t : Ty} (h : ∀ u ∈ t.nodes, m.find? u = none)
    {d : Nat} (hd : t.size ≤ d) : m.substituteWithin false d t = some t := by
  induction t using Ty.induct generalizing d with
  | node t ih =>
    obtain ⟨d, rfl⟩ := Nat.exists_eq_add_one_of_ne_zero (Nat.pos_iff_ne_zero.mp
      (Nat.lt_of_lt_of_le t.size_pos hd))
    rw [substituteWithin, h t (Ty.mem_nodes_self t)]
    dsimp only
    rw [Bool.false_and, if_neg Bool.false_ne_true]
    split
    · have hparams : t.params.mapM (m.substituteWithin false d) = some t.params := by
        refine mapM_eq_some_iff.mpr (List.map_congr_left fun c hc => ?_)
        have hlt := Ty.size_lt_of_mem_params hc
        exact ih c hc (fun u hu => h u (Ty.mem_nodes_of_mem_params hc hu)) (by omega)
      rw [hparams, Option.map_some, Ty.withParams_self]
    · rfl

theorem substitute_eq_self {m : Mapping} {t : Ty} (h : ∀ u ∈ t.nodes, m.find? u = none) :
    m.substitute false t = t := by
  unfold substitute substitute?
  rw [substituteWithin_eq_self h (d := m.depthBound t) (Nat.le_add_left _ _), Option.getD_some]

section Equations

variable {m : Mapping} (hm : m.Acyclic) (hapart : m.Apart) {toDyn : Bool} {t : Ty}

include hm hapart

/-- A bound parameter is resolved like the type it is bound to. -/
theorem substitute_of_bound (ht : m.Skips t) {b : Ty} (hb : m.find? t = some b) :
    m.substitute toDyn t = m.substitute toDyn b := by
  have hsome := hm.isSome_substitute? hapart toDyn (hapart _ b hb)
  refine substitute_eq_of_within (hm.isSome_substitute? hapart toDyn ht)
    (d := m.depthBound b + 1) ?_
  rw [substituteWithin, hb]
  exact substitute?_eq_some hsome

/-- An unbound parameter stays, or becomes dynamic. -/
theorem substitute_of_unbound (ht : m.Skips t) (hpar : t.isParam = true)
    (hb : m.find? t = none) : m.substitute toDyn t = if toDyn then .dyn else t := by
  refine substitute_eq_of_within (hm.isSome_substitute? hapart toDyn ht) (d := 1) ?_
  have hk : t.kind.isParameterized = false := by
    rw [Ty.isParam_iff.mp hpar]
    rfl
  rw [substituteWithin, hb]
  cases toDyn <;> simp [hpar, hk]

/-- Any other type is resolved in its parameters. -/
theorem substitute_of_not_isParam (ht : m.Skips t) (hwf : t.WellFormed)
    (hpar : t.isParam = false) :
    m.substitute toDyn t = t.withParams (t.params.map (m.substitute toDyn)) := by
  refine substitute_eq_of_within (hm.isSome_substitute? hapart toDyn ht)
    (d := m.depthBound t + 1) ?_
  rw [substituteWithin, ht t (Ty.mem_nodes_self t) hpar]
  simp only [hpar, Bool.and_false, Bool.false_eq_true, if_false]
  by_cases hnil : t.params = []
  · have hself : t.withParams [] = t := by
      cases t
      simp only at hnil
      rw [hnil, Ty.withParams]
    simp [hnil, hself]
  · have hk : t.kind.isParameterized = true := by
      rcases hwf t (Ty.mem_nodes_self t) with h | h
      · exact absurd h hnil
      · exact h
    have hparams : t.params.mapM (m.substituteWithin toDyn (m.depthBound t)) =
        some (t.params.map (m.substitute toDyn)) := by
      rw [mapM_eq_some_iff, List.map_map]
      refine List.map_congr_left fun c hc => ?_
      have hc' := substitute?_eq_some (hm.isSome_substitute? hapart toDyn (ht.of_mem_params hc))
      refine substituteWithin_mono hc' ?_
      have hsize := Ty.size_lt_of_mem_params hc
      unfold depthBound
      omega
    have hcond : (t.kind.isParameterized && !t.params.isEmpty) = true := by
      simp [hk, hnil]
    rw [if_pos hcond, hparams, Option.map_some]

end Equations

/-! ## What resolving stays within -/

theorem substituteWithin_mem {U : Ty → Prop} {m : Mapping} {toDyn : Bool}
    (hdyn : toDyn = true → U .dyn) (hbound : ∀ p t, m.bindings.find? p = some t → U t)
    (hparams : ∀ t, U t → ∀ c ∈ t.params, U c)
    (hwith : ∀ t ps, U t → t.kind.isParameterized = true → (∀ c ∈ ps, U c) → U (t.withParams ps))
    {d : Nat} {t r : Ty} (ht : U t) (h : m.substituteWithin toDyn d t = some r) : U r := by
  induction d generalizing t r with
  | zero => exact absurd h (by simp [substituteWithin])
  | succ d ih =>
    rw [substituteWithin] at h
    cases hb : m.find? t with
    | some b =>
      rw [hb] at h
      exact ih (hbound _ b hb) h
    | none =>
      rw [hb] at h
      simp only at h
      split at h
      · rename_i hd
        rw [← Option.some.inj h]
        exact hdyn (by simp_all)
      · split at h
        · rename_i hk
          obtain ⟨rs, hrs, hr⟩ := Option.map_eq_some_iff.mp h
          rw [← hr]
          refine hwith t rs ht (by simp_all) fun c hc => ?_
          obtain ⟨p, hp, hpc⟩ := exists_of_mem_mapM hrs hc
          exact ih (hparams t ht p hp) hpc
        · rw [← Option.some.inj h]
          exact ht

/-- Resolving stays within a family of types that has all bound types and is closed under taking
parameters and giving others. -/
theorem substitute_mem {U : Ty → Prop} {m : Mapping} {toDyn : Bool}
    (hdyn : toDyn = true → U .dyn) (hbound : ∀ p t, m.bindings.find? p = some t → U t)
    (hparams : ∀ t, U t → ∀ c ∈ t.params, U c)
    (hwith : ∀ t ps, U t → t.kind.isParameterized = true → (∀ c ∈ ps, U c) → U (t.withParams ps))
    {t : Ty} (ht : U t) : U (m.substitute toDyn t) := by
  unfold substitute
  cases h : m.substitute? toDyn t with
  | none => exact ht
  | some r => exact substituteWithin_mem hdyn hbound hparams hwith ht h

end Mapping
end CelTyping
