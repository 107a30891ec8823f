import CelTyping.Proofs.Unification.Ground
import CelTyping.Proofs.Unification.Resolve

/-!
# Resolved types

A type that was resolved through a mapping is often resolved again through the same mapping, with
unbound type parameters left alone or made dynamic.  This does no harm: nothing bound is left in a
resolved type, and resolving it again has the result that resolving the original has.

That nothing bound is left is not enough for the second part.  Bindings are looked up by key, and
resolving makes nodes whose keys were not there before: a type with other parameters, and `dyn`.
The names that are bound must not be mistaken for these (`Unambiguous`).  A key with parameters has
a parenthesis, so it is enough that the names have none.

* `unbound_of_substituteWithin`: a resolved type mentions unbound parameters only, and none at all
  if these were made dynamic.
* `substituteWithin_absorbs`: resolving a resolved type has the result of resolving the original.
  Leaving parameters alone twice, making them dynamic twice, and making them dynamic in the end are
  the three cases.

Both are inductions over the depth to which bindings are followed; that the depth suffices is a
matter of the mapping having no cycle.
-/

namespace CelTyping

namespace Ty

/-- The key of a type with parameters has a parenthesis. -/
theorem paren_mem_key {t : Ty} (h : t.params ≠ []) : '(' ∈ t.key.toList := by
  obtain ⟨p, ps, hparams⟩ := List.exists_cons_of_ne_nil h
  rw [key_eq, hparams, keys, applied, String.toList_append, String.toList_append,
    String.toList_append]
  · exact List.mem_append_left _ (List.mem_append_left _ (List.mem_append_right _
      (List.mem_singleton_self _)))
  · exact List.cons_ne_nil _ _

end Ty

namespace Mapping

/-- The names that a mapping binds are not mistaken for the keys of other types that resolving
meets. -/
structure Unambiguous (m : Mapping) : Prop where
  /-- No node of a bound type has a bound name for its key, type parameters aside. -/
  apart : m.Apart
  /-- The name of the dynamic type is not bound. -/
  dyn : m.bindings.find? Ty.dyn.key = none
  /-- No bound name has a parenthesis. -/
  plain : ∀ p t, m.bindings.find? p = some t → '(' ∉ p.toList

/-- A type with parameters is not bound. -/
theorem Unambiguous.find?_eq_none {m : Mapping} (hm : m.Unambiguous) {t : Ty} (h : t.params ≠ []) :
    m.find? t = none := by
  cases hb : m.find? t with
  | none => rfl
  | some b => exact absurd (Ty.paren_mem_key h) (hm.plain _ b hb)

/-! ## One step of resolving -/

/-- What has no parameters and is not bound stays, or becomes dynamic. -/
theorem substituteWithin_of_params_nil {m : Mapping} {t : Ty} (hb : m.find? t = none)
    (hnil : t.params = []) (toDyn : Bool) (d : Nat) :
    m.substituteWithin toDyn (d + 1) t = some (if toDyn && t.isParam then .dyn else t) := by
  rw [substituteWithin, hb, hnil]
  dsimp only
  rw [List.isEmpty_nil, Bool.not_true, Bool.and_false, if_neg Bool.false_ne_true]
  split <;> rfl

/-- What has parameters and is not bound is resolved in these. -/
theorem substituteWithin_of_params_ne_nil {m : Mapping} {t : Ty} (hb : m.find? t = none)
    (hne : t.params ≠ []) (hkind : t.kind.isParameterized = true) (toDyn : Bool) (d : Nat) :
    m.substituteWithin toDyn (d + 1) t =
      (t.params.mapM (m.substituteWithin toDyn d)).map t.withParams := by
  have hcond : (t.kind.isParameterized && !t.params.isEmpty) = true := by
    rw [hkind, Bool.true_and, Bool.not_eq_true', List.isEmpty_eq_false_iff]
    exact hne
  rw [substituteWithin, hb]
  dsimp only
  rw [Ty.isParam_of_isParameterized hkind, Bool.and_false, if_neg Bool.false_ne_true, if_pos hcond]

theorem mapM_of_mapM {f g k : Ty → Option Ty} : ∀ {ts rs ss : List Ty},
    (∀ t ∈ ts, ∀ r ∈ rs, ∀ s, f t = some r → g t = some s → k r = some s) →
    ts.mapM f = some rs → ts.mapM g = some ss → rs.mapM k = some ss
  | [], rs, ss, _, hrs, hss => by
    rw [mapM_eq_some_iff, List.map_nil, eq_comm, List.map_eq_nil_iff] at hrs hss
    rw [hrs, hss]
    rfl
  | _ :: _, [], _, _, hrs, _ => absurd (mapM_eq_some_iff.mp hrs) (by simp)
  | _ :: _, _ :: _, [], _, _, hss => absurd (mapM_eq_some_iff.mp hss) (by simp)
  | t :: ts, r :: rs, s :: ss, ih, hrs, hss => by
    rw [mapM_eq_some_iff, List.map_cons, List.map_cons, List.cons.injEq] at hrs hss
    have hrest := mapM_of_mapM (fun u hu v hv => ih u (List.mem_cons_of_mem t hu) v
      (List.mem_cons_of_mem r hv)) (mapM_eq_some_iff.mpr hrs.2) (mapM_eq_some_iff.mpr hss.2)
    rw [mapM_eq_some_iff, List.map_cons, List.map_cons,
      ih t List.mem_cons_self r List.mem_cons_self s hrs.1 hss.1, mapM_eq_some_iff.mp hrest]

/-! ## What is left in a resolved type -/

/-- **A resolved type mentions no bound parameter**, and no parameter at all if the unbound ones
were made dynamic. -/
theorem unbound_of_substituteWithin {m : Mapping} (hm : m.WellFormed) {toDyn : Bool} {d : Nat}
    {t r : Ty} (ht : t.WellFormed) (h : m.substituteWithin toDyn d t = some r) :
    ∀ u ∈ r.nodes, u.isParam = true → toDyn = false ∧ m.find? u = none := by
  induction d generalizing t r with
  | zero => exact absurd h (by simp [substituteWithin])
  | succ d ih =>
    cases hb : m.find? t with
    | some b =>
      rw [substituteWithin, hb] at h
      exact ih (hm _ b hb) h
    | none =>
      by_cases hnil : t.params = []
      · rw [substituteWithin_of_params_nil hb hnil, Option.some.injEq] at h
        subst h
        split
        · intro u hu hupar
          obtain rfl : u = .dyn := List.mem_singleton.mp hu
          exact absurd hupar (by decide)
        · next hcond =>
          rw [Ty.nodes_eq, hnil]
          intro u hu hupar
          obtain rfl := List.mem_singleton.mp hu
          rw [hupar, Bool.and_true, Bool.not_eq_true] at hcond
          exact ⟨hcond, hb⟩
      · have hkind := (ht t (Ty.mem_nodes_self t)).resolve_left hnil
        rw [substituteWithin_of_params_ne_nil hb hnil hkind] at h
        obtain ⟨rs, hrs, rfl⟩ := Option.map_eq_some_iff.mp h
        refine Ty.forall_nodes_iff.mpr ⟨fun hupar => ?_, fun c hc => ?_⟩
        · rw [Ty.isParam_of_isParameterized (t := t.withParams rs) hkind] at hupar
          exact absurd hupar Bool.false_ne_true
        · obtain ⟨p, hp, hpc⟩ := exists_of_mem_mapM hrs hc
          exact ih (ht.of_mem_params hp) hpc

/-! ## Resolving again -/

/-- **Resolving a resolved type has the result of resolving the original**, if parameters that were
made dynamic the first time are so the second time.  The second time the size of the type bounds the
depth, as there are no bindings left to follow. -/
theorem substituteWithin_absorbs {m : Mapping} (hm : m.WellFormed) (hnames : m.Unambiguous)
    {first second : Bool} (hdyn : first = true → second = true) {d d' : Nat} {t r s : Ty}
    (ht : t.WellFormed) (hr : m.substituteWithin first d t = some r)
    (hs : m.substituteWithin second d t = some s) (hd : r.size ≤ d') :
    m.substituteWithin second d' r = some s := by
  induction d generalizing t r s d' with
  | zero => exact absurd hr (by simp [substituteWithin])
  | succ d ih =>
    obtain ⟨d', rfl⟩ := Nat.exists_eq_add_one_of_ne_zero (Nat.pos_iff_ne_zero.mp
      (Nat.lt_of_lt_of_le r.size_pos hd))
    cases hb : m.find? t with
    | some b =>
      rw [substituteWithin, hb] at hr hs
      exact ih (hm _ b hb) hr hs hd
    | none =>
      by_cases hnil : t.params = []
      · rw [substituteWithin_of_params_nil hb hnil, Option.some.injEq] at hr hs
        subst hr hs
        by_cases hcond : (first && t.isParam) = true
        · -- the parameter became dynamic the first time, and nothing becomes of `dyn`
          obtain ⟨hfirst, hpar⟩ := Bool.and_eq_true_iff.mp hcond
          rw [if_pos hcond, if_pos (by rw [hdyn hfirst, hpar]; rfl),
            substituteWithin_of_params_nil hnames.dyn rfl, ite_self]
        · rw [if_neg hcond]
          exact substituteWithin_of_params_nil hb hnil second d'
      · have hkind := (ht t (Ty.mem_nodes_self t)).resolve_left hnil
        rw [substituteWithin_of_params_ne_nil hb hnil hkind] at hr hs
        obtain ⟨rs, hrs, rfl⟩ := Option.map_eq_some_iff.mp hr
        obtain ⟨ss, hss, rfl⟩ := Option.map_eq_some_iff.mp hs
        have hparams : rs.mapM (m.substituteWithin second d') = some ss := by
          refine mapM_of_mapM (fun c hc u hu v hcu hcv => ?_) hrs hss
          have hsize := Ty.size_lt_of_mem_params (t := t.withParams rs) hu
          exact ih (ht.of_mem_params hc) hcu hcv (by omega)
        have hne : (t.withParams rs).params ≠ [] := by
          rintro rfl
          exact hnil (List.map_eq_nil_iff.mp (mapM_eq_some_iff.mp hrs))
        rw [substituteWithin_of_params_ne_nil (hnames.find?_eq_none hne) hne hkind]
        exact congrArg (Option.map t.withParams) hparams

/-- **Resolving computes a normal form**, with unbound type parameters left alone or made dynamic.
Nothing bound is left in the one form and no parameter in the other, both resolve to themselves, and
the first resolves to the second.  These are equations between types, rules of acceptance and traits
included. -/
theorem substitute_normal {m : Mapping} (hac : m.Acyclic) (hm : m.WellFormed)
    (hnames : m.Unambiguous) {t : Ty} (ht : t.WellFormed) :
    ∃ resolved closed, m.substitute? false t = some resolved ∧
      m.substitute? true t = some closed ∧
      (∀ u ∈ resolved.nodes, u.isParam = true → m.find? u = none) ∧ closed.Ground ∧
      m.substitute? false resolved = some resolved ∧ m.substitute? true closed = some closed ∧
      m.substitute? true resolved = some closed := by
  have hsome : ∀ toDyn, (m.substitute? toDyn t).isSome := fun toDyn =>
    hac.isSome_substituteWithin hnames.apart toDyn t (Nat.le_refl _)
  obtain ⟨resolved, hresolved⟩ := Option.isSome_iff_exists.mp (hsome false)
  obtain ⟨closed, hclosed⟩ := Option.isSome_iff_exists.mp (hsome true)
  have hdepth : ∀ r : Ty, r.size ≤ m.depthBound r := fun r => Nat.le_add_left _ _
  refine ⟨resolved, closed, hresolved, hclosed, fun u hu hpar => ?_, fun u hu => ?_, ?_, ?_, ?_⟩
  · exact (unbound_of_substituteWithin hm ht hresolved u hu hpar).2
  · refine Bool.eq_false_iff.mpr fun hpar => ?_
    exact absurd (unbound_of_substituteWithin hm ht hclosed u hu hpar).1 (by decide)
  · exact substituteWithin_absorbs hm hnames id ht hresolved hresolved (hdepth resolved)
  · exact substituteWithin_absorbs hm hnames id ht hclosed hclosed (hdepth closed)
  · exact substituteWithin_absorbs hm hnames (fun _ => rfl) ht hresolved hclosed (hdepth resolved)

/-- A bound name that reads like a list of integers takes the place of one that resolving makes. -/
example : let m := (empty.add (.param "T") .int).add (.param "list(int)") .string
    m.substitute? false (.list (.param "T")) = some (.list .int) ∧
    m.substitute? false (.list .int) = some .string :=
  ⟨rfl, rfl⟩

/-- `A` is bound to `B`, and `B` to lists of `D` that may be null. -/
def chained : Mapping :=
  (empty.add (.param "A") (.param "B")).add (.param "B") (.nullable (.list (.param "D")))

theorem chained_cases {p : String} {t : Ty} (h : chained.bindings.find? p = some t) :
    (p = "B" ∧ t = .nullable (.list (.param "D"))) ∨ (p = "A" ∧ t = .param "B") := by
  rw [chained, bindings_find?_add, bindings_find?_add] at h
  split at h
  · next hp => exact Or.inl ⟨hp, (Option.some.inj h).symm⟩
  split at h
  · next hp => exact Or.inr ⟨hp, (Option.some.inj h).symm⟩
  · exact absurd h (by simp [empty])

/-- A pair of an `A` and a `C` resolves along the chain to a pair of a list and a `C`, and from
there to a type without parameters; the list may be null all the way. -/
theorem substitute_normal_chained :
    chained.Acyclic ∧ chained.WellFormed ∧ chained.Unambiguous ∧
    chained.substitute? false (.abstract "pair" [.param "A", .param "C"]) =
      some (.abstract "pair" [.nullable (.list (.param "D")), .param "C"]) ∧
    chained.substitute? true (.abstract "pair" [.nullable (.list (.param "D")), .param "C"]) =
      some (.abstract "pair" [.nullable (.list .dyn), .dyn]) := by
  have hone : (empty.add (.param "A") (.param "B")).WellFormed := wellFormed_empty.add (by decide)
  have hwf : chained.WellFormed := hone.add (by decide)
  have hac : chained.Acyclic := by
    refine (acyclic_empty.add fun hreach => ?_).add fun hreach => ?_
    · have habs := isAbsent?_spec wellFormed_empty (p := .param "A") (t := .param "B")
        (by decide) rfl (by decide) (r := true) (by decide)
      exact habs.mp rfl hreach
    · have habs := isAbsent?_spec hone (p := .param "B") (t := .nullable (.list (.param "D")))
        (by decide) rfl (by decide) (r := true) (by decide)
      exact habs.mp rfl hreach
  have hnames : chained.Unambiguous := by
    refine ⟨fun p t ht => ?_, by decide, fun p t ht => ?_⟩
    · rcases chained_cases ht with ⟨-, rfl⟩ | ⟨-, rfl⟩ <;> unfold Skips <;> decide
    · rcases chained_cases ht with ⟨rfl, -⟩ | ⟨rfl, -⟩ <;> decide
  obtain ⟨resolved, closed, hresolved, hclosed, -, -, -, -, hagain⟩ :=
    substitute_normal hac hwf hnames (t := .abstract "pair" [.param "A", .param "C"]) (by decide)
  obtain rfl : Ty.abstract "pair" [.nullable (.list (.param "D")), .param "C"] = resolved :=
    Option.some.inj (Eq.trans rfl hresolved)
  obtain rfl : Ty.abstract "pair" [.nullable (.list .dyn), .dyn] = closed :=
    Option.some.inj (Eq.trans rfl hclosed)
  exact ⟨hac, hwf, hnames, hresolved, hagain⟩

end Mapping
end CelTyping
