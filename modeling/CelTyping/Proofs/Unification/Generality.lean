import CelTyping.Proofs.Unification.FirstOrder
import CelTyping.Proofs.Unification.Symmetry

/-!
# More general types

A type is at least as general as another when it says no more.  A bound type parameter is bound anew
to the more general of two types that go together, so what went together with the old binding has
to go together with the new one.

Going together is not transitive, and a more general type goes together with more types than the
one it generalises.  What is left is the other direction, and it needs two things.  The rules of
acceptance must be structural: `int` is as general as `wrapper(int)`, which goes together with
`null`.  And there must be no type parameters, since a parameter remembers what it was bound to.

* `isGeneral_iff`: what being more general asks of the roots of two well-formed types.
* `isGeneral_refl`, `isGeneral_trans`: generality is a preorder.
* `goesWith_of_isGeneral_right`: what goes together with a type goes together with every more
  general one.  The induction is on the type that is compared with the two.
-/

namespace CelTyping

theorem Acceptance.eq_of_isStructural {a : Acceptance} (h : a.isStructural = true) :
    a = .structural := by
  revert h
  cases a <;> simp [isStructural]

namespace Ty

/-- Every node of a type has the structural rule of acceptance. -/
def Structural (t : Ty) : Prop := ∀ u ∈ t.nodes, u.acceptance.isStructural = true

instance (t : Ty) : Decidable t.Structural :=
  inferInstanceAs (Decidable (∀ u ∈ t.nodes, u.acceptance.isStructural = true))

theorem Structural.of_mem_params {t p : Ty} (h : t.Structural) (hp : p ∈ t.params) :
    p.Structural :=
  fun u hu => h u (mem_nodes_of_mem_params hp hu)

theorem Structural.acceptance {t : Ty} (h : t.Structural) : t.acceptance = .structural :=
  Acceptance.eq_of_isStructural (h t (mem_nodes_self t))

/-! ## The structural rule -/

theorem accepts_of_structural {t : Ty} (h : t.acceptance = .structural) (given : Ty) :
    t.accepts given = (t.kind.isDyn ||
      (t.kind == given.kind && t.name == given.name && acceptAll t.params given.params)) := by
  rw [accepts_eq (by rw [h]; rfl), h]
  rfl

theorem Structural.strict_eq_self {t : Ty} (h : t.Structural) : t.strict = t := by
  induction t using Ty.induct with
  | node t ih =>
    have hparams : t.params.map strict = t.params := by
      rw [List.map_congr_left fun c hc => ih c hc (h.of_mem_params hc)]
      exact List.map_id _
    rw [strict_eq, hparams, ← h.acceptance]
    cases t
    rfl

theorem Structural.ordinary {t : Ty} (h : t.Structural) : t.Ordinary :=
  h.strict_eq_self ▸ t.ordinary_strict

/-- Equivalent structural types accept the same. -/
theorem Structural.accepts_eq {t u : Ty} (ht : t.Structural) (hu : u.Structural)
    (h : t.isEquivalent u = true) (given : Ty) : u.accepts given = t.accepts given := by
  have hnulls : t.nullsWithin u = true := ht.strict_eq_self ▸ t.nullsWithin_strict u
  have hnulls' : u.nullsWithin t = true := hu.strict_eq_self ▸ u.nullsWithin_strict t
  exact Bool.eq_iff_iff.mpr
    ⟨hu.ordinary.accepts_mono ht.ordinary (isEquivalent_symm h) hnulls',
      ht.ordinary.accepts_mono hu.ordinary h hnulls⟩

/-- A type that accepts one without parameters is of the same kind and has none itself. -/
theorem params_nil_of_accepts {t a : Ty} (ht : t.WellFormed) (hs : t.acceptance = .structural)
    (hdyn : t.isDyn = false) (ha : a.kind.isParameterized = false) (h : t.accepts a = true) :
    t.kind.isParameterized = false ∧ t.params = [] := by
  rw [accepts_of_structural hs, show t.kind.isDyn = false from hdyn, Bool.false_or,
    Bool.and_eq_true, Bool.and_eq_true, beq_iff_eq] at h
  have hplain : t.kind.isParameterized = false := by
    rw [h.1.1]
    exact ha
  exact ⟨hplain, ht.params_nil hplain⟩

/-- Whether `null` goes together with a type that has the structural rule is decided by its kind. -/
theorem admitsNull_congr {b c : Ty} (hb : b.acceptance = .structural)
    (hc : c.acceptance = .structural) (h : b.kind = c.kind) : b.admitsNull = c.admitsNull := by
  unfold admitsNull acceptsNull
  rw [accepts_of_structural hb, accepts_of_structural hc, ← h]
  cases b.kind <;> rfl

/-! ## More general types -/

/-- Among well-formed types, a more general type is dynamic, or it is of the same kind and, unless
it is the type of a type, has the same name and more general parameters. -/
theorem isGeneral_iff {a b : Ty} (ha : a.WellFormed) (hb : b.WellFormed) :
    a.isGeneral b = true ↔ a.isDyn = true ∨ (b.isDyn = false ∧ a.kind = b.kind ∧
      (a.kind = .type ∨ (a.name = b.name ∧ areGeneral a.params b.params = true))) := by
  rw [isGeneral_eq]
  by_cases hdyn : a.isDyn = true
  · simp [hdyn]
  by_cases hbdyn : b.isDyn = true
  · simp [hdyn, hbdyn]
  by_cases hkind : a.kind = b.kind
  · have hexact : a.kind.isParameterized = false →
        (a.isExact b = true ↔ a.name = b.name ∧ areGeneral a.params b.params = true) := by
      intro hk
      rw [isExact_iff, shape_eq, shape_eq, ha.params_nil hk, hb.params_nil (hkind ▸ hk), hkind]
      simp [areGeneral]
    cases hk : a.kind with
    | list | map | abstract | type => simp [hdyn, hbdyn, ← hkind, hk]
    | _ => simp [hdyn, hbdyn, ← hkind, hk, hexact (by rw [hk]; rfl)]
  · simp [hdyn, hbdyn, hkind]

theorem areGeneral_of_shapes_eq : ∀ {as bs : List Ty},
    (∀ a ∈ as, ∀ b ∈ bs, a.shape = b.shape → a.isGeneral b = true) → shapes as = shapes bs →
    areGeneral as bs = true
  | [], [], _, _ => rfl
  | [], _ :: _, _, h => absurd h (by simp [shapes])
  | _ :: _, [], _, h => absurd h (by simp [shapes])
  | a :: as, b :: bs, ih, h => by
    rw [shapes, shapes, List.cons.injEq] at h
    rw [areGeneral, ih a List.mem_cons_self b List.mem_cons_self h.1,
      areGeneral_of_shapes_eq (fun c hc d hd => ih c (List.mem_cons_of_mem a hc) d
        (List.mem_cons_of_mem b hd)) h.2, Bool.and_self]

theorem isGeneral_of_shape_eq {a b : Ty} (ha : a.WellFormed) (hb : b.WellFormed)
    (h : a.shape = b.shape) : a.isGeneral b = true := by
  induction a using Ty.induct generalizing b with
  | node a ih =>
    rw [shape_eq a, shape_eq b, Shape.node.injEq] at h
    obtain ⟨hkind, hname, hparams⟩ := h
    have hdyn : b.isDyn = a.isDyn := by
      unfold isDyn
      rw [hkind]
    rw [isGeneral_iff ha hb, hdyn]
    cases a.isDyn with
    | true => exact Or.inl rfl
    | false =>
      exact Or.inr ⟨rfl, hkind, Or.inr ⟨hname, areGeneral_of_shapes_eq (fun p hp q hq =>
        ih p hp (ha.of_mem_params hp) (hb.of_mem_params hq)) hparams⟩⟩

theorem areGeneral_trans : ∀ {as bs cs : List Ty},
    (∀ a ∈ as, ∀ b ∈ bs, ∀ c ∈ cs, a.isGeneral b = true → b.isGeneral c = true →
      a.isGeneral c = true) →
    areGeneral as bs = true → areGeneral bs cs = true → areGeneral as cs = true
  | [], [], _, _, _, h => h
  | [], _ :: _, _, _, h, _ => absurd h (by simp [areGeneral])
  | _ :: _, [], _, _, h, _ => absurd h (by simp [areGeneral])
  | _ :: _, _ :: _, [], _, _, h => absurd h (by simp [areGeneral])
  | a :: as, b :: bs, c :: cs, ih, hab, hbc => by
    rw [areGeneral, Bool.and_eq_true] at hab hbc ⊢
    refine ⟨ih a List.mem_cons_self b List.mem_cons_self c List.mem_cons_self hab.1 hbc.1, ?_⟩
    exact areGeneral_trans (fun x hx y hy z hz => ih x (List.mem_cons_of_mem a hx) y
      (List.mem_cons_of_mem b hy) z (List.mem_cons_of_mem c hz)) hab.2 hbc.2

theorem isGeneral_trans {a b c : Ty} (ha : a.WellFormed) (hb : b.WellFormed) (hc : c.WellFormed)
    (hab : a.isGeneral b = true) (hbc : b.isGeneral c = true) : a.isGeneral c = true := by
  induction a using Ty.induct generalizing b c with
  | node a ih =>
    rw [isGeneral_iff ha hc]
    rcases (isGeneral_iff ha hb).mp hab with hdyn | ⟨hbdyn, hkind, hroot⟩
    · exact Or.inl hdyn
    obtain ⟨hcdyn, hkind', hroot'⟩ :=
      ((isGeneral_iff hb hc).mp hbc).resolve_left (Bool.eq_false_iff.mp hbdyn)
    refine Or.inr ⟨hcdyn, hkind.trans hkind', ?_⟩
    rcases hroot with htype | ⟨hname, hparams⟩
    · exact Or.inl htype
    rcases hroot' with htype | ⟨hname', hparams'⟩
    · exact Or.inl (hkind.trans htype)
    refine Or.inr ⟨hname.trans hname', areGeneral_trans (fun p hp q hq r hr => ?_) hparams hparams'⟩
    exact ih p hp (ha.of_mem_params hp) (hb.of_mem_params hq) (hc.of_mem_params hr)

theorem allGoWith_of_areGeneral_right : ∀ {as bs cs : List Ty},
    (∀ a ∈ as, ∀ b ∈ bs, ∀ c ∈ cs, a.goesWith b = true → c.isGeneral b = true →
      a.goesWith c = true) →
    allGoWith as bs = true → areGeneral cs bs = true → allGoWith as cs = true
  | [], [], [], _, _, _ => rfl
  | [], [], _ :: _, _, _, h => absurd h (by simp [areGeneral])
  | [], _ :: _, _, _, h, _ => absurd h (by simp [allGoWith])
  | _ :: _, [], _, _, h, _ => absurd h (by simp [allGoWith])
  | _ :: _, _ :: _, [], _, _, h => absurd h (by simp [areGeneral])
  | a :: as, b :: bs, c :: cs, ih, hab, hcb => by
    rw [allGoWith, Bool.and_eq_true] at hab ⊢
    rw [areGeneral, Bool.and_eq_true] at hcb
    refine ⟨ih a List.mem_cons_self b List.mem_cons_self c List.mem_cons_self hab.1 hcb.1, ?_⟩
    exact allGoWith_of_areGeneral_right (fun x hx y hy z hz => ih x (List.mem_cons_of_mem a hx) y
      (List.mem_cons_of_mem b hy) z (List.mem_cons_of_mem c hz)) hab.2 hcb.2

section

variable {a b c : Ty} (hb : b.WellFormed) (hc : c.WellFormed) (hbs : b.acceptance = .structural)
  (hcs : c.acceptance = .structural) (hkind : c.kind = b.kind)
  (hroot : c.kind = .type ∨ c.name = b.name ∧ areGeneral c.params b.params = true)

include hb hc hbs hcs hkind hroot

/-- What accepts a type without parameters has none, so there is nothing to be more general in. -/
theorem accepts_of_general_root (hbdyn : b.isDyn = false) (hk : a.kind.isParameterized = false)
    (h : b.accepts a = true) : c.accepts a = true := by
  obtain ⟨hplain, hnil⟩ := params_nil_of_accepts hb hbs hbdyn hk h
  rcases hroot with htype | ⟨hname, -⟩
  · rw [← hkind, htype] at hplain
    exact absurd hplain (by decide)
  · rw [accepts_of_structural hbs] at h
    rw [accepts_of_structural hcs, hc.params_nil (hkind ▸ hplain), hname, hkind, ← hnil]
    exact h

/-- A type that fits another fits one that is more general and not dynamic, if its parameters go
together with those of this one. -/
theorem fits_of_general_root (hbdyn : b.isDyn = false) {bFit cFit : Bool}
    (hparams : areGeneral c.params b.params = true → bFit = true → cFit = true)
    (h : a.fits b bFit = true) : a.fits c cFit = true := by
  -- wildcards, `null` and the types of types are told by the kind, which is the same
  have hwild : c.isWildcard = b.isWildcard := by
    unfold isWildcard
    rw [hkind]
  unfold fits at h ⊢
  rw [hwild, hkind, admitsNull_congr hcs hbs hkind]
  split
  · rfl
  next hw =>
  rw [if_neg hw] at h
  split
  · next hnull =>
    rw [if_pos hnull] at h
    exact h
  next hnull =>
  rw [if_neg hnull] at h
  split
  · next hnull' =>
    rw [if_pos hnull'] at h
    exact h
  next hnull' =>
  rw [if_neg hnull'] at h
  cases hk : a.kind with
  | list | map | abstract =>
    rw [hk, Bool.and_eq_true, decide_eq_true_eq] at h
    obtain ⟨⟨hkb, hname⟩, hfit⟩ := h
    rcases hroot with htype | ⟨hname', hgeneral⟩
    · rw [hkind, ← hkb] at htype
      exact absurd htype (by simp)
    · rw [Bool.and_eq_true, decide_eq_true_eq, hname']
      exact ⟨⟨hkb, hname⟩, hparams hgeneral hfit⟩
  | type =>
    rw [hk] at h
    exact h
  | bool | bytes | double | int | string | uint | duration | timestamp | struct =>
    rw [hk] at h
    exact accepts_of_general_root hb hc hbs hcs hkind hroot hbdyn (by rw [hk]; rfl) h
  | _ =>
    rw [hk] at h
    exact h

end

/-- **What goes together with a type goes together with every more general one.** -/
theorem goesWith_of_isGeneral_right {a b c : Ty} (ha : a.WellFormed) (hb : b.WellFormed)
    (hc : c.WellFormed) (hbs : b.Structural) (hcs : c.Structural) (hcground : c.Ground)
    (hab : a.goesWith b = true) (hcb : c.isGeneral b = true) : a.goesWith c = true := by
  induction a using Ty.induct generalizing b c with
  | node a ih =>
    rcases (isGeneral_iff hc hb).mp hcb with hdyn | ⟨hbdyn, hkind, hroot⟩
    · exact goesWith_of_isWildcard (Bool.or_eq_true_iff.mpr (Or.inr (hcground.isWildcard hdyn)))
    rw [goesWith_eq, Bool.or_eq_true] at hab
    rcases hab with hexact | hfits
    · have hba : b.isGeneral a = true := isGeneral_of_shape_eq hb ha (isExact_iff.mp hexact).symm
      exact goesWith_of_isGeneral hcground (isGeneral_trans hc hb ha hcb hba)
    · have hparams : areGeneral c.params b.params = true →
          allGoWith a.params b.params = true → allGoWith a.params c.params = true := by
        intro hgeneral hall
        refine allGoWith_of_areGeneral_right (fun p hp q hq r hr => ?_) hall hgeneral
        exact ih p hp (ha.of_mem_params hp) (hb.of_mem_params hq) (hc.of_mem_params hr)
          (hbs.of_mem_params hq) (hcs.of_mem_params hr) (hcground.of_mem_params hr)
      rw [goesWith_eq, Bool.or_eq_true]
      exact Or.inr (fits_of_general_root hb hc hbs.acceptance hcs.acceptance hkind hroot hbdyn
        hparams hfits)

/-! ## Generality as an order -/

theorem isGeneral_refl {t : Ty} (ht : t.WellFormed) : t.isGeneral t = true :=
  isGeneral_of_shape_eq ht ht rfl

/-- The more general of two comparable types is at least as general as both. -/
theorem isGeneral_mostGeneral {a b : Ty} (ha : a.WellFormed) (hb : b.WellFormed)
    (h : a.isGeneral b = true ∨ b.isGeneral a = true) :
    (a.mostGeneral b).isGeneral a = true ∧ (a.mostGeneral b).isGeneral b = true := by
  unfold mostGeneral
  split
  · next hab => exact ⟨isGeneral_refl ha, hab⟩
  · next hab => exact ⟨h.resolve_left hab, isGeneral_refl hb⟩

/-- The same on the other side: without custom rules types go together both ways. -/
theorem goesWith_of_isGeneral_left {a b c : Ty} (ha : a.WellFormed) (hb : b.WellFormed)
    (hc : c.WellFormed) (hao : a.Ordinary) (hbs : b.Structural) (hcs : c.Structural)
    (hag : a.Ground) (hbg : b.Ground) (hcg : c.Ground) (hba : b.goesWith a = true)
    (hcb : c.isGeneral b = true) : c.goesWith a = true := by
  rw [hb.goesWith_comm ha hbs.ordinary hao hbg hag] at hba
  rw [hc.goesWith_comm ha hcs.ordinary hao hcg hag]
  exact goesWith_of_isGeneral_right ha hb hc hbs hcs hcg hba hcb

/-- **Generality is a preorder that goes along with assignability.**  It is reflexive and
transitive, and the more general of two comparable types is at least as general as both.  Without
type parameters and under the structural rule, a type can stand wherever a more specific one can, on
either side. -/
theorem generality_compatible :
    (∀ t : Ty, t.WellFormed → t.isGeneral t = true) ∧
    (∀ a b c : Ty, a.WellFormed → b.WellFormed → c.WellFormed → a.isGeneral b = true →
      b.isGeneral c = true → a.isGeneral c = true) ∧
    (∀ a b : Ty, a.WellFormed → b.WellFormed → (a.isGeneral b = true ∨ b.isGeneral a = true) →
      (a.mostGeneral b).isGeneral a = true ∧ (a.mostGeneral b).isGeneral b = true) ∧
    (∀ general special t : Ty, general.WellFormed → special.WellFormed → t.WellFormed →
      general.Structural → special.Structural → t.Ordinary →
      general.Ground → special.Ground → t.Ground → general.isGeneral special = true →
      (t.Assignable special → t.Assignable general) ∧
      (special.Assignable t → general.Assignable t)) := by
  refine ⟨fun t ht => isGeneral_refl ht, fun a b c ha hb hc => isGeneral_trans ha hb hc,
    fun a b ha hb => isGeneral_mostGeneral ha hb, ?_⟩
  intro general special t hgwf hswf htwf hgs hss hto hgg hsg htg hgeneral
  rw [assignable_iff htg hsg, assignable_iff htg hgg, assignable_iff hsg htg,
    assignable_iff hgg htg]
  exact ⟨fun h => goesWith_of_isGeneral_right htwf hswf hgwf hss hgs hgg h hgeneral,
    fun h => goesWith_of_isGeneral_left htwf hswf hgwf hto hss hgs htg hsg hgg h hgeneral⟩

/-- What is known of maps from texts to lists of integers carries over to maps from texts to
anything, inside a list and on either side. -/
theorem generality_compatible_nested :
    (list (map string (list dyn))).isGeneral (list (map string (list int))) = true ∧
    (list (map string dyn)).isGeneral (list (map string (list int))) = true ∧
    (list (map string (list int))).Assignable (list (map dyn (list int))) ∧
    (list (map string dyn)).Assignable (list (map dyn (list int))) ∧
    (list (map dyn (list int))).Assignable (list (map string dyn)) := by
  obtain ⟨-, htrans, -, hcompatible⟩ := generality_compatible
  have hlists : (list (map string (list dyn))).isGeneral (list (map string (list int))) = true := by
    decide
  have hgeneral : (list (map string dyn)).isGeneral (list (map string (list int))) = true :=
    htrans _ (list (map string (list dyn))) _ (by decide) (by decide) (by decide) (by decide) hlists
  obtain ⟨hright, hleft⟩ := hcompatible (list (map string dyn)) (list (map string (list int)))
    (list (map dyn (list int))) (by decide) (by decide) (by decide) (by decide) (by decide)
    (by decide) (by decide) (by decide) (by decide) hgeneral
  have huse : (list (map string (list int))).Assignable (list (map dyn (list int))) := by
    decide +kernel
  exact ⟨hlists, hgeneral, huse, hleft huse, hright (by decide +kernel)⟩

/-- With a type parameter in the third type this fails.  Of `map(int, dyn)` and `map(dyn, int)`
neither is more general, so the parameter keeps the first, and `map(string, int)` is refused; in the
more specific case it is bound anew to the second, and `map(string, int)` is accepted. -/
example :
    let triple (a b c : Ty) := abstract "triple" [a, b, c]
    let general := triple (map int dyn) (map dyn int) (map string int)
    let special := triple (map int int) (map dyn int) (map string int)
    general.isGeneral special = true ∧
    (triple (param "A") (param "A") (param "A")).Assignable special ∧
    ¬ (triple (param "A") (param "A") (param "A")).Assignable general := by
  decide +kernel

end Ty
end CelTyping
