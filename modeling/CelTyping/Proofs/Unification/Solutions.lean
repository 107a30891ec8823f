import CelTyping.Proofs.Unification.Growth

/-!
# Solutions of a mapping

An *assignment* gives every type parameter a type.  It *solves* a mapping when every bound
parameter is given exactly what the type it is bound to becomes under the assignment.  The
solutions of a mapping are its meaning: two mappings with the same solutions resolve all types
alike, however differently their bindings are chained.

Solutions are compared up to exact equality of types, that is, by the shapes of types under an
assignment (`Ty.shapeUnder`).

* `shapeUnder_substitute`: resolving a type and then assigning is the same as assigning what the
  parameters are resolved to.
* `shapeUnder_substitute_of_solved`: a solution does not see whether a type was resolved.
* `shapeUnder_eq_of_entailed`: what every solution of a mapping makes equal is made equal by every
  assignment that solves the bindings in reach.
* `size_le_of_reaches`, `size_lt_of_reaches`: under a solution a type is at least as large as
  everything it reaches.
-/

namespace CelTyping

namespace Ty

/-! ## Assignments -/

mutual

/-- The type with types in place of its type parameters. -/
def instantiate (σ : String → Ty) : Ty → Ty
  | ⟨kind, name, params, traits, acceptance⟩ =>
    if kind = .typeParam then σ name
    else ⟨kind, name, instantiateAll σ params, traits, acceptance⟩

/-- `instantiate` on every type of a list. -/
def instantiateAll (σ : String → Ty) : List Ty → List Ty
  | [] => []
  | t :: rest => t.instantiate σ :: instantiateAll σ rest

end

theorem instantiateAll_eq_map (σ : String → Ty) (ts : List Ty) :
    instantiateAll σ ts = ts.map (instantiate σ) := by
  induction ts with
  | nil => rfl
  | cons t rest ih => rw [instantiateAll, List.map_cons, ih]

theorem instantiate_of_isParam {σ : String → Ty} {t : Ty} (h : t.isParam = true) :
    t.instantiate σ = σ t.name := by
  cases t
  rw [instantiate, if_pos (isParam_iff.mp h)]

theorem instantiate_of_not_isParam {σ : String → Ty} {t : Ty} (h : t.isParam = false) :
    t.instantiate σ = t.withParams (t.params.map (instantiate σ)) := by
  have hk : ¬ t.kind = .typeParam := by
    rw [← isParam_iff, h]
    simp
  cases t
  rw [instantiate, if_neg hk, instantiateAll_eq_map]
  rfl

@[simp] theorem instantiate_param (σ : String → Ty) (name : String) :
    (param name).instantiate σ = σ name :=
  instantiate_of_isParam rfl

/-- The shape of a type under an assignment. -/
def shapeUnder (σ : String → Ty) (t : Ty) : Shape := (t.instantiate σ).shape

theorem shapeUnder_of_isParam {σ : String → Ty} {t : Ty} (h : t.isParam = true) :
    t.shapeUnder σ = (σ t.name).shape := by
  unfold shapeUnder
  rw [instantiate_of_isParam h]

theorem shapeUnder_of_not_isParam {σ : String → Ty} {t : Ty} (h : t.isParam = false) :
    t.shapeUnder σ = .node t.kind t.name (t.params.map (shapeUnder σ)) := by
  unfold shapeUnder
  rw [instantiate_of_not_isParam h, shape_eq, shapes_eq_map]
  show Shape.node t.kind t.name ((t.params.map (instantiate σ)).map shape) = _
  rw [List.map_map]
  rfl

/-- Two types that are no parameters become alike when their roots and their parameters do. -/
theorem shapeUnder_eq_iff {σ : String → Ty} {a b : Ty} (ha : a.isParam = false)
    (hb : b.isParam = false) :
    a.shapeUnder σ = b.shapeUnder σ ↔ a.kind = b.kind ∧ a.name = b.name ∧
      a.params.map (shapeUnder σ) = b.params.map (shapeUnder σ) := by
  rw [shapeUnder_of_not_isParam ha, shapeUnder_of_not_isParam hb, Shape.node.injEq]

/-- Exactly equal types have the same shape under every assignment. -/
theorem shapeUnder_congr {σ : String → Ty} {a b : Ty} (h : a.shape = b.shape) :
    a.shapeUnder σ = b.shapeUnder σ := by
  induction a using Ty.induct generalizing b with
  | node a ih =>
    have hkind : a.kind = b.kind := by rw [← shape_kind, ← shape_kind, h]
    have hname : a.name = b.name := by rw [← shape_name, ← shape_name, h]
    have hshapes : a.params.map shape = b.params.map shape := by
      rw [shape_eq, shape_eq, Shape.node.injEq, shapes_eq_map, shapes_eq_map] at h
      exact h.2.2
    cases ha : a.isParam with
    | true =>
      have hb : b.isParam = true := by
        rw [isParam_iff] at ha ⊢
        rw [← hkind, ha]
      rw [shapeUnder_of_isParam ha, shapeUnder_of_isParam hb, hname]
    | false =>
      have hb : b.isParam = false := by
        rw [← Bool.not_eq_true, isParam_iff] at ha ⊢
        rw [← hkind]
        exact ha
      rw [shapeUnder_of_not_isParam ha, shapeUnder_of_not_isParam hb, hkind, hname]
      congr 1
      -- pairwise, by the hypothesis on the parameters
      have hlen : a.params.length = b.params.length := by
        rw [← List.length_map (f := shape), hshapes, List.length_map]
      refine List.ext_getElem (by rw [List.length_map, List.length_map, hlen]) ?_
      intro i h₁ h₂
      rw [List.length_map] at h₁ h₂
      rw [List.getElem_map, List.getElem_map]
      refine ih _ (List.getElem_mem h₁) ?_
      have hi := congrArg (fun l => l[i]?) hshapes
      simpa [h₁, h₂] using hi

/-- A type keeps its shape when every parameter in it is assigned itself. -/
theorem shapeUnder_eq_shape {σ : String → Ty} {t : Ty} (ht : t.WellFormed)
    (h : ∀ p, t.Mentions p → (σ p).shape = (param p).shape) : t.shapeUnder σ = t.shape := by
  induction t using Ty.induct with
  | node t ih =>
    cases hpar : t.isParam with
    | true =>
      have hnil := ht.params_nil_of_isParam hpar
      have hname := h _ (mentions_key hpar)
      rw [key_of_params_nil hnil] at hname
      rw [shapeUnder_of_isParam hpar, hname, shape_eq t, hnil, isParam_iff.mp hpar]
      rfl
    | false =>
      rw [shapeUnder_of_not_isParam hpar, shape_eq t, shapes_eq_map]
      congr 1
      refine List.map_congr_left fun c hc => ?_
      exact ih c hc (ht.of_mem_params hc) fun p hp => h p (hp.of_mem_params hc)

/-! ## Sizes under an assignment -/

theorem size_eq_of_shape_eq {a b : Ty} (h : a.shape = b.shape) : a.size = b.size := by
  have hall : ∀ as bs : List Ty, (∀ a ∈ as, ∀ b : Ty, a.shape = b.shape → a.size = b.size) →
      as.map shape = bs.map shape → sizes as = sizes bs := by
    intro as
    induction as with
    | nil =>
      intro bs _ hmap
      rw [List.map_nil, eq_comm, List.map_eq_nil_iff] at hmap
      rw [hmap]
    | cons a as ih =>
      intro bs hsize hmap
      cases bs with
      | nil => exact absurd hmap (by simp)
      | cons b bs =>
        rw [List.map_cons, List.map_cons, List.cons.injEq] at hmap
        rw [sizes, sizes, hsize a List.mem_cons_self b hmap.1,
          ih bs (fun x hx => hsize x (List.mem_cons_of_mem a hx)) hmap.2]
  induction a using Ty.induct generalizing b with
  | node a ih =>
    rw [shape_eq, shape_eq, Shape.node.injEq, shapes_eq_map, shapes_eq_map] at h
    rw [size_eq, size_eq, hall a.params b.params (fun p hp c hc => ih p hp hc) h.2.2]

theorem size_instantiate_lt {σ : String → Ty} {t c : Ty} (h : t.isParam = false)
    (hc : c ∈ t.params) : (c.instantiate σ).size < (t.instantiate σ).size := by
  refine size_lt_of_mem_params ?_
  rw [instantiate_of_not_isParam h]
  exact List.mem_map.mpr ⟨c, hc, rfl⟩

/-- A type is at least as large as what is assigned to a parameter that occurs in it. -/
theorem size_le_of_mentions {σ : String → Ty} {t : Ty} (ht : t.WellFormed) {p : String}
    (h : t.Mentions p) : (σ p).size ≤ (t.instantiate σ).size := by
  induction t using Ty.induct with
  | node t ih =>
    cases hpar : t.isParam with
    | true =>
      have hkey := (mentions_iff_of_isParam ht hpar).mp h
      rw [key_of_params_nil (ht.params_nil_of_isParam hpar)] at hkey
      exact Nat.le_of_eq (by rw [instantiate_of_isParam hpar, hkey])
    | false =>
      obtain ⟨c, hc, hm⟩ := (mentions_iff_of_not_isParam hpar).mp h
      have hsub := ih c hc (ht.of_mem_params hc) hm
      have hlt := size_instantiate_lt (σ := σ) hpar hc
      omega

end Ty

namespace Mapping

/-! ## Solutions -/

/-- Every bound parameter is assigned what the type it is bound to becomes. -/
def SolvedBy (m : Mapping) (σ : String → Ty) : Prop :=
  ∀ p t, m.bindings.find? p = some t → (σ p).isExact (t.instantiate σ) = true

theorem solvedBy_iff {m : Mapping} {σ : String → Ty} :
    m.SolvedBy σ ↔ ∀ p t, m.bindings.find? p = some t → (σ p).shape = t.shapeUnder σ := by
  unfold SolvedBy
  simp only [Ty.isExact_iff]
  rfl

theorem SolvedBy.shape_eq {m : Mapping} {σ : String → Ty} (h : m.SolvedBy σ) {t b : Ty}
    (ht : t.WellFormed) (hpar : t.isParam = true) (hb : m.find? t = some b) :
    t.shapeUnder σ = b.shapeUnder σ := by
  have hkey := Ty.key_of_params_nil (ht.params_nil_of_isParam hpar)
  rw [Ty.shapeUnder_of_isParam hpar, ← hkey]
  exact solvedBy_iff.mp h _ b hb

/-- Under a solution a type is at least as large as what is assigned to a parameter in reach. -/
theorem size_le_of_reaches {m : Mapping} (hm : m.WellFormed) {σ : String → Ty}
    (hσ : m.SolvedBy σ) {t : Ty} (ht : t.WellFormed) {p : String} (h : m.Reaches t p) :
    (σ p).size ≤ (t.instantiate σ).size := by
  obtain ⟨q, hq, hqp⟩ := h
  refine Nat.le_trans ?_ (Ty.size_le_of_mentions ht hq)
  clear hq
  induction hqp with
  | refl => exact Nat.le_refl _
  | @tail r s _ hrs ih =>
    obtain ⟨b, hb, hs⟩ := hrs
    have hsize := Ty.size_eq_of_shape_eq (solvedBy_iff.mp hσ r b hb)
    have hle := Ty.size_le_of_mentions (σ := σ) (hm r b hb) hs
    rw [hsize] at ih
    omega

/-- A type that is no parameter is larger. -/
theorem size_lt_of_reaches {m : Mapping} (hm : m.WellFormed) {σ : String → Ty}
    (hσ : m.SolvedBy σ) {t : Ty} (ht : t.WellFormed) (hpar : t.isParam = false) {p : String}
    (h : m.Reaches t p) : (σ p).size < (t.instantiate σ).size := by
  obtain ⟨c, hc, hcp⟩ := (reaches_iff_of_not_isParam hpar).mp h
  have hle := size_le_of_reaches hm hσ (ht.of_mem_params hc) hcp
  have hlt := Ty.size_instantiate_lt (σ := σ) hpar hc
  omega

/-! ## Resolving and assigning -/

theorem skips_param (m : Mapping) (p : String) : m.Skips (Ty.param p) := by
  intro u hu hpar
  rw [Ty.nodes_eq] at hu
  rcases List.mem_cons.mp hu with rfl | hu
  · exact absurd hpar (by simp)
  · exact absurd hu (by simp [Ty.param, Ty.nodesOfAll])

section

variable {m : Mapping} (hac : m.Acyclic) (hapart : m.Apart)

include hac hapart

/-- Resolving a type and then assigning is assigning what the parameters are resolved to. -/
theorem shapeUnder_substitute {t : Ty} (ht : t.WellFormed) (hskip : m.Skips t)
    (σ : String → Ty) :
    (m.substitute false t).shapeUnder σ =
      t.shapeUnder fun p => (m.substitute false (Ty.param p)).instantiate σ := by
  induction t using Ty.induct with
  | node t ih =>
    cases hpar : t.isParam with
    | true =>
      have hkey : t.key = t.name := Ty.key_of_params_nil (ht.params_nil_of_isParam hpar)
      have hfind : m.find? (Ty.param t.name) = m.find? t := by
        unfold find?
        rw [Ty.key_param, hkey]
      rw [Ty.shapeUnder_of_isParam hpar]
      cases hb : m.find? t with
      | some b =>
        rw [substitute_of_bound hac hapart hskip hb,
          substitute_of_bound hac hapart (m.skips_param t.name) (hfind.trans hb)]
        rfl
      | none =>
        rw [substitute_of_unbound hac hapart hskip hpar hb,
          substitute_of_unbound hac hapart (m.skips_param t.name) rfl (hfind.trans hb)]
        simp only [Bool.false_eq_true, if_false, Ty.instantiate_param]
        exact Ty.shapeUnder_of_isParam hpar
    | false =>
      have hroot : (t.withParams (t.params.map (m.substitute false))).isParam = false := hpar
      rw [substitute_of_not_isParam hac hapart hskip ht hpar,
        Ty.shapeUnder_of_not_isParam hroot, Ty.shapeUnder_of_not_isParam hpar]
      show Shape.node t.kind t.name ((t.params.map _).map _) = _
      rw [List.map_map]
      congr 1
      exact List.map_congr_left fun c hc =>
        ih c hc (ht.of_mem_params hc) (hskip.of_mem_params hc)

/-- An assignment that solves the bindings in reach of a type does not see whether the type was
resolved. -/
theorem shapeUnder_substitute_of_solved (hwf : m.WellFormed) {t : Ty} (ht : t.WellFormed)
    (hskip : m.Skips t) {σ : String → Ty}
    (hσ : ∀ p b, m.Reaches t p → m.bindings.find? p = some b → (σ p).shape = b.shapeUnder σ) :
    (m.substitute false t).shapeUnder σ = t.shapeUnder σ := by
  have hsettles := hac.settles (Nat.le_refl (m.depthBound t))
  generalize m.depthBound t = d at hsettles
  induction d generalizing t with
  | zero => exact absurd hsettles (by simp [Settles])
  | succ d ih =>
    cases hpar : t.isParam with
    | true =>
      cases hb : m.find? t with
      | some b =>
        rw [settles_succ_of_isParam hpar] at hsettles
        rw [substitute_of_bound hac hapart hskip hb,
          ih (hwf _ b hb) (hapart _ b hb)
            (fun p c hp hc => hσ p c (reaches_of_bound hpar hb hp) hc) (hsettles b hb),
          Ty.shapeUnder_of_isParam hpar,
          ← Ty.key_of_params_nil (ht.params_nil_of_isParam hpar)]
        exact (hσ _ b (Reaches.of_mentions (Ty.mentions_key hpar)) hb).symm
      | none =>
        rw [substitute_of_unbound hac hapart hskip hpar hb]
        rfl
    | false =>
      rw [settles_succ_of_not_isParam hpar] at hsettles
      have hroot : (t.withParams (t.params.map (m.substitute false))).isParam = false := hpar
      rw [substitute_of_not_isParam hac hapart hskip ht hpar,
        Ty.shapeUnder_of_not_isParam hroot, Ty.shapeUnder_of_not_isParam hpar]
      show Shape.node t.kind t.name ((t.params.map _).map _) = _
      rw [List.map_map]
      congr 1
      exact List.map_congr_left fun c hc =>
        ih (ht.of_mem_params hc) (hskip.of_mem_params hc)
          (fun p b hp hb => hσ p b (hp.of_mem_params hc) hb) (hsettles c hc)

/-- What the parameters are resolved to, with an assignment for what is left, is a solution. -/
theorem solvedBy_substitute (hwf : m.WellFormed) (σ : String → Ty) :
    m.SolvedBy fun p => (m.substitute false (Ty.param p)).instantiate σ := by
  rw [solvedBy_iff]
  intro p b hb
  have hb' : m.find? (Ty.param p) = some b := by
    unfold find?
    rw [Ty.key_param]
    exact hb
  rw [substitute_of_bound hac hapart (m.skips_param p) hb',
    ← shapeUnder_substitute hac hapart (hwf p b hb) (hapart p b hb)]
  rfl

/-- **What every solution makes equal is made equal by every assignment that solves the bindings
in reach.**  The bindings out of reach can be solved without touching the types compared. -/
theorem shapeUnder_eq_of_entailed (hwf : m.WellFormed) {x y : Ty} (hx : x.WellFormed)
    (hy : y.WellFormed) (hskipx : m.Skips x) (hskipy : m.Skips y)
    (hent : ∀ σ, m.SolvedBy σ → x.shapeUnder σ = y.shapeUnder σ) {σ : String → Ty}
    (hσ : ∀ p b, m.Reaches x p ∨ m.Reaches y p → m.bindings.find? p = some b →
      (σ p).shape = b.shapeUnder σ) :
    x.shapeUnder σ = y.shapeUnder σ := by
  have heq := hent _ (solvedBy_substitute hac hapart hwf σ)
  rw [← shapeUnder_substitute hac hapart hx hskipx, ← shapeUnder_substitute hac hapart hy hskipy,
    shapeUnder_substitute_of_solved hac hapart hwf hx hskipx fun p b hp hb => hσ p b (Or.inl hp) hb,
    shapeUnder_substitute_of_solved hac hapart hwf hy hskipy fun p b hp hb => hσ p b (Or.inr hp) hb]
    at heq
  exact heq

end

end Mapping
end CelTyping
