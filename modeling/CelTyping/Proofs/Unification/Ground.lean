import CelTyping.Proofs.Ty.Nodes
import CelTyping.Unification.Unify

/-!
# Types without type parameters

Two types without type parameters leave nothing to bind, and unification is a relation between
them: it depends neither on the mapping nor on the depth, and leaves the mapping alone.  `goesWith`
is this relation.

## It is not transitive

`null` goes together with durations and with timestamps, which do not go together; a dynamic type
goes together with everything.  Where types are joined one after another, what went together with
the types before need not go together with the next.  Two things can be said all the same.

* `goesWith_of_isGeneral`: a type goes together with every type that is more general.
* `goesWith_iff_outline`: between steady types, those in which nothing is dynamic, erroneous, null
  or accepted by a rule of its own, going together is having the same outline, and so it is
  transitive (`transitive_of_steady`).
-/

namespace CelTyping
namespace Ty

/-- There are no type parameters in a type. -/
def Ground (t : Ty) : Prop := ∀ u ∈ t.nodes, u.isParam = false

instance (t : Ty) : Decidable t.Ground :=
  inferInstanceAs (Decidable (∀ u ∈ t.nodes, u.isParam = false))

theorem Ground.isParam {t : Ty} (h : t.Ground) : t.isParam = false := h t (mem_nodes_self t)

theorem Ground.of_mem_params {t p : Ty} (h : t.Ground) (hp : p ∈ t.params) : p.Ground :=
  fun u hu => h u (mem_nodes_of_mem_params hp hu)

theorem Ground.mostGeneral {a b : Ty} (ha : a.Ground) (hb : b.Ground) :
    (a.mostGeneral b).Ground := by
  unfold Ty.mostGeneral
  split
  · exact ha
  · exact hb

theorem Ground.of_shape_eq {a b : Ty} (ha : a.Ground) (h : a.shape = b.shape) : b.Ground := by
  induction a using Ty.induct generalizing b with
  | node a ih =>
    rw [shape_eq a, shape_eq b, Shape.node.injEq, shapes_eq_map, shapes_eq_map] at h
    refine forall_nodes_iff.mpr ⟨?_, fun c hc => ?_⟩
    · have hpar := ha.isParam
      unfold Ty.isParam at hpar ⊢
      rw [← h.1]
      exact hpar
    · obtain ⟨p, hp, hpc⟩ : ∃ p ∈ a.params, p.shape = c.shape :=
        List.mem_map.mp (h.2.2 ▸ List.mem_map_of_mem hc)
      exact ih p hp (ha.of_mem_params hp) hpc

/-- A dynamic type that is no parameter goes together with everything. -/
theorem isWildcard_of_isDyn {t : Ty} (h : t.isParam = false) (hdyn : t.isDyn = true) :
    t.isWildcard = true := by
  have hkind := isParam_iff.not.mp (Bool.eq_false_iff.mp h)
  unfold isDyn at hdyn
  unfold Ty.isWildcard
  cases hk : t.kind <;> simp_all [Kind.isDyn]

theorem Ground.isWildcard {t : Ty} (h : t.Ground) (hdyn : t.isDyn = true) :
    t.isWildcard = true :=
  isWildcard_of_isDyn h.isParam hdyn

/-! ## The relation -/

/-- Whether two types of different shape go together, given whether their parameters do. -/
def fits (a b : Ty) (paramsFit : Bool) : Bool :=
  if a.isWildcard || b.isWildcard then true
  else if a.kind = .null then b.admitsNull
  else if b.kind = .null then a.admitsNull
  else
    match a.kind with
    | .bool | .bytes | .double | .int | .string | .uint | .duration | .timestamp | .struct =>
      b.accepts a
    | .type => b.kind == .type
    | .list | .map | .abstract => decide (a.kind = b.kind ∧ a.name = b.name) && paramsFit
    | _ => false

mutual

/-- Whether two types without type parameters go together. -/
def goesWith : Ty → Ty → Bool
  | ⟨kind, name, params, traits, acceptance⟩, other =>
    let t : Ty := ⟨kind, name, params, traits, acceptance⟩
    t.isExact other || t.fits other (allGoWith params other.params)

/-- Whether two lists of types are equally long and go together pairwise. -/
def allGoWith : List Ty → List Ty → Bool
  | [], [] => true
  | a :: as, b :: bs => a.goesWith b && allGoWith as bs
  | _, _ => false

end

theorem goesWith_eq (a b : Ty) :
    a.goesWith b = (a.isExact b || a.fits b (allGoWith a.params b.params)) := by
  cases a
  rw [goesWith]

theorem goesWith_of_isExact {a b : Ty} (h : a.isExact b = true) : a.goesWith b = true := by
  simp [goesWith_eq, h]

theorem goesWith_of_isWildcard {a b : Ty} (h : (a.isWildcard || b.isWildcard) = true) :
    a.goesWith b = true := by
  rw [goesWith_eq, fits, if_pos h, Bool.or_true]

theorem length_eq_of_allGoWith : ∀ {as bs : List Ty}, allGoWith as bs = true →
    as.length = bs.length
  | [], [], _ => rfl
  | [], _ :: _, h => absurd h (by simp [allGoWith])
  | _ :: _, [], h => absurd h (by simp [allGoWith])
  | _ :: as, _ :: bs, h => by
    rw [allGoWith, Bool.and_eq_true] at h
    rw [List.length_cons, List.length_cons, length_eq_of_allGoWith h.2]

end Ty

/-! ## Unification -/

namespace Mapping

theorem allM_of_forall {f : Ty → Option Bool} :
    ∀ {ts : List Ty}, (∀ t ∈ ts, f t = some true) → ts.allM f = some true
  | [], _ => rfl
  | t :: rest, h => by
    obtain ⟨ht, hrest⟩ := List.forall_mem_cons.mp h
    rw [List.allM, ht]
    exact allM_of_forall hrest

theorem isAbsentWithin_ground {p t : Ty} (hp : p.isParam = true) (ht : t.Ground) (m : Mapping)
    {d : Nat} (hd : t.size ≤ d) : m.isAbsentWithin p d t = some true := by
  induction t using Ty.induct generalizing d with
  | node t ih =>
    obtain ⟨d, rfl⟩ := Nat.exists_eq_add_one_of_ne_zero (Nat.pos_iff_ne_zero.mp
      (Nat.lt_of_lt_of_le t.size_pos hd))
    have hexact : p.isExact t = false := Ty.isExact_eq_false_of_isParam hp ht.isParam
    have hparams : t.params.allM (m.isAbsentWithin p d) = some true :=
      allM_of_forall fun c hc => by
        have hlt := Ty.size_lt_of_mem_params hc
        exact ih c hc (ht.of_mem_params hc) (by omega)
    rw [isAbsentWithin, if_neg (by simp [hexact])]
    cases hk : t.kind with
    | typeParam => exact absurd (Ty.isParam_iff.mpr hk) (by simp [ht.isParam])
    | abstract | list | map | type => exact hparams
    | _ => rfl

/-- A type parameter occurs in no type without type parameters, whatever is bound. -/
theorem isAbsent?_ground {m : Mapping} {p t : Ty} (hp : p.isParam = true) (ht : t.Ground) :
    m.isAbsent? p t = some true :=
  isAbsentWithin_ground hp ht m (Nat.le_add_left _ _)

section

variable {unify : Mapping → Ty → Ty → Option (Bool × Mapping)} {m : Mapping}

theorem unifyPairs_ground : ∀ {as bs : List Ty}, as.length = bs.length →
    (∀ a ∈ as, ∀ b ∈ bs, unify m a b = some (a.goesWith b, m)) →
    unifyPairs unify m as bs = some (Ty.allGoWith as bs, m)
  | [], [], _, _ => rfl
  | a :: as, b :: bs, hlength, h => by
    rw [unifyPairs, h a List.mem_cons_self b List.mem_cons_self, Ty.allGoWith]
    have hrest := unifyPairs_ground (Nat.succ.inj hlength) fun c hc d hd =>
      h c (List.mem_cons_of_mem a hc) d (List.mem_cons_of_mem b hd)
    cases a.goesWith b with
    | true => exact hrest
    | false => rfl

theorem unifyLists_ground {as bs : List Ty}
    (h : ∀ a ∈ as, ∀ b ∈ bs, unify m a b = some (a.goesWith b, m)) :
    unifyLists unify m as bs = some (Ty.allGoWith as bs, m) := by
  unfold unifyLists
  split
  · next hlength => exact unifyPairs_ground hlength h
  · next hlength =>
    have hfalse := mt Ty.length_eq_of_allGoWith hlength
    rw [Bool.not_eq_true] at hfalse
    rw [hfalse]

theorem unifyConcrete_ground {a b : Ty} (hexact : a.isExact b = false)
    (h : ∀ c ∈ a.params, ∀ d ∈ b.params, unify m c d = some (c.goesWith d, m)) :
    m.unifyConcrete unify a b = some (a.goesWith b, m) := by
  rw [Ty.goesWith_eq, hexact, Bool.false_or]
  unfold unifyConcrete Ty.fits
  rw [unifyLists_ground h]
  split
  · rfl
  split
  · rfl
  split
  · rfl
  cases a.kind with
  | list | map | abstract =>
    dsimp only
    split
    · next hsame => rw [decide_eq_true hsame, Bool.true_and]
    · next hsame => rw [decide_eq_false hsame, Bool.false_and]
  | _ => rfl

end

/-- **Between types without type parameters unification is a relation**: it binds nothing, and it
does not depend on what is bound. -/
theorem unifyWithin_ground {a b : Ty} (ha : a.Ground) (hb : b.Ground) (m : Mapping) {d : Nat}
    (hd : a.size ≤ d) : unifyWithin d m a b = some (a.goesWith b, m) := by
  induction a using Ty.induct generalizing b d with
  | node a ih =>
    obtain ⟨d, rfl⟩ := Nat.exists_eq_add_one_of_ne_zero (Nat.pos_iff_ne_zero.mp
      (Nat.lt_of_lt_of_le a.size_pos hd))
    rw [unifyWithin]
    cases hexact : a.isExact b with
    | true => rw [if_pos rfl, Ty.goesWith_of_isExact hexact]
    | false =>
      rw [if_neg Bool.false_ne_true, hb.isParam, if_neg Bool.false_ne_true, unifyLeft, ha.isParam,
        if_neg Bool.false_ne_true]
      refine unifyConcrete_ground hexact fun p hp q hq => ?_
      have hlt := Ty.size_lt_of_mem_params hp
      exact ih p hp (ha.of_mem_params hp) (hb.of_mem_params hq) (by omega)

theorem unify?_ground {a b : Ty} (ha : a.Ground) (hb : b.Ground) (m : Mapping) :
    m.unify? a b = some (a.goesWith b, m) := by
  refine unifyWithin_ground ha hb m ?_
  unfold unifyBound
  calc a.size ≤ 2 * (m.weight + (a.size + b.size)) + 1 := by omega
    _ ≤ (2 * (m.weight + (a.size + b.size)) + 1) ^ 5 := Nat.le_self_pow (by decide) _

theorem unify_ground {a b : Ty} (ha : a.Ground) (hb : b.Ground) (m : Mapping) :
    m.unify a b = if a.goesWith b then some m else none := by
  unfold unify
  rw [unify?_ground ha hb]
  cases a.goesWith b <;> rfl

theorem unifyAll_ground {as bs : List Ty} (has : ∀ a ∈ as, a.Ground) (hbs : ∀ b ∈ bs, b.Ground)
    (m : Mapping) : m.unifyAll as bs = if Ty.allGoWith as bs then some m else none := by
  unfold unifyAll unifyAll?
  rw [unifyLists_ground fun a ha b hb => unifyWithin_ground (has a ha) (hbs b hb) m ?_]
  · cases Ty.allGoWith as bs <;> rfl
  · have hsize := Ty.size_le_sizes ha
    unfold unifyBound
    calc a.size ≤ 2 * (m.weight + (Ty.sizes as + Ty.sizes bs)) + 1 := by omega
      _ ≤ (2 * (m.weight + (Ty.sizes as + Ty.sizes bs)) + 1) ^ 5 := Nat.le_self_pow (by decide) _

end Mapping

namespace Ty

/-- A type can be used where another is expected, by unification from the start. -/
def Assignable (a b : Ty) : Prop := (Mapping.empty.unify a b).isSome = true

instance (a b : Ty) : Decidable (a.Assignable b) :=
  inferInstanceAs (Decidable (_ = true))

theorem assignable_iff {a b : Ty} (ha : a.Ground) (hb : b.Ground) :
    a.Assignable b ↔ a.goesWith b = true := by
  unfold Assignable
  rw [Mapping.unify_ground ha hb]
  cases a.goesWith b <;> simp

/-! ## More general types -/

theorem isGeneral_eq (a b : Ty) : a.isGeneral b =
    if a.isDyn then true
    else if b.isDyn then false
    else if a.kind != b.kind then false
    else
      match a.kind with
      | .abstract | .list | .map => a.name == b.name && areGeneral a.params b.params
      | .type => true
      | _ => a.isExact b := by
  cases a with
  | mk kind name params traits acceptance => cases kind <;> rfl

theorem isDyn_of_isGeneral {a b : Ty} (h : a.isGeneral b = true) (hb : b.isDyn = true) :
    a.isDyn = true := by
  by_contra ha
  rw [isGeneral_eq, if_neg ha, if_pos hb] at h
  exact Bool.false_ne_true h

theorem allGoWith_of_areGeneral : ∀ {as bs : List Ty},
    (∀ a ∈ as, ∀ b : Ty, a.isGeneral b = true → b.goesWith a = true) →
    areGeneral as bs = true → allGoWith bs as = true
  | [], [], _, _ => rfl
  | [], _ :: _, _, h => absurd h (by simp [areGeneral])
  | _ :: _, [], _, h => absurd h (by simp [areGeneral])
  | a :: as, b :: bs, ih, h => by
    rw [areGeneral, Bool.and_eq_true] at h
    rw [allGoWith, ih a List.mem_cons_self b h.1,
      allGoWith_of_areGeneral (fun c hc => ih c (List.mem_cons_of_mem a hc)) h.2, Bool.and_self]

/-- **A type goes together with a more general one.** -/
theorem goesWith_of_isGeneral {a b : Ty} (ha : a.Ground) (h : a.isGeneral b = true) :
    b.goesWith a = true := by
  induction a using Ty.induct generalizing b with
  | node a ih =>
    rw [isGeneral_eq] at h
    split at h
    · next hdyn =>
      exact goesWith_of_isWildcard (Bool.or_eq_true_iff.mpr (Or.inr (ha.isWildcard hdyn)))
    split at h
    · exact absurd h Bool.false_ne_true
    split at h
    · exact absurd h Bool.false_ne_true
    next hkind =>
    have hsame : a.kind = b.kind := by simpa using hkind
    have hparams : areGeneral a.params b.params = true → allGoWith b.params a.params = true :=
      allGoWith_of_areGeneral fun p hp c hc => ih p hp (ha.of_mem_params hp) hc
    rw [goesWith_eq, Bool.or_eq_true]
    cases hk : a.kind with
    | list | map | abstract =>
      rw [hk] at h hsame
      rw [Bool.and_eq_true, beq_iff_eq] at h
      exact Or.inr (by simp [fits, isWildcard, ← hsame, hk, h.1, hparams h.2])
    | type =>
      rw [hk] at hsame
      exact Or.inr (by simp [fits, isWildcard, ← hsame, hk])
    | _ =>
      rw [hk] at h
      exact Or.inl (isExact_iff.mpr (isExact_iff.mp h).symm)

/-! ## Steady types -/

/-- Whether a node is neither dynamic, erroneous nor null, and without a rule of acceptance of its
own. -/
def isSteadyNode (t : Ty) : Bool :=
  !t.kind.isDyn && t.kind != .error && t.kind != .null &&
    match t.acceptance with
    | .custom _ => false
    | _ => true

/-- Every node of a type is steady. -/
def Steady (t : Ty) : Prop := ∀ u ∈ t.nodes, u.isSteadyNode = true

instance (t : Ty) : Decidable t.Steady :=
  inferInstanceAs (Decidable (∀ u ∈ t.nodes, u.isSteadyNode = true))

namespace Steady

variable {t : Ty} (h : t.Steady)

include h

theorem of_mem_params {p : Ty} (hp : p ∈ t.params) : p.Steady :=
  fun u hu => h u (mem_nodes_of_mem_params hp hu)

theorem kind : t.kind.isDyn = false ∧ t.kind ≠ .error ∧ t.kind ≠ .null := by
  have hnode := h t (mem_nodes_self t)
  simp only [isSteadyNode, Bool.and_eq_true, Bool.not_eq_true', bne_iff_ne] at hnode
  exact ⟨hnode.1.1.1, hnode.1.1.2, hnode.1.2⟩

theorem acceptance : ∀ rule, t.acceptance ≠ .custom rule := by
  intro rule hrule
  have hnode := h t (mem_nodes_self t)
  simp [isSteadyNode, hrule] at hnode

theorem isWildcard : t.isWildcard = false := by
  obtain ⟨hdyn, herror, -⟩ := h.kind
  revert hdyn herror
  unfold Ty.isWildcard
  cases t.kind <;> simp [Kind.isDyn]

theorem ground : t.Ground := by
  intro u hu
  have hnode := h u hu
  revert hnode
  unfold isSteadyNode isParam
  cases u.kind <;> simp [Kind.isDyn]

end Steady

theorem acceptAll_iff : ∀ {as bs : List Ty},
    (∀ a ∈ as, ∀ b ∈ bs, (a.accepts b = true ↔ a.shape = b.shape)) →
    (acceptAll as bs = true ↔ shapes as = shapes bs)
  | [], [], _ => by simp [acceptAll]
  | [], _ :: _, _ => by simp [acceptAll, shapes]
  | _ :: _, [], _ => by simp [acceptAll, shapes]
  | a :: as, b :: bs, h => by
    rw [acceptAll, Bool.and_eq_true, h a List.mem_cons_self b List.mem_cons_self,
      acceptAll_iff fun c hc d hd => h c (List.mem_cons_of_mem a hc) d (List.mem_cons_of_mem b hd),
      shapes, shapes, List.cons.injEq]

/-- Steady types accept what has the same shape. -/
theorem Steady.accepts_iff {a b : Ty} (ha : a.Steady) (hb : b.Steady) :
    a.accepts b = true ↔ a.shape = b.shape := by
  induction a using Ty.induct generalizing b with
  | node a ih =>
    have hparams := acceptAll_iff fun p hp q hq =>
      ih p hp (ha.of_mem_params hp) (hb.of_mem_params hq)
    have hcustom := ha.acceptance
    have hdyn := ha.kind.1
    have hnull := hb.kind.2.2
    rw [shape_eq a, shape_eq b, Shape.node.injEq, ← hparams]
    obtain ⟨kind, name, params, traits, acceptance⟩ := a
    rw [accepts]
    · simp only [beq_false_of_ne hnull, Bool.and_false, Bool.false_or, hdyn, Bool.and_eq_true,
        beq_iff_eq, and_assoc]
    · exact hcustom

end Ty

namespace Shape

mutual

/-- What of a shape matters for going together: of the type of a type, nothing more. -/
def outline : Shape → Shape
  | .node .type _ _ => .node .type "" []
  | .node .list name params => .node .list name (outlines params)
  | .node .map name params => .node .map name (outlines params)
  | .node .abstract name params => .node .abstract name (outlines params)
  | s => s

/-- The outlines of a list of shapes. -/
def outlines : List Shape → List Shape
  | [] => []
  | s :: rest => s.outline :: outlines rest

end

theorem kind_outline (s : Shape) : s.outline.kind = s.kind := by
  obtain ⟨kind, name, params⟩ := s
  cases kind <;> rfl

theorem outline_of_not_isParameterized {s : Shape} (h : s.kind.isParameterized = false) :
    s.outline = s := by
  obtain ⟨kind, name, params⟩ := s
  cases kind <;> first | rfl | exact absurd h (by simp [Shape.kind, Kind.isParameterized])

end Shape

namespace Ty

theorem allGoWith_iff : ∀ {as bs : List Ty},
    (∀ a ∈ as, ∀ b ∈ bs, (a.goesWith b = true ↔ a.shape.outline = b.shape.outline)) →
    (allGoWith as bs = true ↔ Shape.outlines (shapes as) = Shape.outlines (shapes bs))
  | [], [], _ => by simp [allGoWith]
  | [], _ :: _, _ => by simp [allGoWith, shapes, Shape.outlines]
  | _ :: _, [], _ => by simp [allGoWith, shapes, Shape.outlines]
  | a :: as, b :: bs, h => by
    rw [allGoWith, Bool.and_eq_true, h a List.mem_cons_self b List.mem_cons_self,
      allGoWith_iff fun c hc d hd => h c (List.mem_cons_of_mem a hc) d (List.mem_cons_of_mem b hd),
      shapes, shapes, Shape.outlines, Shape.outlines, List.cons.injEq]

/-- Steady types of different shape go together by their kind alone. -/
theorem Steady.fits_eq {a b : Ty} (ha : a.Steady) (hb : b.Steady) (paramsFit : Bool) :
    a.fits b paramsFit =
      match a.kind with
      | .bool | .bytes | .double | .int | .string | .uint | .duration | .timestamp | .struct =>
        b.accepts a
      | .type => b.kind == .type
      | .list | .map | .abstract => decide (a.kind = b.kind ∧ a.name = b.name) && paramsFit
      | _ => false := by
  rw [fits, ha.isWildcard, hb.isWildcard, if_neg (by decide), if_neg ha.kind.2.2,
    if_neg hb.kind.2.2]

/-- **Between steady types, going together is having the same outline.** -/
theorem Steady.goesWith_iff_outline {a b : Ty} (ha : a.Steady) (hb : b.Steady) :
    a.goesWith b = true ↔ a.shape.outline = b.shape.outline := by
  induction a using Ty.induct generalizing b with
  | node a ih =>
    have hparams := allGoWith_iff fun p hp q hq =>
      ih p hp (ha.of_mem_params hp) (hb.of_mem_params hq)
    rw [goesWith_eq, Bool.or_eq_true, isExact_iff, ha.fits_eq hb]
    constructor
    · rintro (hshape | hfits)
      · rw [hshape]
      · cases hk : a.kind with
        | list | map | abstract =>
          rw [hk, Bool.and_eq_true, decide_eq_true_eq, hparams] at hfits
          obtain ⟨⟨hkind, hname⟩, hfits⟩ := hfits
          rw [shape_eq a, shape_eq b, hk, ← hkind, hname, Shape.outline, Shape.outline, hfits]
        | type =>
          rw [hk, beq_iff_eq] at hfits
          rw [shape_eq a, shape_eq b, hk, hfits, Shape.outline, Shape.outline]
        | bool | bytes | double | int | string | uint | duration | timestamp | struct =>
          rw [hk, hb.accepts_iff ha] at hfits
          rw [hfits]
        | _ =>
          rw [hk] at hfits
          exact absurd hfits Bool.false_ne_true
    · intro houtline
      have hkind : a.kind = b.kind := by
        rw [← shape_kind a, ← shape_kind b, ← Shape.kind_outline, houtline, Shape.kind_outline]
      cases hk : a.kind with
      | list | map | abstract =>
        rw [shape_eq a, shape_eq b, ← hkind, hk, Shape.outline, Shape.outline, Shape.node.injEq]
          at houtline
        refine Or.inr ?_
        rw [Bool.and_eq_true, decide_eq_true_eq, hparams]
        exact ⟨⟨hk ▸ hkind, houtline.2.1⟩, houtline.2.2⟩
      | type => exact Or.inr (by rw [← hkind, hk]; rfl)
      | _ =>
        left
        rwa [Shape.outline_of_not_isParameterized (by rw [shape_kind, hk]; rfl),
          Shape.outline_of_not_isParameterized (by rw [shape_kind, ← hkind, hk]; rfl)] at houtline

/-! ## Transitivity -/

/-- Among the types of a list, what can be used for something can be used for what that can be used
for. -/
def Transitive (ts : List Ty) : Prop :=
  ∀ a ∈ ts, ∀ b ∈ ts, ∀ c ∈ ts, a.Assignable b → b.Assignable c → a.Assignable c

instance (ts : List Ty) : Decidable (Transitive ts) :=
  inferInstanceAs (Decidable (∀ a ∈ ts, ∀ b ∈ ts, ∀ c ∈ ts, a.Assignable b → b.Assignable c →
    a.Assignable c))

theorem Transitive.mono {as bs : List Ty} (h : Transitive bs) (hsub : as ⊆ bs) : Transitive as :=
  fun a ha b hb c hc => h a (hsub ha) b (hsub hb) c (hsub hc)

/-- Steady types are transitive. -/
theorem transitive_of_steady {ts : List Ty} (h : ∀ t ∈ ts, t.Steady) : Transitive ts := by
  intro a ha b hb c hc hab hbc
  rw [assignable_iff (h a ha).ground (h b hb).ground, (h a ha).goesWith_iff_outline (h b hb)] at hab
  rw [assignable_iff (h b hb).ground (h c hc).ground, (h b hb).goesWith_iff_outline (h c hc)] at hbc
  rw [assignable_iff (h a ha).ground (h c hc).ground, (h a ha).goesWith_iff_outline (h c hc)]
  exact hab.trans hbc

/-- Two types are transitive, as every type can be used for itself. -/
theorem transitive_of_length {ts : List Ty} (hground : ∀ t ∈ ts, t.Ground) (h : ts.length ≤ 2) :
    Transitive ts := by
  intro a ha b hb c hc hab hbc
  have hself : c.Assignable c :=
    (assignable_iff (hground c hc) (hground c hc)).mpr (goesWith_of_isExact (isExact_iff.mpr rfl))
  match ts, h with
  | [], _ => exact absurd ha List.not_mem_nil
  | [x], _ =>
    obtain rfl := List.mem_singleton.mp ha
    obtain rfl := List.mem_singleton.mp hc
    exact hself
  | [x, y], _ =>
    simp only [List.mem_cons, List.not_mem_nil, or_false] at ha hb hc
    rcases ha with rfl | rfl <;> rcases hc with rfl | rfl
    · exact hself
    · rcases hb with rfl | rfl
      · exact hbc
      · exact hab
    · rcases hb with rfl | rfl
      · exact hab
      · exact hbc
    · exact hself

end Ty
end CelTyping
