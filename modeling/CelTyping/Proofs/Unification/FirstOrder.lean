import CelTyping.Proofs.Unification.Solutions

/-!
# Unification of first-order types

A type is *first-order* when it is built from the plain types, message types, lists, maps, named
abstract types and type parameters, with the structural rule of acceptance at every node.  On
such types unification is what the word says: it looks for an assignment that makes two types
exactly equal.

`Answers m E r m'` says what an answer `r` with a mapping `m'` means, when the question is whether
an assignment solves `m` and satisfies `E`: on success the solutions of `m'` are the solutions of
`m` that satisfy `E`, and on failure there are none.  Both halves speak of all assignments, so a
successful answer is sound, complete and as general as it can be at once.

The main result is `unifyWithin_decides`.  Its one delicate case is a parameter that is bound
anew: the old binding is lost, but it is recovered from the rest of the mapping
(`solvedBy_add_iff_of_entailed`), since the type bound in its place does not reach the parameter.
-/

namespace CelTyping

/-- Whether types of the kind are plain types, message types, lists, maps, named abstract types or
type parameters. -/
def Kind.isFirstOrder : Kind → Bool
  | .bool | .bytes | .double | .int | .uint | .string | .duration | .timestamp | .struct
  | .list | .map | .abstract | .typeParam => true
  | _ => false

/-- First-order types go together with other types by their structure alone. -/
theorem Kind.of_isFirstOrder {k : Kind} (h : k.isFirstOrder = true) :
    k ≠ .dyn ∧ k ≠ .error ∧ k ≠ .any ∧ k ≠ .null ∧ (k ≠ .typeParam → k.isDyn = false) := by
  revert h
  cases k <;> decide

/-- Whether the rule of acceptance is the structural one. -/
def Acceptance.isStructural : Acceptance → Bool
  | .structural => true
  | _ => false

namespace Ty

/-- Whether a node may occur in a first-order type. -/
def isFirstOrderNode (t : Ty) : Bool :=
  t.kind.isFirstOrder && t.acceptance.isStructural && (t.params.isEmpty || t.kind.isParameterized)

section

variable {t : Ty} (h : t.isFirstOrderNode = true)

include h

theorem isFirstOrder_kind : t.kind.isFirstOrder = true := by
  unfold isFirstOrderNode at h
  rw [Bool.and_eq_true, Bool.and_eq_true] at h
  exact h.1.1

theorem structural_of_isFirstOrderNode : t.acceptance = .structural := by
  unfold isFirstOrderNode at h
  rw [Bool.and_eq_true, Bool.and_eq_true] at h
  revert h
  cases t.acceptance <;> simp [Acceptance.isStructural]

theorem params_nil_or_of_isFirstOrderNode : t.params = [] ∨ t.kind.isParameterized = true := by
  unfold isFirstOrderNode at h
  rw [Bool.and_eq_true, Bool.or_eq_true, List.isEmpty_iff] at h
  exact h.2

theorem isWildcard_of_isFirstOrderNode : t.isWildcard = false := by
  obtain ⟨hdyn, herror, hany, -⟩ := Kind.of_isFirstOrder (isFirstOrder_kind h)
  unfold isWildcard
  rw [beq_false_of_ne hdyn, beq_false_of_ne herror, beq_false_of_ne hany]
  rfl

omit h in
theorem kind_ne_of_isParam (hpar : t.isParam = false) : t.kind ≠ .typeParam := by
  rw [Ne, ← isParam_iff, hpar]
  exact Bool.false_ne_true

/-- A first-order type that is no parameter accepts a type without parameters only if the two are
exactly equal. -/
theorem isExact_of_accepts {a : Ty} (hpar : t.isParam = false) (ha : a.params = [])
    (hacc : t.accepts a = true) : a.isExact t = true := by
  have hdyn : t.kind.isDyn = false :=
    (Kind.of_isFirstOrder (isFirstOrder_kind h)).2.2.2.2 (kind_ne_of_isParam hpar)
  have hstruct := structural_of_isFirstOrderNode h
  obtain ⟨kind, name, params, traits, acceptance⟩ := t
  subst hstruct
  rw [accepts] at hacc
  · simp only [Acceptance.takesNull, Bool.false_and, Bool.false_or, hdyn, ha, Bool.and_eq_true,
      beq_iff_eq] at hacc
    have hparams : params = [] := by
      cases params with
      | nil => rfl
      | cons c rest => exact absurd hacc.2 (by simp [acceptAll])
    rw [isExact_iff, shape_eq, shape_eq, ha, hparams, ← hacc.1.1, ← hacc.1.2]
  · simp

end

end Ty

/-- A family of first-order types in which the keys of parameters are the keys of nothing else. -/
structure FirstOrderFamily (U : Ty → Prop) : Prop where
  /-- The parameters of a member are members. -/
  mem_of_mem_params : ∀ {t c : Ty}, U t → c ∈ t.params → U c
  /-- Every member is first-order at its root. -/
  isFirstOrderNode : ∀ {t : Ty}, U t → t.isFirstOrderNode = true
  /-- A parameter has a key of its own. -/
  key_ne : ∀ {t p : Ty}, U t → U p → t.isParam = false → p.isParam = true → t.key ≠ p.key

namespace FirstOrderFamily

variable {U : Ty → Prop} (hU : FirstOrderFamily U)

include hU

theorem mem_of_mem_nodes {t u : Ty} (ht : U t) (hu : u ∈ t.nodes) : U u := by
  induction t using Ty.induct with
  | node t ih =>
    rcases Ty.mem_nodes_iff.mp hu with rfl | ⟨c, hc, huc⟩
    · exact ht
    · exact ih c hc (hU.mem_of_mem_params ht hc) huc

theorem wellFormed {t : Ty} (ht : U t) : t.WellFormed :=
  fun _ hu => Ty.params_nil_or_of_isFirstOrderNode (hU.isFirstOrderNode (hU.mem_of_mem_nodes ht hu))

end FirstOrderFamily

namespace Mapping

/-- An acyclic mapping from parameters of a family to types of the family. -/
structure Over (U : Ty → Prop) (m : Mapping) : Prop where
  /-- The bound types are members. -/
  within : m.Within U
  /-- Whatever is bound is a parameter of the family. -/
  keyed : ∀ {p : String}, (m.bindings.find? p).isSome → ∃ u, U u ∧ u.isParam = true ∧ u.key = p
  /-- No parameter leads back to itself. -/
  acyclic : m.Acyclic

namespace Over

variable {U : Ty → Prop} (hU : FirstOrderFamily U) {m m' : Mapping} (hm : m.Over U)

include hU hm

theorem wellFormed : m.WellFormed := fun p t ht => hU.wellFormed (hm.within p t ht)

theorem skips {t : Ty} (ht : U t) : m.Skips t := by
  intro u hu hpar
  cases hb : m.find? u with
  | none => rfl
  | some b =>
    have hsome : (m.bindings.find? u.key).isSome := Option.isSome_iff_exists.mpr ⟨b, hb⟩
    obtain ⟨q, hq, hqpar, hkey⟩ := hm.keyed hsome
    exact absurd hkey.symm (hU.key_ne (hU.mem_of_mem_nodes ht hu) hq hpar hqpar)

theorem apart : m.Apart := fun p t ht => hm.skips hU (hm.within p t ht)

theorem grow (h : Grows U m m') : m'.Over U where
  within := h.within hm.within
  keyed hp := (h.exists_param hp).elim hm.keyed id
  acyclic := h.acyclic (fun _ => hU.wellFormed) (hm.wellFormed hU) hm.acyclic

end Over

/-! ## What an answer means -/

/-- What an answer says about the solutions of a mapping that satisfy a condition: they are the
solutions of the new mapping, or there are none. -/
structure Answers (m : Mapping) (E : (String → Ty) → Prop) (r : Bool) (m' : Mapping) : Prop where
  /-- A mapping is returned whose solutions are those asked for. -/
  solvedBy_iff : r = true → ∀ σ, m'.SolvedBy σ ↔ m.SolvedBy σ ∧ E σ
  /-- There is no solution of the sort asked for. -/
  unsolvable : r = false → ∀ σ, m.SolvedBy σ → ¬ E σ

namespace Answers

variable {m m₁ m' : Mapping} {E F : (String → Ty) → Prop} {r : Bool}

theorem congr (hEF : ∀ σ, E σ ↔ F σ) (h : Answers m E r m') : Answers m F r m' where
  solvedBy_iff hr σ := by rw [h.solvedBy_iff hr σ, hEF]
  unsolvable hr σ hσ := by
    rw [← hEF]
    exact h.unsolvable hr σ hσ

/-- A condition that every solution satisfies asks for nothing. -/
theorem of_entailed (h : ∀ σ, m.SolvedBy σ → E σ) : Answers m E true m where
  solvedBy_iff _ σ := ⟨fun hσ => ⟨hσ, h σ hσ⟩, fun hσ => hσ.1⟩
  unsolvable hr := absurd hr (by simp)

theorem of_unsolvable (h : ∀ σ, m.SolvedBy σ → ¬ E σ) : Answers m E false m' where
  solvedBy_iff hr := absurd hr (by simp)
  unsolvable _ := h

/-- Two questions asked one after the other. -/
theorem and (h : Answers m E true m₁) (h' : Answers m₁ F r m') :
    Answers m (fun σ => E σ ∧ F σ) r m' where
  solvedBy_iff hr σ := by rw [h'.solvedBy_iff hr, h.solvedBy_iff rfl, and_assoc]
  unsolvable hr σ hσ hEF :=
    h'.unsolvable hr σ ((h.solvedBy_iff rfl σ).mpr ⟨hσ, hEF.1⟩) hEF.2

/-- When the first question fails the second need not be asked. -/
theorem and_of_false (h : Answers m E false m₁) : Answers m (fun σ => E σ ∧ F σ) false m' :=
  of_unsolvable fun σ hσ hEF => h.unsolvable rfl σ hσ hEF.1

end Answers

/-! ## Binding a parameter -/

/-- A type that reaches a parameter, and is none itself, never becomes what the parameter is. -/
theorem shapeUnder_ne_of_reaches {m : Mapping} (hm : m.WellFormed) {σ : String → Ty}
    (hσ : m.SolvedBy σ) {t p : Ty} (ht : t.WellFormed) (hp : p.WellFormed)
    (htpar : t.isParam = false) (hpar : p.isParam = true) (h : m.Reaches t p.key) :
    t.shapeUnder σ ≠ p.shapeUnder σ := by
  intro heq
  have hlt := size_lt_of_reaches hm hσ ht htpar h
  have hsize := Ty.size_eq_of_shape_eq heq
  rw [Ty.key_of_params_nil (hp.params_nil_of_isParam hpar)] at hlt
  rw [Ty.instantiate_of_isParam hpar] at hsize
  omega

theorem solvedBy_add_iff {m : Mapping} {p t : Ty} {σ : String → Ty} (hp : p.WellFormed)
    (hpar : p.isParam = true) :
    (m.add p t).SolvedBy σ ↔ p.shapeUnder σ = t.shapeUnder σ ∧
      ∀ q b, q ≠ p.key → m.bindings.find? q = some b → (σ q).shape = b.shapeUnder σ := by
  rw [solvedBy_iff, Ty.shapeUnder_of_isParam hpar,
    ← Ty.key_of_params_nil (hp.params_nil_of_isParam hpar)]
  constructor
  · intro h
    refine ⟨h p.key t (by rw [bindings_find?_add, if_pos rfl]), fun q b hq hb => h q b ?_⟩
    rw [bindings_find?_add, if_neg hq, hb]
  · rintro ⟨hpt, hrest⟩ q b hb
    rw [bindings_find?_add] at hb
    by_cases hq : q = p.key
    · rw [if_pos hq] at hb
      rw [hq, ← Option.some.inj hb, hpt]
    · rw [if_neg hq] at hb
      exact hrest q b hq hb

section

variable {U : Ty → Prop} (hU : FirstOrderFamily U)

include hU

/-- Binding an unbound parameter adds one equation. -/
theorem answers_add_of_unbound {m : Mapping} {p t : Ty} (hp : U p) (hpar : p.isParam = true)
    (hb : m.find? p = none) :
    Answers m (fun σ => t.shapeUnder σ = p.shapeUnder σ) true (m.add p t) where
  solvedBy_iff _ σ := by
    rw [solvedBy_add_iff (hU.wellFormed hp) hpar, solvedBy_iff]
    constructor
    · rintro ⟨hpt, hrest⟩
      refine ⟨fun q b hq => hrest q b ?_ hq, hpt.symm⟩
      rintro rfl
      rw [find?, hq] at hb
      exact absurd hb (by simp)
    · rintro ⟨hm, hpt⟩
      exact ⟨hpt.symm, fun q b _ hq => hm q b hq⟩
  unsolvable hr := absurd hr (by simp)

/-- **Binding a parameter anew loses no equation**, when the mapping entails that the parameter is
the type and the type does not reach the parameter: the old equation follows from the others. -/
theorem solvedBy_add_iff_of_entailed {m : Mapping} (hm : m.Over U) {p t : Ty} (hp : U p)
    (hpar : p.isParam = true) (ht : U t) (hfree : ¬ m.Reaches t p.key)
    (hent : ∀ σ, m.SolvedBy σ → p.shapeUnder σ = t.shapeUnder σ) (σ : String → Ty) :
    (m.add p t).SolvedBy σ ↔ m.SolvedBy σ := by
  have hkey := Ty.key_of_params_nil ((hU.wellFormed hp).params_nil_of_isParam hpar)
  rw [solvedBy_add_iff (hU.wellFormed hp) hpar]
  constructor
  · rintro ⟨hpt, hrest⟩
    rw [solvedBy_iff]
    intro q b hb
    by_cases hq : q = p.key
    · subst hq
      have hbU := hm.within _ b hb
      -- neither side of the equation to prove reaches the parameter
      have heq : t.shapeUnder σ = b.shapeUnder σ := by
        refine shapeUnder_eq_of_entailed hm.acyclic (hm.apart hU) (hm.wellFormed hU)
          (hU.wellFormed ht) (hU.wellFormed hbU) (hm.skips hU ht) (hm.skips hU hbU) ?_ ?_
        · intro τ hτ
          rw [← hent τ hτ]
          exact hτ.shape_eq (hU.wellFormed hp) hpar hb
        · intro r c hr hc
          refine hrest r c ?_ hc
          rintro rfl
          exact hr.elim hfree (hm.acyclic.not_reaches hb)
      rw [hkey, ← Ty.shapeUnder_of_isParam hpar, hpt, heq]
    · exact hrest q b hq hb
  · intro hσ
    exact ⟨hent σ hσ, fun q b _ hb => solvedBy_iff.mp hσ q b hb⟩

end

/-! ## Unification decides -/

variable {unify : Mapping → Ty → Ty → Option (Bool × Mapping)}

/-- A type without parameters is accepted by nothing that it is not exactly equal to. -/
theorem not_accepts_of_params_nil {a b : Ty} (hb : b.isFirstOrderNode = true)
    (hapar : a.isParam = false) (hbpar : b.isParam = false) (hnil : a.params = [])
    (hex : a.isExact b = false) :
    b.accepts a = false ∧ ∀ σ, a.shapeUnder σ ≠ b.shapeUnder σ := by
  constructor
  · cases hacc : b.accepts a with
    | false => rfl
    | true =>
      rw [Ty.isExact_of_accepts hb hbpar hnil hacc] at hex
      exact hex
  · intro σ hσ
    obtain ⟨hkind, hname, hparams⟩ := (Ty.shapeUnder_eq_iff hapar hbpar).mp hσ
    rw [hnil, List.map_nil, eq_comm, List.map_eq_nil_iff] at hparams
    rw [Ty.isExact_eq_false_iff, Ty.shape_eq, Ty.shape_eq, hkind, hname, hnil, hparams] at hex
    exact hex rfl

/-- Two first-order types that are not bound have the same root and are compared parameter by
parameter, or they do not unify at all. -/
theorem unifyConcrete_firstOrder {m m' : Mapping} {a b : Ty} {r : Bool}
    (ha : a.isFirstOrderNode = true) (hb : b.isFirstOrderNode = true) (hapar : a.isParam = false)
    (hex : a.isExact b = false) (hocc : b.isParam = true → a.params ≠ [])
    (h : m.unifyConcrete unify a b = some (r, m')) :
    (a.kind = b.kind ∧ a.name = b.name ∧ m.unifyLists unify a.params b.params = some (r, m')) ∨
      (r = false ∧ m' = m ∧
        (b.isParam = true ∨ ∀ σ, a.shapeUnder σ ≠ b.shapeUnder σ)) := by
  have hka := Ty.isFirstOrder_kind ha
  obtain ⟨-, -, -, hnulla, -⟩ := Kind.of_isFirstOrder hka
  obtain ⟨-, -, -, hnullb, -⟩ := Kind.of_isFirstOrder (Ty.isFirstOrder_kind hb)
  unfold unifyConcrete at h
  rw [Ty.isWildcard_of_isFirstOrderNode ha, Ty.isWildcard_of_isFirstOrderNode hb,
    if_neg (by decide), if_neg hnulla, if_neg hnullb] at h
  have hplain : a.kind.isParameterized = false → some (b.accepts a, m) = some (r, m') →
      r = false ∧ m' = m ∧ (b.isParam = true ∨ ∀ σ, a.shapeUnder σ ≠ b.shapeUnder σ) := by
    intro hk heq
    have hnil : a.params = [] :=
      (Ty.params_nil_or_of_isFirstOrderNode ha).resolve_right (ne_true_of_eq_false hk)
    have hbpar : b.isParam = false := eq_false_of_ne_true fun hbpar => hocc hbpar hnil
    obtain ⟨hacc, hne⟩ := not_accepts_of_params_nil hb hapar hbpar hnil hex
    rw [hacc] at heq
    cases heq
    exact ⟨rfl, rfl, Or.inr hne⟩
  -- a type with parameters is compared with one of the same kind and name
  have hparameterized : (if a.kind = b.kind ∧ a.name = b.name then
        unifyLists unify m a.params b.params else some (false, m)) = some (r, m') →
      (a.kind = b.kind ∧ a.name = b.name ∧ m.unifyLists unify a.params b.params = some (r, m')) ∨
        (r = false ∧ m' = m ∧ (b.isParam = true ∨ ∀ σ, a.shapeUnder σ ≠ b.shapeUnder σ)) := by
    intro h
    split at h
    · next hroot => exact Or.inl ⟨hroot.1, hroot.2, h⟩
    · next hroot =>
      cases h
      refine Or.inr ⟨rfl, rfl, ?_⟩
      cases hbpar : b.isParam with
      | true => exact Or.inl rfl
      | false =>
        refine Or.inr fun σ hσ => hroot ?_
        obtain ⟨hkind, hname, -⟩ := (Ty.shapeUnder_eq_iff hapar hbpar).mp hσ
        exact ⟨hkind, hname⟩
  have hkind := Ty.kind_ne_of_isParam hapar
  -- the kinds that are not first-order are ruled out by `hka`, the parameters by `hkind`
  generalize a.kind = k at h hka hkind hplain hparameterized ⊢
  cases k with
  | list | map | abstract => exact hparameterized h
  | bool | bytes | double | int | uint | string | duration | timestamp | struct =>
    exact Or.inr (hplain rfl h)
  | typeParam => exact absurd rfl hkind
  | _ => exact absurd hka (by decide)

/-- A way to unify two types whose answers are right on a family. -/
def Decides (U : Ty → Prop) (unify : Mapping → Ty → Ty → Option (Bool × Mapping)) : Prop :=
  ∀ m a b r m', m.Over U → U a → U b → unify m a b = some (r, m') →
    Answers m (fun σ => a.shapeUnder σ = b.shapeUnder σ) r m'

section

variable {U : Ty → Prop} (hU : FirstOrderFamily U) (hgrowing : Growing U unify)
  (hunify : Decides U unify)

include hU

/-- When the parameter occurs in the type, it is unbound and in reach. -/
theorem BindStep.reaches_of_occurs {m m' : Mapping} {t p : Ty} (hm : m.Over U) (ht : U t)
    (hp : U p) (hpar : p.isParam = true) (h : BindStep unify m t p .occurs m') :
    m.find? p = none ∧ m.Reaches t p.key := by
  cases h with
  | occurs hex hb habs =>
    have hspec := isAbsent?_spec (hm.wellFormed hU) (hU.wellFormed hp) hpar (hU.wellFormed ht) habs
    exact ⟨hb, Classical.not_not.mp fun hno => absurd (hspec.mpr hno) (by simp)⟩

include hgrowing hunify

theorem BindStep.answers {m m' : Mapping} {t p : Ty} {o : Binding} (hm : m.Over U) (ht : U t)
    (hp : U p) (hpar : p.isParam = true) (h : BindStep unify m t p o m') (ho : o ≠ .occurs) :
    Answers m (fun σ => t.shapeUnder σ = p.shapeUnder σ) (o == .agrees) m' := by
  -- under a solution a bound parameter is what it is bound to
  have hbound : ∀ {b : Ty}, m.find? p = some b → ∀ σ, m.SolvedBy σ →
      p.shapeUnder σ = b.shapeUnder σ :=
    fun hb σ hσ => hσ.shape_eq (hU.wellFormed hp) hpar hb
  have hanswers : ∀ {b : Ty} {r : Bool} {m₁ : Mapping}, m.find? p = some b →
      unify m t b = some (r, m₁) → Answers m (fun σ => t.shapeUnder σ = p.shapeUnder σ) r m₁ := by
    intro b r m₁ hb hu
    have hans := hunify m t b r m₁ hm ht (hm.within _ b hb) hu
    refine ⟨fun hr σ => ?_, fun hr σ hσ heq => ?_⟩
    · rw [hans.solvedBy_iff hr]
      exact and_congr_right fun hσ => by rw [hbound hb σ hσ]
    · exact hans.unsolvable hr σ hσ (heq.trans (hbound hb σ hσ))
  cases h with
  | same hex => exact .of_entailed fun σ _ => Ty.shapeUnder_congr (Ty.isExact_iff.mp hex)
  | known hb hex =>
    exact .of_entailed fun σ hσ =>
      (Ty.shapeUnder_congr (Ty.isExact_iff.mp hex)).trans (hbound hb σ hσ).symm
  | clash hb hu => exact hanswers hb hu
  | kept hb hu _ => exact hanswers hb hu
  | fresh hb _ => exact answers_add_of_unbound hU hp hpar hb
  | occurs _ _ _ => exact absurd rfl ho
  | @rebound b m₁ hb hu habs =>
    have hbU := hm.within _ b hb
    have hm₁ := hm.grow hU (hgrowing _ _ _ _ _ hm.within ht hbU hu)
    have hans := hanswers hb hu
    -- the two types compared are equal under the new mapping, so either may be bound
    have hentailed : ∀ g, g = t ∨ g = b → ∀ σ, m₁.SolvedBy σ →
        p.shapeUnder σ = g.shapeUnder σ := by
      rintro g (rfl | rfl) σ hσ
      · exact ((hans.solvedBy_iff rfl σ).mp hσ).2.symm
      · exact hbound hb σ ((hans.solvedBy_iff rfl σ).mp hσ).1
    have hgU : U (t.mostGeneral b) := by
      rcases Ty.mostGeneral_eq_or t b with heq | heq
      · rw [heq]
        exact ht
      · rw [heq]
        exact hbU
    have hfree := (isAbsent?_spec (hm₁.wellFormed hU) (hU.wellFormed hp) hpar
      (hU.wellFormed hgU) habs).mp rfl
    refine ⟨fun _ σ => ?_, fun hr => absurd hr (by simp)⟩
    rw [solvedBy_add_iff_of_entailed hU hm₁ hp hpar hgU hfree
      (hentailed _ (Ty.mostGeneral_eq_or t b)) σ]
    exact hans.solvedBy_iff rfl σ

theorem unifyPairs_answers {as : List Ty} :
    ∀ {m m' : Mapping} {bs : List Ty} {r : Bool}, m.Over U → (∀ a ∈ as, U a) → (∀ b ∈ bs, U b) →
      as.length = bs.length → unifyPairs unify m as bs = some (r, m') →
      Answers m (fun σ => as.map (Ty.shapeUnder σ) = bs.map (Ty.shapeUnder σ)) r m' := by
  induction as with
  | nil =>
    intro m m' bs r _ _ _ hlen h
    obtain rfl := List.eq_nil_of_length_eq_zero hlen.symm
    rw [unifyPairs] at h
    · cases h
      exact .of_entailed fun _ _ => rfl
    · simp
  | cons a as ih =>
    intro m m' bs r hm ha hb hlen h
    cases bs with
    | nil => exact absurd hlen (by simp)
    | cons b bs =>
      have haU := ha a List.mem_cons_self
      have hbU := hb b List.mem_cons_self
      rw [unifyPairs] at h
      obtain ⟨⟨unified, m₁⟩, hu, h⟩ := Option.bind_eq_some_iff.mp h
      have hhead := hunify m a b unified m₁ hm haU hbU hu
      have hcons : ∀ σ, (a.shapeUnder σ = b.shapeUnder σ ∧
          as.map (Ty.shapeUnder σ) = bs.map (Ty.shapeUnder σ)) ↔
          (a :: as).map (Ty.shapeUnder σ) = (b :: bs).map (Ty.shapeUnder σ) := by
        intro σ
        rw [List.map_cons, List.map_cons, List.cons.injEq]
      cases unified with
      | false =>
        cases h
        exact hhead.and_of_false.congr hcons
      | true =>
        have hm₁ := hm.grow hU (hgrowing _ _ _ _ _ hm.within haU hbU hu)
        have htail := ih hm₁ (fun x hx => ha x (List.mem_cons_of_mem a hx))
          (fun x hx => hb x (List.mem_cons_of_mem b hx)) (by simpa using hlen) h
        exact (hhead.and htail).congr hcons

theorem unifyLists_answers {m m' : Mapping} {as bs : List Ty} {r : Bool} (hm : m.Over U)
    (ha : ∀ a ∈ as, U a) (hb : ∀ b ∈ bs, U b) (h : m.unifyLists unify as bs = some (r, m')) :
    Answers m (fun σ => as.map (Ty.shapeUnder σ) = bs.map (Ty.shapeUnder σ)) r m' := by
  unfold unifyLists at h
  split at h
  · exact unifyPairs_answers hU hgrowing hunify hm ha hb ‹_› h
  · cases h
    refine .of_unsolvable fun σ _ heq => ?_
    have hlen := congrArg List.length heq
    rw [List.length_map, List.length_map] at hlen
    contradiction

theorem UnifyStep.answers {m m' : Mapping} {a b : Ty} {r : Bool} (hm : m.Over U) (ha : U a)
    (hb : U b) (h : UnifyStep unify m a b r m') :
    Answers m (fun σ => a.shapeUnder σ = b.shapeUnder σ) r m' := by
  have hwfa := hU.wellFormed ha
  have hwfb := hU.wellFormed hb
  cases h with
  | exact hex => exact .of_entailed fun σ _ => Ty.shapeUnder_congr (Ty.isExact_iff.mp hex)
  | right _ hpar hbind ho => exact hbind.answers hU hgrowing hunify hm ha hb hpar ho
  | @left o _ hex hpar hocc hbind =>
    by_cases ho : o = .occurs
    · -- the parameter on the left is unbound and in reach of the type on the right
      subst ho
      obtain ⟨hunbound, hreach⟩ := hbind.reaches_of_occurs hU hm hb ha hpar
      cases hbpar : b.isParam with
      | false =>
        exact .of_unsolvable fun σ hσ heq =>
          shapeUnder_ne_of_reaches (hm.wellFormed hU) hσ hwfb hwfa hbpar hpar hreach heq.symm
      | true =>
        obtain ⟨-, hreach'⟩ := (hocc hbpar).reaches_of_occurs hU hm ha hb hbpar
        rw [reaches_iff_of_unbound hwfa hpar hunbound, ← Ty.isExact_iff_key hwfa hwfb hpar hbpar,
          hex] at hreach'
        exact absurd hreach' (by simp)
    · exact (hbind.answers hU hgrowing hunify hm hb ha hpar ho).congr fun σ => eq_comm
  | concrete hex hapar hocc hcon =>
    have hreach : b.isParam = true → m.Reaches a b.key := fun hbpar =>
      ((hocc hbpar).reaches_of_occurs hU hm ha hb hbpar).2
    have hne : b.isParam = true → a.params ≠ [] := by
      intro hbpar hnil
      obtain ⟨c, hc, -⟩ := (reaches_iff_of_not_isParam hapar).mp (hreach hbpar)
      rw [hnil] at hc
      exact absurd hc List.not_mem_nil
    rcases unifyConcrete_firstOrder (hU.isFirstOrderNode ha) (hU.isFirstOrderNode hb) hapar hex hne
      hcon with ⟨hkind, hname, hlists⟩ | ⟨rfl, rfl, hbpar | hdiffer⟩
    · have hbpar : b.isParam = false := by
        rw [← hapar]
        unfold Ty.isParam
        rw [hkind]
      refine (unifyLists_answers hU hgrowing hunify hm (fun _ hc => hU.mem_of_mem_params ha hc)
        (fun _ hc => hU.mem_of_mem_params hb hc) hlists).congr fun σ => ?_
      rw [Ty.shapeUnder_eq_iff hapar hbpar]
      exact ⟨fun hp => ⟨hkind, hname, hp⟩, fun hp => hp.2.2⟩
    · exact .of_unsolvable fun σ hσ =>
        shapeUnder_ne_of_reaches (hm.wellFormed hU) hσ hwfa hwfb hapar hbpar (hreach hbpar)
    · exact .of_unsolvable fun σ _ => hdiffer σ

end

/-- **Unification decides first-order equations**, with any bound on the depth: a successful answer
comes with a mapping whose solutions are the solutions of the old mapping that make the two types
equal, and after a failed one there are none. -/
theorem unifyWithin_decides {U : Ty → Prop} (hU : FirstOrderFamily U) (d : Nat) :
    Decides U (unifyWithin d) := by
  induction d with
  | zero =>
    intro m a b r m' _ _ _ h
    exact absurd h (by simp [unifyWithin])
  | succ d ih =>
    intro m a b r m' hm ha hb h
    exact (unifyWithin_step h).answers hU
      (unifyWithin_growing (fun _ ht _ hc => hU.mem_of_mem_params ht hc) d) ih hm ha hb

end Mapping
end CelTyping
