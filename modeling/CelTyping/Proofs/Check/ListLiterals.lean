import CelTyping.Proofs.Check.Blind
import CelTyping.Proofs.Check.Trace
import CelTyping.Proofs.Unification.Ground

/-!
# The elements of a list literal

The element type of a list literal is found by joining the types of the elements from the left: two
types that go together are joined to the more general one, and others to the dynamic type, or to an
error where literals have to be homogeneous.  Does the result do justice to all elements?

A join looks at the type so far and at one element, and the types before are remembered in the type
so far only.  Types that go together with it may not go together with each other, and then the
element type has forgotten some of the elements: a duration, a null and a timestamp are a list of
timestamps (`element_forgotten`).  Among types for which going together is transitive nothing is
forgotten (`list_literal_accepts`).

* `Summarizes`: what the type so far says about the elements so far.
* `Summarizes.join`: one more element.
* `summarizes_checkElements`: all elements, by induction.
-/

namespace CelTyping

/-! ## One join -/

namespace Ty

/-- A type says what is to be said about some types: it is dynamic, or one of them that all of them
can be used for. -/
structure Summarizes (T : Ty) (ts : List Ty) : Prop where
  /-- There are no type parameters in it. -/
  ground : T.Ground
  /-- It is dynamic or one of the types, none of which is dynamic. -/
  dyn_or_mem : T.isDyn = true ∨ T ∈ ts ∧ ∀ t ∈ ts, t.isDyn = false
  /-- All of them can be used for it. -/
  goesWith : ∀ t ∈ ts, t.goesWith T = true

theorem summarizes_of_isDyn {T : Ty} (h : T.Ground) (hdyn : T.isDyn = true) (ts : List Ty) :
    T.Summarizes ts where
  ground := h
  dyn_or_mem := Or.inl hdyn
  goesWith _ _ := goesWith_of_isWildcard (Bool.or_eq_true_iff.mpr
    (Or.inr (h.isWildcard hdyn)))

theorem summarizes_singleton {t : Ty} (h : t.Ground) : t.Summarizes [t] where
  ground := h
  dyn_or_mem := by
    cases hdyn : t.isDyn with
    | true => exact Or.inl rfl
    | false => exact Or.inr ⟨List.mem_singleton_self t, by simpa using hdyn⟩
  goesWith u hu := by
    rw [List.mem_singleton.mp hu]
    exact goesWith_of_isExact (isExact_iff.mpr rfl)

/-- The types that are not dynamic. -/
def definite (ts : List Ty) : List Ty := ts.filter fun t => !t.isDyn

theorem mem_definite {t : Ty} {ts : List Ty} : t ∈ definite ts ↔ t ∈ ts ∧ t.isDyn = false := by
  simp [definite]

/-- **The more general of a summary and one more type is a summary again**, if the two go together
and the types are transitive. -/
theorem Summarizes.join {T t : Ty} {ts : List Ty} (h : T.Summarizes ts) (ht : t.Ground)
    (hground : ∀ u ∈ ts, u.Ground) (htrans : Transitive (definite (ts ++ [t])))
    (hgo : T.goesWith t = true) : (T.mostGeneral t).Summarizes (ts ++ [t]) := by
  have hself : t.goesWith t = true := goesWith_of_isExact (isExact_iff.mpr rfl)
  unfold mostGeneral
  split
  · next hgeneral =>
    -- the summary stays, and the new type can be used for what is more general
    rcases h.dyn_or_mem with hdyn | ⟨hmem, hdefinite⟩
    · exact summarizes_of_isDyn h.ground hdyn _
    · have hdyn : t.isDyn = false := Bool.eq_false_iff.mpr fun hdyn =>
        Bool.eq_false_iff.mp (hdefinite T hmem) (isDyn_of_isGeneral hgeneral hdyn)
      exact ⟨h.ground, Or.inr ⟨List.mem_append_left _ hmem, List.forall_mem_append.mpr
        ⟨hdefinite, by simpa using hdyn⟩⟩, List.forall_mem_append.mpr
        ⟨h.goesWith, by simpa using goesWith_of_isGeneral h.ground hgeneral⟩⟩
  · next hgeneral =>
    -- the new type takes over, and what could be used for the summary can be used for it
    cases hdyn : t.isDyn with
    | true => exact summarizes_of_isDyn ht hdyn _
    | false =>
      obtain ⟨hmem, hdefinite⟩ := h.dyn_or_mem.resolve_left fun hdyn => hgeneral (by
        rw [isGeneral_eq, if_pos hdyn])
      have hlast : t ∈ ts ++ [t] := List.mem_append_right _ (List.mem_singleton_self t)
      have hmem' := List.mem_append_left [t] hmem
      refine ⟨ht, Or.inr ⟨hlast, List.forall_mem_append.mpr ⟨hdefinite, by simpa using hdyn⟩⟩,
        List.forall_mem_append.mpr ⟨fun u hu => ?_, by simpa using hself⟩⟩
      have hu' := List.mem_append_left [t] hu
      rw [← assignable_iff (hground u hu) ht]
      exact htrans u (mem_definite.mpr ⟨hu', hdefinite u hu⟩) T
        (mem_definite.mpr ⟨hmem', hdefinite T hmem⟩) t (mem_definite.mpr ⟨hlast, hdyn⟩)
        ((assignable_iff (hground u hu) h.ground).mpr (h.goesWith u hu))
        ((assignable_iff h.ground ht).mpr hgo)

end Ty

namespace Checking

variable {env : Env}

/-! ## What runs leave alone -/

/-- **Errors are never taken back**, by no part of a check. -/
theorem errors_congruence : Congruence (M := Checking) (N := Checking)
    fun _ x _ => ∀ s : CheckState, s.errors <+: (x.run s).2.errors where
  pure _ _ := List.prefix_rfl
  bind hx hf s := (hx s).trans (hf _ _)
  get _ := List.prefix_rfl
  report id fault s := (s.advances_report id fault).errors
  setType e t s := (s.advances_setType e t).errors
  setReference e r s := (s.advances_setReference e r).errors
  setNextVar _ _ := List.prefix_rfl
  setMapping _ _ := List.prefix_rfl
  setStore _ _ := List.prefix_rfl

theorem errors_checkElements (optionalIndices : List UInt64) (index : Nat) (element : Option Ty)
    (es : List Expr) (s : CheckState) :
    s.errors <+:
      ((checkElements env optionalIndices index element es : Checking _).run s).2.errors :=
  errors_congruence.checkElements env optionalIndices index element es s

/-! ## The run over the elements -/

/-- The types that the elements of a list literal turn out to have, one after another, where the
elements before have been joined to a type. -/
def elementTypes (env : Env) : Option Ty → List Expr → CheckState → List Ty
  | _, [], _ => []
  | element, e :: rest, s =>
    let checked := (checkExpr env e : Checking Expr).run s
    let t := checked.2.typeOf checked.1.id
    let joined := (joinTypes env checked.1.id element t : Checking Ty).run checked.2
    t :: elementTypes env (some joined.1) rest joined.2

/-- Types without type parameters are unified without binding anything. -/
theorem run_unify_ground {a b : Ty} (ha : a.Ground) (hb : b.Ground) (s : CheckState) :
    (unify a b : Checking Bool).run s = (a.goesWith b, s) := by
  show (keep (s.mapping.unify a b) : Checking Bool).run s = _
  rw [Mapping.unify_ground ha hb]
  cases a.goesWith b <;> rfl

/-- Types without type parameters are joined without binding anything. -/
theorem run_joinTypes {T t : Ty} (hT : T.Ground) (ht : t.Ground) (id : NodeId) (s : CheckState) :
    (joinTypes env id (some T) t : Checking Ty).run s =
      if T.goesWith t then (T.mostGeneral t, s)
      else if env.options.homogeneousLiterals then
        (.error, s.report id (.typeMismatch T.display t.display))
      else (.dyn, s) := by
  rw [joinTypes, run_bind, run_unify_ground hT ht]
  cases T.goesWith t with
  | true => rfl
  | false => cases env.options.homogeneousLiterals <;> rfl

/-- A join that reports nothing goes on with a summary. -/
theorem summarizes_joinTypes {element : Option Ty} {ts : List Ty} {t : Ty} {id : NodeId}
    {s : CheckState} (helement : element.elim (ts = []) (Ty.Summarizes · ts)) (ht : t.Ground)
    (hground : ∀ u ∈ ts, u.Ground) (htrans : Ty.Transitive (Ty.definite (ts ++ [t])))
    (hquiet : ((joinTypes env id element t : Checking Ty).run s).2.errors = s.errors) :
    ((joinTypes env id element t : Checking Ty).run s).1.Summarizes (ts ++ [t]) := by
  cases element with
  | none =>
    obtain rfl : ts = [] := helement
    exact Ty.summarizes_singleton ht
  | some T =>
    have hT : T.Summarizes ts := helement
    rw [run_joinTypes hT.ground ht] at hquiet ⊢
    split
    · next hgo => exact hT.join ht hground htrans hgo
    · next hgo =>
      rw [if_neg hgo] at hquiet
      split
      · next hhomogeneous =>
        rw [if_pos hhomogeneous] at hquiet
        simp [CheckState.report] at hquiet
      · exact Ty.summarizes_of_isDyn (show Ty.dyn.Ground by decide) rfl _

theorem run_checkElements_cons (index : Nat) (element : Option Ty) (e : Expr) (rest : List Expr)
    (s : CheckState) :
    (checkElements env [] index element (e :: rest) : Checking _).run s =
      let checked := (checkExpr env e : Checking Expr).run s
      let t := checked.2.typeOf checked.1.id
      let joined := (joinTypes env checked.1.id element t : Checking Ty).run checked.2
      let others :=
        (checkElements env [] (index + 1) (some joined.1) rest : Checking _).run joined.2
      ((checked.1 :: others.1.1, others.1.2), others.2) := by
  rw [checkElements]
  rfl

/-- **Through a run that reports nothing the element type summarizes the elements so far**, by
induction on the elements to come. -/
theorem summarizes_checkElements : ∀ {es : List Expr} {index : Nat} {element : Option Ty}
    {ts : List Ty} {s : CheckState}, element.elim (ts = []) (Ty.Summarizes · ts) →
    (∀ t ∈ ts ++ elementTypes env element es s, t.Ground) →
    Ty.Transitive (Ty.definite (ts ++ elementTypes env element es s)) →
    ((checkElements env [] index element es : Checking _).run s).2.errors = s.errors →
    ((checkElements env [] index element es : Checking _).run s).1.2.elim
      (ts ++ elementTypes env element es s = [])
      (Ty.Summarizes · (ts ++ elementTypes env element es s))
  | [], index, element, ts, s, helement, _, _, _ => by
    rw [checkElements, elementTypes, List.append_nil]
    exact helement
  | e :: rest, index, element, ts, s, helement, hground, htrans, hquiet => by
    rw [run_checkElements_cons] at hquiet ⊢
    rw [elementTypes, List.append_cons] at hground htrans ⊢
    rcases hchecked : (checkExpr env e : Checking Expr).run s with ⟨e', s₁⟩
    rw [hchecked] at hquiet hground htrans
    dsimp only at hquiet hground htrans ⊢
    rcases hjoined : (joinTypes env e'.id element (s₁.typeOf e'.id) : Checking Ty).run s₁ with
      ⟨T, s₂⟩
    rw [hjoined] at hquiet hground htrans
    dsimp only at hquiet hground htrans ⊢
    -- no part of the run reports anything
    have hs₁ : s.errors <+: s₁.errors := by
      simpa only [hchecked] using errors_congruence.checkExpr env e s
    have hs₂ : s₁.errors <+: s₂.errors := by
      simpa only [hjoined] using errors_congruence.joinTypes env e'.id element (s₁.typeOf e'.id) s₁
    have hothers : s₂.errors <+: s.errors :=
      hquiet ▸ errors_checkElements [] (index + 1) (some T) rest s₂
    have hjoinQuiet : (T, s₂).2.errors = s₁.errors :=
      (hothers.trans hs₁).sublist.antisymm hs₂.sublist
    have hothersQuiet : s.errors = s₂.errors := (hs₁.trans hs₂).sublist.antisymm hothers.sublist
    obtain ⟨hground', -⟩ := List.forall_mem_append.mp hground
    obtain ⟨hts, ht⟩ := List.forall_mem_append.mp hground'
    have hT : T.Summarizes (ts ++ [s₁.typeOf e'.id]) := by
      rw [← hjoined] at hjoinQuiet
      have hsummary := summarizes_joinTypes helement (ht _ (List.mem_singleton_self _)) hts
        (htrans.mono (List.filter_subset _ (List.subset_append_left _ _))) hjoinQuiet
      rwa [hjoined] at hsummary
    exact summarizes_checkElements hT hground htrans (hquiet.trans hothersQuiet)

variable (env) in
/-- The type that is recorded for a list literal is that of lists of what its elements are joined
to. -/
theorem run_checkList (id : NodeId) (es : List Expr) (s : CheckState) :
    ∃ T, ((checkExpr env (.list id es []) : Checking Expr).run s).2.types.find? id =
        some (.list T) ∧
      (∀ U ∈ ((checkElements env [] 0 none es : Checking _).run s).1.2, U = T) ∧
      ((checkElements env [] 0 none es : Checking _).run s).2.errors <+:
        ((checkExpr env (.list id es []) : Checking Expr).run s).2.errors := by
  have hrecord : ∀ (r : CheckState) (elements : List Expr) (T : Ty),
      (r.setType (.list id elements []) (.list T)).types.find? id = some (.list T) := by
    intro r elements T
    obtain ⟨r', -, -, -, -, heq⟩ := r.setType_eq (.list id elements []) (.list T)
    rw [heq]
    exact Table.find?_insert_self _ _ _
  rw [checkExpr, run_bind]
  rcases (checkElements env [] 0 none es : Checking _).run s with ⟨⟨elements, _ | T⟩, r⟩
  · exact ⟨_, hrecord _ elements _, by simp,
      (CheckState.advances_setType { r with nextVar := r.nextVar + 1 } _ _).errors⟩
  · exact ⟨T, hrecord r elements T, by simp, (r.advances_setType _ _).errors⟩

end Checking

/-! ## List literals -/

open Checking

/-- **List literals do justice to their elements**: where nothing is reported and no element has a
type with type parameters, each element can be used where the element type is expected, if there
are at most two of them, or if their types are steady or dynamic, or else if those that are not
dynamic are transitive. -/
theorem list_literal_accepts (env : Env) (id : NodeId) (es : List Expr) (s : CheckState)
    (hquiet : ((checkExpr env (.list id es []) : Checking Expr).run s).2.errors = s.errors)
    (hground : ∀ t ∈ elementTypes env none es s, t.Ground)
    (hkinds : (elementTypes env none es s).length ≤ 2 ∨
      (∀ t ∈ elementTypes env none es s, t.isDyn = true ∨ t.Steady) ∨
      Ty.Transitive (Ty.definite (elementTypes env none es s))) :
    ∃ T, ((checkExpr env (.list id es []) : Checking Expr).run s).2.types.find? id =
        some (.list T) ∧
      ∀ t ∈ elementTypes env none es s, t.Assignable T := by
  have htrans : Ty.Transitive (Ty.definite (elementTypes env none es s)) := by
    rcases hkinds with hlength | hsteady | htrans
    · exact (Ty.transitive_of_length hground hlength).mono (List.filter_subset_self _)
    · refine Ty.transitive_of_steady fun t ht => ?_
      obtain ⟨hmem, hdyn⟩ := Ty.mem_definite.mp ht
      exact (hsteady t hmem).resolve_left (Bool.eq_false_iff.mp hdyn)
    · exact htrans
  obtain ⟨T, hrecorded, helement, herrors⟩ := run_checkList env id es s
  refine ⟨T, hrecorded, ?_⟩
  rw [hquiet] at herrors
  have helements : ((checkElements env [] 0 none es : Checking _).run s).2.errors = s.errors :=
    herrors.sublist.antisymm (errors_checkElements [] 0 none es s).sublist
  have hnone : (none : Option Ty).elim (([] : List Ty) = []) (Ty.Summarizes · []) := rfl
  have hsummary := summarizes_checkElements hnone hground htrans helements
  rw [List.nil_append] at hsummary
  cases hresult : ((checkElements env [] 0 none es : Checking _).run s).1.2 with
  | none =>
    rw [hresult] at hsummary
    rw [show elementTypes env none es s = [] from hsummary]
    simp
  | some U =>
    rw [hresult] at hsummary helement
    obtain rfl := helement U rfl
    have hU : U.Summarizes (elementTypes env none es s) := hsummary
    exact fun t ht => (Ty.assignable_iff (hground t ht) hU.ground).mpr (hU.goesWith t ht)

/-- An environment in which nothing is declared. -/
def Env.ofLiterals (homogeneous : Bool) : Env :=
  ⟨.root, Registry.empty.toProvider, ⟨0, []⟩, { CheckerOptions.standard with
    homogeneousLiterals := homogeneous }⟩

/-- A duration, a null and one more value. -/
def spans (last : Constant) : List Expr :=
  [.const 2 (.duration 1 0), .const 3 .null, .const 4 last]

/-- With another duration the elements are durations, null or not. -/
theorem list_literal_accepts_durations :
    elementTypes (.ofLiterals true) none (spans (.duration 2 0)) (.start ⟨#[.empty]⟩) =
      [.duration, .null, .duration] ∧
    ∃ T, ((checkExpr (.ofLiterals true) (.list 1 (spans (.duration 2 0)) []) : Checking Expr).run
        (.start ⟨#[.empty]⟩)).2.types.find? 1 = some (.list T) ∧
      Ty.duration.Assignable T ∧ Ty.null.Assignable T := by
  have htypes : elementTypes (.ofLiterals true) none (spans (.duration 2 0)) (.start ⟨#[.empty]⟩) =
      [.duration, .null, .duration] := rfl
  obtain ⟨T, hrecorded, haccepts⟩ := list_literal_accepts (.ofLiterals true) 1
    (spans (.duration 2 0)) (.start ⟨#[.empty]⟩) rfl (by rw [htypes]; decide +kernel)
    (Or.inr (Or.inr (by rw [htypes]; decide +kernel)))
  rw [htypes] at haccepts
  exact ⟨htypes, T, hrecorded, haccepts _ (by simp), haccepts _ (by simp)⟩

/-- The check of a list of a duration, a null and a timestamp. -/
def forgetful (homogeneous : Bool) : CheckResult :=
  (check (.ofLiterals homogeneous) ⟨#[.empty]⟩ ⟨"", [], .empty⟩
    (.list 1 (spans (.timestamp 1 0)) [])).1

/-- **An element can be forgotten**: with a timestamp the list is one of timestamps, whatever the
options, though its first element is a duration, which cannot be used as a timestamp. -/
theorem element_forgotten :
    ((forgetful true).isOk = true ∧
      ((forgetful true).types.find? 1).map Ty.display = some "list(timestamp)" ∧
      ((forgetful true).types.find? 2).map Ty.display = some "duration") ∧
    ((forgetful false).isOk = true ∧
      ((forgetful false).types.find? 1).map Ty.display = some "list(timestamp)" ∧
      ((forgetful false).types.find? 2).map Ty.display = some "duration") ∧
    ¬ Ty.duration.Assignable .timestamp := by
  refine ⟨⟨?_, ?_, ?_⟩, ⟨?_, ?_, ?_⟩, ?_⟩
  all_goals decide +kernel

end CelTyping
