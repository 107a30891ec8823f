import CelTyping.Proofs.Check.Congruence

/-!
# The states a check goes through

`Tracing` is a monad that keeps the state of a check and remembers every state that was set on the
way.  A check that runs in it gives what a check gives (`checkExpr_agrees`), and besides the list
of the states it went through; `states` is that list for a check from the start.

* `visited_errors`: errors are never taken back, so a check that ends without errors was without
  errors all the way.
* `final_mem_states`: the state in which a check ends is one of those it goes through.
* `check_expr`, `check_types`, `check_references`, `check_isOk_iff`: the results of a check, read
  off its last state.
-/

namespace CelTyping

/-- What a run of a check gives: a value, the last state, and the states set on the way. -/
structure Traced (α : Type) where
  /-- The value. -/
  value : α
  /-- The state at the end. -/
  final : CheckState
  /-- The states that were set, in order. -/
  visited : List CheckState

/-- A step of a check that remembers the states it sets. -/
def Tracing (α : Type) : Type := CheckState → Traced α

namespace Tracing

instance : Monad Tracing where
  pure a := fun s => ⟨a, s, []⟩
  bind x f := fun s =>
    ⟨(f (x s).value (x s).final).value, (f (x s).value (x s).final).final,
      (x s).visited ++ (f (x s).value (x s).final).visited⟩

instance : MonadStateOf CheckState Tracing where
  get := fun s => ⟨s, s, []⟩
  set s := fun _ => ⟨(), s, [s]⟩
  modifyGet f := fun s => ⟨(f s).1, (f s).2, [(f s).2]⟩

variable {α β : Type}

@[simp] theorem run_pure (a : α) (s : CheckState) : (pure a : Tracing α) s = ⟨a, s, []⟩ := rfl

@[simp] theorem run_bind (x : Tracing α) (f : α → Tracing β) (s : CheckState) :
    (x >>= f) s = ⟨(f (x s).value (x s).final).value, (f (x s).value (x s).final).final,
      (x s).visited ++ (f (x s).value (x s).final).visited⟩ := rfl

@[simp] theorem run_get (s : CheckState) : (get : Tracing CheckState) s = ⟨s, s, []⟩ := rfl

@[simp] theorem run_modify (f : CheckState → CheckState) (s : CheckState) :
    (modify f : Tracing Unit) s = ⟨(), f s, [f s]⟩ := rfl

/-! ## What is remembered makes no difference -/

/-- Two runs give the same value and the same state at the end. -/
def Agrees (x : Tracing α) (y : Checking α) : Prop :=
  ∀ s, y.run s = ((x s).value, (x s).final)

theorem agrees_congruence :
    Checking.Congruence (M := Tracing) (N := Checking) fun _ => Agrees where
  pure _ _ := rfl
  bind {_ _ x y f g} hx hf s := by
    show (do let a ← y; g a : Checking _).run s = _
    rw [StateT.run_bind, hx s]
    exact hf _ _
  get _ := rfl
  report _ _ _ := rfl
  setType _ _ _ := rfl
  setReference _ _ _ := rfl
  setNextVar _ _ := rfl
  setMapping _ _ := rfl
  setStore _ _ := rfl

/-- **Remembering the states does not change what a check gives.** -/
theorem checkExpr_agrees (env : Env) (e : Expr) :
    Agrees (Checking.checkExpr env e) (Checking.checkExpr env e) :=
  agrees_congruence.checkExpr env e

end Tracing

/-! ## How states change -/

/-- A place for something that a check finds out about a node. -/
inductive Slot where
  /-- The type of a node. -/
  | type (id : NodeId)
  /-- The reference of a node. -/
  | reference (id : NodeId)

namespace CheckState

/-- Something was recorded in a place. -/
def Filled (s : CheckState) : Slot → Prop
  | .type id => s.types.contains id = true
  | .reference id => s.references.contains id = true

/-- No error is taken back, and nothing that was recorded is removed. -/
structure Advances (s t : CheckState) : Prop where
  /-- The errors so far are still there. -/
  errors : s.errors <+: t.errors
  /-- What was recorded is still there. -/
  filled : ∀ slot, s.Filled slot → t.Filled slot

theorem Advances.refl (s : CheckState) : s.Advances s := ⟨List.prefix_rfl, fun _ h => h⟩

theorem contains_insert {κ ν : Type} [DecidableEq κ] (t : Table κ ν) (k l : κ) (v : ν) :
    (t.insert k v).contains l = true ↔ l = k ∨ t.contains l = true := by
  unfold Table.contains
  rw [Table.find?_insert]
  by_cases h : l = k
  · simp [h]
  · simp [h]

theorem advances_report (s : CheckState) (id : NodeId) (fault : Fault) :
    s.Advances (s.report id fault) :=
  ⟨List.prefix_append _ _, fun slot h => by cases slot <;> exact h⟩

theorem setType_eq (s : CheckState) (e : Expr) (t : Ty) : ∃ s', s.Advances s' ∧
    s'.mapping = s.mapping ∧ s'.store = s.store ∧ s'.types = s.types ∧
    s.setType e t = { s' with types := s'.types.insert e.id t } := by
  unfold setType
  split
  · split
    · exact ⟨s, .refl s, rfl, rfl, rfl, rfl⟩
    · exact ⟨_, advances_report _ _ _, rfl, rfl, rfl, rfl⟩
  · exact ⟨s, .refl s, rfl, rfl, rfl, rfl⟩

theorem setReference_eq (s : CheckState) (e : Expr) (r : Reference) : ∃ s', s.Advances s' ∧
    s'.mapping = s.mapping ∧ s'.store = s.store ∧ s'.types = s.types ∧
    s.setReference e r = { s' with references := s'.references.insert e.id r } := by
  unfold setReference
  split
  · split
    · exact ⟨s, .refl s, rfl, rfl, rfl, rfl⟩
    · exact ⟨_, advances_report _ _ _, rfl, rfl, rfl, rfl⟩
  · exact ⟨s, .refl s, rfl, rfl, rfl, rfl⟩

theorem filled_setType {s : CheckState} {e : Expr} {t : Ty} {slot : Slot}
    (h : s.Filled slot ∨ slot = .type e.id) : (s.setType e t).Filled slot := by
  obtain ⟨s', hs', -, -, -, heq⟩ := s.setType_eq e t
  rw [heq]
  rcases h with h | rfl
  · have hslot := hs'.filled slot h
    cases slot with
    | type id => exact (contains_insert _ _ _ _).mpr (Or.inr hslot)
    | reference id => exact hslot
  · exact (contains_insert _ _ _ _).mpr (Or.inl rfl)

theorem filled_setReference {s : CheckState} {e : Expr} {r : Reference} {slot : Slot}
    (h : s.Filled slot ∨ slot = .reference e.id) : (s.setReference e r).Filled slot := by
  obtain ⟨s', hs', -, -, -, heq⟩ := s.setReference_eq e r
  rw [heq]
  rcases h with h | rfl
  · have hslot := hs'.filled slot h
    cases slot with
    | type id => exact hslot
    | reference id => exact (contains_insert _ _ _ _).mpr (Or.inr hslot)
  · exact (contains_insert _ _ _ _).mpr (Or.inl rfl)

theorem advances_setType (s : CheckState) (e : Expr) (t : Ty) : s.Advances (s.setType e t) := by
  refine ⟨?_, fun slot h => filled_setType (Or.inl h)⟩
  obtain ⟨s', hs', -, -, -, heq⟩ := s.setType_eq e t
  rw [heq]
  exact hs'.errors

theorem advances_setReference (s : CheckState) (e : Expr) (r : Reference) :
    s.Advances (s.setReference e r) := by
  refine ⟨?_, fun slot h => filled_setReference (Or.inl h)⟩
  obtain ⟨s', hs', -, -, -, heq⟩ := s.setReference_eq e r
  rw [heq]
  exact hs'.errors

end CheckState

namespace Tracing

/-! ## Facts about all runs -/

/-- A relation between the state before a run, the state after it and the states on the way holds
of a whole check if it holds of doing nothing, of every advance in one step, and of runs one after
the other. -/
theorem everywhere {P : CheckState → CheckState → List CheckState → Prop}
    (nothing : ∀ s, P s s []) (step : ∀ s t, s.Advances t → P s t [t])
    (sequence : ∀ s t u l k, P s t l → P t u k → P s u (l ++ k)) (env : Env) (e : Expr)
    (s : CheckState) :
    P s ((Checking.checkExpr env e : Tracing Expr) s).final
      ((Checking.checkExpr env e : Tracing Expr) s).visited := by
  have hcongruence : Checking.Congruence (M := Tracing) (N := Tracing)
      fun _ x _ => ∀ s, P s (x s).final (x s).visited :=
    { pure := fun _ s => nothing s
      bind := fun hx hf s => sequence _ _ _ _ _ (hx s) (hf _ _)
      get := fun s => nothing s
      report := fun id fault s => step _ _ (s.advances_report id fault)
      setType := fun e t s => step _ _ (s.advances_setType e t)
      setReference := fun e r s => step _ _ (s.advances_setReference e r)
      setNextVar := fun _ s => step _ _ ⟨List.prefix_rfl, fun slot h => by cases slot <;> exact h⟩
      setMapping := fun _ s => step _ _ ⟨List.prefix_rfl, fun slot h => by cases slot <;> exact h⟩
      setStore := fun _ s => step _ _ ⟨List.prefix_rfl, fun slot h => by cases slot <;> exact h⟩ }
  exact hcongruence.checkExpr env e s

/-- **Errors are never taken back**: a check that ends without errors was without errors all the
way. -/
theorem visited_errors {env : Env} {e : Expr} {s : CheckState}
    (h : ((Checking.checkExpr env e : Tracing Expr) s).final.errors = []) :
    ∀ t ∈ ((Checking.checkExpr env e : Tracing Expr) s).visited, t.errors = [] := by
  refine (everywhere (P := fun s t l => t.errors = [] → s.errors = [] ∧ ∀ u ∈ l, u.errors = [])
    (fun s h => ⟨h, by simp⟩) (fun s t hst h => ⟨?_, by simpa using h⟩) ?_ env e s h).2
  · exact List.prefix_nil.mp (h ▸ hst.errors)
  · intro s t u l k hl hk hu
    obtain ⟨ht, hk⟩ := hk hu
    obtain ⟨hs, hl⟩ := hl ht
    exact ⟨hs, fun v hv => (List.mem_append.mp hv).elim (hl v) (hk v)⟩

/-- A whole check of an expression, with the states it goes through. -/
def whole (env : Env) (store : Store) (e : Expr) : Traced Expr :=
  (Checking.checkExpr env e : Tracing Expr) (.start store)

/-- The states that a check of an expression goes through, from the start. -/
def states (env : Env) (store : Store) (e : Expr) : List CheckState :=
  .start store :: (whole env store e).visited

theorem run_checkExpr (env : Env) (store : Store) (e : Expr) :
    (Checking.checkExpr env e : Checking Expr).run (.start store) =
      ((whole env store e).value, (whole env store e).final) :=
  checkExpr_agrees env e (.start store)

/-- A check ends in a state that it goes through. -/
theorem final_mem_states (env : Env) (store : Store) (e : Expr) :
    (whole env store e).final ∈ states env store e := by
  refine everywhere (P := fun s t l => t ∈ s :: l) (fun s => List.mem_singleton_self s)
    (fun s t _ => by simp) ?_ env e (.start store)
  intro s t u l k hl hk
  rcases List.mem_cons.mp hk with rfl | hk
  · rcases List.mem_cons.mp hl with rfl | hl
    · exact List.mem_cons_self
    · exact List.mem_cons_of_mem _ (List.mem_append_left k hl)
  · exact List.mem_cons_of_mem _ (List.mem_append_right l hk)

end Tracing

/-! ## Results -/

theorem Report.isEmpty_ofErrors {source : Source} {errors : List CheckError} :
    (Report.ofErrors source errors).isEmpty = true ↔ errors = [] := by
  unfold isEmpty ofErrors
  rw [List.isEmpty_iff, List.map_eq_nil_iff, List.take_eq_nil_iff]
  exact or_iff_right (by decide)

section Results

variable (env : Env) (store : Store) (source : Source) (e : Expr)

theorem check_expr : (check env store source e).1.expr = (Tracing.whole env store e).value := by
  unfold check
  rw [Tracing.run_checkExpr]

theorem check_types (id : NodeId) : (check env store source e).1.types.find? id =
    ((Tracing.whole env store e).final.types.find? id).map
      ((Tracing.whole env store e).final.mapping.substitute true) := by
  unfold check
  rw [Tracing.run_checkExpr, Table.find?_mapValues]

theorem check_references : (check env store source e).1.references =
    (Tracing.whole env store e).final.references := by
  unfold check
  rw [Tracing.run_checkExpr]

theorem check_isOk_iff : (check env store source e).1.isOk = true ↔
    (Tracing.whole env store e).final.errors = [] := by
  unfold check
  rw [Tracing.run_checkExpr]
  exact Report.isEmpty_ofErrors

end Results

end CelTyping
