import CelTyping.Proofs.Check.ListLiterals

/-!
# Homogeneous literals

Where literals have to be homogeneous, entries whose types do not go together are reported; where
they need not be, such entries are dynamic.  From there on the two checks go apart: they continue
with different types, and later unifications differ.  But the report stays, because errors are never
taken back, so an expression in which nothing is reported never came to such a place.

* `Follows`: one step does what another does, unless that one reports something.
* `follows_congruenceOn`: the step that may do otherwise is the join, and it follows; all others are
  the same.
* `check_eq_of_homogeneous`: what the strict check accepts, the other accepts with the same result.
-/

namespace CelTyping
namespace Checking

variable {α β : Type}

/-- One step does what another does, unless that one reports something. -/
structure Follows (x y : Checking α) : Prop where
  /-- The other step takes no error back. -/
  errors : ∀ s, s.errors <+: (x.run s).2.errors
  /-- Where it reports nothing, both do the same. -/
  same : ∀ s, (x.run s).2.errors = s.errors → y.run s = x.run s

theorem Follows.refl {x : Checking α} (h : ∀ s, s.errors <+: (x.run s).2.errors) :
    Follows x x :=
  ⟨h, fun _ _ => rfl⟩

/-- A run of two steps that reports nothing reports nothing in either step. -/
theorem Follows.bind {x y : Checking α} {f g : α → Checking β} (hx : Follows x y)
    (hf : ∀ a, Follows (f a) (g a)) : Follows (x >>= f) (y >>= g) where
  errors s := (hx.errors s).trans ((hf _).errors _)
  same s hquiet := by
    have hfirst := hx.errors s
    have hsecond := (hf (x.run s).1).errors (x.run s).2
    rw [run_bind] at hquiet
    rw [hquiet] at hsecond
    have hquiet₁ : (x.run s).2.errors = s.errors := hsecond.sublist.antisymm hfirst.sublist
    rw [run_bind, run_bind, hx.same s hquiet₁]
    exact (hf _).same _ (hquiet.trans hquiet₁.symm)

/-- Types that do not go together are reported, and the join of types that do is the same. -/
theorem follows_joinTypes (env : Env) (id : NodeId) (previous : Option Ty) (current : Ty) :
    Follows (joinTypes (env.withHomogeneous true) id previous current)
      (joinTypes (env.withHomogeneous false) id previous current) := by
  refine ⟨errors_congruence.joinTypes _ id previous current, fun s hquiet => ?_⟩
  rcases previous with _ | previous
  · rfl
  · have hunify := errors_congruence.unify previous current s
    rw [joinTypes, run_bind] at hquiet ⊢
    rw [joinTypes, run_bind]
    generalize (unify previous current : Checking Bool).run s = unified at hunify hquiet ⊢
    rcases unified with ⟨_ | _, s'⟩
    · -- the report is there to stay
      have hreport : s'.errors ++ [⟨id, .typeMismatch previous.display current.display⟩] =
        s.errors := hquiet
      have hlength : s.errors.length ≤ s'.errors.length := hunify.length_le
      rw [← hreport, List.length_append, List.length_singleton] at hlength
      omega
    · rfl

/-- Two environments of which the first asks literals to be homogeneous and the second, else the
same, does not. -/
def StrictAndLax (strict lax : Env) : Prop :=
  ∃ env : Env, strict = env.withHomogeneous true ∧ lax = env.withHomogeneous false

theorem follows_congruenceOn :
    CongruenceOn (M := Checking) (N := Checking) StrictAndLax fun _ => Follows where
  pure a := .refl fun _ => errors_congruence.pure a _
  bind := .bind
  get := .refl errors_congruence.get
  report id fault := .refl (errors_congruence.report id fault)
  setType e t := .refl (errors_congruence.setType e t)
  setReference e r := .refl (errors_congruence.setReference e r)
  setNextVar n := .refl (errors_congruence.setNextVar n)
  setMapping m := .refl (errors_congruence.setMapping m)
  setStore store := .refl (errors_congruence.setStore store)
  same := by
    rintro _ _ ⟨env, rfl, rfl⟩
    exact ⟨false, rfl⟩
  scope := by
    rintro α _ _ k l ⟨env, rfl, rfl⟩ hk
    -- the new scopes are the same, and the environments around them go on to differ
    have hnext : ∀ s : CheckState, Follows
        (k ((env.enterScope s.store).1.withHomogeneous true))
        (l ((env.enterScope s.store).1.withHomogeneous false)) :=
      fun s => hk _ _ ⟨_, rfl, rfl⟩
    exact ⟨fun s => (hnext s).errors { s with store := (env.enterScope s.store).2 },
      fun s => (hnext s).same { s with store := (env.enterScope s.store).2 }⟩
  join := by
    rintro _ _ ⟨env, rfl, rfl⟩
    exact follows_joinTypes env

end Checking

/-- **Asking literals to be homogeneous is conservative**: an expression in which nothing is
reported then is checked with the same result, down to the declarations that are left, where
literals need not be homogeneous. -/
theorem check_eq_of_homogeneous {env : Env} {store : Store} {source : Source} {e : Expr}
    (h : (check (env.withHomogeneous true) store source e).1.isOk = true) :
    check (env.withHomogeneous false) store source e =
      check (env.withHomogeneous true) store source e := by
  have hfollows := Checking.follows_congruenceOn.checkExpr e _ _ ⟨env, rfl, rfl⟩
  have hquiet := (check_isOk_iff _ store source e).mp h
  unfold check
  rw [hfollows.same (.start store)]
  rw [Tracing.run_checkExpr]
  exact hquiet

/-- A map literal whose values are lists, the last of which has one more element. -/
def mapOfLists (last : List Expr) : Expr :=
  .map 1 [⟨2, .const 3 (.int 1), .list 4 [] [], false⟩,
    ⟨5, .const 6 (.int 2), .list 7 (.const 8 (.bool true) :: last) [], false⟩]

/-- A map of lists of truth values is one in both modes.  With a number in the last list, one mode
reports it and the other makes the elements dynamic. -/
theorem check_eq_of_homogeneous_map :
    (check (.ofLiterals true) ⟨#[.empty]⟩ ⟨"", [], .empty⟩ (mapOfLists [])).1.isOk = true ∧
    check (.ofLiterals false) ⟨#[.empty]⟩ ⟨"", [], .empty⟩ (mapOfLists []) =
      check (.ofLiterals true) ⟨#[.empty]⟩ ⟨"", [], .empty⟩ (mapOfLists []) ∧
    (check (.ofLiterals true) ⟨#[.empty]⟩ ⟨"", [], .empty⟩
      (mapOfLists [.const 9 (.int 1)])).1.isOk = false ∧
    (check (.ofLiterals false) ⟨#[.empty]⟩ ⟨"", [], .empty⟩
      (mapOfLists [.const 9 (.int 1)])).1.isOk = true := by
  have hquiet : (check (.ofLiterals true) ⟨#[.empty]⟩ ⟨"", [], .empty⟩
      (mapOfLists [])).1.isOk = true := by decide +kernel
  refine ⟨hquiet, @check_eq_of_homogeneous (.ofLiterals true) _ _ _ hquiet, ?_, ?_⟩
  all_goals decide +kernel

end CelTyping
