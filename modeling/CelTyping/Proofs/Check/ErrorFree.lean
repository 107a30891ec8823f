import CelTyping.Proofs.Check.Instantiate
import CelTyping.Proofs.Check.Walk

/-!
# No `error` type without an error

Where a check cannot find a type it goes on with `error`, which goes together with every type, so a
single branch that did this in silence could let any expression pass.  No branch does: the `error`
types in the results of a check come from the declarations or from a reported error.

In the words of `Policy`, types without `error` in them are a policy that tolerates no errors.
-/

namespace CelTyping

namespace Ty

/-- No type in the type is `error`. -/
def ErrorFree (t : Ty) : Prop := ∀ u ∈ t.nodes, u.kind ≠ .error

instance (t : Ty) : Decidable t.ErrorFree :=
  inferInstanceAs (Decidable (∀ u ∈ t.nodes, u.kind ≠ .error))

theorem errorFree_iff {t : Ty} :
    t.ErrorFree ↔ t.kind ≠ .error ∧ ∀ c ∈ t.params, c.ErrorFree :=
  forall_nodes_iff

theorem ErrorFree.of_mem_params {t c : Ty} (h : t.ErrorFree) (hc : c ∈ t.params) : c.ErrorFree :=
  (errorFree_iff.mp h).2 c hc

theorem ErrorFree.withParams {t : Ty} {ps : List Ty} (h : t.ErrorFree)
    (hps : ∀ c ∈ ps, c.ErrorFree) : (t.withParams ps).ErrorFree :=
  errorFree_iff.mpr ⟨(errorFree_iff.mp h).1, hps⟩

theorem errorFree_plain {kind : Kind} {name : String} {traits : List Trait} (h : kind ≠ .error) :
    (plain kind name traits).ErrorFree :=
  errorFree_iff.mpr ⟨h, by simp [plain]⟩

theorem errorFree_var (n : Nat) : (Ty.var n).ErrorFree :=
  errorFree_iff.mpr ⟨by simp [Ty.var, param], by simp [Ty.var, param]⟩

end Ty

/-- No type in the signature of the overload is `error`. -/
def Overload.ErrorFree (o : Overload) : Prop := ∀ t ∈ o.types, t.ErrorFree

theorem Overload.ErrorFree.supplies {o : Overload} (h : o.ErrorFree) : o.Supplies Ty.ErrorFree :=
  supplies_of_forall Ty.errorFree_var (fun _ ht _ hc => ht.of_mem_params hc)
    (fun _ _ ht _ hps => ht.withParams hps) h

/-- A check that finds no errors comes across no type with `error` in it. -/
def Policy.errorFree (env : Env) (store : Store) : Policy where
  Admits := Ty.ErrorFree
  scopes := env.scopes.chain
  fresh := store.groups.size
  Tolerant := False
  Early _ := True
  params := Ty.ErrorFree.of_mem_params
  withParams ht _ hps := ht.withParams hps
  dyn := by decide
  constant c := by cases c <;> exact Ty.errorFree_plain (by decide)
  list ht := Ty.errorFree_iff.mpr ⟨by simp [Ty.list], by simpa [Ty.list]⟩
  map hk hv := Ty.errorFree_iff.mpr ⟨by simp [Ty.map], by simpa [Ty.map] using ⟨hk, hv⟩⟩
  optional ht := Ty.errorFree_iff.mpr
    ⟨by simp [Ty.optional, Ty.abstract], by simpa [Ty.optional, Ty.abstract]⟩
  var n _ := Ty.errorFree_var n
  error := False.elim
  error_of_kind ht hk := absurd hk (Ty.errorFree_iff.mp ht).1

/-- **No silent `error`**: against declarations without `error` in them, a check that reports
nothing gives types without `error` in them. -/
theorem types_errorFree_of_quiet {env : Env} {store : Store}
    (hdecl : env.Declares Ty.ErrorFree Overload.ErrorFree store) (source : Source) (e : Expr)
    (hquiet : (check env store source e).1.report.isEmpty = true) :
    ∀ id t, (check env store source e).1.types.find? id = some t →
      ∀ u ∈ t.nodes, u.kind ≠ .error := by
  intro id t ht
  have hU : ∀ t : Ty, t.ErrorFree → (Policy.errorFree env store).Admits t := fun _ h => h
  exact (Policy.errorFree env store).admits_types (Policy.covers_of_declares hdecl hU rfl)
    (Policy.stores_of_declares hdecl hU rfl (fun _ ho next _ => ho.supplies next) rfl) source e
    (fun _ => trivial) (Or.inr hquiet) ht

/-- A scope with a list of integers. -/
def rangeScope : Group := ⟨⟨[("xs", .ofType "xs" (.list .int))]⟩, .empty⟩

/-- Folding over `xs` from `[1, "a"]`, which has elements of mixed types, reports nothing. -/
theorem types_errorFree_fold :
    Env.ofFirst.Declares Ty.ErrorFree Overload.ErrorFree ⟨#[rangeScope]⟩ ∧
    ∃ r : CheckResult, r = (check .ofFirst ⟨#[rangeScope]⟩ ⟨"", [], .empty⟩
        (.comprehension 1 (.ident 2 "xs") "x" none "acc"
          (.list 3 [.const 4 (.int 1), .const 5 (.string "a")] []) (.const 6 (.bool true))
          (.list 7 [.ident 8 "x"] []) (.ident 9 "acc"))).1 ∧
      r.report.isEmpty = true ∧ r.types.keys.length = 9 ∧
      ∀ id t, r.types.find? id = some t → ∀ u ∈ t.nodes, u.kind ≠ .error := by
  have hdecl : Env.ofFirst.Declares Ty.ErrorFree Overload.ErrorFree ⟨#[rangeScope]⟩ :=
    Env.declares_ofFirst (by decide) fun _ he => absurd he List.not_mem_nil
  exact ⟨hdecl, _, rfl, by decide, by decide, types_errorFree_of_quiet hdecl _ _ (by decide)⟩

end CelTyping
