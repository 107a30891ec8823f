import CelTyping.Proofs.Check.Parallel
import CelTyping.Proofs.Check.Policy
import CelTyping.Proofs.Env.Additions

/-!
# Checks do not influence one another

A check shares the store with the environment it is given, and it changes it: names that the
provider knows are added to the outermost scope, and comprehensions put their variables into new
scopes.  None of this can be seen through the environment.  What a check gives is the same before
another check and after it, and so is every lookup.

All of this asks for is that the scopes of the environment have their places in the store, which
holds of environments from the start (`valid_bare`) and stays true of them when declarations are
added, scopes entered and left, and expressions checked.
-/

namespace CelTyping

/-- A check leaves alone what environments around see, and what their scopes declare, but for what
lookups add. -/
theorem maintained_check {env g : Env} (hg : env.Inside g) {store : Store} (hv : env.Valid store)
    (source : Source) (e : Expr) : g.Maintained store (check env store source e).2 :=
  Checking.maintained_checkExpr (s := .start store) hg hv e

theorem undisturbed_check {env g : Env} (hg : env.Inside g) {store : Store} (hv : env.Valid store)
    (source : Source) (e : Expr) : g.Undisturbed store (check env store source e).2 :=
  (maintained_check hg hv source e).toUndisturbed

/-- **Checks do not influence one another**: after one expression was checked, checking another
gives what it gave before, and every name means what it meant before. -/
theorem check_after_check {env : Env} {store : Store} (hv : env.Valid store) (source : Source)
    (e : Expr) :
    (∀ source' e', (check env (check env store source e).2 source' e').1 =
      (check env store source' e').1) ∧
    ∀ name,
      (env.lookupIdent (check env store source e).2 name).1 = (env.lookupIdent store name).1 ∧
      env.lookupFunction (check env store source e).2 name = env.lookupFunction store name := by
  have hquiet : env.Undisturbed store (check env store source e).2 :=
    undisturbed_check (.refl env) hv source e
  refine ⟨fun source' e' => ?_, fun name => ⟨hquiet.lookupIdent name, hquiet.lookupFunction name⟩⟩
  exact check_eq_of_alike (.of_undisturbed hv hquiet) source' e'

/-- An environment of a first scope whose provider knows a message type `M`. -/
def Env.ofMessage : Env :=
  { Env.ofFirst with provider := (Registry.empty.addMessage "M" []).toProvider }

/-- A fold over `[1]` whose step names `M`, in the scope of the variables `x` and `M2`. -/
def namingFold : Expr :=
  .comprehension 1 (.list 2 [.const 3 (.int 1)] []) "x" none "M2" (.const 4 (.bool true))
    (.const 5 (.bool true)) (.ident 6 "M") (.ident 7 "M2")

/-- Checking the fold adds `M` to the outermost scope, and yet neither a later check nor a lookup
can tell; its own variables are gone. -/
theorem check_after_fold :
    Env.ofMessage.Valid ⟨#[.empty]⟩ ∧
    (Store.mk #[.empty]).findIdent? Env.ofMessage.scopes "M" = none ∧
    ((check .ofMessage ⟨#[.empty]⟩ ⟨"", [], .empty⟩ namingFold).2.findIdent?
      Env.ofMessage.scopes "M").isSome = true ∧
    (check .ofMessage (check .ofMessage ⟨#[.empty]⟩ ⟨"", [], .empty⟩ namingFold).2
      ⟨"", [], .empty⟩ (.list 1 [.ident 2 "M", .ident 3 "M2"] [])).1 =
      (check .ofMessage ⟨#[.empty]⟩ ⟨"", [], .empty⟩ (.list 1 [.ident 2 "M", .ident 3 "M2"] [])).1 ∧
    (Env.ofMessage.lookupIdent (check .ofMessage ⟨#[.empty]⟩ ⟨"", [], .empty⟩ namingFold).2
      "M2").1 = none := by
  have hvalid : Env.ofMessage.Valid ⟨#[.empty]⟩ := by decide
  obtain ⟨hcheck, hlookup⟩ := check_after_check hvalid ⟨"", [], .empty⟩ namingFold
  refine ⟨hvalid, rfl, by decide +kernel, hcheck _ _, ?_⟩
  rw [(hlookup "M2").1]
  decide +kernel

end CelTyping
