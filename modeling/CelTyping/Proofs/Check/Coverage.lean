import CelTyping.Proofs.Check.Walk

/-!
# What a check without errors has dealt with

Whoever evaluates a checked expression looks up the type of every node, and the reference of every
identifier, call and message literal.  After a check that reports nothing they are all there, for
the nodes of the tree that the check gives back, with two exceptions.  Both are in optional
selections, which have the form of a call with an operand and the name of a field: the name is read
off without being checked, and so is a receiver, should there be one, kept without being looked at
(`receiver_uncovered`).

The policy that admits every type and tolerates no errors says just this.
-/

namespace CelTyping

/-- A check that finds no errors deals with every node, whatever the types. -/
def Policy.anyType (env : Env) (store : Store) : Policy where
  Admits _ := True
  scopes := env.scopes.chain
  fresh := store.groups.size
  Tolerant := False
  Early _ := True
  params _ _ := trivial
  withParams _ _ _ := trivial
  dyn := trivial
  constant _ := trivial
  list _ := trivial
  map _ _ := trivial
  optional _ := trivial
  var _ _ := trivial
  error _ := trivial
  error_of_kind _ _ := trivial

theorem Env.declares_anything (env : Env) (store : Store) :
    env.Declares (fun _ => True) (fun _ => True) store where
  idents _ _ _ _ _ := trivial
  overloads _ _ _ _ _ _ _ := trivial
  provided _ := trivial
  fields _ := trivial

/-- Every place that the tree needs is filled by a check that finds no errors. -/
theorem filled_of_isOk {env : Env} {store : Store} {source : Source} {e : Expr}
    (hok : (check env store source e).1.isOk = true) {slot : Slot}
    (hneeds : (check env store source e).1.expr.Needs slot) :
    (Tracing.whole env store e).final.Filled slot := by
  have hdecl := env.declares_anything store
  have hU : ∀ t : Ty, True → (Policy.anyType env store).Admits t := fun _ h => h
  exact (Policy.anyType env store).filled_of_needs (Policy.covers_of_declares hdecl hU rfl)
    (Policy.stores_of_declares hdecl hU rfl (fun _ _ _ _ => ⟨fun _ _ => trivial, trivial⟩) rfl)
    source e (fun _ => trivial) id hok hneeds

/-- **A check that reports nothing has dealt with everything** but the field names and receivers of
optional selections: every other node of the tree it gives back has a type, and those that refer
to something have a reference. -/
theorem nodes_covered_of_quiet (env : Env) (store : Store) (source : Source) (e : Expr)
    (hquiet : (check env store source e).1.report.isEmpty = true) :
    ∀ n, (check env store source e).1.expr.Below n →
      (check env store source e).1.types.contains n.id = true ∧
      (n.refers = true → (check env store source e).1.references.contains n.id = true) := by
  intro n hn
  constructor
  · have hfilled := filled_of_isOk hquiet ⟨n, hn, Or.inl rfl⟩
    unfold Table.contains
    rw [check_types, Option.isSome_map]
    exact hfilled
  · intro hrefers
    rw [check_references]
    exact filled_of_isOk hquiet ⟨n, hn, Or.inr ⟨hrefers, rfl⟩⟩

/-- A scope with a map from texts to integers. -/
def mapScope : Group := ⟨⟨[("m", .ofType "m" (.map .string .int))]⟩, .empty⟩

/-- The optional selection `m.?k` stays as it is, with any receiver. -/
theorem expr_selection (target : Option Expr) :
    (check .ofFirst ⟨#[mapScope]⟩ ⟨"", [], .empty⟩ (.call 1 Standard.optionalSelect target
      [.ident 2 "m", .const 3 (.string "k")])).1.expr =
      .call 1 Standard.optionalSelect target [.ident 2 "m", .const 3 (.string "k")] := by
  unfold check
  rw [Checking.checkExpr, if_pos rfl, Checking.checkOptionalSelect]
  rfl

/-- In `m.?k` the identifier stands below the call. -/
theorem nodes_covered_selection :
    ∃ r : CheckResult, r = (check .ofFirst ⟨#[mapScope]⟩ ⟨"", [], .empty⟩
        (.call 1 Standard.optionalSelect none [.ident 2 "m", .const 3 (.string "k")])).1 ∧
      r.report.isEmpty = true ∧ r.expr.Below (.ident 2 "m") ∧ r.types.contains 2 = true ∧
      r.references.contains 2 = true := by
  have hquiet : (check .ofFirst ⟨#[mapScope]⟩ ⟨"", [], .empty⟩ (.call 1 Standard.optionalSelect none
      [.ident 2 "m", .const 3 (.string "k")])).1.report.isEmpty = true := by decide +kernel
  have hbelow : (check .ofFirst ⟨#[mapScope]⟩ ⟨"", [], .empty⟩ (.call 1 Standard.optionalSelect none
      [.ident 2 "m", .const 3 (.string "k")])).1.expr.Below (.ident 2 "m") := by
    rw [expr_selection]
    exact Expr.below_iff.mpr (Or.inr ⟨_, List.mem_cons_self, Expr.below_iff.mpr (Or.inl rfl)⟩)
  obtain ⟨htype, href⟩ := nodes_covered_of_quiet _ _ _ _ hquiet _ hbelow
  exact ⟨_, rfl, hquiet, hbelow, htype, href rfl⟩

/-- **A receiver of an optional selection is not covered**: in the call of `_?._` on `m` with the
arguments `m` and `"k"`, which reports nothing, the receiver has neither a type nor a reference. -/
theorem receiver_uncovered :
    ∃ r : CheckResult, r = (check .ofFirst ⟨#[mapScope]⟩ ⟨"", [], .empty⟩
        (.call 1 Standard.optionalSelect (some (.ident 4 "m"))
          [.ident 2 "m", .const 3 (.string "k")])).1 ∧
      r.report.isEmpty = true ∧
      r.expr = .call 1 Standard.optionalSelect (some (.ident 4 "m"))
        [.ident 2 "m", .const 3 (.string "k")] ∧
      r.types.contains 4 = false ∧ r.references.contains 4 = false :=
  ⟨_, rfl, by decide +kernel, expr_selection _, by decide +kernel, by decide +kernel⟩

end CelTyping
