import CelTyping.Proofs.Check.RenamedParams

/-!
# New type variables for the type parameters of an overload

An overload is used with new type variables in place of its type parameters, and this is meant to be
a renaming: each parameter gets a variable of its own, wherever it stands, and nothing else changes.
The variables are put in by resolving the types of the signature through a mapping, which looks up
every node by its key and goes on from what it has found.  So it is a renaming only if what it finds
is not found again, and nothing but a parameter is found (`Overload.HygienicAt`).

Nothing keeps a signature from having a parameter called `_var1`, and then the renaming may not be
one (`parameters_merged`): two parameters become one variable.
-/

namespace CelTyping

namespace Overload

/-- The number of the type variable that takes the place of a type parameter. -/
def number (o : Overload) (next : Nat) (p : String) : Nat := next + o.typeParams.idxOf p

section Number

variable {o : Overload} {next : Nat} {p q : String}

theorem number_lt (hp : p ∈ o.typeParams) : o.number next p < next + o.typeParams.length := by
  have hplace := List.idxOf_lt_length_of_mem hp
  unfold number
  omega

/-- Different parameters are exchanged for different variables. -/
theorem eq_of_number_eq (hp : p ∈ o.typeParams) (h : o.number next p = o.number next q) :
    p = q := by
  have hplace : o.typeParams.idxOf p = o.typeParams.idxOf q := by
    unfold number at h
    omega
  exact (List.idxOf_inj hp).mp hplace

end Number

/-- The formal types and the result type, every parameter replaced by the variable of its place, and
nothing else changed. -/
theorem instantiate_eq {o : Overload} {next : Nat} (h : o.HygienicAt next) :
    o.instantiate next = (o.args.map (Ty.instantiate fun p => .var (o.number next p)),
      o.result.instantiate fun p => .var (o.number next p), next + o.typeParams.length) := by
  unfold instantiate
  dsimp only
  split
  · next hempty =>
    -- without parameters there is nothing to replace
    have hnone : o.typeParams = [] := List.isEmpty_iff.mp hempty
    have hself : ∀ t ∈ o.types, t.instantiate (fun p => .var (o.number next p)) = t := by
      intro t ht
      refine Ty.instantiate_eq_self fun u hu => Bool.eq_false_iff.mpr fun hpar => ?_
      have hmem := mem_typeParams_of_exposed h.exposed ht hu hpar
      rw [hnone] at hmem
      exact absurd hmem List.not_mem_nil
    obtain ⟨hargs, hresult⟩ := forall_types_iff.mp hself
    rw [List.map_congr_left hargs, List.map_id', hresult, hnone]
    rfl
  · have hsubst : ∀ t ∈ o.types, (o.exchange next).substitute false t =
        t.instantiate fun p => .var (o.number next p) := by
      intro t ht
      rw [substitute_exchange h ht]
      exact Ty.instantiate_congr fun u hu hpar =>
        assignment_of_mem next (mem_typeParams_of_exposed h.exposed ht hu hpar)
    obtain ⟨hargs, hresult⟩ := forall_types_iff.mp hsubst
    unfold exchange at hargs hresult
    rw [List.map_congr_left hargs, hresult]

/-- A function of a value and a list, with names for the two type parameters. -/
def lookupOverload (a b : String) : Overload :=
  .global "lookup_any" [.param a, .list (.param b)] (.map (.param b) (.param a))

end Overload

end CelTyping
