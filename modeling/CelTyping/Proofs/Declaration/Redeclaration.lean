import CelTyping.Proofs.Check.Matching
import CelTyping.Proofs.Declaration.Separation
import CelTyping.Proofs.Unification.Generality

/-!
# Declaring an overload again

An overload may be declared again under its id with an equivalent signature, and takes the place of
the earlier declaration if it brings an implementation.  Equivalent signatures need not ask the same
of their arguments: the names of type parameters are not compared, so `f(A, B)` is equivalent to
`f(A, A)`, and declaring the second after the first is accepted.  Arguments of two types then no
longer match (`redeclared_parameters`).

What has to be kept is which of the parameters are the same (`Overload.SamePattern`): the formal
types of the later declaration are those of the earlier one with the parameters renamed, no two to
the same name.  Then the two are copies of each other, and the same arguments match
(`accepted_addOverload`).
-/

namespace CelTyping

namespace Ty

/-! ## Copies by renaming -/

/-- What it means at the root that a type is another with its type parameters renamed. -/
theorem isExact_rename_iff {ρ : String → String} {t u : Ty} : (t.rename ρ).isExact u = true ↔
    t.kind = u.kind ∧ (t.rename ρ).name = u.name ∧
      List.Forall₂ (fun c d => (c.rename ρ).isExact d = true) t.params u.params := by
  unfold isExact
  rw [agrees_eq, kind_rename, params_rename]
  simp only [Bool.not_true, Bool.false_and, Bool.false_or, Bool.and_eq_true, beq_iff_eq,
    agreeAll_iff_forall₂, List.forall₂_map_left_iff, and_assoc]

theorem name_rename_of_not_isParam {ρ : String → String} {t : Ty} (h : t.isParam = false) :
    (t.rename ρ).name = t.name := by
  rw [rename_of_not_isParam h]
  rfl

theorem isEquivalent_of_isExact_rename {ρ : String → String} {t u : Ty}
    (h : (t.rename ρ).isExact u = true) : t.isEquivalent u = true := by
  induction t using Ty.induct generalizing u with
  | node t ih =>
    obtain ⟨hkind, hname, hparams⟩ := isExact_rename_iff.mp h
    refine isEquivalent_iff.mpr ⟨hkind, ?_, ?_⟩
    · cases hpar : t.isParam with
      | true => exact Or.inl (isParam_iff.mp hpar)
      | false => exact Or.inr (name_rename_of_not_isParam (ρ := ρ) hpar ▸ hname)
    · rw [agreeAll_iff_forall₂]
      exact forall₂_imp_of_mem hparams fun c hc _ _ hcd => ih c hc hcd

/-- A structural type with its type parameters renamed is a copy. -/
theorem copy_of_isExact_rename {ρ : String → String} {R : String → Prop} {t u : Ty}
    (ht : t.Exposed) (hstruct : t.Structural) (hstruct' : u.Structural)
    (hR : ∀ v ∈ t.nodes, v.isParam = true → R v.name) (h : (t.rename ρ).isExact u = true) :
    t.Copy ρ R u := by
  induction t using Ty.induct generalizing u with
  | node t ih =>
    obtain ⟨hkind, hname, hparams⟩ := isExact_rename_iff.mp h
    cases hpar : t.isParam with
    | true =>
      have hnil := ht.params_nil (mem_nodes_self t) hpar
      have hpar' : u.isParam = true := by
        rw [isParam_iff, ← hkind]
        exact isParam_iff.mp hpar
      have hnil' : u.params = [] := by
        rw [hnil] at hparams
        exact List.forall₂_nil_left_iff.mp hparams
      exact .param hpar hpar' hnil hnil' (hR t (mem_nodes_self t) hpar)
        (hname.symm.trans (name_rename_of_isParam hpar))
    | false =>
      have hcopies : List.Forall₂ (Copy ρ R) t.params u.params :=
        forall₂_imp_of_mem hparams fun c hc d hd hcd =>
          ih c hc (ht.of_mem_params hc) (hstruct.of_mem_params hc) (hstruct'.of_mem_params hd)
            (fun v hv => hR v (mem_nodes_of_mem_params hc hv)) hcd
      exact .node hpar hkind.symm (hname.symm.trans (name_rename_of_not_isParam hpar))
        (fun given _ => hstruct.accepts_eq hstruct' (isEquivalent_of_isExact_rename h) given)
        hcopies

end Ty

namespace Overload

/-! ## Signatures of the same pattern -/

/-- The formal types of one overload are those of another with the type parameters renamed, no two
to the same name. -/
def SamePattern (e o : Overload) : Prop :=
  ∃ ρ : String → String, Set.InjOn ρ {p | p ∈ e.typeParams} ∧
    Ty.agreeAll true (e.args.map (Ty.rename ρ)) o.args = true

/-- **Signatures of the same pattern match the same arguments.** -/
theorem SamePattern.matches_iff {e o : Overload} (h : e.SamePattern o)
    (hexposed : ∀ t ∈ e.types, t.Exposed) (he : ∀ t ∈ e.args, t.Structural)
    (ho : ∀ t ∈ o.args, t.Structural) {args : List Ty} (hargs : ∀ a ∈ args, a.Ground) :
    o.Matches args ↔ e.Matches args := by
  obtain ⟨ρ, hρ, hagree⟩ := h
  rw [Ty.agreeAll_iff_forall₂, List.forall₂_map_left_iff] at hagree
  have hformals : List.Forall₂ (Ty.Copy ρ (· ∈ e.typeParams)) e.args o.args :=
    forall₂_imp_of_mem hagree fun t ht u hu htu => by
      have htypes : t ∈ e.types := List.mem_append_left _ ht
      exact Ty.copy_of_isExact_rename (hexposed t htypes) (he t ht) (ho u hu)
        (fun v hv hpar => mem_typeParams_of_exposed hexposed htypes hv hpar) htu
  unfold Matches
  rw [Mapping.isSome_unifyAll_copy hρ Mapping.acyclic_empty Mapping.acyclic_empty
    Mapping.within_empty Mapping.within_empty (Mapping.copy_empty fun _ _ => rfl) hargs hformals]

end Overload

/-! ## Functions -/

/-- The ids of the overloads that arguments of some types are accepted by, with the type variables
from a number on in place of the type parameters of each. -/
def FunctionDecl.accepted (f : FunctionDecl) (next : Nat) (args : List Ty) : List String :=
  (f.overloads.filter fun o =>
    (Mapping.empty.unifyAll args (o.instantiate next).1).isSome).map Overload.id

/-- **Declaring an overload again changes nothing for calls**, if it brings no implementation or
keeps which of the type parameters are the same: arguments without type parameters are accepted by
the same overloads before and after. -/
theorem accepted_addOverload {f g : FunctionDecl} {o : Overload} {next : Nat} (hid : o.id ∈ f.ids)
    (hadd : f.addOverload o = .ok g) (ho : ∀ t ∈ o.args, t.Structural)
    (hf : ∀ e ∈ f.overloads, e.id = o.id → ∀ t ∈ e.args, t.Structural)
    (hkeeps : o.hasImplementation = true → o.HygienicAt next ∧
      ∀ e ∈ f.overloads, e.id = o.id → e.HygienicAt next ∧ e.SamePattern o)
    {args : List Ty} (hargs : ∀ a ∈ args, a.Ground) :
    g.accepted next args = f.accepted next args := by
  have hmatches : ∀ x : Overload, (∀ t ∈ x.args, t.Structural) → x.HygienicAt next →
      ((Mapping.empty.unifyAll args (x.instantiate next).1).isSome = true ↔ x.Matches args) :=
    fun x hx hygienic => Overload.isSome_unifyAll_instantiate hygienic
      (fun t ht => (hx t ht).ordinary.impartial) Mapping.acyclic_empty Mapping.within_empty
      (fun _ _ => rfl) hargs
  unfold FunctionDecl.accepted
  rcases FunctionDecl.place_cases (FunctionDecl.place_of_addOverload hadd) with
    ⟨hfresh, -⟩ | ⟨before, e, after, hsplit, hsame | ⟨hrep, hreplaced⟩⟩
  · -- the id would be new
    obtain ⟨e, he, heid⟩ := List.mem_map.mp hid
    exact absurd heid (hfresh e he).1
  · rw [hsame]
  · have he : e ∈ f.overloads := by
      rw [hsplit]
      exact List.mem_append_right _ List.mem_cons_self
    have hstruct := hf e he hrep.agrees.1.symm
    obtain ⟨hnew, hold⟩ := hkeeps hrep.implementation
    obtain ⟨hygienic, hpattern⟩ := hold e he hrep.agrees.1.symm
    have hiff := hpattern.matches_iff hygienic.exposed hstruct ho hargs
    have haccepts : (Mapping.empty.unifyAll args (o.instantiate next).1).isSome =
        (Mapping.empty.unifyAll args (e.instantiate next).1).isSome :=
      Bool.eq_iff_iff.mpr (by rw [hmatches o ho hnew, hmatches e hstruct hygienic, hiff])
    rw [hreplaced, hsplit, List.filter_append, List.filter_append, List.filter_cons,
      List.filter_cons, haccepts]
    split
    · simp only [List.map_append, List.map_cons, hrep.agrees.1]
    · rfl

/-- A function that makes a map of two lists, or of one. -/
def zipDecl : FunctionDecl :=
  { FunctionDecl.ofName "zip" with
    overloads := [.global "zip_lists" [.list (.param "A"), .list (.param "B")]
        (.map (.param "A") (.param "B")),
      .global "zip_list" [.list (.param "A")] (.map (.param "A") (.param "A"))] }

/-- The first overload of `zip` with the names changed round and an implementation. -/
def zipAgain : Overload :=
  (Overload.global "zip_lists" [.list (.param "B"), .list (.param "A")]
    (.map (.param "B") (.param "A"))).implementedBy ⟨"zip", .binary fun a _ => some a⟩

/-- Two lists of different elements go with the first overload of `zip`, whichever of its two
declarations is in place. -/
theorem accepted_addOverload_zip :
    zipDecl.addOverload zipAgain =
      .ok { zipDecl with overloads := zipAgain :: zipDecl.overloads.tail } ∧
    FunctionDecl.accepted { zipDecl with overloads := zipAgain :: zipDecl.overloads.tail } 0
      [.list .int, .list .string] = zipDecl.accepted 0 [.list .int, .list .string] ∧
    zipDecl.accepted 0 [.list .int, .list .string] = ["zip_lists"] := by
  have hadd : zipDecl.addOverload zipAgain =
      .ok { zipDecl with overloads := zipAgain :: zipDecl.overloads.tail } := by
    unfold FunctionDecl.addOverload zipDecl
    rw [FunctionDecl.place, if_pos (by decide), if_pos (by decide)]
    rfl
  have hygienic : ∀ o ∈ zipAgain :: zipDecl.overloads, o.HygienicAt 0 := fun o ho =>
    ⟨⟨(by decide : ∀ o ∈ zipAgain :: zipDecl.overloads, ∀ t ∈ o.types, ∀ u ∈ t.nodes,
        u.isParam = false → u.key ∉ o.typeParams) o ho,
      (by decide : ∀ o ∈ zipAgain :: zipDecl.overloads, ∀ p ∈ o.typeParams,
        ∀ i < o.typeParams.length, p ≠ Ty.varName (0 + i)) o ho⟩,
      (by decide : ∀ o ∈ zipAgain :: zipDecl.overloads, ∀ t ∈ o.types, t.Exposed) o ho⟩
  have hstruct : ∀ o ∈ zipAgain :: zipDecl.overloads, ∀ t ∈ o.args, t.Structural := by
    decide
  have hpattern : ∀ e ∈ zipDecl.overloads, e.id = zipAgain.id → e.SamePattern zipAgain := by
    intro e he hid
    rcases List.mem_cons.mp he with rfl | hrest
    · -- the two names change places
      refine ⟨fun p => if p = "A" then "B" else "A", ?_, by decide⟩
      have hparams : (Overload.global "zip_lists" [.list (.param "A"), .list (.param "B")]
          (.map (.param "A") (.param "B"))).typeParams = ["A", "B"] := by decide
      rw [hparams]
      simp [Set.InjOn]
    · obtain rfl := List.mem_singleton.mp hrest
      exact absurd hid (by decide)
  refine ⟨hadd, ?_, by decide⟩
  refine accepted_addOverload (by decide) hadd (hstruct _ List.mem_cons_self)
    (fun e he _ => hstruct e (List.mem_cons_of_mem _ he))
    (fun _ => ⟨hygienic _ List.mem_cons_self, fun e he hid => ?_⟩) (by decide)
  exact ⟨hygienic e (List.mem_cons_of_mem _ he), hpattern e he hid⟩

/-- An overload for two arguments of any types. -/
def anyOverload (a b : String) : Overload := .global "f_ab" [.param a, .param b] .bool

/-- A function with this overload. -/
def anyTwo (a b : String) : FunctionDecl :=
  { FunctionDecl.ofName "f" with overloads := [anyOverload a b] }

/-- The overload again, with an implementation. -/
def anyAgain (a b : String) : Overload :=
  (anyOverload a b).implementedBy ⟨"fst", .binary fun a _ => some a⟩

/-- Whatever the names, the signatures are equivalent. -/
theorem addOverload_anyAgain (a b c d : String) :
    (anyTwo a b).addOverload (anyAgain c d) =
      .ok { anyTwo a b with overloads := [anyAgain c d] } := by
  have hid : (anyOverload a b).id = (anyAgain c d).id := rfl
  have hsame : ((anyOverload a b).sameSignature (anyAgain c d) &&
      (anyOverload a b).nonStrict == (anyAgain c d).nonStrict) = true := rfl
  show (FunctionDecl.place "f" (anyAgain c d) [anyOverload a b]).map _ = _
  rw [FunctionDecl.place, if_pos hid, if_pos hsame]
  rfl

/-- **An overload that is declared again may accept less**: after `f(A, B)` the declaration of
`f(A, A)` is taken for the same signature, and a number and a text no longer go with it.  It may
also accept more, if the earlier declaration had a parameter with the name of a type variable. -/
theorem redeclared_parameters :
    (anyTwo "A" "B").addOverload (anyAgain "A" "A") =
      .ok { anyTwo "A" "B" with overloads := [anyAgain "A" "A"] } ∧
    (anyTwo "A" "B").accepted 0 [.int, .string] = ["f_ab"] ∧
    FunctionDecl.accepted { anyTwo "A" "B" with overloads := [anyAgain "A" "A"] } 0
      [.int, .string] = [] ∧
    (anyTwo "_var1" "B").addOverload (anyAgain "A" "B") =
      .ok { anyTwo "_var1" "B" with overloads := [anyAgain "A" "B"] } ∧
    (anyTwo "_var1" "B").accepted 0 [.int, .string] = [] ∧
    FunctionDecl.accepted { anyTwo "_var1" "B" with overloads := [anyAgain "A" "B"] } 0
      [.int, .string] = ["f_ab"] := by
  refine ⟨addOverload_anyAgain _ _ _ _, by decide, by decide,
    addOverload_anyAgain _ _ _ _, by decide, by decide⟩

end CelTyping
