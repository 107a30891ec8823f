import CelTyping.Proofs.Check.Blind
import CelTyping.Proofs.Check.ClosedTypes
import CelTyping.Proofs.Check.UnusedVariables

/-!
# The order of overloads

A call tries the overloads of a function in the order of their declaration, and every attempt leaves
its traces: it takes new type variables, and if it succeeds the variables stay bound.  For arguments
without type parameters this makes no difference to the attempts that follow.  Whether an overload
matches such arguments can be told from its signature alone (`Overload.Matches`), and the overloads
that a call refers to are the ones that match (`resolveOverload_cases`), in whatever order they
are tried (`resolveOverload_perm`).  Only a custom rule of acceptance that goes by the names of type
variables could tell one order from another (`pick_depends_on_order`).

What carries the search from one overload to the next is that nothing is known of the type variables
to come.  An attempt keeps this because the variables it binds are its own (`tried_tryOverload`).
-/

namespace CelTyping

theorem Reference.mem_addOverload {r : Reference} {id i : String} :
    i ∈ (r.addOverload id).overloads ↔ i ∈ r.overloads ∨ i = id := by
  unfold addOverload
  split
  · next hid =>
    refine ⟨Or.inl, ?_⟩
    rintro (hi | rfl)
    · exact hi
    · exact hid
  · exact List.mem_append.trans (or_congr_right List.mem_singleton)

namespace Checking

variable {args : List Ty} {o : Overload} {os : List Overload} {found : Option (Ty × Reference)}
  {s : CheckState}

/-! ## Running the steps -/

theorem run_get_bind {α : Type} (f : CheckState → Checking α) (s : CheckState) :
    (get >>= f : Checking α).run s = (f s).run s := rfl

theorem run_setNextVar_bind {α : Type} (n : Nat) (f : Unit → Checking α) (s : CheckState) :
    (setNextVar n >>= f : Checking α).run s = (f ()).run { s with nextVar := n } := rfl

theorem run_unifyAll (as bs : List Ty) (s : CheckState) :
    (unifyAll as bs : Checking Bool).run s =
      (keep (s.mapping.unifyAll as bs) : Checking Bool).run s := rfl

theorem run_mapM {α β : Type} {f : α → Checking β} {g : α → β} {s : CheckState}
    (hf : ∀ a, (f a).run s = (g a, s)) (as : List α) : (as.mapM f).run s = (as.map g, s) := by
  have hloop : ∀ (as : List α) (bs : List β),
      (List.mapM.loop f as bs).run s = (bs.reverse ++ as.map g, s) := by
    intro as
    induction as with
    | nil =>
      intro bs
      rw [List.map_nil, List.append_nil]
      rfl
    | cons a as ih =>
      intro bs
      rw [List.mapM.loop, run_bind, hf a, ih, List.reverse_cons, List.append_assoc]
      rfl
  exact hloop as []

theorem run_mapM_typeOf (ids : List NodeId) (s : CheckState) :
    (ids.mapM typeOf : Checking _).run s = (ids.map s.typeOf, s) :=
  run_mapM (f := typeOf) (fun _ => rfl) ids

theorem run_mapM_resolveFully (types : List Ty) (s : CheckState) :
    (types.mapM resolveFully : Checking _).run s = (types.map (s.mapping.substitute true), s) :=
  run_mapM (f := resolveFully) (fun _ => rfl) types

theorem run_tryOverload_of_none (found : Option (Ty × Reference))
    (h : s.mapping.unifyAll args (o.instantiate s.nextVar).1 = none) :
    (tryOverload args found o : Checking _).run s =
      (found, { s with nextVar := (o.instantiate s.nextVar).2.2 }) := by
  rw [tryOverload, run_get_bind]
  dsimp only
  rw [run_setNextVar_bind, run_bind, run_unifyAll, h]
  rfl

theorem run_tryOverload_of_some (found : Option (Ty × Reference)) {m : Mapping}
    (h : s.mapping.unifyAll args (o.instantiate s.nextVar).1 = some m) :
    ∃ t, (tryOverload args found o : Checking _).run s =
      (some (t, found.elim (.ofOverload o.id) fun q => q.2.addOverload o.id),
        { s with nextVar := (o.instantiate s.nextVar).2.2, mapping := m }) := by
  rw [tryOverload, run_get_bind]
  dsimp only
  rw [run_setNextVar_bind, run_bind, run_unifyAll, h]
  cases found with
  | none => exact ⟨_, rfl⟩
  | some q => exact ⟨_, rfl⟩

/-! ## Trying overloads -/

/-- The ids of the overloads that have been found to match. -/
def matched (found : Option (Ty × Reference)) : List String :=
  found.elim [] fun q => q.2.overloads

/-- What trying overloads one after the other leads to. -/
structure Tried (args : List Ty) (os : List Overload) (found : Option (Ty × Reference))
    (s : CheckState) (r : Option (Ty × Reference) × CheckState) : Prop where
  /-- The type variables to come are new. -/
  grown : Mapping.Grows (Ty.OverVarsBelow r.2.nextVar) .empty r.2.mapping
  /-- Nothing is reported. -/
  errors : r.2.errors = s.errors
  /-- If no overload matches, nothing is bound. -/
  mapping : (∀ o ∈ os, ¬ o.Matches args) → r.2.mapping = s.mapping
  /-- Something is found if there was something before or an overload matches. -/
  isSome_iff : r.1.isSome = true ↔ found.isSome = true ∨ ∃ o ∈ os, o.Matches args
  /-- What is found is what was found before and the overloads that match. -/
  mem_iff : ∀ i, i ∈ matched r.1 ↔ i ∈ matched found ∨ ∃ o ∈ os, o.Matches args ∧ o.id = i

theorem tried_nil (hs : Mapping.Grows (Ty.OverVarsBelow s.nextVar) .empty s.mapping) :
    Tried args [] found s (found, s) :=
  ⟨hs, rfl, fun _ => rfl, by simp, by simp⟩

theorem Tried.append {os' : List Overload} {r r' : Option (Ty × Reference) × CheckState}
    (h : Tried args os found s r) (h' : Tried args os' r.1 r.2 r') :
    Tried args (os ++ os') found s r' where
  grown := h'.grown
  errors := h'.errors.trans h.errors
  mapping hnone := by
    obtain ⟨hos, hos'⟩ := List.forall_mem_append.mp hnone
    exact (h'.mapping hos').trans (h.mapping hos)
  isSome_iff := by
    rw [h'.isSome_iff, h.isSome_iff, or_assoc]
    simp only [List.mem_append, or_and_right, exists_or]
  mem_iff i := by
    rw [h'.mem_iff, h.mem_iff, or_assoc]
    simp only [List.mem_append, or_and_right, exists_or]

section Ground

variable (hargs : ∀ a ∈ args, a.Ground ∧ a.OverVars)

include hargs

/-- **Trying an overload**: it is found if it matches, whatever was done before. -/
theorem tried_tryOverload (ho : o.Clean) (himpartial : ∀ t ∈ o.args, t.Impartial)
    (hs : Mapping.Grows (Ty.OverVarsBelow s.nextVar) .empty s.mapping) :
    Tried args [o] found s ((tryOverload args found o : Checking _).run s) := by
  have hmatches := Overload.isSome_unifyAll_instantiate (ho.hygienicAt s.nextVar) himpartial
    hs.acyclic_of_below hs.plainParams_of_below (fun i _ => hs.unbound (Nat.le_add_right _ i))
    fun a ha => (hargs a ha).1
  have hnext : s.nextVar ≤ (o.instantiate s.nextVar).2.2 := by
    rw [o.next_instantiate]
    exact Nat.le_add_right _ _
  have hgrown := hs.mono fun _ ht => ht.mono hnext
  cases hunify : s.mapping.unifyAll args (o.instantiate s.nextVar).1 with
  | none =>
    have hno : ¬ o.Matches args := by
      rw [← hmatches, hunify]
      exact Bool.false_ne_true
    rw [run_tryOverload_of_none found hunify]
    exact ⟨hgrown, rfl, fun _ => rfl, by simp [hno], by simp [hno]⟩
  | some m =>
    have hyes : o.Matches args := by
      rw [← hmatches, hunify]
      rfl
    have hbind : Mapping.Grows (Ty.OverVarsBelow (o.instantiate s.nextVar).2.2) s.mapping m :=
      Mapping.unifyLists_grows (Mapping.unifyWithin_confined _ _)
        ((hgrown.within Mapping.within_empty).closed fun _ ht _ hc => ht.of_mem_params hc)
        (fun a ha => (hargs a ha).2.below_of_ground (hargs a ha).1)
        (ho.supplies_below s.nextVar).1 (Mapping.onSuccess_eq_some hunify)
    obtain ⟨t, hrun⟩ := run_tryOverload_of_some found hunify
    rw [hrun]
    refine ⟨hgrown.trans hbind, rfl, fun hnone => absurd hyes (hnone o List.mem_cons_self),
      by simp [hyes], fun i => ?_⟩
    cases found with
    | none => simp [matched, Reference.ofOverload, hyes, eq_comm]
    | some q => simp [matched, Reference.mem_addOverload, hyes, eq_comm]

/-- **Trying overloads one after the other** finds those that match. -/
theorem tried_foldlM : ∀ {os : List Overload} {found : Option (Ty × Reference)} {s : CheckState},
    (∀ o ∈ os, o.Clean ∧ ∀ t ∈ o.args, t.Impartial) →
    Mapping.Grows (Ty.OverVarsBelow s.nextVar) .empty s.mapping →
    Tried args os found s ((os.foldlM (tryOverload args) found : Checking _).run s)
  | [], _, _, _, hs => tried_nil hs
  | o :: rest, found, s, hos, hs => by
    obtain ⟨ho, hrest⟩ := List.forall_mem_cons.mp hos
    have hfirst : Tried args [o] found s ((tryOverload args found o : Checking _).run s) :=
      tried_tryOverload hargs ho.1 ho.2 hs
    exact hfirst.append (tried_foldlM hrest hfirst.grown)

end Ground

/-! ## Calls -/

/-- What trying the overloads that a call may use leads to. -/
def search (scope : Env) (f : FunctionDecl) (isMember : Bool) (types : List Ty) (s : CheckState) :
    Option (Ty × Reference) × CheckState :=
  ((usable scope f isMember).foldlM (tryOverload types) none : Checking _).run s

/-- What is wrong with a call that no overload matches. -/
def noMatch (f : FunctionDecl) (isMember : Bool) (types : List Ty) (m : Mapping) : Fault :=
  .noMatchingOverload f.name (signatureText (types.map (m.substitute true)) isMember)

section Calls

variable (scope : Env) (id : NodeId) {f : FunctionDecl} {target : Option NodeId}
  {args : List NodeId} {types : List Ty}
  (hname : f.name ≠ Standard.logicalAnd ∧ f.name ≠ Standard.logicalOr)
  (htypes : (target.toList ++ args).map s.typeOf = types)

include hname htypes

theorem run_resolveOverload_of_some {q : Ty × Reference}
    (h : (search scope f target.isSome types s).1 = some q) :
    (resolveOverload scope id f target args : Checking _).run s =
      (some q, (search scope f target.isSome types s).2) := by
  unfold search at h ⊢
  unfold resolveOverload
  dsimp only
  rw [run_bind, run_mapM_typeOf, htypes, if_neg (not_or.mpr hname), run_bind, h]
  rfl

theorem run_resolveOverload_of_none (h : (search scope f target.isSome types s).1 = none) :
    (resolveOverload scope id f target args : Checking _).run s =
      (none, (search scope f target.isSome types s).2.report id
        (noMatch f target.isSome types (search scope f target.isSome types s).2.mapping)) := by
  unfold search at h ⊢
  unfold resolveOverload
  dsimp only
  rw [run_bind, run_mapM_typeOf, htypes, if_neg (not_or.mpr hname), run_bind, h]
  dsimp only
  rw [run_bind, reportNoMatch, run_bind, run_mapM_resolveFully]
  rfl

/-- **A call with arguments without type parameters** refers to the overloads that match, and if
there is none this is reported. -/
theorem resolveOverload_cases (hf : ∀ o ∈ f.overloads, o.Clean ∧ ∀ t ∈ o.args, t.Impartial)
    (hs : Mapping.Grows (Ty.OverVarsBelow s.nextVar) .empty s.mapping)
    (hground : ∀ t ∈ types, t.Ground ∧ t.OverVars) :
    ((∀ o ∈ usable scope f target.isSome, ¬ o.Matches types) ∧
      ((resolveOverload scope id f target args : Checking _).run s).1 = none ∧
      ((resolveOverload scope id f target args : Checking _).run s).2.errors =
        s.errors ++ [⟨id, noMatch f target.isSome types s.mapping⟩]) ∨
    ∃ q, (∃ o ∈ usable scope f target.isSome, o.Matches types) ∧
      ((resolveOverload scope id f target args : Checking _).run s).1 = some q ∧
      ((resolveOverload scope id f target args : Checking _).run s).2.errors = s.errors ∧
      ∀ i, i ∈ q.2.overloads ↔
        ∃ o ∈ usable scope f target.isSome, o.Matches types ∧ o.id = i := by
  have htried : Tried types (usable scope f target.isSome) none s
      (search scope f target.isSome types s) :=
    tried_foldlM hground (fun o ho => hf o (List.mem_filter.mp ho).1) hs
  have hfound := htried.isSome_iff
  cases h : (search scope f target.isSome types s).1 with
  | none =>
    rw [h] at hfound
    have hnone : ∀ o ∈ usable scope f target.isSome, ¬ o.Matches types := fun o ho hmatch =>
      absurd (hfound.mpr (Or.inr ⟨o, ho, hmatch⟩)) Bool.false_ne_true
    refine Or.inl ⟨hnone, ?_⟩
    rw [run_resolveOverload_of_none scope id hname htypes h, htried.mapping hnone, ← htried.errors]
    exact ⟨rfl, rfl⟩
  | some q =>
    rw [h] at hfound
    refine Or.inr ⟨q, (hfound.mp rfl).resolve_left Bool.false_ne_true, ?_⟩
    rw [run_resolveOverload_of_some scope id hname htypes h]
    refine ⟨rfl, htried.errors, fun i => ?_⟩
    have hmem := htried.mem_iff i
    rw [h] at hmem
    exact hmem.trans (or_iff_right List.not_mem_nil)

end Calls

end Checking

/-- The nodes of a check have types over type variables. -/
theorem overVars_typeOf {env : Env} {store : Store}
    (h : env.Declares Ty.Closed Overload.Clean store) {e : Expr} {s : CheckState}
    (hs : s ∈ Tracing.states env store e) (i : NodeId) : (s.typeOf i).OverVars := by
  unfold CheckState.typeOf
  cases ht : s.types.find? i with
  | none => exact Ty.overVars_plain rfl (by decide)
  | some t => exact (sound_of_mem_states h e hs).types ht

/-- Two outcomes of a call agree on the overloads: the call refers to the same ones, or none matches
and this is all that is reported. -/
def Checking.SameMatches (id : NodeId) (function : String) (s : CheckState)
    (r r' : Option (Ty × Reference) × CheckState) : Prop :=
  (r.1 = none ∧ r'.1 = none ∧ ∃ text,
    r.2.errors = s.errors ++ [⟨id, .noMatchingOverload function text⟩] ∧
    r'.2.errors = s.errors ++ [⟨id, .noMatchingOverload function text⟩]) ∨
  ∃ q q', r.1 = some q ∧ r'.1 = some q' ∧ r.2.errors = s.errors ∧ r'.2.errors = s.errors ∧
    ∀ i, i ∈ q'.2.overloads ↔ i ∈ q.2.overloads

/-- **The order in which overloads are declared makes no difference to which of them match**: in
every state of a check against clean declarations, a call whose receiver and arguments have types
without type parameters refers to the same overloads in either order, or none matches in either
order and this is reported.  Custom rules of acceptance in the signatures must not go by the names
of type variables, which are those of the moment (`pick_depends_on_order` has one that does). -/
theorem resolveOverload_perm {env : Env} {store : Store}
    (h : env.Declares Ty.Closed Overload.Clean store) {e : Expr} {s : CheckState}
    (hs : s ∈ Tracing.states env store e) (scope : Env) (id : NodeId) {f : FunctionDecl}
    (hname : f.name ≠ Standard.logicalAnd ∧ f.name ≠ Standard.logicalOr)
    (hf : ∀ o ∈ f.overloads, o.Clean ∧ ∀ t ∈ o.args, t.Impartial) {overloads : List Overload}
    (hperm : overloads.Perm f.overloads) {target : Option NodeId} {args : List NodeId}
    (hground : ∀ i ∈ target.toList ++ args, (s.typeOf i).Ground) :
    Checking.SameMatches id f.name s
      ((Checking.resolveOverload scope id f target args : Checking _).run s)
      ((Checking.resolveOverload scope id { f with overloads := overloads } target args :
        Checking _).run s) := by
  have hgrown := (sound_of_mem_states_overFirst h e hs).grown
  have htypes : ∀ t ∈ (target.toList ++ args).map s.typeOf, t.Ground ∧ t.OverVars :=
    List.forall_mem_map.mpr fun i hi => ⟨hground i hi, overVars_typeOf h hs i⟩
  have hmem : ∀ o, o ∈ Checking.usable scope { f with overloads := overloads } target.isSome ↔
      o ∈ Checking.usable scope f target.isSome := fun o => (hperm.filter _).mem_iff
  have hf' : ∀ o ∈ overloads, o.Clean ∧ ∀ t ∈ o.args, t.Impartial :=
    fun o ho => hf o (hperm.mem_iff.mp ho)
  have hcases := Checking.resolveOverload_cases scope id hname rfl hf hgrown htypes
  have hcases' := Checking.resolveOverload_cases scope id (f := { f with overloads := overloads })
    hname rfl hf' hgrown htypes
  simp only [hmem] at hcases'
  rcases hcases with ⟨hnone, hfound, herrors⟩ | ⟨q, ⟨o, ho, hmatch⟩, hfound, herrors, hids⟩
  · rcases hcases' with ⟨-, hfound', herrors'⟩ | ⟨-, ⟨o, ho, hmatch⟩, -⟩
    · exact Or.inl ⟨hfound, hfound', _, herrors, herrors'⟩
    · exact absurd hmatch (hnone o ho)
  · rcases hcases' with ⟨hnone, -⟩ | ⟨q', -, hfound', herrors', hids'⟩
    · exact absurd hmatch (hnone o ho)
    · exact Or.inr ⟨q, q', hfound, hfound', herrors, herrors',
        fun i => (hids' i).trans (hids i).symm⟩

/-- A message type that accepts integers. -/
def numberType : Ty := (Ty.message "Number").withCustom fun _ given => given.kind == .int

/-- A function of two arguments with three overloads, all of which match two integers. -/
def sameDecl : FunctionDecl :=
  { FunctionDecl.ofName "same" with
    overloads := [.global "same_any" [.param "T", .param "T"] .bool,
      .global "same_two" [.param "T", .param "U"] .bool,
      .global "same_number" [numberType, .param "T"] .bool] }

/-- A scope with an integer and the function. -/
def sameScope : Group := ⟨⟨[("n", .ofType "n" .int)]⟩, ⟨[("same", sameDecl)]⟩⟩

theorem declares_sameScope : Env.ofFirst.Declares Ty.Closed Overload.Clean ⟨#[sameScope]⟩ :=
  Env.declares_clean (by decide) (by decide)

theorem impartial_sameDecl : ∀ o ∈ sameDecl.overloads, ∀ t ∈ o.args, t.Impartial := by
  have hplain : ∀ p, (Ty.param p).Impartial := fun p => Ty.Ordinary.impartial fun u hu => by
    rw [List.mem_singleton.mp hu]
    rfl
  have hnumber : numberType.Impartial := by
    refine Ty.impartial_of_root fun u hu rule hrule a b given _ _ => ?_
    rw [List.mem_singleton.mp hu] at hrule
    obtain rfl := Acceptance.custom.inj hrule
    rfl
  have hpair : ∀ {t u : Ty}, t.Impartial → u.Impartial → ∀ v ∈ [t, u], v.Impartial :=
    fun ht hu => List.forall_mem_cons.mpr ⟨ht, List.forall_mem_singleton.mpr hu⟩
  exact List.forall_mem_cons.mpr ⟨hpair (hplain "T") (hplain "T"), List.forall_mem_cons.mpr
    ⟨hpair (hplain "T") (hplain "U"), List.forall_mem_singleton.mpr (hpair hnumber (hplain "T"))⟩⟩

/-- After `same(n, n)` has been checked and four type variables have been used, the call is looked
at again with the overloads the other way round. -/
theorem resolveOverload_perm_same :
    Env.ofFirst.Declares Ty.Closed Overload.Clean ⟨#[sameScope]⟩ ∧
    ∃ s ∈ Tracing.states .ofFirst ⟨#[sameScope]⟩
        (.call 1 "same" none [.ident 2 "n", .ident 3 "n"]),
      s.mapping.bindings.keys = ["_var0", "_var1", "_var2", "_var3"] ∧ (s.typeOf 2).key = "int" ∧
      ∃ r r' : Option (Ty × Reference) × CheckState,
        (Checking.resolveOverload .ofFirst 4 sameDecl none [2, 3] : Checking _).run s = r ∧
        (Checking.resolveOverload .ofFirst 4
          { sameDecl with overloads := sameDecl.overloads.reverse } none [2, 3] :
          Checking _).run s = r' ∧
        Checking.SameMatches 4 "same" s r r' ∧
        Checking.matched r.1 = ["same_any", "same_two", "same_number"] ∧
        Checking.matched r'.1 = ["same_number", "same_two", "same_any"] := by
  have hfind : (Store.group ⟨#[sameScope]⟩ 0).functions.find? "same" = some sameDecl := rfl
  have hclean := declares_sameScope.overloads 0 List.mem_cons_self hfind
  refine ⟨declares_sameScope, _, Tracing.final_mem_states _ _ _, by decide +kernel,
    by decide +kernel, _, _, rfl, rfl, ?_, by decide +kernel, by decide +kernel⟩
  exact resolveOverload_perm declares_sameScope (Tracing.final_mem_states _ _ _) .ofFirst 4
    (by decide) (fun o ho => ⟨hclean o ho, impartial_sameDecl o ho⟩) (List.reverse_perm _)
    (List.forall_mem_cons.mpr ⟨by decide +kernel, List.forall_mem_singleton.mpr
      (by decide +kernel)⟩)

/-! ## Rules that go by the names of type variables -/

/-- A list type that accepts everything as long as its element is the first type variable. -/
def firstVarType : Ty :=
  (Ty.list (.param "T")).withCustom fun own _ => own.params.map View.name == ["_var0"]

/-- A function with two overloads that do not overlap. -/
def pickDecl : FunctionDecl :=
  { FunctionDecl.ofName "pick" with
    overloads := [.global "pick_first" [firstVarType] .bool,
      .global "pick_map" [.map (.param "T") (.param "T")] .bool] }

/-- A scope with the function. -/
def pickScope : Group := ⟨⟨[]⟩, ⟨[("pick", pickDecl)]⟩⟩

/-- **A rule that goes by the names of type variables makes the order matter**: the overloads may be
declared in either order, and a call with an integer matches one of them in the one order and none
in the other, where the first type variable is used up. -/
theorem pick_depends_on_order :
    (FunctionDecl.ofName "pick").addOverloads pickDecl.overloads = .ok pickDecl ∧
    (FunctionDecl.ofName "pick").addOverloads pickDecl.overloads.reverse =
      .ok { pickDecl with overloads := pickDecl.overloads.reverse } ∧
    Env.ofFirst.Declares Ty.Closed Overload.Clean ⟨#[pickScope]⟩ ∧
    ∃ s ∈ Tracing.states .ofFirst ⟨#[pickScope]⟩ (.const 1 (.int 0)), (s.typeOf 1).Ground ∧
      Checking.matched ((Checking.resolveOverload .ofFirst 2 pickDecl none [1] :
        Checking _).run s).1 = ["pick_first"] ∧
      ((Checking.resolveOverload .ofFirst 2
        { pickDecl with overloads := pickDecl.overloads.reverse } none [1] :
        Checking _).run s).1.isNone = true :=
  ⟨rfl, rfl, Env.declares_clean (by decide) (by decide), _, Tracing.final_mem_states _ _ _,
    by decide, by decide, by decide⟩

end CelTyping
