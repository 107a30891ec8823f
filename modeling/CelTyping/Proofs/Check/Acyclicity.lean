import CelTyping.Proofs.Check.Instantiate
import CelTyping.Proofs.Check.Walk

/-!
# Bindings close no cycle

Nothing in a check would end if a type variable came to stand for a type that leads back to it, so
this is what has to be kept.  Unification keeps it: every binding it makes passes the occurs check
first, and growth by such bindings closes no cycle (`Mapping.Grows.acyclic`).  A check keeps it
because all it does to its mapping is to unify.

What is left to see is that the occurs check and the resolving of types look at the same things.
Bindings are looked up by key, so a message type with the name of a type variable would be replaced
like the variable, unseen by the occurs check.  The policy `overVars` rules this out: in all types
that a check comes across, the nodes with a key like that of a type variable are the type variables
themselves.  Nor does the occurs check look below kinds that carry no parameters, which is where a
type that is not well-formed could have a type parameter (`scalarMapping_closes_cycle`).
-/

namespace CelTyping

/-! ## Unification -/

namespace Mapping

/-- **Unification closes no cycle**, whatever its answer and whatever the bound on its depth. -/
theorem Acyclic.unifyWithin {m m' : Mapping} {a b : Ty} {d : Nat} {r : Bool} (hm : m.Acyclic)
    (hwf : m.WellFormed) (ha : a.WellFormed) (hb : b.WellFormed)
    (h : Mapping.unifyWithin d m a b = some (r, m')) : m'.Acyclic ∧ m'.WellFormed := by
  have hgrows : Grows Ty.WellFormed m m' :=
    unifyWithin_growing (fun _ ht _ hc => ht.of_mem_params hc) d m a b r m' hwf ha hb h
  exact ⟨hgrows.acyclic (fun _ ht => ht) hwf hm, hgrows.wellFormed (fun _ ht => ht) hwf⟩

theorem Acyclic.unifyInPlace {m : Mapping} {a b : Ty} (hm : m.Acyclic) (hwf : m.WellFormed)
    (ha : a.WellFormed) (hb : b.WellFormed) : (m.unifyInPlace a b).2.Acyclic := by
  unfold Mapping.unifyInPlace
  cases h : m.unify? a b with
  | none => exact hm
  | some r => exact (hm.unifyWithin hwf ha hb h).1

/-- A mapping that binds type variables to types over type variables replaces nothing but type
variables in such types. -/
theorem Grows.skips {m : Mapping} (h : Grows Ty.OverVars .empty m) {t : Ty} (ht : t.OverVars) :
    m.Skips t := by
  intro u hu hpar
  cases hb : m.find? u with
  | none => rfl
  | some b =>
    -- what is bound is a type variable, and no other node of the type has its key
    obtain hnone | ⟨v, hv, hvpar, hkey⟩ := h.exists_param (p := u.key) (Option.isSome_of_eq_some hb)
    · exact absurd hnone (by simp [empty])
    · obtain ⟨n, hn⟩ := hv.key_eq_varName hvpar
      exact absurd (hkey.symm.trans hn) (ht.key_ne hu hpar n)

/-- A mapping that binds type variables to types over type variables is apart. -/
theorem Grows.apart {m : Mapping} (h : Grows Ty.OverVars .empty m) : m.Apart :=
  fun p t ht => h.skips (h.within (fun _ _ hb => absurd hb (by simp [empty])) p t ht)

end Mapping

/-! ## Checks -/

/-- Every type parameter that a check comes across is a type variable. -/
def Policy.overVars (env : Env) (store : Store) : Policy where
  Admits := Ty.OverVars
  scopes := env.scopes.chain
  fresh := store.groups.size
  Tolerant := True
  Early _ := True
  params := Ty.OverVars.of_mem_params
  withParams := Ty.OverVars.withParams
  dyn := Ty.overVars_plain rfl (by decide)
  constant c := by cases c <;> exact Ty.overVars_plain rfl (by decide)
  list ht := Ty.overVars_made rfl (by decide) (by simpa)
  map hk hv := Ty.overVars_made rfl (by decide) (by simpa using ⟨hk, hv⟩)
  optional ht := Ty.overVars_made rfl (by decide) (by simpa)
  var n _ := Ty.overVars_var n
  error _ := Ty.overVars_plain rfl (by decide)
  error_of_kind _ _ := Ty.overVars_plain rfl (by decide)

section Clean

variable {env : Env} {store : Store} (h : env.Declares Ty.Closed Overload.Clean store) (e : Expr)

include h

omit e in
theorem covers_overVars : (Policy.overVars env store).Covers env :=
  Policy.covers_of_declares h (fun _ ht => Ty.Closed.overVars ht) rfl

omit e in
theorem stores_overVars : (Policy.overVars env store).Stores store :=
  Policy.stores_of_declares h (fun _ ht => Ty.Closed.overVars ht) rfl
    (fun _ ho next _ => Overload.supplies_of_clean ho next) rfl

/-- Every type parameter in a state of a check is a type variable. -/
theorem sound_of_mem_states {s : CheckState} (hs : s ∈ Tracing.states env store e) :
    (Policy.overVars env store).Sound s :=
  (Policy.overVars env store).sound_of_mem_states (covers_overVars h) (stores_overVars h) e
    (fun _ => trivial) (Or.inl trivial) s hs

/-- Every mapping of a check binds type variables to types over type variables. -/
theorem grows_of_mem_states {s : CheckState} (hs : s ∈ Tracing.states env store e) :
    Mapping.Grows Ty.OverVars .empty s.mapping :=
  (sound_of_mem_states h e hs).grown

/-- Exchanging the type parameters of an overload in scope for variables ends. -/
theorem isSome_exchange {id : GroupId} (hid : id ∈ env.scopes.chain) {name : String}
    {f : FunctionDecl} (hf : (store.group id).functions.find? name = some f) {o : Overload}
    (ho : o ∈ f.overloads) (next : Nat) (t : Ty) :
    ((o.exchange next).substitute? false t).isSome :=
  (Overload.acyclic_exchange
    ((h.overloads id hid hf o ho).distinct.clearAt next)).isSome_substituteWithin
    (Overload.apart_exchange o next) false t (Nat.le_refl _)

end Clean

/-- **Bindings close no cycle.**  Unifying well-formed types under an acyclic mapping over
well-formed types keeps the mapping acyclic, whatever the answer; and in every state of a check
against clean declarations the mapping is acyclic, so that resolving a type and the occurs check
always end. -/
theorem mapping_acyclic_throughout :
    (∀ (m : Mapping) (a b : Ty), m.Acyclic → m.WellFormed → a.WellFormed → b.WellFormed →
      (∀ (d : Nat) (r : Bool) (m' : Mapping), Mapping.unifyWithin d m a b = some (r, m') →
        m'.Acyclic ∧ m'.WellFormed ∧ ∀ p t, (m'.isAbsent? p t).isSome) ∧
      (m.unifyInPlace a b).2.Acyclic) ∧
    ∀ (env : Env) (store : Store), env.Declares Ty.Closed Overload.Clean store → ∀ e : Expr,
      ((Checking.checkExpr env e : Checking Expr).run (.start store)).2 ∈
        Tracing.states env store e ∧
      (∀ s ∈ Tracing.states env store e, s.mapping.Acyclic ∧ s.mapping.WellFormed ∧
        (∀ toDyn t, (s.mapping.substitute? toDyn t).isSome) ∧
        ∀ p t, (s.mapping.isAbsent? p t).isSome) ∧
      ∀ id ∈ env.scopes.chain, ∀ name f, (store.group id).functions.find? name = some f →
        ∀ o ∈ f.overloads, ∀ next t, ((o.exchange next).substitute? false t).isSome := by
  refine ⟨fun m a b hm hwf ha hb => ⟨fun d r m' h => ?_, hm.unifyInPlace hwf ha hb⟩,
    fun env store hdecl e => ⟨?_, fun s hs => ?_,
      fun id hid name f hf o ho next t => isSome_exchange hdecl hid hf ho next t⟩⟩
  · obtain ⟨hac, hwf'⟩ := hm.unifyWithin hwf ha hb h
    exact ⟨hac, hwf', hac.isSome_isAbsent?⟩
  · rw [Tracing.run_checkExpr]
    exact Tracing.final_mem_states env store e
  · have hgrows := grows_of_mem_states hdecl e hs
    have hwf : ∀ t : Ty, t.OverVars → t.WellFormed := fun _ ht => ht.wellFormed
    have hac : s.mapping.Acyclic :=
      hgrows.acyclic hwf Mapping.wellFormed_empty Mapping.acyclic_empty
    exact ⟨hac, hgrows.wellFormed hwf Mapping.wellFormed_empty, fun toDyn t =>
      hac.isSome_substituteWithin hgrows.apart toDyn t (Nat.le_refl _), hac.isSome_isAbsent?⟩

/-- A scope with a list of integers and a function that takes the first element of a list. -/
def listScope : Group :=
  ⟨⟨[("xs", .ofType "xs" (.list .int))]⟩, ⟨[("first", { FunctionDecl.ofName "first" with
    overloads := [.global "first_list" [.list (.param "T")] (.param "T")] })]⟩⟩

/-- Unifying `map(A, B)` with `map(list(B), list(A))` binds `A` and then fails, and checking
`first([first([xs]), xs])` puts new variables in the place of `T` twice; neither closes a cycle. -/
theorem mapping_acyclic_lists :
    (Mapping.empty.unifyInPlace (.map (.param "A") (.param "B"))
      (.map (.list (.param "B")) (.list (.param "A")))).1 = false ∧
    (Mapping.empty.unifyInPlace (.map (.param "A") (.param "B"))
      (.map (.list (.param "B")) (.list (.param "A")))).2.bindings.keys = ["A"] ∧
    (Mapping.empty.unifyInPlace (.map (.param "A") (.param "B"))
      (.map (.list (.param "B")) (.list (.param "A")))).2.Acyclic ∧
    Env.ofFirst.Declares Ty.Closed Overload.Clean ⟨#[listScope]⟩ ∧
    ∀ s ∈ Tracing.states .ofFirst ⟨#[listScope]⟩ (.call 1 "first" none [.list 2
        [.call 3 "first" none [.list 4 [.ident 5 "xs"] []], .ident 6 "xs"] []]),
      s.mapping.Acyclic := by
  have hdecl : Env.ofFirst.Declares Ty.Closed Overload.Clean ⟨#[listScope]⟩ := by
    refine Env.declares_ofFirst (fun e he => ?_) (fun e he o ho => ?_)
    · obtain rfl := List.mem_singleton.mp he
      exact ⟨Ty.declared_of (by decide) (by decide), by decide⟩
    · obtain rfl := List.mem_singleton.mp he
      obtain rfl := List.mem_singleton.mp ho
      refine ⟨Overload.forall_types_iff.mpr ⟨?_, Ty.declared_of (by decide) (by decide)⟩, by decide⟩
      exact List.forall_mem_singleton.mpr (Ty.declared_of (by decide) (by decide))
  refine ⟨by decide, by decide, ?_, hdecl, fun s hs => ?_⟩
  · exact (mapping_acyclic_throughout.1 _ _ _ Mapping.acyclic_empty Mapping.wellFormed_empty
      (by decide) (by decide)).2
  · exact ((mapping_acyclic_throughout.2 _ _ hdecl _).2.1 s hs).1

/-- A mapping that binds a type parameter to an integer type with a parameter, which no integer type
should have. -/
def scalarMapping : Mapping := Mapping.empty.add (.param "A") (Ty.int.withParams [.param "B"])

/-- **A cycle can be closed where a bound type is not well-formed**: the occurs check does not look
for `A` below `B` in an integer type, so `B` is bound to a list of `A` while `A` leads to `B`. -/
theorem scalarMapping_closes_cycle :
    scalarMapping.Acyclic ∧ (Ty.param "B").WellFormed ∧ (Ty.list (.param "A")).WellFormed ∧
    ∃ m', scalarMapping.unify (.param "B") (.list (.param "A")) = some m' ∧ ¬ m'.Acyclic := by
  refine ⟨Mapping.acyclic_empty.add (mt Mapping.reaches_empty_iff.mp (by decide)), by decide,
    by decide, scalarMapping.add (.param "B") (.list (.param "A")), rfl, fun hacyclic => ?_⟩
  have hforth : (scalarMapping.add (.param "B") (.list (.param "A"))).Leads "A" "B" :=
    ⟨Ty.int.withParams [.param "B"], rfl, by decide⟩
  have hback : (scalarMapping.add (.param "B") (.list (.param "A"))).Leads "B" "A" :=
    ⟨.list (.param "A"), rfl, by decide⟩
  exact hacyclic "A" ((Relation.TransGen.single hforth).tail hback)

end CelTyping
