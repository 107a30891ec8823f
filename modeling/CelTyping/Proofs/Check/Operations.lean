import CelTyping.Proofs.Check.Policy

/-!
# What the operations of a check keep

One statement for every operation of a check other than the walk itself, in the judgement of
`Policy`: what it asks of the types it is given, and what it grants of the types it gives.
-/

namespace CelTyping

/-! ## Scopes -/

namespace Store

theorem group_modify (store : Store) (id j : GroupId) (f : Group → Group) :
    (store.modify id f).group j = store.group j ∨
      (store.modify id f).group j = f (store.group j) := by
  unfold modify group
  rw [Array.getElem?_modify]
  split
  · cases store.groups[j]? with
    | none => exact Or.inl rfl
    | some g => exact Or.inr rfl
  · exact Or.inl rfl

theorem size_modify (store : Store) (id : GroupId) (f : Group → Group) :
    (store.modify id f).groups.size = store.groups.size :=
  Array.size_modify

theorem group_push (store : Store) (h : Scopes) (j : GroupId) :
    (store.push h).2.group j = store.group j ∨ (store.push h).2.group j = .empty := by
  have heq : (store.push h).2.group j = (store.groups.push Group.empty)[j]?.getD .empty := rfl
  rw [heq, Array.getElem?_push]
  split
  · exact Or.inr rfl
  · exact Or.inl rfl

end Store

namespace Group

variable {U : Ty → Prop} {S : Overload → Prop}

theorem within_empty : Group.empty.Within U S :=
  ⟨fun h => absurd h (by simp [Group.empty]), fun h => absurd h (by simp [Group.empty])⟩

theorem Within.addIdent {g : Group} (hg : g.Within U S) {v : Variable} (hv : U v.ty) :
    (g.addIdent v).Within U S := by
  refine ⟨fun {name w} hw => ?_, fun hf => hg.functions hf⟩
  show U w.ty
  have hfind : (g.idents.insert v.name v).find? name = some w := hw
  rw [Table.find?_insert] at hfind
  split at hfind
  · rw [← Option.some.inj hfind]
    exact hv
  · exact hg.idents hfind

end Group

/-! ## Numbers of type variables -/

/-- An overload takes a new type variable for each of its type parameters. -/
theorem Overload.next_instantiate (o : Overload) (next : Nat) :
    (o.instantiate next).2.2 = next + o.typeParams.length := by
  unfold instantiate
  dsimp only
  split
  · next hempty => rw [List.isEmpty_iff.mp hempty, List.length_nil, Nat.add_zero]
  · rfl

theorem CheckState.nextVar_setType (s : CheckState) (e : Expr) (t : Ty) :
    (s.setType e t).nextVar = s.nextVar := by
  unfold setType
  split
  · split <;> rfl
  · rfl

theorem CheckState.nextVar_setReference (s : CheckState) (e : Expr) (r : Reference) :
    (s.setReference e r).nextVar = s.nextVar := by
  unfold setReference
  split
  · split <;> rfl
  · rfl

namespace Policy

variable {p : Policy} {α β : Type} {K : Slot → Prop}

theorem Covers.enterScope {env : Env} (henv : p.Covers env) {store : Store}
    (hfresh : p.fresh ≤ store.groups.size) : p.Covers (env.enterScope store).1 where
  scopes id hid := by
    rcases List.mem_cons.mp hid with rfl | hid
    · exact Or.inr hfresh
    · exact henv.scopes id hid
  provided h := henv.provided h
  fields h := henv.fields h

namespace Stores

variable {store : Store} (h : p.Stores store)

include h

theorem addIdent {v : Variable} (hv : p.Admits v.ty) (id : GroupId) :
    p.Stores (store.modify id fun g => g.addIdent v) where
  groups {j} hj := by
    rcases store.group_modify id j fun g => g.addIdent v with heq | heq
    · rw [heq]
      exact h.groups hj
    · rw [heq]
      exact (h.groups hj).addIdent hv
  fresh := by
    rw [Store.size_modify]
    exact h.fresh

theorem push (scopes : Scopes) : p.Stores (store.push scopes).2 where
  groups {j} hj := by
    rcases store.group_push scopes j with heq | heq
    · rw [heq]
      exact h.groups hj
    · rw [heq]
      exact Group.within_empty
  fresh := by
    show p.fresh ≤ (store.groups.push Group.empty).size
    rw [Array.size_push]
    exact Nat.le_succ_of_le h.fresh

theorem admits_findIdent? {env : Env} (henv : p.Covers env) {name : String} {v : Variable}
    (hv : store.findIdent? env.scopes name = some v) : p.Admits v.ty := by
  obtain ⟨id, hid, hfind⟩ := List.exists_of_findSome?_eq_some hv
  exact (h.groups (henv.scopes id hid)).idents hfind

/-- Looking up an identifier finds an admitted type and leaves a store with admitted types. -/
theorem lookupFrom {env : Env} (henv : p.Covers env) (names : List String) :
    (∀ v ∈ (env.lookupFrom store names).1, p.Admits v.ty) ∧
      p.Stores (env.lookupFrom store names).2 := by
  induction names with
  | nil => exact ⟨by simp [Env.lookupFrom], h⟩
  | cons name rest ih =>
    rw [Env.lookupFrom]
    split
    · next v hv =>
      refine ⟨fun w hw => ?_, h⟩
      obtain rfl := Option.some.inj hw
      exact h.admits_findIdent? henv hv
    · split
      · next v hv =>
        refine ⟨fun w hw => ?_, h.addIdent (henv.provided hv) _⟩
        obtain rfl := Option.some.inj hw
        exact henv.provided hv
      · exact ih

theorem lookupFunction {env : Env} (henv : p.Covers env) {name : String} {f : FunctionDecl}
    (hf : env.lookupFunction store name = some f) : ∀ o ∈ f.overloads, p.Supplies o := by
  obtain ⟨candidate, -, hfilter⟩ := List.exists_of_findSome?_eq_some hf
  obtain ⟨hfind, -⟩ := Option.filter_eq_some_iff.mp hfilter
  obtain ⟨id, hid, hgroup⟩ := List.exists_of_findSome?_eq_some hfind
  exact (h.groups (henv.scopes id hid)).functions hgroup

end Stores

/-! ## Changing the state -/

theorem fills_get : p.Fills K (get : Tracing CheckState)
    (fun s => p.Sound s ∧ ∀ slot, K slot → s.Filled slot) fun _ => K := by
  intro s hs hK _
  exact ⟨rfl, hs, hK, hs, hK⟩

/-- A single change of the state. -/
theorem fills_modify {f : CheckState → CheckState} {Q : Prop} {L : Slot → Prop}
    (hnumber : ∀ s, (f s).nextVar = s.nextVar) (hsound : ∀ s, p.Sound s → p.Sound (f s))
    (hfilled : ∀ s, (∀ slot, K slot → s.Filled slot) → ∀ slot, L slot → (f s).Filled slot)
    (hQ : ∀ s, p.Tolerant ∨ (f s).errors = [] → Q) :
    p.Fills K (modify f : Tracing Unit) (fun _ => Q) fun _ => L := by
  intro s hs hK hquiet
  rw [Tracing.run_modify] at hquiet ⊢
  exact ⟨Nat.le_of_eq (hnumber s).symm, fun _ => ⟨hsound s hs, rfl, hsound s hs, hfilled s hK,
    hQ s (hquiet.imp id fun h => h _ (by simp))⟩⟩

/-- After an error was reported the policy is tolerant, or there is nothing to show. -/
theorem keeps_report (id : NodeId) (fault : Fault) :
    p.Keeps (Checking.report id fault) fun _ => p.Tolerant := by
  refine fun K => fills_modify (fun _ => rfl) ?_ ?_ ?_
  · exact fun s hs => ⟨hs.grown, hs.types, hs.stores⟩
  · exact fun s hK slot hslot => (s.advances_report id fault).filled slot (hK slot hslot)
  · exact fun s h => h.resolve_right fun herrors => absurd herrors (by simp [CheckState.report])

theorem fills_setType (e : Expr) {t : Ty} (ht : p.Admits t) :
    p.Fills K (Checking.setType e t) (fun _ => True) fun _ slot => K slot ∨ slot = .type e.id := by
  refine fills_modify (fun s => s.nextVar_setType e t) ?_ ?_ fun _ _ => trivial
  · intro s hs
    obtain ⟨s', -, hmapping, hstore, htypes, heq⟩ := s.setType_eq e t
    rw [heq]
    refine ⟨?_, fun {id u} hu => ?_, ?_⟩
    · show Mapping.Grows _ _ s'.mapping
      rw [hmapping]
      exact hs.grown
    · have hfind : (s'.types.insert e.id t).find? id = some u := hu
      rw [Table.find?_insert, htypes] at hfind
      split at hfind
      · exact Option.some.inj hfind ▸ ht
      · exact hs.types hfind
    · show p.Stores s'.store
      rw [hstore]
      exact hs.stores
  · exact fun s hK slot hslot => CheckState.filled_setType (hslot.imp (hK slot) id)

theorem fills_setReference (e : Expr) (r : Reference) :
    p.Fills K (Checking.setReference e r) (fun _ => True)
      fun _ slot => K slot ∨ slot = .reference e.id := by
  refine fills_modify (fun s => s.nextVar_setReference e r) ?_ ?_ fun _ _ => trivial
  · intro s hs
    obtain ⟨s', -, hmapping, hstore, htypes, heq⟩ := s.setReference_eq e r
    rw [heq]
    refine ⟨?_, fun {id u} hu => ?_, ?_⟩
    · show Mapping.Grows _ _ s'.mapping
      rw [hmapping]
      exact hs.grown
    · have hfind : s'.types.find? id = some u := hu
      rw [htypes] at hfind
      exact hs.types hfind
    · show p.Stores s'.store
      rw [hstore]
      exact hs.stores
  · exact fun s hK slot hslot => CheckState.filled_setReference (hslot.imp (hK slot) id)

/-- Taking new type variables; what comes after may suppose that they are early. -/
theorem keeps_renumber {next : CheckState → Nat} (hnext : ∀ s, s.nextVar ≤ next s)
    {f : CheckState → Tracing α} {Q : α → Prop} (hf : ∀ s, p.Early (next s) → p.Keeps (f s) Q) :
    p.Keeps
      (do
        let s ← get
        Checking.setNextVar (next s)
        f s) Q := by
  intro K s hs hK hquiet
  refine ⟨hnext s, fun hearly => ?_⟩
  have hs' : p.Sound { s with nextVar := next s } := ⟨hs.grown, hs.types, hs.stores⟩
  refine ⟨hs', hf s hearly K _ hs' (fun slot hslot => ?_)
    (hquiet.imp id fun h t ht => h t (List.mem_cons_of_mem _ ht))⟩
  cases slot <;> exact hK _ hslot

theorem keeps_setMapping {m : Mapping} (hm : Mapping.Grows p.Admits .empty m) :
    p.Keeps (Checking.setMapping m) fun _ => True := by
  refine fun K => fills_modify (fun _ => rfl) ?_ ?_ fun _ _ => trivial
  · exact fun s hs => ⟨hm, hs.types, hs.stores⟩
  · exact fun s hK slot hslot => by cases slot <;> exact hK _ hslot

theorem keeps_setStore {store : Store} (hstore : p.Stores store) :
    p.Keeps (Checking.setStore store) fun _ => True := by
  refine fun K => fills_modify (fun _ => rfl) ?_ ?_ fun _ _ => trivial
  · exact fun s hs => ⟨hs.grown, hs.types, hstore⟩
  · exact fun s hK slot hslot => by cases slot <;> exact hK _ hslot

theorem keeps_get : p.Keeps (get : Tracing CheckState) p.Sound :=
  fun _ => fills_get.mono (fun _ h => h.1) fun _ _ _ h => h

/-! ## Operations -/

theorem fills_typeOf {id : NodeId} (hid : K (.type id)) :
    p.Fills K (Checking.typeOf id) p.Admits fun _ => K := by
  refine fills_get.bind fun s hs => fills_pure ?_ fun _ h => h
  obtain ⟨t, ht⟩ := Option.isSome_iff_exists.mp (hs.2 _ hid)
  unfold CheckState.typeOf
  rw [ht, Option.getD_some]
  exact hs.1.types ht

theorem keeps_freshVar : p.Keeps Checking.freshVar p.Admits :=
  keeps_renumber (fun s => Nat.le_succ s.nextVar) fun s hearly =>
    keeps_pure (p.var s.nextVar hearly)

theorem Sound.admits_substitute {s : CheckState} (hs : p.Sound s) (toDyn : Bool) {t : Ty}
    (ht : p.Admits t) : p.Admits (s.mapping.substitute toDyn t) :=
  Mapping.substitute_mem (fun _ => p.dyn) hs.within (fun _ hu _ hc => p.params hu hc)
    (fun _ _ hu hk hps => p.withParams hu hk hps) ht

theorem keeps_resolve {t : Ty} (ht : p.Admits t) : p.Keeps (Checking.resolve t) p.Admits :=
  keeps_get.bind fun _ hs => keeps_pure (hs.admits_substitute false ht)

theorem keeps_resolveFully {t : Ty} (ht : p.Admits t) :
    p.Keeps (Checking.resolveFully t) p.Admits :=
  keeps_get.bind fun _ hs => keeps_pure (hs.admits_substitute true ht)

theorem keeps_keep {m : Option Mapping} (hm : ∀ m' ∈ m, Mapping.Grows p.Admits .empty m') :
    p.Keeps (Checking.keep m) fun _ => True := by
  rcases m with _ | m
  · exact keeps_pure trivial
  · exact (keeps_setMapping (hm m rfl)).bind fun _ _ => keeps_pure trivial

theorem keeps_unify {a b : Ty} (ha : p.Admits a) (hb : p.Admits b) :
    p.Keeps (Checking.unify a b) fun _ => True := by
  refine keeps_get.bind fun s hs => keeps_keep fun m hm => ?_
  exact hs.grown.trans (Mapping.unifyWithin_growing (fun _ ht _ hc => p.params ht hc) _ _ _ _ _ _
    hs.within ha hb (Mapping.onSuccess_eq_some hm))

theorem keeps_unifyAll {as bs : List Ty} (has : ∀ a ∈ as, p.Admits a)
    (hbs : ∀ b ∈ bs, p.Admits b) : p.Keeps (Checking.unifyAll as bs) fun _ => True := by
  refine keeps_get.bind fun s hs => keeps_keep fun m hm => ?_
  exact hs.grown.trans (Mapping.unifyLists_grows (Mapping.unifyWithin_confined _ _)
    (hs.within.closed fun _ ht _ hc => p.params ht hc) has hbs (Mapping.onSuccess_eq_some hm))

section

variable {env : Env} (henv : p.Covers env)

include henv

theorem keeps_lookupIdent (name : String) :
    p.Keeps (Checking.lookupIdent env name) fun v => ∀ w ∈ v, p.Admits w.ty := by
  refine keeps_get.bind fun s hs => ?_
  obtain ⟨hv, hstore⟩ := hs.stores.lookupFrom henv (env.container.candidates name)
  exact (keeps_setStore hstore).bind fun _ _ => keeps_pure hv

theorem keeps_lookupFunction (name : String) : p.Keeps (Checking.lookupFunction env name)
    fun f => ∀ g ∈ f, ∀ o ∈ g.overloads, p.Supplies o :=
  keeps_get.bind fun _ hs => keeps_pure fun _ hg => hs.stores.lookupFunction henv hg

theorem keeps_enterScope : p.Keeps (Checking.enterScope env) p.Covers := by
  refine keeps_get.bind fun s hs => ?_
  exact (keeps_setStore (hs.stores.push env.scopes)).bind fun _ _ =>
    keeps_pure (henv.enterScope hs.stores.fresh)

theorem keeps_lookupQualified (e : Expr) :
    p.Keeps (Checking.lookupQualified env e) fun v => ∀ w ∈ v, p.Admits w.ty := by
  unfold Checking.lookupQualified
  split
  · exact keeps_lookupIdent henv _
  · exact keeps_pure (by simp)

theorem keeps_lookupNamespaced (target : Option Expr) (function : String) :
    p.Keeps (Checking.lookupNamespaced env target function)
      fun f => ∀ g ∈ f, ∀ o ∈ g.overloads, p.Supplies o := by
  unfold Checking.lookupNamespaced
  split
  · exact keeps_lookupFunction henv _
  · exact keeps_pure (by simp)

end

theorem keeps_declareLocal (env : Env) (name : String) {t : Ty} (ht : p.Admits t) :
    p.Keeps (Checking.declareLocal env name t) fun _ => True :=
  keeps_get.bind fun _ hs => keeps_setStore (hs.stores.addIdent ht _)

/-! ## Overload resolution -/

theorem admits_bool : p.Admits .bool := p.constant (.bool true)

theorem admits_int : p.Admits .int := p.constant (.int 0)

theorem keeps_tryOverload {argTypes : List Ty} (hargs : ∀ a ∈ argTypes, p.Admits a)
    {found : Option (Ty × Reference)} (hfound : ∀ q ∈ found, p.Admits q.1) {o : Overload}
    (ho : p.Supplies o) :
    p.Keeps (Checking.tryOverload argTypes found o) fun r => ∀ q ∈ r, p.Admits q.1 := by
  have hnext : ∀ s : CheckState, s.nextVar ≤ (o.instantiate s.nextVar).2.2 := fun s => by
    rw [o.next_instantiate]
    exact Nat.le_add_right _ _
  refine keeps_renumber hnext fun s hearly =>
    (keeps_unifyAll hargs (ho s.nextVar hearly).1).bind fun unified _ => ?_
  rcases unified with _ | _
  · exact keeps_pure hfound
  · refine (keeps_resolve (ho s.nextVar hearly).2).bind fun t ht => ?_
    rcases found with _ | ⟨current, reference⟩
    · refine keeps_pure fun q hq => ?_
      obtain rfl := Option.some.inj hq
      exact ht
    · refine keeps_pure fun q hq => ?_
      obtain rfl := Option.some.inj hq
      show p.Admits (Checking.joinResults current t)
      unfold Checking.joinResults
      split
      · exact p.dyn
      · exact hfound _ rfl

theorem keeps_requireBools : ∀ {args : List (NodeId × Ty)}, (∀ q ∈ args, p.Admits q.2) →
    p.Keeps (Checking.requireBools args) fun r => r = false → p.Tolerant
  | [], _ => keeps_pure (by simp)
  | (id, t) :: rest, hargs => by
    obtain ⟨ht, hrest⟩ := List.forall_mem_cons.mp hargs
    refine (keeps_unify ht admits_bool).bind fun fits _ => ?_
    rcases fits with _ | _
    · exact (keeps_report _ _).bind fun _ htolerant =>
        (keeps_requireBools hrest).bind fun _ _ => keeps_pure fun _ => htolerant
    · exact (keeps_requireBools hrest).bind fun restFit hrestFit => keeps_pure hrestFit

theorem keeps_reportNoMatch (id : NodeId) (f : FunctionDecl) {argTypes : List Ty}
    (hargs : ∀ a ∈ argTypes, p.Admits a) (isMember : Bool) :
    p.Keeps (Checking.reportNoMatch id f argTypes isMember) fun _ => p.Tolerant :=
  fun _ => (fills_mapM fun a ha => keeps_resolveFully (hargs a ha) _).bind fun _ _ =>
    keeps_report _ _ _

/-- A call has an admitted type, or no overload matches and that was reported. -/
theorem fills_resolveOverload (env : Env) (id : NodeId) {f : FunctionDecl}
    (hf : ∀ o ∈ f.overloads, p.Supplies o) {target : Option NodeId} {args : List NodeId}
    (hids : ∀ i ∈ target.toList ++ args, K (.type i)) :
    p.Fills K (Checking.resolveOverload env id f target args)
      (fun r => (∀ q ∈ r, p.Admits q.1) ∧ (r = none → p.Tolerant)) fun _ => K := by
  refine (fills_mapM fun i hi => fills_typeOf (hids i hi)).bind fun argTypes hargs => ?_
  have hnone : p.Keeps
      (do
        Checking.reportNoMatch id f argTypes target.isSome
        return (none : Option (Ty × Reference)))
      fun r => (∀ q ∈ r, p.Admits q.1) ∧ (r = none → p.Tolerant) :=
    (keeps_reportNoMatch id f hargs _).bind fun _ htolerant =>
      keeps_pure ⟨by simp, fun _ => htolerant⟩
  split
  · dsimp only
    split
    · have hzip : ∀ q ∈ (target.toList ++ args).zip argTypes, p.Admits q.2 :=
        fun q hq => hargs q.2 (List.of_mem_zip hq).2
      refine (keeps_requireBools hzip).bind_fills fun fits hfits => ?_
      rcases fits with _ | _
      · exact keeps_pure ⟨by simp, fun _ => hfits rfl⟩ K
      · refine keeps_pure ⟨fun q hq => ?_, by simp⟩ K
        obtain rfl := Option.some.inj hq
        exact admits_bool
    · exact hnone K
  · have husable : ∀ o ∈ Checking.usable env f target.isSome, p.Supplies o :=
      fun o ho => hf o (List.mem_filter.mp ho).1
    have hfold : p.Keeps
        ((Checking.usable env f target.isSome).foldlM (Checking.tryOverload argTypes) none)
        fun r => ∀ q ∈ r, p.Admits q.1 :=
      keeps_foldlM (f := Checking.tryOverload argTypes) (P := p.Supplies)
        (Q := fun r => ∀ q ∈ r, p.Admits q.1)
        (fun _ _ hfound ho => keeps_tryOverload hargs hfound ho) husable
        fun q hq => absurd hq (by simp)
    refine hfold.bind_fills fun found hfound => ?_
    rcases found with _ | found
    · exact hnone K
    · exact keeps_pure ⟨hfound, by simp⟩ K

/-! ## Typing rules -/

theorem admits_getElem? {t : Ty} (ht : p.Admits t) (i : Nat) :
    p.Admits (t.params[i]?.getD .dyn) := by
  cases h : t.params[i]? with
  | none => exact p.dyn
  | some c => exact p.params ht (List.mem_of_getElem? h)

theorem admits_optionalInner? {t inner : Ty} (ht : p.Admits t)
    (h : t.optionalInner? = some inner) : p.Admits inner := by
  unfold Ty.optionalInner? at h
  split at h
  · exact p.params ht (List.mem_of_mem_head? h)
  · exact absurd h (by simp)

/-- The type of a field is admitted, or it was reported missing. -/
theorem keeps_fieldType {env : Env} (henv : p.Covers env) (id : NodeId) (message field : String) :
    p.Keeps (Checking.fieldType env id message field)
      fun r => p.Admits (r.getD .error) := by
  have hreport : ∀ fault, p.Keeps
      (do
        Checking.report id fault
        return (none : Option Ty)) fun r => p.Admits (r.getD .error) :=
    fun fault => (keeps_report _ _).bind fun _ htolerant => keeps_pure (p.error htolerant)
  unfold Checking.fieldType
  split
  · exact hreport _
  · split
    · next t ht => exact keeps_pure (henv.fields ht)
    · exact hreport _

theorem keeps_selectFrom {env : Env} (henv : p.Covers env) (id : NodeId) {target : Ty}
    (ht : p.Admits target) (field : String) :
    p.Keeps (Checking.selectFrom env id target field) p.Admits := by
  unfold Checking.selectFrom
  split
  · exact keeps_pure (admits_getElem? ht 1)
  · exact (keeps_fieldType henv _ _ _).bind fun _ hr => keeps_pure hr
  · exact (keeps_unify p.dyn ht).bind fun _ _ => keeps_pure p.dyn
  · split
    · exact (keeps_report _ _).bind fun _ _ => keeps_pure p.dyn
    · exact keeps_pure p.dyn

theorem fills_selectField {env : Env} (henv : p.Covers env) (id : NodeId) {operand : NodeId}
    (hoperand : K (.type operand)) (field : String) (optional : Bool) :
    p.Fills K (Checking.selectField env id operand field optional) p.Admits fun _ => K := by
  refine (fills_typeOf hoperand).bind fun t ht => (keeps_resolve ht).bind_fills fun u hu => ?_
  have hinner : p.Admits (u.optionalInner?.getD u) := by
    cases h : u.optionalInner? with
    | none => exact hu
    | some inner => exact admits_optionalInner? hu h
  refine (keeps_selectFrom henv id hinner field).bind_fills fun r hr => keeps_pure ?_ K
  split
  · exact p.optional hr
  · exact hr

theorem keeps_unwrapOptional (id : NodeId) {t : Ty} (ht : p.Admits t) :
    p.Keeps (Checking.unwrapOptional id t) p.Admits := by
  refine (keeps_resolve ht).bind fun u hu => ?_
  split
  · next inner h => exact keeps_pure (admits_optionalInner? hu h)
  · split
    · exact (keeps_report _ _).bind fun _ _ => keeps_pure hu
    · exact keeps_pure hu

theorem fills_entryType {id : NodeId} (hid : K (.type id)) (optional : Bool) :
    p.Fills K (Checking.entryType id optional) p.Admits fun _ => K := by
  refine (fills_typeOf hid).bind fun t ht => ?_
  split
  · exact keeps_unwrapOptional _ ht K
  · exact keeps_pure ht K

theorem keeps_joinTypes (env : Env) (id : NodeId) {previous : Option Ty} {current : Ty}
    (hprevious : ∀ t ∈ previous, p.Admits t) (hcurrent : p.Admits current) :
    p.Keeps (Checking.joinTypes env id previous current) p.Admits := by
  rcases previous with _ | previous
  · exact keeps_pure hcurrent
  · have hp := hprevious previous rfl
    refine (keeps_unify hp hcurrent).bind fun unified _ => ?_
    split
    · refine keeps_pure ?_
      rcases Ty.mostGeneral_eq_or previous current with heq | heq
      · rw [heq]
        exact hp
      · rw [heq]
        exact hcurrent
    · split
      · exact (keeps_report _ _).bind fun _ htolerant => keeps_pure (p.error htolerant)
      · exact keeps_pure p.dyn

theorem keeps_literalTarget (id : NodeId) {v : Variable} (hv : p.Admits v.ty) :
    p.Keeps (Checking.literalTarget id v) fun r => p.Admits r.2 := by
  unfold Checking.literalTarget
  split
  · next hkind => exact keeps_pure (p.error_of_kind hv hkind)
  · next target _ hparam =>
    have htarget := p.params hv (List.mem_of_getElem? hparam)
    split
    · exact keeps_pure htarget
    · split
      · exact keeps_pure htarget
      · exact (keeps_report _ _).bind fun _ htolerant => keeps_pure (p.error htolerant)
  · exact (keeps_report _ _).bind fun _ htolerant => keeps_pure (p.error htolerant)

theorem fills_checkInit {env : Env} (henv : p.Covers env) {f : FieldInit}
    (hf : K (.type f.value.id)) (message : String) {target : Ty} (htarget : p.Admits target) :
    p.Fills K (Checking.checkInit env f message target) (fun _ => True) fun _ => K := by
  have hrest : ∀ declared : Ty, p.Admits declared → p.Fills K
      (do
        let given ← Checking.entryType f.value.id f.optional
        if !(← Checking.unify declared given) then
          Checking.report f.id (.fieldTypeMismatch f.field declared.display given.display))
      (fun _ => True) fun _ => K := by
    intro declared hdeclared
    refine (fills_entryType hf _).bind fun given hgiven =>
      (keeps_unify hdeclared hgiven).bind_fills fun unified _ => ?_
    split
    · exact (keeps_report _ _).mono (fun _ _ => trivial) K
    · exact keeps_pure trivial K
  unfold Checking.checkInit
  split
  · next hkind =>
    exact (keeps_pure (p.error_of_kind htarget hkind)).bind_fills fun declared hd =>
      hrest declared hd
  · exact (keeps_fieldType henv _ _ _).bind_fills fun _ hr =>
      (keeps_pure hr).bind_fills fun declared hd => hrest declared hd

theorem keeps_iterationTypes (id : NodeId) {range : Ty} (hrange : p.Admits range)
    (twoVars : Bool) :
    p.Keeps (Checking.iterationTypes id range twoVars) fun r => p.Admits r.1 ∧ p.Admits r.2 := by
  have hdynamic : p.Keeps
      (do
        let _ ← Checking.unify .dyn range
        return ((.dyn, .dyn) : Ty × Ty)) fun r => p.Admits r.1 ∧ p.Admits r.2 :=
    (keeps_unify p.dyn hrange).bind fun _ _ => keeps_pure ⟨p.dyn, p.dyn⟩
  have helement := admits_getElem? hrange 0
  unfold Checking.iterationTypes
  split
  · refine keeps_pure ?_
    split
    · exact ⟨admits_int, helement⟩
    · exact ⟨helement, p.dyn⟩
  · exact keeps_pure ⟨helement, admits_getElem? hrange 1⟩
  · exact hdynamic
  · exact hdynamic
  · exact hdynamic
  · exact (keeps_report _ _).bind fun _ htolerant =>
      keeps_pure ⟨p.error htolerant, p.error htolerant⟩

theorem fills_requireType {id : NodeId} (hid : K (.type id)) {expected : Ty}
    (hexpected : p.Admits expected) :
    p.Fills K (Checking.requireType id expected) (fun _ => True) fun _ => K := by
  refine (fills_typeOf hid).bind fun actual hactual =>
    (keeps_unify hexpected hactual).bind_fills fun unified _ => ?_
  split
  · exact (keeps_report _ _).mono (fun _ _ => trivial) K
  · exact keeps_pure trivial K

/-! ## Recording the outcome at a node -/

/-- The places that are filled once a node that refers to something has been dealt with. -/
def Records (p : Policy) (e : Expr) (slot : Slot) : Prop :=
  slot = .type e.id ∨ (¬ p.Tolerant ∧ slot = .reference e.id)

theorem fills_resolveIdent (e : Expr) {v : Variable} (hv : p.Admits v.ty) :
    p.Fills K (Checking.resolveIdent e v) (fun e' => e' = .ident e.id v.name)
      fun e' slot => K slot ∨ p.Records e' slot := by
  refine (fills_setType e hv).bind fun _ _ => (fills_setReference e _).bind fun _ _ =>
    fills_pure rfl ?_
  rintro slot (hslot | hslot | ⟨-, hslot⟩)
  · exact Or.inl (Or.inl hslot)
  · exact Or.inl (Or.inr hslot)
  · exact Or.inr hslot

theorem fills_finishCall (e : Expr) {found : Option (Ty × Reference)}
    (hfound : ∀ q ∈ found, p.Admits q.1) (hnone : found = none → p.Tolerant) :
    p.Fills K (Checking.finishCall e found) (fun _ => True)
      fun _ slot => K slot ∨ p.Records e slot := by
  rcases found with _ | ⟨t, reference⟩
  · have htolerant := hnone rfl
    refine (fills_setType e (p.error htolerant)).mono (fun _ h => h) ?_
    rintro _ slot - (hslot | hslot | ⟨hstrict, -⟩)
    · exact Or.inl hslot
    · exact Or.inr hslot
    · exact absurd htolerant hstrict
  · refine (fills_setType e (hfound _ rfl)).bind fun _ _ =>
      (fills_setReference e reference).mono (fun _ h => h) ?_
    rintro _ slot - (hslot | hslot | ⟨-, hslot⟩)
    · exact Or.inl (Or.inl hslot)
    · exact Or.inl (Or.inr hslot)
    · exact Or.inr hslot

theorem fills_typeCall (env : Env) (e : Expr) {f : FunctionDecl}
    (hf : ∀ o ∈ f.overloads, p.Supplies o) {target : Option NodeId} {args : List NodeId}
    (hids : ∀ i ∈ target.toList ++ args, K (.type i)) :
    p.Fills K (Checking.typeCall env e f target args) (fun e' => e' = e)
      fun e' slot => K slot ∨ p.Records e' slot :=
  (fills_resolveOverload env e.id hf hids).bind fun _ hfound =>
    (fills_finishCall e hfound.1 hfound.2).bind fun _ _ => fills_pure rfl fun _ h => h

/-- Giving a node the type `error` and reporting why. -/
theorem fills_undeclared (env : Env) (e : Expr) (id : NodeId) (name : String) :
    p.Fills K
      (do
        Checking.setType e .error
        Checking.reportUndeclared env id name
        return e)
      (fun e' => e' = e ∧ p.Tolerant) fun e' slot => K slot ∨ slot = .type e'.id := by
  refine fills_of_reports (fun s => ?_) fun htolerant => ?_
  · refine ⟨(s.setType e .error).report id (.undeclaredReference name env.container.name), ?_, ?_⟩
    · exact List.mem_cons_of_mem _ List.mem_cons_self
    · simp [CheckState.report]
  · exact (fills_setType e (p.error htolerant)).bind fun _ _ =>
      (keeps_report _ _).bind_fills fun _ _ => fills_pure ⟨rfl, htolerant⟩ fun _ h => h

theorem fills_finishOptionalSelect (e : Expr) {result : Except CheckError Ty}
    (hresult : ∀ t, result = .ok t → p.Admits t) :
    p.Fills K (Checking.finishOptionalSelect e result)
      (fun _ => ∀ err, result = .error err → p.Tolerant)
      fun _ slot => K slot ∨ p.Records e slot := by
  rcases result with err | t
  · refine (keeps_report _ _).bind_fills fun _ htolerant =>
      (fills_setType e (p.error htolerant)).mono (fun _ _ _ _ => htolerant) ?_
    rintro _ slot - (hslot | hslot | ⟨hstrict, -⟩)
    · exact Or.inl hslot
    · exact Or.inr hslot
    · exact absurd htolerant hstrict
  · refine (keeps_resolve (hresult t rfl)).bind_fills fun u hu =>
      (fills_setType e hu).bind fun _ _ =>
        (fills_setReference e _).mono (fun _ _ err h => absurd h (by simp)) ?_
    rintro _ slot - (hslot | hslot | ⟨-, hslot⟩)
    · exact Or.inl (Or.inl hslot)
    · exact Or.inl (Or.inr hslot)
    · exact Or.inr hslot

end Policy
end CelTyping
