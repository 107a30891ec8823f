import CelTyping.Env.Basic
import CelTyping.Proofs.Sequences
import Mathlib.Data.List.Basic

/-!
# What an environment sees

Looking up a name changes the store: what the provider knows is added to the outermost scope, where
other environments find it.  So two stores may differ in what is added already, in the places of
scopes that are long forgotten, and in what such scopes declare, and an environment cannot tell.
What it can tell is what every full name means to it, an identifier (`sees`) or a function, and all
that a lookup gives is a matter of these.

* `lookupIdent_fst`: an identifier means what the first of its candidates does that means something.
* `sees_enterScope`, `sees_declareLocal`: a new scope shows what is around it, and a local hides
  what has its name.
* `undisturbed_lookupIdent`, `undisturbed_enterScope`, `undisturbed_declareLocal`: neither a lookup,
  nor a new scope, nor a local inside changes what the environments around it see.
* `maintained_lookupIdent`, `maintained_enterScope`, `maintained_declareLocal`: nor do they change
  what the scopes of these environments declare, but for what a lookup adds to the outermost one.
-/

namespace CelTyping

/-! ## Groups -/

namespace Store

theorem group_size (store : Store) : store.group store.groups.size = .empty := by
  unfold group
  rw [Array.getElem?_eq_none (Nat.le_refl _)]
  rfl

/-- A new scope is empty, and so was the place it is put at. -/
theorem group_push_eq (store : Store) (h : Scopes) (j : GroupId) :
    (store.push h).2.group j = store.group j := by
  show (store.groups.push Group.empty)[j]?.getD .empty = store.group j
  rw [Array.getElem?_push]
  split
  · next hj =>
    rw [hj, group_size]
    rfl
  · rfl

theorem size_push (store : Store) (h : Scopes) :
    (store.push h).2.groups.size = store.groups.size + 1 :=
  Array.size_push _

theorem group_modify_of_ne (store : Store) {id j : GroupId} (h : j ≠ id) (f : Group → Group) :
    (store.modify id f).group j = store.group j := by
  unfold modify group
  rw [Array.getElem?_modify, if_neg (Ne.symm h)]

theorem group_modify_self (store : Store) {id : GroupId} (h : id < store.groups.size)
    (f : Group → Group) : (store.modify id f).group id = f (store.group id) := by
  unfold modify group
  rw [Array.getElem?_modify, if_pos rfl, Array.getElem?_eq_getElem h]
  rfl

/-- Declaring an identifier changes what its name means in its scope. -/
theorem idents_addIdent (store : Store) {id : GroupId} (hid : id < store.groups.size) (v : Variable)
    (j : GroupId) (name : String) :
    ((store.modify id fun g => g.addIdent v).group j).idents.find? name =
      if j = id ∧ name = v.name then some v else (store.group j).idents.find? name := by
  by_cases hj : j = id
  · subst hj
    rw [group_modify_self store hid]
    show ((store.group j).idents.insert v.name v).find? name = _
    rw [Table.find?_insert]
    simp
  · rw [group_modify_of_ne store hj, if_neg fun h => hj h.1]

/-- Declaring an identifier leaves the functions as they are. -/
theorem functions_addIdent (store : Store) (id : GroupId) (v : Variable) (j : GroupId) :
    ((store.modify id fun g => g.addIdent v).group j).functions = (store.group j).functions := by
  unfold modify group
  rw [Array.getElem?_modify]
  split
  · cases store.groups[j]? with
    | none => rfl
    | some g => rfl
  · rfl

/-- Scopes whose groups are the same in two stores declare the same identifiers. -/
theorem findIdent?_congr {s t : Store} {h : Scopes}
    (hgroup : ∀ id ∈ h.chain, t.group id = s.group id)
    (name : String) : t.findIdent? h name = s.findIdent? h name := by
  refine findSome?_congr_of_mem fun id hid => ?_
  rw [hgroup id hid]

theorem findFunction?_addIdent (store : Store) (id : GroupId) (v : Variable) (h : Scopes)
    (name : String) :
    (store.modify id fun g => g.addIdent v).findFunction? h name = store.findFunction? h name := by
  unfold findFunction?
  simp only [functions_addIdent]

end Store

theorem Scopes.getLast?_chain (h : Scopes) : h.chain.getLast? = some h.outermost := by
  unfold chain outermost
  rw [List.getLast?_cons, List.getLastD_eq_getLast?]

theorem Scopes.outermost_mem (h : Scopes) : h.outermost ∈ h.chain :=
  List.mem_of_getLast? h.getLast?_chain

namespace Env

/-! ## Seeing -/

/-- What a full name means to an environment: the innermost declaration, or else what the provider
knows. -/
def sees (env : Env) (store : Store) (name : String) : Option Variable :=
  (store.findIdent? env.scopes name).or (env.provided? name)

/-- The scopes of an environment have their places in a store. -/
def Valid (env : Env) (store : Store) : Prop := ∀ id ∈ env.scopes.chain, id < store.groups.size

instance (env : Env) (store : Store) : Decidable (env.Valid store) :=
  inferInstanceAs (Decidable (∀ id ∈ env.scopes.chain, id < store.groups.size))

theorem provided?_name {env : Env} {name : String} {v : Variable}
    (h : env.provided? name = some v) : v.name = name := by
  unfold provided? at h
  split at h
  · rw [← Option.some.inj h]
    rfl
  · split at h
    · rw [← Option.some.inj h]
      rfl
    · obtain ⟨i, -, rfl⟩ := Option.map_eq_some_iff.mp h
      rfl

theorem lookupFrom_fst (env : Env) (store : Store) (names : List String) :
    (env.lookupFrom store names).1 = names.findSome? (env.sees store) := by
  induction names with
  | nil => rfl
  | cons name rest ih =>
    rw [lookupFrom, List.findSome?_cons, sees]
    cases hfind : store.findIdent? env.scopes name with
    | some v => rfl
    | none =>
      cases hprov : env.provided? name with
      | some v => rfl
      | none => exact ih

/-- **What an identifier means**: what the first of its candidates does that means something. -/
theorem lookupIdent_fst (env : Env) (store : Store) (name : String) :
    (env.lookupIdent store name).1 = (env.container.candidates name).findSome? (env.sees store) :=
  env.lookupFrom_fst store _

/-- The store after a lookup is the one before, or has something more in the outermost scope: what
the provider knows under a name that was not declared. -/
theorem lookupFrom_snd (env : Env) (store : Store) (names : List String) :
    (env.lookupFrom store names).2 = store ∨
      ∃ v, store.findIdent? env.scopes v.name = none ∧ env.provided? v.name = some v ∧
        (env.lookupFrom store names).2 = store.addGlobalIdent env.scopes v := by
  induction names with
  | nil => exact Or.inl rfl
  | cons name rest ih =>
    rw [lookupFrom]
    cases hfind : store.findIdent? env.scopes name with
    | some v => exact Or.inl rfl
    | none =>
      cases hprov : env.provided? name with
      | some v =>
        have hname : v.name = name := provided?_name hprov
        exact Or.inr ⟨v, by rw [hname, hfind], by rw [hname, hprov], rfl⟩
      | none => exact ih

/-! ## New scopes and locals -/

theorem chain_enterScope (env : Env) (store : Store) :
    (env.enterScope store).1.scopes.chain = store.groups.size :: env.scopes.chain := rfl

theorem sees_enterScope (env : Env) (store : Store) (name : String) :
    (env.enterScope store).1.sees (env.enterScope store).2 name = env.sees store name := by
  have hgroup : ∀ id, (env.enterScope store).2.group id = store.group id :=
    store.group_push_eq env.scopes
  show (((env.enterScope store).1.scopes.chain.findSome? _).or (env.provided? name)) = _
  rw [chain_enterScope, List.findSome?_cons]
  simp only [hgroup, store.group_size]
  rfl

theorem findFunction?_enterScope (env : Env) (store : Store) (name : String) :
    (env.enterScope store).2.findFunction? (env.enterScope store).1.scopes name =
      store.findFunction? env.scopes name := by
  have hgroup : ∀ id, (env.enterScope store).2.group id = store.group id :=
    store.group_push_eq env.scopes
  unfold Store.findFunction?
  rw [chain_enterScope, List.findSome?_cons]
  simp only [hgroup, store.group_size]
  rfl

theorem Valid.enterScope {env : Env} {store : Store} (h : env.Valid store) :
    (env.enterScope store).1.Valid (env.enterScope store).2 := by
  have hsize : (env.enterScope store).2.groups.size = store.groups.size + 1 :=
    store.size_push env.scopes
  intro id hid
  rw [hsize]
  rw [chain_enterScope] at hid
  rcases List.mem_cons.mp hid with rfl | hid
  · exact Nat.lt_succ_self _
  · exact Nat.lt_succ_of_lt (h id hid)

/-- **A local hides what has its name**, and nothing else. -/
theorem sees_declareLocal {env : Env} {store : Store} (h : env.scopes.innermost < store.groups.size)
    (v : Variable) (name : String) :
    env.sees (env.declareLocal store v) name =
      if name = v.name then some v else env.sees store name := by
  have hidents := fun j => store.idents_addIdent h v j name
  show (((env.scopes.chain.findSome? _)).or (env.provided? name)) = _
  unfold declareLocal Store.addIdent
  simp only [hidents]
  by_cases hname : name = v.name
  · simp [hname, Scopes.chain]
  · simp only [hname, and_false, if_false]
    rfl

theorem size_declareLocal (env : Env) (store : Store) (v : Variable) :
    (env.declareLocal store v).groups.size = store.groups.size :=
  Array.size_modify

/-! ## What the environments around see -/

/-- An environment is another one or was entered from it. -/
structure Inside (env f : Env) : Prop where
  /-- The scopes of the other one are the last of its own. -/
  scopes : f.scopes.chain <:+ env.scopes.chain
  /-- The provider is the same. -/
  provider : env.provider = f.provider

/-- An environment sees in one store what it sees in another, which has at least as many scopes. -/
structure Undisturbed (f : Env) (s t : Store) : Prop where
  /-- No scope is taken away. -/
  size : s.groups.size ≤ t.groups.size
  /-- The names of identifiers mean the same. -/
  sees : ∀ name, f.sees t name = f.sees s name
  /-- The names of functions mean the same. -/
  functions : ∀ name, t.findFunction? f.scopes name = s.findFunction? f.scopes name

theorem Inside.refl (env : Env) : env.Inside env := ⟨List.suffix_rfl, rfl⟩

theorem Inside.trans {env f g : Env} (h : env.Inside f) (h' : f.Inside g) : env.Inside g :=
  ⟨h'.scopes.trans h.scopes, h.provider.trans h'.provider⟩

theorem inside_enterScope (env : Env) (store : Store) : (env.enterScope store).1.Inside env :=
  ⟨List.suffix_cons _ _, rfl⟩

theorem Inside.outermost {env f : Env} (h : env.Inside f) :
    env.scopes.outermost = f.scopes.outermost := by
  obtain ⟨locals, hlocals⟩ := h.scopes
  have hlast := env.scopes.getLast?_chain
  rw [← hlocals, List.getLast?_append, f.scopes.getLast?_chain] at hlast
  exact (Option.some.inj hlast).symm

theorem Inside.provided? {env f : Env} (h : env.Inside f) (name : String) :
    env.provided? name = f.provided? name := by
  unfold Env.provided?
  rw [h.provider]

theorem Inside.valid {env f : Env} (h : env.Inside f) {store : Store} (hv : env.Valid store) :
    f.Valid store :=
  fun id hid => hv id (h.scopes.subset hid)

/-- What the scopes of an environment do not declare, no scope around it declares. -/
theorem Inside.findIdent?_eq_none {env f : Env} (h : env.Inside f) {store : Store} {name : String}
    (hnone : store.findIdent? env.scopes name = none) : store.findIdent? f.scopes name = none := by
  unfold Store.findIdent? at hnone ⊢
  rw [List.findSome?_eq_none_iff] at hnone ⊢
  exact fun id hid => hnone id (h.scopes.subset hid)

theorem Undisturbed.refl (f : Env) (s : Store) : f.Undisturbed s s :=
  ⟨Nat.le_refl _, fun _ => rfl, fun _ => rfl⟩

theorem Undisturbed.trans {f : Env} {s t u : Store} (h : f.Undisturbed s t)
    (h' : f.Undisturbed t u) : f.Undisturbed s u :=
  ⟨Nat.le_trans h.size h'.size, fun name => (h'.sees name).trans (h.sees name),
    fun name => (h'.functions name).trans (h.functions name)⟩

theorem Undisturbed.valid {f : Env} {s t : Store} (h : f.Undisturbed s t) {env : Env}
    (hv : env.Valid s) : env.Valid t :=
  fun id hid => Nat.lt_of_lt_of_le (hv id hid) h.size

theorem Undisturbed.lookupIdent {env : Env} {s t : Store} (h : env.Undisturbed s t)
    (name : String) :
    (env.lookupIdent t name).1 = (env.lookupIdent s name).1 := by
  have hsees : env.sees t = env.sees s := funext h.sees
  rw [lookupIdent_fst, lookupIdent_fst, hsees]

theorem Undisturbed.lookupFunction {env : Env} {s t : Store} (h : env.Undisturbed s t)
    (name : String) : env.lookupFunction t name = env.lookupFunction s name := by
  unfold Env.lookupFunction
  simp only [h.functions]

/-- What the provider knows may be added to the outermost scope: it is what was seen before. -/
theorem undisturbed_addGlobalIdent {env f : Env} (hin : env.Inside f) {store : Store}
    (hv : env.Valid store) {v : Variable} (hnone : store.findIdent? env.scopes v.name = none)
    (hprov : env.provided? v.name = some v) :
    f.Undisturbed store (store.addGlobalIdent env.scopes v) := by
  have hlt : env.scopes.outermost < store.groups.size := hv _ env.scopes.outermost_mem
  have hidents := store.idents_addIdent hlt v
  refine ⟨Nat.le_of_eq Array.size_modify.symm, fun name => ?_,
    fun name => store.findFunction?_addIdent _ v _ name⟩
  unfold sees Store.findIdent? Store.addGlobalIdent
  simp only [hidents]
  by_cases hname : name = v.name
  · -- the name was not declared, and now it is in the outermost scope and nowhere else
    have hf := hin.findIdent?_eq_none hnone
    unfold Store.findIdent? at hf
    have hnew : f.scopes.chain.findSome? (fun id =>
        if id = env.scopes.outermost ∧ name = v.name then some v
        else (store.group id).idents.find? name) = some v := by
      rw [List.findSome?_eq_none_iff] at hf
      cases hfind : f.scopes.chain.findSome? (fun id =>
          if id = env.scopes.outermost ∧ name = v.name then some v
          else (store.group id).idents.find? name) with
      | none =>
        rw [List.findSome?_eq_none_iff] at hfind
        have hlast := hfind _ f.scopes.outermost_mem
        rw [if_pos ⟨hin.outermost.symm, hname⟩] at hlast
        exact absurd hlast (by simp)
      | some w =>
        obtain ⟨id, hid, hw⟩ := List.exists_of_findSome?_eq_some hfind
        split at hw
        · exact hw.symm
        · rw [hname, hf id hid] at hw
          exact absurd hw (by simp)
    rw [hnew, hname, hf, ← hin.provided?, hprov]
    rfl
  · simp only [hname, and_false, if_false]

/-- **Looking up an identifier changes nothing that can be seen.** -/
theorem undisturbed_lookupIdent {env f : Env} (hin : env.Inside f) {store : Store}
    (hv : env.Valid store) (name : String) :
    f.Undisturbed store (env.lookupIdent store name).2 := by
  unfold lookupIdent
  rcases env.lookupFrom_snd store (env.container.candidates name) with heq | ⟨v, hnone, hprov, heq⟩
  · rw [heq]
    exact .refl f store
  · rw [heq]
    exact undisturbed_addGlobalIdent hin hv hnone hprov

theorem undisturbed_enterScope (f : Env) {env : Env} {store : Store} :
    f.Undisturbed store (env.enterScope store).2 := by
  have hgroup : ∀ id, (env.enterScope store).2.group id = store.group id :=
    store.group_push_eq env.scopes
  have hsize : (env.enterScope store).2.groups.size = store.groups.size + 1 :=
    store.size_push env.scopes
  refine ⟨by omega, fun name => ?_, fun name => ?_⟩
  · unfold sees Store.findIdent?
    simp only [hgroup]
  · unfold Store.findFunction?
    simp only [hgroup]

theorem undisturbed_declareLocal {env f : Env} {store : Store}
    (h : env.scopes.innermost ∉ f.scopes.chain) (v : Variable) :
    f.Undisturbed store (env.declareLocal store v) := by
  have hgroup : ∀ id ∈ f.scopes.chain,
      (env.declareLocal store v).group id = store.group id := by
    intro id hid
    have hne : id ≠ env.scopes.innermost := fun heq => h (heq ▸ hid)
    exact store.group_modify_of_ne hne _
  refine ⟨Nat.le_of_eq (env.size_declareLocal store v).symm, fun name => ?_,
    fun name => store.findFunction?_addIdent _ v _ name⟩
  unfold sees
  rw [Store.findIdent?_congr hgroup]

/-! ## What the scopes of the environments around declare -/

/-- An environment sees in one store what it sees in another, and its scopes declare there what they
declare here; only the outermost may have more of what the provider knows. -/
structure Maintained (f : Env) (s t : Store) : Prop extends f.Undisturbed s t where
  /-- A scope declares the same, or it is the outermost one and a name that it did not declare is
  now declared as the provider knows it. -/
  idents : ∀ id ∈ f.scopes.chain, ∀ name,
    (t.group id).idents.find? name = (s.group id).idents.find? name ∨
      id = f.scopes.outermost ∧ (s.group id).idents.find? name = none ∧
        (t.group id).idents.find? name = f.provided? name

theorem Maintained.refl (f : Env) (s : Store) : f.Maintained s s :=
  ⟨.refl f s, fun _ _ _ => Or.inl rfl⟩

theorem Maintained.trans {f : Env} {s t u : Store} (h : f.Maintained s t)
    (h' : f.Maintained t u) : f.Maintained s u where
  toUndisturbed := h.toUndisturbed.trans h'.toUndisturbed
  idents id hid name := by
    rcases h.idents id hid name with heq | ⟨hout, hnone, hprov⟩
    · rw [← heq]
      exact h'.idents id hid name
    · rcases h'.idents id hid name with heq' | ⟨-, -, hprov'⟩
      · exact Or.inr ⟨hout, hnone, heq'.trans hprov⟩
      · exact Or.inr ⟨hout, hnone, hprov'⟩

/-- Where the groups of an environment are the same, nothing changed at all. -/
theorem Undisturbed.maintained {f : Env} {s t : Store} (h : f.Undisturbed s t)
    (hgroup : ∀ id ∈ f.scopes.chain, t.group id = s.group id) : f.Maintained s t where
  toUndisturbed := h
  idents id hid name := by
    rw [hgroup id hid]
    exact Or.inl rfl

theorem maintained_lookupIdent {env f : Env} (hin : env.Inside f) {store : Store}
    (hv : env.Valid store) (name : String) :
    f.Maintained store (env.lookupIdent store name).2 where
  toUndisturbed := undisturbed_lookupIdent hin hv name
  idents id hid other := by
    unfold lookupIdent
    rcases env.lookupFrom_snd store (env.container.candidates name) with
      heq | ⟨v, hnone, hprov, heq⟩
    · rw [heq]
      exact Or.inl rfl
    · have hlt : env.scopes.outermost < store.groups.size := hv _ env.scopes.outermost_mem
      rw [heq, Store.addGlobalIdent, store.idents_addIdent hlt]
      split
      · next hadded =>
        obtain ⟨rfl, rfl⟩ := hadded
        unfold Store.findIdent? at hnone
        rw [List.findSome?_eq_none_iff] at hnone
        exact Or.inr ⟨hin.outermost, hnone _ env.scopes.outermost_mem,
          by rw [← hin.provided?, hprov]⟩
      · exact Or.inl rfl

theorem maintained_enterScope (f : Env) {env : Env} {store : Store} :
    f.Maintained store (env.enterScope store).2 :=
  (undisturbed_enterScope f).maintained fun id _ => store.group_push_eq env.scopes id

theorem maintained_declareLocal {env f : Env} {store : Store}
    (h : env.scopes.innermost ∉ f.scopes.chain) (v : Variable) :
    f.Maintained store (env.declareLocal store v) := by
  refine (undisturbed_declareLocal h v).maintained fun id hid => ?_
  have hne : id ≠ env.scopes.innermost := fun heq => h (heq ▸ hid)
  exact store.group_modify_of_ne hne _

end Env
end CelTyping
