import CelTyping.Env.Standard
import CelTyping.Proofs.Declaration.Separation
import CelTyping.Proofs.Env.Sight

/-!
# Adding declarations

Declarations are added to a scope of their own: where the innermost scope is shared it is copied
first, and the copy takes its place.  So adding an identifier changes what its name means and
nothing else, and adding a function, which may be merged with what is known of it, changes what the
name of the function means.  All this holds whatever other environments are in use.

* `Valid.addIdents`, `Valid.addFunctions`: the scopes of an environment keep having their places.
* `sees_addIdents`, `findFunction?_addFunctions`: other names mean what they meant.
* `findFunction?_addIdents`, `sees_addFunctions`: identifiers are no functions.
* `Built.tidy`: in an environment that is built by adding declarations to a bare one, functions are
  found under their own names, and their overloads have different ids.
-/

namespace CelTyping

/-! ## Groups -/

namespace Store

theorem group_alloc (store : Store) (g : Group) (j : GroupId) :
    (store.alloc g).2.group j = if j = store.groups.size then g else store.group j := by
  show (store.groups.push g)[j]?.getD .empty = _
  rw [Array.getElem?_push]
  split
  · rfl
  · rfl

/-- Declaring a function changes what its name means in its scope. -/
theorem functions_setFunction (store : Store) {id : GroupId} (hid : id < store.groups.size)
    (f : FunctionDecl) (j : GroupId) (name : String) :
    ((store.modify id fun g => g.setFunction f).group j).functions.find? name =
      if j = id ∧ name = f.name then some f else (store.group j).functions.find? name := by
  by_cases hj : j = id
  · subst hj
    rw [group_modify_self store hid]
    show ((store.group j).functions.insert f.name f).find? name = _
    rw [Table.find?_insert]
    simp
  · rw [group_modify_of_ne store hj, if_neg fun h => hj h.1]

/-- Declaring a function leaves the identifiers as they are. -/
theorem idents_setFunction (store : Store) (id : GroupId) (f : FunctionDecl) (j : GroupId) :
    ((store.modify id fun g => g.setFunction f).group j).idents = (store.group j).idents := by
  unfold modify group
  rw [Array.getElem?_modify]
  split
  · cases store.groups[j]? with
    | none => rfl
    | some g => rfl
  · rfl

end Store

namespace Env

variable {env : Env} {store s s' : Store}

/-! ## One declaration -/

/-- A declaration that repeats another changes nothing; one of a new name is put into the innermost
scope. -/
theorem addIdent_cases {v : Variable} (h : env.addIdent s v = .ok s') :
    (∃ existing, s.findLocalIdent? env.scopes v.name = some existing ∧
      existing.isEquivalent v.sanitized = true ∧ s' = s) ∨
    (s.findLocalIdent? env.scopes v.name = none ∧ s' = env.declareLocal s v.sanitized) := by
  unfold addIdent at h
  dsimp only at h
  split at h
  · next existing hexisting =>
    split at h
    · next heq => exact Or.inl ⟨existing, hexisting, heq, (Except.ok.inj h).symm⟩
    · cases h
  · next hnone => exact Or.inr ⟨hnone, (Except.ok.inj h).symm⟩

/-- A function is put into the innermost scope, merged with what is known of it, if no macro takes
its calls. -/
theorem addFunction_cases {f : FunctionDecl} (h : env.addFunction s f = .ok s') :
    ∃ merged, macroClash? merged = none ∧ s' = s.setFunction env.scopes merged ∧
      ((s.findFunction? env.scopes f.name = none ∧ merged = f) ∨
        ∃ existing, s.findFunction? env.scopes f.name = some existing ∧
          existing.merge f = .ok merged) := by
  unfold addFunction at h
  dsimp only at h
  split at h
  · next existing hexisting =>
    cases hmerge : existing.merge f with
    | error err =>
      rw [hmerge] at h
      cases h
    | ok merged =>
      rw [hmerge] at h
      dsimp only [bind, Except.bind] at h
      split at h
      · cases h
      · next hclash =>
        exact ⟨merged, hclash, (Except.ok.inj h).symm, Or.inr ⟨existing, hexisting, hmerge⟩⟩
  · next hnone =>
    dsimp only [bind, Except.bind] at h
    split at h
    · cases h
    · next hclash => exact ⟨f, hclash, (Except.ok.inj h).symm, Or.inl ⟨hnone, rfl⟩⟩

theorem size_addIdent {v : Variable} (h : env.addIdent s v = .ok s') :
    s'.groups.size = s.groups.size := by
  rcases addIdent_cases h with ⟨_, -, -, rfl⟩ | ⟨-, rfl⟩
  · rfl
  · exact env.size_declareLocal s _

theorem size_addFunction {f : FunctionDecl} (h : env.addFunction s f = .ok s') :
    s'.groups.size = s.groups.size := by
  obtain ⟨merged, -, rfl, -⟩ := addFunction_cases h
  exact Array.size_modify

/-- Other names than that of an identifier that is added mean what they meant. -/
theorem sees_addIdent (hv : env.Valid s) {v : Variable} (h : env.addIdent s v = .ok s')
    {name : String} (hname : v.name ≠ name) : env.sees s' name = env.sees s name := by
  rcases addIdent_cases h with ⟨_, -, -, rfl⟩ | ⟨-, rfl⟩
  · rfl
  · rw [sees_declareLocal (hv _ List.mem_cons_self)]
    exact if_neg (Ne.symm hname)

theorem findFunction?_addIdent {v : Variable} (h : env.addIdent s v = .ok s') (name : String) :
    s'.findFunction? env.scopes name = s.findFunction? env.scopes name := by
  rcases addIdent_cases h with ⟨_, -, -, rfl⟩ | ⟨-, rfl⟩
  · rfl
  · exact s.findFunction?_addIdent _ _ _ _

/-- **A function that is declared is found**, and hides what has its name. -/
theorem findFunction?_setFunction (h : env.scopes.innermost < s.groups.size) (f : FunctionDecl)
    (name : String) : (s.setFunction env.scopes f).findFunction? env.scopes name =
      if name = f.name then some f else s.findFunction? env.scopes name := by
  have hfunctions := fun j => s.functions_setFunction h f j name
  unfold Store.findFunction? Store.setFunction
  simp only [hfunctions]
  by_cases hname : name = f.name
  · simp [hname, Scopes.chain]
  · simp only [hname, and_false, if_false]

/-- What a function that is added means, and that other names mean what they meant. -/
theorem findFunction?_addFunction (hv : env.Valid s) {f : FunctionDecl}
    (h : env.addFunction s f = .ok s') :
    ∃ merged, (∀ name, s'.findFunction? env.scopes name =
        if name = f.name then some merged else s.findFunction? env.scopes name) ∧
      merged.name = f.name ∧ ((s.findFunction? env.scopes f.name = none ∧ merged = f) ∨
        ∃ existing, s.findFunction? env.scopes f.name = some existing ∧
          existing.merge f = .ok merged) := by
  obtain ⟨merged, -, rfl, hmerged⟩ := addFunction_cases h
  have hname : merged.name = f.name := by
    rcases hmerged with ⟨-, rfl⟩ | ⟨existing, -, hmerge⟩
    · rfl
    · obtain ⟨_, -, -, hname, -⟩ := FunctionDecl.addOverloads_of_merge hmerge
      exact hname
  refine ⟨merged, fun name => ?_, hname, hmerged⟩
  rw [findFunction?_setFunction (hv _ List.mem_cons_self), hname]

theorem sees_addFunction {f : FunctionDecl} (h : env.addFunction s f = .ok s') (name : String) :
    env.sees s' name = env.sees s name := by
  obtain ⟨merged, -, rfl, -⟩ := addFunction_cases h
  unfold sees Store.findIdent? Store.setFunction
  simp only [s.idents_setFunction]

/-! ## A scope of its own -/

variable {others : List Scopes}

/-- An environment is given a copy of its innermost scope, or its scope is its own already. -/
theorem detach_cases (env : Env) (store : Store) (others : List Scopes) :
    env.detach store others =
      ({ env with scopes := (store.copyInnermost env.scopes).1 },
        (store.copyInnermost env.scopes).2) ∨
    env.detach store others = (env, store) := by
  have heq : env.detach store others = ({ env with scopes := (store.detach others env.scopes).1 },
    (store.detach others env.scopes).2) := rfl
  rw [heq, Store.detach]
  split
  · exact Or.inl rfl
  · exact Or.inr rfl

/-- A scope that was copied shows what it showed. -/
theorem findSome?_copyInnermost {β : Type} (hv : env.Valid store) (find : Group → Option β) :
    (store.copyInnermost env.scopes).1.chain.findSome?
        (fun id => find ((store.copyInnermost env.scopes).2.group id)) =
      env.scopes.chain.findSome? fun id => find (store.group id) := by
  have hgroup : ∀ id, (store.copyInnermost env.scopes).2.group id =
      if id = store.groups.size then store.group env.scopes.innermost else store.group id :=
    store.group_alloc _
  have haround : env.scopes.around.findSome?
        (fun id => find ((store.copyInnermost env.scopes).2.group id)) =
      env.scopes.around.findSome? fun id => find (store.group id) := by
    refine findSome?_congr_of_mem fun id hid => ?_
    have hlt : id < store.groups.size := hv id (List.mem_cons_of_mem _ hid)
    rw [hgroup, if_neg (Nat.ne_of_lt hlt)]
  show (store.groups.size :: env.scopes.around).findSome? _ =
    (env.scopes.innermost :: env.scopes.around).findSome? _
  rw [List.findSome?_cons, List.findSome?_cons, haround, hgroup, if_pos rfl]

/-- A scope of its own shows what the scope showed. -/
theorem findSome?_detach {β : Type} (hv : env.Valid store) (others : List Scopes)
    (find : Group → Option β) :
    (env.detach store others).1.scopes.chain.findSome?
        (fun id => find ((env.detach store others).2.group id)) =
      env.scopes.chain.findSome? fun id => find (store.group id) := by
  rcases env.detach_cases store others with heq | heq
  · rw [heq]
    exact findSome?_copyInnermost hv find
  · rw [heq]

theorem sees_detach (hv : env.Valid store) (name : String) :
    (env.detach store others).1.sees (env.detach store others).2 name = env.sees store name := by
  have hfind := findSome?_detach hv others fun g => g.idents.find? name
  exact congrArg (fun found => found.or (env.provided? name)) hfind

theorem findFunction?_detach (hv : env.Valid store) (name : String) :
    (env.detach store others).2.findFunction? (env.detach store others).1.scopes name =
      store.findFunction? env.scopes name :=
  findSome?_detach hv others fun g => g.functions.find? name

/-! ## Environments are valid -/

theorem valid_bare (store : Store) (container : Container) (provider : Provider)
    (options : CheckerOptions) :
    (bare store container provider options).1.Valid (bare store container provider options).2 := by
  intro id hid
  rw [List.mem_singleton.mp hid]
  show store.groups.size < (store.groups.push _).size
  rw [Array.size_push]
  exact Nat.lt_succ_self _

theorem Valid.of_size {s t : Store} (h : env.Valid s) (hsize : s.groups.size ≤ t.groups.size) :
    env.Valid t :=
  fun id hid => Nat.lt_of_lt_of_le (h id hid) hsize

theorem Valid.detach (h : env.Valid store) :
    (env.detach store others).1.Valid (env.detach store others).2 := by
  rcases env.detach_cases store others with heq | heq
  · rw [heq]
    intro id hid
    show id < (store.groups.push _).size
    rw [Array.size_push]
    rcases List.mem_cons.mp hid with rfl | hid
    · exact Nat.lt_succ_self _
    · exact Nat.lt_succ_of_lt (h id (List.mem_cons_of_mem _ hid))
  · rw [heq]
    exact h

theorem size_le_detach (env : Env) (store : Store) (others : List Scopes) :
    store.groups.size ≤ (env.detach store others).2.groups.size := by
  rcases env.detach_cases store others with heq | heq
  · rw [heq]
    exact Nat.le_of_lt (Nat.lt_of_lt_of_eq (Nat.lt_succ_self _) (Array.size_push _).symm)
  · exact Nat.le_of_eq (congrArg (fun r => r.2.groups.size) heq).symm

theorem Valid.exitScope (h : env.Valid store) : env.exitScope.Valid store := by
  intro id hid
  refine h id ?_
  unfold Env.exitScope Scopes.pop at hid
  split at hid
  · exact hid
  · next heq =>
    rw [Scopes.chain, Scopes.around, heq]
    exact List.mem_cons_of_mem _ hid

theorem Valid.addIdent (hv : env.Valid s) {v : Variable} (h : env.addIdent s v = .ok s') :
    env.Valid s' :=
  hv.of_size (Nat.le_of_eq (size_addIdent h).symm)

theorem Valid.addFunction (hv : env.Valid s) {f : FunctionDecl}
    (h : env.addFunction s f = .ok s') : env.Valid s' :=
  hv.of_size (Nat.le_of_eq (size_addFunction h).symm)

theorem Valid.addIdents (h : env.Valid store) (others : List Scopes) (vs : List Variable) :
    (env.addIdents store others vs).1.Valid (env.addIdents store others vs).2.1 :=
  runSteps_invariant (P := (env.detach store others).1.Valid)
    (fun _ _ _ _ hv hadd => hv.addIdent hadd) h.detach

theorem Valid.addFunctions (h : env.Valid store) (others : List Scopes)
    (fs : List FunctionDecl) :
    (env.addFunctions store others fs).1.Valid (env.addFunctions store others fs).2.1 :=
  runSteps_invariant (P := (env.detach store others).1.Valid)
    (fun _ _ _ _ hv hadd => hv.addFunction hadd) h.detach

/-! ## Lists of declarations -/

theorem size_le_addIdents (env : Env) (store : Store) (others : List Scopes) (vs : List Variable) :
    store.groups.size ≤ (env.addIdents store others vs).2.1.groups.size :=
  runSteps_invariant (P := fun t : Store => store.groups.size ≤ t.groups.size)
    (fun _ _ _ _ hle hadd => Nat.le_trans hle (Nat.le_of_eq (size_addIdent hadd).symm))
    (env.size_le_detach store others)

theorem size_le_addFunctions (env : Env) (store : Store) (others : List Scopes)
    (fs : List FunctionDecl) :
    store.groups.size ≤ (env.addFunctions store others fs).2.1.groups.size :=
  runSteps_invariant (P := fun t : Store => store.groups.size ≤ t.groups.size)
    (fun _ _ _ _ hle hadd => Nat.le_trans hle (Nat.le_of_eq (size_addFunction hadd).symm))
    (env.size_le_detach store others)

/-- **Identifiers that are added leave other names alone.** -/
theorem sees_addIdents (hv : env.Valid store) {vs : List Variable} {name : String}
    (hname : ∀ v ∈ vs, v.name ≠ name) :
    (env.addIdents store others vs).1.sees (env.addIdents store others vs).2.1 name =
      env.sees store name := by
  refine (runSteps_invariant (P := fun t => (env.detach store others).1.Valid t ∧
    (env.detach store others).1.sees t name = env.sees store name) ?_
    ⟨hv.detach, sees_detach hv name⟩).2
  rintro v hmem s s' ⟨hv, hsees⟩ hadd
  exact ⟨hv.addIdent hadd, (sees_addIdent hv hadd (hname v hmem)).trans hsees⟩

theorem findFunction?_addIdents (hv : env.Valid store) (vs : List Variable) (name : String) :
    (env.addIdents store others vs).2.1.findFunction? (env.addIdents store others vs).1.scopes
      name = store.findFunction? env.scopes name := by
  refine runSteps_invariant
    (P := fun t : Store => t.findFunction? (env.detach store others).1.scopes name =
      store.findFunction? env.scopes name) ?_ (findFunction?_detach hv name)
  exact fun v _ s s' hfind hadd => (findFunction?_addIdent hadd name).trans hfind

/-- **Functions that are added leave other names alone.** -/
theorem findFunction?_addFunctions (hv : env.Valid store) {fs : List FunctionDecl} {name : String}
    (hname : ∀ f ∈ fs, f.name ≠ name) :
    (env.addFunctions store others fs).2.1.findFunction? (env.addFunctions store others fs).1.scopes
      name = store.findFunction? env.scopes name := by
  refine (runSteps_invariant (P := fun t => (env.detach store others).1.Valid t ∧
    t.findFunction? (env.detach store others).1.scopes name =
      store.findFunction? env.scopes name) ?_ ⟨hv.detach, findFunction?_detach hv name⟩).2
  rintro f hmem s s' ⟨hv, hfind⟩ hadd
  obtain ⟨merged, hafter, -, -⟩ := findFunction?_addFunction hv hadd
  refine ⟨hv.addFunction hadd, ?_⟩
  rw [hafter, if_neg (Ne.symm (hname f hmem)), hfind]

theorem sees_addFunctions (hv : env.Valid store) (others : List Scopes) (fs : List FunctionDecl)
    (name : String) :
    (env.addFunctions store others fs).1.sees (env.addFunctions store others fs).2.1 name =
      env.sees store name := by
  refine runSteps_invariant
    (P := fun t => (env.detach store others).1.sees t name = env.sees store name) ?_
    (sees_detach hv name)
  exact fun f _ s s' hsees hadd => (sees_addFunction hadd name).trans hsees

/-! ## Environments as they are built -/

/-- The only scope of a bare environment is new, and so it is empty. -/
theorem findFunction?_bare (store : Store) (container : Container) (provider : Provider)
    (options : CheckerOptions) (name : String) :
    (bare store container provider options).2.findFunction?
      (bare store container provider options).1.scopes name = none := by
  have hempty : (store.alloc .empty).2.group store.groups.size = .empty := by
    rw [Store.group_alloc, if_pos rfl]
  show [store.groups.size].findSome?
    (fun id => ((store.alloc .empty).2.group id).functions.find? name) = none
  rw [List.findSome?_singleton, hempty]
  rfl

/-- The overloads of a function have different ids if it was put together one by one. -/
theorem nodup_ids_build (c : Construction) : c.build.ids.Nodup :=
  (c.build_apart (R := fun _ _ => True) (P := fun _ _ => True) (A := fun _ => True)
    (fun _ _ h => h) (fun _ _ _ _ _ => trivial) (fun _ _ _ _ _ _ _ _ _ => trivial)
    (fun _ _ => trivial) c.redeclares_trivially).nodup_ids

/-- Environments that are built from a bare one by adding declarations.  The overloads of a function
that is added have different ids, as they have however it was put together (`nodup_ids_build`).  In
the meantime anything may happen to the store that the environment does not see, such as checks, or
other environments that are built. -/
inductive Built : Env → Store → Prop
  | bare (store : Store) (container : Container) (provider : Provider) (options : CheckerOptions) :
    Built (bare store container provider options).1 (bare store container provider options).2
  | addIdents {env : Env} {store : Store} (others : List Scopes) (vs : List Variable) :
    Built env store → Built (env.addIdents store others vs).1 (env.addIdents store others vs).2.1
  | addFunctions {env : Env} {store : Store} (others : List Scopes) {fs : List FunctionDecl} :
    Built env store → (∀ f ∈ fs, f.ids.Nodup) →
    Built (env.addFunctions store others fs).1 (env.addFunctions store others fs).2.1
  | meanwhile {env : Env} {store later : Store} :
    Built env store → env.Undisturbed store later → Built env later

/-- What holds of a bare environment and is kept when the standard declarations are added holds of
the standard environment. -/
theorem standard_induct {P : Env → Store → Prop} {store : Store} {container : Container}
    {provider : Provider} {options : CheckerOptions}
    (hbare : P (bare store container provider options).1 (bare store container provider options).2)
    (hidents : ∀ env store, P env store →
      P (env.addIdents store [] Standard.idents).1 (env.addIdents store [] Standard.idents).2.1)
    (hfunctions : ∀ env store, P env store →
      P (env.addFunctions store [] Standard.functions).1
        (env.addFunctions store [] Standard.functions).2.1) :
    P (standard store container provider options).1
      (standard store container provider options).2 := by
  unfold standard
  -- what the steps lead to does not matter, and it would take long to work it out
  generalize bare store container provider options = b at hbare ⊢
  obtain ⟨env, store⟩ := b
  have hadded := hidents env store hbare
  dsimp only
  generalize env.addIdents store [] Standard.idents = a at hadded ⊢
  obtain ⟨env, store, _⟩ := a
  exact hfunctions env store hadded

/-- The standard environment is built. -/
theorem built_standard (store : Store) (container : Container) (provider : Provider)
    (options : CheckerOptions) :
    (standard store container provider options).1.Built
      (standard store container provider options).2 := by
  have hids : ∀ f ∈ Standard.functions, f.ids.Nodup := by decide +kernel
  exact standard_induct (P := Built) (.bare store container provider options)
    (fun _ _ h => h.addIdents [] _) fun _ _ h => h.addFunctions [] hids

/-- What is found under a name is a function of this name, whose overloads have different ids. -/
def Tidy (env : Env) (store : Store) : Prop :=
  ∀ name f, store.findFunction? env.scopes name = some f → f.name = name ∧ f.ids.Nodup

theorem nodup_ids_merge {f g h : FunctionDecl} (hf : f.ids.Nodup) (hg : g.ids.Nodup)
    (hmerge : f.merge g = .ok h) : h.ids.Nodup := by
  obtain ⟨k, hadd, hk, -⟩ := FunctionDecl.addOverloads_of_merge hmerge
  have hapart : FunctionDecl.Apart (fun _ _ => True) f.overloads :=
    (List.pairwise_map.mp hf).imp fun hne => ⟨hne, trivial⟩
  unfold FunctionDecl.ids
  rw [hk]
  exact (FunctionDecl.addOverloads_apart (R := fun _ _ => True) (A := fun _ => True)
    (fun _ _ h => h) (fun _ _ _ _ _ => trivial) hg (fun _ _ _ _ _ _ _ _ => trivial)
    (fun _ _ => trivial) (fun _ _ => trivial) hapart hadd).nodup_ids

theorem Tidy.addFunction (hv : env.Valid s) (ht : env.Tidy s) {f : FunctionDecl}
    (hf : f.ids.Nodup) (h : env.addFunction s f = .ok s') : env.Tidy s' := by
  obtain ⟨merged, hafter, hname, hmerged⟩ := findFunction?_addFunction hv h
  intro name g hg
  rw [hafter] at hg
  split at hg
  · next heq =>
    obtain rfl := Option.some.inj hg
    refine ⟨hname.trans heq.symm, ?_⟩
    rcases hmerged with ⟨-, rfl⟩ | ⟨existing, hexisting, hmerge⟩
    · exact hf
    · exact nodup_ids_merge (ht _ _ hexisting).2 hf hmerge
  · exact ht name g hg

/-- **Environments that are built are tidy**, and their scopes have their places. -/
theorem Built.tidy (h : env.Built store) : env.Valid store ∧ env.Tidy store := by
  induction h with
  | bare store container provider options =>
    refine ⟨valid_bare store container provider options, fun name f hf => ?_⟩
    rw [findFunction?_bare] at hf
    cases hf
  | @addIdents env store others vs _ ih =>
    refine ⟨ih.1.addIdents others vs, fun name f hf => ih.2 name f ?_⟩
    rw [← findFunction?_addIdents ih.1 vs]
    exact hf
  | @addFunctions env store others fs _ hfs ih =>
    refine runSteps_invariant (P := fun t => (env.detach store others).1.Valid t ∧
      (env.detach store others).1.Tidy t) ?_ ⟨ih.1.detach, fun name f hf => ih.2 name f ?_⟩
    · rintro f hmem s s' ⟨hv, ht⟩ hadd
      exact ⟨hv.addFunction hadd, ht.addFunction hv (hfs f hmem) hadd⟩
    · rw [← findFunction?_detach ih.1]
      exact hf
  | meanwhile _ hquiet ih =>
    refine ⟨hquiet.valid ih.1, fun name f hf => ih.2 name f ?_⟩
    rw [← hquiet.functions]
    exact hf

end Env
end CelTyping
