import CelTyping.Proofs.Scope.Isolation
import CelTyping.Proofs.Scope.Listings

/-!
# Assembling environments

Environments are assembled from bare ones by adding declarations, entering and leaving scopes,
binding locals and looking up names, which adds what the provider knows.  Some of these steps fail,
and a list of declarations that is refused has been added in part.

`Assembly` keeps the environments that are in use, with the store that they share, and `step` does
one thing with one of them.  An environment that declarations are added to is changed, and the
scopes of all the others decide whether its innermost scope is copied first; clones can be made and
environments dropped at any time, so no order of steps is left out.

* `WellKept`: declarations are stored under their own names, and no function has an overload whose
  calls a macro takes.  A function is looked at after it was merged with what was known of it, and
  so this also holds of overloads that came together from several scopes.
* `runSteps_error`: a list of declarations that is refused at one of them leaves what the list up
  to there leaves.
-/

namespace CelTyping

/-! ## Groups -/

/-- No overload of a function has the name, call style and number of arguments of a macro. -/
def FunctionDecl.Callable (f : FunctionDecl) : Prop :=
  ∀ o ∈ f.overloads, ⟨f.name, o.argCount, o.isMember⟩ ∉ MacroShape.standard

theorem Env.callable_iff {f : FunctionDecl} : Env.macroClash? f = none ↔ f.Callable := by
  unfold macroClash? FunctionDecl.Callable MacroShape.find?
  rw [Option.map_eq_none_iff, List.find?_eq_none]
  simp

/-- The declarations of a group are stored under their own names, and its functions can be
called. -/
structure Group.WellKept (g : Group) : Prop extends g.Filed where
  callable : ∀ e ∈ g.functions.entries, e.2.Callable

namespace Group

theorem wellKept_empty : empty.WellKept where
  toFiled := filed_empty
  callable _ he := absurd he List.not_mem_nil

theorem WellKept.addIdent {g : Group} (h : g.WellKept) (v : Variable) :
    (g.addIdent v).WellKept where
  toFiled := h.toFiled.change (.ident v)
  callable := h.callable

theorem WellKept.setFunction {g : Group} (h : g.WellKept) {f : FunctionDecl} (hf : f.Callable) :
    (g.setFunction f).WellKept where
  toFiled := h.toFiled.change (.function f)
  callable e he := by
    rcases Table.mem_assign he with rfl | he
    · exact hf
    · exact h.callable e he

end Group

/-! ## Stores -/

/-- All groups of a store are well kept. -/
def Store.WellKept (s : Store) : Prop := ∀ id, (s.group id).WellKept

namespace Store.WellKept

variable {s : Store} (h : s.WellKept)

include h

theorem alloc {g : Group} (hg : g.WellKept) : (s.alloc g).2.WellKept := forall_group_alloc h hg

theorem modify (id : GroupId) {change : Group → Group}
    (hchange : ∀ g : Group, g.WellKept → (change g).WellKept) : (s.modify id change).WellKept :=
  forall_group_modify h id hchange

theorem addIdent (scopes : Scopes) (v : Variable) : (s.addIdent scopes v).WellKept :=
  h.modify _ fun _ hg => hg.addIdent v

end Store.WellKept

theorem Store.wellKept_empty : Store.empty.WellKept := fun _ => Group.wellKept_empty

/-! ## What the operations of an environment keep -/

namespace Env

variable {store s : Store} (h : store.WellKept)

section

include h

theorem wellKept_bare (container : Container) (provider : Provider) (options : CheckerOptions) :
    (bare store container provider options).2.WellKept :=
  h.alloc Group.wellKept_empty

theorem wellKept_detach (env : Env) (others : List Scopes) :
    (env.detach store others).2.WellKept := by
  rcases env.detach_cases store others with heq | heq
  · rw [heq]
    exact h.alloc (h _)
  · rw [heq]
    exact h

theorem wellKept_enterScope (env : Env) : (env.enterScope store).2.WellKept :=
  h.alloc Group.wellKept_empty

theorem wellKept_declareLocal (env : Env) (v : Variable) : (env.declareLocal store v).WellKept :=
  h.addIdent _ v

theorem wellKept_lookupIdent (env : Env) (name : String) :
    (env.lookupIdent store name).2.WellKept := by
  unfold lookupIdent
  rcases env.lookupFrom_snd store (env.container.candidates name) with heq | ⟨v, -, -, heq⟩
  · rw [heq]
    exact h
  · rw [heq]
    exact h.modify _ fun _ hg => hg.addIdent v

theorem wellKept_addIdents (env : Env) (others : List Scopes) (vs : List Variable) :
    (env.addIdents store others vs).2.1.WellKept := by
  refine runSteps_invariant (P := Store.WellKept) ?_ (wellKept_detach h env others)
  intro v _ s s' hs hadd
  rcases addIdent_cases hadd with ⟨_, -, -, rfl⟩ | ⟨-, rfl⟩
  · exact hs
  · exact wellKept_declareLocal hs _ _

/-- **A function is looked at when it is complete**: whatever scopes its overloads come from, they
are merged before they are compared with the macros. -/
theorem wellKept_addFunctions (env : Env) (others : List Scopes) (fs : List FunctionDecl) :
    (env.addFunctions store others fs).2.1.WellKept := by
  refine runSteps_invariant (P := Store.WellKept) ?_ (wellKept_detach h env others)
  intro f _ s s' hs hadd
  obtain ⟨merged, hclash, rfl, -⟩ := addFunction_cases hadd
  exact hs.modify _ fun _ hg => hg.setFunction (callable_iff.mp hclash)

end

/-- A list of identifiers that is refused. -/
theorem addIdents_error {env env' : Env} {store store' : Store} {others : List Scopes}
    {vs : List Variable} {e : DeclarationError}
    (h : env.addIdents store others vs = (env', store', some e)) :
    ∃ before v after, vs = before ++ v :: after ∧
      env.addIdents store others before = (env', store', none) ∧
      env'.addIdent store' v = .error e := by
  obtain ⟨rfl, hrun⟩ := Prod.mk.inj h
  obtain ⟨before, v, after, hvs, hbefore, herror⟩ := runSteps_error hrun
  exact ⟨before, v, after, hvs, congrArg (Prod.mk (env.detach store others).1) hbefore, herror⟩

/-- A list of functions that is refused. -/
theorem addFunctions_error {env env' : Env} {store store' : Store} {others : List Scopes}
    {fs : List FunctionDecl} {e : DeclarationError}
    (h : env.addFunctions store others fs = (env', store', some e)) :
    ∃ before f after, fs = before ++ f :: after ∧
      env.addFunctions store others before = (env', store', none) ∧
      env'.addFunction store' f = .error e := by
  obtain ⟨rfl, hrun⟩ := Prod.mk.inj h
  obtain ⟨before, f, after, hfs, hbefore, herror⟩ := runSteps_error hrun
  exact ⟨before, f, after, hfs, congrArg (Prod.mk (env.detach store others).1) hbefore, herror⟩

end Env

/-! ## Assemblies -/

/-- Something that is done with an environment. -/
inductive EnvOp where
  /-- Declare identifiers. -/
  | addIdents (vs : List Variable)
  /-- Declare functions. -/
  | addFunctions (fs : List FunctionDecl)
  /-- Make another environment like it. -/
  | clone
  /-- Use it no longer; the numbers of those after it move up. -/
  | drop
  /-- Enter a new scope. -/
  | enterScope
  /-- Leave the innermost scope. -/
  | exitScope
  /-- Bind a local identifier. -/
  | declareLocal (v : Variable)
  /-- Look up an identifier. -/
  | lookupIdent (name : String)

/-- Something that is done with environments, which go by their numbers. -/
inductive EnvAct where
  /-- Make an environment with one empty scope. -/
  | create (container : Container) (provider : Provider) (options : CheckerOptions)
  /-- Do something with an environment. -/
  | use (i : Nat) (op : EnvOp)

/-- The environments in use, and the groups of their scopes. -/
structure Assembly where
  /-- The groups. -/
  store : Store
  /-- The environments by their numbers. -/
  envs : List Env

namespace Assembly

/-- No environments at all. -/
def start : Assembly := ⟨.empty, []⟩

/-- The scopes of the environments in use, but for the one of a number. -/
def others (a : Assembly) (i : Nat) : List Scopes := (a.envs.eraseIdx i).map Env.scopes

/-- Do something with the environment of a number. -/
def perform (a : Assembly) (i : Nat) (env : Env) : EnvOp → Assembly
  | .addIdents vs =>
    let (env, store, _) := env.addIdents a.store (a.others i) vs
    ⟨store, a.envs.set i env⟩
  | .addFunctions fs =>
    let (env, store, _) := env.addFunctions a.store (a.others i) fs
    ⟨store, a.envs.set i env⟩
  | .clone => { a with envs := a.envs ++ [env] }
  | .drop => { a with envs := a.envs.eraseIdx i }
  | .enterScope =>
    let (env, store) := env.enterScope a.store
    ⟨store, a.envs ++ [env]⟩
  | .exitScope => { a with envs := a.envs ++ [env.exitScope] }
  | .declareLocal v => { a with store := env.declareLocal a.store v }
  | .lookupIdent name => { a with store := (env.lookupIdent a.store name).2 }

/-- Do one thing; with an environment that there is not, there is nothing to do. -/
def step (a : Assembly) : EnvAct → Assembly
  | .create container provider options =>
    let (env, store) := Env.bare a.store container provider options
    ⟨store, a.envs ++ [env]⟩
  | .use i op =>
    match a.envs[i]? with
    | some env => a.perform i env op
    | none => a

/-- Do one thing after another. -/
def run (a : Assembly) (acts : List EnvAct) : Assembly := acts.foldl step a

/-- The scopes of all environments have their places, and all groups are well kept. -/
structure WellKept (a : Assembly) : Prop where
  envs : ∀ env ∈ a.envs, env.Valid a.store
  store : a.store.WellKept

/-- Environments that were there before, or have their places in a larger store. -/
theorem WellKept.replace {a : Assembly} (h : a.WellKept) {store : Store} {envs : List Env}
    (hsize : a.store.groups.size ≤ store.groups.size)
    (henvs : ∀ env ∈ envs, env ∈ a.envs ∨ env.Valid store) (hstore : store.WellKept) :
    (Assembly.mk store envs).WellKept where
  envs env henv := by
    rcases henvs env henv with henv | hv
    · exact (h.envs env henv).of_size hsize
    · exact hv
  store := hstore

/-- One more environment. -/
theorem WellKept.extend {a : Assembly} (h : a.WellKept) {env : Env} {store : Store}
    (hsize : a.store.groups.size ≤ store.groups.size) (henv : env.Valid store)
    (hstore : store.WellKept) : (Assembly.mk store (a.envs ++ [env])).WellKept := by
  refine h.replace hsize (fun f hf => ?_) hstore
  rcases List.mem_append.mp hf with hf | hf
  · exact Or.inl hf
  · rw [List.mem_singleton.mp hf]
    exact Or.inr henv

/-- Another environment under a number. -/
theorem WellKept.set {a : Assembly} (h : a.WellKept) {env : Env} {store : Store}
    (hsize : a.store.groups.size ≤ store.groups.size) (henv : env.Valid store)
    (hstore : store.WellKept) (i : Nat) : (Assembly.mk store (a.envs.set i env)).WellKept := by
  refine h.replace hsize (fun f hf => ?_) hstore
  rcases List.mem_or_eq_of_mem_set hf with hf | rfl
  · exact Or.inl hf
  · exact Or.inr henv

theorem WellKept.perform {a : Assembly} (h : a.WellKept) {env : Env} (henv : env ∈ a.envs)
    (i : Nat) (op : EnvOp) : (a.perform i env op).WellKept := by
  have hv : env.Valid a.store := h.envs env henv
  cases op with
  | addIdents vs =>
    exact h.set (env.size_le_addIdents a.store _ vs) (hv.addIdents _ vs)
      (Env.wellKept_addIdents h.store env _ vs) i
  | addFunctions fs =>
    exact h.set (env.size_le_addFunctions a.store _ fs) (hv.addFunctions _ fs)
      (Env.wellKept_addFunctions h.store env _ fs) i
  | clone => exact h.extend (Nat.le_refl _) hv h.store
  | drop =>
    exact h.replace (Nat.le_refl _) (fun f hf => Or.inl (List.mem_of_mem_eraseIdx hf)) h.store
  | enterScope =>
    have hsize := Nat.le_of_eq (a.store.size_push env.scopes).symm
    exact h.extend (Nat.le_of_succ_le hsize) hv.enterScope (Env.wellKept_enterScope h.store env)
  | exitScope => exact h.extend (Nat.le_refl _) hv.exitScope h.store
  | declareLocal v =>
    have hsize := Nat.le_of_eq (env.size_declareLocal a.store v).symm
    exact ⟨fun f hf => (h.envs f hf).of_size hsize, Env.wellKept_declareLocal h.store env v⟩
  | lookupIdent name =>
    have hsize := (Env.undisturbed_lookupIdent (.refl env) hv name).size
    exact ⟨fun f hf => (h.envs f hf).of_size hsize, Env.wellKept_lookupIdent h.store env name⟩

theorem WellKept.step {a : Assembly} (h : a.WellKept) (act : EnvAct) : (a.step act).WellKept := by
  cases act with
  | create container provider options =>
    refine h.extend ?_ (Env.valid_bare a.store container provider options)
      (Env.wellKept_bare h.store container provider options)
    show _ ≤ (a.store.groups.push _).size
    rw [Array.size_push]
    omega
  | use i op =>
    unfold Assembly.step
    dsimp only
    split
    · next env hi => exact h.perform (List.mem_of_getElem? hi) i op
    · exact h

theorem wellKept_run (acts : List EnvAct) : (start.run acts).WellKept := by
  have hrun : ∀ {a : Assembly}, a.WellKept → (a.run acts).WellKept := by
    induction acts with
    | nil => exact id
    | cons act rest ih => exact fun h => ih (h.step act)
  exact hrun ⟨fun env henv => absurd henv List.not_mem_nil, Store.wellKept_empty⟩

/-- **Environments stay valid however they are assembled**, by steps of which some may fail.  The
scopes of an environment have their places; what they declare is stored under its own name, and no
function has an overload with the name, call style and number of arguments of a macro.  A list of
declarations that is refused at one of them leaves the environment and the store that the
declarations before it lead to, and this declaration is refused there. -/
theorem run_valid (acts : List EnvAct) {env : Env} (henv : env ∈ (start.run acts).envs) :
    (∀ id ∈ env.scopes.chain, id < (start.run acts).store.groups.size ∧
      ((start.run acts).store.group id).WellKept) ∧
    (∀ others vs env' store' e,
      env.addIdents (start.run acts).store others vs = (env', store', some e) →
      ∃ before v after, vs = before ++ v :: after ∧
        env.addIdents (start.run acts).store others before = (env', store', none) ∧
        env'.addIdent store' v = .error e) ∧
    ∀ others fs env' store' e,
      env.addFunctions (start.run acts).store others fs = (env', store', some e) →
      ∃ before f after, fs = before ++ f :: after ∧
        env.addFunctions (start.run acts).store others before = (env', store', none) ∧
        env'.addFunction store' f = .error e := by
  have h := wellKept_run acts
  refine ⟨fun id hid => ⟨h.envs env henv id hid, h.store id⟩,
    fun others vs env' store' e hadd => ?_, fun others fs env' store' e hadd => ?_⟩
  · exact Env.addIdents_error hadd
  · exact Env.addFunctions_error hadd

/-- In a scope inside a bare environment, `size` is declared, and `has` with one argument, which is
a macro, is refused. -/
theorem run_valid_refused : ∃ acts env fs, env ∈ (start.run acts).envs ∧ env.scopeDepth = 2 ∧
    (∀ id ∈ env.scopes.chain, id < (start.run acts).store.groups.size ∧
      ((start.run acts).store.group id).WellKept) ∧
    fs.map FunctionDecl.name = ["size", "has"] ∧
    ∃ env' store' before f after, fs = before ++ f :: after ∧
      env.addFunctions (start.run acts).store ((start.run acts).others 1) before =
        (env', store', none) ∧
      env'.addFunction store' f = .error (.overlappingMacro "has" 1) := by
  let acts : List EnvAct :=
    [.create .root Registry.empty.toProvider .standard, .use 0 .enterScope]
  let fs : List FunctionDecl :=
    [⟨"size", [.global "size_string" [.string] .int], none, false, .unspecified⟩,
      ⟨"has", [.global "has_dyn" [.dyn] .bool], none, false, .unspecified⟩]
  have hrun : (start.run acts).envs[1]?.map (fun env => (env.scopeDepth,
      (env.addFunctions (start.run acts).store ((start.run acts).others 1) fs).2.2)) =
        some (2, some (.overlappingMacro "has" 1)) := rfl
  obtain ⟨env, hmem, hresult⟩ := Option.map_eq_some_iff.mp hrun
  obtain ⟨hdepth, herror⟩ := Prod.mk.inj hresult
  have hvalid := run_valid acts (List.mem_of_getElem? hmem)
  exact ⟨acts, env, fs, List.mem_of_getElem? hmem, hdepth, hvalid.1, rfl, _, _,
    hvalid.2.2 _ fs _ _ _ (Prod.ext rfl (Prod.ext rfl herror))⟩

end Assembly
end CelTyping
