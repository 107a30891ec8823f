import CelTyping.Proofs.Env.Sight
import Mathlib.Data.List.TakeWhile

/-!
# Looking up locals

A local is declared under a simple name, and a simple name is looked up under its candidates: in the
container `a.b` the name `x` is tried as `a.b.x`, `a.x` and `x`, and an alias `x` is tried as what
it stands for and as nothing else.  The local is what the last candidate means.  All scopes are
searched for a candidate before the next one is tried, so a declaration far out hides the local if
it has the name of an earlier candidate (`lookupIdent_local`).

## When nothing is in the way

`Clear` says that this does not happen: there is no alias, no earlier candidate means anything, and
neither does a name that goes on from the local, like `x.y`.  New scopes stay clear as long as no
local is declared under one of the names in question (`Container.Captures`), and a simple name is
none of them (`not_captures_of_simple`).
-/

namespace CelTyping

/-! ## Candidates of simple names -/

namespace Container

open DottedName

/-- The candidates of a simple name that the namespaces around give it. -/
def qualified (c : Container) (name : String) : List String :=
  if c.name.isEmpty then []
  else (enclosing c.name.toList).map fun p => String.ofList p ++ "." ++ name

theorem firstSegment_of_simple {cs : List Char} (h : '.' ∉ cs) : firstSegment cs = cs := by
  refine List.takeWhile_eq_self_iff.mpr fun c hc => ?_
  have hne : c ≠ '.' := fun heq => h (heq ▸ hc)
  simpa using hne

theorem firstSegment_append {cs : List Char} (h : '.' ∉ cs) (rest : List Char) :
    firstSegment (cs ++ '.' :: rest) = cs := by
  have hall : ∀ c ∈ cs, decide (c ≠ '.') = true := by
    intro c hc
    have hne : c ≠ '.' := fun heq => h (heq ▸ hc)
    simpa using hne
  unfold firstSegment
  rw [List.takeWhile_append_of_pos hall, List.takeWhile_cons_of_neg (by simp), List.append_nil]

theorem findAlias?_eq_none {c : Container} {cs : List Char}
    (h : c.aliases.find? (String.ofList (firstSegment cs)) = none) : c.findAlias? cs = none := by
  unfold findAlias?
  rw [h]
  rfl

/-- Without an alias, a relative name is tried in the namespaces around, and then as it stands. -/
theorem candidates_relative {c : Container} {name : String} (hrel : name.toList.head? ≠ some '.')
    (halias : c.findAlias? name.toList = none) :
    c.candidates name = c.qualified name ++ [name] := by
  unfold candidates
  split
  · next habs =>
    rw [habs] at hrel
    exact absurd rfl hrel
  · rw [halias]
    unfold qualified
    dsimp only
    split
    · rfl
    · rfl

theorem candidates_simple {c : Container} {name : String} (hsimple : '.' ∉ name.toList)
    (halias : c.aliases.find? name = none) : c.candidates name = c.qualified name ++ [name] := by
  refine candidates_relative (fun hhead => hsimple (List.mem_of_head? hhead))
    (findAlias?_eq_none ?_)
  rw [firstSegment_of_simple hsimple, String.ofList_toList]
  exact halias

theorem dot_mem_of_mem_qualified {c : Container} {name q : String} (h : q ∈ c.qualified name) :
    '.' ∈ q.toList := by
  unfold qualified at h
  split at h
  · exact absurd h List.not_mem_nil
  · obtain ⟨p, -, rfl⟩ := List.mem_map.mp h
    simp

/-- A local of one name comes between another name and what it means, or between what goes on from
that name and what this means. -/
def Captures (c : Container) (name binder : String) : Prop :=
  binder ∈ c.qualified name ∨ ∃ rest, binder ∈ c.candidates (name ++ "." ++ rest)

/-- **A local of a simple name captures nothing.** -/
theorem not_captures_of_simple {c : Container} {name binder : String} (hne : name ≠ "")
    (hsimple : '.' ∉ name.toList) (halias : c.aliases.find? name = none)
    (hbinder : '.' ∉ binder.toList) : ¬ c.Captures name binder := by
  rintro (h | ⟨rest, h⟩)
  · exact hbinder (dot_mem_of_mem_qualified h)
  · have hlist : (name ++ "." ++ rest).toList = name.toList ++ '.' :: rest.toList := by simp
    have hrel : (name ++ "." ++ rest).toList.head? ≠ some '.' := by
      rw [hlist]
      cases hname : name.toList with
      | nil => exact absurd (String.toList_eq_nil_iff.mp hname) hne
      | cons ch cs =>
        intro hhead
        rw [hname, ← Option.some.inj hhead] at hsimple
        exact hsimple List.mem_cons_self
    have halias' : c.findAlias? (name ++ "." ++ rest).toList = none := by
      refine findAlias?_eq_none ?_
      rw [hlist, firstSegment_append hsimple, String.ofList_toList]
      exact halias
    rw [candidates_relative hrel halias'] at h
    rcases List.mem_append.mp h with h | h
    · exact hbinder (dot_mem_of_mem_qualified h)
    · rw [List.mem_singleton.mp h, hlist] at hbinder
      simp at hbinder

end Container

namespace Env

/-! ## Locals of a new scope -/

/-- Bind local identifiers in the innermost scope, one after the other. -/
def declareLocals (env : Env) (store : Store) (vs : List Variable) : Store :=
  vs.foldl env.declareLocal store

/-- The last of some variables that has a name. -/
def lastNamed? (name : String) (vs : List Variable) : Option Variable :=
  vs.reverse.find? fun v => v.name = name

theorem size_declareLocals (env : Env) (store : Store) (vs : List Variable) :
    (env.declareLocals store vs).groups.size = store.groups.size := by
  unfold declareLocals
  induction vs generalizing store with
  | nil => rfl
  | cons v rest ih => rw [List.foldl_cons, ih, size_declareLocal]

theorem sees_declareLocals {env : Env} {store : Store}
    (h : env.scopes.innermost < store.groups.size)
    (vs : List Variable) (name : String) :
    env.sees (env.declareLocals store vs) name = (lastNamed? name vs).or (env.sees store name) := by
  unfold declareLocals lastNamed?
  induction vs generalizing store with
  | nil => rfl
  | cons v rest ih =>
    have hsize : env.scopes.innermost < (env.declareLocal store v).groups.size := by
      rw [size_declareLocal]
      exact h
    rw [List.foldl_cons, ih hsize, sees_declareLocal h, List.reverse_cons, List.find?_append,
      Option.or_assoc, List.find?_singleton]
    by_cases hname : v.name = name
    · simp [hname]
    · simp [hname, Ne.symm hname]

theorem findFunction?_declareLocals (env : Env) (store : Store) (vs : List Variable)
    (name : String) :
    (env.declareLocals store vs).findFunction? env.scopes name =
      store.findFunction? env.scopes name := by
  unfold declareLocals
  induction vs generalizing store with
  | nil => rfl
  | cons v rest ih =>
    rw [List.foldl_cons, ih]
    exact store.findFunction?_addIdent _ v _ name

section NewScope

variable (env : Env) (store : Store) (vs : List Variable)

/-- The store with a new scope inside an environment, and locals in it. -/
def scopeWith : Store := (env.enterScope store).1.declareLocals (env.enterScope store).2 vs

theorem sees_scopeWith (name : String) :
    (env.enterScope store).1.sees (env.scopeWith store vs) name =
      (lastNamed? name vs).or (env.sees store name) := by
  have hplace : (env.enterScope store).1.scopes.innermost <
      (env.enterScope store).2.groups.size := by
    show store.groups.size < (store.groups.push _).size
    rw [Array.size_push]
    exact Nat.lt_succ_self _
  unfold scopeWith
  rw [sees_declareLocals hplace, sees_enterScope]

theorem lookupFunction_scopeWith (name : String) :
    (env.enterScope store).1.lookupFunction (env.scopeWith store vs) name =
      env.lookupFunction store name := by
  unfold Env.lookupFunction scopeWith
  simp only [findFunction?_declareLocals, findFunction?_enterScope]
  rfl

variable {env store}

theorem Valid.scopeWith (h : env.Valid store) :
    (env.enterScope store).1.Valid (env.scopeWith store vs) := by
  intro id hid
  unfold Env.scopeWith
  rw [size_declareLocals]
  exact h.enterScope id hid

/-- A name means in a new scope what it meant around it, if no local has the name of a candidate. -/
theorem lookupIdent_scopeWith {name : String}
    (h : ∀ v ∈ vs, v.name ∉ env.container.candidates name) :
    ((env.enterScope store).1.lookupIdent (env.scopeWith store vs) name).1 =
      (env.lookupIdent store name).1 := by
  rw [lookupIdent_fst, lookupIdent_fst]
  refine findSome?_congr_of_mem fun q hq => ?_
  have hlast : lastNamed? q vs = none := by
    refine List.find?_eq_none.mpr fun v hv hname => ?_
    refine h v (List.mem_reverse.mp hv) ?_
    rw [of_decide_eq_true hname]
    exact hq
  rw [sees_scopeWith, hlast, Option.none_or]

/-- What meant something still does in a new scope. -/
theorem isSome_lookupIdent_scopeWith {name : String}
    (h : (env.lookupIdent store name).1.isSome = true) :
    ((env.enterScope store).1.lookupIdent (env.scopeWith store vs) name).1.isSome = true := by
  rw [lookupIdent_fst, List.findSome?_isSome_iff] at h ⊢
  obtain ⟨q, hq, hsees⟩ := h
  refine ⟨q, hq, ?_⟩
  rw [sees_scopeWith, Option.isSome_or, hsees, Bool.or_true]

end NewScope

/-- **What a local is found under**: an identifier that one of the namespaces around gives its name
comes first, wherever it is declared. -/
theorem lookupIdent_local (env : Env) (store : Store) {v : Variable} (hsimple : '.' ∉ v.name.toList)
    (halias : env.container.aliases.find? v.name = none) :
    ((env.enterScope store).1.lookupIdent
      ((env.enterScope store).1.declareLocal (env.enterScope store).2 v) v.name).1 =
        ((env.container.qualified v.name).findSome? (env.sees store)).or (some v) := by
  have hsees : ∀ name, (env.enterScope store).1.sees
      ((env.enterScope store).1.declareLocal (env.enterScope store).2 v) name =
        (lastNamed? name [v]).or (env.sees store name) :=
    env.sees_scopeWith store [v]
  rw [lookupIdent_fst]
  show (env.container.candidates v.name).findSome? _ = _
  rw [Container.candidates_simple hsimple halias, List.findSome?_append, List.findSome?_singleton,
    hsees v.name]
  have hself : lastNamed? v.name [v] = some v := by simp [lastNamed?]
  rw [hself, Option.some_or]
  congr 1
  refine findSome?_congr_of_mem fun q hq => ?_
  have hne : lastNamed? q [v] = none := by
    have hname : v.name ≠ q := fun heq => hsimple (heq ▸ Container.dot_mem_of_mem_qualified hq)
    simp [lastNamed?, hname]
  rw [hsees, hne, Option.none_or]

/-! ## Nothing in the way -/

/-- Nothing that can be seen is in the way of a local of a simple name. -/
structure Clear (env : Env) (store : Store) (name : String) : Prop where
  /-- The scopes have their places. -/
  valid : env.Valid store
  /-- The name is simple. -/
  simple : '.' ∉ name.toList
  /-- The name is no alias. -/
  noAlias : env.container.aliases.find? name = none
  /-- No namespace around gives it a meaning. -/
  qualified : ∀ q ∈ env.container.qualified name, env.sees store q = none
  /-- No identifier goes on from it. -/
  idents : ∀ rest, (env.lookupIdent store (name ++ "." ++ rest)).1 = none
  /-- No function goes on from it. -/
  functions : ∀ rest, env.lookupFunction store (name ++ "." ++ rest) = none

theorem Clear.lookupIdent {env : Env} {store : Store} {name : String} (h : env.Clear store name) :
    (env.lookupIdent store name).1 = env.sees store name := by
  have hnone : (env.container.qualified name).findSome? (env.sees store) = none :=
    List.findSome?_eq_none_iff.mpr h.qualified
  rw [lookupIdent_fst, Container.candidates_simple h.simple h.noAlias, List.findSome?_append, hnone,
    Option.none_or, List.findSome?_singleton]

theorem Clear.undisturbed {env : Env} {s t : Store} {name : String} (h : env.Clear s name)
    (hst : env.Undisturbed s t) : env.Clear t name where
  valid := hst.valid h.valid
  simple := h.simple
  noAlias := h.noAlias
  qualified q hq := by rw [hst.sees, h.qualified q hq]
  idents rest := by rw [hst.lookupIdent, h.idents rest]
  functions rest := by rw [hst.lookupFunction, h.functions rest]

theorem Clear.scopeWith {env : Env} {store : Store} {name : String} (h : env.Clear store name)
    {vs : List Variable} (hvs : ∀ v ∈ vs, ¬ env.container.Captures name v.name) :
    (env.enterScope store).1.Clear (env.scopeWith store vs) name where
  valid := h.valid.scopeWith vs
  simple := h.simple
  noAlias := h.noAlias
  qualified q hq := by
    have hlast : lastNamed? q vs = none := by
      refine List.find?_eq_none.mpr fun v hv hname => ?_
      refine hvs v (List.mem_reverse.mp hv) (Or.inl ?_)
      rw [of_decide_eq_true hname]
      exact hq
    rw [sees_scopeWith, hlast, Option.none_or, h.qualified q hq]
  idents rest := by
    rw [lookupIdent_scopeWith vs fun v hv hmem => hvs v hv (Or.inr ⟨rest, hmem⟩), h.idents rest]
  functions rest := by rw [lookupFunction_scopeWith, h.functions rest]

end Env
end CelTyping
