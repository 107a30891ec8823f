import CelTyping.Proofs.Check.Trace
import CelTyping.Proofs.Unification.Growth

/-!
# What a check keeps

A *policy* says which types a check may come across: every type that is recorded for a node, bound
to a type variable or given to a declaration has to be admitted.  The types that a check makes up
itself are admitted by every policy, and new types are admitted when the types they are made of
are, so a check against declarations with admitted types keeps to the policy throughout.  Questions
about checks become questions about the right policy: whether bindings close a cycle, whether an
`error` type can get into the results, whether every node has been dealt with, and whether the type
variables that are yet to come are new.

## Errors

A check goes on after an error, with `error` in the place of a type.  A policy may be *tolerant*, in
which case it admits `error` and speaks of all checks, or it may not be, in which case it speaks of
checks that find no errors.  Either way, once an error has been reported one may suppose that the
policy is tolerant (`keeps_report`).

## Type variables

New type variables are numbered upwards, and a policy may have an opinion on the first of them only:
it speaks of a check for as long as the numbers are `Early`.  A policy about all type variables
finds every number early.

## The judgement

`Fills K x Q L` says of a step `x`: from a sound state in which the places `K` are filled, `x` goes
through sound states only, ends with the places `L` filled and gives a value with `Q`; all this for
as long as the numbers are early, and the numbers never go back (`Course`).  What is filled stays
filled, so a step that fills nothing has `L = K` whatever `K` is (`Keeps`).
-/

namespace CelTyping

/-- All formal types and the result type of an overload belong to a family, whatever type variables
stand for its type parameters. -/
def Overload.Supplies (U : Ty → Prop) (o : Overload) : Prop :=
  ∀ next, (∀ t ∈ (o.instantiate next).1, U t) ∧ U (o.instantiate next).2.1

/-- The types of the identifiers of a scope belong to one family, and the overloads to another. -/
structure Group.Within (U : Ty → Prop) (S : Overload → Prop) (g : Group) : Prop where
  /-- The types of the identifiers. -/
  idents : ∀ {name : String} {v : Variable}, g.idents.find? name = some v → U v.ty
  /-- The overloads of the functions. -/
  functions : ∀ {name : String} {f : FunctionDecl}, g.functions.find? name = some f →
    ∀ o ∈ f.overloads, S o

/-- What an environment declares: the types of identifiers and of fields belong to one family, and
the overloads to another. -/
structure Env.Declares (U : Ty → Prop) (S : Overload → Prop) (env : Env) (store : Store) :
    Prop where
  /-- The types of the identifiers that are in scope. -/
  idents : ∀ id ∈ env.scopes.chain, ∀ {name : String} {v : Variable},
    (store.group id).idents.find? name = some v → U v.ty
  /-- The overloads of the functions that are in scope. -/
  overloads : ∀ id ∈ env.scopes.chain, ∀ {name : String} {f : FunctionDecl},
    (store.group id).functions.find? name = some f → ∀ o ∈ f.overloads, S o
  /-- The types of what the provider knows under a full name. -/
  provided : ∀ {name : String} {v : Variable}, env.provided? name = some v → U v.ty
  /-- The types of the fields of messages. -/
  fields : ∀ {message field : String} {t : Ty},
    env.provider.fieldType? message field = some t → U t

/-- An environment with one scope, the first of a store, and a provider that knows nothing. -/
def Env.ofFirst : Env := ⟨.root, Registry.empty.toProvider, ⟨0, []⟩, .standard⟩

/-- What such an environment declares is what its scope declares, entry by entry. -/
theorem Env.declares_ofFirst {U : Ty → Prop} {S : Overload → Prop} {g : Group}
    (hidents : ∀ e ∈ g.idents.entries, U e.2.ty)
    (hoverloads : ∀ e ∈ g.functions.entries, ∀ o ∈ e.2.overloads, S o) :
    Env.ofFirst.Declares U S ⟨#[g]⟩ where
  idents id hid _ _ hv := by
    obtain rfl := List.mem_singleton.mp hid
    exact hidents _ (Table.mem_entries_of_find? hv)
  overloads id hid _ _ hf := by
    obtain rfl := List.mem_singleton.mp hid
    exact hoverloads _ (Table.mem_entries_of_find? hf)
  provided hv := absurd hv (by simp [provided?, ofFirst, Registry.toProvider,
    Registry.messageType?, Registry.empty])
  fields ht := absurd ht (by simp [ofFirst, Registry.toProvider, Registry.fieldType?,
    Registry.empty])

/-- What a check is to keep to. -/
structure Policy where
  /-- The types that a check may come across. -/
  Admits : Ty → Prop
  /-- The scopes that a check starts in. -/
  scopes : List GroupId
  /-- The place of the first scope that a check adds. -/
  fresh : Nat
  /-- Checks with errors are spoken of, too. -/
  Tolerant : Prop
  /-- The numbers of type variables up to which a check is spoken of. -/
  Early : Nat → Prop
  /-- The parameters of an admitted type are admitted. -/
  params : ∀ {t c : Ty}, Admits t → c ∈ t.params → Admits c
  /-- Types with parameters stay admitted when these are exchanged for admitted ones. -/
  withParams : ∀ {t : Ty} {ps : List Ty}, Admits t → t.kind.isParameterized = true →
    (∀ c ∈ ps, Admits c) → Admits (t.withParams ps)
  /-- The dynamic type is admitted. -/
  dyn : Admits .dyn
  /-- The types of literals are admitted. -/
  constant : ∀ c : Constant, Admits c.ty
  /-- Lists of admitted types are admitted. -/
  list : ∀ {t : Ty}, Admits t → Admits (.list t)
  /-- Maps of admitted types are admitted. -/
  map : ∀ {k v : Ty}, Admits k → Admits v → Admits (.map k v)
  /-- Optional values of admitted types are admitted. -/
  optional : ∀ {t : Ty}, Admits t → Admits (.optional t)
  /-- Early type variables are admitted. -/
  var : ∀ n : Nat, Early (n + 1) → Admits (.var n)
  /-- A tolerant policy admits `error`. -/
  error : Tolerant → Admits .error
  /-- A policy that admits some erroneous type admits `error`. -/
  error_of_kind : ∀ {t : Ty}, Admits t → t.kind = .error → Admits .error

namespace Policy

variable (p : Policy)

/-- A scope is one that a check starts in or adds, so its declarations have to have admitted
types. -/
def Governs (id : GroupId) : Prop := id ∈ p.scopes ∨ p.fresh ≤ id

/-- The formal types and the result type of an overload are admitted, whatever early type variables
stand for its type parameters. -/
def Supplies (o : Overload) : Prop :=
  ∀ next, p.Early (o.instantiate next).2.2 →
    (∀ t ∈ (o.instantiate next).1, p.Admits t) ∧ p.Admits (o.instantiate next).2.1

/-- The governed scopes of a store have admitted types, and so will new ones. -/
structure Stores (store : Store) : Prop where
  /-- The declarations of the governed scopes have admitted types. -/
  groups : ∀ {id : GroupId}, p.Governs id → (store.group id).Within p.Admits p.Supplies
  /-- New scopes are governed. -/
  fresh : p.fresh ≤ store.groups.size

/-- Everything in a state has admitted types. -/
structure Sound (s : CheckState) : Prop where
  /-- The mapping came about by binding parameters to types that do not reach them. -/
  grown : Mapping.Grows p.Admits .empty s.mapping
  /-- The nodes have admitted types. -/
  types : ∀ {id : NodeId} {t : Ty}, s.types.find? id = some t → p.Admits t
  /-- The declarations have admitted types. -/
  stores : p.Stores s.store

/-- The scopes of an environment are governed, and its provider knows admitted types only. -/
structure Covers (env : Env) : Prop where
  /-- The scopes are governed. -/
  scopes : ∀ id ∈ env.scopes.chain, p.Governs id
  /-- What the provider knows under a full name has an admitted type. -/
  provided : ∀ {name : String} {v : Variable}, env.provided? name = some v → p.Admits v.ty
  /-- The fields of messages have admitted types. -/
  fields : ∀ {message field : String} {t : Ty}, env.provider.fieldType? message field = some t →
    p.Admits t

/-- States one after the other, with numbers of type variables from a given one on that never go
back; for as long as the numbers are early the states are sound, and if they are early to the end
then something holds there. -/
def Course (End : Nat → Prop) : Nat → List CheckState → Prop
  | n, [] => End n
  | n, s :: rest => n ≤ s.nextVar ∧ (p.Early s.nextVar → p.Sound s ∧ Course End s.nextVar rest)

/-- A step that goes through sound states and fills places. -/
def Fills {α : Type} (K : Slot → Prop) (x : Tracing α) (Q : α → Prop) (L : α → Slot → Prop) :
    Prop :=
  ∀ s, p.Sound s → (∀ slot, K slot → s.Filled slot) →
    (p.Tolerant ∨ ∀ t ∈ (x s).visited, t.errors = []) →
    p.Course (fun n => n = (x s).final.nextVar ∧ p.Sound (x s).final ∧
      (∀ slot, L (x s).value slot → (x s).final.Filled slot) ∧ Q (x s).value)
      s.nextVar (x s).visited

/-- A step that goes through sound states. -/
def Keeps {α : Type} (x : Tracing α) (Q : α → Prop) : Prop :=
  ∀ K, p.Fills K x Q fun _ => K

variable {p} {α β : Type} {K : Slot → Prop}

/-! ## Courses -/

section Course

variable {End End' : Nat → Prop} {n : Nat} {l : List CheckState}

theorem Course.mono (h : p.Course End n l) (hend : ∀ n, End n → End' n) : p.Course End' n l := by
  induction l generalizing n with
  | nil => exact hend n h
  | cons s rest ih => exact ⟨h.1, fun hearly => ⟨(h.2 hearly).1, ih (h.2 hearly).2⟩⟩

/-- One course after another. -/
theorem Course.append {l' : List CheckState} (h : p.Course (fun k => p.Course End k l') n l) :
    p.Course End n (l ++ l') := by
  induction l generalizing n with
  | nil => exact h
  | cons s rest ih => exact ⟨h.1, fun hearly => ⟨(h.2 hearly).1, ih (h.2 hearly).2⟩⟩

/-- If the numbers never go back, then all states with early numbers are sound. -/
theorem Course.sound (h : p.Course End n l) (hdown : ∀ {i j}, i ≤ j → p.Early j → p.Early i)
    (hsorted : l.Pairwise fun s t => s.nextVar ≤ t.nextVar) :
    ∀ s ∈ l, p.Early s.nextVar → p.Sound s := by
  induction l generalizing n with
  | nil => simp
  | cons s rest ih =>
    obtain ⟨hs, hrest⟩ := List.pairwise_cons.mp hsorted
    refine List.forall_mem_cons.mpr ⟨fun hearly => (h.2 hearly).1, fun t ht hearly => ?_⟩
    exact ih (h.2 (hdown (hs t ht) hearly)).2 hrest t ht hearly

section Early

variable (hearly : ∀ n, p.Early n)

include hearly

theorem Course.exists_end (h : p.Course End n l) : ∃ k, End k := by
  induction l generalizing n with
  | nil => exact ⟨n, h⟩
  | cons s rest ih => exact ih (h.2 (hearly _)).2

/-- The numbers of type variables never go back. -/
theorem Course.sorted (h : p.Course End n l) :
    (∀ s ∈ l, n ≤ s.nextVar) ∧ l.Pairwise fun s t => s.nextVar ≤ t.nextVar := by
  induction l generalizing n with
  | nil => simp
  | cons s rest ih =>
    obtain ⟨hrest, hsorted⟩ := ih (h.2 (hearly _)).2
    exact ⟨List.forall_mem_cons.mpr ⟨h.1, fun t ht => Nat.le_trans h.1 (hrest t ht)⟩,
      List.pairwise_cons.mpr ⟨hrest, hsorted⟩⟩

end Early

end Course

/-! ## Composing steps -/

theorem Sound.within {s : CheckState} (h : p.Sound s) : s.mapping.Within p.Admits :=
  h.grown.within fun _ _ ht => absurd ht (by simp [Mapping.empty])

theorem fills_pure {a : α} {Q : α → Prop} {L : α → Slot → Prop} (hQ : Q a)
    (hL : ∀ slot, L a slot → K slot) : p.Fills K (pure a) Q L := by
  intro s hs hK _
  exact ⟨rfl, hs, fun slot hslot => hK slot (hL slot hslot), hQ⟩

theorem keeps_pure {a : α} {Q : α → Prop} (hQ : Q a) : p.Keeps (pure a) Q :=
  fun _ => fills_pure hQ fun _ h => h

theorem Fills.bind {x : Tracing α} {f : α → Tracing β} {P : α → Prop} {Q : β → Prop}
    {L : α → Slot → Prop} {L' : β → Slot → Prop} (hx : p.Fills K x P L)
    (hf : ∀ a, P a → p.Fills (L a) (f a) Q L') : p.Fills K (x >>= f) Q L' := by
  intro s hs hK hquiet
  rw [Tracing.run_bind] at hquiet ⊢
  refine Course.append ((hx s hs hK
    (hquiet.imp id fun h t ht => h t (List.mem_append_left _ ht))).mono ?_)
  rintro n ⟨rfl, hfinal, hL, hP⟩
  exact hf _ hP _ hfinal hL (hquiet.imp id fun h t ht => h t (List.mem_append_right _ ht))

theorem Keeps.bind_fills {x : Tracing α} {f : α → Tracing β} {P : α → Prop} {Q : β → Prop}
    {L : β → Slot → Prop} (hx : p.Keeps x P) (hf : ∀ a, P a → p.Fills K (f a) Q L) :
    p.Fills K (x >>= f) Q L :=
  (hx K).bind hf

theorem Keeps.bind {x : Tracing α} {f : α → Tracing β} {P : α → Prop} {Q : β → Prop}
    (hx : p.Keeps x P) (hf : ∀ a, P a → p.Keeps (f a) Q) : p.Keeps (x >>= f) Q :=
  fun K => hx.bind_fills fun a ha => hf a ha K

theorem Fills.mono {x : Tracing α} {Q Q' : α → Prop} {L L' : α → Slot → Prop}
    (h : p.Fills K x Q L) (hQ : ∀ a, Q a → Q' a) (hL : ∀ a slot, Q a → L' a slot → L a slot) :
    p.Fills K x Q' L' := by
  intro s hs hK hquiet
  refine (h s hs hK hquiet).mono ?_
  rintro n ⟨hn, hfinal, hfilled, hq⟩
  exact ⟨hn, hfinal, fun slot hslot => hfilled slot (hL _ slot hq hslot), hQ _ hq⟩

theorem Keeps.mono {x : Tracing α} {Q Q' : α → Prop} (h : p.Keeps x Q) (hQ : ∀ a, Q a → Q' a) :
    p.Keeps x Q' :=
  fun K => (h K).mono hQ fun _ _ _ hslot => hslot

/-- A step that reports an error at some point may suppose that the policy is tolerant from the
start. -/
theorem fills_of_reports {x : Tracing α} {Q : α → Prop} {L : α → Slot → Prop}
    (hreports : ∀ s, ∃ t ∈ (x s).visited, t.errors ≠ []) (h : p.Tolerant → p.Fills K x Q L) :
    p.Fills K x Q L := by
  intro s hs hK hquiet
  refine h ?_ s hs hK hquiet
  refine hquiet.resolve_right fun hq => ?_
  obtain ⟨t, ht, herrors⟩ := hreports s
  exact herrors (hq t ht)

theorem fills_mapM {f : α → Tracing β} {Q : β → Prop} {as : List α}
    (hf : ∀ a ∈ as, p.Fills K (f a) Q fun _ => K) :
    p.Fills K (as.mapM f) (fun bs => ∀ b ∈ bs, Q b) fun _ => K := by
  have hloop : ∀ (as : List α) (bs : List β), (∀ a ∈ as, p.Fills K (f a) Q fun _ => K) →
      (∀ b ∈ bs, Q b) →
      p.Fills K (List.mapM.loop f as bs) (fun cs => ∀ c ∈ cs, Q c) fun _ => K := by
    intro as
    induction as with
    | nil =>
      intro bs _ hbs
      refine fills_pure (fun b hb => hbs b ?_) fun _ h => h
      rwa [List.mem_reverse] at hb
    | cons a as ih =>
      intro bs has hbs
      obtain ⟨ha, has⟩ := List.forall_mem_cons.mp has
      exact ha.bind fun b hb => ih (b :: bs) has (List.forall_mem_cons.mpr ⟨hb, hbs⟩)
  exact hloop as [] hf (by simp)

theorem keeps_foldlM {f : β → α → Tracing β} {P : α → Prop} {Q : β → Prop}
    (hf : ∀ b a, Q b → P a → p.Keeps (f b a) Q) :
    ∀ {as : List α} {b : β}, (∀ a ∈ as, P a) → Q b → p.Keeps (as.foldlM f b) Q
  | [], _, _, hb => keeps_pure hb
  | _ :: _, _, has, hb =>
    (hf _ _ hb (List.forall_mem_cons.mp has).1).bind fun _ hc =>
      keeps_foldlM hf (List.forall_mem_cons.mp has).2 hc

end Policy
end CelTyping
