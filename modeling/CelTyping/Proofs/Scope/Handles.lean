import CelTyping.Proofs.Env.Additions

/-!
# Handles of scopes

A chain of scopes is used through handles.  Handles are pushed, popped and cloned, and so several of
them come to lead to one group; what is declared through one of them then shows through all.
Detaching a handle ends this for its innermost scope: from then on the handle declares into a group
that no other handle leads to.

`Handles` keeps the handles that are in use, by number, and `step` does one thing to one of them.

## What detaching copies

A group that no other handle leads to need not be copied, and the number of references tells whether
there is such a handle (`Scopes.one_lt_references_iff`).  Handles that are not used any longer do
not count, nor do the links that only they led through.

## Sides

The handles that come from one that was set apart are told from the others by a mark (`apart`),
which handles inherit from those they are made from.  That a declaration is not seen by a side is
said with two runs: its handles show the same after a run and after the run that leaves the
declaration out (`runExcept`).

* `moves_step`: what a step may do, from which the invariants follow.
* `Moves.stems`: a step makes handles lead to new groups, or to groups that handles of the same side
  led to before.
* `agree_run`: handles of one side show the same in two runs, of which the second leaves out
  declarations into groups that no handle of this side leads to.
-/

namespace CelTyping

/-! ## Declarations -/

/-- A declaration through a handle. -/
inductive HandleDecl where
  /-- An identifier of the innermost scope. -/
  | ident (v : Variable)
  /-- An identifier of the outermost scope. -/
  | globalIdent (v : Variable)
  /-- A function of the innermost scope. -/
  | function (f : FunctionDecl)

namespace HandleDecl

/-- The group that a declaration goes to. -/
def place (h : Scopes) : HandleDecl → GroupId
  | ident _ => h.innermost
  | globalIdent _ => h.outermost
  | function _ => h.innermost

/-- What a declaration changes in its group. -/
def change : HandleDecl → Group → Group
  | ident v, g => g.addIdent v
  | globalIdent v, g => g.addIdent v
  | function f, g => g.setFunction f

theorem place_mem (h : Scopes) (d : HandleDecl) : d.place h ∈ h.chain := by
  cases d with
  | ident v => exact List.mem_cons_self
  | globalIdent v => exact h.outermost_mem
  | function f => exact List.mem_cons_self

end HandleDecl

theorem Scopes.chain_of_pop {h k : Scopes} (hpop : h.pop = some k) :
    h.chain = h.innermost :: k.chain := by
  unfold pop at hpop
  split at hpop
  · cases hpop
  · next heq =>
    rw [← Option.some.inj hpop, chain, around, heq]
    rfl

namespace Store

/-- Declare something through a handle. -/
def declare (s : Store) (h : Scopes) : HandleDecl → Store
  | .ident v => s.addIdent h v
  | .globalIdent v => s.addGlobalIdent h v
  | .function f => s.setFunction h f

theorem declare_eq (s : Store) (h : Scopes) (d : HandleDecl) :
    s.declare h d = s.modify (d.place h) d.change := by
  cases d <;> rfl

theorem group_declare_of_ne (s : Store) {h : Scopes} {d : HandleDecl} {j : GroupId}
    (hj : j ≠ d.place h) : (s.declare h d).group j = s.group j := by
  rw [declare_eq]
  exact s.group_modify_of_ne hj _

theorem group_declare_self (s : Store) {h : Scopes} {d : HandleDecl}
    (hlt : d.place h < s.groups.size) :
    (s.declare h d).group (d.place h) = d.change (s.group (d.place h)) := by
  rw [declare_eq]
  exact s.group_modify_self hlt _

theorem size_declare (s : Store) (h : Scopes) (d : HandleDecl) :
    (s.declare h d).groups.size = s.groups.size := by
  rw [declare_eq]
  exact Array.size_modify

/-- A handle shows the same in two stores. -/
structure ShowsSame (s t : Store) (h : Scopes) : Prop where
  /-- The same identifiers are found. -/
  findIdent? : ∀ name, t.findIdent? h name = s.findIdent? h name
  /-- The same identifiers are found in the innermost scope. -/
  findLocalIdent? : ∀ name, t.findLocalIdent? h name = s.findLocalIdent? h name
  /-- The same functions are found. -/
  findFunction? : ∀ name, t.findFunction? h name = s.findFunction? h name
  /-- The same identifiers are listed. -/
  idents : t.idents h = s.idents h
  /-- The same functions are listed. -/
  functions : t.functions h = s.functions h

/-- **A handle shows the groups that it leads to**, and nothing else. -/
theorem showsSame_of_groups {s t : Store} {h : Scopes}
    (hgroup : ∀ id ∈ h.chain, t.group id = s.group id) : ShowsSame s t h where
  findIdent? name := findIdent?_congr hgroup name
  findLocalIdent? name := by
    unfold findLocalIdent?
    rw [hgroup _ List.mem_cons_self]
  findFunction? name := by
    refine findSome?_congr_of_mem fun id hid => ?_
    rw [hgroup id hid]
  idents := by
    have hentries : ∀ id ∈ h.chain, (t.group id).idents.entries = (s.group id).idents.entries :=
      fun id hid => by rw [hgroup id hid]
    unfold idents
    rw [List.flatMap_congr hentries]
  functions := by
    have hentries : ∀ id ∈ h.chain,
        (t.group id).functions.entries = (s.group id).functions.entries :=
      fun id hid => by rw [hgroup id hid]
    unfold functions
    rw [List.flatMap_congr hentries]

end Store

/-! ## References -/

namespace Scopes

theorem mem_chain {h : Scopes} {id : GroupId} :
    id ∈ h.chain ↔ h.innermost = id ∨ ∃ l ∈ h.links, l.group = id := by
  rw [chain, List.mem_cons, around, List.mem_map, eq_comm]

theorem mem_liveLinks {live : List Scopes} {l : Link} :
    l ∈ liveLinks live ↔ ∃ k ∈ live, l ∈ k.links := by
  rw [liveLinks, List.mem_eraseDups, List.mem_flatMap]

/-- There are more references to the innermost scope of a chain than its own if another chain has
the scope innermost, or if there is a link to it. -/
theorem one_lt_references {h : Scopes} {others : List Scopes} :
    1 < references (h :: others) h.innermost ↔ (∃ k ∈ others, k.innermost = h.innermost) ∨
      ∃ l ∈ liveLinks (h :: others), l.group = h.innermost := by
  have hothers : 0 < others.countP (fun k => k.innermost == h.innermost) ↔
      ∃ k ∈ others, k.innermost = h.innermost := by
    rw [List.countP_pos_iff]
    simp only [beq_iff_eq]
  have hlinks : 0 < (liveLinks (h :: others)).countP (fun l => l.group == h.innermost) ↔
      ∃ l ∈ liveLinks (h :: others), l.group = h.innermost := by
    rw [List.countP_pos_iff]
    simp only [beq_iff_eq]
  rw [← hothers, ← hlinks, references, List.countP_cons, beq_self_eq_true, if_pos rfl]
  omega

/-- A chain that leads to the innermost scope of another one refers to it. -/
theorem one_lt_references_of_mem {h k : Scopes} {others : List Scopes} (hk : k ∈ others)
    (hid : h.innermost ∈ k.chain) : 1 < references (h :: others) h.innermost := by
  rw [one_lt_references]
  rcases mem_chain.mp hid with heq | ⟨l, hl, heq⟩
  · exact Or.inl ⟨k, hk, heq⟩
  · exact Or.inr ⟨l, mem_liveLinks.mpr ⟨k, List.mem_cons_of_mem _ hk, hl⟩, heq⟩

/-- **There are more references to the innermost scope of a chain than its own just if another chain
in use leads to it**, provided the chain does not lead to it twice. -/
theorem one_lt_references_iff {h : Scopes} {others : List Scopes} (hnodup : h.chain.Nodup) :
    1 < references (h :: others) h.innermost ↔ ∃ k ∈ others, h.innermost ∈ k.chain := by
  refine ⟨fun hlt => ?_, fun ⟨k, hk, hid⟩ => one_lt_references_of_mem hk hid⟩
  rcases one_lt_references.mp hlt with ⟨k, hk, heq⟩ | ⟨l, hl, heq⟩
  · exact ⟨k, hk, mem_chain.mpr (Or.inl heq)⟩
  · obtain ⟨k, hk, hlk⟩ := mem_liveLinks.mp hl
    rcases List.mem_cons.mp hk with rfl | hk
    · have haround : k.innermost ∈ k.around := heq ▸ List.mem_map_of_mem hlk
      exact absurd haround (List.nodup_cons.mp hnodup).1
    · exact ⟨k, hk, mem_chain.mpr (Or.inr ⟨l, hlk, heq⟩)⟩

end Scopes

/-! ## Handles in use -/

/-- A handle in use. -/
structure Handle where
  /-- The chain of scopes. -/
  scopes : Scopes
  /-- Whether it is the handle that was set apart, or was made from it. -/
  apart : Bool

/-- Something that is done with one handle. -/
inductive HandleOp where
  /-- Make the chain with one more scope inside. -/
  | push
  /-- Make the chain without the innermost scope. -/
  | pop
  /-- Make another handle of the same chain. -/
  | clone
  /-- Use the handle no longer. -/
  | drop
  /-- Give the handle an innermost scope of its own. -/
  | detach
  /-- Declare something. -/
  | declare (d : HandleDecl)

/-- Something that is done with handles, which go by their numbers. -/
inductive HandleAct where
  /-- Make a chain of one empty scope. -/
  | create
  /-- Do something with a handle. -/
  | use (i : Nat) (op : HandleOp)

/-- The handles in use and the groups they lead to. -/
structure Handles where
  /-- The groups. -/
  store : Store
  /-- The handles by their numbers; nothing stands for one that is not used any longer. -/
  held : List (Option Handle)

namespace Handles

/-- No handles at all. -/
def start : Handles := ⟨.empty, []⟩

/-- The chains of the handles in use, but for the handle of a number. -/
def others (held : List (Option Handle)) (i : Nat) : List Scopes :=
  (held.set i none).filterMap fun h => h.map Handle.scopes

/-- Do something with the handle of a number. -/
def perform (d : Handles) (i : Nat) (h : Handle) : HandleOp → Handles
  | .push =>
    ⟨(d.store.push h.scopes).2, d.held ++ [some { h with scopes := (d.store.push h.scopes).1 }]⟩
  | .pop =>
    match h.scopes.pop with
    | some scopes => { d with held := d.held ++ [some { h with scopes := scopes }] }
    | none => d
  | .clone => { d with held := d.held ++ [some h] }
  | .drop => { d with held := d.held.set i none }
  | .detach =>
    let (scopes, store) := d.store.detach (others d.held i) h.scopes
    ⟨store, d.held.set i (some { h with scopes := scopes })⟩
  | .declare δ => { d with store := d.store.declare h.scopes δ }

/-- Do one thing; with a handle that is not in use there is nothing to do. -/
def step (d : Handles) : HandleAct → Handles
  | .create => ⟨d.store.newScopes.2, d.held ++ [some ⟨d.store.newScopes.1, false⟩]⟩
  | .use i op =>
    match d.held[i]? with
    | some (some h) => d.perform i h op
    | _ => d

/-- Do one thing after another. -/
def run (d : Handles) (acts : List HandleAct) : Handles := acts.foldl step d

/-- Do one thing after another, and leave some of them out. -/
def runExcept (leavesOut : List (Option Handle) → HandleAct → Bool) (d : Handles)
    (acts : List HandleAct) : Handles :=
  acts.foldl (fun d act => if leavesOut d.held act then d else d.step act) d

/-! ## What a step does to handles -/

variable {d d' : Handles}

theorem step_use_of_some {i : Nat} {h : Handle} (hi : d.held[i]? = some (some h)) (op : HandleOp) :
    d.step (.use i op) = d.perform i h op := by
  rw [step, hi]

/-- What a step may do to the handles: all that is shown of steps is shown of these moves. -/
inductive Moves (d : Handles) : HandleAct → Handles → Prop
  /-- There is nothing to do. -/
  | idle (act : HandleAct) : Moves d act d
  /-- Another handle leads to groups that a handle of the same side leads to. -/
  | derived (act : HandleAct) {h k : Handle} : some h ∈ d.held → h.apart = k.apart →
    k.scopes.chain <:+ h.scopes.chain → Moves d act { d with held := d.held ++ [some k] }
  /-- Another handle leads to a new group, by itself or inside of the groups of a handle. -/
  | nested (act : HandleAct) {k : Handle} {around : List GroupId} :
    k.scopes.chain = d.store.groups.size :: around →
    (around = [] ∨ ∃ h, some h ∈ d.held ∧ h.apart = k.apart ∧ around.Sublist h.scopes.chain) →
    Moves d act ⟨(d.store.alloc .empty).2, d.held ++ [some k]⟩
  /-- A handle is used no longer. -/
  | dropped (i : Nat) : Moves d (.use i .drop) { d with held := d.held.set i none }
  /-- A handle has a copy in place of its innermost group, as there are other references to it. -/
  | detached {i : Nat} {h : Handle} : d.held[i]? = some (some h) →
    1 < Scopes.references (h.scopes :: others d.held i) h.scopes.innermost →
    Moves d (.use i .detach) ⟨(d.store.copyInnermost h.scopes).2,
      d.held.set i (some { h with scopes := (d.store.copyInnermost h.scopes).1 })⟩
  /-- Something is declared. -/
  | declared {i : Nat} {h : Handle} {δ : HandleDecl} : d.held[i]? = some (some h) →
    Moves d (.use i (.declare δ)) { d with store := d.store.declare h.scopes δ }

theorem perform_detach_of_shared {i : Nat} {h : Handle}
    (hshared : 1 < Scopes.references (h.scopes :: others d.held i) h.scopes.innermost) :
    d.perform i h .detach = ⟨(d.store.copyInnermost h.scopes).2,
      d.held.set i (some { h with scopes := (d.store.copyInnermost h.scopes).1 })⟩ := by
  rw [perform, Store.detach, if_pos hshared]

theorem perform_detach_of_own {i : Nat} {h : Handle} (hi : d.held[i]? = some (some h))
    (hown : ¬ 1 < Scopes.references (h.scopes :: others d.held i) h.scopes.innermost) :
    d.perform i h .detach = d := by
  rw [perform, Store.detach, if_neg hown]
  show Handles.mk d.store (d.held.set i (some h)) = d
  obtain ⟨hlt, heq⟩ := List.getElem?_eq_some_iff.mp hi
  rw [← heq, List.set_getElem_self]

theorem moves_perform {i : Nat} {h : Handle} (hi : d.held[i]? = some (some h)) (op : HandleOp) :
    Moves d (.use i op) (d.perform i h op) := by
  have hh : some h ∈ d.held := List.mem_of_getElem? hi
  cases op with
  | push => exact .nested _ rfl (Or.inr ⟨h, hh, rfl, .refl _⟩)
  | pop =>
    rw [perform]
    split
    · next scopes hpop =>
      refine .derived _ hh rfl ?_
      rw [Scopes.chain_of_pop hpop]
      exact List.suffix_cons _ _
    · exact .idle _
  | clone => exact .derived _ hh rfl List.suffix_rfl
  | drop => exact .dropped i
  | detach =>
    by_cases hshared : 1 < Scopes.references (h.scopes :: others d.held i) h.scopes.innermost
    · rw [perform_detach_of_shared hshared]
      exact .detached hi hshared
    · rw [perform_detach_of_own hi hshared]
      exact .idle _
  | declare δ => exact .declared hi

/-- **Every step makes one of the moves.** -/
theorem moves_step (d : Handles) (act : HandleAct) :
    Moves d act (d.step act) := by
  cases act with
  | create => exact .nested _ rfl (Or.inl rfl)
  | use i op =>
    rw [step]
    split
    · next h hi => exact moves_perform hi op
    · exact .idle _

/-- The groups of handles have their places, and no handle leads to a group twice. -/
structure Valid (d : Handles) : Prop where
  /-- The groups that a handle leads to have their places. -/
  lt : ∀ h, some h ∈ d.held → ∀ id ∈ h.scopes.chain, id < d.store.groups.size
  /-- No handle leads to a group twice. -/
  nodup : ∀ h, some h ∈ d.held → h.scopes.chain.Nodup

/-- What a handle leads to that is in use after a step, in a store of some size: to new groups, and
to groups that handles of the same side led to before. -/
structure Stems (d : Handles) (size : Nat) (k : Handle) : Prop where
  /-- It leads to no group twice. -/
  nodup : k.scopes.chain.Nodup
  /-- Its groups have their places. -/
  lt : ∀ id ∈ k.scopes.chain, id < size
  /-- Its groups are new, or handles of the same side led to them. -/
  origin : ∀ id ∈ k.scopes.chain, id = d.store.groups.size ∨
    ∃ h, some h ∈ d.held ∧ h.apart = k.apart ∧ id ∈ h.scopes.chain

/-- A chain of some of the groups of a handle. -/
theorem Valid.stems (hd : d.Valid) {h k : Handle} (hh : some h ∈ d.held)
    (hapart : h.apart = k.apart) (hsub : k.scopes.chain.Sublist h.scopes.chain) {size : Nat}
    (hsize : d.store.groups.size ≤ size) : d.Stems size k where
  nodup := (hd.nodup h hh).sublist hsub
  lt id hid := Nat.lt_of_lt_of_le (hd.lt h hh id (hsub.subset hid)) hsize
  origin _ hid := Or.inr ⟨h, hh, hapart, hsub.subset hid⟩

/-- A chain of a new group inside some of the groups of a handle, or by itself. -/
theorem Valid.stems_cons (hd : d.Valid) {k : Handle} {around : List GroupId}
    (hchain : k.scopes.chain = d.store.groups.size :: around)
    (haround : around = [] ∨
      ∃ h, some h ∈ d.held ∧ h.apart = k.apart ∧ around.Sublist h.scopes.chain) :
    d.Stems (d.store.groups.size + 1) k := by
  have hinner : around.Nodup ∧ ∀ id ∈ around, id < d.store.groups.size ∧
      ∃ h, some h ∈ d.held ∧ h.apart = k.apart ∧ id ∈ h.scopes.chain := by
    rcases haround with rfl | ⟨h, hh, hapart, hsub⟩
    · exact ⟨List.nodup_nil, fun id hid => absurd hid List.not_mem_nil⟩
    · exact ⟨(hd.nodup h hh).sublist hsub,
        fun id hid => ⟨hd.lt h hh id (hsub.subset hid), h, hh, hapart, hsub.subset hid⟩⟩
  obtain ⟨hnodup, hold⟩ := hinner
  refine ⟨?_, ?_, ?_⟩
  · rw [hchain, List.nodup_cons]
    exact ⟨fun hmem => Nat.lt_irrefl _ (hold _ hmem).1, hnodup⟩
  · rw [hchain, List.forall_mem_cons]
    exact ⟨Nat.lt_succ_self _, fun id hid => Nat.lt_succ_of_lt (hold id hid).1⟩
  · rw [hchain, List.forall_mem_cons]
    exact ⟨Or.inl rfl, fun id hid => Or.inr (hold id hid).2⟩

variable {act : HandleAct}

theorem Moves.size_le (h : Moves d act d') :
    d.store.groups.size ≤ d'.store.groups.size := by
  have hlt : ∀ g, d.store.groups.size < (d.store.alloc g).2.groups.size := fun g =>
    Nat.lt_of_lt_of_eq (Nat.lt_succ_self _) (Array.size_push g).symm
  cases h with
  | idle | derived | dropped => exact Nat.le_refl _
  | nested => exact Nat.le_of_lt (hlt _)
  | detached => exact Nat.le_of_lt (hlt _)
  | declared => exact Nat.le_of_eq (d.store.size_declare _ _).symm

/-- **A move makes handles lead to new groups**, or to groups that handles of the same side led to
before. -/
theorem Moves.stems (hd : d.Valid) (h : Moves d act d') {k : Handle}
    (hk : some k ∈ d'.held) : d.Stems d'.store.groups.size k := by
  have hold : some k ∈ d.held → d.Stems d'.store.groups.size k :=
    fun hk => hd.stems hk rfl (.refl _) h.size_le
  cases h with
  | idle => exact hold hk
  | derived _ hh hapart hsuffix =>
    rcases List.mem_append.mp hk with hk | hk
    · exact hold hk
    · obtain rfl := Option.some.inj (List.mem_singleton.mp hk)
      exact hd.stems hh hapart hsuffix.sublist (Nat.le_refl _)
  | nested _ hchain haround =>
    rcases List.mem_append.mp hk with hk | hk
    · exact hold hk
    · obtain rfl := Option.some.inj (List.mem_singleton.mp hk)
      have hnew := hd.stems_cons hchain haround
      rwa [← Array.size_push] at hnew
  | dropped =>
    rcases List.mem_or_eq_of_mem_set hk with hk | hk
    · exact hold hk
    · cases hk
  | @detached i h hi =>
    rcases List.mem_or_eq_of_mem_set hk with hk | hk
    · exact hold hk
    · obtain rfl := Option.some.inj hk
      have hnew := hd.stems_cons (k := { h with scopes := (d.store.copyInnermost h.scopes).1 }) rfl
        (Or.inr ⟨h, List.mem_of_getElem? hi, rfl, List.sublist_cons_self _ _⟩)
      rwa [← Array.size_push] at hnew
  | declared => exact hold hk

theorem Moves.length_le (h : Moves d act d') : d.held.length ≤ d'.held.length := by
  cases h with
  | idle | declared => exact Nat.le_refl _
  | derived => simp
  | nested => simp
  | dropped => exact Nat.le_of_eq List.length_set.symm
  | detached => exact Nat.le_of_eq List.length_set.symm

/-- **The handle of a number stays what it is**, unless it is dropped, or detached with a copy. -/
theorem Moves.held (h : Moves d act d') {i : Nat} (hlt : i < d.held.length) {k : Handle}
    (hk : d'.held[i]? = some (some k)) :
    d.held[i]? = some (some k) ∨ ∃ h, d.held[i]? = some (some h) ∧ act = .use i .detach ∧
      1 < Scopes.references (h.scopes :: others d.held i) h.scopes.innermost ∧
      k = { h with scopes := (d.store.copyInnermost h.scopes).1 } := by
  cases h with
  | idle | declared => exact Or.inl hk
  | derived =>
    rw [List.getElem?_append_left hlt] at hk
    exact Or.inl hk
  | nested =>
    rw [List.getElem?_append_left hlt] at hk
    exact Or.inl hk
  | dropped j =>
    rw [List.getElem?_set] at hk
    split at hk
    · next hji =>
      rw [if_pos (hji ▸ hlt)] at hk
      cases hk
    · exact Or.inl hk
  | @detached j h hj hshared =>
    rw [List.getElem?_set] at hk
    split at hk
    · next hji =>
      subst hji
      rw [if_pos hlt] at hk
      exact Or.inr ⟨h, hj, rfl, hshared, (Option.some.inj (Option.some.inj hk)).symm⟩
    · exact Or.inl hk

theorem Valid.step (hd : d.Valid) (act : HandleAct) : (d.step act).Valid :=
  ⟨fun _ hk => ((moves_step d act).stems hd hk).lt,
    fun _ hk => ((moves_step d act).stems hd hk).nodup⟩

theorem valid_start : start.Valid :=
  ⟨fun _ hk => absurd hk List.not_mem_nil, fun _ hk => absurd hk List.not_mem_nil⟩

theorem Valid.run (hd : d.Valid) (acts : List HandleAct) : (d.run acts).Valid := by
  induction acts generalizing d with
  | nil => exact hd
  | cons act rest ih => exact ih (hd.step act)

/-! ## Groups that a side does not lead to -/

/-- No handle of a side leads to a group. -/
def Avoids (d : Handles) (side : Bool) (id : GroupId) : Prop :=
  ∀ k, some k ∈ d.held → k.apart = side → id ∉ k.scopes.chain

/-- **A group that a side does not lead to stays out of its reach.** -/
theorem Avoids.step (hd : d.Valid) {side : Bool} {id : GroupId} (h : d.Avoids side id)
    (hlt : id < d.store.groups.size) (act : HandleAct) : (d.step act).Avoids side id := by
  intro k hk hside hid
  rcases ((moves_step d act).stems hd hk).origin id hid with heq | ⟨h', hmem, hapart, hid⟩
  · exact Nat.ne_of_lt hlt heq
  · exact h h' hmem (hapart.trans hside) hid

/-! ## Two runs -/

/-- Two collections of handles agree for a side: they have the same handles, and the groups that
those of the side lead to are the same. -/
structure Agree (side : Bool) (d d' : Handles) : Prop where
  /-- The handles are the same. -/
  held : d'.held = d.held
  /-- There are as many groups. -/
  size : d'.store.groups.size = d.store.groups.size
  /-- The groups of the side are the same. -/
  groups : ∀ k, some k ∈ d.held → k.apart = side → ∀ id ∈ k.scopes.chain,
    d'.store.group id = d.store.group id

variable {side : Bool}

theorem Agree.refl (side : Bool) (d : Handles) : Agree side d d := ⟨rfl, rfl, fun _ _ _ _ _ => rfl⟩

theorem Agree.showsSame (h : Agree side d d') {k : Handle} (hk : some k ∈ d.held)
    (hside : k.apart = side) : Store.ShowsSame d.store d'.store k.scopes :=
  Store.showsSame_of_groups (h.groups k hk hside)

/-- One more handle. -/
theorem Agree.append (h : Agree side d d') {k : Handle}
    (hk : k.apart = side → ∀ id ∈ k.scopes.chain, d'.store.group id = d.store.group id) :
    Agree side { d with held := d.held ++ [some k] } { d' with held := d'.held ++ [some k] } where
  held := congrArg (· ++ [some k]) h.held
  size := h.size
  groups k' hk' hside := by
    rcases List.mem_append.mp hk' with hk' | hk'
    · exact h.groups k' hk' hside
    · obtain rfl := Option.some.inj (List.mem_singleton.mp hk')
      exact hk hside

/-- Another handle, or none, under a number. -/
theorem Agree.set (h : Agree side d d') (i : Nat) {new : Option Handle}
    (hnew : ∀ k, new = some k → k.apart = side → ∀ id ∈ k.scopes.chain,
      d'.store.group id = d.store.group id) :
    Agree side { d with held := d.held.set i new } { d' with held := d'.held.set i new } where
  held := congrArg (·.set i new) h.held
  size := h.size
  groups k hk hside := by
    rcases List.mem_or_eq_of_mem_set hk with hk | hk
    · exact h.groups k hk hside
    · exact hnew k hk.symm hside

/-- One more group, which no handle leads to as yet. -/
theorem Agree.alloc (hd : d.Valid) (h : Agree side d d') (g g' : Group) :
    Agree side { d with store := (d.store.alloc g).2 }
      { d' with store := (d'.store.alloc g').2 } where
  held := h.held
  size := by
    show (d'.store.groups.push _).size = (d.store.groups.push _).size
    rw [Array.size_push, Array.size_push, h.size]
  groups k hk hside id hid := by
    have hne : id ≠ d.store.groups.size := Nat.ne_of_lt (hd.lt k hk id hid)
    rw [Store.group_alloc, Store.group_alloc, h.size, if_neg hne, if_neg hne]
    exact h.groups k hk hside id hid

/-- A declaration on both sides. -/
theorem Agree.declare (hd : d.Valid) (h : Agree side d d') {k : Handle} (hk : some k ∈ d.held)
    (δ : HandleDecl) :
    Agree side { d with store := d.store.declare k.scopes δ }
      { d' with store := d'.store.declare k.scopes δ } where
  held := h.held
  size := by
    show (d'.store.declare _ _).groups.size = (d.store.declare _ _).groups.size
    rw [Store.size_declare, Store.size_declare, h.size]
  groups k' hk' hside id hid := by
    have hgroup := h.groups k' hk' hside id hid
    show (d'.store.declare _ _).group id = (d.store.declare _ _).group id
    by_cases hplace : id = δ.place k.scopes
    · subst hplace
      have hlt := hd.lt k hk _ (δ.place_mem k.scopes)
      rw [Store.group_declare_self _ hlt, Store.group_declare_self _ (h.size ▸ hlt), hgroup]
    · rw [Store.group_declare_of_ne _ hplace, Store.group_declare_of_ne _ hplace, hgroup]

/-- A declaration on one side only, into a group that the side does not lead to. -/
theorem Agree.declare_left (h : Agree side d d') {k : Handle} {δ : HandleDecl}
    (havoids : d.Avoids side (δ.place k.scopes)) :
    Agree side { d with store := d.store.declare k.scopes δ } d' where
  held := h.held
  size := by
    show _ = (d.store.declare _ _).groups.size
    rw [Store.size_declare, h.size]
  groups k' hk' hside id hid := by
    have hne : id ≠ δ.place k.scopes := fun heq => havoids k' hk' hside (heq ▸ hid)
    show _ = (d.store.declare _ _).group id
    rw [Store.group_declare_of_ne _ hne]
    exact h.groups k' hk' hside id hid

/-- A new handle of the new group of a push or of a detachment. -/
theorem Agree.group_new (h : Agree side d d') {g g' : Group} (hg : g' = g) {k : Handle}
    {around : List GroupId} (hchain : k.scopes.chain = d.store.groups.size :: around)
    (haround : ∀ id ∈ around, d'.store.group id = d.store.group id) :
    ∀ id ∈ k.scopes.chain, (d'.store.alloc g').2.group id = (d.store.alloc g).2.group id := by
  intro id hid
  rw [hchain] at hid
  rw [Store.group_alloc, Store.group_alloc, h.size]
  split
  · exact hg
  · next hne => exact haround id ((List.mem_cons.mp hid).resolve_left hne)

theorem Agree.perform (hd : d.Valid) (h : Agree side d d') {i : Nat} {k : Handle}
    (hi : d.held[i]? = some (some k)) (op : HandleOp) :
    Agree side (d.perform i k op) (d'.perform i k op) := by
  have hk : some k ∈ d.held := List.mem_of_getElem? hi
  cases op with
  | push =>
    have hpush : (d'.store.push k.scopes).1 = (d.store.push k.scopes).1 :=
      congrArg (fun n => (⟨n, ⟨n, k.scopes.innermost⟩ :: k.scopes.links⟩ : Scopes)) h.size
    rw [Handles.perform, Handles.perform, hpush]
    exact (h.alloc hd .empty .empty).append fun hside =>
      h.group_new rfl rfl (h.groups k hk hside)
  | pop =>
    rw [Handles.perform, Handles.perform]
    split
    · next scopes hpop =>
      refine h.append fun hside id hid => h.groups k hk hside id ?_
      rw [Scopes.chain_of_pop hpop]
      exact List.mem_cons_of_mem _ hid
    · exact h
  | clone => exact h.append (h.groups k hk)
  | drop => exact h.set i fun _ hnone => nomatch hnone
  | detach =>
    have hi' : d'.held[i]? = some (some k) := by rw [h.held, hi]
    by_cases hshared : 1 < Scopes.references (k.scopes :: others d.held i) k.scopes.innermost
    · have hcopy : (d'.store.copyInnermost k.scopes).1 = (d.store.copyInnermost k.scopes).1 :=
        congrArg (fun n => (⟨n, k.scopes.links⟩ : Scopes)) h.size
      rw [perform_detach_of_shared hshared, perform_detach_of_shared (h.held ▸ hshared), hcopy]
      refine (h.alloc hd _ _).set i fun k' hk' hside => ?_
      obtain rfl := Option.some.inj hk'
      have hgroups := h.groups k hk hside
      exact h.group_new (hgroups _ List.mem_cons_self) rfl
        fun id hid => hgroups id (List.mem_cons_of_mem _ hid)
    · rw [perform_detach_of_own hi hshared, perform_detach_of_own hi' (h.held ▸ hshared)]
      exact h
  | declare δ => exact h.declare hd hk δ

/-- **Handles of a side agree after the same step.** -/
theorem Agree.step (hd : d.Valid) (h : Agree side d d') (act : HandleAct) :
    Agree side (d.step act) (d'.step act) := by
  cases act with
  | create =>
    have hnew : d'.store.newScopes.1 = d.store.newScopes.1 :=
      congrArg (fun n => (⟨n, []⟩ : Scopes)) h.size
    rw [Handles.step, Handles.step, hnew]
    exact (h.alloc hd .empty .empty).append fun _ => h.group_new rfl rfl fun _ hid => nomatch hid
  | use i op =>
    rw [Handles.step, Handles.step, h.held]
    split
    · next k hi => exact h.perform hd hi op
    · exact h

/-- **A side does not see declarations into groups that it does not lead to**: it shows the same
after a run that leaves them out.  The invariant tells that what is left out is of this kind. -/
theorem agree_run {P : Handles → Prop} {leavesOut : List (Option Handle) → HandleAct → Bool}
    (hvalid : ∀ d, P d → d.Valid) (hstep : ∀ d act, P d → P (d.step act))
    (hout : ∀ d act, P d → leavesOut d.held act = true → ∃ i h δ, act = .use i (.declare δ) ∧
      d.held[i]? = some (some h) ∧ d.Avoids side (δ.place h.scopes))
    (acts : List HandleAct) (hd : P d) (h : Agree side d d') :
    Agree side (d.run acts) (d'.runExcept leavesOut acts) := by
  induction acts generalizing d d' with
  | nil => exact h
  | cons act rest ih =>
    refine ih (hstep d act hd) ?_
    dsimp only
    rw [h.held]
    split
    · next hleft =>
      obtain ⟨i, k, δ, rfl, hi, havoids⟩ := hout d act hd hleft
      rw [step_use_of_some hi]
      exact h.declare_left havoids
    · exact h.step (hvalid d hd) act

end Handles
end CelTyping
