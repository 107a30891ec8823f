import CelTyping.Proofs.Scope.Handles

/-!
# Detached handles

A handle that is detached declares from then on into a group that no other handle leads to, but for
those made from it.  So neither side sees what the other declares in the scope that was detached,
whatever else happens to the handles (`detached_isolated`).

Detaching splits a run in two.  Before it handles may share groups in any way; at that point the
handle is set apart, and two invariants hold of the rest of the run:

* `Detached`: no handle of the other side leads to the innermost group of the handle;
* `Parted`: the group that the handle had is left to one of the sides.

A group that is not copied when a handle is detached has no other reference, and then no other
handle leads to it: every way to reach a group, by a handle or through a link, counts as a
reference.

Environments detach their scopes before declarations are added to them, and so what the others in
use lead to stays as it was (`keeps_addIdents`, `keeps_addFunctions`).
-/

namespace CelTyping
namespace Handles

variable {d : Handles}

/-! ## Detaching -/

/-- Set a handle apart from all others. -/
def setApart (d : Handles) (i : Nat) : Handles :=
  { d with held := d.held.mapIdx fun j h => h.map fun h => { h with apart := j == i } }

/-- Set a handle apart from all others, and detach it. -/
def detachApart (d : Handles) (i : Nat) : Handles := (d.setApart i).step (.use i .detach)

/-- Leave out what the handle of a number declares in its innermost scope. -/
def declaresInnermost (i : Nat) (held : List (Option Handle)) : HandleAct → Bool
  | .use j (.declare δ) =>
    j == i && (held[j]?.join).any fun h => δ.place h.scopes == h.scopes.innermost
  | _ => false

/-- Leave out what handles that are not set apart declare in a group. -/
def othersDeclareIn (id : GroupId) (held : List (Option Handle)) : HandleAct → Bool
  | .use j (.declare δ) => (held[j]?.join).any fun h => !h.apart && δ.place h.scopes == id
  | _ => false

/-- What other handles in use there are. -/
theorem mem_others {held : List (Option Handle)} {i : Nat} {k : Scopes} :
    k ∈ others held i ↔ ∃ j h, j ≠ i ∧ held[j]? = some (some h) ∧ h.scopes = k := by
  unfold others
  rw [List.mem_filterMap]
  constructor
  · rintro ⟨o, ho, hk⟩
    obtain ⟨h, rfl, rfl⟩ := Option.map_eq_some_iff.mp hk
    obtain ⟨j, hj⟩ := List.mem_iff_getElem?.mp ho
    rw [List.getElem?_set] at hj
    split at hj
    · split at hj <;> cases hj
    · next hne => exact ⟨j, h, Ne.symm hne, hj, rfl⟩
  · rintro ⟨j, h, hne, hj, rfl⟩
    refine ⟨some h, List.mem_iff_getElem?.mpr ⟨j, ?_⟩, rfl⟩
    rw [List.getElem?_set_ne (Ne.symm hne)]
    exact hj

/-- A handle is shared: there are more references to its innermost scope than its own. -/
def Shared (held : List (Option Handle)) (i : Nat) (h : Handle) : Prop :=
  1 < Scopes.references (h.scopes :: others held i) h.scopes.innermost

/-- **A handle is shared just if another one in use leads to its innermost scope.** -/
theorem shared_iff (hd : d.Valid) {i : Nat} {h : Handle} (hi : d.held[i]? = some (some h)) :
    Shared d.held i h ↔ ∃ j k, j ≠ i ∧ d.held[j]? = some (some k) ∧
      h.scopes.innermost ∈ k.scopes.chain := by
  unfold Shared
  rw [Scopes.one_lt_references_iff (hd.nodup h (List.mem_of_getElem? hi))]
  constructor
  · rintro ⟨scopes, hk, hid⟩
    obtain ⟨j, k, hne, hj, rfl⟩ := mem_others.mp hk
    exact ⟨j, k, hne, hj, hid⟩
  · rintro ⟨j, k, hne, hj, hid⟩
    exact ⟨k.scopes, mem_others.mpr ⟨j, k, hne, hj, rfl⟩, hid⟩

theorem step_detach_of_shared {i : Nat} {h : Handle} (hi : d.held[i]? = some (some h))
    (hshared : Shared d.held i h) :
    d.step (.use i .detach) = ⟨(d.store.copyInnermost h.scopes).2,
      d.held.set i (some { h with scopes := (d.store.copyInnermost h.scopes).1 })⟩ := by
  rw [step_use_of_some hi, perform_detach_of_shared hshared]

theorem step_detach_of_own {i : Nat} {h : Handle} (hi : d.held[i]? = some (some h))
    (hown : ¬ Shared d.held i h) : d.step (.use i .detach) = d := by
  rw [step_use_of_some hi, perform_detach_of_own hi hown]

/-- A copy is new, and so no handle of the other side leads to it. -/
theorem avoids_detach (hd : d.Valid) {i : Nat} {h : Handle} (hi : d.held[i]? = some (some h))
    (hapart : h.apart = true) (hshared : Shared d.held i h) :
    (d.step (.use i .detach)).Avoids false d.store.groups.size := by
  intro k hk hside
  rw [step_detach_of_shared hi hshared] at hk
  rcases List.mem_or_eq_of_mem_set hk with hk | hk
  · exact fun hmem => Nat.lt_irrefl _ (hd.lt k hk _ hmem)
  · rw [Option.some.inj hk, hapart] at hside
    cases hside

/-- The handle of a number, if it is in use, is set apart and the only one to lead to its innermost
scope, but for those made from it. -/
structure Detached (i : Nat) (d : Handles) : Prop where
  /-- The groups of handles have their places. -/
  valid : d.Valid
  /-- The number is that of a handle. -/
  lt : i < d.held.length
  /-- The handle is set apart. -/
  apart : ∀ h, d.held[i]? = some (some h) → h.apart = true
  /-- No handle that is not set apart leads to its innermost scope. -/
  avoids : ∀ h, d.held[i]? = some (some h) → d.Avoids false h.scopes.innermost

/-- **A handle that is detached remains detached.** -/
theorem Detached.step {i : Nat} (hd : Detached i d) (act : HandleAct) :
    Detached i (d.step act) where
  valid := hd.valid.step act
  lt := Nat.lt_of_lt_of_le hd.lt (moves_step d act).length_le
  apart k hk := by
    rcases (moves_step d act).held hd.lt hk with hk | ⟨h, hi, -, -, rfl⟩
    · exact hd.apart k hk
    · exact hd.apart h hi
  avoids k hk := by
    rcases (moves_step d act).held hd.lt hk with hk | ⟨h, hi, rfl, hshared, rfl⟩
    · have hlt := hd.valid.lt k (List.mem_of_getElem? hk) _ List.mem_cons_self
      exact (hd.avoids k hk).step hd.valid hlt act
    · exact avoids_detach hd.valid hi (hd.apart h hi) hshared

/-! ### Setting apart -/

theorem setApart_held {i j : Nat} {k : Handle} : (d.setApart i).held[j]? = some (some k) ↔
    ∃ h, d.held[j]? = some (some h) ∧ k = { h with apart := j == i } := by
  show (d.held.mapIdx _)[j]? = _ ↔ _
  rw [List.getElem?_mapIdx, Option.map_eq_some_iff]
  constructor
  · rintro ⟨o, ho, hk⟩
    obtain ⟨h, rfl, rfl⟩ := Option.map_eq_some_iff.mp hk
    exact ⟨h, ho, rfl⟩
  · rintro ⟨h, hh, rfl⟩
    exact ⟨some h, hh, rfl⟩

theorem setApart_held_self {i : Nat} {h : Handle} (hi : d.held[i]? = some (some h)) :
    (d.setApart i).held[i]? = some (some { h with apart := true }) :=
  setApart_held.mpr ⟨h, hi, by rw [beq_self_eq_true]⟩

theorem Valid.setApart (hd : d.Valid) (i : Nat) : (d.setApart i).Valid := by
  refine ⟨fun k hk => ?_, fun k hk => ?_⟩ <;> obtain ⟨j, hj⟩ := List.mem_iff_getElem?.mp hk <;>
    obtain ⟨h, hh, rfl⟩ := setApart_held.mp hj
  · exact hd.lt h (List.mem_of_getElem? hh)
  · exact hd.nodup h (List.mem_of_getElem? hh)

/-- A handle that was set apart is the only one of its side. -/
theorem eq_of_setApart {i j : Nat} {k : Handle} (hk : (d.setApart i).held[j]? = some (some k)) :
    k.apart = true ↔ j = i := by
  obtain ⟨h, -, rfl⟩ := setApart_held.mp hk
  exact beq_iff_eq

/-- What no other handle leads to, no handle of the other side leads to. -/
theorem avoids_setApart {i : Nat} {h : Handle} (hi : (d.setApart i).held[i]? = some (some h))
    (hd : (d.setApart i).Valid) (hown : ¬ Shared (d.setApart i).held i h) :
    (d.setApart i).Avoids false h.scopes.innermost := by
  intro k hk hside hmem
  obtain ⟨j, hj⟩ := List.mem_iff_getElem?.mp hk
  refine hown ((shared_iff hd hi).mpr ⟨j, k, fun heq => ?_, hj, hmem⟩)
  rw [(eq_of_setApart hj).mpr heq] at hside
  cases hside

/-- **Detaching a handle detaches it**, whether the group is copied or not. -/
theorem detached_detach (hd : d.Valid) {i : Nat} {h : Handle} (hi : d.held[i]? = some (some h)) :
    Detached i (d.detachApart i) := by
  have hvalid : (d.setApart i).Valid := hd.setApart i
  have hi' := setApart_held_self hi
  unfold detachApart
  have hlt : i < (d.setApart i).held.length := (List.getElem?_eq_some_iff.mp hi').1
  have hapart := (eq_of_setApart hi').mpr rfl
  refine ⟨hvalid.step _, Nat.lt_of_lt_of_le hlt (moves_step _ _).length_le, ?_, ?_⟩
  · intro k hk
    rcases (moves_step _ _).held hlt hk with hk | ⟨k', hk', -, -, rfl⟩
    · exact (eq_of_setApart hk).mpr rfl
    · exact (eq_of_setApart hk').mpr rfl
  · intro k hk
    by_cases hshared : Shared (d.setApart i).held i { h with apart := true }
    · have hnew := avoids_detach hvalid hi' hapart hshared
      rw [step_detach_of_shared hi' hshared, List.getElem?_set, if_pos rfl, if_pos hlt] at hk
      rw [← Option.some.inj (Option.some.inj hk)]
      exact hnew
    · rw [step_detach_of_own hi' hshared] at hk ⊢
      obtain rfl := Option.some.inj (Option.some.inj (hi'.symm.trans hk))
      exact avoids_setApart hk hvalid hshared

/-- One of the sides does not lead to a group. -/
structure Parted (id : GroupId) (d : Handles) : Prop where
  /-- The groups of handles have their places. -/
  valid : d.Valid
  /-- The group has its place. -/
  lt : id < d.store.groups.size
  /-- One of the sides does not lead to it. -/
  avoids : d.Avoids true id ∨ d.Avoids false id

theorem Parted.step {id : GroupId} (hd : Parted id d) (act : HandleAct) :
    Parted id (d.step act) where
  valid := hd.valid.step act
  lt := Nat.lt_of_lt_of_le hd.lt (moves_step d act).size_le
  avoids := hd.avoids.imp (fun h => h.step hd.valid hd.lt act) fun h => h.step hd.valid hd.lt act

/-- **Detaching parts the sides**: the former group of the handle is left to one of them. -/
theorem parted_detach (hd : d.Valid) {i : Nat} {h : Handle} (hi : d.held[i]? = some (some h)) :
    Parted h.scopes.innermost (d.detachApart i) := by
  have hvalid : (d.setApart i).Valid := hd.setApart i
  have hi' := setApart_held_self hi
  unfold detachApart
  have hh := List.mem_of_getElem? hi
  have hlt : h.scopes.innermost < d.store.groups.size := hd.lt h hh _ List.mem_cons_self
  refine ⟨hvalid.step _, Nat.lt_of_lt_of_le hlt (moves_step (d.setApart i) _).size_le, ?_⟩
  by_cases hshared : Shared (d.setApart i).held i { h with apart := true }
  · refine Or.inl fun k hk hside => ?_
    rw [step_detach_of_shared hi' hshared] at hk
    obtain ⟨j, hj⟩ := List.mem_iff_getElem?.mp hk
    rw [List.getElem?_set] at hj
    split at hj
    · -- the only handle that is set apart has a new group in place of its former one
      split at hj
      · rw [← Option.some.inj (Option.some.inj hj)]
        have hnodup := List.nodup_cons.mp (hd.nodup h hh)
        intro hmem
        rcases List.mem_cons.mp hmem with heq | hmem
        · exact Nat.ne_of_lt hlt heq
        · exact hnodup.1 hmem
      · cases hj
    · next hne => exact absurd ((eq_of_setApart hj).mp hside).symm hne
  · rw [step_detach_of_own hi' hshared]
    have havoids := avoids_setApart hi' hvalid hshared
    exact Or.inr havoids

/-! ### What is left out -/

theorem exists_of_declaresInnermost {i : Nat} {held : List (Option Handle)} {act : HandleAct}
    (h : declaresInnermost i held act = true) : ∃ k δ, act = .use i (.declare δ) ∧
      held[i]? = some (some k) ∧ δ.place k.scopes = k.scopes.innermost := by
  unfold declaresInnermost at h
  split at h
  · next j δ =>
    obtain ⟨hj, hany⟩ := Bool.and_eq_true_iff.mp h
    obtain ⟨k, hk, hplace⟩ := (Option.any_eq_true _ _).mp hany
    obtain rfl := eq_of_beq hj
    exact ⟨k, δ, rfl, Option.join_eq_some_iff.mp hk, eq_of_beq hplace⟩
  · cases h

theorem exists_of_othersDeclareIn {id : GroupId} {held : List (Option Handle)} {act : HandleAct}
    (h : othersDeclareIn id held act = true) : ∃ j k δ, act = .use j (.declare δ) ∧
      held[j]? = some (some k) ∧ k.apart = false ∧ δ.place k.scopes = id := by
  unfold othersDeclareIn at h
  split at h
  · next j δ =>
    obtain ⟨k, hk, hboth⟩ := (Option.any_eq_true _ _).mp h
    obtain ⟨hapart, hplace⟩ := Bool.and_eq_true_iff.mp hboth
    exact ⟨j, k, δ, rfl, Option.join_eq_some_iff.mp hk, (Bool.not_eq_true' _).mp hapart,
      eq_of_beq hplace⟩
  · cases h

/-- What a detached handle declares in its innermost scope is not seen by the others. -/
theorem agree_declaresInnermost {i : Nat} (hd : Detached i d) (acts : List HandleAct) :
    Agree false (d.run acts) (d.runExcept (declaresInnermost i) acts) := by
  refine agree_run (P := Detached i) (fun _ hd => hd.valid) (fun _ act hd => hd.step act) ?_ acts hd
    (Agree.refl false d)
  intro d act hd hleft
  obtain ⟨k, δ, rfl, hk, hplace⟩ := exists_of_declaresInnermost hleft
  exact ⟨i, k, δ, rfl, hk, hplace ▸ hd.avoids k hk⟩

/-- What the others declare in a group that only one side leads to is not seen by those set
apart. -/
theorem agree_othersDeclareIn {id : GroupId} (hd : Parted id d) (acts : List HandleAct) :
    Agree true (d.run acts) (d.runExcept (othersDeclareIn id) acts) := by
  refine agree_run (P := Parted id) (fun _ hd => hd.valid) (fun _ act hd => hd.step act) ?_ acts hd
    (Agree.refl true d)
  intro d act hd hleft
  obtain ⟨j, k, δ, rfl, hk, hapart, rfl⟩ := exists_of_othersDeclareIn hleft
  refine ⟨j, k, δ, rfl, hk, hd.avoids.resolve_right fun havoids => ?_⟩
  exact havoids k (List.mem_of_getElem? hk) hapart (δ.place_mem k.scopes)

/-- Whatever happens to the handles, those set apart and the others do not see each other's
declarations: neither what the handle of a number declares in its innermost scope, nor what the
others declare in a group. -/
structure Isolated (i : Nat) (id : GroupId) (d : Handles) : Prop where
  /-- The other handles show the same without what the handle declares in its innermost scope. -/
  others : ∀ acts k, some k ∈ (d.run acts).held → k.apart = false →
    some k ∈ (d.runExcept (declaresInnermost i) acts).held ∧
      (d.run acts).store.ShowsSame
        (d.runExcept (declaresInnermost i) acts).store k.scopes
  /-- The handle, and those made from it, show the same without what the others declare in the
  group. -/
  own : ∀ acts k, some k ∈ (d.run acts).held → k.apart = true →
    some k ∈ (d.runExcept (othersDeclareIn id) acts).held ∧
      (d.run acts).store.ShowsSame
        (d.runExcept (othersDeclareIn id) acts).store k.scopes

end Handles

/-! ## Environments -/

/-- An environment sees what it saw if the groups it leads to are what they were. -/
theorem Env.undisturbed_of_groups {s t : Store} {f : Env} (hsize : s.groups.size ≤ t.groups.size)
    (hgroup : ∀ id ∈ f.scopes.chain, t.group id = s.group id) : f.Undisturbed s t := by
  have hshows := Store.showsSame_of_groups hgroup
  exact ⟨hsize, fun name => congrArg (·.or (f.provided? name)) (hshows.findIdent? name),
    hshows.findFunction?⟩

/-- A store has the groups of another one that a chain of scopes leads to, and the place of one
group is not among them. -/
structure Store.Keeps (s : Store) (k : Scopes) (place : GroupId) (t : Store) : Prop where
  /-- No group is taken away. -/
  size : s.groups.size ≤ t.groups.size
  /-- The groups that the chain leads to are what they were. -/
  group : ∀ id ∈ k.chain, t.group id = s.group id
  /-- The chain does not lead to the group at the place. -/
  apart : place ∉ k.chain

theorem Store.Keeps.modify {s t : Store} {k : Scopes} {place : GroupId}
    (h : s.Keeps k place t) (change : Group → Group) :
    s.Keeps k place (t.modify place change) where
  size := Nat.le_trans h.size (Nat.le_of_eq Array.size_modify.symm)
  group id hid := by
    have hne : id ≠ place := fun heq => h.apart (heq ▸ hid)
    exact (t.group_modify_of_ne hne change).trans (h.group id hid)
  apart := h.apart

namespace Env

variable {store : Store} {others : List Scopes} {k : Scopes} (hk : k ∈ others)
  (hlt : ∀ id ∈ k.chain, id < store.groups.size)

include hk hlt

/-- **The scope that declarations go to is one that no other chain in use leads to.** -/
theorem keeps_detach (env : Env) : store.Keeps k (env.detach store others).1.scopes.innermost
    (env.detach store others).2 := by
  have hdetach : env.detach store others =
      ({ env with scopes := (store.detach others env.scopes).1 },
        (store.detach others env.scopes).2) := rfl
  rw [hdetach, Store.detach]
  split
  · -- a copy is new
    refine ⟨?_, fun id hid => ?_, fun hid => Nat.lt_irrefl _ (hlt _ hid)⟩
    · exact Nat.le_of_lt (Nat.lt_of_lt_of_eq (Nat.lt_succ_self _) (Array.size_push _).symm)
    · show (store.alloc _).2.group id = _
      rw [Store.group_alloc, if_neg (Nat.ne_of_lt (hlt id hid))]
  · -- what is not copied has no other reference
    next hown =>
    exact ⟨Nat.le_refl _, fun _ _ => rfl,
      fun hid => hown (Scopes.one_lt_references_of_mem hk hid)⟩

/-- **Identifiers that are added change no group that another chain in use leads to.** -/
theorem keeps_addIdents (env : Env) (vs : List Variable) :
    store.Keeps k (env.detach store others).1.scopes.innermost
      (env.addIdents store others vs).2.1 := by
  refine runSteps_invariant
    (P := store.Keeps k (env.detach store others).1.scopes.innermost) ?_ (keeps_detach hk hlt env)
  intro v _ s s' hs hadd
  rcases addIdent_cases hadd with ⟨_, -, -, rfl⟩ | ⟨-, rfl⟩
  · exact hs
  · exact hs.modify _

theorem keeps_addFunctions (env : Env) (fs : List FunctionDecl) :
    store.Keeps k (env.detach store others).1.scopes.innermost
      (env.addFunctions store others fs).2.1 := by
  refine runSteps_invariant
    (P := store.Keeps k (env.detach store others).1.scopes.innermost) ?_ (keeps_detach hk hlt env)
  intro f _ s s' hs hadd
  obtain ⟨merged, -, rfl, -⟩ := addFunction_cases hadd
  exact hs.modify _

end Env

/-- **Detached handles are isolated.**  Handles are made, pushed, popped, cloned, dropped, detached
and declared through, and then one of them is detached.  Its group is copied just if another handle
in use leads to it.  Whatever happens afterwards, what it declares in its innermost scope does not
show through the other handles, nor through those made from these; and what they declare in the
group that it had does not show through it.  So declarations that are added to an environment change
nothing for the other environments in use. -/
theorem detached_isolated (before : List HandleAct) {i : Nat} {h : Handle}
    (hi : (Handles.start.run before).held[i]? = some (some h)) :
    (Handles.Shared (Handles.start.run before).held i h ↔
      ∃ j k, j ≠ i ∧ (Handles.start.run before).held[j]? = some (some k) ∧
        h.scopes.innermost ∈ k.scopes.chain) ∧
    Handles.Isolated i h.scopes.innermost ((Handles.start.run before).detachApart i) ∧
    ∀ (env f : Env) (store : Store) (others : List Scopes), f.scopes ∈ others → f.Valid store →
      ∀ (vs : List Variable) (fs : List FunctionDecl) (name : String),
      (f.lookupIdent (env.addIdents store others vs).2.1 name).1 =
        (f.lookupIdent store name).1 ∧
      f.lookupFunction (env.addIdents store others vs).2.1 name = f.lookupFunction store name ∧
      (f.lookupIdent (env.addFunctions store others fs).2.1 name).1 =
        (f.lookupIdent store name).1 ∧
      f.lookupFunction (env.addFunctions store others fs).2.1 name =
        f.lookupFunction store name := by
  have hvalid : (Handles.start.run before).Valid := Handles.valid_start.run before
  have hdetached := Handles.detached_detach hvalid hi
  have hparted := Handles.parted_detach hvalid hi
  refine ⟨Handles.shared_iff hvalid hi,
    ⟨fun acts k hk hside => ?_, fun acts k hk hside => ?_⟩, ?_⟩
  · have hagree := Handles.agree_declaresInnermost hdetached acts
    exact ⟨hagree.held ▸ hk, hagree.showsSame hk hside⟩
  · have hagree := Handles.agree_othersDeclareIn hparted acts
    exact ⟨hagree.held ▸ hk, hagree.showsSame hk hside⟩
  · intro env f store others hmem hf vs fs name
    have hkept := Env.keeps_addIdents hmem hf env vs
    have hkept' := Env.keeps_addFunctions hmem hf env fs
    have hidents := Env.undisturbed_of_groups hkept.size hkept.group
    have hfunctions := Env.undisturbed_of_groups hkept'.size hkept'.group
    exact ⟨hidents.lookupIdent name, hidents.lookupFunction name,
      hfunctions.lookupIdent name, hfunctions.lookupFunction name⟩

/-- A handle declares `x`, and two handles lead to its scope by one link. -/
def Handles.nested : Handles :=
  start.run [.create, .use 0 (.declare (.ident (.ofType "x" .int))), .use 0 .push, .use 1 .clone]

/-- The handle and one of those inside declare something. -/
def Handles.declareApart : List HandleAct :=
  [.use 0 (.declare (.ident (.ofType "y" .int))),
    .use 1 (.declare (.globalIdent (.ofType "z" .int)))]

/-- There are two references to a scope, that of its handle and that of the link by which two other
handles lead to it.  So the handle is given a copy when it is detached; then it shows `x` as the
others do, and each side shows what it declares itself. -/
theorem detached_isolated_nested :
    Handles.nested.held[0]? = some (some ⟨⟨0, []⟩, false⟩) ∧
    Scopes.references (⟨0, []⟩ :: Handles.others Handles.nested.held 0) 0 = 2 ∧
    Handles.Isolated 0 0 (Handles.nested.detachApart 0) ∧
    ((["x", "y", "z"].map fun name => [⟨2, []⟩, ⟨1, [⟨1, 0⟩]⟩].map fun scopes =>
      (((Handles.nested.detachApart 0).run
        Handles.declareApart).store.findIdent? scopes name).isSome) =
      [[true, true], [true, false], [false, true]]) ∧
    ((Env.bare .empty .root Registry.empty.toProvider .standard).1.lookupIdent
      ((Env.bare .empty .root Registry.empty.toProvider .standard).1.addIdents
        (Env.bare .empty .root Registry.empty.toProvider .standard).2 [⟨0, []⟩]
        [.ofType "secret" .int]).2.1 "secret").1 =
    ((Env.bare .empty .root Registry.empty.toProvider .standard).1.lookupIdent
      (Env.bare .empty .root Registry.empty.toProvider .standard).2 "secret").1 := by
  have hheld : Handles.nested.held[0]? = some (some ⟨⟨0, []⟩, false⟩) := rfl
  obtain ⟨-, hisolated, henvs⟩ := detached_isolated _ hheld
  refine ⟨hheld, by decide +kernel, hisolated, by decide +kernel, ?_⟩
  exact (henvs _ _ _ [⟨0, []⟩] List.mem_cons_self (Env.valid_bare _ _ _ _)
    [.ofType "secret" .int] [] "secret").1

end CelTyping
