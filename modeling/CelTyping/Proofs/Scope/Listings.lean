import CelTyping.Proofs.Scope.Handles
import CelTyping.Proofs.Text.Utf8Order
import Mathlib.Data.List.Induction

/-!
# Listings agree with lookups

Looking up a name goes outward along a chain of scopes and takes the first declaration stored under
the name.  A listing collects the entries of all scopes of the chain, from the inside out, keeps the
first of every key and sorts the declarations that are left by their names.  The two agree as long
as declarations are stored under their own names (`Group.Filed`), and they are, whatever is done
with handles (`filed_run`).

* `Table.lookup_eq_find?`: looking up a key is looking for the first entry of the key.  So looking
  up a name along a chain is looking for it in the list from which the listing is made.
* `mem_firstByKey_iff`: what is kept is what is found first under its key.
* `pairwise_sortedByName`: the listing is strictly sorted, as every name is listed once.
-/

namespace CelTyping

/-! ## Stored under their own names -/

namespace Table

theorem mem_assign {κ ν : Type} [DecidableEq κ] {k : κ} {v : ν} {e : κ × ν} :
    ∀ {es : List (κ × ν)}, e ∈ assign k v es → e = (k, v) ∨ e ∈ es
  | [], h => Or.inl (List.mem_singleton.mp h)
  | (k', v') :: rest, h => by
    rw [assign] at h
    split at h
    · exact (List.mem_cons.mp h).imp_right (List.mem_cons_of_mem _)
    · rcases List.mem_cons.mp h with rfl | h
      · exact Or.inr List.mem_cons_self
      · exact (mem_assign h).imp_right (List.mem_cons_of_mem _)

variable {α : Type} {name : α → String}

/-- The values of a table are stored under their own names. -/
def Filed (name : α → String) (t : Table String α) : Prop := ∀ e ∈ t.entries, name e.2 = e.1

theorem filed_empty : Filed name empty := fun _ he => absurd he List.not_mem_nil

theorem Filed.insert {t : Table String α} (h : Filed name t) (a : α) :
    Filed name (t.insert (name a) a) := by
  intro e he
  rcases mem_assign he with rfl | he
  · rfl
  · exact h e he

/-- **What is found under a key is the value of the first entry of this key.** -/
theorem lookup_eq_find? {k : String} : ∀ {es : List (String × α)},
    lookup k es = (es.find? fun e => e.1 == k).map Prod.snd
  | [] => rfl
  | e :: es => by
    rw [List.find?_cons, lookup]
    by_cases hk : k = e.1
    · rw [if_pos hk, hk, beq_self_eq_true]
      rfl
    · rw [if_neg hk, beq_false_of_ne (Ne.symm hk), lookup_eq_find?]

end Table

/-- The declarations of a group are stored under their own names. -/
structure Group.Filed (g : Group) : Prop where
  idents : g.idents.Filed Variable.name
  functions : g.functions.Filed FunctionDecl.name

namespace Group

theorem filed_empty : empty.Filed := ⟨Table.filed_empty, Table.filed_empty⟩

theorem Filed.change {g : Group} (h : g.Filed) (d : HandleDecl) : (d.change g).Filed := by
  cases d with
  | ident v => exact ⟨h.idents.insert v, h.functions⟩
  | globalIdent v => exact ⟨h.idents.insert v, h.functions⟩
  | function f => exact ⟨h.idents, h.functions.insert f⟩

end Group

/-! ## What is done with handles -/

namespace Store

variable {P : Group → Prop} {s : Store}

/-- What holds of all groups and of a new one holds of all groups with the new one. -/
theorem forall_group_alloc (h : ∀ id, P (s.group id)) {g : Group} (hg : P g) (id : GroupId) :
    P ((s.alloc g).2.group id) := by
  rw [group_alloc]
  split
  · exact hg
  · exact h id

/-- What holds of all groups and is kept by a change holds after the change of one of them. -/
theorem forall_group_modify (h : ∀ id, P (s.group id)) (id : GroupId) {change : Group → Group}
    (hchange : ∀ g, P g → P (change g)) (j : GroupId) : P ((s.modify id change).group j) := by
  have hj := h j
  unfold modify
  unfold group at hj ⊢
  rw [Array.getElem?_modify]
  split
  · cases hget : s.groups[j]? with
    | none =>
      rw [hget] at hj
      exact hj
    | some g =>
      rw [hget] at hj
      exact hchange g hj
  · exact hj

end Store

namespace Handles

/-- **A move stores declarations under their own names.** -/
theorem Moves.filed {d d' : Handles} {act : HandleAct} (hmoves : Moves d act d')
    (h : ∀ id, (d.store.group id).Filed) (id : GroupId) : (d'.store.group id).Filed := by
  cases hmoves with
  | idle | derived | dropped => exact h id
  | nested => exact Store.forall_group_alloc h Group.filed_empty id
  | @detached i k => exact Store.forall_group_alloc h (h k.scopes.innermost) id
  | @declared i k δ =>
    show ((d.store.declare k.scopes δ).group id).Filed
    rw [Store.declare_eq]
    exact Store.forall_group_modify h _ (fun g hg => hg.change δ) id

theorem filed_run (acts : List HandleAct) (id : GroupId) :
    ((start.run acts).store.group id).Filed := by
  have hrun : ∀ d : Handles, (∀ id, (d.store.group id).Filed) →
      ∀ id, ((d.run acts).store.group id).Filed := by
    induction acts with
    | nil => exact fun _ h => h
    | cons act acts ih => exact fun d h => ih (d.step act) ((moves_step d act).filed h)
  exact hrun start (fun _ => Group.filed_empty) id

end Handles

/-! ## The first of every key -/

namespace Store

variable {α : Type}

theorem firstByKey_concat (entries : List (String × α)) (a : String × α) :
    firstByKey (entries ++ [a]) =
      if (firstByKey entries).any (fun b => b.1 == a.1) then firstByKey entries
      else firstByKey entries ++ [a] :=
  List.foldl_concat _ _ _ _

/-- Every key is kept. -/
theorem any_firstByKey (entries : List (String × α)) (n : String) :
    (firstByKey entries).any (fun a => a.1 == n) = entries.any fun a => a.1 == n := by
  induction entries using List.reverseRecOn with
  | nil => rfl
  | append_singleton entries x ih =>
    rw [firstByKey_concat, List.any_append, List.any_cons, List.any_nil, Bool.or_false]
    split
    · next hseen =>
      by_cases hx : x.1 = n
      · rw [hx] at hseen
        rw [hseen, hx, beq_self_eq_true, Bool.or_true]
      · rw [ih, beq_false_of_ne hx, Bool.or_false]
    · rw [List.any_append, List.any_cons, List.any_nil, Bool.or_false, ih]

/-- No key is kept twice. -/
theorem pairwise_firstByKey (entries : List (String × α)) :
    (firstByKey entries).Pairwise fun a b => a.1 ≠ b.1 := by
  induction entries using List.reverseRecOn with
  | nil => exact List.Pairwise.nil
  | append_singleton entries x ih =>
    rw [firstByKey_concat]
    split
    · exact ih
    · next hseen =>
      refine List.pairwise_append.mpr ⟨ih, List.pairwise_singleton _ _, fun a ha b hb heq => ?_⟩
      rw [List.mem_singleton.mp hb] at heq
      exact hseen (List.any_eq_true.mpr ⟨a, ha, beq_iff_eq.mpr heq⟩)

/-- **What is kept is what is found first under its key.** -/
theorem mem_firstByKey_iff {entries : List (String × α)} {a : String × α} :
    a ∈ firstByKey entries ↔ entries.find? (fun b => b.1 == a.1) = some a := by
  induction entries using List.reverseRecOn with
  | nil => simp [firstByKey]
  | append_singleton entries x ih =>
    rw [firstByKey_concat, any_firstByKey, List.find?_append]
    cases hfind : entries.find? (fun b => b.1 == a.1) with
    | some b =>
      -- an entry of this key came before, so the last one is not kept for it
      have hb : (b.1 == a.1) = true := by simpa using List.find?_some hfind
      rw [hfind] at ih
      rw [Option.some_or]
      split
      · exact ih
      · next hseen =>
        rw [List.mem_append, ih, List.mem_singleton, or_iff_left]
        rintro rfl
        exact hseen (List.any_eq_true.mpr ⟨b, List.mem_of_find?_eq_some hfind, hb⟩)
    | none =>
      rw [hfind] at ih
      have hnot : a ∉ firstByKey entries := fun ha => Option.some_ne_none a (ih.mp ha).symm
      rw [Option.none_or, List.find?_singleton]
      split
      · next hseen =>
        obtain ⟨b, hb, hbx⟩ := List.any_eq_true.mp hseen
        have hxa : (x.1 == a.1) = false := by
          rw [← beq_iff_eq.mp hbx]
          exact Bool.eq_false_iff.mpr (List.find?_eq_none.mp hfind b hb)
        rw [hxa, if_neg Bool.false_ne_true]
        exact iff_of_false hnot (Option.some_ne_none a).symm
      · rw [List.mem_append, List.mem_singleton, or_iff_right hnot]
        constructor
        · rintro rfl
          rw [beq_self_eq_true, if_pos rfl]
        · intro h
          split at h
          · exact (Option.some.inj h).symm
          · cases h

theorem mem_of_mem_firstByKey {entries : List (String × α)} {e : String × α}
    (h : e ∈ firstByKey entries) : e ∈ entries :=
  List.mem_of_find?_eq_some (mem_firstByKey_iff.mp h)

/-! ## Listings -/

variable {name : α → String} {entries : List (String × α)}

/-- **A listing is strictly sorted** by the bytes of the names, if values are stored under their own
names. -/
theorem pairwise_sortedByName (h : ∀ e ∈ entries, name e.2 = e.1) :
    (sortedByName name entries).Pairwise fun a b => Text.utf8 (name a) < Text.utf8 (name b) := by
  have htrans : ∀ a b c : α, decide (name a ≤ name b) = true → decide (name b ≤ name c) = true →
      decide (name a ≤ name c) = true := fun a b c hab hbc =>
    decide_eq_true (String.le_trans (of_decide_eq_true hab) (of_decide_eq_true hbc))
  have htotal : ∀ a b : α, (decide (name a ≤ name b) || decide (name b ≤ name a)) = true :=
    fun a b => by
      rw [Bool.or_eq_true, decide_eq_true_eq, decide_eq_true_eq]
      exact String.le_total _ _
  have hle := List.pairwise_mergeSort htrans htotal ((firstByKey entries).map Prod.snd)
  have hfirst : ((firstByKey entries).map Prod.snd).Pairwise fun a b => name a ≠ name b := by
    refine List.pairwise_map.mpr ((pairwise_firstByKey entries).imp_of_mem fun ha hb hne => ?_)
    rw [h _ (mem_of_mem_firstByKey ha), h _ (mem_of_mem_firstByKey hb)]
    exact hne
  have hne : (sortedByName name entries).Pairwise fun a b => name a ≠ name b :=
    ((List.mergeSort_perm _ _).pairwise_iff Ne.symm).mpr hfirst
  exact (hle.and hne).imp fun h => Text.utf8_lt (Std.lt_of_le_of_ne (of_decide_eq_true h.1) h.2)

/-- A value is listed if its entry is the first of its key, and then the key is its name. -/
theorem mem_sortedByName (h : ∀ e ∈ entries, name e.2 = e.1) {a : α} :
    a ∈ sortedByName name entries ↔
      (entries.find? fun e => e.1 == name a).map Prod.snd = some a := by
  rw [sortedByName, List.mem_mergeSort, List.mem_map, Option.map_eq_some_iff]
  constructor
  · rintro ⟨e, he, rfl⟩
    rw [h e (mem_of_mem_firstByKey he)]
    exact ⟨e, mem_firstByKey_iff.mp he, rfl⟩
  · rintro ⟨e, he, rfl⟩
    rw [h e (List.mem_of_find?_eq_some he)] at he
    exact ⟨e, mem_firstByKey_iff.mpr he, rfl⟩

theorem forall_mem_entries {ι : Type} {table : ι → Table String α} {ids : List ι}
    (h : ∀ id, (table id).Filed name) :
    ∀ e ∈ ids.flatMap fun id => (table id).entries, name e.2 = e.1 := by
  intro e he
  obtain ⟨id, -, he⟩ := List.mem_flatMap.mp he
  exact h id e he

/-- **What is listed is what is looked up under its name**, in tables that are searched one after
another and whose values are stored under their own names. -/
theorem mem_sortedByName_iff {ι : Type} {table : ι → Table String α} {ids : List ι}
    (h : ∀ id, (table id).Filed name) {a : α} :
    a ∈ sortedByName name (ids.flatMap fun id => (table id).entries) ↔
      ids.findSome? (fun id => (table id).find? (name a)) = some a := by
  have hfind : (fun id => (table id).find? (name a)) =
      fun id => ((table id).entries.find? fun e => e.1 == name a).map Prod.snd :=
    funext fun id => Table.lookup_eq_find?
  rw [mem_sortedByName (forall_mem_entries h), List.find?_flatMap, List.map_findSome?, hfind]
  rfl

end Store

namespace Handles

/-- **Listings agree with lookups**, whatever was done with handles before.  The identifiers that a
chain of scopes lists are strictly sorted by the bytes of their names, and they are the ones that
looking up their names finds; and so are the functions. -/
theorem listings_agree (acts : List HandleAct) (h : Scopes) :
    ((start.run acts).store.idents h).Pairwise
      (fun v w => Text.utf8 v.name < Text.utf8 w.name) ∧
    (∀ v, v ∈ (start.run acts).store.idents h ↔
      (start.run acts).store.findIdent? h v.name = some v) ∧
    ((start.run acts).store.functions h).Pairwise
      (fun f g => Text.utf8 f.name < Text.utf8 g.name) ∧
    (∀ f, f ∈ (start.run acts).store.functions h ↔
      (start.run acts).store.findFunction? h f.name = some f) := by
  have hidents := fun id => (filed_run acts id).idents
  have hfunctions := fun id => (filed_run acts id).functions
  exact ⟨Store.pairwise_sortedByName (Store.forall_mem_entries hidents),
    fun _ => Store.mem_sortedByName_iff hidents,
    Store.pairwise_sortedByName (Store.forall_mem_entries hfunctions),
    fun _ => Store.mem_sortedByName_iff hfunctions⟩

end Handles
end CelTyping
